import LocalScopes.Pattern.Bracket

/-! # Patterns

A pattern describes texts by alternatives, groups, classes of characters and repetitions. A
parenthesis opens a group, which may have a name or change the modes for itself, or it holds a
change of modes for what follows in the group around it. The text of a pattern is never followed by
a closing brace here, so there are no repetitions by count. This module decides what is a pattern;
it does not match texts with one.

* `Pattern.isWellFormed`: the text is a pattern. -/

namespace LocalScopes.Pattern

/-! ### Opening parentheses -/

/-- What an opening parenthesis begins: a group with a change of modes for it, a group with a name,
or a change of modes that is closed already. -/
inductive Opening where
  | group (change : List Char)
  | named (name : List Char)
  | modes (change : List Char)

namespace Opening

/-- The characters are the name of a group. -/
def isName : List Char → Bool
  | [] => false
  | c :: name =>
    (c = '_' || Text.isAlphabetic c) &&
      name.all fun c => c = '_' || c = '.' || c = '[' || c = ']' || Text.isAlphanumeric c

/-- Reads a name up to its closing angle. -/
def readName (text : List Char) : Option (Opening × List Char) :=
  let name := text.takeWhile (· ≠ '>')
  match text.dropWhile (· ≠ '>') with
  | [] => none
  | _ :: rest => if isName name then some (.named name, rest) else none

/-- Reads a change of modes, which stands alone or before the inside of a group. -/
def readModes (text : List Char) : Option (Opening × List Char) :=
  let change := text.takeWhile fun c => c ≠ ':' && c ≠ ')'
  if !Modes.isChange change then none
  else
    match text.dropWhile fun c => c ≠ ':' && c ≠ ')' with
    | ':' :: rest => some (.group change, rest)
    | ')' :: rest => if change = [] then none else some (.modes change, rest)
    | _ => none

/-- Reads what an opening parenthesis begins, up to the inside of a group. -/
def read : List Char → Option (Opening × List Char)
  | '?' :: 'P' :: '<' :: rest | '?' :: '<' :: rest => readName rest
  | '?' :: rest => readModes rest
  | rest => some (.group [], rest)

end Opening

/-! ### Groups -/

/-- What was read of a group, or of the whole pattern: the modes around it, which come back behind
it, the nesting of the alternatives before the last one, the parts of the last one, and the nesting
of the last part, if it can be repeated. -/
structure Group where
  around : Modes
  alternatives : Option Nat
  parts : Parts
  last : Option Nat

namespace Group

/-- A group of which nothing was read. -/
def empty (around : Modes) : Group := ⟨around, none, .empty, none⟩

/-- A group with one more part. -/
def add (g : Group) (nesting : Nat) : Group :=
  { g with parts := g.parts.add nesting, last := some nesting }

/-- A group with a change of modes more, which cannot be repeated. -/
def addChange (g : Group) : Group := { g with parts := g.parts.add 0, last := none }

/-- A group behind a bar. -/
def alternate (g : Group) : Group :=
  let before := (g.alternatives.map fun nesting => max nesting g.parts.nesting).getD g.parts.nesting
  ⟨g.around, some before, .empty, none⟩

/-- A group whose last part is repeated. -/
def repeatLast (g : Group) : Option Group :=
  g.last.map fun nesting =>
    { g with
      parts := ⟨g.parts.count, max g.parts.deepest (nesting + 1)⟩, last := some (nesting + 1) }

/-- The nesting of what is in a group. -/
def nesting (g : Group) : Nat := nestingBehind g.alternatives g.parts

end Group

/-! ### Patterns -/

/-- What was read of a pattern. The groups around the innermost open one go from the inside to the
outside. -/
structure Reading where
  modes : Modes
  names : List (List Char)
  group : Group
  outer : List Group

namespace Reading

/-- Before the first character. -/
def start : Reading := ⟨.default, [], .empty .default, []⟩

/-- One more part is read. -/
def add (r : Reading) (nesting : Nat) : Reading := { r with group := r.group.add nesting }

/-- A group is opened. -/
def openGroup (r : Reading) (change : List Char) : Reading :=
  ⟨r.modes.switch change, r.names, .empty r.modes, r.group :: r.outer⟩

/-- What an opening parenthesis begins is read. A name must be new. -/
def enter (r : Reading) : Opening → Option Reading
  | .group change => some (r.openGroup change)
  | .named name =>
    if r.names.contains name then none
    else some { r.openGroup [] with names := name :: r.names }
  | .modes change =>
    some { r with modes := r.modes.switch change, group := r.group.addChange }

/-- The innermost group is closed. -/
def leave (r : Reading) : Option Reading :=
  match r.outer with
  | [] => none
  | group :: outer =>
    some ⟨r.group.around, r.names, group.add (r.group.nesting + 1), outer⟩

/-- Nothing is open at the end, and nothing is nested too deep. -/
def isComplete (r : Reading) : Bool := r.outer.isEmpty && r.group.nesting ≤ maxNesting

/-- A sign of repetition, and the question mark behind it that makes it take less. -/
def afterRepetition : List Char → List Char
  | '?' :: rest => rest
  | rest => rest

/-- Reads what starts with the character `c`, which is no blank that does not count; answers with
the rest of the text. -/
def next (r : Reading) (c : Char) (rest : List Char) : Option (Reading × List Char) :=
  if c = '(' then
    (Opening.read (r.modes.skip rest)).bind fun (opening, rest) =>
      (r.enter opening).map fun r => (r, rest)
  else if c = ')' then r.leave.map fun r => (r, rest)
  else if c = '|' then some ({ r with group := r.group.alternate }, rest)
  else if c = '[' then
    (Bracket.read r.modes rest).map fun (nesting, rest) => (r.add nesting, rest)
  else if c = '\\' then
    (Escape.read r.modes rest).bind fun (escape, rest) =>
      if escape.isAllowed r.modes then some (r.add 0, rest) else none
  else if c = '?' ∨ c = '*' ∨ c = '+' then
    r.group.repeatLast.map fun group => ({ r with group := group }, afterRepetition rest)
  else if c = '\x7b' then none
  else if c = '^' ∨ c = '$' then some (r.add 0, rest)
  else if c = '.' then if r.modes.allowsAny then some (r.add 0, rest) else none
  else if r.modes.allowsLiteral ⟨c, false⟩ then some (r.add 0, rest)
  else none

/-- The text goes on to the end of a pattern. Each step takes a character. -/
def goesOn : (steps : Nat) → Reading → List Char → Bool
  | 0, _, _ => false
  | steps + 1, r, text =>
    match r.modes.skip text with
    | [] => r.isComplete
    | c :: rest =>
      match r.next c rest with
      | none => false
      | some (r, rest) => goesOn steps r rest

end Reading

/-- The text is a pattern. -/
def isWellFormed (text : List Char) : Bool := Reading.start.goesOn (text.length + 1) text

end LocalScopes.Pattern
