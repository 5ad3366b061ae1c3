import LocalScopes.Pattern.Escape

/-! # Classes between brackets

Parts of a pattern stand side by side, and each is nested so deep: a character not at all, and a
repetition, a group, a class or a choice one deeper than its deepest part. More than one part side
by side counts as one more level.

A class has members: characters, ranges of them, classes of ASCII characters by name, classes by
property, and classes between brackets of their own. A caret before the members asks for what is
outside of the class. Double ampersands, hyphens and tildes stand for set operations; each takes all
the members before it and those behind it up to the next one.

* `Bracket.read`: the nesting of a class, and the text behind it. -/

namespace LocalScopes.Pattern

/-! ### Nesting -/

/-- Parts that stand side by side: their number, and the nesting of the deepest one. -/
structure Parts where
  count : Nat
  deepest : Nat

namespace Parts

/-- No parts. -/
def empty : Parts := ⟨0, 0⟩

/-- One more part. -/
def add (p : Parts) (nesting : Nat) : Parts := ⟨p.count + 1, max p.deepest nesting⟩

/-- The nesting of all parts together. -/
def nesting (p : Parts) : Nat := if p.count ≤ 1 then p.deepest else p.deepest + 1

end Parts

/-- The nesting of a choice of `parts` and what is before them, if there is anything. -/
def nestingBehind (before : Option Nat) (parts : Parts) : Nat :=
  match before with
  | none => parts.nesting
  | some nesting => max nesting parts.nesting + 1

/-- The greatest nesting of a pattern. -/
def maxNesting : Nat := 250

/-! ### Members -/

/-- The classes of ASCII characters that have names. -/
def classNames : List String :=
  ["alnum", "alpha", "ascii", "blank", "cntrl", "digit", "graph", "lower", "print", "punct",
    "space", "upper", "word", "xdigit"]

/-- Reads a class that is given by name, where `text` follows its bracket. A caret before the name
asks for what is outside of it. -/
def readNamed (text : List Char) : Option (Bool × List Char) :=
  classNames.findSome? fun name =>
    (((s!":{name}:]").toList.isPrefixOf? text).map fun rest => (false, rest)).orElse fun _ =>
      ((s!":^{name}:]").toList.isPrefixOf? text).map fun rest => (true, rest)

/-- Reads a member that is not between brackets, up to a hyphen that would make a range. -/
def readMember (m : Modes) (text : List Char) : Option (Escape × List Char) :=
  match text with
  | [] => none
  | '\\' :: rest => Escape.read m rest
  | c :: rest => some (.literal ⟨c, false⟩, rest)

/-- The member can be asked for; places are no members. -/
def isMember (m : Modes) : Escape → Bool
  | .literal l => m.allowsMember l
  | .property negated => m.allowsProperty negated
  | .textBound | .wordBound => false

/-- The two members are the ends of a range. -/
def isRange (m : Modes) : Escape → Escape → Bool
  | .literal low, .literal high =>
    m.allowsMember low && m.allowsMember high && low.char ≤ high.char
  | _, _ => false

/-- The text behind a member or a range. A hyphen before the closing bracket or before another
hyphen makes no range. -/
def afterMember (m : Modes) (text : List Char) : Option (List Char) :=
  match readMember m text with
  | none => none
  | some (low, rest) =>
    let rest := m.skip rest
    let single := if isMember m low then some rest else none
    match rest with
    | '-' :: behind =>
      if m.behindHyphen behind = some ']' ∨ m.behindHyphen behind = some '-' then single
      else
        match readMember m (m.skip behind) with
        | none => none
        | some (high, rest) => if isRange m low high then some rest else none
    | _ => single

/-! ### Brackets -/

/-- What was read of a class: whether it is more than hyphens, the nesting of what a set operation
takes on its left, and the members since then. -/
structure Bracket where
  isFresh : Bool
  operand : Option Nat
  members : Parts

namespace Bracket

/-- A class of which nothing was read. -/
def empty : Bracket := ⟨true, none, .empty⟩

/-- A class with one more member. -/
def add (b : Bracket) (nesting : Nat) : Bracket := ⟨false, b.operand, b.members.add nesting⟩

/-- A class with a hyphen more at its start. -/
def addHyphen (b : Bracket) : Bracket := ⟨true, b.operand, b.members.add 0⟩

/-- The nesting of a class, its brackets included. -/
def nesting (b : Bracket) : Nat := nestingBehind b.operand b.members + 1

/-- A class behind the sign of a set operation. -/
def operate (b : Bracket) : Bracket := ⟨false, some (nestingBehind b.operand b.members), .empty⟩

/-- The text behind the caret of a class, if there is one and it is allowed. -/
def afterCaret (m : Modes) (text : List Char) : Option (List Char) :=
  match m.skip text with
  | '^' :: rest => if m.allowsComplement then some rest else none
  | rest => some rest

/-- Reads a class from its members `b` on, up to its end, with the classes `outer` around it. Each
step takes a character. -/
def readFrom (m : Modes) : (steps : Nat) → (outer : List Bracket) → (b : Bracket) → List Char →
    Option (Nat × List Char)
  | 0, _, _, _ => none
  | steps + 1, outer, b, text =>
    let member (rest : List Char) (allowed : Bool) (b : Bracket) : Option (Nat × List Char) :=
      if allowed then readFrom m steps outer b rest else none
    match m.skip text with
    | [] => none
    | '[' :: rest =>
      match readNamed rest with
      | some (negated, rest) => member rest (m.allowsNamed negated) (b.add 0)
      | none => (afterCaret m rest).bind (readFrom m steps (b :: outer) .empty)
    | ']' :: rest =>
      if b.isFresh ∧ b.members.count = 0 then
        member rest (m.allowsMember ⟨']', false⟩) (b.add 0)
      else
        match outer with
        | [] => some (b.nesting, rest)
        | around :: outer => readFrom m steps outer (around.add b.nesting) rest
    | '-' :: rest =>
      if b.isFresh then member rest (m.allowsMember ⟨'-', false⟩) b.addHyphen
      else if rest.head? = some '-' then member (rest.drop 1) true b.operate
      else (afterMember m ('-' :: rest)).bind (readFrom m steps outer (b.add 0))
    | '&' :: '&' :: rest | '~' :: '~' :: rest => member rest true b.operate
    | text => (afterMember m text).bind (readFrom m steps outer (b.add 0))

/-- Reads a class, where `text` follows its bracket. -/
def read (m : Modes) (text : List Char) : Option (Nat × List Char) :=
  (afterCaret m text).bind (readFrom m (text.length + 1) [] .empty)

end Bracket

end LocalScopes.Pattern
