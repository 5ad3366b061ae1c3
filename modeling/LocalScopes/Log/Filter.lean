import LocalScopes.Event
import LocalScopes.Pattern.Reading

/-! # Filters

A filter decides which events are logged. It is written as directives between commas. Of those that
apply to an event the one with the longest target decides, then one with a field, and of two that
differ in neither the later one.

A directive sets the verbosity for the events that it applies to. It is written as a target, the
name of a span and of a field between brackets, and a verbosity behind an equals sign, as in
`target[span{field=value}]=level`; each of the three may be left out, and a verbosity alone needs
no sign. Without a verbosity all events pass.

A verbosity is the greatest level that passes, or none at all. It is written by name, in letters of
either case, or by a number from 0 on, which may have a plus sign and zeros before it.

* `Directive.read`: the directive of a text, if it is one;
* `Directive.AppliesTo`: the events that a directive applies to;
* `Filter.read`: the filter of a text, if every directive in it can be read;
* `Filter.Passes`: the events that a filter lets through. -/

namespace LocalScopes

/-! ### Verbosities -/

/-- The greatest level that passes; nothing passes without one. -/
abbrev Verbosity := Option Level

/-- The number of a level: a louder one has a smaller number. -/
def Level.rank : Level → Nat
  | error => 1
  | warn => 2
  | info => 3
  | debug => 4
  | trace => 5

/-- A level passes at a verbosity. -/
def Level.PassesAt (level : Level) : Verbosity → Prop
  | none => False
  | some most => level.rank ≤ most.rank

instance (level : Level) (v : Verbosity) : Decidable (level.PassesAt v) := by
  unfold Level.PassesAt
  split <;> infer_instance

namespace Verbosity

/-- The verbosities by name, in the order of their numbers. -/
def named : List (String × Verbosity) :=
  [("off", none), ("error", some .error), ("warn", some .warn), ("info", some .info),
    ("debug", some .debug), ("trace", some .trace)]

/-- The verbosity that a number stands for. -/
def readNumber (text : List Char) : Option Verbosity :=
  let numeral := match text with
    | '+' :: rest => rest
    | _ => text
  if Text.isNumeral numeral then named[Text.numeralValue numeral]?.map (·.2) else none

/-- The verbosity that a name or a number stands for. -/
def read (text : String) : Option Verbosity :=
  (readNumber text.toList).orElse fun _ =>
    (named.find? fun v => v.1 = text.toLower).map (·.2)

end Verbosity

/-! ### Directives -/

/-- What a directive asks of the fields of an event: one of this name, and what its value must
match. -/
structure FieldTest where
  name : String
  value : Option String
deriving DecidableEq

/-- One rule of a filter: the start of the targets, the span and the field that it asks for, and
what it lets pass. -/
structure Directive where
  target : Option String
  span : Option String
  field : Option FieldTest
  verbosity : Verbosity
deriving DecidableEq

/-! ### Tests of fields -/

namespace FieldTest

/-- The text is a number with a fraction or an exponent or neither, and no sign. -/
def isUnsigned (text : List Char) : Bool :=
  let whole := text.takeWhile Char.isDigit
  let behindWhole := text.dropWhile Char.isDigit
  let (fraction, rest) := match behindWhole with
    | '.' :: rest => (rest.takeWhile Char.isDigit, rest.dropWhile Char.isDigit)
    | _ => ([], behindWhole)
  (!whole.isEmpty || !fraction.isEmpty) &&
    match rest with
    | [] => true
    | c :: '+' :: digits | c :: '-' :: digits => (c = 'e' || c = 'E') && Text.isNumeral digits
    | c :: digits => (c = 'e' || c = 'E') && Text.isNumeral digits

/-- The names of numbers that have no digits. -/
def numberNames : List String := ["inf", "infinity", "nan"]

/-- The text is a number behind a plus sign. Every other number is a pattern, too. -/
def isSigned : List Char → Bool
  | '+' :: text => isUnsigned text || numberNames.contains (String.ofList text).toLower
  | _ => false

/-- Reads what is asked of a field: a name, and possibly a value behind an equals sign. What follows
a second equals sign does not count. -/
def read (text : List Char) : Option FieldTest :=
  if text = [] then none
  else
    let name := String.ofList (text.takeWhile (· ≠ '='))
    match text.dropWhile (· ≠ '=') with
    | [] => some ⟨name, none⟩
    | _ :: rest =>
      let value := rest.takeWhile (· ≠ '=')
      if isSigned value || Pattern.isWellFormed value then some ⟨name, some (String.ofList value)⟩
      else none

end FieldTest

/-! ### Reading directives -/

namespace Directive

/-- The characters of a text that start at a position from `first` on and before `stop`. Positions
count bytes, and the text starts at `position`. -/
def cutFrom (first stop : Nat) : (position : Nat) → List Char → List Char
  | _, [] => []
  | position, c :: text =>
    let rest := cutFrom first stop (position + c.utf8Size) text
    if first ≤ position ∧ position < stop then c :: rest else rest

/-- The part of a text between two positions. -/
def cut (text : String) (first stop : Nat) : String :=
  String.ofList (cutFrom first stop 0 text.toList)

/-- The part of a directive that a character belongs to. A part that is cut out at its end keeps the
position of its first character. -/
inductive Part where
  | start
  /-- The target, or a verbosity alone. -/
  | head
  | span (first : Nat)
  | field (first : Nat)
  /-- What follows the field. -/
  | behindField
  /-- What follows the brackets. -/
  | behindSpan
  | level (first : Nat)

/-- A directive that is read up to a position, and the part that the next character belongs to. -/
structure Draft where
  position : Nat
  part : Part
  directive : Directive

/-- The draft before the first character. -/
def Draft.empty : Draft := ⟨0, .start, ⟨none, none, none, some .trace⟩⟩

/-- The character may start a target. -/
def canStart (c : Char) : Bool := c = '-' || c = ':' || c = '_' || Text.isAlphanumeric c

/-- Reads one more character, where parts are cut out of `text`. -/
def Draft.advance (text : String) (d : Draft) (c : Char) : Option Draft :=
  let next := d.position + c.utf8Size
  let upToHere (first : Nat) : String := cut text first d.position
  match d.part with
  | .start =>
    if c = '[' then some ⟨next, .span next, d.directive⟩
    else if canStart c then some ⟨next, .head, d.directive⟩
    else none
  | .head =>
    let named := { d.directive with target := some (upToHere 0) }
    if c = '=' then some ⟨next, .level next, named⟩
    else if c = '[' then some ⟨next, .span next, named⟩
    else some ⟨next, .head, d.directive⟩
  | .span first =>
    let name := upToHere first
    if c = ']' then some ⟨next, .behindSpan, { d.directive with span := some name }⟩
    else if c = '\x7b' then
      let span := if name = "" then none else some name
      some ⟨next, .field next, { d.directive with span := span }⟩
    else some ⟨next, .span first, d.directive⟩
  | .field first =>
    if c = '\x7d' then
      (FieldTest.read (upToHere first).toList).map fun test =>
        ⟨next, .behindField, { d.directive with field := some test }⟩
    else some ⟨next, .field first, d.directive⟩
  | .behindField => if c = ']' then some ⟨next, .behindSpan, d.directive⟩ else none
  | .behindSpan => if c = '=' then some ⟨next, .level next, d.directive⟩ else none
  | .level first => some ⟨next, .level first, d.directive⟩

/-- The directive of a draft behind its last character. A head that is no verbosity is a target, and
an empty verbosity lets all events pass. -/
def Draft.finish (text : String) (d : Draft) : Option Directive :=
  match d.part with
  | .head =>
    match Verbosity.read text with
    | some v => some { d.directive with verbosity := v }
    | none => some { d.directive with target := some text }
  | .level first =>
    let level := cut text first text.utf8ByteSize
    if level = "" then some d.directive
    else (Verbosity.read level).map fun v => { d.directive with verbosity := v }
  | .behindSpan => some d.directive
  | _ => none

/-- Reads a directive. Its parts are told apart without the blanks around it, and positions are
counted from behind them, but the parts are cut out of the text with its blanks. -/
def read (text : String) : Option Directive :=
  ((Text.trim text.toList).foldlM (Draft.advance text) Draft.empty).bind (Draft.finish text)

/-! ### Applying directives -/

/-- The directive applies to an event: the event's target starts with the directive's, and the event
has the field. A rule for a span or for the value of a field applies to no event, because events are
raised outside of spans, and values are looked at in spans only. -/
def AppliesTo (d : Directive) (e : Event) : Prop :=
  d.span = none ∧ (∀ start ∈ d.target, e.target.startsWith start = true) ∧
    ∀ test ∈ d.field, test.value = none ∧ test.name ∈ e.fieldNames

instance (d : Directive) (e : Event) : Decidable (d.AppliesTo e) :=
  inferInstanceAs (Decidable (_ ∧ _ ∧ _))

/-- How much of a target the directive names: nothing without a target of its own, and else one more
than the length of that. -/
def reach (d : Directive) : Nat :=
  match d.target with
  | none => 0
  | some start => start.length + 1

/-- The first field comes no later than the second: fields are ordered by name, and no field comes
before all others. -/
def fieldLE : Option FieldTest → Option FieldTest → Bool
  | none, _ => true
  | some _, none => false
  | some a, some b => a.name ≤ b.name

/-- A directive yields to a later one that names more of a target, or as much of it and a field that
comes no earlier. -/
def YieldsTo (d e : Directive) : Prop :=
  d.reach < e.reach ∨ d.reach = e.reach ∧ fieldLE d.field e.field = true

instance (d e : Directive) : Decidable (d.YieldsTo e) :=
  inferInstanceAs (Decidable (_ ∨ _ ∧ _))

end Directive

/-! ### Filters -/

/-- The rules that decide which events are logged, in the order in which they are written. -/
structure Filter where
  directives : List Directive
deriving DecidableEq

namespace Filter

/-- The filter that lets errors pass. -/
def errorsOnly : Filter := ⟨[⟨none, none, none, some .error⟩]⟩

/-- Reads a filter. Empty directives are left out, and a filter with none lets errors pass. -/
def read (text : String) : Option Filter :=
  let pieces := (text.splitOn ",").filter fun piece => piece ≠ ""
  if pieces = [] then some errorsOnly else (pieces.mapM Directive.read).map Filter.mk

/-- The filter in use when no other is asked for. -/
def defaultText : String := "warn,varscope_core=info,varscope_java=info"

/-- The filter of a text; the default one if there is no text, or none that can be read. -/
def ofText (text : Option String) : Filter :=
  ((text.bind read).orElse fun _ => read defaultText).getD ⟨[]⟩

/-- The directive that decides so far, after one more that applies. -/
def better (best : Option Directive) (d : Directive) : Option Directive :=
  match best with
  | none => some d
  | some old => if old.YieldsTo d then some d else best

/-- The directive that decides for an event. -/
def deciding (f : Filter) (e : Event) : Option Directive :=
  (f.directives.filter fun d => d.AppliesTo e).foldl better none

/-- The filter lets an event through. -/
def Passes (f : Filter) (e : Event) : Prop :=
  e.level.PassesAt ((f.deciding e).bind (·.verbosity))

instance (f : Filter) (e : Event) : Decidable (f.Passes e) :=
  inferInstanceAs (Decidable (Level.PassesAt _ _))

end Filter

end LocalScopes
