import LocalScopes.Text.Character

/-! # Modes of patterns

What a pattern means depends on modes that it switches itself: by letters that stand alone between
parentheses, up to the end of the group around them, or at the start of a group, for that group.
Three of them decide what is a pattern at all. A character can be matched without regard to case
only where it is a byte, and classes by property, such as all digits, hold only bytes as well. What
is matched must still be text, so bytes beyond ASCII cannot be asked for.

* `Modes.allowsLiteral`, `Modes.allowsMember` and their like: what can be asked for;
* `Modes.skip`: the blanks and comments of the verbose mode. -/

namespace LocalScopes.Pattern

/-- The modes that decide what is a pattern. A pattern is about characters or about bytes, and
blanks and comments between the parts of a verbose one do not count. -/
structure Modes where
  ignoreCase : Bool
  unicode : Bool
  verbose : Bool

/-- A character that a pattern asks for, which may be written as the code of a byte. -/
structure Literal where
  char : Char
  isByte : Bool

namespace Modes

/-- The modes at the start of a pattern. -/
def default : Modes := ⟨false, true, false⟩

/-! ### What can be asked for -/

/-- A character can stand for itself outside of classes. -/
def allowsLiteral (m : Modes) (l : Literal) : Bool :=
  if m.unicode then !m.ignoreCase else !l.isByte || l.char.toNat < 0x80

/-- A character can be a member of a class. -/
def allowsMember (m : Modes) (l : Literal) : Bool :=
  if m.unicode then !m.ignoreCase else l.char.toNat < 0x80

/-- A class of ASCII characters that is given by name, or what is outside of it, can be a member of
a class. -/
def allowsNamed (m : Modes) (negated : Bool) : Bool :=
  if m.unicode then !m.ignoreCase else !negated

/-- A class by property, or what is outside of it, can be asked for. -/
def allowsProperty (m : Modes) (negated : Bool) : Bool := !m.unicode && !negated

/-- What is outside of a class can be asked for. -/
def allowsComplement (m : Modes) : Bool := m.unicode

/-- Any character at all can be asked for. -/
def allowsAny (m : Modes) : Bool := m.unicode

/-- The bounds of words can be asked for. -/
def allowsWordBounds (m : Modes) : Bool := !m.unicode

/-! ### Changes -/

/-- The letters of all modes. -/
def letters : List Char := ['i', 'm', 's', 'U', 'u', 'R', 'x']

/-- The text switches modes on, and off behind a hyphen, each at most once. -/
def isChange (text : List Char) : Bool :=
  text.all (fun c => c = '-' || letters.contains c) && text.eraseDups = text &&
    text.getLast? ≠ some '-'

/-- A mode after a change, where `c` is its letter. -/
def switched (change : List Char) (c : Char) (old : Bool) : Bool :=
  if change.contains c then (change.takeWhile (· ≠ '-')).contains c else old

/-- The modes after a change. -/
def switch (m : Modes) (change : List Char) : Modes :=
  ⟨switched change 'i' m.ignoreCase, switched change 'u' m.unicode, switched change 'x' m.verbose⟩

/-! ### Blanks -/

/-- The text behind the blanks and comments at its head. A comment ends with its line. -/
def skipComments : (inComment : Bool) → List Char → List Char
  | _, [] => []
  | true, c :: text => skipComments (c ≠ '\n') text
  | false, c :: text =>
    if Text.isSpace c then skipComments false text
    else if c = '#' then skipComments true text
    else c :: text

/-- The text behind what does not count at its head. -/
def skip (m : Modes) (text : List Char) : List Char :=
  if m.verbose then skipComments false text else text

/-- The character that counts as the one behind a hyphen. In the verbose mode blanks are passed over
and the sign of one comment, but not what the comment says. -/
def behindHyphen (m : Modes) (text : List Char) : Option Char :=
  if !m.verbose then text.head?
  else
    match text.dropWhile Text.isSpace with
    | '#' :: rest => (rest.dropWhile Text.isSpace).head?
    | rest => rest.head?

end Modes

end LocalScopes.Pattern
