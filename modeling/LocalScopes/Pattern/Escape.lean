import LocalScopes.Pattern.Mode

/-! # Escapes in patterns

A backslash takes a character for itself, or a letter for something else: a control character, a
code point by hexadecimal digits, a class by property, or a place between characters. -/

namespace LocalScopes.Pattern

/-- What an escape stands for: a character, the characters with a property or without it, an end of
the text, or a place that is the bound of a word or is none. -/
inductive Escape where
  | literal (l : Literal)
  | property (negated : Bool)
  | textBound
  | wordBound

namespace Escape

/-- The number that `count` hexadecimal digits append to `value`, at the head of a text. -/
def readHex (m : Modes) : (count value : Nat) → List Char → Option (Nat × List Char)
  | 0, value, text => some (value, text)
  | count + 1, value, text =>
    match m.skip text with
    | [] => none
    | c :: text =>
      (Text.hexDigit? c).bind fun digit => readHex m count (16 * value + digit) text

/-- Reads the code point of a character. -/
def readCode (m : Modes) (count : Nat) (isByte : Bool) (text : List Char) :
    Option (Escape × List Char) :=
  (readHex m count 0 text).bind fun (n, rest) =>
    if n.isValidChar then some (.literal ⟨Char.ofNat n, isByte⟩, rest) else none

/-- The character stands for itself behind a backslash. -/
def standsForItself (c : Char) : Bool := c.toNat < 0x80 && !c.isAlphanum && c ≠ '<' && c ≠ '>'

/-- What other characters stand for behind a backslash. -/
def lettered : List (Char × Escape) :=
  [('a', .literal ⟨'\x07', false⟩), ('f', .literal ⟨'\x0c', false⟩), ('t', .literal ⟨'\t', false⟩),
    ('n', .literal ⟨'\n', false⟩), ('r', .literal ⟨'\r', false⟩), ('v', .literal ⟨'\x0b', false⟩),
    ('d', .property false), ('s', .property false), ('w', .property false),
    ('D', .property true), ('S', .property true), ('W', .property true),
    ('A', .textBound), ('z', .textBound),
    ('b', .wordBound), ('B', .wordBound), ('<', .wordBound), ('>', .wordBound)]

/-- Reads what stands behind a backslash. -/
def read (m : Modes) (text : List Char) : Option (Escape × List Char) :=
  match text with
  | [] => none
  | c :: rest =>
    if c = 'x' then readCode m 2 true rest
    else if c = 'u' then readCode m 4 false rest
    else if c = 'U' then readCode m 8 false rest
    else if standsForItself c then some (.literal ⟨c, false⟩, rest)
    else (lettered.lookup c).map fun escape => (escape, rest)

/-- The escape can be asked for outside of classes. -/
def isAllowed (m : Modes) : Escape → Bool
  | .literal l => m.allowsLiteral l
  | .property negated => m.allowsProperty negated
  | .textBound => true
  | .wordBound => m.allowsWordBounds

end Escape

end LocalScopes.Pattern
