/-! # Number literals in JSON

A number is written as digits, with a minus sign before them if it is negative, and possibly with a
fraction and an exponent behind them. More than one digit must not start with 0, and a point or an
exponent mark needs a digit behind it.

* `NumberLiteral.read`: the literal at the head of a text. -/

namespace LocalScopes.Json

/-- A number literal by its parts: a minus sign in front, the digits before the point and those
behind it, if any, and the sign and the digits of the exponent. -/
structure NumberLiteral where
  negative : Bool
  whole : List Nat
  fraction : List Nat
  exponent : Option (Bool × List Nat)
deriving DecidableEq

/-! ### Reading literals -/

/-- The value of a decimal digit. -/
def digit (c : Char) : Nat := c.toNat - 48

/-- The digits at the head of a text. -/
def digits (text : List Char) : List Nat := (text.takeWhile Char.isDigit).map digit

/-- The text behind the digits at its head. -/
def afterDigits (text : List Char) : List Char := text.dropWhile Char.isDigit

theorem length_afterDigits (text : List Char) :
    (digits text).length + (afterDigits text).length = text.length := by
  rw [digits, afterDigits, List.length_map, ← List.length_append, List.takeWhile_append_dropWhile]

namespace NumberLiteral

/-- Reads the sign of a number. -/
def readSign : List Char → Bool × List Char
  | '-' :: rest => (true, rest)
  | text => (false, text)

/-- Reads the digits before the point. More than one digit must not start with 0. -/
def readWhole (text : List Char) : Option (List Nat × List Char) :=
  match digits text with
  | [] => none
  | 0 :: _ :: _ => none
  | ds => some (ds, afterDigits text)

/-- Reads a fraction, which needs a digit. Without a point there is none. -/
def readFraction : List Char → Option (List Nat × List Char)
  | '.' :: rest => if digits rest = [] then none else some (digits rest, afterDigits rest)
  | text => some ([], text)

/-- Reads the sign of an exponent. -/
def readExponentSign : List Char → Bool × List Char
  | '-' :: rest => (true, rest)
  | '+' :: rest => (false, rest)
  | text => (false, text)

/-- Reads an exponent, which needs a digit. Without its mark there is none. -/
def readExponent (text : List Char) : Option (Option (Bool × List Nat) × List Char) :=
  match text with
  | c :: rest =>
    if c = 'e' ∨ c = 'E' then
      let (negative, rest) := readExponentSign rest
      if digits rest = [] then none else some (some (negative, digits rest), afterDigits rest)
    else some (none, text)
  | [] => some (none, [])

/-- Reads the literal at the head of a text. -/
def read (text : List Char) : Option (NumberLiteral × List Char) :=
  let (negative, rest) := readSign text
  match readWhole rest with
  | none => none
  | some (whole, rest) =>
    match readFraction rest with
    | none => none
    | some (fraction, rest) =>
      match readExponent rest with
      | none => none
      | some (exponent, rest) => some (⟨negative, whole, fraction, exponent⟩, rest)

/-! ### What is left of the text -/

theorem length_readSign (text : List Char) : (readSign text).2.length ≤ text.length := by
  unfold readSign
  split <;> simp

theorem length_readWhole {text rest : List Char} {ds : List Nat}
    (h : readWhole text = some (ds, rest)) : rest.length < text.length := by
  have := length_afterDigits text
  unfold readWhole at h
  split at h
  · simp at h
  · simp at h
  · rename_i nonempty _
    simp only [Option.some.injEq, Prod.mk.injEq] at h
    have := List.length_pos_iff.mpr nonempty
    rw [← h.2]
    omega

theorem length_readFraction {text rest : List Char} {ds : List Nat}
    (h : readFraction text = some (ds, rest)) : rest.length ≤ text.length := by
  unfold readFraction at h
  split at h
  · rename_i text
    have := length_afterDigits text
    split at h
    · simp at h
    · simp only [Option.some.injEq, Prod.mk.injEq] at h
      simp only [← h.2, List.length_cons]
      omega
  · rw [Option.some.injEq, Prod.mk.injEq] at h
    exact Nat.le_of_eq (congrArg List.length h.2.symm)

theorem length_readExponentSign (text : List Char) :
    (readExponentSign text).2.length ≤ text.length := by
  unfold readExponentSign
  split <;> simp

theorem length_readExponent {text rest : List Char} {exponent : Option (Bool × List Nat)}
    (h : readExponent text = some (exponent, rest)) : rest.length ≤ text.length := by
  unfold readExponent at h
  split at h
  · rename_i c text
    have := length_readExponentSign text
    have := length_afterDigits (readExponentSign text).2
    split at h
    · dsimp only at h
      split at h
      · simp at h
      · simp only [Option.some.injEq, Prod.mk.injEq] at h
        simp only [← h.2, List.length_cons]
        omega
    · rw [Option.some.injEq, Prod.mk.injEq] at h
      exact Nat.le_of_eq (congrArg List.length h.2.symm)
  · rw [Option.some.injEq, Prod.mk.injEq] at h
    exact Nat.le_of_eq (congrArg List.length h.2.symm)

theorem length_read {text rest : List Char} {literal : NumberLiteral}
    (h : read text = some (literal, rest)) : rest.length < text.length := by
  unfold read at h
  have := length_readSign text
  dsimp only at h
  split at h
  · simp at h
  · have := length_readWhole ‹_›
    split at h
    · simp at h
    · have := length_readFraction ‹_›
      split at h
      · simp at h
      · have := length_readExponent ‹_›
        simp only [Option.some.injEq, Prod.mk.injEq] at h
        rw [← h.2]
        omega

end NumberLiteral

end LocalScopes.Json
