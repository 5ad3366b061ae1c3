import LocalScopes.Json.Problem
import LocalScopes.Json.StringLiteral

/-! # Tokens of JSON texts

The start of a value is read at once, and so is the end of a value whose content does not matter.
The latter takes strings and numbers by their form alone: units that form no character and numbers
that are too large do no harm there.

* `readHead`: the start of a value;
* `skipPlain`: the end of a value that is no container. -/

namespace LocalScopes.Json

/-- A text that is no JSON. -/
abbrev malformed {α : Type} : Except Problem α := .error .malformed

/-- The character means nothing between tokens. -/
def isBlank (c : Char) : Bool := c = ' ' || c = '\n' || c = '\t' || c = '\r'

/-- The text from its first token on. -/
def skipBlanks (text : List Char) : List Char := text.dropWhile isBlank

/-- The literal values that are written as words. -/
def wordValues : List (List Char × Head) :=
  [(['n', 'u', 'l', 'l'], .null), (['t', 'r', 'u', 'e'], .boolean true),
    (['f', 'a', 'l', 's', 'e'], .boolean false)]

/-- Reads a value that is written as a word. -/
def readWord (text : List Char) : Option (Head × List Char) :=
  wordValues.findSome? fun w => (w.1.isPrefixOf? text).map fun rest => (w.2, rest)

/-- The character starts a number. -/
def startsNumber (c : Char) : Bool := c = '-' || c.isDigit

/-- Reads a number. -/
def readNumber (text : List Char) : Option (Head × List Char) :=
  match NumberLiteral.read text with
  | none => none
  | some (literal, rest) => literal.value.map fun n => (.number n, rest)

/-- Reads the start of a value, at its first character. -/
def readHeadFrom (text : List Char) : Option (Head × List Char) :=
  match text with
  | [] => none
  | c :: rest =>
    if c = '"' then (StringLiteral.read rest).map fun r => (.text r.1, r.2)
    else if c = '[' then some (.sequence, rest)
    else if c = '\x7b' then some (.map, rest)
    else if startsNumber c then readNumber text
    else readWord text

/-- Reads the start of a value. -/
def readHead (text : List Char) : Except Problem (Head × List Char) :=
  match readHeadFrom (skipBlanks text) with
  | none => malformed
  | some r => .ok r

/-- The text behind a value that is no container, from its first character on. -/
def skipPlain (text : List Char) : Option (List Char) :=
  match text with
  | [] => none
  | c :: rest =>
    if c = '"' then StringLiteral.skip rest
    else if startsNumber c then (NumberLiteral.read text).map (·.2)
    else (readWord text).map (·.2)

/-! ### What is left of the text -/

theorem length_skipBlanks (text : List Char) : (skipBlanks text).length ≤ text.length :=
  (List.dropWhile_suffix _).length_le

theorem length_lt_of_skipBlanks {text rest : List Char} {c : Char}
    (h : skipBlanks text = c :: rest) : rest.length < text.length := by
  have := length_skipBlanks text
  rw [h, List.length_cons] at this
  exact this

theorem length_isPrefixOf? {word text rest : List Char} (h : word.isPrefixOf? text = some rest) :
    word.length + rest.length = text.length := by
  induction word generalizing text with
  | nil =>
    obtain rfl : text = rest := Option.some.inj h
    rw [List.length_nil, Nat.zero_add]
  | cons a word ih =>
    cases text with
    | nil => exact nomatch h
    | cons b text =>
      change (if a == b then word.isPrefixOf? text else none) = some rest at h
      split at h
      · have := ih h
        rw [List.length_cons, List.length_cons]
        omega
      · simp at h

theorem length_readWord {text rest : List Char} {head : Head}
    (h : readWord text = some (head, rest)) : rest.length < text.length := by
  obtain ⟨w, member, found⟩ := List.exists_of_findSome?_eq_some h
  simp only [Option.map_eq_some_iff, Prod.mk.injEq] at found
  obtain ⟨_, found, _, rfl⟩ := found
  have := length_isPrefixOf? found
  simp only [wordValues, List.mem_cons, List.not_mem_nil, or_false] at member
  rcases member with rfl | rfl | rfl <;> simp only [List.length_cons] at this <;> omega

theorem length_readNumber {text rest : List Char} {head : Head}
    (h : readNumber text = some (head, rest)) : rest.length < text.length := by
  unfold readNumber at h
  split at h
  · simp at h
  · have := NumberLiteral.length_read ‹_›
    simp only [Option.map_eq_some_iff, Prod.mk.injEq] at h
    obtain ⟨_, _, _, rfl⟩ := h
    exact this

theorem length_readHeadFrom {text rest : List Char} {head : Head}
    (h : readHeadFrom text = some (head, rest)) : rest.length < text.length := by
  unfold readHeadFrom at h
  split at h
  · simp at h
  · split at h
    · simp only [Option.map_eq_some_iff, Prod.mk.injEq] at h
      obtain ⟨_, h, _, rfl⟩ := h
      exact Nat.lt_succ_of_lt (StringLiteral.length_read h)
    · split at h
      · simp only [Option.some.injEq, Prod.mk.injEq] at h
        simp [← h.2]
      · split at h
        · simp only [Option.some.injEq, Prod.mk.injEq] at h
          simp [← h.2]
        · split at h
          · exact length_readNumber h
          · exact length_readWord h

theorem length_readHead {text rest : List Char} {head : Head}
    (h : readHead text = .ok (head, rest)) : rest.length < text.length := by
  unfold readHead at h
  split at h
  · simp at h
  · have := length_skipBlanks text
    simp only [Except.ok.injEq] at h
    subst h
    have := length_readHeadFrom ‹_›
    omega

theorem length_skipPlain {text rest : List Char} (h : skipPlain text = some rest) :
    rest.length < text.length := by
  unfold skipPlain at h
  split at h
  · simp at h
  · split at h
    · exact Nat.lt_succ_of_lt (StringLiteral.length_skip h)
    · split at h
      · simp only [Option.map_eq_some_iff] at h
        obtain ⟨_, h, rfl⟩ := h
        exact NumberLiteral.length_read h
      · simp only [Option.map_eq_some_iff] at h
        obtain ⟨_, h, rfl⟩ := h
        exact length_readWord h

end LocalScopes.Json
