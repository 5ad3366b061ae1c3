import LocalScopes.Text.Character

/-! # Strings in JSON

A string stands between double quotes. The quote, the backslash and the control characters are
written by escapes, and all other characters as they are. A reader takes every escape of the
format; an escape by number names a 16-bit unit, and two units that form a surrogate pair name one
character. A unit that is half a pair is refused.

* `StringLiteral.written`: the written form of a string;
* `StringLiteral.read`: the string whose written form is at the head of a text, behind the opening
  quote;
* `StringLiteral.skip`: the end of such a string, where units need not form characters. -/

namespace LocalScopes.Json.StringLiteral

/-! ### Writing -/

/-- The two hexadecimal digits of a number below 256, in lower case. -/
def twoHexDigits (n : Nat) : List Char := [Nat.digitChar (n / 16), Nat.digitChar (n % 16)]

/-- The written form of a character. -/
def escape (c : Char) : List Char :=
  if c = '"' then ['\\', '"']
  else if c = '\\' then ['\\', '\\']
  else if c = '\x08' then ['\\', 'b']
  else if c = '\x0c' then ['\\', 'f']
  else if c = '\n' then ['\\', 'n']
  else if c = '\r' then ['\\', 'r']
  else if c = '\t' then ['\\', 't']
  else if c.toNat < 0x20 then '\\' :: 'u' :: '0' :: '0' :: twoHexDigits c.toNat
  else [c]

/-- The written form of a string. -/
def written (s : String) : String :=
  String.ofList ('"' :: (s.toList.flatMap escape ++ ['"']))

/-! ### Escapes -/

/-- The 16-bit unit that four hexadecimal digits at the head of a text name. -/
def readUnit : List Char → Option (Nat × List Char)
  | a :: b :: c :: d :: rest =>
    match Text.hexDigit? a, Text.hexDigit? b, Text.hexDigit? c, Text.hexDigit? d with
    | some a, some b, some c, some d => some (((a * 16 + b) * 16 + c) * 16 + d, rest)
    | _, _, _, _ => none
  | _ => none

/-- The unit is the first half of a surrogate pair. -/
def IsLeading (unit : Nat) : Prop := 0xd800 ≤ unit ∧ unit ≤ 0xdbff

instance (unit : Nat) : Decidable (IsLeading unit) := inferInstanceAs (Decidable (_ ∧ _))

/-- The unit is the second half of a surrogate pair. -/
def IsTrailing (unit : Nat) : Prop := 0xdc00 ≤ unit ∧ unit ≤ 0xdfff

instance (unit : Nat) : Decidable (IsTrailing unit) := inferInstanceAs (Decidable (_ ∧ _))

/-- The character of a surrogate pair. -/
def pairChar (leading trailing : Nat) : Char :=
  Char.ofNat (0x10000 + (leading - 0xd800) * 0x400 + (trailing - 0xdc00))

/-- The character that an escape by number names, behind its `u`. -/
def readNumbered (text : List Char) : Option (Char × List Char) :=
  match readUnit text with
  | none => none
  | some (unit, rest) =>
    if IsTrailing unit then none
    else if IsLeading unit then
      match rest with
      | '\\' :: 'u' :: rest =>
        match readUnit rest with
        | none => none
        | some (second, rest) =>
          if IsTrailing second then some (pairChar unit second, rest) else none
      | _ => none
    else some (Char.ofNat unit, rest)

/-- The character that a letter behind a backslash names. -/
def named? : Char → Option Char
  | '"' => some '"'
  | '\\' => some '\\'
  | '/' => some '/'
  | 'b' => some '\x08'
  | 'f' => some '\x0c'
  | 'n' => some '\n'
  | 'r' => some '\r'
  | 't' => some '\t'
  | _ => none

/-- The character that an escape names, behind its backslash. -/
def readEscape : List Char → Option (Char × List Char)
  | [] => none
  | c :: rest => if c = 'u' then readNumbered rest else (named? c).map fun d => (d, rest)

/-- The text behind an escape, behind its backslash; any unit will do. -/
def skipEscape : List Char → Option (List Char)
  | [] => none
  | c :: rest =>
    if c = 'u' then (readUnit rest).map (·.2) else (named? c).map fun _ => rest

/-! ### What is left of the text -/

theorem length_readUnit {text rest : List Char} {unit : Nat}
    (h : readUnit text = some (unit, rest)) : rest.length < text.length := by
  unfold readUnit at h
  split at h
  · split at h
    · simp only [Option.some.injEq, Prod.mk.injEq] at h
      simp only [← h.2, List.length_cons]
      omega
    · simp at h
  · simp at h

theorem length_readNumbered {text rest : List Char} {c : Char}
    (h : readNumbered text = some (c, rest)) : rest.length < text.length := by
  unfold readNumbered at h
  split at h
  · simp at h
  · have first := length_readUnit ‹_›
    split at h
    · simp at h
    · split at h
      · split at h
        · split at h
          · simp at h
          · have second := length_readUnit ‹_›
            split at h
            · simp only [Option.some.injEq, Prod.mk.injEq] at h
              simp only [List.length_cons] at first
              rw [← h.2]
              omega
            · simp at h
        · simp at h
      · simp only [Option.some.injEq, Prod.mk.injEq] at h
        rw [← h.2]
        exact first

theorem length_readEscape {text rest : List Char} {c : Char}
    (h : readEscape text = some (c, rest)) : rest.length < text.length := by
  unfold readEscape at h
  split at h
  · simp at h
  · split at h
    · exact Nat.lt_succ_of_lt (length_readNumbered h)
    · simp only [Option.map_eq_some_iff, Prod.mk.injEq] at h
      obtain ⟨_, _, _, rfl⟩ := h
      simp

theorem length_skipEscape {text rest : List Char} (h : skipEscape text = some rest) :
    rest.length < text.length := by
  unfold skipEscape at h
  split at h
  · simp at h
  · split at h
    · simp only [Option.map_eq_some_iff] at h
      obtain ⟨_, h, rfl⟩ := h
      exact Nat.lt_succ_of_lt (length_readUnit h)
    · simp only [Option.map_eq_some_iff] at h
      obtain ⟨_, _, rfl⟩ := h
      simp

/-! ### Reading -/

/-- Reads the rest of a string, whose characters so far are `read` in reverse order. -/
def readFrom (read : List Char) (text : List Char) : Option (String × List Char) :=
  match text with
  | [] => none
  | c :: rest =>
    if c = '"' then some (String.ofList read.reverse, rest)
    else if c = '\\' then
      match h : readEscape rest with
      | none => none
      | some (c, behind) =>
        have := length_readEscape h
        readFrom (c :: read) behind
    else if c.toNat < 0x20 then none
    else readFrom (c :: read) rest
termination_by text.length
decreasing_by all_goals simp only [List.length_cons]; omega

/-- Reads a string, behind its opening quote. -/
def read (text : List Char) : Option (String × List Char) := readFrom [] text

/-- The text behind a string, behind its opening quote. -/
def skip (text : List Char) : Option (List Char) :=
  match text with
  | [] => none
  | c :: rest =>
    if c = '"' then some rest
    else if c = '\\' then
      match h : skipEscape rest with
      | none => none
      | some behind =>
        have := length_skipEscape h
        skip behind
    else if c.toNat < 0x20 then none
    else skip rest
termination_by text.length
decreasing_by all_goals simp only [List.length_cons]; omega

/-! ### Steps -/

theorem readFrom_cons (read : List Char) (c : Char) (rest : List Char) :
    readFrom read (c :: rest) =
      if c = '"' then some (String.ofList read.reverse, rest)
      else if c = '\\' then (readEscape rest).bind fun r => readFrom (r.1 :: read) r.2
      else if c.toNat < 0x20 then none
      else readFrom (c :: read) rest := by
  rw [readFrom]
  split
  · rfl
  · split
    · split <;> simp [*]
    · rfl

theorem skip_cons (c : Char) (rest : List Char) :
    skip (c :: rest) =
      if c = '"' then some rest
      else if c = '\\' then (skipEscape rest).bind skip
      else if c.toNat < 0x20 then none
      else skip rest := by
  rw [skip]
  split
  · rfl
  · split
    · split <;> simp [*]
    · rfl

theorem length_readFrom {text rest : List Char} {sofar : List Char} {s : String}
    (h : readFrom sofar text = some (s, rest)) : rest.length < text.length := by
  fun_induction readFrom sofar text with
  | case1 => simp at h
  | case2 =>
    simp only [Option.some.injEq, Prod.mk.injEq] at h
    simp [← h.2]
  | case3 => simp at h
  | case4 _ _ _ _ escaped _ _ ih =>
    have := length_readEscape escaped
    have := ih h
    simp only [List.length_cons]
    omega
  | case5 => simp at h
  | case6 _ _ _ _ _ _ ih => exact Nat.lt_succ_of_lt (ih h)

theorem length_read {text rest : List Char} {s : String} (h : read text = some (s, rest)) :
    rest.length < text.length :=
  length_readFrom h

theorem length_skip {text rest : List Char} (h : skip text = some rest) :
    rest.length < text.length := by
  fun_induction skip text with
  | case1 => simp at h
  | case2 =>
    simp only [Option.some.injEq] at h
    simp [← h]
  | case3 => simp at h
  | case4 _ _ escaped _ _ ih =>
    have := length_skipEscape escaped
    have := ih h
    simp only [List.length_cons]
    omega
  | case5 => simp at h
  | case6 _ _ _ _ _ ih => exact Nat.lt_succ_of_lt (ih h)

end LocalScopes.Json.StringLiteral
