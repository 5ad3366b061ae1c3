import Mathlib.Data.List.TakeWhile
import LocalScopes.Json.Number

/-! # Numbers as they are written

The grammar of numbers apart from any reading: digits, with a minus sign before them or not, and
behind them a fraction and an exponent or not (`NumberText`). A number ends where no character
follows that could go on with it (`Delimited`).

* `NumberText.read_chars`: a written number is read in parts, up to its end;
* `NumberText.value_of_isWord`, `NumberText.isWord_of_value`: the literals of 16-bit words are the
  digits of a number below 65536 and nothing else. -/

namespace LocalScopes.Json

/-! ### Grammar -/

/-- Decimal digits, at least one. -/
structure Digits where
  chars : List Char
  nonempty : chars ≠ []
  isDigit : ∀ c ∈ chars, c.isDigit = true

/-- The number that digits stand for. -/
def Digits.value (d : Digits) : Nat := Nat.ofDigitChars 10 d.chars 0

/-- An exponent: its mark, its sign if it has one (`true` is a minus), and its digits. -/
structure ExponentText where
  capital : Bool
  sign : Option Bool
  digits : Digits

/-- A number as it is written. More than one digit before the point must not start with 0. -/
structure NumberText where
  negative : Bool
  whole : Digits
  noLeadingZero : ∀ rest, whole.chars = '0' :: rest → rest = []
  fraction : Option Digits
  exponent : Option ExponentText

/-- The characters of an exponent's sign. -/
def signChars : Option Bool → List Char
  | none => []
  | some true => ['-']
  | some false => ['+']

/-- The characters of an exponent, from its mark on. -/
def exponentChars : Option ExponentText → List Char
  | none => []
  | some e => (if e.capital then 'E' else 'e') :: (signChars e.sign ++ e.digits.chars)

/-- The characters of a fraction, from the point on. -/
def fractionChars : Option Digits → List Char
  | none => []
  | some d => '.' :: d.chars

namespace NumberText

/-- The characters of a number. -/
def chars (n : NumberText) : List Char :=
  (if n.negative then ['-'] else []) ++
    (n.whole.chars ++ (fractionChars n.fraction ++ exponentChars n.exponent))

/-- The number by its parts. -/
def literal (n : NumberText) : NumberLiteral where
  negative := n.negative
  whole := n.whole.chars.map digit
  fraction := (n.fraction.map fun d => d.chars.map digit).getD []
  exponent := n.exponent.map fun e => (decide (e.sign = some true), e.digits.chars.map digit)

/-- The number is written as the digits of a 16-bit word, without sign, fraction and exponent. -/
structure IsWord (n : NumberText) (w : UInt16) : Prop where
  positive : n.negative = false
  fraction : n.fraction = none
  exponent : n.exponent = none
  value : n.whole.value = w.toNat

end NumberText

/-- No digit comes first. -/
def NoDigit (text : List Char) : Prop := ∀ c rest, text = c :: rest → c.isDigit = false

/-- Nothing comes first that could go on with a number. -/
def Delimited (text : List Char) : Prop :=
  ∀ c rest, text = c :: rest → c.isDigit = false ∧ c ≠ '.' ∧ c ≠ 'e' ∧ c ≠ 'E'

theorem Delimited.noDigit {text : List Char} (h : Delimited text) : NoDigit text :=
  fun c rest hc => (h c rest hc).1

theorem delimited_cons {c : Char} (h : c.isDigit = false ∧ c ≠ '.' ∧ c ≠ 'e' ∧ c ≠ 'E')
    (rest : List Char) : Delimited (c :: rest) := by
  rintro c' rest' ⟨⟩
  exact h

/-! ### Digits -/

theorem Digits.exists_cons (d : Digits) : ∃ c cs, d.chars = c :: cs ∧ c.isDigit = true := by
  obtain ⟨c, cs, hc⟩ := List.exists_cons_of_ne_nil d.nonempty
  exact ⟨c, cs, hc, d.isDigit c (hc ▸ List.mem_cons_self)⟩

theorem Digits.digits_append (d : Digits) {rest : List Char} (h : NoDigit rest) :
    digits (d.chars ++ rest) = d.chars.map digit ∧ afterDigits (d.chars ++ rest) = rest := by
  have htake : rest.takeWhile Char.isDigit = [] ∧ rest.dropWhile Char.isDigit = rest := by
    cases rest with
    | nil => exact ⟨rfl, rfl⟩
    | cons c rest => simp [h c rest rfl]
  unfold digits afterDigits
  rw [List.takeWhile_append_of_pos d.isDigit, List.dropWhile_append_of_pos d.isDigit, htake.1,
    htake.2, List.append_nil]
  exact ⟨rfl, rfl⟩

theorem Digits.map_digit_ne_nil (d : Digits) : d.chars.map digit ≠ [] := by
  simpa using d.nonempty

theorem toNat_of_isDigit {c : Char} (h : c.isDigit = true) : 48 ≤ c.toNat ∧ c.toNat ≤ 57 := by
  simp only [Char.isDigit, Bool.and_eq_true, decide_eq_true_eq, ge_iff_le] at h
  exact ⟨UInt32.le_iff_toNat_le.mp h.1, UInt32.le_iff_toNat_le.mp h.2⟩

theorem eq_zero_of_digit {c : Char} (h : c.isDigit = true) (hc : digit c = 0) : c = '0' := by
  have := toNat_of_isDigit h
  unfold digit at hc
  exact Char.toNat_inj.mp (show c.toNat = ('0' : Char).toNat by
    have : ('0' : Char).toNat = 48 := rfl
    omega)

/-! ### Reading -/

namespace NumberLiteral

theorem readExponentSign_append (sign : Option Bool) (d : Digits) (rest : List Char) :
    readExponentSign (signChars sign ++ (d.chars ++ rest)) =
      (decide (sign = some true), d.chars ++ rest) := by
  rcases sign with _ | _ | _
  · -- without a sign the first digit is none
    obtain ⟨c, cs, hcs, hc⟩ := d.exists_cons
    rw [hcs]
    simp only [signChars, List.nil_append, List.cons_append, readExponentSign]
    split
    · rename_i heq
      obtain ⟨rfl, -⟩ := List.cons.inj heq
      cases hc
    · rename_i heq
      obtain ⟨rfl, -⟩ := List.cons.inj heq
      cases hc
    · rfl
  · rfl
  · rfl

theorem readExponent_append (e : Option ExponentText) {rest : List Char} (h : Delimited rest) :
    readExponent (exponentChars e ++ rest) =
      some (e.map fun e => (decide (e.sign = some true), e.digits.chars.map digit), rest) := by
  cases e with
  | none =>
    rw [exponentChars, List.nil_append]
    unfold readExponent
    split
    · obtain ⟨-, -, he, hE⟩ := h _ _ rfl
      rw [if_neg (by simp [he, hE])]
      rfl
    · rfl
  | some e =>
    obtain ⟨hdigits, hafter⟩ := e.digits.digits_append h.noDigit
    have hmark : (if e.capital then 'E' else 'e') = 'e' ∨ (if e.capital then 'E' else 'e') = 'E' := by
      cases e.capital <;> simp
    rw [exponentChars, List.cons_append, List.append_assoc, readExponent, if_pos hmark]
    simp only [readExponentSign_append, hdigits, hafter, if_neg e.digits.map_digit_ne_nil,
      Option.map_some]

theorem noDigit_exponentChars (e : Option ExponentText) {rest : List Char} (h : Delimited rest) :
    NoDigit (exponentChars e ++ rest) := by
  cases e with
  | none => exact h.noDigit
  | some e =>
    rintro c rest' heq
    obtain ⟨rfl, -⟩ := List.cons.inj heq
    cases e.capital <;> rfl

theorem readFraction_append (f : Option Digits) (e : Option ExponentText) {rest : List Char}
    (h : Delimited rest) :
    readFraction (fractionChars f ++ (exponentChars e ++ rest)) =
      some ((f.map fun d => d.chars.map digit).getD [], exponentChars e ++ rest) := by
  cases f with
  | none =>
    rw [fractionChars, List.nil_append]
    unfold readFraction
    split
    · rename_i text heq
      -- neither an exponent nor what follows starts with a point
      cases e with
      | none => exact absurd rfl (h _ _ heq).2.1
      | some e =>
        obtain ⟨hmark, -⟩ := List.cons.inj heq
        cases hcap : e.capital <;> simp [hcap] at hmark
    · rfl
  | some d =>
    obtain ⟨hdigits, hafter⟩ := d.digits_append (noDigit_exponentChars e h)
    simp only [fractionChars, List.cons_append, readFraction, hdigits, hafter,
      if_neg d.map_digit_ne_nil, Option.map_some, Option.getD_some]

theorem noDigit_fractionChars (f : Option Digits) (e : Option ExponentText) {rest : List Char}
    (h : Delimited rest) : NoDigit (fractionChars f ++ (exponentChars e ++ rest)) := by
  cases f with
  | none => exact noDigit_exponentChars e h
  | some d =>
    rintro c rest' heq
    obtain ⟨rfl, -⟩ := List.cons.inj heq
    rfl

theorem readWhole_append {d : Digits} (hd : ∀ rest, d.chars = '0' :: rest → rest = [])
    {rest : List Char} (h : NoDigit rest) :
    readWhole (d.chars ++ rest) = some (d.chars.map digit, rest) := by
  obtain ⟨hdigits, hafter⟩ := d.digits_append h
  rw [readWhole, hdigits, hafter]
  split
  · exact absurd ‹_› d.map_digit_ne_nil
  · rename_i heq
    obtain ⟨c, cs, hcs, hc⟩ := d.exists_cons
    rw [hcs, List.map_cons] at heq
    obtain ⟨hzero, hmore⟩ := List.cons.inj heq
    obtain rfl := eq_zero_of_digit hc hzero
    rw [hd cs hcs] at hmore
    cases hmore
  · rfl

theorem readSign_append (negative : Bool) (d : Digits) (rest : List Char) :
    readSign ((if negative then ['-'] else []) ++ (d.chars ++ rest)) =
      (negative, d.chars ++ rest) := by
  cases negative with
  | true => rfl
  | false =>
    obtain ⟨c, cs, hcs, hc⟩ := d.exists_cons
    rw [hcs]
    simp only [List.cons_append, Bool.false_eq_true, if_false, List.nil_append, readSign]
    split
    · rename_i heq
      obtain ⟨rfl, -⟩ := List.cons.inj heq
      cases hc
    · rfl

end NumberLiteral

/-- **A written number is read up to its end.** -/
theorem NumberText.read_chars (n : NumberText) {rest : List Char} (h : Delimited rest) :
    NumberLiteral.read (n.chars ++ rest) = some (n.literal, rest) := by
  simp only [NumberLiteral.read, chars, List.append_assoc, NumberLiteral.readSign_append,
    NumberLiteral.readWhole_append n.noLeadingZero
      (NumberLiteral.noDigit_fractionChars n.fraction n.exponent h),
    NumberLiteral.readFraction_append n.fraction n.exponent h,
    NumberLiteral.readExponent_append n.exponent h, literal]

theorem NumberText.exists_cons (n : NumberText) :
    ∃ c cs, n.chars = c :: cs ∧ (c = '-' ∨ c.isDigit = true) := by
  obtain ⟨c, cs, hcs, hc⟩ := n.whole.exists_cons
  rw [chars, hcs]
  cases n.negative with
  | true => exact ⟨'-', _, rfl, .inl rfl⟩
  | false => exact ⟨c, _, rfl, .inr hc⟩

/-! ### Integers -/

theorem ofDigitChars_cons_digit (c : Char) (cs : List Char) (n : Nat) :
    Nat.ofDigitChars 10 (c :: cs) n = Nat.ofDigitChars 10 cs (n * 10 + digit c) := by
  rw [Nat.ofDigitChars_cons, Nat.mul_comm]
  rfl

theorem le_ofDigitChars : ∀ (cs : List Char) (n : Nat), n ≤ Nat.ofDigitChars 10 cs n
  | [], n => by rw [Nat.ofDigitChars_nil]
  | c :: cs, n => by
    have hle := le_ofDigitChars cs (n * 10 + digit c)
    rw [ofDigitChars_cons_digit]
    omega

/-- Digits are taken in full just if the number that they make is below the bound. -/
theorem absorb_digits (bound : Nat) : ∀ (cs : List Char) (n : Nat), n < bound →
    (Nat.ofDigitChars 10 cs n < bound ∧
      absorb bound n (cs.map digit) = (Nat.ofDigitChars 10 cs n, [])) ∨
    (bound ≤ Nat.ofDigitChars 10 cs n ∧ (absorb bound n (cs.map digit)).2 ≠ [])
  | [], n, hn => .inl ⟨by rwa [Nat.ofDigitChars_nil], by rw [Nat.ofDigitChars_nil]; rfl⟩
  | c :: cs, n, hn => by
    rw [ofDigitChars_cons_digit, List.map_cons, absorb]
    split
    · rename_i hlt
      exact absorb_digits bound cs _ hlt
    · rename_i hge
      have hle := le_ofDigitChars cs (n * 10 + digit c)
      exact .inr ⟨by omega, by simp⟩

namespace NumberText

theorem isInteger_iff (n : NumberText) :
    n.literal.isInteger = true ↔ n.fraction = none ∧ n.exponent = none := by
  rw [NumberLiteral.isInteger, literal]
  rcases n.fraction with _ | d
  · simp
  · have hne := d.map_digit_ne_nil
    simp [d.nonempty]

theorem value_of_isWord {n : NumberText} {w : UInt16} (h : n.IsWord w) :
    n.literal.value = some (.integer w.toNat) := by
  have hinteger : n.literal.isInteger = true := n.isInteger_iff.mpr ⟨h.fraction, h.exponent⟩
  have hnegative : n.literal.negative = false := h.positive
  have hword := w.toNat_lt_size
  rcases absorb_digits significandBound n.whole.chars 0 (by decide) with ⟨-, habsorb⟩ | ⟨hlarge, -⟩
  · have habsorb' : absorb significandBound 0 n.literal.whole = (w.toNat, []) := by
      rw [← h.value]
      exact habsorb
    simp [NumberLiteral.value, NumberLiteral.integer?, habsorb', hinteger, hnegative]
  · have hvalue : Nat.ofDigitChars 10 n.whole.chars 0 = w.toNat := h.value
    rw [hvalue] at hlarge
    have hbound : UInt16.size ≤ significandBound := by decide
    omega

theorem isWord_of_value {n : NumberText} {i : Int} (h : n.literal.value = some (.integer i))
    (hle : 0 ≤ i) (hlt : i < UInt16.size) : n.IsWord (UInt16.ofNat i.toNat) := by
  have hinteger : n.literal.integer? = some i := by
    unfold NumberLiteral.value at h
    split at h
    · cases h
      assumption
    · rw [Option.map_eq_some_iff] at h
      obtain ⟨_, -, ⟨⟩⟩ := h
  rcases absorb_digits significandBound n.whole.chars 0 (by decide) with ⟨-, habsorb⟩ | ⟨-, hleft⟩
  · have habsorb' : absorb significandBound 0 n.literal.whole = (n.whole.value, []) := habsorb
    simp only [NumberLiteral.integer?, habsorb', ne_eq, not_true_eq_false, or_false] at hinteger
    split at hinteger
    · cases hinteger
    · rename_i hplain
      have hparts := n.isInteger_iff.mp (by simpa using hplain)
      split at hinteger
      · rename_i hpositive
        obtain rfl := Option.some.inj hinteger
        refine ⟨by simpa [literal] using hpositive, hparts.1, hparts.2, ?_⟩
        rw [Int.toNat_natCast, UInt16.toNat_ofNat_of_lt' (by omega)]
      · -- a negative literal is below zero
        split at hinteger
        · obtain rfl := Option.some.inj hinteger
          omega
        · cases hinteger
  · have hleft' : (absorb significandBound 0 n.literal.whole).2 ≠ [] := hleft
    simp [NumberLiteral.integer?, hleft'] at hinteger

end NumberText

/-! ### Words as they are written -/

theorem eq_zero_of_toDigits (n : Nat) : ∀ rest, Nat.toDigits 10 n = '0' :: rest → n = 0 := by
  induction n using Nat.strongRecOn with
  | _ n ih =>
    intro rest h
    rw [Nat.toDigits_eq_if (by decide)] at h
    split at h
    · exact Nat.digitChar_eq_zero.mp (List.cons.inj h).1
    · -- the digits of a tenth come first
      obtain ⟨c, cs, hcs⟩ := List.exists_cons_of_ne_nil (Nat.toDigits_ne_nil (n := n / 10) (b := 10))
      rw [hcs, List.cons_append] at h
      rw [(List.cons.inj h).1] at hcs
      have htenth := ih (n / 10) (by omega) cs hcs
      omega

/-- The text of a 16-bit word is a number that is this word. -/
theorem exists_numberText_word (w : UInt16) :
    ∃ n : NumberText, n.chars = (toString w.toNat).toList ∧ n.IsWord w := by
  let d : Digits := ⟨Nat.toDigits 10 w.toNat, Nat.toDigits_ne_nil,
    fun _ hc => Nat.isDigit_of_mem_toDigits (by decide) (by decide) hc⟩
  have hzero : ∀ rest, d.chars = '0' :: rest → rest = [] := by
    intro rest h
    have h' : Nat.toDigits 10 w.toNat = '0' :: rest := h
    rw [eq_zero_of_toDigits _ rest h', Nat.toDigits_zero] at h'
    exact (List.cons.inj h').2.symm
  refine ⟨⟨false, d, hzero, none, none⟩, ?_, rfl, rfl, rfl, Nat.ofDigitChars_ten_toDigits⟩
  rw [Nat.toString_eq_ofList_toDigits, String.toList_ofList]
  simp [NumberText.chars, d, fractionChars, exponentChars]

end LocalScopes.Json
