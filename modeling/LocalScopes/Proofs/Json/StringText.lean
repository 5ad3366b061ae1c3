import Mathlib.Data.List.Basic
import LocalScopes.Json.StringLiteral

/-! # Strings as they are written

The grammar of strings apart from any reading. Between the quotes stand glyphs (`Glyph`), each of
which writes one character: the character itself, a letter behind a backslash, or one or two units
in hexadecimal. Every string can be written so, and its own written form is one of these
(`exists_glyphs_written`).

* `StringLiteral.read_glyphs`, `StringLiteral.skip_glyphs`: what is written is read back, and passed
  over, whatever is behind it. -/

namespace LocalScopes.Json

/-! ### Glyphs -/

/-- The character may stand for itself in a string. -/
structure IsPlain (c : Char) : Prop where
  ne_quote : c ≠ '"'
  ne_backslash : c ≠ '\\'
  visible : 0x20 ≤ c.toNat

instance (c : Char) : Decidable (IsPlain c) :=
  decidable_of_iff (c ≠ '"' ∧ c ≠ '\\' ∧ 0x20 ≤ c.toNat)
    ⟨fun ⟨hquote, hbackslash, hvisible⟩ => ⟨hquote, hbackslash, hvisible⟩,
      fun h => ⟨h.ne_quote, h.ne_backslash, h.visible⟩⟩

/-- A hexadecimal digit of either case. -/
structure HexDigit where
  char : Char
  value : Nat
  isDigit : Text.hexDigit? char = some value

/-- Four hexadecimal digits. -/
structure UnitText where
  first : HexDigit
  second : HexDigit
  third : HexDigit
  fourth : HexDigit

/-- The characters of a unit. -/
def UnitText.chars (u : UnitText) : List Char :=
  [u.first.char, u.second.char, u.third.char, u.fourth.char]

/-- The unit that four digits stand for. -/
def UnitText.value (u : UnitText) : Nat :=
  ((u.first.value * 16 + u.second.value) * 16 + u.third.value) * 16 + u.fourth.value

open StringLiteral in
/-- A character as it is written in a string. -/
inductive Glyph where
  /-- The character itself. -/
  | plain (c : Char) (h : IsPlain c)
  /-- A letter that names the character, behind a backslash. -/
  | named (letter c : Char) (h : named? letter = some c)
  /-- The unit of a character, which is no half of a pair. -/
  | unit (u : UnitText) (notFirst : ¬ IsLeading u.value) (notSecond : ¬ IsTrailing u.value)
  /-- The two units of a character. -/
  | pair (u v : UnitText) (first : IsLeading u.value) (second : IsTrailing v.value)

namespace Glyph

/-- The characters of a glyph. -/
def chars : Glyph → List Char
  | plain c _ => [c]
  | named letter _ _ => ['\\', letter]
  | unit u _ _ => '\\' :: 'u' :: u.chars
  | pair u v _ _ => '\\' :: 'u' :: (u.chars ++ '\\' :: 'u' :: v.chars)

/-- The character that is written. -/
def char : Glyph → Char
  | plain c _ => c
  | named _ c _ => c
  | unit u _ _ => Char.ofNat u.value
  | pair u v _ _ => StringLiteral.pairChar u.value v.value

end Glyph

/-- The string that glyphs write. -/
def textOf (glyphs : List Glyph) : String := String.ofList (glyphs.map Glyph.char)

/-- The characters of a string, its quotes among them. -/
def quotedChars (glyphs : List Glyph) : List Char := '"' :: (glyphs.flatMap Glyph.chars ++ ['"'])

theorem quotedChars_append (glyphs : List Glyph) (rest : List Char) :
    quotedChars glyphs ++ rest = '"' :: (glyphs.flatMap Glyph.chars ++ '"' :: rest) := by
  simp [quotedChars]

namespace StringLiteral

/-! ### Reading -/

theorem readUnit_chars (u : UnitText) (rest : List Char) :
    readUnit (u.chars ++ rest) = some (u.value, rest) := by
  simp [readUnit, UnitText.chars, UnitText.value, u.first.isDigit, u.second.isDigit,
    u.third.isDigit, u.fourth.isDigit]

theorem ne_u_of_named? {letter c : Char} (h : named? letter = some c) : letter ≠ 'u' := by
  rintro rfl
  cases h

theorem readFrom_glyph (sofar : List Char) (g : Glyph) (rest : List Char) :
    readFrom sofar (g.chars ++ rest) = readFrom (g.char :: sofar) rest := by
  have hbackslash : ('\\' : Char) ≠ '"' := by decide
  cases g with
  | plain c h =>
    rw [Glyph.chars, List.singleton_append, readFrom_cons, if_neg h.ne_quote,
      if_neg h.ne_backslash, if_neg (Nat.not_lt.mpr h.visible)]
    rfl
  | named letter c h =>
    rw [Glyph.chars, List.cons_append, List.singleton_append, readFrom_cons, if_neg hbackslash,
      if_pos rfl, readEscape, if_neg (ne_u_of_named? h), h]
    rfl
  | unit u notFirst notSecond =>
    rw [Glyph.chars, List.cons_append, List.cons_append, readFrom_cons, if_neg hbackslash,
      if_pos rfl, readEscape, if_pos rfl, readNumbered, readUnit_chars]
    simp only [if_neg notFirst, if_neg notSecond, Option.bind_some, Glyph.char]
  | pair u v first second =>
    have hfirst : ¬ IsTrailing u.value := fun h => by
      have := first.2
      have := h.1
      omega
    rw [Glyph.chars, List.cons_append, List.cons_append, List.append_assoc, readFrom_cons,
      if_neg hbackslash, if_pos rfl, readEscape, if_pos rfl, readNumbered, readUnit_chars]
    simp only [if_neg hfirst, if_pos first, List.cons_append, readUnit_chars, if_pos second,
      Option.bind_some, Glyph.char]

theorem readFrom_glyphs (rest : List Char) : ∀ (glyphs : List Glyph) (sofar : List Char),
    readFrom sofar (glyphs.flatMap Glyph.chars ++ '"' :: rest) =
      some (String.ofList (sofar.reverse ++ glyphs.map Glyph.char), rest)
  | [], sofar => by
    rw [List.flatMap_nil, List.nil_append, readFrom_cons, if_pos rfl, List.map_nil, List.append_nil]
  | g :: glyphs, sofar => by
    rw [List.flatMap_cons, List.append_assoc, readFrom_glyph, readFrom_glyphs rest glyphs,
      List.reverse_cons, List.append_assoc, List.singleton_append, List.map_cons]

/-- **What is written is read back.** -/
theorem read_glyphs (glyphs : List Glyph) (rest : List Char) :
    read (glyphs.flatMap Glyph.chars ++ '"' :: rest) = some (textOf glyphs, rest) := by
  rw [read, readFrom_glyphs, List.reverse_nil, List.nil_append, textOf]

/-! ### Passing over -/

theorem skip_escaped (text : List Char) :
    skip ('\\' :: text) = (skipEscape text).bind skip := by
  rw [skip_cons, if_neg (by decide), if_pos rfl]

theorem skipEscape_unit (u : UnitText) (rest : List Char) :
    skipEscape ('u' :: (u.chars ++ rest)) = some rest := by
  rw [skipEscape, if_pos rfl, readUnit_chars]
  rfl

theorem skip_glyph (g : Glyph) (rest : List Char) : skip (g.chars ++ rest) = skip rest := by
  cases g with
  | plain c h =>
    rw [Glyph.chars, List.singleton_append, skip_cons, if_neg h.ne_quote, if_neg h.ne_backslash,
      if_neg (Nat.not_lt.mpr h.visible)]
  | named letter c h =>
    rw [Glyph.chars, List.cons_append, List.singleton_append, skip_escaped, skipEscape,
      if_neg (ne_u_of_named? h), h]
    rfl
  | unit u notFirst notSecond =>
    rw [Glyph.chars, List.cons_append, List.cons_append, skip_escaped, skipEscape_unit]
    rfl
  | pair u v first second =>
    rw [Glyph.chars, List.cons_append, List.cons_append, List.append_assoc, skip_escaped,
      skipEscape_unit, Option.bind_some, List.cons_append, List.cons_append, skip_escaped,
      skipEscape_unit]
    rfl

theorem skip_glyphs (rest : List Char) : ∀ glyphs : List Glyph,
    skip (glyphs.flatMap Glyph.chars ++ '"' :: rest) = some rest
  | [] => by rw [List.flatMap_nil, List.nil_append, skip_cons, if_pos rfl]
  | g :: glyphs => by rw [List.flatMap_cons, List.append_assoc, skip_glyph, skip_glyphs rest glyphs]

end StringLiteral

/-! ### Writing -/

theorem hexDigit?_digitChar : ∀ n < 16, Text.hexDigit? (Nat.digitChar n) = some n := by
  decide

/-- The digit of a number below 16. -/
def HexDigit.ofNat (n : Nat) (h : n < 16) : HexDigit := ⟨Nat.digitChar n, n, hexDigit?_digitChar n h⟩

open StringLiteral in
theorem exists_glyph (c : Char) : ∃ g : Glyph, g.chars = escape c ∧ g.char = c := by
  have hnamed : ∀ letter, named? letter = some c → escape c = ['\\', letter] →
      ∃ g : Glyph, g.chars = escape c ∧ g.char = c :=
    fun letter h heq => ⟨.named letter c h, heq.symm, rfl⟩
  by_cases hquote : c = '"'
  · subst hquote
    exact hnamed '"' rfl rfl
  by_cases hbackslash : c = '\\'
  · subst hbackslash
    exact hnamed '\\' rfl rfl
  rcases Nat.lt_or_ge c.toNat 0x20 with hlow | hvisible
  · by_cases hb : c = '\x08'
    · subst hb
      exact hnamed 'b' rfl rfl
    by_cases hf : c = '\x0c'
    · subst hf
      exact hnamed 'f' rfl rfl
    by_cases hn : c = '\n'
    · subst hn
      exact hnamed 'n' rfl rfl
    by_cases hr : c = '\r'
    · subst hr
      exact hnamed 'r' rfl rfl
    by_cases ht : c = '\t'
    · subst ht
      exact hnamed 't' rfl rfl
    let u : UnitText := ⟨.ofNat 0 (by decide), .ofNat 0 (by decide),
      .ofNat (c.toNat / 16) (by omega), .ofNat (c.toNat % 16) (by omega)⟩
    have hu : u.value = c.toNat := by
      simp only [u, UnitText.value, HexDigit.ofNat]
      omega
    have hfirst : ¬ IsLeading u.value := fun h => by
      have := h.1
      omega
    have hsecond : ¬ IsTrailing u.value := fun h => by
      have := h.1
      omega
    refine ⟨.unit u hfirst hsecond, ?_, ?_⟩
    · rw [escape, if_neg hquote, if_neg hbackslash, if_neg hb, if_neg hf, if_neg hn, if_neg hr,
        if_neg ht, if_pos hlow]
      rfl
    · rw [Glyph.char, hu, Char.ofNat_toNat]
  · refine ⟨.plain c ⟨hquote, hbackslash, hvisible⟩, ?_, rfl⟩
    have hne : ∀ d : Char, d.toNat < 0x20 → c ≠ d := by
      rintro d hd rfl
      omega
    rw [escape, if_neg hquote, if_neg hbackslash, if_neg (hne _ (by decide)),
      if_neg (hne _ (by decide)), if_neg (hne _ (by decide)), if_neg (hne _ (by decide)),
      if_neg (hne _ (by decide)), if_neg (Nat.not_lt.mpr hvisible)]
    rfl

/-- **The written form of a string writes that string.** -/
theorem exists_glyphs_written (s : String) :
    ∃ glyphs, quotedChars glyphs = (StringLiteral.written s).toList ∧ textOf glyphs = s := by
  have hchars : ∀ l : List Char, ∃ glyphs : List Glyph,
      glyphs.flatMap Glyph.chars = l.flatMap StringLiteral.escape ∧ glyphs.map Glyph.char = l := by
    intro l
    induction l with
    | nil => exact ⟨[], rfl, rfl⟩
    | cons c l ih =>
      obtain ⟨g, hg, hc⟩ := exists_glyph c
      obtain ⟨glyphs, hglyphs, hl⟩ := ih
      exact ⟨g :: glyphs, by rw [List.flatMap_cons, List.flatMap_cons, hg, hglyphs],
        by rw [List.map_cons, hc, hl]⟩
  obtain ⟨glyphs, hglyphs, hs⟩ := hchars s.toList
  refine ⟨glyphs, ?_, ?_⟩
  · rw [quotedChars, hglyphs, StringLiteral.written, String.toList_ofList]
  · rw [textOf, hs, String.ofList_toList]

/-- Plain characters as they stand. -/
def plainGlyphs (s : String) (h : (s.toList.all fun c => decide (IsPlain c)) = true) :
    List Glyph :=
  s.toList.pmap Glyph.plain fun c hc => of_decide_eq_true (List.all_eq_true.mp h c hc)

end LocalScopes.Json
