import LocalScopes.Json.Skip
import LocalScopes.Proofs.Json.NumberText
import LocalScopes.Proofs.Json.StringText

/-! # Values as they are written

The grammar of values apart from any reading (`JsonText`): words, numbers, strings, and containers
of values with blanks between any two tokens. Containers may be nested to any depth, and each value
of a map has a key before it.

* `readHead_chars`: the start of a written value is read as what it is;
* `skipValue_chars`: a written value is passed over up to its last character. -/

namespace LocalScopes.Json

/-! ### Grammar -/

/-- Blanks between two tokens. -/
structure Gap where
  chars : List Char
  blank : ∀ c ∈ chars, c = ' ' ∨ c = '\n' ∨ c = '\t' ∨ c = '\r'

instance : EmptyCollection Gap := ⟨⟨[], by simp⟩⟩

/-- The bracket that opens a container. -/
def Container.opening : Container → Char
  | sequence => '['
  | map => '\x7b'

/-- What a container starts as. -/
def Container.head : Container → Head
  | sequence => .sequence
  | map => .map

/-- What stands before a value of a container: nothing in a sequence, and a key in a map. -/
inductive Lead : Container → Type where
  | element : Lead .sequence
  | key (before : Gap) (glyphs : List Glyph) (after : Gap) : Lead .map

/-- The parts of a text: a value, or the values of a container, which has at least one. -/
inductive Part where
  | value
  | items (kind : Container)

/-- A part of a text as it is written. -/
inductive JsonText : Part → Type where
  | null : JsonText .value
  | boolean (b : Bool) : JsonText .value
  | number (n : NumberText) : JsonText .value
  | text (glyphs : List Glyph) : JsonText .value
  | empty (kind : Container) (gap : Gap) : JsonText .value
  | filled {kind : Container} (items : JsonText (.items kind)) : JsonText .value
  | last {kind : Container} (lead : Lead kind) (before : Gap) (value : JsonText .value)
      (after : Gap) : JsonText (.items kind)
  | more {kind : Container} (lead : Lead kind) (before : Gap) (value : JsonText .value)
      (after : Gap) (rest : JsonText (.items kind)) : JsonText (.items kind)

/-- The characters before a value. -/
def Lead.chars : {kind : Container} → Lead kind → List Char
  | _, element => []
  | _, key before glyphs after => before.chars ++ (quotedChars glyphs ++ (after.chars ++ [':']))

namespace JsonText

/-- The characters of a part. -/
def chars : {part : Part} → JsonText part → List Char
  | _, null => ['n', 'u', 'l', 'l']
  | _, boolean true => ['t', 'r', 'u', 'e']
  | _, boolean false => ['f', 'a', 'l', 's', 'e']
  | _, number n => n.chars
  | _, text glyphs => quotedChars glyphs
  | _, empty kind gap => kind.opening :: (gap.chars ++ [kind.closing])
  | _, @filled kind items => kind.opening :: (items.chars ++ [kind.closing])
  | _, last lead before value after =>
    lead.chars ++ (before.chars ++ (value.chars ++ after.chars))
  | _, more lead before value after rest =>
    lead.chars ++ (before.chars ++ (value.chars ++ (after.chars ++ ',' :: rest.chars)))

/-- What a value starts as; a number that is too large for a float is nothing. -/
def head : JsonText .value → Option Head
  | null => some .null
  | boolean b => some (.boolean b)
  | number n => n.literal.value.map .number
  | text glyphs => some (.text (textOf glyphs))
  | empty kind _ | @filled kind _ => some kind.head

end JsonText

/-! ### Blanks -/

@[simp] theorem chars_emptyGap : (∅ : Gap).chars = [] := rfl

theorem skipBlanks_gap (g : Gap) (text : List Char) :
    skipBlanks (g.chars ++ text) = skipBlanks text := by
  have hblank : ∀ c ∈ g.chars, isBlank c = true := by
    intro c hc
    rcases g.blank c hc with rfl | rfl | rfl | rfl <;> rfl
  exact List.dropWhile_append_of_pos hblank

theorem skipBlanks_cons {c : Char} (h : isBlank c = false) (text : List Char) :
    skipBlanks (c :: text) = c :: text := by
  simp [skipBlanks, h]

theorem skipBlanks_gap_cons (g : Gap) {c : Char} (h : isBlank c = false) (text : List Char) :
    skipBlanks (g.chars ++ c :: text) = c :: text := by
  rw [skipBlanks_gap, skipBlanks_cons h]

theorem Gap.delimited_append (g : Gap) {text : List Char} (h : Delimited text) :
    Delimited (g.chars ++ text) := by
  intro c rest hc
  cases hg : g.chars with
  | nil =>
    rw [hg] at hc
    exact h c rest hc
  | cons c' cs =>
    rw [hg] at hc
    obtain ⟨rfl, -⟩ := List.cons.inj hc
    rcases g.blank c' (hg ▸ List.mem_cons_self) with rfl | rfl | rfl | rfl <;> decide

/-! ### First characters -/

/-- The character starts a value. -/
structure StartsValue (c : Char) : Prop where
  not_blank : isBlank c = false
  ne_bracket : c ≠ ']'
  ne_brace : c ≠ '\x7d'

theorem startsValue_of_number {c : Char} (h : c = '-' ∨ c.isDigit = true) :
    StartsValue c ∧ startsNumber c = true ∧ c ≠ '"' ∧ c ≠ '[' ∧ c ≠ '\x7b' := by
  rcases h with rfl | h
  · exact ⟨⟨rfl, by decide, by decide⟩, rfl, by decide, by decide, by decide⟩
  · have hne : ∀ d : Char, d.isDigit = false → c ≠ d := by
      rintro d hd rfl
      rw [h] at hd
      cases hd
    refine ⟨⟨?_, hne _ rfl, hne _ rfl⟩, by simp [startsNumber, h], hne _ rfl, hne _ rfl, hne _ rfl⟩
    simp [isBlank, hne ' ' rfl, hne '\n' rfl, hne '\t' rfl, hne '\r' rfl]

theorem startsValue_opening (kind : Container) : StartsValue kind.opening := by
  cases kind <;> exact ⟨rfl, by decide, by decide⟩

theorem exists_startsValue (v : JsonText .value) : ∃ c cs, v.chars = c :: cs ∧ StartsValue c := by
  cases v with
  | null => exact ⟨'n', _, rfl, rfl, by decide, by decide⟩
  | boolean b =>
    cases b
    · exact ⟨'f', _, rfl, rfl, by decide, by decide⟩
    · exact ⟨'t', _, rfl, rfl, by decide, by decide⟩
  | number n =>
    obtain ⟨c, cs, hcs, hc⟩ := n.exists_cons
    exact ⟨c, cs, hcs, (startsValue_of_number hc).1⟩
  | text glyphs => exact ⟨'"', _, rfl, rfl, by decide, by decide⟩
  | empty kind gap => exact ⟨_, _, rfl, startsValue_opening kind⟩
  | @filled kind items => exact ⟨_, _, rfl, startsValue_opening kind⟩

theorem skipBlanks_value (before : Gap) (v : JsonText .value) (rest : List Char) :
    skipBlanks (before.chars ++ (v.chars ++ rest)) = v.chars ++ rest := by
  obtain ⟨c, cs, hcs, hc⟩ := exists_startsValue v
  rw [hcs, List.cons_append, skipBlanks_gap_cons before hc.not_blank]

/-! ### Heads -/

theorem readHeadFrom_number (n : NumberText) {rest : List Char} (h : Delimited rest) :
    readHeadFrom (n.chars ++ rest) = n.literal.value.map fun v => (.number v, rest) := by
  obtain ⟨c, cs, hcs, hc⟩ := n.exists_cons
  obtain ⟨-, hstarts, hquote, hbracket, hbrace⟩ := startsValue_of_number hc
  have hread : readNumber (n.chars ++ rest) = n.literal.value.map fun v => (.number v, rest) := by
    simp only [readNumber, n.read_chars h]
  rw [hcs, List.cons_append] at hread ⊢
  rw [readHeadFrom, if_neg hquote, if_neg hbracket, if_neg hbrace, if_pos hstarts, hread]

theorem readHeadFrom_opening (kind : Container) (rest : List Char) :
    readHeadFrom (kind.opening :: rest) = some (kind.head, rest) := by
  cases kind <;> rfl

/-- The value is no container. -/
def JsonText.IsPlain : JsonText .value → Prop
  | empty _ _ | filled _ => False
  | _ => True

/-- **The start of a value is read as what it is**, and a value that is no container is read as a
whole. -/
theorem readHeadFrom_chars (v : JsonText .value) {rest : List Char} (h : Delimited rest) :
    ∃ behind, readHeadFrom (v.chars ++ rest) = v.head.map (fun head => (head, behind)) ∧
      (v.IsPlain → behind = rest) := by
  cases v with
  | null => exact ⟨rest, rfl, fun _ => rfl⟩
  | boolean b => cases b <;> exact ⟨rest, rfl, fun _ => rfl⟩
  | number n =>
    refine ⟨rest, ?_, fun _ => rfl⟩
    rw [JsonText.chars, readHeadFrom_number n h, JsonText.head, Option.map_map]
    rfl
  | text glyphs =>
    refine ⟨rest, ?_, fun _ => rfl⟩
    rw [JsonText.chars, quotedChars_append, readHeadFrom, if_pos rfl, StringLiteral.read_glyphs]
    rfl
  | empty kind gap =>
    refine ⟨gap.chars ++ [kind.closing] ++ rest, ?_, False.elim⟩
    rw [JsonText.chars, List.cons_append, readHeadFrom_opening, JsonText.head, Option.map_some]
  | @filled kind items =>
    refine ⟨items.chars ++ [kind.closing] ++ rest, ?_, False.elim⟩
    rw [JsonText.chars, List.cons_append, readHeadFrom_opening, JsonText.head, Option.map_some]

theorem readHead_chars (before : Gap) (v : JsonText .value) {rest : List Char}
    (h : Delimited rest) :
    ∃ behind, readHead (before.chars ++ (v.chars ++ rest)) =
        v.head.elim malformed (fun head => .ok (head, behind)) ∧
      (v.IsPlain → behind = rest) := by
  obtain ⟨behind, hread, hplain⟩ := readHeadFrom_chars v h
  refine ⟨behind, ?_, hplain⟩
  rw [readHead, skipBlanks_value, hread]
  cases v.head <;> rfl

theorem readHead_opening (before : Gap) (kind : Container) (text : List Char) :
    readHead (before.chars ++ kind.opening :: text) = .ok (kind.head, text) := by
  simp only [readHead, skipBlanks_gap_cons before (startsValue_opening kind).not_blank,
    readHeadFrom_opening]

/-! ### Passing over -/

theorem skipColon_gap (g : Gap) (text : List Char) :
    skipColon (g.chars ++ ':' :: text) = some text := by
  simp only [skipColon, skipBlanks_gap_cons g (show isBlank ':' = false from rfl)]

theorem skipToValue_lead {kind : Container} (lead : Lead kind) (text : List Char) :
    skipToValue kind (lead.chars ++ text) = some text := by
  cases lead with
  | element => rfl
  | key before glyphs after =>
    rw [Lead.chars, List.append_assoc, List.append_assoc, List.append_assoc, List.singleton_append,
      quotedChars_append, skipToValue, skipKey, skipBlanks_gap_cons before rfl]
    simp only [StringLiteral.skip_glyphs, Option.bind_some, skipColon_gap]

theorem ofOpening?_eq_none {c : Char} (hbracket : c ≠ '[') (hbrace : c ≠ '\x7b')
    (text : List Char) : Container.ofOpening? (c :: text) = none := by
  unfold Container.ofOpening?
  split
  · rename_i heq
    exact absurd (List.cons.inj heq).1 hbracket
  · rename_i heq
    exact absurd (List.cons.inj heq).1 hbrace
  · rfl

theorem ofOpening?_opening (kind : Container) (text : List Char) :
    Container.ofOpening? (kind.opening :: text) = some (kind, text) := by
  cases kind <;> rfl

theorem closing_not_blank (kind : Container) : isBlank kind.closing = false := by
  cases kind <;> rfl

theorem delimited_closing (kind : Container) (rest : List Char) :
    Delimited (kind.closing :: rest) := by
  cases kind <;> exact delimited_cons (by decide) rest

/-- Behind the first value of a container, or behind its last one. -/
theorem skipBehind_comma (kind : Container) (opened : List Container) (after : Gap)
    (text : List Char) :
    skipBehind (kind :: opened) (after.chars ++ ',' :: text) =
      (skipToValue kind text).bind (skipWithin (kind :: opened)) := by
  rw [skipBehind_cons, skipBlanks_gap_cons after rfl]
  simp only [if_true]

theorem skipBehind_closing (kind : Container) (opened : List Container) (after : Gap)
    (text : List Char) :
    skipBehind (kind :: opened) (after.chars ++ kind.closing :: text) = skipBehind opened text := by
  have hcomma : kind.closing ≠ ',' := by cases kind <;> decide
  rw [skipBehind_cons, skipBlanks_gap_cons after (closing_not_blank kind)]
  simp only [if_neg hcomma, if_true]

theorem exists_skipBlanks_items {kind : Container} (items : JsonText (.items kind))
    (text : List Char) :
    ∃ c cs, skipBlanks (items.chars ++ text) = c :: cs ∧ c ≠ kind.closing := by
  have hfirst : ∀ (lead : Lead kind) (before : Gap) (v : JsonText .value) (rest : List Char),
      ∃ c cs, skipBlanks (lead.chars ++ (before.chars ++ (v.chars ++ rest))) = c :: cs ∧
        c ≠ kind.closing := by
    intro lead before v rest
    cases lead with
    | element =>
      obtain ⟨c, cs, hcs, hc⟩ := exists_startsValue v
      exact ⟨c, cs ++ rest, by rw [Lead.chars, List.nil_append, skipBlanks_value, hcs]; rfl,
        hc.ne_bracket⟩
    | key gap glyphs after =>
      rw [Lead.chars, List.append_assoc, List.append_assoc, quotedChars_append,
        skipBlanks_gap_cons gap rfl]
      exact ⟨'"', _, rfl, by decide⟩
  cases items with
  | last lead before v after =>
    obtain ⟨c, cs, hcs, hc⟩ := hfirst lead before v (after.chars ++ text)
    exact ⟨c, cs, by simpa only [JsonText.chars, List.append_assoc] using hcs, hc⟩
  | more lead before v after rest =>
    obtain ⟨c, cs, hcs, hc⟩ := hfirst lead before v (after.chars ++ ',' :: (rest.chars ++ text))
    exact ⟨c, cs, by simpa only [JsonText.chars, List.append_assoc, List.cons_append] using hcs, hc⟩

theorem skipWithin_plain {opened : List Container} {before : Gap} {v : JsonText .value}
    {c : Char} {cs : List Char} (hcs : v.chars = c :: cs) (hbracket : c ≠ '[') (hbrace : c ≠ '\x7b')
    {rest : List Char} (hskip : skipPlain (v.chars ++ rest) = some rest) :
    skipWithin opened (before.chars ++ (v.chars ++ rest)) = skipBehind opened rest := by
  rw [skipWithin_eq, skipBlanks_value, hskip, hcs, List.cons_append,
    ofOpening?_eq_none hbracket hbrace]
  rfl

/-- How each part is passed over. -/
def Skipped : (part : Part) → JsonText part → Prop
  | .value, v => ∀ (opened : List Container) (before : Gap) (rest : List Char), Delimited rest →
      skipWithin opened (before.chars ++ (v.chars ++ rest)) = skipBehind opened rest
  | .items kind, items => ∀ (opened : List Container) (rest : List Char),
      (skipToValue kind (items.chars ++ kind.closing :: rest)).bind (skipWithin (kind :: opened)) =
        skipBehind opened rest

/-- **Every part is passed over up to its end**, by its grammar. -/
theorem skipped {part : Part} (t : JsonText part) : Skipped part t := by
  induction t with
  | null =>
    intro opened before rest _
    exact skipWithin_plain rfl (by decide) (by decide) rfl
  | boolean b =>
    intro opened before rest _
    cases b
    · exact skipWithin_plain rfl (by decide) (by decide) rfl
    · exact skipWithin_plain rfl (by decide) (by decide) rfl
  | number n =>
    intro opened before rest h
    obtain ⟨c, cs, hcs, hc⟩ := n.exists_cons
    obtain ⟨-, hstarts, hquote, hbracket, hbrace⟩ := startsValue_of_number hc
    refine skipWithin_plain (v := .number n) hcs hbracket hbrace ?_
    have hread := n.read_chars h
    rw [JsonText.chars]
    rw [hcs, List.cons_append] at hread ⊢
    rw [skipPlain, if_neg hquote, if_pos hstarts, hread]
    rfl
  | text glyphs =>
    intro opened before rest _
    refine skipWithin_plain (v := .text glyphs) rfl (by decide) (by decide) ?_
    rw [JsonText.chars, quotedChars_append, skipPlain, if_pos rfl, StringLiteral.skip_glyphs]
  | empty kind gap =>
    intro opened before rest _
    rw [skipWithin_eq, skipBlanks_value, JsonText.chars, List.cons_append, ofOpening?_opening,
      List.append_assoc, List.singleton_append]
    simp only [skipBlanks_gap_cons gap (closing_not_blank kind), if_true]
  | @filled kind items ih =>
    intro opened before rest _
    have hitems := ih opened rest
    obtain ⟨c, cs, hcs, hc⟩ := exists_skipBlanks_items items (kind.closing :: rest)
    rw [skipWithin_eq, skipBlanks_value, JsonText.chars, List.cons_append, ofOpening?_opening,
      List.append_assoc, List.singleton_append]
    simp only [hcs, if_neg hc, hitems]
  | @last kind lead before v after ih =>
    intro opened rest
    have hv := ih (kind :: opened) before (after.chars ++ kind.closing :: rest)
      (after.delimited_append (delimited_closing kind rest))
    rw [JsonText.chars, List.append_assoc, List.append_assoc, List.append_assoc, skipToValue_lead,
      Option.bind_some, hv, skipBehind_closing]
  | @more kind lead before v after items ihv ih =>
    intro opened rest
    have hv := ihv (kind :: opened) before
      (after.chars ++ ',' :: (items.chars ++ kind.closing :: rest))
      (after.delimited_append (delimited_cons (by decide) _))
    rw [JsonText.chars, List.append_assoc, List.append_assoc, List.append_assoc, List.append_assoc,
      List.cons_append, skipToValue_lead, Option.bind_some, hv, skipBehind_comma]
    exact ih opened rest

/-- **A written value is passed over up to its last character.** -/
theorem skipValue_chars (before : Gap) (v : JsonText .value) {rest : List Char}
    (h : Delimited rest) : skipValue (before.chars ++ (v.chars ++ rest)) = some rest := by
  have hv : Skipped .value v := skipped v
  rw [skipValue, hv [] before rest h, skipBehind_nil]

end LocalScopes.Json
