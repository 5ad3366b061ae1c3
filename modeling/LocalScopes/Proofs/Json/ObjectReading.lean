import LocalScopes.Json.Reader
import LocalScopes.Proofs.Json.MemberText

/-! # Reading what describes a scope

An object is read from left to right, and at every point the members that have been read are those
that stand before it (`Collected`). So it is read as the scope that it describes, or refused for the
reason that it has (`Verdict`). Of a sequence the five values count by their position.

* `readScope_object`: every object comes to its verdict, whatever is behind it;
* `readScope_sequence`: the sequence of the five values of a scope is read as that scope. -/

namespace LocalScopes.Json

/-! ### Values -/

/-- The answer of a reader of words or of strings: the value, if it is one, and else what is wrong
with it. -/
def ReadsValue {α : Type} (Is : JsonText .value → α → Prop) (expected : Expected)
    (v : JsonText .value) (rest : List Char) (answer : Except Problem (α × List Char)) : Prop :=
  (∃ a, Is v a ∧ answer = .ok (a, rest)) ∨ ∃ p, Misfit expected v p ∧ answer = .error p

theorem exists_number_of_head {v : JsonText .value} {n : Number} (h : v.head = some (.number n)) :
    ∃ t, v = .number t ∧ t.literal.value = some n := by
  cases v with
  | number t =>
    rw [JsonText.head, Option.map_eq_some_iff] at h
    obtain ⟨n', hn, heq⟩ := h
    cases heq
    exact ⟨t, rfl, hn⟩
  | null | boolean | text => cases h
  | empty kind | @filled kind => cases kind <;> cases h

theorem exists_text_of_head {v : JsonText .value} {s : String} (h : v.head = some (.text s)) :
    ∃ glyphs, v = .text glyphs ∧ textOf glyphs = s := by
  cases v with
  | text glyphs =>
    cases h
    exact ⟨glyphs, rfl, rfl⟩
  | number t =>
    rw [JsonText.head, Option.map_eq_some_iff] at h
    obtain ⟨_, -, heq⟩ := h
    cases heq
  | null | boolean => cases h
  | empty kind | @filled kind => cases kind <;> cases h

theorem readWord16_value (before : Gap) (v : JsonText .value) {rest : List Char}
    (h : Delimited rest) :
    ReadsValue JsonText.IsWord .word v rest (readWord16 (before.chars ++ (v.chars ++ rest))) := by
  obtain ⟨behind, hread, hplain⟩ := readHead_chars before v h
  rw [readWord16, hread]
  cases hv : v.head with
  | none => exact .inr ⟨_, .tooLarge hv, rfl⟩
  | some head =>
    cases head with
    | number n =>
      cases n with
      | integer i =>
        by_cases hrange : 0 ≤ i ∧ i < UInt16.size
        · obtain ⟨n, rfl, hn⟩ := exists_number_of_head hv
          obtain rfl := hplain trivial
          have hword := NumberText.isWord_of_value hn hrange.1 hrange.2
          exact .inl ⟨UInt16.ofNat i.toNat, ⟨n, rfl, hword⟩, if_pos hrange⟩
        · exact .inr ⟨_, .range rfl hv (by omega), if_neg hrange⟩
      | float => exact .inr ⟨_, .kind hv id, rfl⟩
    | null | boolean | text | sequence | map => exact .inr ⟨_, .kind hv id, rfl⟩

theorem readText_value (before : Gap) (v : JsonText .value) {rest : List Char}
    (h : Delimited rest) :
    ReadsValue JsonText.IsString .text v rest (readText (before.chars ++ (v.chars ++ rest))) := by
  obtain ⟨behind, hread, hplain⟩ := readHead_chars before v h
  rw [readText, hread]
  cases hv : v.head with
  | none => exact .inr ⟨_, .tooLarge hv, rfl⟩
  | some head =>
    cases head with
    | text s =>
      obtain ⟨glyphs, rfl, hs⟩ := exists_text_of_head hv
      obtain rfl := hplain trivial
      exact .inl ⟨s, ⟨glyphs, rfl, hs⟩, rfl⟩
    | null | boolean | number | sequence | map => exact .inr ⟨_, .kind hv id, rfl⟩

/-! ### Members that have been read -/

/-- What has been read of a field, if anything, is its only value so far. -/
def Kept {α : Type} (Is : JsonText .value → α → Prop) (values : List (JsonText .value)) :
    Option α → Prop
  | none => values = []
  | some a => ∃ v, values = [v] ∧ Is v a

/-- What has been read of a field are the values of its members so far. -/
def Keeps (acc : Members) (values : List (JsonText .value)) : Field → Prop
  | .start => Kept JsonText.IsWord values acc.start
  | .length => Kept JsonText.IsWord values acc.length
  | .name => Kept JsonText.IsString values acc.name
  | .descriptor => Kept JsonText.IsString values acc.descriptor
  | .slot => Kept JsonText.IsWord values acc.slot

/-- What has been read are the members `seen`. -/
def Collected (seen : List Member) (acc : Members) : Prop := ∀ f, Keeps acc (valuesOf f seen) f

theorem Kept.isSome_iff {α : Type} {Is : JsonText .value → α → Prop}
    {values : List (JsonText .value)} {o : Option α} (h : Kept Is values o) :
    o.isSome = true ↔ values ≠ [] := by
  cases o with
  | none =>
    obtain rfl : values = [] := h
    simp
  | some a =>
    obtain ⟨v, rfl, -⟩ := h
    simp

theorem Kept.fitsOnce {α : Type} {Is : JsonText .value → α → Prop}
    {values : List (JsonText .value)} {o : Option α} (h : Kept Is values o) {expected : Expected}
    (hfits : ∀ {v a}, Is v a → ∀ p, ¬ Misfit expected v p) : FitsOnce expected values := by
  cases o with
  | none => exact .inl h
  | some a =>
    obtain ⟨v, hv, ha⟩ := h
    exact .inr ⟨v, hv, hfits ha⟩

theorem collected_nil : Collected [] {} := by
  rintro (_ | _ | _ | _ | _) <;> rfl

namespace Collected

variable {seen : List Member} {acc acc' : Members} {x : Member}

theorem has_iff (hc : Collected seen acc) (f : Field) :
    acc.has f = true ↔ valuesOf f seen ≠ [] := by
  have hf := hc f
  cases f <;> exact Kept.isSome_iff hf

theorem sound (hc : Collected seen acc) : Sound seen := by
  refine sound_of_fitsOnce fun f => ?_
  have hf := hc f
  cases f with
  | start | length | slot => exact Kept.fitsOnce hf JsonText.IsWord.not_misfit
  | name | descriptor => exact Kept.fitsOnce hf JsonText.IsString.not_misfit

theorem keeps_append (hc : Collected seen acc) {g : Field} (hx : x.key ≠ g.key) :
    Keeps acc (valuesOf g (seen ++ [x])) g := by
  rw [valuesOf_append, valuesOf_cons_ne hx]
  simpa [valuesOf] using hc g

theorem append_unknown (hc : Collected seen acc) (hx : ∀ f : Field, x.key ≠ f.key) :
    Collected (seen ++ [x]) acc :=
  fun f => hc.keeps_append (hx f)

theorem append_new {f : Field} (hkey : x.key = f.key) (hnew : valuesOf f seen = [])
    (hf : Keeps acc' [x.value] f) (hother : ∀ g, g ≠ f → Keeps acc' (valuesOf g seen) g) :
    Collected (seen ++ [x]) acc' := by
  intro g
  by_cases hg : g = f
  · subst hg
    rwa [valuesOf_append, hnew, valuesOf_cons_self hkey]
  · rw [valuesOf_append, valuesOf_cons_ne fun heq => hg (Field.key_injective (heq.symm.trans hkey))]
    simpa [valuesOf] using hother g hg

end Collected

/-! ### Steps -/

/-- The answer behind the members `seen` and the member `x`: what has been read is one member more,
or something is wrong with `x`. -/
def ReadsMember (seen : List Member) (x : Member) (rest : List Char)
    (answer : Except Problem (Members × List Char)) : Prop :=
  (∃ acc, Collected (seen ++ [x]) acc ∧ answer = .ok (acc, rest)) ∨
    ∃ p, Fault seen x p ∧ answer = .error p

theorem ReadsValue.readsMember {α : Type} {Is : JsonText .value → α → Prop} {f : Field}
    {x : Member} {rest : List Char} {answer : Except Problem (α × List Char)}
    (h : ReadsValue Is f.expected x.value rest answer) {seen : List Member} (hkey : x.key = f.key)
    (hnew : valuesOf f seen = []) (keep : α → Members)
    (hf : ∀ a, Is x.value a → Keeps (keep a) [x.value] f)
    (hother : ∀ a g, g ≠ f → Keeps (keep a) (valuesOf g seen) g) :
    ReadsMember seen x rest (answer.map fun r => (keep r.1, r.2)) := by
  rcases h with ⟨a, ha, rfl⟩ | ⟨p, hp, rfl⟩
  · exact .inl ⟨keep a, .append_new hkey hnew (hf a ha) (hother a), rfl⟩
  · exact .inr ⟨p, .misfit hkey hnew hp, rfl⟩

/-- The members with a word for one field more. -/
def Members.withWord (acc : Members) (f : Field) (w : UInt16) : Members :=
  match f with
  | .start => { acc with start := some w }
  | .length => { acc with length := some w }
  | .slot => { acc with slot := some w }
  | .name | .descriptor => acc

/-- The members with a string for one field more. -/
def Members.withText (acc : Members) (f : Field) (s : String) : Members :=
  match f with
  | .name => { acc with name := some s }
  | .descriptor => { acc with descriptor := some s }
  | .start | .length | .slot => acc

theorem keeps_withWord_ne {acc : Members} {f g : Field} (hg : g ≠ f)
    {values : List (JsonText .value)} (w : UInt16) :
    Keeps (acc.withWord f w) values g ↔ Keeps acc values g := by
  cases f <;> cases g <;> first | exact absurd rfl hg | exact Iff.rfl

theorem keeps_withText_ne {acc : Members} {f g : Field} (hg : g ≠ f)
    {values : List (JsonText .value)} (s : String) :
    Keeps (acc.withText f s) values g ↔ Keeps acc values g := by
  cases f <;> cases g <;> first | exact absurd rfl hg | exact Iff.rfl

section Field
variable {seen : List Member} {acc : Members} (hc : Collected seen acc) {f : Field} {x : Member}
  (hkey : x.key = f.key) (hnew : valuesOf f seen = []) (before : Gap) {rest : List Char}
  (h : Delimited rest)
include hc hkey hnew h

theorem readField_word (hf : f.expected = .word) :
    ReadsMember seen x rest (acc.readField f (before.chars ++ (x.value.chars ++ rest))) := by
  have hvalue := readWord16_value before x.value h
  have hread : ∀ text, acc.readField f text =
      (readWord16 text).map fun r => (acc.withWord f r.1, r.2) := by
    intro text
    cases f with
    | start | length | slot => rfl
    | name | descriptor => cases hf
  have hkeeps : ∀ w, x.value.IsWord w → Keeps (acc.withWord f w) [x.value] f := by
    intro w hw
    cases f with
    | start | length | slot => exact ⟨_, rfl, hw⟩
    | name | descriptor => cases hf
  rw [← hf] at hvalue
  rw [hread]
  exact hvalue.readsMember hkey hnew (acc.withWord f) hkeeps fun w g hg =>
    (keeps_withWord_ne hg w).mpr (hc g)

theorem readField_text (hf : f.expected = .text) :
    ReadsMember seen x rest (acc.readField f (before.chars ++ (x.value.chars ++ rest))) := by
  have hvalue := readText_value before x.value h
  have hread : ∀ text, acc.readField f text =
      (readText text).map fun r => (acc.withText f r.1, r.2) := by
    intro text
    cases f with
    | name | descriptor => rfl
    | start | length | slot => cases hf
  have hkeeps : ∀ s, x.value.IsString s → Keeps (acc.withText f s) [x.value] f := by
    intro s hs
    cases f with
    | name | descriptor => exact ⟨_, rfl, hs⟩
    | start | length | slot => cases hf
  rw [← hf] at hvalue
  rw [hread]
  exact hvalue.readsMember hkey hnew (acc.withText f) hkeeps fun s g hg =>
    (keeps_withText_ne hg s).mpr (hc g)

theorem readField_value :
    ReadsMember seen x rest (acc.readField f (before.chars ++ (x.value.chars ++ rest))) := by
  cases hf : f.expected with
  | word => exact readField_word hc hkey hnew before h hf
  | text => exact readField_text hc hkey hnew before h hf
  | scope | sequence => cases f <;> cases hf

end Field

/-- **One member more**, behind the members that have been read. -/
theorem readMember_chars {seen : List Member} {acc : Members} (hc : Collected seen acc) (x : Member)
    (afterKey before : Gap) {rest : List Char} (h : Delimited rest) :
    ReadsMember seen x rest
      (readMember acc x.key (afterKey.chars ++ ':' :: (before.chars ++ (x.value.chars ++ rest)))) := by
  rw [readMember]
  cases hfield : Field.ofKey? x.key with
  | none =>
    -- a key that no scope has
    have hx : ∀ f : Field, x.key ≠ f.key := by
      intro f heq
      rw [heq, Field.ofKey?_key] at hfield
      cases hfield
    refine .inl ⟨acc, hc.append_unknown hx, ?_⟩
    simp only [skipColon_gap, Option.bind_some, skipValue_chars before x.value h]
  | some f =>
    have hkey := Field.key_of_ofKey? hfield
    by_cases hhas : acc.has f = true
    · exact .inr ⟨_, .repeated hkey ((hc.has_iff f).mp hhas), if_pos hhas⟩
    · have hnew : valuesOf f seen = [] := by
        by_contra hne
        exact hhas ((hc.has_iff f).mpr hne)
      simp only [if_neg hhas, skipColon_gap]
      exact readField_value hc hkey hnew before h

theorem readKey_lead (before : Gap) (glyphs : List Glyph) (after : Gap) (text : List Char) :
    readKey ((Lead.key before glyphs after).chars ++ text) =
      .ok (textOf glyphs, after.chars ++ ':' :: text) := by
  rw [Lead.chars, List.append_assoc, List.append_assoc, List.append_assoc, List.singleton_append,
    quotedChars_append, readKey, skipBlanks_gap_cons before rfl]
  simp only [StringLiteral.read_glyphs]

/-! ### Runs -/

/-- What is to be answered to an object. -/
inductive Verdict (members : List Member) : Except Problem Scope → Prop
  | scope {s : Scope} (h : Describes members s) : Verdict members (.ok s)
  | refused {p : Problem} (h : Refused members p) : Verdict members (.error p)

/-- At the end of an object its members are those that have been read. -/
theorem Collected.verdict {members : List Member} {acc : Members} (hc : Collected members acc) :
    Verdict members acc.toScope := by
  have hempty : ∀ f, (valuesOf f members).isEmpty = !acc.has f := by
    intro f
    rw [Bool.eq_iff_iff, List.isEmpty_iff, Bool.not_eq_true', ← Bool.not_eq_true, hc.has_iff,
      not_not]
  have hmissing : firstMissing? members = Field.all.find? fun f => !acc.has f :=
    congrArg Field.all.find? (funext hempty)
  have hsound := hc.sound
  obtain ⟨start, length, name, descriptor, slot⟩ := acc
  rcases start with _ | start
  · exact .refused (.missing hsound hmissing)
  rcases length with _ | length
  · exact .refused (.missing hsound hmissing)
  rcases name with _ | name
  · exact .refused (.missing hsound hmissing)
  rcases descriptor with _ | descriptor
  · exact .refused (.missing hsound hmissing)
  rcases slot with _ | slot
  · exact .refused (.missing hsound hmissing)
  refine .scope fun f => ?_
  have hf := hc f
  cases f <;> exact hf

theorem readMembers_lead (acc : Members) (gap : Gap) (glyphs : List Glyph) (afterKey : Gap)
    (text : List Char) :
    readMembers acc ((Lead.key gap glyphs afterKey).chars ++ text) = (do
      let (acc, rest) ← readMember acc (textOf glyphs) (afterKey.chars ++ ':' :: text)
      match skipBlanks rest with
      | ',' :: rest => readMembers acc rest
      | '\x7d' :: rest => acc.toScope.map fun s => (s, rest)
      | _ => malformed) := by
  rw [readMembers_eq, readKey_lead]
  rfl

/-- **Every object comes to its verdict**, member by member, behind those that have been read. -/
theorem readMembers_chars : ∀ (items : JsonText (.items .map)) {seen : List Member} {acc : Members},
    Collected seen acc → ∀ rest, ∃ answer, Verdict (seen ++ items.members) answer ∧
      readMembers acc (items.chars ++ Container.map.closing :: rest) =
        answer.map fun s => (s, rest)
  -- by the members that are left; those before are collected in `acc`
  | .last (.key gap glyphs afterKey) before v after, seen, acc, hc, rest => by
    have hdelimited := after.delimited_append (delimited_closing .map rest)
    rw [JsonText.chars, List.append_assoc, List.append_assoc, List.append_assoc, readMembers_lead,
      JsonText.members]
    rcases readMember_chars hc ⟨textOf glyphs, v⟩ afterKey before hdelimited with
      ⟨acc', hc', hread⟩ | ⟨p, hp, hread⟩
    · refine ⟨acc'.toScope, hc'.verdict, ?_⟩
      rw [hread]
      simp only [bind, Except.bind, skipBlanks_gap_cons after (closing_not_blank .map)]
      rfl
    · refine ⟨.error p, .refused (.fault rfl hc.sound hp), ?_⟩
      rw [hread]
      rfl
  | .more (.key gap glyphs afterKey) before v after items, seen, acc, hc, rest => by
    have hdelimited := after.delimited_append
      (delimited_cons (c := ',') (by decide) (items.chars ++ Container.map.closing :: rest))
    rw [JsonText.chars, List.append_assoc, List.append_assoc, List.append_assoc, List.append_assoc,
      List.cons_append, readMembers_lead, JsonText.members]
    rcases readMember_chars hc ⟨textOf glyphs, v⟩ afterKey before hdelimited with
      ⟨acc', hc', hread⟩ | ⟨p, hp, hread⟩
    · obtain ⟨answer, hanswer, hrest⟩ := readMembers_chars items hc' rest
      refine ⟨answer, by simpa using hanswer, ?_⟩
      rw [hread]
      simp only [bind, Except.bind, skipBlanks_gap_cons after (show isBlank ',' = false from rfl)]
      exact hrest
    · refine ⟨.error p, .refused (.fault rfl hc.sound hp), ?_⟩
      rw [hread]
      rfl

/-- **Every object comes to its verdict**, whatever is behind it. -/
theorem readScope_object {object : JsonText .value} (h : object.IsObject) (before : Gap)
    (rest : List Char) :
    ∃ answer, Verdict object.members answer ∧
      readScope (before.chars ++ (object.chars ++ rest)) = answer.map fun s => (s, rest) := by
  have hopen : ∀ text, readScope (before.chars ++ Container.map.opening :: text) =
      readObject text := by
    intro text
    simp only [readScope, readHead_opening, Container.head]
  cases object with
  | null | boolean | number | text => exact h.elim
  | empty kind gap =>
    cases kind with
    | sequence => exact h.elim
    | map =>
      refine ⟨Members.toScope {}, collected_nil.verdict, ?_⟩
      rw [JsonText.chars, List.cons_append, List.append_assoc, List.singleton_append, hopen,
        readObject, skipBlanks_gap_cons gap (closing_not_blank .map)]
      rfl
  | @filled kind items =>
    cases kind with
    | sequence => exact h.elim
    | map =>
      obtain ⟨answer, hanswer, hread⟩ := readMembers_chars items collected_nil rest
      refine ⟨answer, hanswer, ?_⟩
      obtain ⟨c, cs, hcs, hc⟩ := exists_skipBlanks_items items (Container.map.closing :: rest)
      rw [JsonText.chars, List.cons_append, List.append_assoc, List.singleton_append, hopen,
        readObject, hcs]
      split
      · rename_i heq
        exact absurd (List.cons.inj heq).1 hc
      · exact hread

/-! ### Sequences -/

theorem readWord16_of_isWord (before : Gap) {v : JsonText .value} {w : UInt16} (hv : v.IsWord w)
    {rest : List Char} (h : Delimited rest) :
    readWord16 (before.chars ++ (v.chars ++ rest)) = .ok (w, rest) := by
  rcases readWord16_value before v h with ⟨w', hw', hread⟩ | ⟨p, hp, -⟩
  · rw [hread, hv.unique hw']
  · exact absurd hp (hv.not_misfit p)

theorem readText_of_isString (before : Gap) {v : JsonText .value} {s : String} (hv : v.IsString s)
    {rest : List Char} (h : Delimited rest) :
    readText (before.chars ++ (v.chars ++ rest)) = .ok (s, rest) := by
  rcases readText_value before v h with ⟨s', hs', hread⟩ | ⟨p, hp, -⟩
  · rw [hread, hv.unique hs']
  · exact absurd hp (hv.not_misfit p)

theorem readElement_first {α : Type} (read : List Char → Except Problem (α × List Char))
    (before : Gap) (v : JsonText .value) (rest : List Char) :
    readElement 0 read (before.chars ++ (v.chars ++ rest)) =
      read ((∅ : Gap).chars ++ (v.chars ++ rest)) := by
  obtain ⟨c, cs, hcs, hc⟩ := exists_startsValue v
  rw [readElement, toElement, skipBlanks_value, hcs]
  simp only [List.cons_append, if_neg hc.ne_bracket, if_true, Except.bind, chars_emptyGap,
    List.nil_append]

theorem readElement_next {α : Type} (index : Nat)
    (read : List Char → Except Problem (α × List Char)) (after : Gap) (text : List Char) :
    readElement (index + 1) read (after.chars ++ ',' :: text) = read text := by
  rw [readElement, toElement, skipBlanks_gap_cons after (show isBlank ',' = false from rfl)]
  rfl

theorem elements_ne_nil (items : JsonText (.items .sequence)) : items.elements ≠ [] := by
  cases items with
  | last lead | more lead =>
    cases lead
    exact List.cons_ne_nil _ _

theorem exists_filled {v w : JsonText .value} {ws : List (JsonText .value)}
    (h : v.elements = w :: ws) :
    ∃ items : JsonText (.items .sequence), v = .filled items ∧ items.elements = w :: ws := by
  cases v with
  | null | boolean | number | text => cases h
  | empty kind => cases kind <;> cases h
  | @filled kind items =>
    cases kind with
    | sequence => exact ⟨items, rfl, h⟩
    | map => cases h

theorem exists_more {items : JsonText (.items .sequence)} {v w : JsonText .value}
    {vs : List (JsonText .value)} (h : items.elements = v :: w :: vs) :
    ∃ before after rest, items = .more .element before v after rest ∧ rest.elements = w :: vs := by
  cases items with
  | last lead before v' after =>
    cases lead
    simp [JsonText.elements] at h
  | more lead before v' after rest =>
    cases lead
    obtain ⟨rfl, hrest⟩ := List.cons.inj h
    exact ⟨before, after, rest, rfl, hrest⟩

theorem exists_last {items : JsonText (.items .sequence)} {v : JsonText .value}
    (h : items.elements = [v]) : ∃ before after, items = .last .element before v after := by
  cases items with
  | last lead before v' after =>
    cases lead
    obtain ⟨rfl, -⟩ := List.cons.inj h
    exact ⟨before, after, rfl⟩
  | more lead before v' after rest =>
    cases lead
    exact absurd (List.cons.inj h).2 (elements_ne_nil rest)

/-- **The sequence of the values of a scope is read as that scope**, whatever is behind it. -/
theorem readScope_sequence {s : Scope} {sequence : JsonText .value} {value : Field → JsonText .value}
    (h : sequence.elements = Field.all.map value) (hs : ∀ f, Writes s f (value f)) (before : Gap)
    (rest : List Char) :
    readScope (before.chars ++ (sequence.chars ++ rest)) = .ok (s, rest) := by
  obtain ⟨items, rfl, h₀⟩ := exists_filled h
  obtain ⟨b₀, a₀, items, rfl, h₁⟩ := exists_more h₀
  obtain ⟨b₁, a₁, items, rfl, h₂⟩ := exists_more h₁
  obtain ⟨b₂, a₂, items, rfl, h₃⟩ := exists_more h₂
  obtain ⟨b₃, a₃, items, rfl, h₄⟩ := exists_more h₃
  obtain ⟨b₄, a₄, rfl⟩ := exists_last h₄
  have hcomma : ∀ (after : Gap) text, Delimited (after.chars ++ ',' :: text) :=
    fun after text => after.delimited_append (delimited_cons (by decide) text)
  have hclosing : Delimited (a₄.chars ++ Container.sequence.closing :: rest) :=
    a₄.delimited_append (delimited_closing .sequence rest)
  rw [JsonText.chars, List.cons_append, List.append_assoc, List.singleton_append, readScope,
    readHead_opening]
  simp only [Container.head, JsonText.chars, Lead.chars, List.nil_append, List.append_assoc,
    List.cons_append]
  rw [readElements, readElement_first, readWord16_of_isWord ∅ (hs .start) (hcomma a₀ _)]
  simp only [bind, Except.bind]
  rw [readElement_next, readWord16_of_isWord b₁ (hs .length) (hcomma a₁ _)]
  dsimp only
  rw [readElement_next, readText_of_isString b₂ (hs .name) (hcomma a₂ _)]
  dsimp only
  rw [readElement_next, readText_of_isString b₃ (hs .descriptor) (hcomma a₃ _)]
  dsimp only
  rw [readElement_next, readWord16_of_isWord b₄ (hs .slot) hclosing]
  dsimp only
  rw [closeSequence, skipBlanks_gap_cons a₄ (closing_not_blank .sequence)]
  rfl

end LocalScopes.Json
