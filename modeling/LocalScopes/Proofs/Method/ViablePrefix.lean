import LocalScopes.Proofs.Method.ConsecutiveSlots

/-! # Where a descriptor goes wrong

A text that is no method descriptor is refused in one of two ways. Either it ends too early, and
then it can be completed; or it has a character that no type starts with, and then nothing behind
that character helps, while the text before it can still be completed. What is refused depends
neither on the slots of the parameters nor on whether there is a receiver.

* `FieldType.exists_read_append`, `MethodDescriptor.exists_readParameters_append`,
  `MethodDescriptor.exists_readResult_append`: what ends too early can be completed;
* `StuckAt`: the first character behind which nothing helps, for each reader;
* `Method.viable_prefix_law`: both in one statement. -/

namespace LocalScopes

/-- The reader takes all of `p`, asks for more, and stops at `c`, whatever is behind it. -/
structure StuckAt {α : Type} (read : List Char → Except DescriptorFault α) (p : List Char)
    (c : Char) : Prop where
  before : read p = .error .incomplete
  behind : ∀ q, read (p ++ c :: q) = .error (.badTypeCode c)

theorem append_cons_ne {a c : Char} {p q : List Char} (h : ∀ rest, p ++ c :: q ≠ a :: rest)
    (q' rest : List Char) : p ++ c :: q' ≠ a :: rest := by
  intro heq
  cases p with
  | nil =>
    obtain ⟨rfl, -⟩ := List.cons.inj heq
    exact h q rfl
  | cons b p =>
    obtain ⟨rfl, -⟩ := List.cons.inj heq
    exact h (p ++ c :: q) rfl

/-! ### Types -/

namespace FieldType

theorem exists_read_append {dimensions : Nat} {text : List Char}
    (h : read dimensions text = .error .incomplete) :
    ∃ type, ∀ rest, read dimensions (text ++ 'I' :: rest) = .ok (type, rest) := by
  fun_induction read dimensions text with
  | case1 dimensions => exact ⟨⟨dimensions, .base .int⟩, fun _ => rfl⟩
  | case2 dimensions text ih =>
    obtain ⟨type, htype⟩ := ih h
    exact ⟨type, fun rest => by rw [List.cons_append, read, htype]⟩
  | case3 => cases h
  | case4 => cases h
  | case5 => cases h

theorem exists_stuckAt_read {dimensions : Nat} {text : List Char} {c : Char}
    (h : read dimensions text = .error (.badTypeCode c)) :
    ∃ p q, text = p ++ c :: q ∧ StuckAt (read dimensions) p c := by
  fun_induction read dimensions text with
  | case1 => cases h
  | case2 dimensions text ih =>
    obtain ⟨p, q, rfl, hp⟩ := ih h
    refine ⟨'[' :: p, q, rfl, ?_, fun q' => ?_⟩
    · rw [read, hp.before]
    · rw [List.cons_append, read, hp.behind]
  | case3 => cases h
  | case4 => cases h
  | case5 dimensions c' text hbracket hobject hcode =>
    obtain rfl := DescriptorFault.badTypeCode.inj (Except.error.inj h)
    refine ⟨[], text, rfl, rfl, fun q => ?_⟩
    rw [List.nil_append, read, hcode]
    · exact hbracket
    · exact hobject

theorem exists_read_close {text : List Char} (h : Unclosed text) : ∀ dimensions : Nat,
    ∃ type, ∀ rest, read dimensions (text ++ ';' :: rest) = .ok (type, rest) := by
  induction h with
  | @object name plain =>
    intro dimensions
    refine ⟨⟨dimensions, .object (String.ofList name)⟩, fun rest => ?_⟩
    have hread := (TypeText.object name plain).read_chars rest dimensions
    rwa [TypeText.chars, List.cons_append, List.append_assoc, List.singleton_append] at hread
  | array _ ih =>
    intro dimensions
    obtain ⟨type, htype⟩ := ih (dimensions + 1)
    exact ⟨type, fun rest => by rw [List.cons_append, read, htype]⟩

end FieldType

/-! ### Parameters -/

namespace MethodDescriptor

theorem readParameters_typeText (t : TypeText) (text : List Char) (found : Array FieldType) :
    readParameters (t.chars ++ text) found = readParameters text (found.push t.type) := by
  have hread := t.read_chars text 0
  rw [Nat.zero_add] at hread
  rw [readParameters_type (t.chars_append_ne_close _), hread]
  rfl

theorem readParameters_typeTexts (text : List Char) : ∀ (types : List TypeText)
    (found : Array FieldType), ∃ all,
      readParameters (types.flatMap TypeText.chars ++ text) found = readParameters text all
  | [], found => ⟨found, rfl⟩
  | t :: types, found => by
    obtain ⟨all, hall⟩ := readParameters_typeTexts text types (found.push t.type)
    exact ⟨all, by rw [List.flatMap_cons, List.append_assoc, readParameters_typeText, hall]⟩

theorem readParameters_nil (found : Array FieldType) :
    readParameters [] found = .error .incomplete := by
  rw [readParameters_type (by simp)]
  rfl

theorem exists_readParameters_append {text : List Char} {found : Array FieldType}
    (h : readParameters text found = .error .incomplete) :
    ∃ more all, ∀ rest, readParameters (text ++ (more ++ ')' :: rest)) found = .ok (all, rest) := by
  fun_induction readParameters text found with
  | case1 => cases h
  | case2 found text hopen fault hread =>
    obtain rfl := Except.error.inj h
    obtain ⟨type, htype⟩ := FieldType.exists_read_append hread
    refine ⟨['I'], found.push type, fun rest => ?_⟩
    rw [List.singleton_append, readParameters_type, htype]
    · exact readParameters_close rest _
    · intro rest' heq
      cases text with
      | nil => cases heq
      | cons a text =>
        obtain ⟨rfl, -⟩ := List.cons.inj heq
        exact hopen text rfl
  | case3 found text hopen type text' hread _ ih =>
    rcases exists_typeText_of_read hread with ⟨t, rfl, rfl⟩ | ⟨runsOn, rfl⟩
    · obtain ⟨more, all, hall⟩ := ih h
      refine ⟨more, all, fun rest => ?_⟩
      rw [List.append_assoc, readParameters_typeText, ← hall rest, Nat.zero_add]
    · -- the class name has taken the rest of the text
      obtain ⟨type', htype⟩ := FieldType.exists_read_close runsOn 0
      refine ⟨[';'], found.push type', fun rest => ?_⟩
      rw [List.singleton_append, readParameters_type, htype]
      · exact readParameters_close rest _
      · cases runsOn <;> simp

theorem exists_stuckAt_readParameters {text : List Char} {found : Array FieldType} {c : Char}
    (h : readParameters text found = .error (.badTypeCode c)) :
    ∃ p q, text = p ++ c :: q ∧ StuckAt (readParameters · found) p c := by
  fun_induction readParameters text found with
  | case1 => cases h
  | case2 found text hopen fault hread =>
    obtain rfl := Except.error.inj h
    obtain ⟨p, q, rfl, hp⟩ := FieldType.exists_stuckAt_read hread
    refine ⟨p, q, rfl, ?_, fun q' => ?_⟩
    · rw [readParameters_type, hp.before]
      · rfl
      · rintro rest rfl
        exact hopen _ rfl
    · rw [readParameters_type (append_cons_ne hopen q'), hp.behind]
      rfl
  | case3 found text hopen type text' hread _ ih =>
    rcases exists_typeText_of_read hread with ⟨t, rfl, rfl⟩ | ⟨-, rfl⟩
    · obtain ⟨p, q, rfl, hp⟩ := ih h
      rw [Nat.zero_add] at hp
      refine ⟨t.chars ++ p, q, (List.append_assoc _ _ _).symm, ?_, fun q' => ?_⟩
      · rw [readParameters_typeText]
        exact hp.before
      · rw [List.append_assoc, readParameters_typeText]
        exact hp.behind q'
    · rw [readParameters_nil] at h
      cases h

/-! ### Results -/

theorem exists_readResult_append {text : List Char} (h : readResult text = .error .incomplete) :
    ∃ result, readResult (text ++ ['I']) = .ok result := by
  have hvoid : ∀ rest, text ≠ 'V' :: rest := by
    rintro rest rfl
    cases h
  rw [readResult_type hvoid] at h
  rcases hread : FieldType.read 0 text with fault | r
  · rw [hread] at h
    obtain rfl := Except.error.inj h
    obtain ⟨type, htype⟩ := FieldType.exists_read_append hread
    refine ⟨some type, ?_⟩
    rw [readResult_type, htype]
    · rfl
    · intro rest heq
      cases text with
      | nil => cases heq
      | cons a text =>
        obtain ⟨rfl, -⟩ := List.cons.inj heq
        exact hvoid text rfl
  · rw [hread] at h
    cases h

theorem exists_stuckAt_readResult {text : List Char} {c : Char}
    (h : readResult text = .error (.badTypeCode c)) :
    ∃ p q, text = p ++ c :: q ∧ StuckAt readResult p c := by
  have hvoid : ∀ rest, text ≠ 'V' :: rest := by
    rintro rest rfl
    cases h
  rw [readResult_type hvoid] at h
  rcases hread : FieldType.read 0 text with fault | r
  · rw [hread] at h
    obtain rfl := Except.error.inj h
    obtain ⟨p, q, rfl, hp⟩ := FieldType.exists_stuckAt_read hread
    refine ⟨p, q, rfl, ?_, fun q' => ?_⟩
    · rw [readResult_type, hp.before]
      · rfl
      · rintro rest rfl
        exact hvoid _ rfl
    · rw [readResult_type (append_cons_ne hvoid q'), hp.behind]
      rfl
  · rw [hread] at h
    cases h

/-! ### Descriptors -/

/-- Reads a method descriptor behind its opening parenthesis. -/
def readOpened (text : List Char) : Except DescriptorFault MethodDescriptor :=
  (readParameters text #[]).bind fun r =>
    (readResult r.2).map fun result => ⟨r.1.toList, result⟩

theorem read_opened {d : String} {text : List Char} (h : d.toList = '(' :: text) :
    read d = readOpened text := by
  unfold read readOpened
  split
  · rename_i text' htext
    obtain rfl := (List.cons.inj (h.symm.trans htext)).2
    rcases readParameters text #[] with fault | ⟨parameters, rest⟩ <;> rfl
  · rename_i hopen
    exact absurd h (hopen text)

theorem read_unopened {d : String} (h : ∀ text, d.toList ≠ '(' :: text) :
    read d = .error .incomplete := by
  rw [read]
  split
  · exact absurd ‹_› (h _)
  · rfl

theorem readOpened_flatMap (types : List TypeText) (rest : List Char) :
    readOpened (types.flatMap TypeText.chars ++ ')' :: rest) =
      (readResult rest).map fun result => ⟨types.map TypeText.type, result⟩ := by
  rw [readOpened, readParameters_flatMap]
  simp [Except.bind]

theorem exists_readOpened_append {text : List Char} (h : readOpened text = .error .incomplete) :
    ∃ more method, readOpened (text ++ more) = .ok method := by
  rcases hread : readParameters text #[] with fault | ⟨all, rest⟩
  · rw [readOpened, hread] at h
    obtain rfl := Except.error.inj h
    obtain ⟨more, all, hall⟩ := exists_readParameters_append hread
    exact ⟨more ++ [')', 'V'], ⟨all.toList, none⟩, by rw [readOpened, hall]; rfl⟩
  · obtain ⟨types, rfl, -⟩ := exists_of_readParameters hread
    rw [readOpened_flatMap] at h
    rcases hresult : readResult rest with fault | result
    · rw [hresult] at h
      obtain rfl := Except.error.inj h
      obtain ⟨result, hok⟩ := exists_readResult_append hresult
      refine ⟨['I'], ⟨types.map TypeText.type, result⟩, ?_⟩
      rw [List.append_assoc, List.cons_append, readOpened_flatMap, hok]
      rfl
    · rw [hresult] at h
      cases h

theorem exists_stuckAt_readOpened {text : List Char} {c : Char}
    (h : readOpened text = .error (.badTypeCode c)) :
    ∃ p q, text = p ++ c :: q ∧ StuckAt readOpened p c := by
  rcases hread : readParameters text #[] with fault | ⟨all, rest⟩
  · rw [readOpened, hread] at h
    obtain rfl := Except.error.inj h
    obtain ⟨p, q, rfl, hp⟩ := exists_stuckAt_readParameters hread
    refine ⟨p, q, rfl, ?_, fun q' => ?_⟩
    · rw [readOpened, hp.before]
      rfl
    · rw [readOpened, hp.behind]
      rfl
  · obtain ⟨types, rfl, -⟩ := exists_of_readParameters hread
    rw [readOpened_flatMap] at h
    rcases hresult : readResult rest with fault | result
    · rw [hresult] at h
      obtain rfl := Except.error.inj h
      obtain ⟨p, q, rfl, hp⟩ := exists_stuckAt_readResult hresult
      refine ⟨types.flatMap TypeText.chars ++ ')' :: p, q, by simp, ?_, fun q' => ?_⟩
      · rw [readOpened_flatMap, hp.before]
        rfl
      · rw [List.append_assoc, List.cons_append, readOpened_flatMap, hp.behind]
        rfl
    · rw [hresult] at h
      cases h

/-! ### Completions of a descriptor -/

/-- **What ends too early can be completed.** -/
theorem exists_read_append {d : String} {text : List Char} (hd : d.toList = '(' :: text)
    (h : read d = .error .incomplete) : ∃ e method, read (d ++ e) = .ok method := by
  rw [read_opened hd] at h
  obtain ⟨more, method, hmore⟩ := exists_readOpened_append h
  have hlist : (d ++ String.ofList more).toList = '(' :: (text ++ more) := by
    rw [String.toList_append, hd, String.toList_ofList, List.cons_append]
  exact ⟨String.ofList more, method, by rw [read_opened hlist, hmore]⟩

/-- **Behind a character that no type starts with nothing helps**, and the text before it can be
completed. -/
theorem exists_stuckAt_read {d : String} {c : Char} (h : read d = .error (.badTypeCode c)) :
    ∃ p q : String, d = p ++ String.singleton c ++ q ∧
      (∃ e method, read (p ++ e) = .ok method) ∧
      ∀ e, read (p ++ String.singleton c ++ e) = .error (.badTypeCode c) := by
  by_cases hopen : ∃ text, d.toList = '(' :: text
  · obtain ⟨text, hd⟩ := hopen
    rw [read_opened hd] at h
    obtain ⟨p, q, rfl, hp⟩ := exists_stuckAt_readOpened h
    have hlist : (String.ofList ('(' :: p)).toList = '(' :: p := String.toList_ofList
    have hmore : ∀ e : String, (String.ofList ('(' :: p) ++ String.singleton c ++ e).toList =
        '(' :: (p ++ c :: e.toList) := by simp
    refine ⟨String.ofList ('(' :: p), String.ofList q, ?_, exists_read_append hlist ?_,
      fun e => ?_⟩
    · rw [← String.toList_inj]
      simp [hd]
    · rw [read_opened hlist, hp.before]
    · rw [read_opened (hmore e), hp.behind]
  · rw [read_unopened fun text htext => hopen ⟨text, htext⟩] at h
    cases h

end MethodDescriptor

/-! ### Slots -/

namespace Method

/-- The text can be read as a descriptor, whether its parameters fit or not. -/
def Parsable (d : String) (isStatic : Bool) : Prop :=
  (∃ l, slots d isStatic = .ok l) ∨ slots d isStatic = .error (.tooManySlots d)

theorem slots_of_read_error {d : String} {fault : DescriptorFault}
    (h : MethodDescriptor.read d = .error fault) (isStatic : Bool) :
    slots d isStatic = .error (.unreadable d fault) := by
  rw [slots, h]

theorem parsable_iff {d : String} {isStatic : Bool} :
    Parsable d isStatic ↔ ∃ method, MethodDescriptor.read d = .ok method := by
  unfold Parsable
  constructor
  · intro h
    rcases hread : MethodDescriptor.read d with fault | method
    · rw [slots_of_read_error hread] at h
      simp at h
    · exact ⟨method, rfl⟩
  · rintro ⟨method, hread⟩
    simp only [slots, hread]
    split
    · exact .inr rfl
    · exact .inl ⟨_, rfl⟩

theorem parsable_iff_text {d : String} {isStatic : Bool} :
    Parsable d isStatic ↔ ∃ m : MethodText, d.toList = m.chars := by
  rw [parsable_iff]
  constructor
  · rintro ⟨method, hread⟩
    obtain ⟨m, hm, -⟩ := MethodText.exists_of_read hread
    exact ⟨m, hm⟩
  · rintro ⟨m, hm⟩
    obtain ⟨result, hread⟩ := m.exists_read hm
    exact ⟨_, hread⟩

theorem exists_slots_of_not_parsable {d : String} {isStatic : Bool} (h : ¬ Parsable d isStatic) :
    ∃ fault, MethodDescriptor.read d = .error fault ∧
      ∀ other, slots d other = .error (.unreadable d fault) := by
  rcases hread : MethodDescriptor.read d with fault | method
  · exact ⟨fault, rfl, slots_of_read_error hread⟩
  · exact absurd (parsable_iff.mpr ⟨method, hread⟩) h

theorem descriptor_of_slots {d : String} {isStatic : Bool} {e : DescriptorError}
    (h : slots d isStatic = .error e) : e.descriptor = d := by
  unfold slots at h
  split at h
  · cases h
    rfl
  · split at h
    · cases h
      rfl
    · cases h

/-- **The viable prefixes of descriptors.** A text without an opening parenthesis is no method
descriptor, and is refused as that. So is one that can still be completed. A text that cannot be
completed is refused for a character in it: the text before that character can be completed, and no
text that goes on with it is a descriptor. A refusal has the whole text with it, and one that is not
about slots is the same with and without a receiver, however many slots the parameters take. -/
theorem viable_prefix_law (d : String) (isStatic : Bool) :
    ((∀ text, d.toList ≠ '(' :: text) → slots d isStatic = .error (.unreadable d .incomplete)) ∧
    (∀ text, d.toList = '(' :: text → ¬ Parsable d isStatic →
      (slots d isStatic = .error (.unreadable d .incomplete) ↔
        ∃ e, Parsable (d ++ e) isStatic) ∧
      ((∃ c, slots d isStatic = .error (.unreadable d (.badTypeCode c))) ↔
        ∀ e, ¬ Parsable (d ++ e) isStatic) ∧
      ∀ c, slots d isStatic = .error (.unreadable d (.badTypeCode c)) →
        ∃ p q, d = p ++ String.singleton c ++ q ∧ (∃ e, Parsable (p ++ e) isStatic) ∧
          ∀ q', ¬ Parsable (p ++ String.singleton c ++ q') isStatic) ∧
    (∀ e, slots d isStatic = .error e → e.descriptor = d) ∧
    (Parsable d isStatic ↔ ∃ m : MethodText, d.toList = m.chars) ∧
    ((∀ m : MethodText, d.toList ≠ m.chars) →
      ∃ fault, ∀ other, slots d other = .error (.unreadable d fault)) ∧
    (DescriptorError.unreadable d .incomplete).detail =
      s!"InvalidMethodDescriptor({Text.quoted d})" ∧
    ∀ c, (DescriptorError.unreadable d (.badTypeCode c)).detail =
      s!"InvalidBaseTypeCode({Text.quotedChar c})" := by
  refine ⟨fun hopen => slots_of_read_error (MethodDescriptor.read_unopened hopen) isStatic,
    fun text hd hfails => ?_, fun e => descriptor_of_slots, parsable_iff_text, fun hm => ?_, rfl,
    fun c => rfl⟩
  · obtain ⟨fault, hread, hslots⟩ := exists_slots_of_not_parsable hfails
    simp only [hslots isStatic, parsable_iff]
    cases fault with
    | incomplete =>
      obtain ⟨e, method, he⟩ := MethodDescriptor.exists_read_append hd hread
      refine ⟨⟨fun _ => ⟨e, method, he⟩, fun _ => rfl⟩, ⟨?_, fun hnone => ?_⟩, ?_⟩
      · rintro ⟨c, ⟨⟩⟩
      · exact absurd ⟨method, he⟩ (hnone e)
      · rintro c ⟨⟩
    | badTypeCode c =>
      obtain ⟨p, q, rfl, hbefore, hbehind⟩ := MethodDescriptor.exists_stuckAt_read hread
      have hnone : ∀ q', ¬ ∃ method,
          MethodDescriptor.read (p ++ String.singleton c ++ q') = .ok method := by
        rintro q' ⟨method, hmethod⟩
        rw [hbehind q'] at hmethod
        cases hmethod
      have hnever : ∀ e, ¬ ∃ method,
          MethodDescriptor.read (p ++ String.singleton c ++ q ++ e) = .ok method := fun e => by
        rw [String.append_assoc]
        exact hnone (q ++ e)
      refine ⟨⟨?_, ?_⟩, ⟨fun _ => hnever, fun _ => ⟨c, rfl⟩⟩, ?_⟩
      · rintro ⟨⟩
      · rintro ⟨e, he⟩
        exact absurd he (hnever e)
      · rintro c' ⟨⟩
        exact ⟨p, q, rfl, hbefore, hnone⟩
  · have hfails : ¬ Parsable d isStatic := fun h => by
      obtain ⟨m, heq⟩ := parsable_iff_text.mp h
      exact hm m heq
    obtain ⟨fault, -, hslots⟩ := exists_slots_of_not_parsable hfails
    exact ⟨fault, hslots⟩

/-- A bad letter counts although the parameters before it take more slots than there are, and
nothing behind it helps. -/
theorem viable_prefix_law_past_all_slots :
    ∃ d : String, d.toList = '(' :: (List.replicate 65536 'J' ++ ['Q']) ∧
      slots d true = .error (.unreadable d (.badTypeCode 'Q')) ∧
      (∀ e, ¬ Parsable (d ++ e) true) ∧
      slots "(La)V" true = .error (.unreadable "(La)V" .incomplete) ∧
      ∃ e, Parsable ("(La)V" ++ e) true := by
  have hd : (String.ofList ('(' :: (List.replicate 65536 'J' ++ ['Q']))).toList =
      '(' :: (List.replicate 65536 'J' ++ ['Q']) := String.toList_ofList
  have hchars : List.replicate 65536 'J' =
      (List.replicate 65536 (TypeText.base .long)).flatMap TypeText.chars := by
    simp only [List.flatMap_replicate, TypeText.chars, BaseType.code,
      List.flatten_replicate_singleton]
  have hread : ∀ d : String, d.toList = '(' :: (List.replicate 65536 'J' ++ ['Q']) →
      MethodDescriptor.read d = .error (.badTypeCode 'Q') := by
    intro d hd
    obtain ⟨all, hall⟩ := MethodDescriptor.readParameters_typeTexts ['Q']
      (List.replicate 65536 (TypeText.base .long)) #[]
    rw [MethodDescriptor.read_opened hd, MethodDescriptor.readOpened, hchars, hall,
      MethodDescriptor.readParameters_type (by simp)]
    rfl
  generalize String.ofList ('(' :: (List.replicate 65536 'J' ++ ['Q'])) = d at hd
  have hbad := slots_of_read_error (hread d hd) true
  have hfails : ¬ Parsable d true := by
    rw [parsable_iff, hread d hd]
    rintro ⟨method, ⟨⟩⟩
  have hshort : MethodDescriptor.read "(La)V" = .error .incomplete := by decide +kernel
  have hunread := slots_of_read_error hshort true
  have hopen : ¬ Parsable "(La)V" true := by
    rw [parsable_iff, hshort]
    rintro ⟨method, ⟨⟩⟩
  refine ⟨d, hd, hbad, ?_, hunread, ?_⟩
  · exact ((viable_prefix_law d true).2.1 _ hd hfails).2.1.mp ⟨'Q', hbad⟩
  · exact ((viable_prefix_law "(La)V" true).2.1 _ rfl hopen).1.mp hunread

end Method

end LocalScopes
