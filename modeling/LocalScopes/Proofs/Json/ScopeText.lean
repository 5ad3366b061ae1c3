import LocalScopes.Proofs.Json.NumberRange
import LocalScopes.Proofs.Json.ObjectReading

/-! # Texts of a scope

A text that holds an object and nothing else but blanks is the scope that the object describes, or
refused for the reason that the object has, and not for another one.

* `Scope.ofJson_object`: the answer to every object;
* `Scope.exists_data_of_ofJson`: which numbers are not too large for it. -/

namespace LocalScopes

namespace Json

/-- The text that holds a value and nothing else. -/
def wholeText (before : Gap) (v : JsonText .value) (after : Gap) : String :=
  String.ofList (before.chars ++ (v.chars ++ after.chars))

theorem readAll_eq {α : Type} {read : List Char → Except Problem (α × List Char)} {text : String}
    {answer : Except Problem α} {rest : List Char} (hrest : skipBlanks rest = [])
    (h : read text.toList = answer.map fun a => (a, rest)) : readAll read text = answer := by
  rw [readAll, h]
  cases answer with
  | error p => rfl
  | ok a => exact if_pos hrest

theorem readAll_wholeText {α : Type} {read : List Char → Except Problem (α × List Char)}
    {before after : Gap} {v : JsonText .value} {answer : Except Problem α}
    (h : read (before.chars ++ (v.chars ++ after.chars)) = answer.map fun a => (a, after.chars)) :
    readAll read (wholeText before v after) = answer := by
  have hafter : skipBlanks after.chars = [] := by
    simpa [skipBlanks] using skipBlanks_gap after []
  exact readAll_eq hafter (by rw [wholeText, String.toList_ofList, h])

theorem verdict_ofJson {object : JsonText .value} (h : object.IsObject) (before after : Gap) :
    Verdict object.members (Scope.ofJson (wholeText before object after)) := by
  obtain ⟨answer, hanswer, hread⟩ := readScope_object h before after.chars
  rw [Scope.ofJson, readAll_wholeText hread]
  exact hanswer

theorem Verdict.ok_iff {members : List Member} {answer : Except Problem Scope}
    (h : Verdict members answer) (s : Scope) : answer = .ok s ↔ Describes members s := by
  constructor
  · rintro rfl
    obtain hs | - := h
    exact hs
  · intro hs
    obtain hs' | hp := h
    · rw [hs.unique hs']
    · exact absurd hp (hs.not_refused _)

theorem Verdict.error_iff {members : List Member} {answer : Except Problem Scope}
    (h : Verdict members answer) (p : Problem) : answer = .error p ↔ Refused members p := by
  constructor
  · rintro rfl
    obtain - | hp := h
    exact hp
  · intro hp
    obtain hs | hp' := h
    · exact absurd hp (hs.not_refused p)
    · rw [hp.unique hp']

/-- Only a number that is too large makes an object malformed. -/
theorem Refused.exists_data {members : List Member} {p : Problem} (h : Refused members p)
    (hsmall : ∀ m ∈ members, m.value.head ≠ none) : ∃ e, p = .data e := by
  rcases h with ⟨hmembers, -, hfault⟩ | -
  · rcases hfault with - | ⟨-, -, hmisfit⟩
    · exact ⟨_, rfl⟩
    · rcases hmisfit with - | - | hlarge
      · exact ⟨_, rfl⟩
      · exact ⟨_, rfl⟩
      · exact absurd hlarge (hsmall _ (by simp [hmembers]))
  · exact ⟨_, rfl⟩

end Json

open Json

/-- **The answer to every object**: the scope that it describes, which the sequence of the same
values stands for as well, and otherwise the first of its problems. Unless a value is a number that
is too large, this is a problem in the data. -/
theorem Scope.ofJson_object {object : JsonText .value} (hobject : object.IsObject)
    (before after : Gap) :
    (∀ s, Scope.ofJson (wholeText before object after) = .ok s ↔ Describes object.members s) ∧
    (∀ p, Scope.ofJson (wholeText before object after) = .error p ↔ Refused object.members p) ∧
    ((∀ m ∈ object.members, m.value.head ≠ none) →
      ∀ p, Scope.ofJson (wholeText before object after) = .error p → ∃ e, p = .data e) ∧
    ∀ s (sequence : JsonText .value) (before' after' : Gap),
      Scope.ofJson (wholeText before object after) = .ok s →
      sequence.elements = (Field.all.flatMap fun f => valuesOf f object.members) →
      Scope.ofJson (wholeText before' sequence after') = .ok s := by
  have hverdict := verdict_ofJson hobject before after
  refine ⟨hverdict.ok_iff, hverdict.error_iff, ?_, ?_⟩
  · intro hsmall p hp
    exact ((hverdict.error_iff p).mp hp).exists_data hsmall
  · intro s sequence before' after' hs hsequence
    choose value hvalue hwrites using (hverdict.ok_iff s).mp hs
    have helements : sequence.elements = Field.all.map value := by
      rw [hsequence, List.map_eq_flatMap]
      exact congrArg (Field.all.flatMap ·) (funext hvalue)
    have hread : readScope (before'.chars ++ (sequence.chars ++ after'.chars)) =
        (Except.ok s).map fun s => (s, after'.chars) :=
      readScope_sequence helements hwrites before' after'.chars
    exact readAll_wholeText hread

/-- The number of one digit. -/
def Json.oneDigit (c : Char) (h : c.isDigit = true) : NumberText where
  negative := false
  whole := ⟨[c], by simp, by simpa using h⟩
  noLeadingZero := by
    rintro rest ⟨⟩
    rfl
  fraction := none
  exponent := none

/-- The members in another order, among two members of one key that no scope has. -/
def Json.mixedObject : JsonText .value :=
  .filled
    (.more (.key ∅ (plainGlyphs "slot" rfl) ∅) ∅
      (.number (oneDigit '1' rfl)) ∅
    (.more (.key ∅ (plainGlyphs "x" rfl) ∅) ∅
      (.filled (.last .element ∅ (.empty .map ∅) ∅)) ∅
    (.more (.key ∅ (plainGlyphs "name" rfl) ∅) ∅
      (.text (plainGlyphs "a" rfl)) ∅
    (.more (.key ∅ (plainGlyphs "x" rfl) ∅) ∅ .null ∅
    (.more (.key ∅ (plainGlyphs "descriptor" rfl) ∅) ∅
      (.text (plainGlyphs "I" rfl)) ∅
    (.more (.key ∅ (plainGlyphs "length" rfl) ∅) ∅
      (.number (oneDigit '2' rfl)) ∅
    (.last (.key ∅ (plainGlyphs "start_offset" rfl) ∅) ∅
      (.number (oneDigit '0' rfl)) ∅)))))))

/-- The values of these members as a sequence. -/
def Json.valueSequence : JsonText .value :=
  .filled
    (.more .element ∅ (.number (oneDigit '0' rfl)) ∅
    (.more .element ∅ (.number (oneDigit '2' rfl)) ∅
    (.more .element ∅ (.text (plainGlyphs "a" rfl)) ∅
    (.more .element ∅ (.text (plainGlyphs "I" rfl)) ∅
    (.last .element ∅ (.number (oneDigit '1' rfl)) ∅)))))

theorem Scope.ofJson_object_of_mixed :
    wholeText ∅ mixedObject ∅ =
        "\x7b\"slot\":1,\"x\":[\x7b\x7d],\"name\":\"a\",\"x\":null," ++
          "\"descriptor\":\"I\",\"length\":2,\"start_offset\":0\x7d" ∧
      Scope.ofJson (wholeText ∅ mixedObject ∅) = .ok ⟨0, 2, "a", "I", 1⟩ ∧
      wholeText ∅ valueSequence ∅ = "[0,2,\"a\",\"I\",1]" ∧
      Scope.ofJson (wholeText ∅ valueSequence ∅) = .ok ⟨0, 2, "a", "I", 1⟩ ∧
      ∃ e, Scope.ofJson (wholeText ∅ (.empty .map ∅) ∅) = .error (.data e) := by
  obtain ⟨hok, -, -, hsequence⟩ := @Scope.ofJson_object mixedObject trivial ∅ ∅
  obtain ⟨-, herror, hdata, -⟩ := @Scope.ofJson_object (.empty .map ∅) trivial ∅ ∅
  have hmixed : Describes mixedObject.members ⟨0, 2, "a", "I", 1⟩ := by
    rintro (_ | _ | _ | _ | _)
    · exact ⟨_, rfl, _, rfl, rfl, rfl, rfl, rfl⟩
    · exact ⟨_, rfl, _, rfl, rfl, rfl, rfl, rfl⟩
    · exact ⟨_, rfl, _, rfl, rfl⟩
    · exact ⟨_, rfl, _, rfl, rfl⟩
    · exact ⟨_, rfl, _, rfl, rfl, rfl, rfl, rfl⟩
  have hmissing : Refused [] (.data (.missing .start)) := .missing sound_nil rfl
  obtain ⟨e, he⟩ := hdata (by simp [JsonText.members]) _ ((herror _).mpr hmissing)
  exact ⟨by decide, (hok _).mpr hmixed, by decide, hsequence _ _ ∅ ∅ ((hok _).mpr hmixed) rfl, e,
    he ▸ (herror _).mpr hmissing⟩

/-! ### Numbers that are too large -/

theorem Json.JsonText.head_ne_none {v : JsonText .value}
    (h : ∀ n, v = .number n → n.literal.value ≠ none) : v.head ≠ none := by
  cases v with
  | null => exact Option.some_ne_none _
  | boolean b => exact Option.some_ne_none _
  | number n =>
    rw [head, ne_eq, Option.map_eq_none_iff]
    exact h n rfl
  | text glyphs => exact Option.some_ne_none _
  | empty kind gap => exact Option.some_ne_none _
  | filled items => exact Option.some_ne_none _

/-- **Below the last steps of a float, every problem of an object is in its data.** -/
theorem Scope.exists_data_of_ofJson {object : JsonText .value} (hobject : object.IsObject)
    (hsmall : ∀ m ∈ object.members, ∀ n, m.value = .number n →
      n.chars.length + maxFactor < exponentBound ∧ |n.exact| + 2 * lastStep ≤ greatestFloat)
    {before after : Gap} {p : Problem}
    (h : Scope.ofJson (wholeText before object after) = .error p) : ∃ e, p = .data e := by
  refine (((verdict_ofJson hobject before after).error_iff p).mp h).exists_data fun m hm => ?_
  refine JsonText.head_ne_none fun n hn => ?_
  obtain ⟨hlength, hbelow⟩ := hsmall m hm n hn
  exact NumberText.value_ne_none hlength hbelow

/-- A number just below the greatest float. -/
def Json.nearGreatest : NumberText where
  negative := false
  whole := ⟨"1".toList, by decide, List.all_eq_true.mp rfl⟩
  noLeadingZero := by
    rintro rest ⟨⟩
  fraction := some ⟨"797693134862315708".toList, by decide, List.all_eq_true.mp rfl⟩
  exponent := some ⟨false, none, ⟨"308".toList, by decide, List.all_eq_true.mp rfl⟩⟩

/-- The object whose name is that number. -/
def Json.namedNearGreatest : JsonText .value :=
  .filled (.last (.key ∅ (plainGlyphs "name" rfl) ∅) ∅ (.number nearGreatest) ∅)

/-- **A number in the range of a float may be too large to be read**: its digits are scaled by a
power of ten that is a float itself, and the product is rounded up. -/
theorem Scope.ofJson_near_greatest_float :
    wholeText ∅ namedNearGreatest ∅ = "\x7b\"name\":1.797693134862315708e308\x7d" ∧
      nearGreatest.exact ≤ greatestFloat ∧
      Scope.ofJson (wholeText ∅ namedNearGreatest ∅) = .error .malformed := by
  refine ⟨by decide, ?_, ?_⟩
  · have hexact : nearGreatest.exact = 1 * (1797693134862315708 : ℕ) * 10 ^ (308 - 18 : ℤ) := rfl
    have hpower : (10 : ℚ) ^ (308 - 18 : ℤ) = (10 ^ 290 : ℕ) := by
      rw [show (308 - 18 : ℤ) = (290 : ℕ) from rfl, zpow_natCast, Nat.cast_pow, Nat.cast_ofNat]
    rw [hexact, hpower, one_mul, ← Nat.cast_mul, Nat.cast_le]
    decide +kernel
  · have hlarge : (JsonText.number nearGreatest).head = none := by decide +kernel
    have hmembers : namedNearGreatest.members = [] ++ ⟨"name", .number nearGreatest⟩ :: [] := rfl
    have hfault : Fault [] ⟨"name", .number nearGreatest⟩ .malformed :=
      .misfit (f := .name) rfl rfl (.tooLarge hlarge)
    have hrefused : Refused namedNearGreatest.members .malformed :=
      .fault hmembers sound_nil hfault
    exact ((@verdict_ofJson namedNearGreatest trivial ∅ ∅).error_iff _).mpr hrefused

end LocalScopes
