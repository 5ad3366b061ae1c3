import LocalScopes.Json.Writer
import LocalScopes.Proofs.Json.ScopeText

/-! # Written scopes are read back

The text of a scope is an object that describes this scope, so it is read back by what is known of
objects. A table is read back scope by scope.

* `readScope_toJson`, `readTable_toJson`: what is written is read back, whatever is behind it;
* `Table.json_round_trip`: the texts of scopes and tables are lossless. -/

namespace LocalScopes

namespace Json

/-! ### Scopes -/

/-- The written form of a field of a scope. -/
def valueText (s : Scope) : Field → String
  | .start => word16 s.start
  | .length => word16 s.length
  | .name => StringLiteral.written s.name
  | .descriptor => StringLiteral.written s.descriptor
  | .slot => word16 s.slot

theorem exists_value_written (s : Scope) (f : Field) :
    ∃ v : JsonText .value, v.chars = (valueText s f).toList ∧ Writes s f v := by
  have hword : ∀ w, ∃ v : JsonText .value, v.chars = (word16 w).toList ∧ v.IsWord w := by
    intro w
    obtain ⟨n, hn, hw⟩ := exists_numberText_word w
    exact ⟨.number n, hn, n, rfl, hw⟩
  have hstring : ∀ s, ∃ v : JsonText .value,
      v.chars = (StringLiteral.written s).toList ∧ v.IsString s := by
    intro s
    obtain ⟨glyphs, hglyphs, hs⟩ := exists_glyphs_written s
    exact ⟨.text glyphs, hglyphs, glyphs, rfl, hs⟩
  cases f with
  | start | length | slot => exact hword _
  | name | descriptor => exact hstring _

theorem exists_object_toJson (s : Scope) : ∃ object : JsonText .value,
    object.IsObject ∧ object.chars = s.toJson.toList ∧ Describes object.members s := by
  choose key hkey htext using fun f : Field => exists_glyphs_written f.key
  choose value hvalue hwrites using exists_value_written s
  let lead (f : Field) : Lead .map := .key ∅ (key f) ∅
  refine ⟨.filled
    (.more (lead .start) ∅ (value .start) ∅
    (.more (lead .length) ∅ (value .length) ∅
    (.more (lead .name) ∅ (value .name) ∅
    (.more (lead .descriptor) ∅ (value .descriptor) ∅
    (.last (lead .slot) ∅ (value .slot) ∅))))), trivial, ?_, fun f => ⟨value f, ?_, hwrites f⟩⟩
  · simp [JsonText.chars, lead, Lead.chars, hkey, hvalue, valueText, Scope.toJson, member,
      String.intercalate_cons_cons, Container.opening, Container.closing]
  · simp only [JsonText.members, lead, htext]
    cases f <;> rfl

theorem readScope_toJson (s : Scope) (rest : List Char) :
    readScope (s.toJson.toList ++ rest) = .ok (s, rest) := by
  obtain ⟨object, hobject, hchars, hs⟩ := exists_object_toJson s
  obtain ⟨answer, hanswer, hread⟩ := readScope_object hobject ∅ rest
  rw [chars_emptyGap, List.nil_append, hchars, (hanswer.ok_iff s).mpr hs] at hread
  exact hread

/-! ### Tables -/

theorem readScopes_toJson (rest : List Char) : ∀ (scopes : List Scope) (s : Scope)
    (acc : Array Scope),
    readScopes acc ((",".intercalate ((s :: scopes).map Scope.toJson)).toList ++ ']' :: rest) =
      .ok (acc ++ (s :: scopes).toArray, rest)
  | [], s, acc => by
    rw [List.map_singleton, String.intercalate_singleton, readScopes_eq, readScope_toJson]
    rfl
  | s' :: scopes, s, acc => by
    rw [List.map_cons, List.map_cons, String.intercalate_cons_cons, String.toList_append,
      String.toList_append, List.append_assoc, List.append_assoc, readScopes_eq, readScope_toJson]
    have hrest := readScopes_toJson rest scopes s' (acc.push s)
    have hpush : acc.push s ++ (s' :: scopes).toArray = acc ++ (s :: s' :: scopes).toArray := by
      apply Array.ext'
      simp
    rw [hpush] at hrest
    exact hrest

theorem exists_brace_intercalate (s : Scope) (scopes : List Scope) :
    ∃ cs, (",".intercalate ((s :: scopes).map Scope.toJson)).toList = '\x7b' :: cs := by
  cases scopes <;> simp [Scope.toJson, String.intercalate_cons_cons]

theorem readSequence_toJson (scopes : List Scope) (rest : List Char) :
    readSequence ((",".intercalate (scopes.map Scope.toJson)).toList ++ ']' :: rest) =
      .ok (scopes.toArray, rest) := by
  cases scopes with
  | nil => rfl
  | cons s scopes =>
    have hread := readScopes_toJson rest scopes s #[]
    obtain ⟨cs, hcs⟩ := exists_brace_intercalate s scopes
    rw [hcs, List.cons_append, Array.empty_append] at hread
    rw [hcs, List.cons_append, readSequence, skipBlanks_cons (show isBlank '\x7b' = false from rfl)]
    exact hread

theorem readTable_toJson (t : Table) (rest : List Char) :
    readTable (t.toJson.toList ++ rest) = .ok (t, rest) := by
  have htext : t.toJson.toList ++ rest =
      '[' :: ((",".intercalate (t.scopes.map Scope.toJson)).toList ++ ']' :: rest) := by
    simp [Table.toJson]
  have hhead := readHead_opening ∅ .sequence
    ((",".intercalate (t.scopes.map Scope.toJson)).toList ++ ']' :: rest)
  rw [chars_emptyGap, List.nil_append] at hhead
  rw [htext, readTable, show '[' = Container.sequence.opening from rfl, hhead]
  simp only [Container.head, readSequence_toJson, Except.map]

end Json

open Json

theorem Scope.ofJson_toJson (s : Scope) : Scope.ofJson s.toJson = .ok s := by
  have hread : readScope s.toJson.toList = (Except.ok s).map fun s => (s, []) := by
    simpa [Except.map] using readScope_toJson s []
  exact readAll_eq rfl hread

theorem Table.ofJson_toJson (t : Table) : Table.ofJson t.toJson = .ok t := by
  have hread : readTable t.toJson.toList = (Except.ok t).map fun t => (t, []) := by
    simpa [Except.map] using readTable_toJson t []
  exact readAll_eq rfl hread

/-- **Texts of scopes and tables are lossless**: each is read back as what it was written from, and
distinct tables have distinct texts. A text of another form comes to this form by reading and
writing it once. -/
theorem Table.json_round_trip :
    (∀ t : Table, Table.ofJson t.toJson = .ok t) ∧
    (∀ s : Scope, Scope.ofJson s.toJson = .ok s) ∧
    (∀ t u : Table, t ≠ u → t.toJson ≠ u.toJson) ∧
    ∀ (text : String) (t : Table), Table.ofJson text = .ok t →
      Table.ofJson t.toJson = .ok t ∧ (Table.ofJson t.toJson).map Table.toJson = .ok t.toJson := by
  refine ⟨Table.ofJson_toJson, Scope.ofJson_toJson, ?_, ?_⟩
  · intro t u hne h
    have htext := Table.ofJson_toJson t
    rw [h, Table.ofJson_toJson u] at htext
    exact hne (Except.ok.inj htext).symm
  · intro text t _
    have htext := Table.ofJson_toJson t
    exact ⟨htext, by rw [htext]; rfl⟩

theorem Table.json_round_trip_of_sequence :
    Table.ofJson "[[0,2,\"a\",\"I\",1]]" = .ok ⟨[⟨0, 2, "a", "I", 1⟩]⟩ ∧
      Table.ofJson (Table.toJson ⟨[⟨0, 2, "a", "I", 1⟩]⟩) = .ok ⟨[⟨0, 2, "a", "I", 1⟩]⟩ ∧
      Table.toJson ⟨[⟨0, 2, "a", "I", 1⟩]⟩ ≠ Table.toJson ⟨[]⟩ := by
  have htext : Table.ofJson "[[0,2,\"a\",\"I\",1]]" = .ok ⟨[⟨0, 2, "a", "I", 1⟩]⟩ := by
    decide +kernel
  obtain ⟨-, -, hdistinct, hform⟩ := Table.json_round_trip
  exact ⟨htext, (hform _ _ htext).1, hdistinct _ _ (by decide)⟩

end LocalScopes
