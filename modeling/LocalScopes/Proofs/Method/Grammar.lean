import Mathlib.Data.List.TakeWhile
import LocalScopes.Method.Descriptor

/-! # The texts that are method descriptors

The grammar of method descriptors apart from any reading: a type as it is written (`TypeText`), a
type whose class name runs to the end of the text (`Unclosed`), and a whole descriptor
(`MethodText`). A class name may hold every character but the one that closes it, parentheses and
brackets among them, and may be empty.

* `TypeText.read_chars`, `exists_typeText_of_read`: reading takes off a written type, and what it
  takes off is one;
* `MethodText.exists_read`, `MethodText.exists_of_read`: what can be read is what the grammar has,
  and the parameters are those of the text. -/

namespace LocalScopes

/-! ### Types -/

/-- The letter of a base type. -/
def BaseType.code : BaseType → Char
  | byte => 'B'
  | char => 'C'
  | double => 'D'
  | float => 'F'
  | int => 'I'
  | long => 'J'
  | short => 'S'
  | boolean => 'Z'

/-- A type as it is written: the letter of a base type, a class name between `L` and the `;` that
closes it, or the type of an array's components behind `[`. -/
inductive TypeText where
  | base (type : BaseType)
  | object (name : List Char) (plain : ';' ∉ name)
  | array (component : TypeText)

/-- The text of a type whose class name is not closed. -/
inductive Unclosed : List Char → Prop
  | object {name : List Char} (plain : ';' ∉ name) : Unclosed ('L' :: name)
  | array {text : List Char} (component : Unclosed text) : Unclosed ('[' :: text)

namespace TypeText

/-- The characters of a type. -/
def chars : TypeText → List Char
  | base type => [type.code]
  | object name _ => 'L' :: (name ++ [';'])
  | array component => '[' :: component.chars

/-- The type that is written. -/
def type : TypeText → FieldType
  | base type => ⟨0, .base type⟩
  | object name _ => ⟨0, .object (String.ofList name)⟩
  | array component => ⟨component.type.dimensions + 1, component.type.element⟩

theorem chars_append_ne_close (t : TypeText) (rest other : List Char) :
    t.chars ++ rest ≠ ')' :: other := by
  rcases t with type | ⟨name, plain⟩ | component
  · cases type <;> simp [chars, BaseType.code]
  · simp [chars]
  · simp [chars]

theorem chars_append_ne_void (t : TypeText) (rest other : List Char) :
    t.chars ++ rest ≠ 'V' :: other := by
  rcases t with type | ⟨name, plain⟩ | component
  · cases type <;> simp [chars, BaseType.code]
  · simp [chars]
  · simp [chars]

end TypeText

/-! ### Reading a type -/

theorem forall_inClassName {name : List Char} (plain : ';' ∉ name) :
    ∀ c ∈ name, inClassName c = true := by
  intro c hc
  have hne : c ≠ ';' := fun h => plain (h ▸ hc)
  simpa [inClassName] using hne

/-- **A written type is taken off the text**, whatever is behind it. -/
theorem TypeText.read_chars (rest : List Char) : ∀ (t : TypeText) (dimensions : Nat),
    FieldType.read dimensions (t.chars ++ rest) =
      .ok (⟨dimensions + t.type.dimensions, t.type.element⟩, rest)
  | .base type, dimensions => by cases type <;> rfl
  | .object name plain, dimensions => by
    have hname := forall_inClassName plain
    have htake : (name ++ ';' :: rest).takeWhile inClassName = name := by
      rw [List.takeWhile_append_of_pos hname]
      simp [inClassName]
    have hdrop : (name ++ ';' :: rest).dropWhile inClassName = ';' :: rest := by
      rw [List.dropWhile_append_of_pos hname]
      simp [inClassName]
    rw [chars, List.cons_append, List.append_assoc, List.singleton_append, FieldType.read, htake,
      hdrop]
    rfl
  | .array component, dimensions => by
    rw [chars, List.cons_append, FieldType.read, read_chars rest component (dimensions + 1), type,
      Nat.add_assoc, Nat.add_comm 1]

theorem Unclosed.exists_read {text : List Char} (h : Unclosed text) : ∀ dimensions : Nat,
    ∃ type, FieldType.read dimensions text = .ok (type, []) := by
  induction h with
  | @object name plain =>
    intro dimensions
    have hdrop : name.dropWhile inClassName = [] := by
      rw [List.dropWhile_eq_nil_iff]
      exact forall_inClassName plain
    exact ⟨_, by rw [FieldType.read, hdrop]; rfl⟩
  | array _ ih =>
    intro dimensions
    obtain ⟨type, htype⟩ := ih (dimensions + 1)
    exact ⟨type, by rw [FieldType.read, htype]⟩

theorem Unclosed.ne_void {text : List Char} (h : Unclosed text) (other : List Char) :
    text ≠ 'V' :: other := by
  cases h <;> simp

theorem BaseType.code_of_ofCode? {c : Char} {type : BaseType} (h : BaseType.ofCode? c = some type) :
    type.code = c := by
  unfold BaseType.ofCode? at h
  split at h <;> cases h <;> rfl

theorem className_cases (text : List Char) :
    (∃ name after, ';' ∉ name ∧ text = name ++ ';' :: after ∧
      text.takeWhile inClassName = name ∧ text.dropWhile inClassName = ';' :: after) ∨
    (';' ∉ text ∧ text.dropWhile inClassName = []) := by
  have hplain : ';' ∉ text.takeWhile inClassName := by
    intro hmem
    have := List.mem_takeWhile_imp hmem
    simp [inClassName] at this
  have hsplit := List.takeWhile_append_dropWhile (p := inClassName) (l := text)
  -- what is left starts with the first `;`, or there is none
  rcases hdrop : text.dropWhile inClassName with _ | ⟨c, after⟩
  · rw [hdrop, List.append_nil] at hsplit
    rw [hsplit] at hplain
    exact .inr ⟨hplain, rfl⟩
  · have hc : inClassName c = false := by
      have := List.head?_dropWhile_not inClassName text
      simpa [hdrop] using this
    obtain rfl : c = ';' := by simpa [inClassName] using hc
    rw [hdrop] at hsplit
    exact .inl ⟨_, after, hplain, hsplit.symm, rfl, rfl⟩

/-- **What is taken off a text is a written type**, or its class name is not closed and nothing is
left. -/
theorem exists_typeText_of_read {dimensions : Nat} {text rest : List Char} {type : FieldType}
    (h : FieldType.read dimensions text = .ok (type, rest)) :
    (∃ t : TypeText, text = t.chars ++ rest ∧
      type = ⟨dimensions + t.type.dimensions, t.type.element⟩) ∨ (Unclosed text ∧ rest = []) := by
  fun_induction FieldType.read dimensions text with
  | case1 => cases h
  | case2 dimensions text ih =>
    rcases ih h with ⟨t, rfl, rfl⟩ | ⟨hopen, rfl⟩
    · refine .inl ⟨.array t, rfl, ?_⟩
      rw [TypeText.type, Nat.add_assoc, Nat.add_comm 1]
    · exact .inr ⟨.array hopen, rfl⟩
  | case3 dimensions text =>
    obtain ⟨rfl, rfl⟩ := Prod.mk.inj (Except.ok.inj h)
    rcases className_cases text with ⟨name, after, plain, rfl, htake, hdrop⟩ | ⟨plain, hdrop⟩
    · refine .inl ⟨.object name plain, ?_, ?_⟩
      · rw [hdrop]
        simp [TypeText.chars]
      · rw [htake]
        rfl
    · rw [hdrop]
      exact .inr ⟨.object plain, rfl⟩
  | case4 dimensions c text _ _ type' hcode =>
    obtain ⟨rfl, rfl⟩ := Prod.mk.inj (Except.ok.inj h)
    refine .inl ⟨.base type', ?_, rfl⟩
    rw [TypeText.chars, BaseType.code_of_ofCode? hcode]
    rfl
  | case5 => cases h

/-! ### Reading parameters and a result -/

namespace MethodDescriptor

theorem readParameters_flatMap (rest : List Char) : ∀ (types : List TypeText)
    (found : Array FieldType),
    readParameters (types.flatMap TypeText.chars ++ ')' :: rest) found =
      .ok (found ++ (types.map TypeText.type).toArray, rest)
  | [], found => by
    rw [List.flatMap_nil, List.nil_append, readParameters_close]
    simp
  | t :: types, found => by
    have hread := t.read_chars (types.flatMap TypeText.chars ++ ')' :: rest) 0
    rw [Nat.zero_add] at hread
    rw [List.flatMap_cons, List.append_assoc, readParameters_type (t.chars_append_ne_close _),
      hread]
    simp only [Except.bind, readParameters_flatMap rest types]
    simp

theorem exists_of_readParameters {text rest : List Char} {found all : Array FieldType}
    (h : readParameters text found = .ok (all, rest)) :
    ∃ types : List TypeText, text = types.flatMap TypeText.chars ++ ')' :: rest ∧
      all = found ++ (types.map TypeText.type).toArray := by
  fun_induction readParameters text found with
  | case1 found text =>
    obtain ⟨rfl, rfl⟩ := Prod.mk.inj (Except.ok.inj h)
    exact ⟨[], rfl, by simp⟩
  | case2 => cases h
  | case3 found text _ type text' hread _ ih =>
    obtain ⟨types, htypes, rfl⟩ := ih h
    rcases exists_typeText_of_read hread with ⟨t, rfl, rfl⟩ | ⟨-, rfl⟩
    · refine ⟨t :: types, ?_, ?_⟩
      · rw [htypes, List.flatMap_cons, List.append_assoc]
      · rw [Nat.zero_add]
        simp
    · -- behind a class name that is not closed there is no parenthesis
      simp at htypes

end MethodDescriptor

/-- What may stand behind a parameter list: a result and any text behind it. A class name that is
not closed takes the whole text. -/
inductive ResultText : List Char → Prop
  | void (rest : List Char) : ResultText ('V' :: rest)
  | type (t : TypeText) (rest : List Char) : ResultText (t.chars ++ rest)
  | unclosed {text : List Char} (runsOn : Unclosed text) : ResultText text

namespace MethodDescriptor

theorem readResult_type {text : List Char} (h : ∀ rest, text ≠ 'V' :: rest) :
    readResult text = (FieldType.read 0 text).map fun r => some r.1 := by
  unfold readResult
  split
  · exact absurd rfl (h _)
  · rfl

theorem exists_readResult {text : List Char} (h : ResultText text) :
    ∃ result, readResult text = .ok result := by
  cases h with
  | void rest => exact ⟨none, rfl⟩
  | type t rest =>
    rw [readResult_type (t.chars_append_ne_void rest), t.read_chars]
    exact ⟨_, rfl⟩
  | unclosed runsOn =>
    obtain ⟨type, htype⟩ := runsOn.exists_read 0
    rw [readResult_type runsOn.ne_void, htype]
    exact ⟨_, rfl⟩

theorem resultText_of_readResult {text : List Char} {result : Option FieldType}
    (h : readResult text = .ok result) : ResultText text := by
  unfold readResult at h
  split at h
  · exact .void _
  · rcases hread : FieldType.read 0 text with fault | ⟨type, rest⟩
    · rw [hread] at h
      cases h
    · rcases exists_typeText_of_read hread with ⟨t, rfl, -⟩ | ⟨runsOn, -⟩
      · exact .type t rest
      · exact .unclosed runsOn

end MethodDescriptor

/-! ### Descriptors -/

/-- A method descriptor as it is written: the types between the parentheses, and the text behind
them. -/
structure MethodText where
  parameters : List TypeText
  result : List Char
  readable : ResultText result

namespace MethodText

/-- The characters of a descriptor. -/
def chars (m : MethodText) : List Char :=
  '(' :: (m.parameters.flatMap TypeText.chars ++ ')' :: m.result)

/-- **What is written as a descriptor is read**, with the parameters of the text. -/
theorem exists_read {d : String} {m : MethodText} (h : d.toList = m.chars) :
    ∃ result, MethodDescriptor.read d = .ok ⟨m.parameters.map TypeText.type, result⟩ := by
  obtain ⟨result, hresult⟩ := MethodDescriptor.exists_readResult m.readable
  refine ⟨result, ?_⟩
  rw [MethodDescriptor.read, h, chars]
  simp only [MethodDescriptor.readParameters_flatMap, hresult, Except.map]
  simp

/-- **What is read was written as a descriptor.** -/
theorem exists_of_read {d : String} {method : MethodDescriptor}
    (h : MethodDescriptor.read d = .ok method) :
    ∃ m : MethodText, d.toList = m.chars ∧ method.parameters = m.parameters.map TypeText.type := by
  unfold MethodDescriptor.read at h
  split at h
  · rename_i text htext
    split at h
    · cases h
    · rename_i all rest hread
      obtain ⟨types, rfl, rfl⟩ := MethodDescriptor.exists_of_readParameters hread
      rcases hresult : MethodDescriptor.readResult rest with fault | result
      · rw [hresult] at h
        cases h
      · rw [hresult] at h
        obtain rfl := Except.ok.inj h
        refine ⟨⟨types, rest, MethodDescriptor.resultText_of_readResult hresult⟩, htext, ?_⟩
        simp
  · cases h

end MethodText

end LocalScopes
