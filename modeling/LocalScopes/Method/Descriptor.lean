import LocalScopes.Text.Quoted

/-! # Method descriptors

A method descriptor is a list of parameter types between parentheses, followed by the type of the
result. A type is the code of a base type, a class name between `L` and `;`, or `[` before the type
of an array's components. Only a result may be `V`, the absence of a value.

Reading goes from left to right and is lenient: a class name may be empty, one that is not closed
runs to the end of the text, and whatever follows the result is ignored.

* `MethodDescriptor.read`: the parameters and the result of a text, or the first thing wrong in it;
* `FieldType.length_read_lt`: a type takes at least one character. -/

namespace LocalScopes

/-- The base types. -/
inductive BaseType where
  | byte
  | char
  | double
  | float
  | int
  | long
  | short
  | boolean
deriving DecidableEq, Repr

/-- The base type of a code. -/
def BaseType.ofCode? : Char → Option BaseType
  | 'B' => some .byte
  | 'C' => some .char
  | 'D' => some .double
  | 'F' => some .float
  | 'I' => some .int
  | 'J' => some .long
  | 'S' => some .short
  | 'Z' => some .boolean
  | _ => none

/-- A type that is no array. -/
inductive ElementType where
  | base (type : BaseType)
  | object (className : String)
deriving DecidableEq, Repr

/-- The type of a parameter or a result: an element type under a number of array dimensions. -/
structure FieldType where
  dimensions : Nat
  element : ElementType
deriving DecidableEq, Repr

/-- What is wrong in a text that is no method descriptor: the parameter list does not open, or the
text ends where a type has to start, or no type starts with `code`. -/
inductive DescriptorFault where
  | incomplete
  | badTypeCode (code : Char)
deriving DecidableEq, Repr

/-- The parameters and the result of a method. -/
structure MethodDescriptor where
  parameters : List FieldType
  result : Option FieldType
deriving DecidableEq, Repr

/-! ### Types -/

/-- The character does not close a class name. -/
def inClassName (c : Char) : Bool := c ≠ ';'

/-- Reads a type that stands under `dimensions` array dimensions. -/
def FieldType.read (dimensions : Nat) :
    List Char → Except DescriptorFault (FieldType × List Char)
  | [] => .error .incomplete
  | '[' :: rest => FieldType.read (dimensions + 1) rest
  | 'L' :: rest =>
    .ok (⟨dimensions, .object (String.ofList (rest.takeWhile inClassName))⟩,
      (rest.dropWhile inClassName).drop 1)
  | c :: rest =>
    match BaseType.ofCode? c with
    | some type => .ok (⟨dimensions, .base type⟩, rest)
    | none => .error (.badTypeCode c)

theorem FieldType.length_read_lt {dimensions : Nat} {text rest : List Char} {type : FieldType}
    (h : FieldType.read dimensions text = .ok (type, rest)) : rest.length < text.length := by
  fun_induction FieldType.read dimensions text with
  | case1 => simp at h
  | case2 dimensions text ih =>
    have := ih h
    simp only [List.length_cons]
    omega
  | case3 dimensions text =>
    simp only [Except.ok.injEq, Prod.mk.injEq] at h
    have := (List.dropWhile_suffix (l := text) inClassName).length_le
    simp only [← h.2, List.length_drop, List.length_cons]
    omega
  | case4 =>
    simp only [Except.ok.injEq, Prod.mk.injEq] at h
    simp [← h.2]
  | case5 => simp at h

/-! ### Methods -/

namespace MethodDescriptor

/-- Reads the rest of a parameter list, of which `found` is known already. -/
def readParameters (text : List Char) (found : Array FieldType) :
    Except DescriptorFault (Array FieldType × List Char) :=
  match text with
  | ')' :: rest => .ok (found, rest)
  | text =>
    match h : FieldType.read 0 text with
    | .error fault => .error fault
    | .ok (type, rest) =>
      have := FieldType.length_read_lt h
      readParameters rest (found.push type)
termination_by text.length

theorem readParameters_close (rest : List Char) (found : Array FieldType) :
    readParameters (')' :: rest) found = .ok (found, rest) := by
  rw [readParameters]

theorem readParameters_type {text : List Char} (h : ∀ rest, text ≠ ')' :: rest)
    (found : Array FieldType) :
    readParameters text found =
      (FieldType.read 0 text).bind fun r => readParameters r.2 (found.push r.1) := by
  rw [readParameters.eq_def]
  split
  · exact absurd rfl (h _)
  · split <;> simp [*, Except.bind]

/-- Reads a result. -/
def readResult : List Char → Except DescriptorFault (Option FieldType)
  | 'V' :: _ => .ok none
  | text => (FieldType.read 0 text).map fun r => some r.1

/-- Reads a method descriptor. -/
def read (descriptor : String) : Except DescriptorFault MethodDescriptor :=
  match descriptor.toList with
  | '(' :: text =>
    match readParameters text #[] with
    | .error fault => .error fault
    | .ok (parameters, rest) => (readResult rest).map fun result => ⟨parameters.toList, result⟩
  | _ => .error .incomplete

end MethodDescriptor

end LocalScopes
