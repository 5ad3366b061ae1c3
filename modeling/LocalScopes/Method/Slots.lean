import LocalScopes.Table
import LocalScopes.Method.Descriptor

/-! # Parameter slots

The parameters of a method take consecutive local slots. An instance method keeps slot 0 for its
receiver. A `long` or a `double` takes two slots; every other type takes one, and so does an array
of whatever type. Slots are 16-bit words, and behind each parameter there has to be a slot again.

* `Method.slots`: the first slot of each parameter;
* `Method.names`: the name that a table of scopes gives to each parameter;
* `SlotLayout.add?_eq_some_iff`: what one more parameter does to a layout. -/

namespace LocalScopes

/-- Why a method's parameters have no slots. -/
inductive DescriptorError where
  | unreadable (descriptor : String) (fault : DescriptorFault)
  | tooManySlots (descriptor : String)
deriving DecidableEq

namespace DescriptorError

/-- The descriptor that was refused. -/
def descriptor : DescriptorError → String
  | unreadable d _ | tooManySlots d => d

/-- What is wrong with the descriptor. -/
def detail : DescriptorError → String
  | unreadable d .incomplete => s!"InvalidMethodDescriptor({Text.quoted d})"
  | unreadable _ (.badTypeCode c) => s!"InvalidBaseTypeCode({Text.quotedChar c})"
  | tooManySlots _ => "parameters exceed the local slot range"

/-- The wording of a refusal. -/
def message (e : DescriptorError) : String :=
  s!"invalid method descriptor {Text.quoted e.descriptor}: {e.detail}"

end DescriptorError

/-! ### Layout -/

/-- The slot that is `width` slots behind `slot`, if there is one. -/
def slotBehind? (slot width : UInt16) : Option UInt16 :=
  if slot.toNat + width.toNat < UInt16.size then some (slot + width) else none

theorem slotBehind?_eq_some_iff {slot width next : UInt16} :
    slotBehind? slot width = some next ↔ next.toNat = slot.toNat + width.toNat := by
  have hnext := next.toNat_lt_size
  unfold slotBehind?
  split
  · rename_i hlt
    rw [Option.some_inj, ← UInt16.toNat_inj, UInt16.toNat_add, Nat.mod_eq_of_lt hlt]
    exact eq_comm
  · constructor
    · intro h
      cases h
    · omega

theorem slotBehind?_eq_none_iff {slot width : UInt16} :
    slotBehind? slot width = none ↔ UInt16.size ≤ slot.toNat + width.toNat := by
  simp [slotBehind?]

/-- The number of slots that a value of the type takes. -/
def FieldType.width : FieldType → UInt16
  | ⟨0, .base .long⟩ | ⟨0, .base .double⟩ => 2
  | _ => 1

/-- The first slot that is free for parameters. -/
def firstParameterSlot (isStatic : Bool) : UInt16 := if isStatic then 0 else 1

/-- The first slot of each parameter so far, and the next free slot. -/
structure SlotLayout where
  slots : Array UInt16
  next : UInt16

namespace SlotLayout

/-- The layout with one more parameter, if there is a slot behind it. -/
def add? (l : SlotLayout) (type : FieldType) : Option SlotLayout :=
  (slotBehind? l.next type.width).map fun next => ⟨l.slots.push l.next, next⟩

/-- The layout of parameters from the slot `first` on. -/
def ofTypes? (first : UInt16) (types : List FieldType) : Option SlotLayout :=
  types.foldlM add? ⟨#[], first⟩

/-- A parameter gets the next free slot, and the slot behind it is free next. -/
theorem add?_eq_some_iff {l m : SlotLayout} {type : FieldType} :
    l.add? type = some m ↔
      m.slots = l.slots.push l.next ∧ m.next.toNat = l.next.toNat + type.width.toNat := by
  simp only [add?, Option.map_eq_some_iff, slotBehind?_eq_some_iff]
  constructor
  · rintro ⟨next, hnext, rfl⟩
    exact ⟨rfl, hnext⟩
  · rintro ⟨hslots, hnext⟩
    exact ⟨m.next, hnext, by rw [← hslots]⟩

theorem add?_eq_none_iff {l : SlotLayout} {type : FieldType} :
    l.add? type = none ↔ UInt16.size ≤ l.next.toNat + type.width.toNat := by
  rw [add?, Option.map_eq_none_iff, slotBehind?_eq_none_iff]

end SlotLayout

namespace Method

/-- The first slot of each parameter of a method, in the order of the parameters. -/
def slots (descriptor : String) (isStatic : Bool) : Except DescriptorError (List UInt16) :=
  match MethodDescriptor.read descriptor with
  | .error fault => .error (.unreadable descriptor fault)
  | .ok method =>
    match SlotLayout.ofTypes? (firstParameterSlot isStatic) method.parameters with
    | none => .error (.tooManySlots descriptor)
    | some layout => .ok layout.slots.toList

/-- The names of slots, one slot after the other. A name is taken out of the map when it is given to
its slot. -/
def takeNames (named : SlotNames) : List UInt16 → List (Option String)
  | [] => []
  | slot :: slots => named[slot]? :: takeNames (named.erase slot) slots

/-- The name that a table gives to each parameter of a method, in the order of the parameters. -/
def names (t : Table) (descriptor : String) (isStatic : Bool) :
    Except DescriptorError (List (Option String)) :=
  let named := t.slotNames
  (slots descriptor isStatic).map (takeNames named)

end Method

end LocalScopes
