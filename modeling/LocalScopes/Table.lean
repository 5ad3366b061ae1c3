import Std.Data.TreeMap
import LocalScopes.Scope

/-! # Tables of scopes

The scopes of one method, in the order in which they were recorded or appended. What holds a slot at
an offset is the first match in that order, while of several scopes that give a parameter slot its
name the last one counts. Appending (`++`) keeps the order of both tables.

* `Table.scopeAt_append`: a match is not changed by scopes appended later;
* `Table.covering_append`: the scopes that cover an offset are those of both parts. -/

namespace LocalScopes

/-- The scopes of one method, in table order. -/
structure Table where
  scopes : List Scope
deriving DecidableEq, Inhabited

/-- Names by slot, in the order of the slots. -/
abbrev SlotNames := Std.TreeMap UInt16 String

namespace Table

instance : EmptyCollection Table := ⟨⟨[]⟩⟩

instance : Append Table := ⟨fun t u => ⟨t.scopes ++ u.scopes⟩⟩

/-- Number of scopes. -/
def size (t : Table) : Nat := t.scopes.length

/-- The table holds no scope. -/
def isEmpty (t : Table) : Bool := t.scopes.isEmpty

/-- The table with one more scope at its end. -/
def push (t : Table) (s : Scope) : Table := ⟨t.scopes ++ [s]⟩

/-- The names of the scopes, in table order. -/
def names (t : Table) : List String := t.scopes.map (·.name)

/-! ### Queries -/

/-- The first scope on `slot` that covers `offset`. -/
def scopeAt (t : Table) (slot offset : UInt16) : Option Scope :=
  t.scopes.find? fun s => s.slot = slot ∧ s.Covers offset

/-- The name that `slot` carries at `offset`. -/
def nameAt (t : Table) (slot offset : UInt16) : Option String :=
  (t.scopeAt slot offset).map (·.name)

/-- The descriptor that `slot` carries at `offset`. -/
def descriptorAt (t : Table) (slot offset : UInt16) : Option String :=
  (t.scopeAt slot offset).map (·.descriptor)

/-- Some scope of the table is named `name`. -/
def HasName (t : Table) (name : String) : Prop := ∃ s ∈ t.scopes, s.name = name

instance (t : Table) (name : String) : Decidable (t.HasName name) :=
  inferInstanceAs (Decidable (∃ s ∈ t.scopes, s.name = name))

/-- The scopes that cover `offset`, in table order. -/
def covering (t : Table) (offset : UInt16) : List Scope :=
  t.scopes.filter fun s => s.Covers offset

/-- The scopes that open with the method, in table order. -/
def entryScopes (t : Table) : List Scope := t.scopes.filter fun s => s.AtEntry

/-- The name of each slot that a parameter occupies; the last scope on a slot names it. -/
def slotNames (t : Table) : SlotNames :=
  t.entryScopes.foldl (fun names s => names.insert s.slot s.name) ∅

/-! ### Appending -/

@[simp] theorem scopes_empty : (∅ : Table).scopes = [] := rfl

@[simp] theorem scopes_append (t u : Table) : (t ++ u).scopes = t.scopes ++ u.scopes := rfl

@[simp] theorem scopes_push (t : Table) (s : Scope) : (t.push s).scopes = t.scopes ++ [s] := rfl

@[simp] theorem size_append (t u : Table) : (t ++ u).size = t.size + u.size := by simp [size]

theorem scopeAt_append (t u : Table) (slot offset : UInt16) :
    (t ++ u).scopeAt slot offset = (t.scopeAt slot offset).or (u.scopeAt slot offset) := by
  simp [scopeAt, List.find?_append]

theorem covering_append (t u : Table) (offset : UInt16) :
    (t ++ u).covering offset = t.covering offset ++ u.covering offset := by
  simp [covering]

end Table

end LocalScopes
