import Mathlib.Tactic.Common
import LocalScopes.Event

/-! # The scope that names a parameter slot

Of the scopes that open with the method on one slot, the last one in table order gives the slot its
name (`Table.lastEntry`), whatever its length. The map of names by slot answers with just these
names (`Table.getElem?_slotNames`), and a scope of an appended table comes before all the earlier
ones (`Table.lastEntry_append`). -/

namespace LocalScopes.Table

/-- The last scope on `slot` that opens with the method. -/
def lastEntry (t : Table) (slot : UInt16) : Option Scope :=
  (t.scopes.filter fun s => s.start = 0 ∧ s.slot = slot).getLast?

theorem lastEntry_eq_getLast? (t : Table) (slot : UInt16) :
    t.lastEntry slot = (t.entryScopes.filter fun s => s.slot = slot).getLast? := by
  rw [lastEntry, entryScopes, List.filter_filter]
  congr 2
  funext s
  rw [← Bool.decide_and]
  exact decide_eq_decide.mpr and_comm

theorem lastEntry_append (t u : Table) (slot : UInt16) :
    (t ++ u).lastEntry slot = (u.lastEntry slot).or (t.lastEntry slot) := by
  simp only [lastEntry, scopes_append, List.filter_append, List.getLast?_append]

theorem lastEntry_filter {t : Table} {slot : UInt16} {keep : Scope → Bool}
    (h : ∀ s, s.slot = slot → keep s = true) :
    lastEntry ⟨t.scopes.filter keep⟩ slot = t.lastEntry slot := by
  rw [lastEntry, lastEntry, List.filter_filter]
  congr 2
  funext s
  by_cases hs : s.slot = slot
  · simp [h s hs]
  · simp [hs]

/-! ### Names by slot -/

theorem getElem?_foldl_insert (slot : UInt16) : ∀ (scopes : List Scope) (named : SlotNames),
    (scopes.foldl (fun names s => names.insert s.slot s.name) named)[slot]? =
      ((scopes.filter fun s => s.slot = slot).getLast?.map (·.name)).or named[slot]?
  | [], named => by simp
  | s :: scopes, named => by
    rw [List.foldl_cons, getElem?_foldl_insert slot scopes, Std.TreeMap.getElem?_insert]
    -- this scope's name stays only if no later one is on its slot
    by_cases hs : s.slot = slot
    · have hcmp : compare s.slot slot = .eq := Std.compare_eq_iff_eq.mpr hs
      rw [if_pos hcmp, List.filter_cons_of_pos (by simpa using hs), List.getLast?_cons]
      cases (scopes.filter fun s => s.slot = slot).getLast? <;> simp
    · have hcmp : compare s.slot slot ≠ .eq := fun h => hs (Std.compare_eq_iff_eq.mp h)
      rw [if_neg hcmp, List.filter_cons_of_neg (by simpa using hs)]

/-- **The name of a slot** is that of the last scope that opens with the method on it. -/
theorem getElem?_slotNames (t : Table) (slot : UInt16) :
    t.slotNames[slot]? = (t.lastEntry slot).map (·.name) := by
  rw [slotNames, getElem?_foldl_insert, lastEntry_eq_getLast?]
  simp

theorem getElem?_slotNames_append (t u : Table) (slot : UInt16) :
    (t ++ u).slotNames[slot]? = u.slotNames[slot]?.or t.slotNames[slot]? := by
  rw [getElem?_slotNames, getElem?_slotNames, getElem?_slotNames, lastEntry_append]
  cases u.lastEntry slot <;> rfl

end LocalScopes.Table
