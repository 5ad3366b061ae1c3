import LocalScopes.Proofs.Table.LastEntry
import LocalScopes.Proofs.Table.Pieces

/-! # Tables in another order

The order of a table decides among several scopes that match a query: the first one holds a slot,
and the last one names a parameter. Where there is never more than one match, the order makes no
difference. For what holds a slot this means that no two scopes cover one offset on one slot
(`Table.Unambiguous`), and for the names of parameters that no two scopes open with the method on
one slot (`Table.DistinctEntries`). An empty range covers nothing, but opens with the method if it
starts there, so the second condition follows from the first only where no such range is empty
(`Table.Unambiguous.distinctEntries`).

* `Table.filter_eq_of_perm`: matches of which there is at most one;
* `Table.Unambiguous.scopeAt_eq`, `Table.DistinctEntries.lastEntry_eq`: the two queries;
* `Table.order_makes_no_difference`: every order, and the two orders of joining two tables. -/

namespace LocalScopes

/-- The scopes hold one slot at a common offset. -/
def Scope.Clashes (s u : Scope) : Prop :=
  s.slot = u.slot ∧ ∃ offset, s.Covers offset ∧ u.Covers offset

namespace Table

/-- No two scopes of the table clash. -/
def Unambiguous (t : Table) : Prop := t.scopes.Pairwise fun s u => ¬ s.Clashes u

/-- No two scopes of the table that open with the method are on one slot. -/
def DistinctEntries (t : Table) : Prop :=
  t.scopes.Pairwise fun s u => s.AtEntry → u.AtEntry → s.slot ≠ u.slot

/-- The tables have the same scopes, each as often, in any order. -/
def Reorders (t u : Table) : Prop := t.scopes.Perm u.scopes

theorem reorders_append (t u : Table) : (t ++ u).Reorders (u ++ t) := List.perm_append_comm

/-- A scope that opens with the method and is not empty covers offset 0. -/
theorem Unambiguous.distinctEntries {t : Table} (h : t.Unambiguous)
    (hlength : ∀ s ∈ t.scopes, s.AtEntry → s.length ≠ 0) : t.DistinctEntries := by
  refine List.Pairwise.imp_of_mem (fun {s u} hs hu hclash hopen hopen' hslot => ?_) h
  exact hclash ⟨hslot, 0, Scope.covers_zero_iff.mpr ⟨hopen, hlength s hs hopen⟩,
    Scope.covers_zero_iff.mpr ⟨hopen', hlength u hu hopen'⟩⟩

/-! ### Single matches -/

/-- At most one match is the same match in any order. -/
theorem filter_eq_of_perm {l l' : List Scope} (h : l.Perm l') {p : Scope → Bool}
    (single : l.Pairwise fun s u => ¬ (p s ∧ p u)) : l.filter p = l'.filter p := by
  have hperm := h.filter p
  have hsingle := single.filter p
  have hmatch : ∀ s ∈ l.filter p, p s := fun s hs => (List.mem_filter.mp hs).2
  generalize l.filter p = found at hperm hsingle hmatch ⊢
  rcases found with _ | ⟨s, _ | ⟨u, rest⟩⟩
  · exact hperm.nil_eq
  · exact hperm.singleton_eq
  · have hpair := (List.pairwise_cons.mp hsingle).1 u (by simp)
    exact absurd ⟨hmatch s (by simp), hmatch u (by simp)⟩ hpair

theorem Unambiguous.scopeAt_eq {t u : Table} (h : t.Unambiguous) (hr : t.Reorders u)
    (slot offset : UInt16) : t.scopeAt slot offset = u.scopeAt slot offset := by
  unfold scopeAt
  rw [← List.head?_filter, ← List.head?_filter, filter_eq_of_perm hr]
  refine h.imp fun {s u} hclash hmatch => hclash ?_
  simp only [decide_eq_true_eq] at hmatch
  obtain ⟨⟨hs, hcovers⟩, hu, hcovers'⟩ := hmatch
  exact ⟨hs.trans hu.symm, offset, hcovers, hcovers'⟩

theorem DistinctEntries.lastEntry_eq {t u : Table} (h : t.DistinctEntries) (hr : t.Reorders u)
    (slot : UInt16) : t.lastEntry slot = u.lastEntry slot := by
  unfold lastEntry
  rw [filter_eq_of_perm hr]
  refine h.imp fun {s u} hslot hmatch => ?_
  simp only [decide_eq_true_eq] at hmatch
  obtain ⟨⟨hopen, hs⟩, hopen', hu⟩ := hmatch
  exact hslot hopen hopen' (hs.trans hu.symm)

theorem DistinctEntries.slotNames_equiv {t u : Table} (h : t.DistinctEntries) (hr : t.Reorders u) :
    t.slotNames.Equiv u.slotNames := by
  refine Std.TreeMap.Equiv.of_forall_constGet?_eq fun slot => ?_
  rw [getElem?_slotNames, getElem?_slotNames, h.lastEntry_eq hr]

theorem Reorders.hasName_iff {t u : Table} (hr : t.Reorders u) (name : String) :
    t.HasName name ↔ u.HasName name :=
  exists_congr fun _ => and_congr_left fun _ => hr.mem_iff

/-! ### Any order -/

/-- **Where matches are single, the order makes no difference.** If no two scopes of a table hold
one slot at a common offset, the table says the same of every slot and offset in any order. If no
two of its scopes open with the method on one slot, it gives the same names to the same slots in any
order. So two tables whose scopes together have both properties may be joined either way. -/
theorem order_makes_no_difference :
    (∀ t u : Table, t.Unambiguous → t.Reorders u →
      ∀ slot offset, u.scopeAt slot offset = t.scopeAt slot offset) ∧
    (∀ t u : Table, t.DistinctEntries → t.Reorders u → u.slotNames.Equiv t.slotNames) ∧
    ∀ a b : Table, (a ++ b).Unambiguous → (a ++ b).DistinctEntries →
      let ab := (a.join b).value
      let ba := (b.join a).value
      (∀ slot offset, ab.nameAt slot offset = ba.nameAt slot offset ∧
        ab.descriptorAt slot offset = ba.descriptorAt slot offset) ∧
      (∀ name, ab.HasName name ↔ ba.HasName name) ∧
      ab.slotNames.Equiv ba.slotNames := by
  refine ⟨fun t u h hr slot offset => (h.scopeAt_eq hr slot offset).symm,
    fun t u h hr => (h.slotNames_equiv hr).symm, fun a b hslots hentries => ?_⟩
  intro ab ba
  have hr : ab.Reorders ba := reorders_append a b
  refine ⟨fun slot offset => ?_, hr.hasName_iff, hentries.slotNames_equiv hr⟩
  have hsame : ab.scopeAt slot offset = ba.scopeAt slot offset := hslots.scopeAt_eq hr slot offset
  unfold nameAt descriptorAt
  rw [hsame]
  exact ⟨rfl, rfl⟩

/-- Two ranges meet on a slot, an empty one starts with a method on a slot that another range holds
later, and one runs past the last offset. -/
theorem order_makes_no_difference_of_neighbours :
    let a : Table := ⟨[⟨0, 4, "n", "I", 1⟩, ⟨65535, 2, "x", "J", 0⟩]⟩
    let b : Table := ⟨[⟨4, 3, "m", "J", 1⟩, ⟨0, 0, "p", "I", 0⟩]⟩
    let ab := (a.join b).value
    let ba := (b.join a).value
    (a ++ b).Unambiguous ∧ (a ++ b).DistinctEntries ∧
      (ab.nameAt 1 4 = ba.nameAt 1 4 ∧ ba.nameAt 1 4 = some "m") ∧
      (ab.descriptorAt 0 65535 = ba.descriptorAt 0 65535 ∧ ba.descriptorAt 0 65535 = some "J") ∧
      ((ab.HasName "p" ↔ ba.HasName "p") ∧ ba.HasName "p" ∧ ¬ ba.HasName "q") ∧
      ab.slotNames.Equiv ba.slotNames ∧
      ba.slotNames[(0 : UInt16)]? = some "p" ∧ ba.slotNames[(1 : UInt16)]? = some "n" := by
  intro a b ab ba
  have hslots : (a ++ b).Unambiguous := by
    suffices h : ∀ x : UInt16, x.toNat < 4 → 4 ≤ x.toNat → 7 ≤ x.toNat by
      simpa [Unambiguous, a, b, Scope.Clashes, Scope.Covers, Scope.stop] using h
    intro x
    omega
  have hentries : (a ++ b).DistinctEntries := by
    simp [DistinctEntries, a, b, Scope.AtEntry]
  obtain ⟨hanswers, hhas, hmap⟩ := order_makes_no_difference.2.2 a b hslots hentries
  exact ⟨hslots, hentries, ⟨(hanswers 1 4).1, rfl⟩, ⟨(hanswers 0 65535).2, rfl⟩,
    ⟨hhas "p", by decide, by decide⟩, hmap, rfl, rfl⟩

end Table

end LocalScopes
