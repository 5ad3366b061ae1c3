import Mathlib.Data.List.Basic
import LocalScopes.Proofs.Symbol.PoolHistory

/-! # First indices

A pool may hold a string at several indices. The least of them is the place of its first entry
(`firstIndexOf`), which is the index that the string is interned to (`Lawful.intern_known`). In
place of any index at which the pool holds a string, `firstIndex` puts the first one for that
string, and it leaves an index at which there is nothing as it is.

A pool that has been asked for a string replies to it in the same way at any later time, and does
not change when it does so (`Lawful.intern_again`): the least index of a string stays the least one,
and a pool without room stays as it is. -/

namespace LocalScopes.StringPool

/-! ### First entries -/

/-- The index of the first entry that is the string. -/
def firstIndexOf (p : StringPool) (s : String) : UInt16 := indexAfter (p.entries.toList.idxOf s)

/-- The first index at which the pool holds what it holds at `i`. -/
def firstIndex (p : StringPool) (i : UInt16) : UInt16 :=
  match p.get? i with
  | some s => p.firstIndexOf s
  | none => i

theorem firstIndex_of_resolve {p : StringPool} {i : UInt16} {s : String}
    (h : p.resolve i = .ok s) : p.firstIndex i = p.firstIndexOf s := by
  rw [firstIndex, resolve_eq_ok_iff.mp h]

theorem firstIndex_of_refused {p : StringPool} {i : UInt16} {cause : SymbolError}
    (h : p.resolve i = .error cause) : p.firstIndex i = i := by
  unfold resolve at h
  unfold firstIndex
  cases hi : p.get? i with
  | none => rfl
  | some s =>
    rw [hi] at h
    cases h

theorem IsLeastIndex.unique {p : StringPool} {s : String} {i j : UInt16}
    (hi : p.IsLeastIndex s i) (hj : p.IsLeastIndex s j) : i = j :=
  UInt16.le_antisymm (hi.2 j hj.1) (hj.2 i hi.1)

section Lawful
variable {p : StringPool} (hp : Lawful p)
include hp

theorem Lawful.isLeastIndex_firstIndexOf {s : String} (h : s ∈ p.entries) :
    p.IsLeastIndex s (p.firstIndexOf s) := by
  have hlist : s ∈ p.entries.toList := Array.mem_toList_iff.mpr h
  have hlt : p.entries.toList.idxOf s < capacity :=
    Nat.lt_of_lt_of_le (List.idxOf_lt_length_of_mem hlist) hp.size_le
  constructor
  · rw [firstIndexOf, get?_indexAfter hlt, ← Array.getElem?_toList, List.getElem?_idxOf hlist]
  · intro j hj
    obtain ⟨k, hk, hs⟩ := get?_eq_some_iff.mp hj
    rw [UInt16.le_iff_toNat_le, firstIndexOf, toNat_indexAfter hlt, ← hk]
    refine Nat.succ_le_succ (Nat.le_of_not_lt fun hbefore => ?_)
    -- no entry in front of the first one is the string
    rw [← Array.getElem?_toList] at hs
    obtain ⟨hlen, hat⟩ := List.getElem?_eq_some_iff.mp hs
    have hne := List.not_of_lt_findIdx hbefore
    rw [hat] at hne
    simp at hne

theorem Lawful.isLeastIndex_iff {s : String} {i : UInt16} :
    p.IsLeastIndex s i ↔ s ∈ p.entries ∧ i = p.firstIndexOf s := by
  constructor
  · intro h
    have hs := hp.mem_entries_iff.mpr ⟨i, h.1⟩
    exact ⟨hs, h.unique (hp.isLeastIndex_firstIndexOf hs)⟩
  · rintro ⟨hs, rfl⟩
    exact hp.isLeastIndex_firstIndexOf hs

theorem Lawful.intern_known {s : String} (h : s ∈ p.entries) :
    StringPool.intern s p = (.ok (p.firstIndexOf s), p) :=
  intern_of_get? ((hp.getElem?_indices s _).mpr (hp.isLeastIndex_firstIndexOf h))

theorem Lawful.isLeastIndex_firstIndex {i : UInt16} {s : String} (h : p.resolve i = .ok s) :
    p.IsLeastIndex s (p.firstIndex i) := by
  have hs := hp.mem_entries_iff.mpr ⟨i, resolve_eq_ok_iff.mp h⟩
  rw [firstIndex_of_resolve h]
  exact hp.isLeastIndex_firstIndexOf hs

theorem Lawful.resolve_firstIndex (i : UInt16) : p.resolve (p.firstIndex i) = p.resolve i := by
  rcases h : p.resolve i with cause | s
  · rw [firstIndex_of_refused h, h]
  · exact resolve_eq_ok_iff.mpr (hp.isLeastIndex_firstIndex h).1

theorem Lawful.firstIndex_firstIndex (i : UInt16) :
    p.firstIndex (p.firstIndex i) = p.firstIndex i := by
  have hsame := hp.resolve_firstIndex i
  rcases h : p.resolve i with cause | s
  · rw [firstIndex_of_refused h, firstIndex_of_refused h]
  · rw [firstIndex_of_resolve (hsame.trans h), firstIndex_of_resolve h]

end Lawful

/-! ### Strings asked for again -/

section Lawful
variable {p : StringPool} (hp : Lawful p)
include hp

theorem Lawful.isLeastIndex_intern {a : String} {i : UInt16} (h : p.IsLeastIndex a i) (s : String) :
    (StringPool.intern s p).2.IsLeastIndex a i := by
  have hs := hp.interned s
  generalize StringPool.intern s p = r at hs ⊢
  cases hs with
  | known => exact h
  | refused => exact h
  | added new room last => exact (isLeastIndex_push_of_get? room fun _ => ⟨i, h.1⟩).mpr h

theorem Lawful.isLeastIndex_run {q : StringPool} (hr : Run p q) {a : String} {i : UInt16}
    (h : p.IsLeastIndex a i) : q.IsLeastIndex a i := by
  induction hr with
  | refl => exact h
  | tail hr hstep ih =>
    obtain ⟨s, rfl⟩ := hstep
    exact (hp.run hr).isLeastIndex_intern ih s

theorem Lawful.isLeastIndex_of_intern {s : String} {i : UInt16}
    (h : (StringPool.intern s p).1 = .ok i) : (StringPool.intern s p).2.IsLeastIndex s i := by
  have hs := hp.interned s
  generalize StringPool.intern s p = r at h hs ⊢
  cases hs with
  | known least =>
    cases h
    exact least
  | added new room last =>
    cases h
    rw [hp.mem_entries_iff, not_exists] at new
    rw [isLeastIndex_push_new room new, ← UInt16.toNat_inj, last, toNat_indexAfter room]
  | refused => cases h

theorem Lawful.eq_of_run_full (full : p.size = capacity) {q : StringPool} (hr : Run p q) :
    q = p := by
  induction hr with
  | refl => rfl
  | tail _ hstep ih =>
    obtain ⟨s, rfl⟩ := hstep
    subst ih
    have hs := hp.interned s
    generalize StringPool.intern s _ = r at hs ⊢
    cases hs with
    | known => rfl
    | refused => rfl
    | added new room last => omega

/-- **A string that was asked for is replied to in the same way from then on**, and the pool stays
as it is. -/
theorem Lawful.intern_again {s : String} {q : StringPool} (hr : Run (StringPool.intern s p).2 q) :
    StringPool.intern s q = ((StringPool.intern s p).1, q) := by
  have hq := (hp.intern s).run hr
  rcases hreply : (StringPool.intern s p).1 with cause | i
  · -- a refusal leaves a full pool, which is the later one too
    have hs := hp.interned s
    generalize hr' : StringPool.intern s p = r at hr hreply hs
    cases hs with
    | known => cases hreply
    | added => cases hreply
    | refused new full =>
      cases hreply
      rw [hp.eq_of_run_full full hr, hr']
  · have hleast := (hp.intern s).isLeastIndex_run hr (hp.isLeastIndex_of_intern hreply)
    exact intern_of_get? ((hq.getElem?_indices s i).mpr hleast)

end Lawful

end LocalScopes.StringPool
