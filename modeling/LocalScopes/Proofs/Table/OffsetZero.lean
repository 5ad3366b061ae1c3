import LocalScopes.Proofs.Table.LastEntry

/-! # Parameters and offset 0

Two queries look among the scopes on a slot that open with the method (`Table.entriesOn`). The names
of parameters go by the last one, whatever its length. What holds the slot at offset 0 is the first
one that is not empty, since an empty range covers nothing (`Table.scopeAt_zero`). So each query is
the other one read from the other end of the table, as long as none of these scopes is empty
(`Table.scopeAt_reverse_zero`), and only a slot with nothing but empty ones has a name and is not
held.

* `Table.mem_slotNames_iff`, `Table.scopeAt_zero_eq_none_iff`: when each query has an answer;
* `Table.names_mirror_offset_zero`: the two queries side by side. -/

namespace LocalScopes.Table

/-- The scopes on `slot` that open with the method, in table order. -/
def entriesOn (t : Table) (slot : UInt16) : List Scope :=
  t.scopes.filter fun s => s.start = 0 ∧ s.slot = slot

/-- The table with its scopes in reverse order. -/
def reverse (t : Table) : Table := ⟨t.scopes.reverse⟩

theorem mem_entriesOn {t : Table} {slot : UInt16} {s : Scope} :
    s ∈ t.entriesOn slot ↔ s ∈ t.scopes ∧ s.start = 0 ∧ s.slot = slot := by
  rw [entriesOn, List.mem_filter, decide_eq_true_eq]

theorem forall_mem_entriesOn {t : Table} {slot : UInt16} {P : Scope → Prop} :
    (∀ s ∈ t.entriesOn slot, P s) ↔ ∀ s ∈ t.scopes, s.start = 0 → s.slot = slot → P s := by
  simp only [mem_entriesOn, and_imp]

theorem entriesOn_reverse (t : Table) (slot : UInt16) :
    t.reverse.entriesOn slot = (t.entriesOn slot).reverse := List.filter_reverse

theorem lastEntry_eq_getLast?_entriesOn (t : Table) (slot : UInt16) :
    t.lastEntry slot = (t.entriesOn slot).getLast? := rfl

/-! ### What holds a slot at offset 0 -/

theorem scopeAt_zero (t : Table) (slot : UInt16) :
    t.scopeAt slot 0 = (t.entriesOn slot).find? fun s => s.length ≠ 0 := by
  unfold scopeAt entriesOn
  rw [List.find?_filter]
  congr 1
  funext s
  refine decide_eq_decide.mpr ?_
  rw [Scope.covers_zero_iff, Scope.AtEntry, decide_eq_true_eq, decide_eq_true_eq]
  constructor
  · rintro ⟨hslot, hopen, hlength⟩
    exact ⟨⟨hopen, hslot⟩, hlength⟩
  · rintro ⟨⟨hopen, hslot⟩, hlength⟩
    exact ⟨hslot, hopen, hlength⟩

theorem scopeAt_zero_of_nonempty {t : Table} {slot : UInt16}
    (h : ∀ s ∈ t.entriesOn slot, s.length ≠ 0) : t.scopeAt slot 0 = (t.entriesOn slot).head? := by
  have hall : (t.entriesOn slot).filter (fun s => s.length ≠ 0) = t.entriesOn slot :=
    List.filter_eq_self.mpr fun s hs => decide_eq_true (h s hs)
  rw [scopeAt_zero, ← List.head?_filter, hall]

theorem scopeAt_reverse_zero {t : Table} {slot : UInt16}
    (h : ∀ s ∈ t.entriesOn slot, s.length ≠ 0) : t.reverse.scopeAt slot 0 = t.lastEntry slot := by
  have hreverse : ∀ s ∈ t.reverse.entriesOn slot, s.length ≠ 0 := by
    intro s hs
    rw [entriesOn_reverse, List.mem_reverse] at hs
    exact h s hs
  rw [scopeAt_zero_of_nonempty hreverse, entriesOn_reverse, List.head?_reverse,
    lastEntry_eq_getLast?_entriesOn]

/-! ### Whether there is an answer -/

theorem scopeAt_zero_eq_none_iff {t : Table} {slot : UInt16} :
    t.scopeAt slot 0 = none ↔ ∀ s ∈ t.entriesOn slot, s.length = 0 := by
  rw [scopeAt_zero, List.find?_eq_none]
  simp only [ne_eq, decide_not, Bool.not_eq_true', decide_eq_false_iff_not, not_not]

theorem nameAt_eq_none_iff {t : Table} {slot offset : UInt16} :
    t.nameAt slot offset = none ↔ t.scopeAt slot offset = none := Option.map_eq_none_iff

theorem mem_slotNames_iff {t : Table} {slot : UInt16} :
    slot ∈ t.slotNames ↔ ∃ s ∈ t.scopes, s.start = 0 ∧ s.slot = slot := by
  rw [Std.TreeMap.mem_iff_isSome_getElem?, getElem?_slotNames, Option.isSome_map,
    lastEntry_eq_getLast?_entriesOn, List.getLast?_isSome]
  constructor
  · intro hne
    obtain ⟨s, hs⟩ := List.exists_mem_of_ne_nil _ hne
    exact ⟨s, mem_entriesOn.mp hs⟩
  · rintro ⟨s, hs⟩
    exact List.ne_nil_of_mem (mem_entriesOn.mpr hs)

theorem mem_slotNames_of_nameAt {t : Table} {slot : UInt16} {name : String}
    (h : t.nameAt slot 0 = some name) : slot ∈ t.slotNames := by
  obtain ⟨s, hs, -⟩ := Option.map_eq_some_iff.mp h
  rw [scopeAt_zero] at hs
  exact mem_slotNames_iff.mpr ⟨s, mem_entriesOn.mp (List.mem_of_find?_eq_some hs)⟩

/-! ### The two queries -/

/-- **Names of parameters and names at offset 0 mirror each other.** A slot has a parameter name
just if a scope on it opens with the method. If none of these scopes is empty, the name is the one
that the slot carries at offset 0 in the reversed table, and in the table itself if there is only
one of them. A slot that carries a name at offset 0 has a parameter name. The converse fails just
for the slots on which scopes open with the method, and all of these are empty. -/
theorem names_mirror_offset_zero (t : Table) (slot : UInt16) :
    (slot ∈ t.slotNames ↔ ∃ s ∈ t.scopes, s.start = 0 ∧ s.slot = slot) ∧
    ((∀ s ∈ t.scopes, s.start = 0 → s.slot = slot → s.length ≠ 0) →
      t.slotNames[slot]? = t.reverse.nameAt slot 0) ∧
    (∀ s, t.entriesOn slot = [s] → s.length ≠ 0 →
      t.slotNames[slot]? = t.nameAt slot 0 ∧ t.nameAt slot 0 = some s.name) ∧
    (∀ name, t.nameAt slot 0 = some name → slot ∈ t.slotNames) ∧
    ((t.nameAt slot 0 = none ∧ slot ∈ t.slotNames) ↔
      (∃ s ∈ t.scopes, s.start = 0 ∧ s.slot = slot) ∧
        ∀ s ∈ t.scopes, s.start = 0 → s.slot = slot → s.length = 0) := by
  refine ⟨mem_slotNames_iff, fun hlength => ?_, fun s hs hlength => ?_,
    fun name => mem_slotNames_of_nameAt, ?_⟩
  · rw [← forall_mem_entriesOn] at hlength
    rw [getElem?_slotNames, nameAt, scopeAt_reverse_zero hlength]
  · have hall : ∀ u ∈ t.entriesOn slot, u.length ≠ 0 := by
      rw [hs]
      simpa using hlength
    have hheld : t.scopeAt slot 0 = some s := by
      rw [scopeAt_zero_of_nonempty hall, hs]
      rfl
    have hlast : t.lastEntry slot = some s := by
      rw [lastEntry_eq_getLast?_entriesOn, hs]
      rfl
    rw [getElem?_slotNames, nameAt, hheld, hlast]
    exact ⟨rfl, rfl⟩
  · rw [nameAt_eq_none_iff, scopeAt_zero_eq_none_iff, forall_mem_entriesOn, mem_slotNames_iff]
    exact and_comm

/-- Slot 1 has two parameters and a local, slot 0 has one parameter whose range is as long as can
be, and slot 2 has an empty one. -/
theorem names_mirror_offset_zero_of_three_slots :
    let t : Table := ⟨[⟨0, 0, "e", "I", 2⟩, ⟨4, 5, "l", "I", 1⟩, ⟨0, 9, "a", "I", 1⟩,
      ⟨0, 65535, "p", "J", 0⟩, ⟨0, 1, "b", "J", 1⟩]⟩
    (t.slotNames[(1 : UInt16)]? = t.reverse.nameAt 1 0 ∧ t.reverse.nameAt 1 0 = some "b" ∧
      t.nameAt 1 0 = some "a") ∧
    (t.slotNames[(0 : UInt16)]? = t.nameAt 0 0 ∧ t.nameAt 0 0 = some "p" ∧
      (0 : UInt16) ∈ t.slotNames) ∧
    t.nameAt 2 0 = none ∧ (2 : UInt16) ∈ t.slotNames := by
  intro t
  obtain ⟨-, hmirror, -, -, -⟩ := names_mirror_offset_zero t 1
  obtain ⟨-, -, hsingle, hheld, -⟩ := names_mirror_offset_zero t 0
  obtain ⟨-, -, -, -, hempty⟩ := names_mirror_offset_zero t 2
  obtain ⟨hsame, hname⟩ := hsingle _ rfl (by decide)
  refine ⟨⟨hmirror (by decide), rfl, rfl⟩, ⟨hsame, hname, hheld "p" hname⟩, hempty.mpr ?_⟩
  exact ⟨⟨⟨0, 0, "e", "I", 2⟩, by simp [t], rfl, rfl⟩, by decide⟩

end LocalScopes.Table
