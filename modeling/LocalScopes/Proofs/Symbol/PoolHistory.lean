import Mathlib.Data.Nat.Find
import Mathlib.Logic.Relation
import LocalScopes.Symbol.StringPool

/-! # Histories of string pools

A pool is made empty or from a list of strings, and from then on it is asked for the indices of
strings. There are two ways to add an entry: a list repeats its duplicates, and interning does not.
Both keep a pool *lawful*: its entries have 16-bit indices, and the index that a string is interned
to is the least one at which the pool holds it.

* `Lawful.push`: one more entry, whichever way it is added;
* `Lawful.intern`, `Reachable.lawful`: the invariant over a whole history;
* `Lawful.interned`: what interning does, by cases of what the pool holds;
* `Run.get?_eq_some`: an index keeps its string. -/

namespace LocalScopes.StringPool

/-! ### Indices -/

theorem toNat_indexAfter {n : Nat} (h : n < capacity) : (indexAfter n).toNat = n + 1 := by
  refine UInt16.toNat_ofNat_of_lt' ?_
  unfold capacity at h
  simp only [UInt16.size]
  omega

theorem get?_eq_some_iff {p : StringPool} {i : UInt16} {s : String} :
    p.get? i = some s ↔ ∃ k, k + 1 = i.toNat ∧ p.entries[k]? = some s := by
  unfold get?
  split_ifs with h
  · subst h
    simp
  · have hpos : i.toNat ≠ 0 := fun h0 => h (UInt16.toNat_inj.mp h0)
    constructor
    · exact fun hs => ⟨i.toNat - 1, by omega, hs⟩
    · rintro ⟨k, hk, hs⟩
      rwa [← hk]

theorem get?_indexAfter {p : StringPool} {k : Nat} (h : k < capacity) :
    p.get? (indexAfter k) = p.entries[k]? := by
  refine Option.ext fun s => ?_
  rw [get?_eq_some_iff, toNat_indexAfter h]
  simp

theorem toNat_le_size_of_get? {p : StringPool} {i : UInt16} {s : String} (h : p.get? i = some s) :
    0 < i.toNat ∧ i.toNat ≤ p.size := by
  obtain ⟨k, hk, hs⟩ := get?_eq_some_iff.mp h
  obtain ⟨hlt, -⟩ := Array.getElem?_eq_some_iff.mp hs
  unfold size
  omega

theorem lt_indexAfter_of_get? {p : StringPool} (room : p.size < capacity) {i : UInt16} {s : String}
    (h : p.get? i = some s) : i < indexAfter p.size := by
  have := (toNat_le_size_of_get? h).2
  rw [UInt16.lt_iff_toNat_lt, toNat_indexAfter room]
  omega

theorem get?_push {p : StringPool} (room : p.size < capacity) (s : String)
    (indices : Std.HashMap String UInt16) (i : UInt16) :
    get? ⟨p.entries.push s, indices⟩ i = if i = indexAfter p.size then some s else p.get? i := by
  split_ifs with h
  · rw [h, get?_indexAfter room]
    exact Array.getElem?_push_size
  · refine Option.ext fun a => ?_
    simp only [get?_eq_some_iff, Array.getElem?_push]
    refine exists_congr fun k => and_congr_right fun hk => ?_
    rw [if_neg]
    rintro rfl
    exact h (UInt16.toNat_inj.mp (by rw [toNat_indexAfter room]; exact hk.symm))

theorem resolve_eq_ok_iff {p : StringPool} {i : UInt16} {s : String} :
    p.resolve i = .ok s ↔ p.get? i = some s := by
  unfold resolve
  cases h : p.get? i <;> simp

theorem resolve_eq_error_iff {p : StringPool} {i : UInt16} :
    p.resolve i = .error (.noEntry i) ↔ i = 0 ∨ p.size < i.toNat := by
  have hnone : p.resolve i = .error (.noEntry i) ↔ p.get? i = none := by
    unfold resolve
    cases h : p.get? i <;> simp
  rw [hnone]
  unfold get?
  split_ifs with h
  · simp [h]
  · have hpos : i.toNat ≠ 0 := fun h0 => h (UInt16.toNat_inj.mp h0)
    simp only [h, false_or, Array.getElem?_eq_none_iff, size]
    omega

/-- The least index at which the pool holds `s`. -/
def IsLeastIndex (p : StringPool) (s : String) (i : UInt16) : Prop :=
  p.get? i = some s ∧ ∀ j, p.get? j = some s → i ≤ j

theorem exists_isLeastIndex {p : StringPool} {s : String} {j : UInt16} (h : p.get? j = some s) :
    ∃ i, p.IsLeastIndex s i := by
  classical
  have hex : ∃ n, ∃ i : UInt16, i.toNat = n ∧ p.get? i = some s := ⟨j.toNat, j, rfl, h⟩
  obtain ⟨i, hi, hs⟩ := Nat.find_spec hex
  refine ⟨i, hs, fun j hj => ?_⟩
  rw [UInt16.le_iff_toNat_le, hi]
  exact Nat.find_min' hex ⟨j, rfl, hj⟩

section Push
variable {p : StringPool} (room : p.size < capacity) {s : String}
  {indices : Std.HashMap String UInt16}
include room

theorem get?_push_of_get? {a : String} {i : UInt16} (h : p.get? i = some a) :
    get? ⟨p.entries.push s, indices⟩ i = some a := by
  rwa [get?_push room, if_neg (UInt16.ne_of_lt (lt_indexAfter_of_get? room h))]

theorem isLeastIndex_push_new (new : ∀ j, p.get? j ≠ some s) {i : UInt16} :
    IsLeastIndex ⟨p.entries.push s, indices⟩ s i ↔ i = indexAfter p.size := by
  have hiff : ∀ j, get? ⟨p.entries.push s, indices⟩ j = some s ↔ j = indexAfter p.size := by
    intro j
    rw [get?_push room]
    split_ifs with hj <;> simp [hj, new]
  simp only [IsLeastIndex, hiff]
  constructor
  · exact fun h => h.1
  · rintro rfl
    exact ⟨rfl, fun j hj => hj ▸ UInt16.le_refl _⟩

/-- A string that the pool holds keeps its least index, also if the new entry holds it again. -/
theorem isLeastIndex_push_of_get? {a : String} (known : s = a → ∃ k, p.get? k = some a)
    {i : UInt16} : IsLeastIndex ⟨p.entries.push s, indices⟩ a i ↔ p.IsLeastIndex a i := by
  constructor
  · rintro ⟨hi, hmin⟩
    refine ⟨?_, fun j hj => hmin j (get?_push_of_get? room hj)⟩
    rw [get?_push room] at hi
    split_ifs at hi with hN
    · -- the string had an index before, which is less than the new one
      exfalso
      obtain ⟨k, hk⟩ := known (Option.some.inj hi)
      have h1 := hmin k (get?_push_of_get? room hk)
      have h2 := lt_indexAfter_of_get? room hk
      rw [hN] at h1
      exact absurd h2 (UInt16.not_lt.mpr h1)
    · exact hi
  · rintro ⟨hi, hmin⟩
    refine ⟨get?_push_of_get? room hi, fun j hj => ?_⟩
    rw [get?_push room] at hj
    split_ifs at hj with hN
    · rw [hN]
      exact UInt16.le_of_lt (lt_indexAfter_of_get? room hi)
    · exact hmin j hj

end Push

/-! ### Lawful pools -/

/-- What interning `s` does to a pool `p`: the reply, and the pool afterwards. -/
inductive Interned (p : StringPool) (s : String) : Except SymbolError UInt16 × StringPool → Prop
  /-- The pool holds the string, and stays as it is. -/
  | known {i : UInt16} (least : p.IsLeastIndex s i) : Interned p s (.ok i, p)
  /-- The pool lacks the string, which becomes its last entry. -/
  | added {i : UInt16} (new : s ∉ p.entries) (room : p.size < capacity)
      (last : i.toNat = p.size + 1) :
      Interned p s (.ok i, ⟨p.entries.push s, p.indices.insert s i⟩)
  /-- The pool lacks the string and is full, and stays as it is. -/
  | refused (new : s ∉ p.entries) (full : p.size = capacity) :
      Interned p s (.error (.poolFull s), p)

/-- **The invariant of a pool**: it has no more entries than indices, and a string is interned to
the least index at which the pool holds it. -/
structure Lawful (p : StringPool) : Prop where
  size_le : p.size ≤ capacity
  getElem?_indices : ∀ s i, p.indices[s]? = some i ↔ p.IsLeastIndex s i

@[simp] theorem indices_empty : (∅ : StringPool).indices = ∅ := rfl

theorem lawful_empty : Lawful ∅ := by
  refine ⟨Nat.zero_le _, fun s i => ⟨fun h => ?_, fun h => ?_⟩⟩
  · simp at h
  · have := toNat_le_size_of_get? h.1
    simp only [size, entries_empty, List.size_toArray, List.length_nil] at this
    omega

section Lawful
variable {p : StringPool} (hp : Lawful p)
include hp

theorem Lawful.mem_entries_iff {s : String} : s ∈ p.entries ↔ ∃ i, p.get? i = some s := by
  rw [Array.mem_iff_getElem?]
  constructor
  · rintro ⟨k, hk⟩
    obtain ⟨hlt, -⟩ := Array.getElem?_eq_some_iff.mp hk
    exact ⟨indexAfter k, by rwa [get?_indexAfter (Nat.lt_of_lt_of_le hlt hp.size_le)]⟩
  · rintro ⟨i, hi⟩
    obtain ⟨k, -, hk⟩ := get?_eq_some_iff.mp hi
    exact ⟨k, hk⟩

theorem Lawful.getElem?_indices_eq_none {s : String} : p.indices[s]? = none ↔ s ∉ p.entries := by
  rw [hp.mem_entries_iff, not_exists]
  constructor
  · intro h i hi
    obtain ⟨j, hj⟩ := exists_isLeastIndex hi
    rw [(hp.getElem?_indices s j).mpr hj] at h
    cases h
  · intro h
    refine Option.eq_none_iff_forall_ne_some.mpr fun i hi => ?_
    exact h i ((hp.getElem?_indices s i).mp hi).1

/-- **One more entry.** The string gets the new index unless it has one already. -/
theorem Lawful.push (room : p.size < capacity) {s : String} {indices : Std.HashMap String UInt16}
    (hm : ∀ a, indices[a]? =
      if s = a ∧ p.indices[a]? = none then some (indexAfter p.size) else p.indices[a]?) :
    Lawful ⟨p.entries.push s, indices⟩ := by
  refine ⟨by simpa [size] using Nat.succ_le_of_lt room, fun a i => ?_⟩
  rw [hm a]
  split_ifs with h
  · obtain ⟨rfl, hnone⟩ := h
    rw [hp.getElem?_indices_eq_none, hp.mem_entries_iff, not_exists] at hnone
    rw [isLeastIndex_push_new room hnone, Option.some.injEq, eq_comm]
  · rw [hp.getElem?_indices, isLeastIndex_push_of_get? room]
    rintro rfl
    obtain ⟨k, hk⟩ := Option.ne_none_iff_exists'.mp fun hnone => h ⟨rfl, hnone⟩
    exact ⟨k, ((hp.getElem?_indices _ k).mp hk).1⟩

/-! ### Interning -/

/-- **Interning.** A known string is answered with its least index, a new one is added at the end,
and a new one for which there is no index is refused. -/
theorem Lawful.interned (s : String) : Interned p s (intern s p) := by
  by_cases hs : s ∈ p.entries
  · have hne : p.indices[s]? ≠ none := fun h => hp.getElem?_indices_eq_none.mp h hs
    obtain ⟨i, hi⟩ := Option.ne_none_iff_exists'.mp hne
    rw [intern_of_get? hi]
    exact .known ((hp.getElem?_indices s i).mp hi)
  · have hnone := hp.getElem?_indices_eq_none.mpr hs
    rcases Nat.lt_or_eq_of_le hp.size_le with room | full
    · rw [intern_new hnone room]
      exact .added hs room (toNat_indexAfter room)
    · rw [intern_full hnone (Nat.le_of_eq full.symm)]
      exact .refused hs full

theorem Lawful.intern (s : String) : Lawful (intern s p).2 := by
  have h := hp.interned s
  generalize StringPool.intern s p = r at h ⊢
  cases h with
  | known => exact hp
  | refused => exact hp
  | added new room last =>
    refine hp.push room fun a => ?_
    have hnone := hp.getElem?_indices_eq_none.mpr new
    rw [← toNat_indexAfter room, UInt16.toNat_inj] at last
    rw [Std.HashMap.getElem?_insert, last]
    by_cases ha : s = a
    · subst ha
      simp [hnone]
    · simp [ha]

theorem Lawful.append (room : p.size < capacity) (s : String) : Lawful (p.append s) := by
  refine hp.push room fun a => ?_
  simp only [Std.HashMap.getElem?_insertIfNew, Std.HashMap.mem_iff_isSome_getElem?, beq_iff_eq]
  by_cases ha : s = a
  · subst ha
    simp [size]
  · simp [ha]

theorem Lawful.get?_intern {s : String} {i : UInt16} (h : (StringPool.intern s p).1 = .ok i) :
    (StringPool.intern s p).2.get? i = some s := by
  have hint := hp.interned s
  generalize StringPool.intern s p = r at h hint ⊢
  cases hint with
  | known least =>
    cases h
    exact least.1
  | added new room last =>
    cases h
    rw [← toNat_indexAfter room, UInt16.toNat_inj] at last
    rw [get?_push room, if_pos last]
  | refused => cases h

end Lawful

theorem lawful_foldl_append : ∀ (ss : List String) {p : StringPool}, Lawful p →
    p.size + ss.length ≤ capacity → Lawful (ss.foldl append p)
  | [], _, hp, _ => hp
  | s :: ss, p, hp, hle => by
    rw [List.length_cons] at hle
    refine lawful_foldl_append ss (hp.append (by omega) s) ?_
    rw [size_append]
    omega

theorem lawful_ofList (ss : List String) : Lawful (ofList ss) := by
  rw [ofList_eq]
  refine lawful_foldl_append _ lawful_empty ?_
  rw [List.length_take]
  change 0 + min capacity ss.length ≤ capacity
  omega

/-! ### Histories -/

/-- One more string has been asked for, with success or not. -/
def Step (p q : StringPool) : Prop := ∃ s, q = (intern s p).2

/-- Any number of strings have been asked for. -/
abbrev Run : StringPool → StringPool → Prop := Relation.ReflTransGen Step

/-- A pool as it is made: empty, or from a list of strings. -/
inductive Made : StringPool → Prop
  | empty : Made ∅
  | collect (ss : List String) : Made (collect ss).value

/-- A pool that was made, and then asked for any number of strings. -/
def Reachable (p : StringPool) : Prop := ∃ p₀, Made p₀ ∧ Run p₀ p

theorem Made.lawful {p : StringPool} : Made p → Lawful p
  | .empty => lawful_empty
  | .collect ss => by
    rw [value_collect]
    exact lawful_ofList ss

theorem Lawful.run {p q : StringPool} (hp : Lawful p) (hr : Run p q) : Lawful q := by
  induction hr with
  | refl => exact hp
  | tail _ hstep ih =>
    obtain ⟨s, rfl⟩ := hstep
    exact ih.intern s

/-- **Every history keeps the invariant.** -/
theorem Reachable.lawful {p : StringPool} (h : Reachable p) : Lawful p := by
  obtain ⟨p₀, h₀, hr⟩ := h
  exact h₀.lawful.run hr

theorem entries_prefix_intern (s : String) (p : StringPool) :
    p.entries.toList <+: (intern s p).2.entries.toList := by
  obtain ⟨entries, indices⟩ := p
  simp only [intern]
  split
  · exact List.prefix_rfl
  · split_ifs
    · simp
    · exact List.prefix_rfl

theorem Run.entries_prefix {p q : StringPool} (hr : Run p q) :
    p.entries.toList <+: q.entries.toList := by
  induction hr with
  | refl => exact List.prefix_rfl
  | tail _ hstep ih =>
    obtain ⟨s, rfl⟩ := hstep
    exact ih.trans (entries_prefix_intern s _)

/-- **An index keeps its string.** -/
theorem Run.get?_eq_some {p q : StringPool} (hr : Run p q) {i : UInt16} {s : String}
    (h : p.get? i = some s) : q.get? i = some s := by
  obtain ⟨k, hk, hs⟩ := get?_eq_some_iff.mp h
  refine get?_eq_some_iff.mpr ⟨k, hk, ?_⟩
  rw [← Array.getElem?_toList] at hs ⊢
  obtain ⟨rest, hrest⟩ := hr.entries_prefix
  rw [← hrest, List.getElem?_append_left (List.getElem?_eq_some_iff.mp hs).1]
  exact hs

theorem Run.resolve_eq_ok {p q : StringPool} (hr : Run p q) {i : UInt16} {s : String}
    (h : p.resolve i = .ok s) : q.resolve i = .ok s :=
  resolve_eq_ok_iff.mpr (hr.get?_eq_some (resolve_eq_ok_iff.mp h))

/-- Strings that are given one index, at whatever times, are the same. -/
theorem Lawful.eq_of_intern_eq {p q : StringPool} (hp : Lawful p) {s t : String} {i : UInt16}
    (hs : (StringPool.intern s p).1 = .ok i) (hr : Run (StringPool.intern s p).2 q)
    (ht : (StringPool.intern t q).1 = .ok i) : t = s := by
  have hq := (hp.intern s).run hr
  have h1 := hr.get?_eq_some (hp.get?_intern hs)
  have h2 := Run.get?_eq_some (.single ⟨t, rfl⟩) h1
  exact Option.some.inj ((hq.get?_intern ht).symm.trans h2)

/-! ### Pools after any history -/

/-- **What a pool is after any history.** There are at most as many entries as 16-bit indices, an
index resolves to the entry at its place, and the strings with an index are the entries, each with
its least one. Interning does one of three things, no index changes its string later, and no two
strings are given one index. A list fills a pool up to the last index, duplicates included. -/
theorem represents_history {p : StringPool} (h : Reachable p) :
    p.size ≤ 65535 ∧
    (∀ i, p.resolve i = .error (.noEntry i) ↔ i = 0 ∨ p.size < i.toNat) ∧
    (∀ i s, p.resolve i = .ok s ↔ i ≠ 0 ∧ p.entries[i.toNat - 1]? = some s) ∧
    (∀ s, s ∈ p.indices ↔ s ∈ p.entries) ∧
    (∀ s i, p.indices[s]? = some i ↔ p.IsLeastIndex s i) ∧
    (∀ s, Interned p s (intern s p)) ∧
    (∀ q, Run p q → ∀ i s, p.resolve i = .ok s → q.resolve i = .ok s) ∧
    (∀ s q t i, (intern s p).1 = .ok i → Run (intern s p).2 q → (intern t q).1 = .ok i → t = s) ∧
    ∀ ss : List String, (collect ss).value.entries.toList = ss.take 65535 ∧
      ∀ k s, k < 65535 → ss[k]? = some s →
        ∃ i : UInt16, i.toNat = k + 1 ∧ (collect ss).value.resolve i = .ok s := by
  have hp := h.lawful
  refine ⟨hp.size_le, fun i => resolve_eq_error_iff, fun i s => ?_, fun s => ?_,
    hp.getElem?_indices, hp.interned, fun q hr i s hs => hr.resolve_eq_ok hs,
    fun s q t i hs hr ht => hp.eq_of_intern_eq hs hr ht, fun ss => ⟨?_, fun k s hk hs => ?_⟩⟩
  · rw [resolve_eq_ok_iff]
    unfold get?
    split_ifs with h0 <;> simp [h0]
  · rw [← not_iff_not, ← hp.getElem?_indices_eq_none, Std.HashMap.mem_iff_isSome_getElem?]
    simp
  · rw [value_collect, entries_ofList, capacity]
  · refine ⟨indexAfter k, toNat_indexAfter hk, resolve_eq_ok_iff.mpr ?_⟩
    rw [get?_indexAfter hk, ← Array.getElem?_toList, value_collect, entries_ofList,
      List.getElem?_take_of_lt (show k < capacity from hk), hs]

/-- In a pool of duplicates, a string is interned to its first index also after a later entry. -/
theorem represents_history_of_duplicates :
    ∃ p : StringPool, Reachable p ∧ p.entries.toList = ["this", "I", "this", "x"] ∧
      p.resolve 3 = .ok "this" ∧ intern "this" p = (.ok 1, p) := by
  have hp : Reachable (intern "x" (collect ["this", "I", "this"]).value).2 :=
    ⟨_, .collect _, .single ⟨"x", rfl⟩⟩
  have hentries : (intern "x" (collect ["this", "I", "this"]).value).2.entries.toList =
      ["this", "I", "this", "x"] := by
    simp [intern, ofList_eq, append, capacity]
  generalize (intern "x" (collect ["this", "I", "this"]).value).2 = p at hp hentries
  have hget : ∀ k, p.entries[k]? = ["this", "I", "this", "x"][k]? := fun k => by
    rw [← Array.getElem?_toList, hentries]
  obtain ⟨-, -, hres, -, -, hint, -⟩ := represents_history hp
  have hone : p.get? 1 = some "this" := get?_eq_some_iff.mpr ⟨0, rfl, by simp [hget]⟩
  refine ⟨p, hp, hentries, (hres 3 "this").mpr ⟨by decide, by simp [hget]⟩, ?_⟩
  have hthis := hint "this"
  generalize intern "this" p = r at hthis ⊢
  cases hthis with
  | @known i least =>
    have hpos := (toNat_le_size_of_get? least.1).1
    have hle : i.toNat ≤ (1 : UInt16).toNat := UInt16.le_iff_toNat_le.mp (least.2 1 hone)
    rw [show i = 1 from UInt16.toNat_inj.mp (Nat.le_antisymm hle hpos)]
  | added new => exact absurd (Array.mem_iff_getElem?.mpr ⟨0, by simp [hget]⟩) new
  | refused new => exact absurd (Array.mem_iff_getElem?.mpr ⟨0, by simp [hget]⟩) new

end LocalScopes.StringPool
