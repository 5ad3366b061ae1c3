import LocalScopes.Proofs.Symbol.PoolHistory

/-! # Filling a pool

A pool is asked for strings, one after the other. What it gains are the strings that it lacks, each
at its first occurrence (`newStrings`), as far as there are indices for them: either all of them are
its new entries, or it is full and the next one was refused (`Filled`).

* `newStrings_append`: new strings of two lists, one behind the other;
* `Lawful.filled_of_intern_ok`, `Lawful.filled_of_intern_error`: one string;
* `Filled.append`, `Filled.extend`: strings behind others, which are asked for just if none of the
  others was refused;
* `Filled.none_iff`: nothing is refused just if the new strings fit. -/

namespace LocalScopes.StringPool

/-! ### New strings -/

/-- The strings of a list that are not among the known ones, each at its first occurrence. -/
def newStrings (known ss : List String) : List String := (ss.filter (· ∉ known)).eraseDups

theorem mem_newStrings {known ss : List String} {s : String} :
    s ∈ newStrings known ss ↔ s ∈ ss ∧ s ∉ known := by
  rw [newStrings, List.mem_eraseDups, List.mem_filter, decide_eq_true_eq]

theorem newStrings_eq_nil {known ss : List String} (h : ∀ s ∈ ss, s ∈ known) :
    newStrings known ss = [] :=
  List.eq_nil_iff_forall_not_mem.mpr fun s hs =>
    (mem_newStrings.mp hs).2 (h s (mem_newStrings.mp hs).1)

theorem newStrings_singleton {known : List String} {s : String} (h : s ∉ known) :
    newStrings known [s] = [s] := by
  rw [newStrings, List.filter_cons_of_pos (by simpa using h), List.filter_nil, List.eraseDups_cons]
  rfl

theorem newStrings_append (known front back : List String) :
    newStrings known (front ++ back) =
      newStrings known front ++ newStrings (known ++ newStrings known front) back := by
  rw [newStrings, List.filter_append, List.eraseDups_append, List.removeAll, List.filter_filter]
  congr 2
  refine List.filter_congr fun s _ => ?_
  simp only [newStrings, List.mem_append, List.mem_eraseDups, not_or]
  by_cases hs : s ∈ known <;> simp [hs]

/-! ### What a pool gains -/

/-- **What asking for strings comes to**: the string that was refused, if one was, and the pool
afterwards. -/
inductive Filled (p : StringPool) (ss : List String) : Option String → StringPool → Prop
  | all {q : StringPool}
      (room : p.size + (newStrings p.entries.toList ss).length ≤ capacity)
      (entries : q.entries.toList = p.entries.toList ++ newStrings p.entries.toList ss) :
      Filled p ss none q
  | upTo {q : StringPool} {s : String}
      (next : (newStrings p.entries.toList ss)[capacity - p.size]? = some s)
      (entries : q.entries.toList =
        p.entries.toList ++ (newStrings p.entries.toList ss).take (capacity - p.size)) :
      Filled p ss (some s) q

theorem length_entries (p : StringPool) : p.entries.toList.length = p.size := Array.length_toList

section Filled
variable {p q q' : StringPool} {front back ss : List String}

theorem Filled.append {refused : Option String} (h : Filled p front none q)
    (h' : Filled q back refused q') : Filled p (front ++ back) refused q' := by
  obtain ⟨room, entries⟩ := h
  have hsize : q.size = p.size + (newStrings p.entries.toList front).length := by
    rw [← length_entries, entries, List.length_append, length_entries]
  have happend := newStrings_append p.entries.toList front back
  rw [← entries] at happend
  cases h' with
  | all room' entries' =>
    refine .all ?_ ?_
    · rw [happend, List.length_append]
      omega
    · rw [entries', happend, entries, List.append_assoc]
  | upTo next entries' =>
    have hrest : capacity - p.size =
        (newStrings p.entries.toList front).length + (capacity - q.size) := by
      omega
    refine .upTo ?_ ?_
    · rw [happend, hrest, List.getElem?_append_right (Nat.le_add_right _ _), Nat.add_sub_cancel_left]
      exact next
    · rw [entries', happend, hrest, List.take_length_add_append, entries, List.append_assoc]

theorem Filled.extend {s : String} (h : Filled p front (some s) q) (back : List String) :
    Filled p (front ++ back) (some s) q := by
  cases h with
  | upTo next entries =>
    have hlt := (List.getElem?_eq_some_iff.mp next).1
    have happend := newStrings_append p.entries.toList front back
    refine .upTo ?_ ?_
    · rw [happend, List.getElem?_append_left hlt, next]
    · rw [happend, List.take_append_of_le_length (Nat.le_of_lt hlt), entries]

theorem Filled.none_iff {refused : Option String} (h : Filled p ss refused q)
    (hp : p.size ≤ capacity) :
    refused = none ↔ p.size + (newStrings p.entries.toList ss).length ≤ capacity := by
  cases h with
  | all room => simp [room]
  | upTo next =>
    have hlt := (List.getElem?_eq_some_iff.mp next).1
    simp only [reduceCtorEq, false_iff]
    omega

end Filled

/-! ### One string -/

theorem Lawful.filled_nil {p : StringPool} (hp : Lawful p) : Filled p [] none p :=
  .all (by simpa [newStrings] using hp.size_le) (by simp [newStrings])

theorem Lawful.filled_of_intern_ok {p q : StringPool} (hp : Lawful p) {s : String} {i : UInt16}
    (h : StringPool.intern s p = (.ok i, q)) : Filled p [s] none q := by
  have hs := hp.interned s
  rw [h] at hs
  cases hs with
  | known least =>
    have hold : newStrings p.entries.toList [s] = [] := newStrings_eq_nil fun a ha => by
      rw [List.mem_singleton.mp ha, Array.mem_toList_iff]
      exact hp.mem_entries_iff.mpr ⟨i, least.1⟩
    refine .all ?_ ?_
    · simpa [hold] using hp.size_le
    · simp [hold]
  | added new room last =>
    have hnew := newStrings_singleton fun h => new (Array.mem_toList_iff.mp h)
    refine .all ?_ ?_
    · rw [hnew]
      exact room
    · simp [hnew]

theorem Lawful.filled_of_intern_error {p q : StringPool} (hp : Lawful p) {s : String}
    {cause : SymbolError} (h : StringPool.intern s p = (.error cause, q)) :
    cause = .poolFull s ∧ Filled p [s] (some s) q := by
  have hs := hp.interned s
  rw [h] at hs
  cases hs with
  | refused new full =>
    have hnew := newStrings_singleton fun h => new (Array.mem_toList_iff.mp h)
    refine ⟨rfl, .upTo ?_ ?_⟩ <;> simp [hnew, full]

end LocalScopes.StringPool
