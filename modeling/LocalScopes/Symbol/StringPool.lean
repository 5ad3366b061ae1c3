import Std.Data.HashMap
import LocalScopes.Event

/-! # String pools

A pool of strings numbered from 1 on; the last index is the largest 16-bit word, and index 0 is
never valid. The entries are kept in order, together with the index that a string is interned to.
A pool made from a list keeps duplicates, each on an index of its own, as a class file may; an
interned string takes the least index that holds it.

* `StringPool.fill_eq`, `StringPool.entries_ofList`: a list fills the pool up to its last index;
* `StringPool.events_collect`: what is said of the strings behind it;
* `StringPool.intern_of_get?`, `StringPool.intern_full`, `StringPool.intern_new`: the three outcomes
  of interning. -/

namespace LocalScopes

/-- Strings by index, the one at position `i` with index `i + 1`, and the index that each string is
interned to. -/
structure StringPool where
  entries : Array String
  indices : Std.HashMap String UInt16

namespace StringPool

/-- The number of indices that a pool has, which is also the last of them. -/
def capacity : Nat := 65535

instance : EmptyCollection StringPool := ⟨⟨#[], ∅⟩⟩

/-- Number of entries. -/
def size (p : StringPool) : Nat := p.entries.size

/-- The pool holds no entry. -/
def isEmpty (p : StringPool) : Bool := p.entries.isEmpty

/-- The string at an index, if the pool has one there. -/
def get? (p : StringPool) (index : UInt16) : Option String :=
  if index = 0 then none else p.entries[index.toNat - 1]?

/-- The pool as the meaning of indices. -/
def resolve (p : StringPool) : Resolver := fun index =>
  match p.get? index with
  | some s => .ok s
  | none => .error (.noEntry index)

/-- The index of the entry behind `size` others. -/
def indexAfter (size : Nat) : UInt16 := UInt16.ofNat (size + 1)

/-- The index of a string; a string that the pool lacks is added at its end. -/
def intern : Interner StringPool := fun s ⟨entries, indices⟩ =>
  match indices[s]? with
  | some index => (.ok index, ⟨entries, indices⟩)
  | none =>
    let index := indexAfter entries.size
    if entries.size < capacity then (.ok index, ⟨entries.push s, indices.insert s index⟩)
    else (.error (.poolFull s), ⟨entries, indices⟩)

/-- The pool with one more entry, whether or not the string has an index already. -/
def append : StringPool → String → StringPool := fun ⟨entries, indices⟩ s =>
  let index := indexAfter entries.size
  ⟨entries.push s, indices.insertIfNew s index⟩

/-- Adds the strings of a list as long as there is an index for the next one; answers with those
that are left. -/
def fill : StringPool → List String → StringPool × List String
  | p, [] => (p, [])
  | p, s :: ss => if p.size < capacity then fill (p.append s) ss else (p, s :: ss)

/-- The pool with the entries of a list, as far as there are indices for them. -/
def ofList (ss : List String) : StringPool := (fill ∅ ss).1

/-- The pool of a list, with a warning about strings that found no index. -/
def collect (ss : List String) : Traced StringPool :=
  match fill ∅ ss with
  | (p, []) => ⟨p, #[]⟩
  | (p, left) => ⟨p, #[.poolExhausted p.size left.length]⟩

/-! ### Entries -/

@[simp] theorem entries_empty : (∅ : StringPool).entries = #[] := rfl

@[simp] theorem size_append (p : StringPool) (s : String) : (p.append s).size = p.size + 1 :=
  Array.size_push _

theorem entries_foldl_append (ss : List String) (p : StringPool) :
    (ss.foldl append p).entries.toList = p.entries.toList ++ ss := by
  induction ss generalizing p with
  | nil => simp
  | cons s ss ih => simp [ih, append]

/-- The strings that are added are the first ones, one for each index that is left. -/
theorem fill_eq (ss : List String) (p : StringPool) :
    fill p ss = ((ss.take (capacity - p.size)).foldl append p, ss.drop (capacity - p.size)) := by
  induction ss generalizing p with
  | nil => simp [fill]
  | cons s ss ih =>
    unfold fill
    split
    · have hnext : capacity - p.size = capacity - (p.append s).size + 1 := by
        rw [size_append]
        omega
      rw [ih, hnext, List.take_succ_cons, List.drop_succ_cons, List.foldl_cons]
    · have hnone : capacity - p.size = 0 := by omega
      rw [hnone, List.take_zero, List.drop_zero, List.foldl_nil]

theorem ofList_eq (ss : List String) : ofList ss = (ss.take capacity).foldl append ∅ := by
  rw [ofList, fill_eq]
  rfl

@[simp] theorem entries_ofList (ss : List String) :
    (ofList ss).entries.toList = ss.take capacity := by
  simpa [ofList_eq] using entries_foldl_append (ss.take capacity) ∅

@[simp] theorem value_collect (ss : List String) : (collect ss).value = ofList ss := by
  unfold collect ofList
  split <;> simp [*]

theorem size_ofList (ss : List String) : (ofList ss).size = min capacity ss.length := by
  have hentries := congrArg List.length (entries_ofList ss)
  rwa [Array.length_toList, List.length_take] at hentries

/-- The warning counts the strings that were kept and those that were left. -/
theorem events_collect (ss : List String) :
    (collect ss).events = if ss.length ≤ capacity then #[]
      else #[.poolExhausted capacity (ss.length - capacity)] := by
  have hleft : (fill ∅ ss).2 = ss.drop capacity := by
    rw [fill_eq]
    rfl
  have hsize : (fill ∅ ss).1.size = min capacity ss.length := size_ofList ss
  unfold collect
  generalize fill ∅ ss = filled at hleft hsize
  obtain ⟨p, left⟩ := filled
  simp only at hleft hsize
  have hlength : left.length = ss.length - capacity := by rw [hleft, List.length_drop]
  cases left with
  | nil =>
    rw [List.length_nil] at hlength
    rw [if_pos (by omega)]
  | cons s left =>
    rw [List.length_cons] at hlength
    have hfull : p.size = capacity := by omega
    rw [if_neg (by omega)]
    simp only [hfull, List.length_cons, hlength]

/-! ### Interning -/

theorem intern_of_get? {p : StringPool} {s : String} {index : UInt16}
    (h : p.indices[s]? = some index) : intern s p = (.ok index, p) := by
  simp [intern, h]

theorem intern_full {p : StringPool} {s : String} (new : p.indices[s]? = none)
    (full : capacity ≤ p.size) : intern s p = (.error (.poolFull s), p) := by
  simp [intern, new, Nat.not_lt.mpr (show capacity ≤ p.entries.size from full)]

theorem intern_new {p : StringPool} {s : String} (new : p.indices[s]? = none)
    (room : p.size < capacity) :
    intern s p =
      (.ok (indexAfter p.size), ⟨p.entries.push s, p.indices.insert s (indexAfter p.size)⟩) := by
  simp [intern, new, show p.entries.size < capacity from room, size]

end StringPool

end LocalScopes
