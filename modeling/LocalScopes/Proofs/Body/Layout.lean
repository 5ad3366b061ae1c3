import Mathlib.Tactic.ByContra
import LocalScopes.Body.Reader

/-! # Places in a body

The words and records of a body by position, apart from any reading: the word at place `k` is made
of the bytes `k` and `k + 1`, and record `i` starts behind the header and `i` records. A record is
there just if all of its bytes are (`recordAt_eq_none_iff`), and what stands at a place depends on
no byte behind it (`recordAt_congr`).

Against a pool a record either describes a scope (`Record.Describes`) or has a reference that the
pool refuses (`Record.BadReference`), of which the name comes first. -/

namespace LocalScopes.Body

theorem size_succ (i : Nat) : size (i + 1) = size i + recordSize := by
  unfold size
  rw [Nat.mul_succ, Nat.add_assoc]

theorem size_le_size {i j : Nat} (h : i ≤ j) : size i ≤ size j := by
  simp only [size, recordSize]
  omega

theorem lt_of_size_lt {i j : Nat} (h : size i < size j) : i < j := by
  by_contra hle
  have := size_le_size (Nat.le_of_not_lt hle)
  omega

/-! ### Words and records by position -/

/-- The word that starts at byte `k`. -/
def wordAt (b : List UInt8) (k : Nat) : Option UInt16 :=
  match b[k]?, b[k + 1]? with
  | some high, some low => some (Word.join high low)
  | _, _ => none

/-- Record `i`, its fields in the order of the layout. -/
def recordAt (b : List UInt8) (i : Nat) : Option Record := do
  let start ← wordAt b (size i)
  let length ← wordAt b (size i + 2)
  let nameIndex ← wordAt b (size i + 4)
  let descriptorIndex ← wordAt b (size i + 6)
  let slot ← wordAt b (size i + 8)
  return ⟨start, length, nameIndex, descriptorIndex, slot⟩

theorem wordAt_of_lt {b : List UInt8} {k : Nat} (h : k + 1 < b.length) :
    wordAt b k = some (Word.join b[k] b[k + 1]) := by
  simp [wordAt, h, Nat.lt_of_succ_lt h]

theorem wordAt_eq_none_iff {b : List UInt8} {k : Nat} : wordAt b k = none ↔ b.length < k + 2 := by
  constructor
  · intro h
    by_contra hlt
    rw [wordAt_of_lt (by omega)] at h
    cases h
  · intro h
    unfold wordAt
    rw [List.getElem?_eq_none (show b.length ≤ k + 1 by omega)]
    cases b[k]? <;> rfl

theorem wordAt_congr {b d : List UInt8} {m k : Nat} (h : ∀ j < m, b[j]? = d[j]?) (hk : k + 2 ≤ m) :
    wordAt b k = wordAt d k := by
  unfold wordAt
  rw [h k (by omega), h (k + 1) (by omega)]

theorem recordAt_congr {b d : List UInt8} {m i : Nat} (h : ∀ j < m, b[j]? = d[j]?)
    (hi : size (i + 1) ≤ m) : recordAt b i = recordAt d i := by
  rw [size_succ, recordSize] at hi
  unfold recordAt
  rw [wordAt_congr h (by omega), wordAt_congr h (by omega), wordAt_congr h (by omega),
    wordAt_congr h (by omega), wordAt_congr h (by omega)]

theorem recordAt_eq_none {b : List UInt8} {i : Nat} (h : b.length < size (i + 1)) :
    recordAt b i = none := by
  rw [size_succ, recordSize] at h
  have hslot : wordAt b (size i + 8) = none := wordAt_eq_none_iff.mpr (by omega)
  simp [recordAt, hslot]

theorem le_length_of_recordAt {b : List UInt8} {i : Nat} {r : Record} (h : recordAt b i = some r) :
    size (i + 1) ≤ b.length := by
  by_contra hlt
  rw [recordAt_eq_none (Nat.lt_of_not_le hlt)] at h
  cases h

theorem recordAt_eq_ofBytes {b : List UInt8} {i : Nat} {part : Vector UInt8 recordSize}
    (h : part.toList = (b.drop (size i)).take recordSize) :
    recordAt b i = some (Record.ofBytes part) := by
  have hlen : size i + recordSize ≤ b.length := by
    have := congrArg List.length h
    simp only [Vector.length_toList, List.length_take, List.length_drop] at this
    unfold recordSize at this ⊢
    omega
  obtain ⟨⟨l⟩, hl⟩ := part
  obtain rfl : l = _ := h
  rw [recordSize] at hlen
  unfold recordAt
  rw [wordAt_of_lt (by omega), wordAt_of_lt (by omega), wordAt_of_lt (by omega),
    wordAt_of_lt (by omega), wordAt_of_lt (by omega)]
  simp [Record.ofBytes]

theorem wordAt_zero_eq_join {b : List UInt8} {part : Vector UInt8 headerSize}
    (h : part.toList = b.take headerSize) : wordAt b 0 = some (Word.join part[0] part[1]) := by
  have hlen : headerSize ≤ b.length := by
    have := congrArg List.length h
    simp only [Vector.length_toList, List.length_take] at this
    omega
  obtain ⟨⟨l⟩, hl⟩ := part
  obtain rfl : l = _ := h
  rw [headerSize] at hlen
  rw [wordAt_of_lt (by omega)]
  simp

theorem exists_recordAt {b : List UInt8} {i : Nat} (h : size (i + 1) ≤ b.length) :
    ∃ r, recordAt b i = some r ∧ r.bytes = (b.drop (size i)).take recordSize := by
  rw [size_succ] at h
  have hpart : ((b.drop (size i)).take recordSize).toArray.size = recordSize := by
    rw [List.size_toArray, List.length_take, List.length_drop]
    omega
  exact ⟨_, recordAt_eq_ofBytes (show Vector.toList ⟨_, hpart⟩ = _ from rfl),
    Record.bytes_ofBytes _⟩

theorem recordAt_eq_none_iff {b : List UInt8} {i : Nat} :
    recordAt b i = none ↔ b.length < size (i + 1) := by
  refine ⟨fun h => ?_, recordAt_eq_none⟩
  by_contra hle
  obtain ⟨r, hr, -⟩ := exists_recordAt (Nat.le_of_not_lt hle)
  cases h.symm.trans hr

/-! ### Records and scopes -/

namespace Record

/-- The pool gives the record's indices the names of the scope, and the rest is the same. -/
structure Describes (pool : Resolver) (r : Record) (s : Scope) : Prop where
  start : s.start = r.start
  length : s.length = r.length
  name : pool r.nameIndex = .ok s.name
  descriptor : pool r.descriptorIndex = .ok s.descriptor
  slot : s.slot = r.slot

/-- The first of the record's two indices that the pool refuses, and why. -/
inductive BadReference (pool : Resolver) (r : Record) : UInt16 → SymbolError → Prop
  | name {cause : SymbolError} (refused : pool r.nameIndex = .error cause) :
      BadReference pool r r.nameIndex cause
  | descriptor {name : String} {cause : SymbolError} (resolved : pool r.nameIndex = .ok name)
      (refused : pool r.descriptorIndex = .error cause) :
      BadReference pool r r.descriptorIndex cause

theorem resolve_eq_ok_iff {pool : Resolver} {r : Record} {s : Scope} :
    r.resolve pool = .ok s ↔ r.Describes pool s := by
  unfold resolve
  constructor
  · intro h
    split at h
    · cases h
    · split at h
      · cases h
      · cases h
        exact ⟨rfl, rfl, ‹_›, ‹_›, rfl⟩
  · rintro ⟨h1, h2, h3, h4, h5⟩
    simp [h3, h4, ← h1, ← h2, ← h5]

theorem resolve_eq_error_iff {pool : Resolver} {r : Record} {index : UInt16}
    {cause : SymbolError} :
    r.resolve pool = .error (index, cause) ↔ r.BadReference pool index cause := by
  unfold resolve
  constructor
  · intro h
    split at h
    · cases h
      exact .name ‹_›
    · split at h
      · cases h
        exact .descriptor ‹_› ‹_›
      · cases h
  · rintro (h | ⟨hn, hd⟩)
    · simp [h]
    · simp [hn, hd]

end Record

end LocalScopes.Body
