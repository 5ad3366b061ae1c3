import LocalScopes.Scope
import LocalScopes.Symbol

/-! # Layout of a body

A 16-bit word is written as two bytes, the high one first. The body of a local-variable attribute is
a count, followed by that many records. The count is one word; a record is five words: start,
length, index of the name, index of the descriptor, and slot.

* `Word.join_bytes`, `Word.bytes_join`: writing and reading a word are inverse to each other;
* `Record.ofBytes_bytes`: a written record reads back;
* `Record.bytes_ofBytes`: a record that was read is written as the same bytes. -/

namespace LocalScopes

/-! ### Words -/

namespace Word

/-- The two bytes of a word, high byte first. -/
def bytes (w : UInt16) : List UInt8 := [UInt8.ofNat (w.toNat / 256), UInt8.ofNat (w.toNat % 256)]

/-- The word of a high and a low byte. -/
def join (high low : UInt8) : UInt16 := UInt16.ofNat (high.toNat * 256 + low.toNat)

@[simp] theorem length_bytes (w : UInt16) : (bytes w).length = 2 := rfl

theorem toNat_join (high low : UInt8) : (join high low).toNat = high.toNat * 256 + low.toNat := by
  have := high.toNat_lt
  have := low.toNat_lt
  rw [join, UInt16.toNat_ofNat']
  omega

theorem join_bytes (w : UInt16) :
    join (UInt8.ofNat (w.toNat / 256)) (UInt8.ofNat (w.toNat % 256)) = w := by
  have := w.toNat_lt
  rw [← UInt16.toNat_inj, toNat_join, UInt8.toNat_ofNat', UInt8.toNat_ofNat']
  omega

theorem bytes_join (high low : UInt8) : bytes (join high low) = [high, low] := by
  have := high.toNat_lt
  have := low.toNat_lt
  simp only [bytes, toNat_join, List.cons.injEq, and_true, ← UInt8.toNat_inj, UInt8.toNat_ofNat']
  omega

end Word

namespace Body

/-! ### Records -/

/-- Number of bytes before the records. -/
def headerSize : Nat := 2

/-- Number of bytes of one record. -/
def recordSize : Nat := 10

/-- Number of bytes of a body with `count` records. -/
def size (count : Nat) : Nat := headerSize + recordSize * count

/-- The largest number of records that a body declares. -/
def maxCount : Nat := 65535

/-- One record of a body: a scope whose name and descriptor are given by index. -/
structure Record where
  start : UInt16
  length : UInt16
  nameIndex : UInt16
  descriptorIndex : UInt16
  slot : UInt16
deriving DecidableEq, Repr

namespace Record

/-- The words of a record, in the order in which they are written. -/
def words (r : Record) : List UInt16 :=
  [r.start, r.length, r.nameIndex, r.descriptorIndex, r.slot]

/-- The bytes of a record. -/
def bytes (r : Record) : List UInt8 := r.words.flatMap Word.bytes

/-- The record that ten bytes hold. -/
def ofBytes (b : Vector UInt8 recordSize) : Record where
  start := Word.join b[0] b[1]
  length := Word.join b[2] b[3]
  nameIndex := Word.join b[4] b[5]
  descriptorIndex := Word.join b[6] b[7]
  slot := Word.join b[8] b[9]

/-- The record of a scope whose symbols have the given indices. -/
def ofScope (s : Scope) (nameIndex descriptorIndex : UInt16) : Record :=
  ⟨s.start, s.length, nameIndex, descriptorIndex, s.slot⟩

/-- The scope of a record. A record that cannot be resolved is answered with the index that failed;
the name is looked at before the descriptor. -/
def resolve (pool : Resolver) (r : Record) : Except (UInt16 × SymbolError) Scope :=
  match pool r.nameIndex with
  | .error cause => .error (r.nameIndex, cause)
  | .ok name =>
    match pool r.descriptorIndex with
    | .error cause => .error (r.descriptorIndex, cause)
    | .ok descriptor => .ok ⟨r.start, r.length, name, descriptor, r.slot⟩

/-! ### Bytes of a record -/

@[simp] theorem length_bytes (r : Record) : r.bytes.length = recordSize := rfl

@[simp] theorem length_flatMap_bytes : ∀ records : List Record,
    (records.flatMap bytes).length = recordSize * records.length
  | [] => rfl
  | r :: rest => by
    rw [List.flatMap_cons, List.length_append, length_bytes, length_flatMap_bytes rest,
      List.length_cons, Nat.mul_succ, Nat.add_comm]

theorem ofBytes_bytes (r : Record) : ofBytes ⟨r.bytes.toArray, rfl⟩ = r := by
  simp only [ofBytes, bytes, words, Word.bytes, List.flatMap_cons, List.flatMap_nil,
    List.cons_append, List.nil_append, Vector.getElem_mk, List.getElem_toArray,
    List.getElem_cons_succ, List.getElem_cons_zero, Word.join_bytes]

theorem bytes_ofBytes (b : Vector UInt8 recordSize) : (ofBytes b).bytes = b.toList := by
  obtain ⟨⟨l⟩, h⟩ := b
  match l, h with
  | [b₀, b₁, b₂, b₃, b₄, b₅, b₆, b₇, b₈, b₉], _ =>
    simp [ofBytes, bytes, words, Word.bytes_join]

end Record

end Body

end LocalScopes
