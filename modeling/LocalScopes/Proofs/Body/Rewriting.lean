import LocalScopes.Proofs.Body.PoolIndexing
import LocalScopes.Proofs.Body.Relabeling

/-! # Bodies written again

A table that was read from a body with a string pool is written back with this pool
(`rewriting_takes_first_indices`). The pool holds all the symbols, so it stays as it is and the
writing succeeds even if the pool is full. What is written is the body with the first index of the
same string in place of each index (`HoldsTable.relabel_eq_bodyIn`). Such a body reads as the same
table, and first indices stay as they are, so written once more it is the same. -/

namespace LocalScopes.Body

open StringPool (Lawful)

/-! ### A body that holds a table -/

/-- The body declares as many records as the table has scopes, and each describes its scope. -/
structure HoldsTable (pool : Resolver) (b : List UInt8) (t : Table) : Prop where
  header : (wordAt b 0).map UInt16.toNat = some t.size
  records : ∀ i s, t.scopes[i]? = some s → HoldsAt pool b i s

theorem take_of_wordAt {w : UInt16} : ∀ {b : List UInt8}, wordAt b 0 = some w →
    b.take headerSize = Word.bytes w
  | high :: low :: _, h => by
    obtain rfl : Word.join high low = w := Option.some.inj h
    exact (Word.bytes_join high low).symm

theorem readBytes_eq_ok_iff {pool : Resolver} {b : List UInt8} {t : Table} {consumed : Nat} :
    (readBytes pool b).value = .ok (t, consumed) ↔
      HoldsTable pool b t ∧ consumed = size t.size := by
  constructor
  · intro h
    have hout := outcome_readBytes pool b
    rw [h] at hout
    cases hout with
    | @complete n scopes header length records =>
      obtain rfl := length
      exact ⟨⟨header, records⟩, rfl⟩
  · rintro ⟨⟨header, records⟩, rfl⟩
    exact readBytes_eq_of_outcome (.complete header rfl records)

namespace HoldsTable
variable {pool : Resolver} {b : List UInt8} {t : Table} (h : HoldsTable pool b t)
include h

theorem size_le : t.size ≤ maxCount := by
  obtain ⟨w, -, hw⟩ := Option.map_eq_some_iff.mp h.header
  rw [← hw]
  exact Nat.le_of_lt_succ w.toNat_lt

theorem size_le_length : size t.size ≤ b.length := by
  rcases hsize : t.size with _ | n
  · by_contra hshort
    exact header_ne_some (Nat.lt_of_not_le hshort) h.header
  · have hlast : n < t.scopes.length := Nat.le_of_eq hsize.symm
    obtain ⟨record, hrecord, -⟩ := h.records n _ (List.getElem?_eq_getElem hlast)
    exact le_length_of_recordAt hrecord

theorem take : HoldsTable pool (b.take (size t.size)) t := by
  have hsame : ∀ j < size t.size, b[j]? = (b.take (size t.size))[j]? := fun j hj =>
    (List.getElem?_take_of_lt hj).symm
  constructor
  · rw [← wordAt_congr hsame (size_le_size (Nat.zero_le _))]
    exact h.header
  · intro i s hi
    have hlt : i < t.size := (List.getElem?_eq_some_iff.mp hi).1
    rw [holdsAt_iff, ← resolveAt_congr hsame (size_le_size hlt), ← holdsAt_iff]
    exact h.records i s hi

theorem take_header : b.take headerSize = Word.bytes (UInt16.ofNat t.size) := by
  obtain ⟨w, hw, hsize⟩ := Option.map_eq_some_iff.mp h.header
  rw [← hsize, UInt16.ofNat_toNat]
  exact take_of_wordAt hw

end HoldsTable

/-! ### First indices in a body -/

section Pool
variable {p : StringPool} {b : List UInt8} {t : Table}

theorem Record.Describes.relabel_firstIndex {record : Record} {s : Scope}
    (h : record.Describes p.resolve s) : record.relabel p.firstIndex = .indexedBy p s := by
  rw [Record.relabel, StringPool.firstIndex_of_resolve h.name,
    StringPool.firstIndex_of_resolve h.descriptor, ← h.start, ← h.length, ← h.slot]
  rfl

theorem HoldsTable.map_relabel (h : HoldsTable p.resolve b t) :
    (recordsOf b).map (Record.relabel p.firstIndex) = t.scopes.map (Record.indexedBy p) := by
  have hdeclared : declared b = t.size := declared_of_header h.header
  apply List.ext_getElem?
  intro i
  rw [List.getElem?_map, List.getElem?_map]
  rcases Nat.lt_or_ge i t.scopes.length with hlt | hge
  · have hs := List.getElem?_eq_getElem hlt
    obtain ⟨record, hrecord, hdescribes⟩ := h.records i _ hs
    rw [getElem?_recordsOf (hdeclared.symm ▸ hlt), hrecord, hs, Option.map_some, Option.map_some,
      hdescribes.relabel_firstIndex]
  · have hle : (recordsOf b).length ≤ i :=
      Nat.le_trans (length_recordsOf_le b) (hdeclared.symm ▸ hge)
    rw [List.getElem?_eq_none hle, List.getElem?_eq_none hge]
    rfl

/-- **A body with first indices** is the number of scopes and the records that writing them makes,
when there is nothing behind it. -/
theorem HoldsTable.relabel_eq_bodyIn (h : HoldsTable p.resolve b t)
    (hlength : b.length = size t.size) : relabel p.firstIndex b = bodyIn p t.size t.scopes := by
  have hmap := h.map_relabel
  have hcount : (recordsOf b).length = t.size := by
    have := congrArg List.length hmap
    rwa [List.length_map, List.length_map] at this
  rw [relabel, hmap, h.take_header, hcount, List.drop_eq_nil_of_le (Nat.le_of_eq hlength),
    List.append_nil, List.flatMap_map, bodyIn]

theorem HoldsTable.mem_entries (hp : Lawful p) (h : HoldsTable p.resolve b t) :
    ∀ s ∈ t.scopes, s.name ∈ p.entries ∧ s.descriptor ∈ p.entries := by
  intro s hs
  obtain ⟨i, hi⟩ := List.mem_iff_getElem?.mp hs
  obtain ⟨record, -, hdescribes⟩ := h.records i s hi
  exact ⟨hp.mem_entries_iff.mpr ⟨_, StringPool.resolve_eq_ok_iff.mp hdescribes.name⟩,
    hp.mem_entries_iff.mpr ⟨_, StringPool.resolve_eq_ok_iff.mp hdescribes.descriptor⟩⟩

theorem HoldsTable.resolve_references (h : HoldsTable p.resolve b t) :
    ∀ i ∈ references b, ∃ a, p.resolve i = .ok a := by
  intro i hi
  obtain ⟨record, hmem, hi⟩ := mem_references.mp hi
  obtain ⟨k, hk, hrecord⟩ := mem_recordsOf.mp hmem
  rw [declared_of_header h.header] at hk
  obtain ⟨record', hrecord', hdescribes⟩ := h.records k _ (List.getElem?_eq_getElem hk)
  obtain rfl := Option.some.inj (hrecord.symm.trans hrecord')
  rcases hi with rfl | rfl
  · exact ⟨_, hdescribes.name⟩
  · exact ⟨_, hdescribes.descriptor⟩

theorem readBytes_relabel_firstIndex (hp : Lawful p) {consumed : Nat}
    (h : (readBytes p.resolve b).value = .ok (t, consumed)) :
    (readBytes p.resolve (relabel p.firstIndex b)).value = .ok (t, consumed) := by
  have hcorr : Corresponds p.firstIndex (readBytes p.resolve b).value
      (readBytes p.resolve (relabel p.firstIndex b)).value :=
    corresponds_relabel fun i _ => by
      rw [hp.resolve_firstIndex i]
      exact .refl _
  rw [h] at hcorr
  generalize (readBytes p.resolve (relabel p.firstIndex b)).value = answer at hcorr ⊢
  cases hcorr
  rfl

theorem relabel_firstIndex_again (hp : Lawful p) :
    relabel p.firstIndex (relabel p.firstIndex b) = relabel p.firstIndex b := by
  refine relabel_eq_self_iff.mpr fun i hi => ?_
  rw [references_relabel] at hi
  obtain ⟨j, -, rfl⟩ := List.mem_map.mp hi
  exact hp.firstIndex_firstIndex j

end Pool

/-! ### Writing -/

section FaultFree
variable {ω : Type} [Sink ω] {good : ω → Prop} {written : ω → Array UInt8}

/-- **A body that was read is written again with first indices.** Writing the table that a pool of
strings made of a body succeeds with this pool, leaves the pool as it is, and writes as many bytes
as the body took. They are the bytes of the body with the first index of the same string in place of
each index that its records mention, so they are the same bytes just if these indices are all first
ones. They read as the same table, and stay as they are when this table is written once more. -/
theorem rewriting_takes_first_indices (hfree : Sink.FaultFree good written) {p : StringPool}
    (hp : p.Reachable) {b : List UInt8} {t : Table} {consumed : Nat}
    (h : (readBytes p.resolve b).value = .ok (t, consumed)) {sink : ω} (hs : good sink) :
    let w := write StringPool.intern t sink p
    let taken := b.take consumed
    let body := relabel p.firstIndex taken
    w.answer = .ok () ∧ w.symbols = p ∧ written w.sink = written sink ++ body.toArray ∧
    taken.length = consumed ∧ body.length = consumed ∧
    (∀ i ∈ references taken, ∃ a, p.resolve i = .ok a ∧ p.IsLeastIndex a (p.firstIndex i)) ∧
    (body = taken ↔ ∀ i ∈ references taken, p.firstIndex i = i) ∧
    (readBytes w.symbols.resolve body).value = .ok (t, consumed) ∧
    relabel w.symbols.firstIndex body = body ∧
    ∀ again : ω, good again →
      let w' := write StringPool.intern t again w.symbols
      w'.answer = .ok () ∧ w'.symbols = p ∧ written w'.sink = written again ++ body.toArray := by
  intro w taken body
  have hlawful := hp.lawful
  obtain ⟨hall, rfl⟩ := readBytes_eq_ok_iff.mp h
  have hholds : HoldsTable p.resolve taken t := hall.take
  have hlength : taken.length = size t.size := by
    rw [List.length_take]
    exact Nat.min_eq_left hall.size_le_length
  -- the table is written alike each time, for the pool stays as it is
  have hwrite : ∀ out : ω, good out → (write StringPool.intern t out p).answer = .ok () ∧
      (write StringPool.intern t out p).symbols = p ∧
      written (write StringPool.intern t out p).sink = written out ++ body.toArray := by
    intro out hout
    have hknown := write_of_known hfree hlawful hholds.size_le (hholds.mem_entries hlawful) hout
    rwa [← hholds.relabel_eq_bodyIn hlength] at hknown
  have hread := readBytes_relabel_firstIndex hlawful (readBytes_eq_ok_iff.mpr ⟨hholds, rfl⟩)
  obtain ⟨hanswer, hsymbols, hwritten⟩ := hwrite sink hs
  refine ⟨hanswer, hsymbols, hwritten, hlength, length_relabel.trans hlength, fun i hi => ?_,
    relabel_eq_self_iff, ?_, ?_, ?_⟩
  · obtain ⟨a, ha⟩ := hholds.resolve_references i hi
    exact ⟨a, ha, hlawful.isLeastIndex_firstIndex ha⟩
  · rw [show w.symbols = p from hsymbols]
    exact hread
  · rw [show w.symbols = p from hsymbols]
    exact relabel_firstIndex_again hlawful
  · rw [show w.symbols = p from hsymbols]
    exact hwrite

end FaultFree

/-- The pool holds the name of the scope twice, and the body mentions the later index. -/
theorem rewriting_takes_first_indices_of_duplicates :
    let p := (StringPool.collect ["n", "I", "n"]).value
    let t : Table := ⟨[⟨0, 4, "n", "I", 1⟩]⟩
    let b : List UInt8 := [0, 1, 0, 0, 0, 4, 0, 3, 0, 2, 0, 1, 7]
    let w := write StringPool.intern t (#[] : Array UInt8) p
    (readBytes p.resolve b).value = .ok (t, 12) ∧ w.answer = .ok () ∧ w.symbols = p ∧
      w.sink.toList = [0, 1, 0, 0, 0, 4, 0, 1, 0, 2, 0, 1] ∧
      w.sink.toList ≠ b.take 12 := by
  intro p t b w
  have hread : (readBytes p.resolve b).value = .ok (t, 12) := by
    refine readBytes_eq_ok_iff.mpr ⟨⟨rfl, fun i s hi => ?_⟩, rfl⟩
    match i with
    | 0 =>
      obtain rfl : ⟨0, 4, "n", "I", 1⟩ = s := Option.some.inj hi
      exact ⟨⟨0, 4, 3, 2, 1⟩, rfl, rfl, rfl, rfl, rfl, rfl⟩
    | _ + 1 => cases hi
  obtain ⟨hanswer, hsymbols, hwritten, -⟩ := @rewriting_takes_first_indices _ _ _ _
    Sink.faultFree_array p ⟨p, .collect _, .refl⟩ b t 12 hread #[] trivial
  have hbody : relabel p.firstIndex (b.take 12) = [0, 1, 0, 0, 0, 4, 0, 1, 0, 2, 0, 1] := by
    decide
  have hlist : w.sink.toList = [0, 1, 0, 0, 0, 4, 0, 1, 0, 2, 0, 1] := by
    rw [hbody, id_eq, id_eq, Array.empty_append] at hwritten
    rw [hwritten]
  refine ⟨hread, hanswer, hsymbols, hlist, ?_⟩
  rw [hlist]
  decide

end LocalScopes.Body
