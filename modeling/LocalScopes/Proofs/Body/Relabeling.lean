import LocalScopes.Proofs.Body.Correspondence

/-! # Bodies with other indices

The declared records that a body has in full (`recordsOf`) lie one behind the other, between the
header and the bytes that are left (`eq_layout`). `relabel` replaces both indices of each of them,
and nothing else: the header, the length and the other records stay (`recordAt_relabel`). Reading
takes a body and its relabeled one the same way, against any two pools that reply alike to the
indices that the records mention (`relabeling_commutes`). So what a pool replies to other indices
makes no difference (`readBytes_congr`). -/

namespace LocalScopes.Body

/-- Number of records that a body declares. Without a header it declares none. -/
def declared (b : List UInt8) : Nat := ((wordAt b 0).map UInt16.toNat).getD 0

/-- The declared records that are there in full. -/
def recordsOf (b : List UInt8) : List Record := (List.range (declared b)).filterMap (recordAt b)

/-- The indices that these records mention. -/
def references (b : List UInt8) : List UInt16 :=
  (recordsOf b).flatMap fun record => [record.nameIndex, record.descriptorIndex]

/-- The body with other indices in these records. -/
def relabel (r : UInt16 → UInt16) (b : List UInt8) : List UInt8 :=
  b.take headerSize ++ ((recordsOf b).map (Record.relabel r)).flatMap Record.bytes ++
    b.drop (size (recordsOf b).length)

theorem declared_of_header {b : List UInt8} {n : Nat}
    (h : (wordAt b 0).map UInt16.toNat = some n) : declared b = n := by
  rw [declared, h, Option.getD_some]

/-! ### Records one behind the other -/

theorem bytes_of_recordAt {b : List UInt8} {i : Nat} {record : Record}
    (h : recordAt b i = some record) : b.drop (size i) = record.bytes ++ b.drop (size (i + 1)) := by
  obtain ⟨record', hsame, hbytes⟩ := exists_recordAt (le_length_of_recordAt h)
  obtain rfl := Option.some.inj (h.symm.trans hsame)
  rw [hbytes, size_succ, ← List.drop_drop]
  exact (List.take_append_drop recordSize _).symm

theorem drop_eq_bytes {b : List UInt8} : ∀ (records : List Record) {i : Nat},
    (∀ j (hj : j < records.length), recordAt b (i + j) = some records[j]) →
      b.drop (size i) = records.flatMap Record.bytes ++ b.drop (size (i + records.length))
  | [], _, _ => rfl
  | record :: rest, i, h => by
    have hfirst : recordAt b i = some record := h 0 (Nat.succ_pos _)
    have hrest : ∀ j (hj : j < rest.length), recordAt b (i + 1 + j) = some rest[j] := by
      intro j hj
      rw [Nat.add_assoc, Nat.add_comm 1 j]
      exact h (j + 1) (Nat.succ_lt_succ hj)
    rw [bytes_of_recordAt hfirst, drop_eq_bytes rest hrest, List.flatMap_cons, List.append_assoc,
      List.length_cons, Nat.add_assoc, Nat.add_comm 1]

theorem drop_flatMap_bytes : ∀ (records : List Record) (i : Nat),
    (records.flatMap Record.bytes).drop (recordSize * i) = (records.drop i).flatMap Record.bytes
  | [], i => by simp
  | _, 0 => rfl
  | record :: rest, i + 1 => by
    rw [List.flatMap_cons, Nat.mul_succ, Nat.add_comm, ← List.drop_drop,
      List.drop_left' (Record.length_bytes record), drop_flatMap_bytes rest i, List.drop_succ_cons]

theorem recordAt_layout {head : List UInt8} (hhead : head.length = headerSize)
    (records : List Record) (tail : List UInt8) {i : Nat} (hi : i < records.length) :
    recordAt (head ++ records.flatMap Record.bytes ++ tail) i = some records[i] := by
  have hle : recordSize * i ≤ (records.flatMap Record.bytes).length := by
    rw [Record.length_flatMap_bytes]
    exact Nat.mul_le_mul_left recordSize (Nat.le_of_lt hi)
  have hdrop : (head ++ records.flatMap Record.bytes ++ tail).drop (size i) =
      records[i].bytes ++ ((records.drop (i + 1)).flatMap Record.bytes ++ tail) := by
    rw [size, List.append_assoc, ← List.drop_drop, List.drop_left' hhead,
      List.drop_append_of_le_length hle, drop_flatMap_bytes, List.drop_eq_getElem_cons hi,
      List.flatMap_cons, List.append_assoc]
  have hpart : (⟨records[i].bytes.toArray, rfl⟩ : Vector UInt8 recordSize).toList =
      ((head ++ records.flatMap Record.bytes ++ tail).drop (size i)).take recordSize := by
    rw [hdrop, List.take_left' (Record.length_bytes records[i])]
    rfl
  rw [recordAt_eq_ofBytes hpart, Record.ofBytes_bytes]

/-! ### The records of a body -/

/-- Positions up to the first one that is missing. -/
theorem getElem?_filterMap_range {α : Type} : ∀ (n : Nat) {f : Nat → Option α},
    (∀ i, f i = none → f (i + 1) = none) → ∀ i < n, ((List.range n).filterMap f)[i]? = f i
  | n + 1, f, h, i, hi => by
    rw [List.range_succ_eq_map, List.filterMap_cons, List.filterMap_map]
    rcases hf : f 0 with _ | a
    · have hnone : ∀ j, f j = none := fun j => by
        induction j with
        | zero => exact hf
        | succ j ih => exact h j ih
      have hnil : (List.range n).filterMap (f ∘ Nat.succ) = [] :=
        List.filterMap_eq_nil_iff.mpr fun j _ => hnone (j + 1)
      rw [hnone i]
      exact congrArg (·[i]?) hnil
    · cases i with
      | zero => exact hf.symm
      | succ i =>
        exact getElem?_filterMap_range n (fun j hj => h (j + 1) hj) i (Nat.lt_of_succ_lt_succ hi)

theorem getElem?_recordsOf {b : List UInt8} {i : Nat} (hi : i < declared b) :
    (recordsOf b)[i]? = recordAt b i := by
  refine getElem?_filterMap_range (declared b) (fun j hj => ?_) i hi
  have hshort := recordAt_eq_none_iff.mp hj
  exact recordAt_eq_none (Nat.lt_of_lt_of_le hshort (size_le_size (Nat.le_succ (j + 1))))

theorem mem_recordsOf {b : List UInt8} {record : Record} :
    record ∈ recordsOf b ↔ ∃ i < declared b, recordAt b i = some record := by
  simp only [recordsOf, List.mem_filterMap, List.mem_range]

theorem length_recordsOf_le (b : List UInt8) : (recordsOf b).length ≤ declared b := by
  have := List.length_filterMap_le (recordAt b) (List.range (declared b))
  rwa [List.length_range] at this

theorem recordAt_of_lt {b : List UInt8} {i : Nat} (hi : i < (recordsOf b).length) :
    recordAt b i = some (recordsOf b)[i] := by
  rw [← getElem?_recordsOf (Nat.lt_of_lt_of_le hi (length_recordsOf_le b)),
    List.getElem?_eq_getElem hi]

/-- **A body is a header, its records and what is left.** -/
theorem eq_layout (b : List UInt8) :
    b = b.take headerSize ++ (recordsOf b).flatMap Record.bytes ++
      b.drop (size (recordsOf b).length) := by
  have hdrop := drop_eq_bytes (b := b) (recordsOf b) (i := 0) fun j hj => by
    rw [Nat.zero_add]
    exact recordAt_of_lt hj
  rw [Nat.zero_add] at hdrop
  rw [List.append_assoc, ← hdrop]
  exact (List.take_append_drop headerSize b).symm

theorem length_header {b : List UInt8} (h : 0 < declared b) :
    (b.take headerSize).length = headerSize := by
  have hle : ¬ b.length < headerSize := fun hshort => by
    rw [declared, wordAt_eq_none_iff.mpr hshort] at h
    exact Nat.lt_irrefl 0 h
  rw [List.length_take]
  exact Nat.min_eq_left (Nat.le_of_not_lt hle)

/-! ### The relabeled body -/

section Relabel
variable {r : UInt16 → UInt16} {b : List UInt8}

@[simp] theorem length_relabel : (relabel r b).length = b.length := by
  conv_rhs => rw [eq_layout b]
  simp only [relabel, List.length_append, Record.length_flatMap_bytes, List.length_map]

theorem wordAt_relabel : wordAt (relabel r b) 0 = wordAt b 0 := by
  rcases Nat.lt_or_ge b.length headerSize with hshort | hthere
  · rw [wordAt_eq_none_iff.mpr hshort, wordAt_eq_none_iff.mpr (length_relabel.symm ▸ hshort)]
  · refine wordAt_congr (m := headerSize) (fun j hj => ?_) (Nat.le_refl _)
    have hlt : j < (b.take headerSize).length := by
      rw [List.length_take]
      omega
    rw [relabel, List.append_assoc, List.getElem?_append_left hlt, List.getElem?_take_of_lt hj]

/-- **A declared record of the relabeled body** is the record of the body with other indices. -/
theorem recordAt_relabel {i : Nat} (hi : i < declared b) :
    recordAt (relabel r b) i = (recordAt b i).map (Record.relabel r) := by
  rcases Nat.lt_or_ge i (recordsOf b).length with hlt | hge
  · have hmap : i < ((recordsOf b).map (Record.relabel r)).length := by rwa [List.length_map]
    rw [relabel, recordAt_layout (length_header (Nat.zero_lt_of_lt hi)) _ _ hmap,
      List.getElem_map, recordAt_of_lt hlt, Option.map_some]
  · have hnone : recordAt b i = none := by
      rw [← getElem?_recordsOf hi, List.getElem?_eq_none hge]
    have hshort := recordAt_eq_none_iff.mp hnone
    rw [hnone, recordAt_eq_none (length_relabel.symm ▸ hshort), Option.map_none]

theorem declared_relabel : declared (relabel r b) = declared b := by
  rw [declared, wordAt_relabel, declared]

theorem recordsOf_relabel : recordsOf (relabel r b) = (recordsOf b).map (Record.relabel r) := by
  rw [recordsOf, declared_relabel, recordsOf, List.map_filterMap]
  exact List.filterMap_congr fun i hi => recordAt_relabel (List.mem_range.mp hi)

theorem references_relabel : references (relabel r b) = (references b).map r := by
  rw [references, recordsOf_relabel, references, List.flatMap_map, List.map_flatMap]
  rfl

theorem mem_references {i : UInt16} : i ∈ references b ↔
    ∃ record ∈ recordsOf b, i = record.nameIndex ∨ i = record.descriptorIndex := by
  simp only [references, List.mem_flatMap, List.mem_cons, List.not_mem_nil, or_false]

theorem name_mem_references {record : Record} (h : record ∈ recordsOf b) :
    record.nameIndex ∈ references b :=
  mem_references.mpr ⟨record, h, .inl rfl⟩

theorem descriptor_mem_references {record : Record} (h : record ∈ recordsOf b) :
    record.descriptorIndex ∈ references b :=
  mem_references.mpr ⟨record, h, .inr rfl⟩

theorem relabel_eq_self_iff : relabel r b = b ↔ ∀ i ∈ references b, r i = i := by
  constructor
  · intro hsame i hi
    obtain ⟨record, hmem, hi⟩ := mem_references.mp hi
    obtain ⟨k, hk, hrecord⟩ := mem_recordsOf.mp hmem
    have hrelabel := recordAt_relabel (r := r) hk
    rw [hsame, hrecord, Option.map_some] at hrelabel
    have hfields := Option.some.inj hrelabel
    rcases hi with rfl | rfl
    · exact (congrArg Record.nameIndex hfields).symm
    · exact (congrArg Record.descriptorIndex hfields).symm
  · intro hsame
    have hmap : (recordsOf b).map (Record.relabel r) = recordsOf b := by
      refine (List.map_congr_left fun record hmem => ?_).trans (List.map_id _)
      rw [Record.relabel, hsame _ (name_mem_references hmem),
        hsame _ (descriptor_mem_references hmem)]
      rfl
    rw [relabel, hmap]
    exact (eq_layout b).symm

end Relabel

/-! ### Reading -/

/-- What a pool replies to indices that no record mentions makes no difference. -/
theorem readBytes_congr {pool other : Resolver} {b : List UInt8}
    (h : ∀ i ∈ references b, pool i = other i) :
    (readBytes pool b).value = (readBytes other b).value := by
  refine (readBytes_eq_of_outcome ((outcome_readBytes pool b).congr rfl ?_)).symm
  intro n header i hi
  unfold resolveAt
  cases hrecord : recordAt b i with
  | none => rfl
  | some record =>
    have hmem := mem_recordsOf.mpr ⟨i, (declared_of_header header).symm ▸ hi, hrecord⟩
    simp only [Option.map_some, Record.resolve, h _ (name_mem_references hmem),
      h _ (descriptor_mem_references hmem)]

theorem corresponds_relabel {pool other : Resolver} {r : UInt16 → UInt16} {b : List UInt8}
    (h : ∀ i ∈ references b, SameReply (pool i) (other (r i))) :
    Corresponds r (readBytes pool b).value (readBytes other (relabel r b)).value := by
  refine corresponds_readBytes length_relabel.symm wordAt_relabel.symm fun n header i hi => ?_
  rw [← declared_of_header header] at hi
  rw [resolveAt, resolveAt, recordAt_relabel hi]
  cases hrecord : recordAt b i with
  | none => exact .none
  | some record =>
    have hmem := mem_recordsOf.mpr ⟨i, hi, hrecord⟩
    exact .some (Record.sameScope_relabel (h _ (name_mem_references hmem))
      (h _ (descriptor_mem_references hmem)))

/-- **Relabeling commutes with reading.** Whatever map takes the indices of a body to others, and
whatever two pools reply alike to the indices that its records mention and to those that stand in
their place, the body and the relabeled one have corresponding answers: one table and one number of
bytes, or one truncation, or a bad reference each, with the index of the second one in the place of
the first. Where the map changes nothing, the pools read one body, and pools with one reply to each
of the indices that the records mention read it alike. -/
theorem relabeling_commutes (b : List UInt8) :
    (∀ (pool other : Resolver) (r : UInt16 → UInt16),
      (∀ i ∈ references b, SameReply (pool i) (other (r i))) →
        Corresponds r (readBytes pool b).value (readBytes other (relabel r b)).value) ∧
    relabel id b = b ∧
    ∀ pool other : Resolver, (∀ i ∈ references b, pool i = other i) →
      (readBytes pool b).value = (readBytes other b).value :=
  ⟨fun _ _ _ h => corresponds_relabel h, relabel_eq_self_iff.mpr fun _ _ => rfl,
    fun _ _ h => readBytes_congr h⟩

/-- Two indices become one, the bad index of the second record becomes another bad one, and the byte
behind the records stays. -/
theorem relabeling_commutes_of_joined_indices :
    let pool : Resolver := fun i => if i = 1 ∨ i = 2 then .ok "I" else .error (.noEntry i)
    let other : Resolver := fun i => if i = 5 then .ok "I" else .error (.refused "null")
    let r : UInt16 → UInt16 := fun i => if i = 9 then 0 else 5
    let b : List UInt8 :=
      [0, 2, 0, 0, 0, 4, 0, 1, 0, 2, 0, 1, 0, 0, 0, 4, 0, 2, 0, 9, 0, 2, 7]
    relabel r b = [0, 2, 0, 0, 0, 4, 0, 5, 0, 5, 0, 1, 0, 0, 0, 4, 0, 5, 0, 0, 0, 2, 7] ∧
      (readBytes pool b).value = .error (.unresolved 9 (.noEntry 9)) ∧
      ∃ cause, (readBytes other (relabel r b)).value = .error (.unresolved 0 cause) := by
  intro pool other r b
  have hreached : Reaches pool b 2 1 := by
    refine ⟨rfl, by decide, fun j hj => ?_⟩
    obtain rfl := Nat.lt_one_iff.mp hj
    exact ⟨⟨0, 4, "I", "I", 1⟩, ⟨0, 4, 1, 2, 1⟩, rfl, rfl, rfl, rfl, rfl, rfl⟩
  have hread : (readBytes pool b).value = .error (.unresolved 9 (.noEntry 9)) :=
    readBytes_eq_of_outcome (.stopped hreached
      (.bad (r := ⟨0, 4, 2, 9, 2⟩) rfl (.descriptor (show pool 2 = .ok "I" from rfl) rfl)))
  have hreply : ∀ i ∈ references b, SameReply (pool i) (other (r i)) := by
    rw [show references b = [1, 2, 2, 9] from rfl]
    intro i hi
    simp only [List.mem_cons, List.not_mem_nil, or_false] at hi
    rcases hi with rfl | rfl | rfl | rfl
    · exact .string "I"
    · exact .string "I"
    · exact .string "I"
    · exact .refused _ _
  refine ⟨by decide, hread, ?_⟩
  have hcorr := (relabeling_commutes b).1 pool other r hreply
  rw [hread] at hcorr
  generalize (readBytes other (relabel r b)).value = answer at hcorr ⊢
  cases hcorr with
  | unresolved index cause cause' => exact ⟨cause', rfl⟩

end LocalScopes.Body
