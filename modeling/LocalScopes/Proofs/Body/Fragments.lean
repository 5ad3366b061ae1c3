import LocalScopes.Proofs.Body.PoolIndexing
import LocalScopes.Proofs.Body.RoundTrip

/-! # Fragments of a table

Two tables that are written one after the other with one string pool ask it for the same symbols in
the same order as the table that joins them, so each symbol gets the same index either way, and a
refusal comes at the same symbol. The body of the joined table is the sum of the two counts and then
the records of both (`bodyOf_append`).

* `write_faultFree_indexScopes`: what a writing without faults comes to, by the indices of the
  symbols;
* `indexScopes_append_ok_iff`: the symbols of two tables, one behind the other;
* `fragments_make_the_whole`: two fragments and the whole. -/

namespace LocalScopes.Body

/-! ### Bodies of both -/

theorem drop_bodyOf (done : List Indexed) :
    (bodyOf done).drop headerSize = done.flatMap fun d => d.words.flatMap Word.bytes :=
  List.drop_left' (Word.length_bytes _)

theorem bodyOf_append (front back : List Indexed) :
    bodyOf (front ++ back) = Word.bytes (UInt16.ofNat (front.length + back.length)) ++
      (bodyOf front).drop headerSize ++ (bodyOf back).drop headerSize := by
  rw [drop_bodyOf, drop_bodyOf, bodyOf, List.length_append, List.flatMap_append, List.append_assoc]

/-! ### Symbols of both -/

section Append
variable {σ : Type} {intern : Interner σ} {front back : List Scope} {x : σ}

theorem indexScopes_append_ok_iff :
    (indexScopes intern (front ++ back) x).answer = .ok () ↔
      (indexScopes intern front x).answer = .ok () ∧
        (indexScopes intern back (indexScopes intern front x).symbols).answer = .ok () := by
  rcases hfront : (indexScopes intern front x).answer with e | _
  · rw [indexScopes_append_of_error back front x hfront, hfront]
    simp
  · rw [indexScopes_append_of_ok back front x hfront]
    simp

end Append

/-! ### Reading both -/

theorem readBytes_bodyOf_table {pool : Resolver} {t : Table} (ht : t.size ≤ maxCount)
    {done : List Indexed} (hdone : done.map Indexed.scope = t.scopes)
    (h : ∀ d ∈ done, d.ResolvesIn pool) :
    (readBytes pool (bodyOf done)).value = .ok (t, size t.size) := by
  have hlen := length_eq_size hdone
  have hread := readBytes_bodyOf (by omega) h []
  rwa [List.append_nil, hdone, hlen] at hread

section Reading
variable {p : StringPool} {a b : Table}

/-- **Bodies of fragments**: the pool that the second table leaves reads each table from its own
body, and both from the body of both. -/
theorem readBytes_fragments (hp : p.Lawful) (hsize : a.size + b.size ≤ maxCount) :
    let first := indexScopes StringPool.intern a.scopes p
    let second := indexScopes StringPool.intern b.scopes first.symbols
    first.answer = .ok () → second.answer = .ok () →
      (readBytes second.symbols.resolve (bodyOf first.done)).value = .ok (a, size a.size) ∧
      (readBytes second.symbols.resolve (bodyOf second.done)).value = .ok (b, size b.size) ∧
      (readBytes second.symbols.resolve (bodyOf (first.done ++ second.done))).value =
        .ok (a ++ b, size (a.size + b.size)) := by
  intro first second hokA hokB
  have hdoneA : first.done.map Indexed.scope = a.scopes := indexScopes_done_of_ok _ _ p hokA
  have hdoneB : second.done.map Indexed.scope = b.scopes := indexScopes_done_of_ok _ _ _ hokB
  -- the indices of the first table still have their symbols in the later pool
  have hlater : StringPool.Run first.symbols second.symbols := run_indexScopes b.scopes _
  have hresA : ∀ d ∈ first.done, d.ResolvesIn second.symbols.resolve := fun d hd =>
    (resolvesIn_indexScopes a.scopes hp d hd).run hlater
  have hresB : ∀ d ∈ second.done, d.ResolvesIn second.symbols.resolve :=
    resolvesIn_indexScopes b.scopes (hp.run (run_indexScopes a.scopes p))
  have hboth : ∀ d ∈ first.done ++ second.done, d.ResolvesIn second.symbols.resolve := fun d hd =>
    (List.mem_append.mp hd).elim (hresA d) (hresB d)
  refine ⟨readBytes_bodyOf_table (by omega) hdoneA hresA,
    readBytes_bodyOf_table (by omega) hdoneB hresB, ?_⟩
  rw [← Table.size_append] at hsize ⊢
  refine readBytes_bodyOf_table hsize ?_ hboth
  rw [List.map_append, hdoneA, hdoneB, Table.scopes_append]

end Reading

/-! ### Writing both -/

section FaultFree
variable {ω σ : Type} [Sink ω] {good : ω → Prop} {written : ω → Array UInt8}

/-- **Writing without faults**: the answer, the bytes and the interner are those of the symbols. -/
theorem write_faultFree_indexScopes (hfree : Sink.FaultFree good written) (intern : Interner σ)
    {t : Table} (ht : t.size ≤ maxCount) {sink : ω} (hs : good sink) (x : σ) :
    (write intern t sink x).answer = (indexScopes intern t.scopes x).answer ∧
      (write intern t sink x).symbols = (indexScopes intern t.scopes x).symbols ∧
      ((indexScopes intern t.scopes x).answer = .ok () →
        written (write intern t sink x).sink =
          written sink ++ (bodyOf (indexScopes intern t.scopes x).done).toArray) := by
  obtain ⟨hanswer, hsymbols, hwritten⟩ := write_faultFree_records hfree intern ht hs x
  refine ⟨hanswer, hsymbols, fun hok => ?_⟩
  rw [bodyOf, length_eq_size (indexScopes_done_of_ok intern t.scopes x hok)]
  exact hwritten

/-- **Fragments make the whole.** A table that joins two others is written just if the first of them
is, and then the second with the pool that the first left. Its body is then the sum of their counts
and the records of the first and of the second, the pool is the one that the second left, and with
this pool the three bodies read as the three tables. A symbol that is refused in one of the two is
refused in the joined table, and leaves it the same pool. -/
theorem fragments_make_the_whole (hfree : Sink.FaultFree good written) {p : StringPool}
    (hp : p.Reachable) {a b : Table} (hsize : a.size + b.size ≤ maxCount) (oa ob om : ω)
    (ha : good oa) (hb : good ob) (hm : good om) :
    let first := write StringPool.intern a oa p
    let second := write StringPool.intern b ob first.symbols
    let whole := write StringPool.intern (a.join b).value om p
    (whole.answer = .ok () ↔ first.answer = .ok () ∧ second.answer = .ok ()) ∧
    (first.answer = .ok () → second.answer = .ok () → ∃ bytesA bytesB bytes : List UInt8,
      written first.sink = written oa ++ bytesA.toArray ∧
      written second.sink = written ob ++ bytesB.toArray ∧
      written whole.sink = written om ++ bytes.toArray ∧
      bytes = Word.bytes (UInt16.ofNat (a.size + b.size)) ++ bytesA.drop 2 ++ bytesB.drop 2 ∧
      whole.symbols = second.symbols ∧
      (readBytes second.symbols.resolve bytesA).value = .ok (a, size a.size) ∧
      (readBytes second.symbols.resolve bytesB).value = .ok (b, size b.size) ∧
      (readBytes second.symbols.resolve bytes).value =
        .ok ((a.join b).value, size (a.size + b.size))) ∧
    (∀ s cause, first.answer = .error (.unindexed s cause) →
      whole.answer = .error (.unindexed s cause) ∧ whole.symbols = first.symbols) ∧
    ∀ s cause, first.answer = .ok () → second.answer = .error (.unindexed s cause) →
      whole.answer = .error (.unindexed s cause) ∧ whole.symbols = second.symbols := by
  intro first second whole
  have hjoin : (a.join b).value.size ≤ maxCount := by
    rw [Table.value_join, Table.size_append]
    exact hsize
  -- what the three writings come to, by the symbols of each
  obtain ⟨hfirst, hleft, hbytesA⟩ : first.answer = _ ∧ first.symbols = _ ∧
      (_ → written first.sink = _) :=
    write_faultFree_indexScopes hfree StringPool.intern (show a.size ≤ maxCount by omega) ha p
  obtain ⟨hsecond, hlast, hbytesB⟩ : second.answer = _ ∧ second.symbols = _ ∧
      (_ → written second.sink = _) :=
    write_faultFree_indexScopes hfree StringPool.intern (show b.size ≤ maxCount by omega) hb
      first.symbols
  obtain ⟨hwhole, hend, hbytes⟩ : whole.answer = _ ∧ whole.symbols = _ ∧
      (_ → written whole.sink = _) :=
    write_faultFree_indexScopes hfree StringPool.intern hjoin hm p
  rw [Table.value_join, Table.scopes_append] at hwhole hend hbytes
  rw [hleft] at hsecond hlast hbytesB
  refine ⟨?_, fun hokA hokB => ?_, fun s cause hA => ?_, fun s cause hokA hB => ?_⟩
  · rw [hwhole, hfirst, hsecond]
    exact indexScopes_append_ok_iff
  · rw [hfirst] at hokA
    rw [hsecond] at hokB
    obtain ⟨hreadA, hreadB, hread⟩ := readBytes_fragments hp.lawful hsize hokA hokB
    have hlenA := length_eq_size (indexScopes_done_of_ok StringPool.intern a.scopes p hokA)
    have hlenB := length_eq_size (indexScopes_done_of_ok StringPool.intern b.scopes _ hokB)
    rw [indexScopes_append_of_ok b.scopes a.scopes p hokA] at hbytes hend
    rw [← hlast] at hreadA hreadB hread
    refine ⟨_, _, _, hbytesA hokA, hbytesB hokB, hbytes hokB, ?_, hend.trans hlast.symm, hreadA,
      hreadB, hread⟩
    rw [bodyOf_append, hlenA, hlenB]
    rfl
  · rw [hfirst] at hA
    have hstop := indexScopes_append_of_error b.scopes a.scopes p hA
    rw [hwhole, hend, hstop, hleft]
    exact ⟨hA, rfl⟩
  · rw [hfirst] at hokA
    rw [hsecond] at hB
    have hboth := indexScopes_append_of_ok b.scopes a.scopes p hokA
    rw [hwhole, hend, hboth, hlast]
    exact ⟨hB, rfl⟩

end FaultFree

/-- The second fragment refers to a name of the first, and the pool holds duplicates; and a full pool
refuses a name of the second fragment. -/
theorem fragments_make_the_whole_of_shared_names :
    let out : Array UInt8 := #[]
    let p := (StringPool.collect ["I", "I"]).value
    let full := (StringPool.collect (List.replicate 65535 "I")).value
    let a : Table := ⟨[⟨0, 4, "n", "I", 1⟩]⟩
    let b : Table := ⟨[⟨2, 6, "m", "n", 2⟩]⟩
    let c : Table := ⟨[⟨0, 4, "I", "I", 1⟩]⟩
    let whole := write StringPool.intern (a.join b).value out p
    whole.answer = .ok () ∧ whole.symbols.entries.toList = ["I", "I", "n", "m"] ∧
      (readBytes whole.symbols.resolve whole.sink.toList).value =
        .ok (⟨[⟨0, 4, "n", "I", 1⟩, ⟨2, 6, "m", "n", 2⟩]⟩, 22) ∧
      (write StringPool.intern (c.join b).value out full).answer =
        .error (.unindexed "m" (.poolFull "m")) := by
  intro out p full a b c whole
  obtain ⟨hiff, hbytes, -⟩ := fragments_make_the_whole Sink.faultFree_array (p := p)
    ⟨p, .collect _, .refl⟩ (show a.size + b.size ≤ maxCount by decide) out out out trivial
    trivial trivial
  have hfirst : (write StringPool.intern a out p).answer = .ok () := by
    simp [p, a, write, writeRecords, internScope, StringPool.intern, StringPool.ofList_eq,
      StringPool.append, StringPool.capacity, Table.size, maxCount]
  have hsecond : (write StringPool.intern b out (write StringPool.intern a out p).symbols).answer =
      .ok () := by
    simp [p, a, b, write, writeRecords, internScope, StringPool.intern, StringPool.ofList_eq,
      StringPool.append, StringPool.capacity, Table.size, maxCount]
  have hentries : (write StringPool.intern b out
      (write StringPool.intern a out p).symbols).symbols.entries.toList = ["I", "I", "n", "m"] := by
    simp [p, a, b, write, writeRecords, internScope, StringPool.intern, StringPool.ofList_eq,
      StringPool.append, StringPool.capacity, Table.size, maxCount]
  obtain ⟨bytesA, bytesB, bytes, -, -, hsink, -, hsymbols, -, -, hread⟩ := hbytes hfirst hsecond
  rw [← hsymbols] at hentries hread
  have hwhole : whole.sink.toList = bytes := by
    have hsame : whole.sink = out ++ bytes.toArray := hsink
    simp [hsame, out]
  refine ⟨hiff.mpr ⟨hfirst, hsecond⟩, hentries, by rw [hwhole]; exact hread, ?_⟩
  -- a full pool knows the symbols of the first fragment only
  have hrefused : ∀ q : StringPool, q.Reachable → q.size = StringPool.capacity → "I" ∈ q.entries →
      "m" ∉ q.entries →
      (write StringPool.intern (c.join b).value out q).answer =
        .error (.unindexed "m" (.poolFull "m")) := by
    intro q hq hfull hI hm
    have hnone := hq.lawful.getElem?_indices_eq_none.mpr hm
    have hmiss := StringPool.intern_full hnone (Nat.le_of_eq hfull.symm)
    obtain ⟨i, hi⟩ : ∃ i, q.indices["I"]? = some i := by
      refine Option.ne_none_iff_exists'.mp fun h => ?_
      exact hq.lawful.getElem?_indices_eq_none.mp h hI
    have hknown := StringPool.intern_of_get? hi
    have hanswer : (write StringPool.intern c out q).answer = .ok () := by
      simp [c, write, writeRecords, internScope, hknown, Table.size, maxCount]
    have hleft : (write StringPool.intern c out q).symbols = q := by
      simp [c, write, writeRecords, internScope, hknown, Table.size, maxCount]
    obtain ⟨-, -, -, hstop⟩ := fragments_make_the_whole Sink.faultFree_array hq
      (show c.size + b.size ≤ maxCount by decide) out out out trivial trivial trivial
    refine (hstop "m" (.poolFull "m") hanswer ?_).1
    rw [hleft]
    simp [b, write, writeRecords, internScope, hmiss, Table.size, maxCount]
  have hlist : full.entries.toList = List.replicate 65535 "I" := by
    have hentries := StringPool.entries_ofList (List.replicate 65535 "I")
    rw [List.take_replicate, StringPool.capacity, Nat.min_self] at hentries
    simpa only [full, StringPool.value_collect] using hentries
  refine hrefused full ⟨full, .collect _, .refl⟩ ?_ ?_ ?_
  · rw [StringPool.size, ← Array.length_toList, hlist, List.length_replicate]
    rfl
  · rw [← Array.mem_toList_iff, hlist]
    exact List.mem_replicate.mpr ⟨by decide, rfl⟩
  · rw [← Array.mem_toList_iff, hlist]
    exact fun h => absurd (List.eq_of_mem_replicate h) (by decide)

end LocalScopes.Body
