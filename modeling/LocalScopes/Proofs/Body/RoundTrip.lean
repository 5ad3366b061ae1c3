import LocalScopes.Body.Reader
import LocalScopes.Proofs.Body.Indexing

/-! # Bodies read back

The body of indexed scopes reads as the scopes, in any pool that gives their indices their symbols
(`read_bodyOf`), and what is behind the body stays in the source. So a table that was written reads
back in any pool that agrees with the calls made for it (`write_then_read`). -/

namespace LocalScopes.Body

/-! ### Reading -/

theorem take_record_append (d : Indexed) (rest : List UInt8) :
    Source.take recordSize (d.words.flatMap Word.bytes ++ rest) =
      (.ok ⟨d.record.bytes.toArray, rfl⟩, rest) :=
  Source.take_append (Record.length_bytes d.record) rest

theorem take_header_append (w : UInt16) (rest : List UInt8) :
    Source.take headerSize (Word.bytes w ++ rest) = (.ok ⟨(Word.bytes w).toArray, rfl⟩, rest) :=
  Source.take_append (Word.length_bytes w) rest

theorem join_header (w : UInt16) :
    Word.join (⟨(Word.bytes w).toArray, rfl⟩ : Vector UInt8 headerSize)[0]
      (⟨(Word.bytes w).toArray, rfl⟩ : Vector UInt8 headerSize)[1] = w :=
  Word.join_bytes w

theorem readRecords_append {pool : Resolver} (declared more : Nat) (tail : List UInt8) :
    ∀ (done : List Indexed), (∀ d ∈ done, d.ResolvesIn pool) →
      ∀ (scopes : Array Scope) (events : Array Event),
        readRecords pool declared (done.length + more)
            ((done.flatMap fun d => d.words.flatMap Word.bytes) ++ tail) scopes events =
          readRecords pool declared more tail (scopes ++ (done.map Indexed.scope).toArray)
            (events ++ (done.map fun d => Event.scopeRead d.scope).toArray)
  | [], _, scopes, events => by simp
  | d :: done, h, scopes, events => by
    have hd := (h d (by simp)).resolve_record
    have ih := readRecords_append declared more tail done
      fun d' hd' => h d' (List.mem_cons_of_mem d hd')
    rw [List.flatMap_cons, List.append_assoc, List.length_cons, Nat.add_right_comm, readRecords,
      take_record_append]
    simp only [Record.ofBytes_bytes, hd, ih]
    simp

theorem read_header_append (pool : Resolver) {n : Nat} (hn : n ≤ maxCount) (rest : List UInt8) :
    read pool (Word.bytes (UInt16.ofNat n) ++ rest) =
      readRecords pool n n rest #[] #[.reading (UInt16.ofNat n)] := by
  have hnat : (UInt16.ofNat n).toNat = n := UInt16.toNat_ofNat_of_lt' (Nat.lt_succ_of_le hn)
  rw [read, take_header_append]
  simp only [join_header, hnat]

/-- **A body reads back**, and leaves what is behind it. -/
theorem read_bodyOf {pool : Resolver} {done : List Indexed} (hlen : done.length ≤ maxCount)
    (h : ∀ d ∈ done, d.ResolvesIn pool) (tail : List UInt8) :
    read pool (bodyOf done ++ tail) =
      ⟨.ok ⟨done.map Indexed.scope⟩, tail, #[.reading (UInt16.ofNat done.length)] ++
        (done.map fun d => Event.scopeRead d.scope).toArray⟩ := by
  have hrecords := readRecords_append done.length 0 tail done h #[]
    #[.reading (UInt16.ofNat done.length)]
  rw [Nat.add_zero] at hrecords
  rw [bodyOf, List.append_assoc, read_header_append pool hlen, hrecords, readRecords]
  simp

theorem readBytes_bodyOf {pool : Resolver} {done : List Indexed} (hlen : done.length ≤ maxCount)
    (h : ∀ d ∈ done, d.ResolvesIn pool) (tail : List UInt8) :
    (readBytes pool (bodyOf done ++ tail)).value =
      .ok (⟨done.map Indexed.scope⟩, size done.length) := by
  unfold readBytes
  simp only [read_bodyOf hlen h tail, Except.map, List.length_append, length_bodyOf,
    Nat.add_sub_cancel]

/-! ### Writing and reading -/

/-- **A table that was written reads back.** A success to a sink without faults writes the count
and the five words of each scope in table order, the indices being those that the interner gave when
it was asked for the name and then the descriptor. In a pool that agrees with these calls the bytes
read as the table, whatever is behind them. -/
theorem write_then_read {ω σ : Type} [Sink ω] {good : ω → Prop} {written : ω → Array UInt8}
    (hfree : Sink.FaultFree good written) (intern : Interner σ) (t : Table) (out : ω) (symbols : σ)
    (hout : good out) (h : (write intern t out symbols).answer = .ok ()) :
    t.size ≤ maxCount ∧ ∃ done : List Indexed, done.map Indexed.scope = t.scopes ∧
      callsOf intern t out symbols = done.flatMap Indexed.calls ∧
      ∃ body : List UInt8,
        written (write intern t out symbols).sink = written out ++ body.toArray ∧
        body = Word.bytes (UInt16.ofNat t.size) ++
          done.flatMap (fun d => d.words.flatMap Word.bytes) ∧
        body.length = size t.size ∧
        ∀ pool : Resolver, (∀ c ∈ callsOf intern t out symbols, c.AgreesWith pool) →
          ∀ tail, (readBytes pool (body ++ tail)).value = .ok (t, size t.size) := by
  obtain ⟨done, hdone, hcalls, hwritten⟩ := exists_indexed_of_write hfree hout h
  have hsize := size_le_of_write h
  have hlen := length_eq_size hdone
  refine ⟨hsize, done, hdone, hcalls, bodyOf done, hwritten, ?_, ?_, fun pool hpool tail => ?_⟩
  · rw [bodyOf, hlen]
  · rw [length_bodyOf, hlen]
  · have hresolved : ∀ d ∈ done, d.ResolvesIn pool := by
      intro d hd
      refine Indexed.resolvesIn_of_calls fun c hc => hpool c ?_
      rw [hcalls]
      exact List.mem_flatMap.mpr ⟨d, hd, hc⟩
    rw [readBytes_bodyOf (by omega) hresolved tail, hdone, hlen]

/-- An interner that numbers its calls gives one symbol several indices, and a sink takes three
bytes at a time and is interrupted once; the table reads back. -/
theorem write_then_read_of_numbers :
    let intern : Interner UInt16 := fun _ n => (.ok n, n + 1)
    let pool : Resolver := fun i => .ok (if i % 2 = 0 then "n" else "I")
    let t : Table := ⟨[⟨0, 4, "n", "I", 1⟩, ⟨2, 65535, "n", "I", 2⟩]⟩
    let out : PlannedSink := { plan := { chunk := some 3, interrupts := [1], stall := none } }
    (write intern t out 4).answer = .ok () ∧
      (∀ c ∈ callsOf intern t out 4, c.AgreesWith pool) ∧
      (readBytes pool ((write intern t out 4).sink.written.toList ++ [7])).value = .ok (t, 22) := by
  intro intern pool t out
  have hout : out.plan.Steady := ⟨rfl, by simp [out]⟩
  have hok : (write intern t out 4).answer = .ok () :=
    (congrArg Writing.answer (write_faultFree PlannedSink.faultFree intern t 4 hout)).symm.trans rfl
  have hcalls : ∀ c ∈ callsOf intern t out 4, c.AgreesWith pool := by
    have hc : callsOf intern t out 4 =
        [⟨"n", .ok 4⟩, ⟨"I", .ok 5⟩, ⟨"n", .ok 6⟩, ⟨"I", .ok 7⟩] :=
      (congrArg (fun w => w.symbols.2)
        (write_faultFree PlannedSink.faultFree intern.recorded t (4, []) hout)).symm.trans rfl
    intro c hmem i hi
    rw [hc] at hmem
    simp only [List.mem_cons, List.not_mem_nil, or_false] at hmem
    rcases hmem with rfl | rfl | rfl | rfl <;> cases hi <;> rfl
  obtain ⟨-, done, -, -, body, hwritten, -, -, hread⟩ :=
    write_then_read PlannedSink.faultFree intern t out 4 hout hok
  refine ⟨hok, hcalls, ?_⟩
  rw [hwritten, show (out.written ++ body.toArray).toList = body by simp [out]]
  exact hread pool hcalls [7]

end LocalScopes.Body
