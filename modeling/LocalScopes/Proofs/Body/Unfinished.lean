import LocalScopes.Proofs.Body.PoolIndexing
import LocalScopes.Proofs.Body.RoundTrip
import LocalScopes.Proofs.Body.Stall

/-! # Unfinished bodies

A writing that fails leaves a part of a body: of the header only, or the header, the records of some
scopes, but not of all, and a part of the next record (`Unfinished`). The indices in the records
were given by the pool, and resolve in it from then on. So the part reads as truncated, at the
record that is missing (`failed_write_reads_as_truncated`). -/

namespace LocalScopes.Body

open StringPool (Lawful Run)

/-- A part of a body that declares `n` records, with no reference that the pool refuses. -/
inductive Unfinished (pool : Resolver) (n : Nat) : List UInt8 → Prop
  | header {part : List UInt8} (short : part.length < headerSize) : Unfinished pool n part
  | records {done : List Indexed} {part : List UInt8} (resolved : ∀ d ∈ done, d.ResolvesIn pool)
      (fewer : done.length < n) (short : part.length < recordSize) :
      Unfinished pool n (Word.bytes (UInt16.ofNat n) ++
        ((done.flatMap fun d => d.words.flatMap Word.bytes) ++ part))

/-! ### Reading -/

theorem readRecords_short (pool : Resolver) (declared more : Nat) {part : List UInt8}
    (h : part.length < recordSize) (scopes : Array Scope) (events : Array Event) :
    (readRecords pool declared (more + 1) part scopes events).answer =
      .error (.truncated declared scopes.size) := by
  rw [readRecords, Source.take_short h]
  rfl

theorem read_short (pool : Resolver) {part : List UInt8} (h : part.length < headerSize) :
    (read pool part).answer = .error (.truncated 0 0) := by
  rw [read, Source.take_short h]
  rfl

theorem Unfinished.read {pool : Resolver} {n : Nat} {bytes : List UInt8}
    (h : Unfinished pool n bytes) (hn : n ≤ maxCount) :
    (read pool bytes).answer =
      .error (if bytes.length < headerSize then .truncated 0 0
        else .truncated n ((bytes.length - headerSize) / recordSize)) := by
  cases h with
  | header short => rw [read_short pool short, if_pos short]
  | @records done part resolved fewer short =>
    obtain ⟨more, rfl⟩ : ∃ more, n = done.length + (more + 1) := ⟨n - done.length - 1, by omega⟩
    have hlen : (Word.bytes (UInt16.ofNat (done.length + (more + 1))) ++
        ((done.flatMap fun d => d.words.flatMap Word.bytes) ++ part)).length =
          headerSize + (recordSize * done.length + part.length) := by
      rw [List.length_append, List.length_append, length_flatMap_bytes, Word.length_bytes]
      rfl
    have hdecoded : (recordSize * done.length + part.length) / recordSize = done.length := by
      unfold recordSize at short ⊢
      omega
    rw [read_header_append pool hn, readRecords_append _ _ _ done resolved,
      readRecords_short pool _ _ short, hlen, if_neg (by omega), Nat.add_sub_cancel_left, hdecoded]
    simp

/-- **An unfinished body reads as truncated.** -/
theorem Unfinished.readBytes {pool : Resolver} {n : Nat} {bytes : List UInt8}
    (h : Unfinished pool n bytes) (hn : n ≤ maxCount) :
    (readBytes pool bytes).value =
      .error (if bytes.length < headerSize then .truncated 0 0
        else .truncated n ((bytes.length - headerSize) / recordSize)) := by
  change (Body.read pool bytes).answer.map _ = _
  rw [h.read hn]
  rfl

/-! ### Writing -/

section Write
variable {ω : Type} [Sink ω] {written : ω → Array UInt8} (hin : Sink.InOrder written)
include hin

theorem writeRecords_failed {e : WriteError} :
    ∀ (scopes : List Scope) {sink : ω} {p q : StringPool}, Lawful p →
      (writeRecords StringPool.intern scopes sink p).answer = .error e →
      Run (writeRecords StringPool.intern scopes sink p).symbols q →
      ∃ (done : List Indexed) (part : List UInt8), (∀ d ∈ done, d.ResolvesIn q.resolve) ∧
        done.length < scopes.length ∧ part.length < recordSize ∧
        written (writeRecords StringPool.intern scopes sink p).sink = written sink ++
          ((done.flatMap fun d => d.words.flatMap Word.bytes) ++ part).toArray
  | [], _, _, _, _, h, _ => by cases h
  | s :: rest, sink, p, q, hp, h, hr => by
    rcases hs : internScope StringPool.intern s p with ⟨e' | ⟨i, j⟩, y⟩
    · rw [writeRecords_cons_refused hs]
      exact ⟨[], [], by simp, Nat.zero_lt_succ _, by decide, by simp⟩
    · have htook := hin.putAll ((Record.ofScope s i j).words.map Word.bytes) sink
      have hlen : ((Record.ofScope s i j).words.map Word.bytes).flatten.length = recordSize :=
        Record.length_bytes _
      rcases hput : Sink.putAll ((Record.ofScope s i j).words.map Word.bytes) sink with
        ⟨fault | _, after⟩ <;> rw [hput] at htook
      · rw [writeRecords_cons_broken hs hput]
        cases htook with
        | @front _ _ part start short taken =>
          rw [hlen] at short
          exact ⟨[], part, by simp, Nat.zero_lt_succ _, short, by simpa using taken⟩
      · rw [writeRecords_cons_ok hs hput] at h hr ⊢
        cases htook with
        | all taken =>
          obtain ⟨done, part, hres, hfewer, hshort, hwritten⟩ :=
            writeRecords_failed rest (hp.run (run_internScope hs)) h hr
          -- the pool has come from this scope to the end of the writing, and on from there
          have hlater : Run y q := (run_writeRecords rest after y).trans hr
          have hscope : Indexed.ResolvesIn q.resolve ⟨s, i, j⟩ :=
            (leastIn_internScope hp hs).resolvesIn.run hlater
          refine ⟨⟨s, i, j⟩ :: done, part, ?_, Nat.succ_lt_succ hfewer, hshort, ?_⟩
          · intro d hd
            rcases List.mem_cons.mp hd with rfl | hd
            · exact hscope
            · exact hres d hd
          · rw [hwritten, taken]
            simp [Indexed.words, Record.ofScope, Record.words]

/-- **A failed writing leaves an unfinished body.** -/
theorem unfinished_write {p q : StringPool} (hp : Lawful p) {t : Table} (ht : t.size ≤ maxCount)
    {sink : ω} (hempty : written sink = #[]) {e : WriteError}
    (h : (write StringPool.intern t sink p).answer = .error e)
    (hr : Run (write StringPool.intern t sink p).symbols q) :
    Unfinished q.resolve t.size (written (write StringPool.intern t sink p).sink).toList := by
  have htook := hin (Word.bytes (UInt16.ofNat t.size)) sink
  rcases hput : Sink.put (Word.bytes (UInt16.ofNat t.size)) sink with ⟨fault | _, after⟩ <;>
    rw [hput] at htook
  · rw [write_broken ht hput]
    cases htook with
    | @front _ _ part start short taken =>
      have hbytes : (written after).toList = part := by
        rw [taken, hempty]
        simp
      rw [hbytes]
      exact .header short
  · rw [write_eq_writeRecords ht hput] at h hr ⊢
    cases htook with
    | all taken =>
      obtain ⟨done, part, hres, hfewer, hshort, hwritten⟩ :=
        writeRecords_failed hin t.scopes hp h hr
      have hbytes : (written (writeRecords StringPool.intern t.scopes after p).sink).toList =
          Word.bytes (UInt16.ofNat t.size) ++
            ((done.flatMap fun d => d.words.flatMap Word.bytes) ++ part) := by
        rw [hwritten, taken, hempty]
        simp
      rw [hbytes]
      exact .records hres hfewer hshort

/-- **A failed writing is not taken for a table.** Whatever the failure, and wherever it happened,
the bytes that reached the sink read as truncated, with the pool that is left as with any later one:
without a declared number if the header is not whole, and else at the record behind the whole
ones. -/
theorem failed_write_reads_as_truncated {p q : StringPool} (hp : p.Reachable) {t : Table}
    (ht : t.size ≤ maxCount) {sink : ω} (hempty : written sink = #[]) {e : WriteError}
    (h : (write StringPool.intern t sink p).answer = .error e)
    (hr : Run (write StringPool.intern t sink p).symbols q) :
    let bytes := (written (write StringPool.intern t sink p).sink).toList
    (readBytes q.resolve bytes).value =
      .error (if bytes.length < headerSize then .truncated 0 0
        else .truncated t.size ((bytes.length - headerSize) / recordSize)) :=
  (unfinished_write hin hp.lawful ht hempty h hr).readBytes ht

end Write

/-- A stream takes nothing within the second of two records. The first one is whole, and a string
that is interned later does not matter. -/
theorem failed_write_reads_as_truncated_after_stall :
    let p := (StringPool.collect ["n"]).value
    let t : Table := ⟨[⟨0, 4, "n", "I", 1⟩, ⟨2, 65535, "m", "J", 2⟩]⟩
    let plan : Delivery := { chunk := some 3, interrupts := [1], stall := some (15, .silent) }
    let attempt := write StringPool.intern t (sinkOf plan) p
    attempt.answer = .error (.io .nothingWritten) ∧ attempt.sink.written.size = 15 ∧
      (readBytes (StringPool.intern "k" attempt.symbols).2.resolve
        attempt.sink.written.toList).value = .error (.truncated 2 1) := by
  intro p t plan attempt
  have ht : t.size ≤ maxCount := by decide
  have hover : 15 < size (indexScopes StringPool.intern t.scopes p).done.length := by
    simp [p, t, indexScopes, internScope, StringPool.intern, StringPool.ofList_eq,
      StringPool.append, StringPool.capacity, size, headerSize, recordSize]
  obtain ⟨after, -, hfull, hattempt⟩ :=
    exists_write_of_early_stall StringPool.intern p ht (show plan.chunk ≠ some 0 by decide) rfl
      hover
  have hanswer : attempt.answer = .error (.io .nothingWritten) := congrArg Writing.answer hattempt
  have hsize : attempt.sink.written.toList.length = 15 := by
    rw [congrArg Writing.sink hattempt]
    exact hfull
  refine ⟨hanswer, hsize, ?_⟩
  have hread := failed_write_reads_as_truncated PlannedSink.inOrder ⟨p, .collect _, .refl⟩ ht
    (show (sinkOf plan).written = #[] from rfl) hanswer (run_intern "k" attempt.symbols)
  change (readBytes _ attempt.sink.written.toList).value = _ at hread
  rw [hread, hsize]
  rfl

end LocalScopes.Body
