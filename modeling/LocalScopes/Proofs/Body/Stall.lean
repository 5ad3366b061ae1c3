import LocalScopes.Proofs.Body.Indexing

/-! # Writing to a stream that stalls

Two things may end the writing of a table: the interner refuses a symbol, or the sink fails. The
one that comes first decides (`refusal_or_stall_decides`).

* `lt_started_iff`: if the sink takes `limit` bytes, the scopes whose symbols were asked for are
  those whose record starts within these bytes;
* `write_limited_ok`: if the records up to the first refusal fit, the writing ends as it does
  without a limit;
* `write_limited_error`: otherwise the sink fills up to the limit, and the writing ends in the
  record that the limit falls into. -/

namespace LocalScopes.Body

/-- The number of records that start within `limit` bytes. -/
def started (limit : Nat) : Nat := (limit + recordSize - headerSize) / recordSize

theorem lt_started_iff {i limit : Nat} : i < started limit ↔ size i ≤ limit := by
  simp only [started, size, headerSize, recordSize]
  omega

theorem started_le {k limit : Nat} (h : limit < size k) : started limit ≤ k := by
  by_contra hlt
  have := lt_started_iff.mp (Nat.lt_of_not_le hlt)
  omega

/-! ### Sinks with a limit -/

section Limited
variable {ω σ : Type} [Sink ω] {limit : Nat} {fault : IoFault} {good : ω → Prop}
  {written : ω → Array UInt8} (h : Sink.Limited limit fault good written) (intern : Interner σ)
include h

theorem putRecord_ok (r : Record) {sink : ω} (hs : good sink)
    (fits : (written sink).size + recordSize ≤ limit) :
    ∃ after, good after ∧ written after = written sink ++ r.bytes.toArray ∧
      (written after).size = (written sink).size + recordSize ∧
      Sink.putAll (r.words.map Word.bytes) sink = (.ok (), after) := by
  have hlen : (r.words.map Word.bytes).flatten.length = recordSize := r.length_bytes
  obtain ⟨after, hafter, hwritten, hput⟩ :=
    h.putAll_ok (r.words.map Word.bytes) hs (by rwa [hlen])
  refine ⟨after, hafter, hwritten, ?_, hput⟩
  rw [hwritten, Array.size_append, ← hlen]
  rfl

theorem putRecord_error (r : Record) {sink : ω} (hs : good sink)
    (fits : (written sink).size ≤ limit) (hover : limit < (written sink).size + recordSize) :
    ∃ after, written after =
        written sink ++ (r.bytes.take (limit - (written sink).size)).toArray ∧
      Sink.putAll (r.words.map Word.bytes) sink = (.error fault, after) := by
  have hlen : (r.words.map Word.bytes).flatten.length = recordSize := r.length_bytes
  obtain ⟨after, -, hwritten, hput⟩ :=
    h.putAll_error (r.words.map Word.bytes) hs fits (by rwa [hlen])
  exact ⟨after, hwritten, hput⟩

theorem writeRecords_limited_ok : ∀ (scopes : List Scope) {sink : ω} (x : σ), good sink →
    (written sink).size + recordSize * (indexScopes intern scopes x).done.length ≤ limit →
    ∃ after, written after = written sink ++ ((indexScopes intern scopes x).done.flatMap fun d =>
        d.words.flatMap Word.bytes).toArray ∧
      writeRecords intern scopes sink x =
        ⟨(indexScopes intern scopes x).answer, after, (indexScopes intern scopes x).symbols⟩
  | [], sink, x, _, _ => ⟨sink, by simp [indexScopes], rfl⟩
  | s :: rest, sink, x, hs, fits => by
    rcases hi : internScope intern s x with ⟨e | ⟨i, j⟩, y⟩
    · rw [indexScopes_cons_error hi]
      exact ⟨sink, by simp, writeRecords_cons_refused hi⟩
    · rw [indexScopes_cons_ok hi] at fits ⊢
      rw [List.length_cons, Nat.mul_succ] at fits
      obtain ⟨mid, hmid, hpart, hsize, hput⟩ := putRecord_ok h (.ofScope s i j) hs (by omega)
      obtain ⟨after, hafter, hrest⟩ := writeRecords_limited_ok rest y hmid (by omega)
      refine ⟨after, ?_, (writeRecords_cons_ok hi hput).trans hrest⟩
      rw [List.flatMap_cons, ← Indexed.bytes_record]
      simp [hafter, hpart, Indexed.record]

/-- Record `k` is the first one that does not fit. Its bytes are written up to the limit, and the
symbols of its scope are the last ones that are asked for. -/
theorem writeRecords_limited_error : ∀ (scopes : List Scope) {sink : ω} (x : σ) {k : Nat},
    good sink → k < (indexScopes intern scopes x).done.length →
    (written sink).size + recordSize * k ≤ limit →
    limit < (written sink).size + recordSize * (k + 1) →
    ∃ after, written after = written sink ++ (((indexScopes intern scopes x).done.flatMap fun d =>
        d.words.flatMap Word.bytes).take (limit - (written sink).size)).toArray ∧
      writeRecords intern scopes sink x =
        ⟨.error (.io fault), after, (indexScopes intern (scopes.take (k + 1)) x).symbols⟩
  | [], _, _, _, _, hk, _, _ => absurd hk (Nat.not_lt_zero _)
  | s :: rest, sink, x, k, hs, hk, fits, hover => by
    rcases hi : internScope intern s x with ⟨e | ⟨i, j⟩, y⟩
    · rw [indexScopes_cons_error hi] at hk
      exact absurd hk (Nat.not_lt_zero _)
    · have hlen := (Record.ofScope s i j).length_bytes
      rw [Nat.mul_succ] at hover
      rw [indexScopes_cons_ok hi] at hk ⊢
      rw [List.take_succ_cons, indexScopes_cons_ok hi]
      rw [List.flatMap_cons, ← Indexed.bytes_record, Indexed.record]
      dsimp only at hk ⊢
      -- `k` counts the whole records that still fit
      cases k with
      | zero =>
        obtain ⟨after, hpart, hput⟩ := putRecord_error h (.ofScope s i j) hs fits (by omega)
        refine ⟨after, ?_, writeRecords_cons_broken hi hput⟩
        rw [List.take_append_of_le_length (by omega), hpart]
      | succ k =>
        rw [Nat.mul_succ] at fits hover
        obtain ⟨mid, hmid, hpart, hsize, hput⟩ := putRecord_ok h (.ofScope s i j) hs (by omega)
        obtain ⟨after, hafter, hrest⟩ := writeRecords_limited_error rest y hmid
          (Nat.lt_of_succ_lt_succ hk) (by omega) (by rw [Nat.mul_succ]; omega)
        refine ⟨after, ?_, (writeRecords_cons_ok hi hput).trans hrest⟩
        have hwhole : (Record.ofScope s i j).bytes.take (limit - (written sink).size) =
            (Record.ofScope s i j).bytes := List.take_of_length_le (by omega)
        rw [hafter, hsize, Nat.sub_add_eq, List.take_append, hwhole, hlen]
        simp [hpart]

theorem write_limited_ok {t : Table} (ht : t.size ≤ maxCount) {sink : ω} (x : σ) (hs : good sink)
    (hempty : written sink = #[])
    (fits : size (indexScopes intern t.scopes x).done.length ≤ limit) :
    write intern t (#[] : Array UInt8) x = (write intern t sink x).map written id := by
  have hsink : (written sink).size = 0 := by rw [hempty]; rfl
  have hhead := Word.length_bytes (UInt16.ofNat t.size)
  unfold size headerSize at fits
  obtain ⟨mid, hmid, hpart, hput⟩ := h.put_ok hs
    (show _ + (Word.bytes (UInt16.ofNat t.size)).length ≤ limit by omega)
  have hsize : (written mid).size = 2 := by rw [hpart, hempty, ← hhead]; simp
  obtain ⟨after, hafter, hrecords⟩ :=
    writeRecords_limited_ok h intern t.scopes x hmid (by omega)
  rw [write_array intern ht, write_eq_writeRecords ht hput, hrecords, Writing.map, hafter, hpart,
    hempty]
  simp

theorem write_limited_error {t : Table} (ht : t.size ≤ maxCount) {sink : ω} (x : σ)
    (hs : good sink) (hempty : written sink = #[])
    (hover : limit < size (indexScopes intern t.scopes x).done.length) :
    ∃ after, (written after).toList =
        (write intern t (#[] : Array UInt8) x).sink.toList.take limit ∧
      write intern t sink x = ⟨.error (.io fault), after,
        (indexScopes intern (t.scopes.take (started limit)) x).symbols⟩ := by
  have hsink : (written sink).size = 0 := by rw [hempty]; rfl
  have hhead := Word.length_bytes (UInt16.ofNat t.size)
  rw [write_array intern ht]
  rcases Nat.lt_or_ge limit headerSize with hlt | hge
  · have hnone : started limit = 0 := by
      have := started_le (show limit < size 0 from hlt)
      omega
    unfold headerSize at hlt
    obtain ⟨after, -, hpart, hput⟩ := h.put_error hs
      (show limit < _ + (Word.bytes (UInt16.ofNat t.size)).length by omega)
    have hfront : limit ≤ (Word.bytes (UInt16.ofNat t.size)).length := by omega
    rw [hnone]
    refine ⟨after, ?_, write_broken ht hput⟩
    rw [hpart, hempty]
    simp [List.take_append_of_le_length hfront]
  · -- the limit falls into record `k`
    obtain ⟨k, hk⟩ : ∃ k, started limit = k + 1 :=
      Nat.exists_eq_succ_of_ne_zero (by
        have := lt_started_iff.mpr (show size 0 ≤ limit from hge)
        omega)
    have hstart : size k ≤ limit := lt_started_iff.mp (by omega)
    have hend : limit < size (k + 1) := Nat.lt_of_not_le fun hle => by
      have := lt_started_iff.mpr hle
      omega
    have hdone := started_le hover
    unfold size headerSize at hstart hend
    obtain ⟨mid, hmid, hpart, hput⟩ := h.put_ok hs
      (show _ + (Word.bytes (UInt16.ofNat t.size)).length ≤ limit by omega)
    have hsize : (written mid).size = 2 := by rw [hpart, hempty, ← hhead]; simp
    obtain ⟨after, hafter, hrecords⟩ := writeRecords_limited_error h intern t.scopes x hmid
      (show k < _ by omega) (by omega) (by omega)
    have hwhole : (Word.bytes (UInt16.ofNat t.size)).take limit = Word.bytes _ :=
      List.take_of_length_le (by omega)
    rw [hk]
    refine ⟨after, ?_, (write_eq_writeRecords ht hput).trans hrecords⟩
    rw [hafter, hsize, hpart, hempty]
    simp [List.take_append, hwhole, hhead]

end Limited

/-! ### Streams with a plan -/

/-- A sink that has taken nothing yet. -/
def sinkOf (plan : Delivery) : PlannedSink := { plan }

section Plan
variable {σ : Type} (intern : Interner σ) {t : Table} {plan : Delivery} (x : σ)

theorem same_of_recorded
    (h : write intern.recorded t (#[] : Array UInt8) (x, []) =
      (write intern.recorded t (sinkOf plan) (x, [])).map PlannedSink.written id) :
    (write intern t (sinkOf plan) x).map PlannedSink.written id =
        write intern t (#[] : Array UInt8) x ∧
      callsOf intern t (sinkOf plan) x = callsOf intern t (#[] : Array UInt8) x := by
  constructor
  · rw [write_recorded intern t (sinkOf plan) x [], write_recorded intern t #[] x [], h]
    rfl
  · unfold callsOf
    rw [h]
    rfl

theorem write_of_steady (hchunk : plan.chunk ≠ some 0) (hstall : plan.stall = none) :
    write intern t (#[] : Array UInt8) x =
      (write intern t (sinkOf plan) x).map PlannedSink.written id :=
  write_faultFree PlannedSink.faultFree intern t x (show (sinkOf plan).plan.Steady from
    ⟨hstall, hchunk⟩)

theorem calls_take {k : Nat}
    (hk : k ≤ (indexScopes intern.recorded t.scopes (x, [])).done.length) :
    (indexScopes intern.recorded (t.scopes.take k) (x, [])).symbols.2 =
      ((indexScopes intern.recorded t.scopes (x, [])).done.take k).flatMap Indexed.calls := by
  obtain ⟨hanswer, hdone⟩ := indexScopes_take intern.recorded t.scopes (x, []) hk
  obtain ⟨calls, hcalls, hasked⟩ := exists_asked intern (t.scopes.take k) (x, [])
  rw [hanswer, hdone] at hasked
  rw [hcalls, hasked.calls_of_ok]
  rfl

/-- A stream that stalls behind the records up to the first refusal. -/
theorem write_of_late_stall (ht : t.size ≤ maxCount) (hchunk : plan.chunk ≠ some 0) {f : Nat}
    {stall : Stall} (hstall : plan.stall = some (f, stall))
    (hf : size (indexScopes intern t.scopes x).done.length ≤ f) :
    write intern t (#[] : Array UInt8) x =
      (write intern t (sinkOf plan) x).map PlannedSink.written id := by
  have hgood : (sinkOf plan).plan = plan ∧ (sinkOf plan).written.size ≤ f := ⟨rfl, Nat.zero_le f⟩
  exact write_limited_ok (PlannedSink.limited hchunk hstall) intern ht x hgood rfl hf

/-- A stream that stalls in front of their end. -/
theorem exists_write_of_early_stall (ht : t.size ≤ maxCount) (hchunk : plan.chunk ≠ some 0)
    {f : Nat} {stall : Stall} (hstall : plan.stall = some (f, stall))
    (hf : f < size (indexScopes intern t.scopes x).done.length) :
    ∃ after, after.written.toList = (write intern t (#[] : Array UInt8) x).sink.toList.take f ∧
      after.written.size = f ∧
      write intern t (sinkOf plan) x = ⟨.error (.io stall.writeFault), after,
        (indexScopes intern (t.scopes.take (started f)) x).symbols⟩ := by
  have hgood : (sinkOf plan).plan = plan ∧ (sinkOf plan).written.size ≤ f := ⟨rfl, Nat.zero_le f⟩
  obtain ⟨after, hafter, hwrite⟩ :=
    write_limited_error (PlannedSink.limited hchunk hstall) intern ht x hgood rfl hf
  refine ⟨after, hafter, ?_, hwrite⟩
  rw [← Array.length_toList, hafter, List.length_take, Array.length_toList,
    size_write_array intern ht]
  exact Nat.min_eq_left (Nat.le_of_lt hf)

theorem write_of_early_stall (ht : t.size ≤ maxCount) (hchunk : plan.chunk ≠ some 0) {f : Nat}
    {stall : Stall} (hstall : plan.stall = some (f, stall))
    (hf : f < size (indexScopes intern.recorded t.scopes (x, [])).done.length) :
    let faulty := write intern t (sinkOf plan) x
    faulty.answer = .error (.io stall.writeFault) ∧
      faulty.sink.written.toList =
        (write intern t (#[] : Array UInt8) x).sink.toList.take f ∧
      faulty.sink.written.size = f ∧
      callsOf intern t (sinkOf plan) x =
        ((indexScopes intern.recorded t.scopes (x, [])).done.take (started f)).flatMap
          Indexed.calls := by
  obtain ⟨after, hafter, hsize, hwrite⟩ :=
    exists_write_of_early_stall intern.recorded (x, []) ht hchunk hstall hf
  rw [write_recorded intern t (sinkOf plan) x [], write_recorded intern t #[] x [], hwrite]
  refine ⟨rfl, hafter, hsize, ?_⟩
  rw [callsOf, hwrite]
  exact calls_take intern x (started_le hf)

/-- **The first of a refusal and a stall decides.** In portions of any positive size, and with any
calls interrupted, writing to a stream comes to the same as writing to an array, and makes the same
calls. This stays so if the stream stalls, but not in front of the end of the `done` scopes, which
are all scopes or those before the first refusal. If it stalls in front of it, the fault of the
stall is answered, the bytes up to the stall are written, and the symbols that were asked for are
those of the scopes whose record starts there or earlier. -/
theorem refusal_or_stall_decides (ht : t.size ≤ maxCount) (hchunk : plan.chunk ≠ some 0) :
    let free := write intern t (#[] : Array UInt8) x
    let faulty := write intern t (sinkOf plan) x
    let freeCalls := callsOf intern t (#[] : Array UInt8) x
    let calls := callsOf intern t (sinkOf plan) x
    let same := faulty.map PlannedSink.written id = free ∧ calls = freeCalls
    ∃ done : List Indexed, Asked t.scopes done freeCalls free.answer ∧
      free.sink.toList = Word.bytes (UInt16.ofNat t.size) ++
        done.flatMap (fun d => d.words.flatMap Word.bytes) ∧
      free.sink.size = size done.length ∧
      (plan.stall = none → same) ∧
      ∀ f stall, plan.stall = some (f, stall) →
        (size done.length ≤ f → same) ∧
        (f < size done.length →
          faulty.answer = .error (.io stall.writeFault) ∧
          faulty.sink.written.toList = free.sink.toList.take f ∧
          faulty.sink.written.size = f ∧
          ∃ k, (∀ i, i < k ↔ size i ≤ f) ∧ calls = (done.take k).flatMap Indexed.calls) ∧
        (f < headerSize → calls = []) := by
  intro free faulty freeCalls calls same
  obtain ⟨hasked, hsink⟩ := write_array_asked intern ht #[] x
  have hbytes : free.sink.toList = Word.bytes (UInt16.ofNat t.size) ++
      (indexScopes intern.recorded t.scopes (x, [])).done.flatMap
        fun d => d.words.flatMap Word.bytes := by
    change (write intern t #[] x).sink.toList = _
    rw [hsink]
    simp
  have hsize : free.sink.size =
      size (indexScopes intern.recorded t.scopes (x, [])).done.length := by
    change (write intern t #[] x).sink.size = _
    rw [write_recorded intern t #[] x []]
    exact size_write_array intern.recorded ht (x, [])
  refine ⟨_, hasked, hbytes, hsize, fun hstall => ?_, fun f stall hstall => ?_⟩
  · exact same_of_recorded intern x (write_of_steady intern.recorded (x, []) hchunk hstall)
  -- the calls are a part of what the recorded interner leaves
  have hlate := write_of_late_stall intern.recorded (x, []) ht hchunk hstall
  have hearly := write_of_early_stall intern x ht hchunk hstall
  refine ⟨fun hf => same_of_recorded intern x (hlate hf), fun hf => ?_, fun hf => ?_⟩
  · obtain ⟨hanswer, hwritten, hfull, hcalls⟩ := hearly hf
    exact ⟨hanswer, hwritten, hfull, started f, fun i => lt_started_iff, hcalls⟩
  · have hnone : started f = 0 := Nat.le_zero.mp (started_le (show f < size 0 from hf))
    obtain ⟨-, -, -, hcalls⟩ := hearly (by unfold size; omega)
    rwa [hnone, List.take_zero, List.flatMap_nil] at hcalls

end Plan

/-- An interner runs out of numbers behind the twelfth byte. A stream that stalls there does not
matter, and one that stalls a byte earlier does. -/
theorem refusal_or_stall_decides_by_one_byte :
    let intern : Interner UInt16 :=
      fun s n => if n < 3 then (.ok n, n + 1) else (.error (.poolFull s), n)
    let t : Table := ⟨[⟨0, 4, "n", "I", 1⟩, ⟨2, 65535, "n", "J", 2⟩]⟩
    let plan (f : Nat) : Delivery :=
      { chunk := some 5, interrupts := [0, 3], stall := some (f, .silent) }
    t.size ≤ maxCount ∧ (∀ f, (plan f).chunk ≠ some 0) ∧
      (write intern t (sinkOf (plan 12)) 0).answer = .error (.unindexed "J" (.poolFull "J")) ∧
      (write intern t (sinkOf (plan 11)) 0).answer = .error (.io .nothingWritten) ∧
      (write intern t (sinkOf (plan 11)) 0).sink.written.size = 11 := by
  intro intern t plan
  have ht : t.size ≤ maxCount := by decide
  have hchunk : ∀ f, (plan f).chunk ≠ some 0 := fun f => by simp [plan]
  have hfree : (write intern t (#[] : Array UInt8) 0).answer =
      .error (.unindexed "J" (.poolFull "J")) := by
    rw [write_array intern ht]
    rfl
  have hlen : (write intern t (#[] : Array UInt8) 0).sink.size = 12 :=
    size_write_array intern ht 0
  refine ⟨ht, hchunk, ?_, ?_⟩
  · obtain ⟨done, -, -, hsize, -, hstall⟩ := refusal_or_stall_decides intern 0 ht (hchunk 12)
    obtain ⟨hsame, -⟩ := (hstall 12 .silent rfl).1 (by omega)
    rw [← hfree, ← hsame]
    rfl
  · obtain ⟨done, -, -, hsize, -, hstall⟩ := refusal_or_stall_decides intern 0 ht (hchunk 11)
    obtain ⟨hanswer, -, hwritten, -⟩ := (hstall 11 .silent rfl).2.1 (by omega)
    exact ⟨hanswer, hwritten⟩

end LocalScopes.Body
