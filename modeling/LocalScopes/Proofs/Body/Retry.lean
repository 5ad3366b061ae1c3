import LocalScopes.Proofs.Body.PoolIndexing
import LocalScopes.Proofs.Body.Stall

/-! # Writing again

An attempt to write a table leaves a string pool that was asked for the symbols of scopes from the
front of the table, wherever and for whatever reason the attempt ended. Writing the table with this
pool comes to the same as with the pool before the attempt (`retry_comes_to_the_same`). -/

namespace LocalScopes.Body

theorem write_array_again {ω : Type} [Sink ω] {p : StringPool} (hp : p.Lawful) (t : Table)
    (sink : ω) (out : Array UInt8) :
    write StringPool.intern t out (write StringPool.intern t sink p).symbols =
      write StringPool.intern t out p := by
  rcases Nat.lt_or_ge maxCount t.size with hlong | ht
  · simp only [write_too_long hlong]
  · obtain ⟨front, hfront, heq⟩ := exists_indexScopes_eq_write StringPool.intern t sink p
    rw [heq, write_array StringPool.intern ht, write_array StringPool.intern ht,
      indexScopes_resume hfront hp]

section Retry
variable {ω υ : Type} [Sink ω] [Sink υ] {good : υ → Prop} {written : υ → Array UInt8}

theorem write_again (hfree : Sink.FaultFree good written) {p : StringPool} (hp : p.Lawful)
    (t : Table) (sink : ω) (out : υ) (hout : good out) :
    (write StringPool.intern t out (write StringPool.intern t sink p).symbols).map written id =
      (write StringPool.intern t out p).map written id := by
  rw [← write_faultFree hfree StringPool.intern t _ hout,
    ← write_faultFree hfree StringPool.intern t p hout]
  exact write_array_again hp t sink (written out)

/-- **A retry comes to the same.** Whatever an attempt to write a table came to, and whatever its
sink did, writing the table with the pool that it leaves to a sink without faults has the result,
writes the bytes and leaves the pool that it would have had with the pool before the attempt. What
the attempt leaves is a start of that pool, and a table that was written so leaves the pool as it is
when it is written again. -/
theorem retry_comes_to_the_same (hfree : Sink.FaultFree good written) {p : StringPool}
    (hp : p.Reachable) (t : Table) (sink : ω) (out : υ) (hout : good out) :
    let left := (write StringPool.intern t sink p).symbols
    let first := write StringPool.intern t out p
    let again := write StringPool.intern t out left
    again.answer = first.answer ∧ written again.sink = written first.sink ∧
      again.symbols = first.symbols ∧
      left.entries.toList <+: first.symbols.entries.toList ∧
      (write StringPool.intern t out first.symbols).symbols = first.symbols := by
  intro left first again
  have hagain : again.map written id = first.map written id :=
    write_again hfree hp.lawful t sink out hout
  obtain ⟨hanswer, hsink, hsymbols⟩ := Writing.mk.inj hagain
  obtain ⟨-, -, hidle⟩ := Writing.mk.inj (write_again hfree hp.lawful t out out hout)
  simp only [id] at hsymbols hidle
  refine ⟨hanswer, hsink, hsymbols, ?_, hidle⟩
  rw [← hsymbols]
  exact StringPool.Run.entries_prefix (run_write t out left)

end Retry

/-- A sink breaks within the record of the second of three scopes, after both its symbols are new in
the pool, and the table is then written to an array. -/
theorem retry_comes_to_the_same_after_break :
    let p := (StringPool.collect ["I", "I"]).value
    let t : Table := ⟨[⟨0, 4, "n", "I", 1⟩, ⟨2, 65535, "m", "J", 2⟩, ⟨3, 1, "k", "I", 4⟩]⟩
    let broken : IoFault := ⟨.brokenPipe, none⟩
    let plan : Delivery := { chunk := none, interrupts := [], stall := some (15, .failing broken) }
    let attempt := write StringPool.intern t (sinkOf plan) p
    attempt.answer = .error (.io broken) ∧
      attempt.symbols.entries.toList = ["I", "I", "n", "m", "J"] ∧
      (write StringPool.intern t (#[] : Array UInt8) attempt.symbols).symbols.entries.toList =
        ["I", "I", "n", "m", "J", "k"] := by
  intro p t broken plan attempt
  have ht : t.size ≤ maxCount := by decide
  have hover : 15 < size (indexScopes StringPool.intern t.scopes p).done.length := by
    simp [p, t, indexScopes, internScope, StringPool.intern, StringPool.ofList_eq,
      StringPool.append, StringPool.capacity, size, headerSize, recordSize]
  obtain ⟨after, -, -, hattempt⟩ :=
    exists_write_of_early_stall StringPool.intern p ht (show plan.chunk ≠ some 0 by decide) rfl
      hover
  have hanswer : attempt.answer = .error (.io broken) := congrArg Writing.answer hattempt
  have hentries : attempt.symbols.entries.toList = ["I", "I", "n", "m", "J"] := by
    rw [congrArg Writing.symbols hattempt, show started 15 = 2 by rfl]
    simp [p, t, indexScopes, internScope, StringPool.intern, StringPool.ofList_eq,
      StringPool.append, StringPool.capacity]
  refine ⟨hanswer, hentries, ?_⟩
  obtain ⟨-, -, hsame, -⟩ := retry_comes_to_the_same Sink.faultFree_array
    ⟨p, .collect _, .refl⟩ t (sinkOf plan) (#[] : Array UInt8) trivial
  rw [hsame, write_array StringPool.intern ht]
  simp [p, t, indexScopes, internScope, StringPool.intern, StringPool.ofList_eq, StringPool.append,
    StringPool.capacity]

end LocalScopes.Body
