import LocalScopes.Proofs.Body.Acceptance

/-! # Bodies from streams

A body that comes from a stream reads as the list of its bytes does, in whatever portions the stream
moves them. A stream that stalls cuts the bytes off: what was settled in front of the cut stays
(`Ending.take_of_settled`), and otherwise the reading ends at the cut, in the record that the cut
falls into (`Ending.take_of_cut`). `delivery_makes_no_difference` has both. -/

namespace LocalScopes.Body

theorem size_record_of_byte {f : Nat} (h : headerSize ≤ f) :
    size ((f - headerSize) / recordSize) ≤ f ∧ f < size ((f - headerSize) / recordSize + 1) := by
  simp only [size, headerSize, recordSize] at h ⊢
  omega

theorem Reaches.mono {pool : Resolver} {b : List UInt8} {n i j : Nat} (h : Reaches pool b n i)
    (hj : j ≤ i) : Reaches pool b n j := by
  have := h.declared
  exact ⟨h.header, by omega, fun k hk => h.before k (by omega)⟩

/-- The reading did not run out of records. -/
def Settled (answer : Except ReadError Table) : Prop :=
  ∀ expected decoded, answer ≠ .error (.truncated expected decoded)

section Take
variable {pool : Resolver} {b : List UInt8} {f : Nat}

theorem getElem?_take_congr (b : List UInt8) (f : Nat) : ∀ j < f, b[j]? = (b.take f)[j]? :=
  fun _ hj => (List.getElem?_take_of_lt hj).symm

theorem Reaches.take {n i : Nat} (h : Reaches pool b n i) (hf : size i ≤ f) :
    Reaches pool (b.take f) n i := by
  refine h.congr ?_ fun j hj => ?_
  · refine wordAt_congr (getElem?_take_congr b f) ?_
    simp only [size, headerSize] at hf
    omega
  · refine resolveAt_congr (getElem?_take_congr b f) ?_
    exact Nat.le_trans (size_le_size hj) hf

/-- **What was settled in front of a cut stays**, however the source ends there. -/
theorem Ending.take_of_settled {answer : Except ReadError Table} {taken : Nat}
    (h : Ending pool b .endOfInput answer taken) (settled : Settled answer) (hf : taken ≤ f)
    (fault : IoFault) : Ending pool (b.take f) fault answer taken := by
  cases h with
  | headless => exact absurd rfl (settled 0 0)
  | @stopped n i e reached stop =>
    rw [ReadError.endedBy_endOfInput] at settled ⊢
    cases stop with
    | short missing => exact absurd rfl (settled n i)
    | @bad r index cause present refused =>
      -- the record is whole, and all of it is in front of the cut
      have hle := le_length_of_recordAt present
      rw [Nat.min_eq_right hle] at hf ⊢
      have hrec : recordAt (b.take f) i = some r := by
        rw [← recordAt_congr (getElem?_take_congr b f) hf, present]
      have hend : Ending pool (b.take f) fault _ _ :=
        .stopped (reached.take (Nat.le_trans (size_le_size (Nat.le_succ i)) hf))
          (.bad hrec refused)
      rw [List.length_take, Nat.min_eq_right (Nat.le_min.mpr ⟨hf, hle⟩)] at hend
      exact hend
  | @complete n scopes header length records =>
    refine .complete ?_ length fun i s hi => ?_
    · have hheader : size 0 ≤ f := Nat.le_trans (size_le_size (Nat.zero_le n)) hf
      rwa [← wordAt_congr (getElem?_take_congr b f) hheader]
    · have hlt : i < n := by
        rw [← length]
        exact (List.getElem?_eq_some_iff.mp hi).1
      rw [holdsAt_iff, ← resolveAt_congr (getElem?_take_congr b f)
        (Nat.le_trans (size_le_size hlt) hf), ← holdsAt_iff]
      exact records i s hi

/-- A cut that nothing is settled in front of falls into a record that is reached. -/
theorem Ending.reaches_cut {answer : Except ReadError Table} {taken : Nat}
    (h : Ending pool b .endOfInput answer taken) (hf : f ≤ b.length)
    (hcut : Settled answer → f < taken) (hheader : headerSize ≤ f) :
    ∃ n, Reaches pool b n ((f - headerSize) / recordSize) := by
  obtain ⟨hle, hlt⟩ := size_record_of_byte hheader
  cases h with
  | headless missing => omega
  | @stopped n i e reached stop =>
    refine ⟨n, reached.mono ?_⟩
    rw [ReadError.endedBy_endOfInput] at hcut
    -- the cut falls into the record that ends the reading, or into one before it
    have hover : f < size (i + 1) := by
      cases stop with
      | short missing => omega
      | bad present refused =>
        have := hcut fun expected decoded heq => by cases heq
        omega
    exact Nat.le_of_lt_succ (lt_of_size_lt (Nat.lt_of_le_of_lt hle hover))
  | @complete n scopes header length records =>
    have hover : f < size n := hcut fun expected decoded heq => by cases heq
    have hdeclared := lt_of_size_lt (Nat.lt_of_le_of_lt hle hover)
    refine ⟨n, header, hdeclared, fun j hj => ?_⟩
    exact exists_holdsAt records (by omega)

/-- **A reading ends at a cut** that nothing is settled in front of. -/
theorem Ending.take_of_cut {answer : Except ReadError Table} {taken : Nat}
    (h : Ending pool b .endOfInput answer taken) (hf : f ≤ b.length)
    (hcut : Settled answer → f < taken) (fault : IoFault) :
    ∃ n, (if f < headerSize then n = 0 else (wordAt b 0).map UInt16.toNat = some n) ∧
      Ending pool (b.take f) fault
        (.error (.endedBy fault (.truncated n ((f - headerSize) / recordSize)))) f := by
  have hlen : (b.take f).length = f := by rw [List.length_take, Nat.min_eq_left hf]
  rcases Nat.lt_or_ge f headerSize with hshort | hheader
  · refine ⟨0, by rw [if_pos hshort], ?_⟩
    have hend : Ending pool (b.take f) fault _ _ := .headless (by rwa [hlen])
    rw [hlen] at hend
    rwa [Nat.sub_eq_zero_of_le (Nat.le_of_lt hshort), Nat.zero_div]
  · obtain ⟨n, reached⟩ := h.reaches_cut hf hcut hheader
    obtain ⟨hle, hlt⟩ := size_record_of_byte hheader
    refine ⟨n, by rw [if_neg (Nat.not_lt.mpr hheader)]; exact reached.header, ?_⟩
    have hend : Ending pool (b.take f) fault _ _ :=
      .stopped (reached.take hle) (.short (by rwa [hlen]))
    rwa [hlen, Nat.min_eq_left (Nat.le_of_lt hlt)] at hend

end Take

/-! ### Streams with a plan -/

/-- A source that has delivered nothing yet. -/
def sourceOf (b : List UInt8) (plan : Delivery) : PlannedSource := { bytes := b, plan }

theorem ending_sourceOf (pool : Resolver) {b total : List UInt8} {plan : Delivery}
    {fault : IoFault} (hchunk : plan.chunk ≠ some 0)
    (hends : PlannedSource.Ends plan b total fault) :
    Ending pool total fault (read pool (sourceOf b plan)).answer
      (read pool (sourceOf b plan)).rest.moved :=
  ending_read (PlannedSource.delivers hchunk hends) pool ⟨rfl, rfl, Nat.zero_le _⟩ rfl

theorem ending_sourceOf_of_steady (pool : Resolver) (b : List UInt8) {plan : Delivery}
    (hchunk : plan.chunk ≠ some 0) (hstall : plan.stall = none) :
    Ending pool b .endOfInput (read pool (sourceOf b plan)).answer
      (read pool (sourceOf b plan)).rest.moved :=
  ending_sourceOf pool hchunk (.input fun limit stall h => by cases hstall.symm.trans h)

theorem Ending.taken_cases {pool : Resolver} {b : List UInt8} {answer : Except ReadError Table}
    {taken : Nat} (h : Ending pool b .endOfInput answer taken) :
    (∃ t : Table, answer = .ok t ∧ (wordAt b 0).map UInt16.toNat = some t.size ∧
      taken = size t.size) ∨
    (∃ n i r index cause, Reaches pool b n i ∧ recordAt b i = some r ∧
      r.BadReference pool index cause ∧ answer = .error (.unresolved index cause) ∧
      taken = size (i + 1)) ∨
    ∃ n i, answer = .error (.truncated n i) ∧ taken = b.length := by
  cases h with
  | headless => exact .inr (.inr ⟨0, 0, rfl, rfl⟩)
  | @stopped n i e reached stop =>
    rw [ReadError.endedBy_endOfInput]
    cases stop with
    | short missing => exact .inr (.inr ⟨n, i, rfl, Nat.min_eq_left (Nat.le_of_lt missing)⟩)
    | @bad r index cause present refused =>
      exact .inr (.inl ⟨n, i, r, index, cause, reached, present, refused, rfl,
        Nat.min_eq_right (le_length_of_recordAt present)⟩)
  | complete header length records =>
    subst length
    exact .inl ⟨_, rfl, header, rfl⟩

/-- **How a stream delivers its bytes makes no difference.** In portions of any positive size, and
with any calls interrupted, a stream reads as the list of its bytes, and is taken from up to the end
of the last record, of the record with the bad reference, or of the bytes. If the stream stalls when
`f` bytes have moved, this stays so where the bytes end before the stall or the answer is found in
front of it. Otherwise the reading takes the `f` bytes and fails with the fault of the stall, where
a silent stall, and a fault that says so, counts as truncation at the record that it falls into. -/
theorem delivery_makes_no_difference (pool : Resolver) (b : List UInt8) (plan : Delivery)
    (hchunk : plan.chunk ≠ some 0) :
    let free := read pool (sourceOf b { plan with stall := none })
    let faulty := read pool (sourceOf b plan)
    (free.answer = (readBytes pool b).value.map Prod.fst ∧
      ((∃ t : Table, free.answer = .ok t ∧ (wordAt b 0).map UInt16.toNat = some t.size ∧
        free.rest.moved = size t.size) ∨
      (∃ n i r index cause, Reaches pool b n i ∧ recordAt b i = some r ∧
        r.BadReference pool index cause ∧ free.answer = .error (.unresolved index cause) ∧
        free.rest.moved = size (i + 1)) ∨
      ∃ n i, free.answer = .error (.truncated n i) ∧ free.rest.moved = b.length)) ∧
    ∀ f stall, plan.stall = some (f, stall) →
      let untouched := b.length < f ∨ Settled free.answer ∧ free.rest.moved ≤ f
      (untouched → faulty.answer = free.answer ∧ faulty.rest.moved = free.rest.moved) ∧
      (¬ untouched → faulty.rest.moved = f ∧
        (∀ fault, stall = .failing fault → fault.kind ≠ .unexpectedEnd →
          faulty.answer = .error (.io fault)) ∧
        ((stall = .silent ∨ ∃ fault, stall = .failing fault ∧ fault.kind = .unexpectedEnd) →
          ∃ n, (if f < headerSize then n = 0 else (wordAt b 0).map UInt16.toNat = some n) ∧
            faulty.answer = .error (.truncated n ((f - headerSize) / recordSize)))) := by
  intro free faulty
  have hfree : Ending pool b .endOfInput free.answer free.rest.moved :=
    ending_sourceOf_of_steady pool b hchunk rfl
  refine ⟨⟨?_, hfree.taken_cases⟩, fun f stall hstall => ?_⟩
  · rw [(hfree.unique (ending_list pool b)).1]
    change _ = ((read pool b).answer.map _).map _
    cases (read pool b).answer <;> rfl
  · -- the source ends with the bytes if they end first, and at the stall otherwise
    have hlate : b.length < f → Ending pool b .endOfInput faulty.answer faulty.rest.moved := by
      refine fun hf => ending_sourceOf pool hchunk (.input fun limit stall' h => ?_)
      cases hstall.symm.trans h
      exact hf
    have hcut : f ≤ b.length →
        Ending pool (b.take f) stall.readFault faulty.answer faulty.rest.moved :=
      fun hf => ending_sourceOf pool hchunk (.stalled hstall hf)
    refine ⟨fun huntouched => ?_, fun htouched => ?_⟩
    · rcases Nat.lt_or_ge b.length f with hf | hf
      · exact (hlate hf).unique hfree
      · obtain ⟨settled, hle⟩ := huntouched.resolve_left (Nat.not_lt.mpr hf)
        exact (hcut hf).unique (hfree.take_of_settled settled hle _)
    · obtain ⟨hf, hover⟩ := not_or.mp htouched
      have hf := Nat.le_of_not_lt hf
      obtain ⟨n, hn, hend⟩ := hfree.take_of_cut hf
        (fun settled => Nat.lt_of_not_le fun hle => hover ⟨settled, hle⟩) stall.readFault
      obtain ⟨hanswer, hmoved⟩ := (hcut hf).unique hend
      refine ⟨hmoved, ?_, ?_⟩
      · rintro fault rfl hkind
        rw [hanswer]
        exact congrArg Except.error (if_neg hkind)
      · rintro (rfl | ⟨fault, rfl, hkind⟩)
        · exact ⟨n, hn, hanswer⟩
        · refine ⟨n, hn, hanswer.trans ?_⟩
          exact congrArg Except.error (if_pos hkind)

/-- A stream that moves three bytes at a time, interrupts two calls, and denies access within the
second of two records. -/
theorem delivery_makes_no_difference_of_denied :
    let pool : Resolver := fun i => .ok (if i = 1 then "n" else "I")
    let b : List UInt8 := [0, 2, 0, 0, 0, 4, 0, 1, 0, 2, 0, 1, 0, 4, 0, 8, 0, 1, 0, 2, 0, 1, 7]
    let denied : IoFault := ⟨.permissionDenied, some "denied"⟩
    let plan : Delivery :=
      { chunk := some 3, interrupts := [0, 2], stall := some (15, .failing denied) }
    plan.chunk ≠ some 0 ∧
      (read pool (sourceOf b plan)).answer = .error (.io denied) ∧
      (read pool (sourceOf b plan)).rest.moved = 15 := by
  intro pool b denied plan
  have hchunk : plan.chunk ≠ some 0 := by decide
  obtain ⟨⟨hanswer, htaken⟩, hstalled⟩ := delivery_makes_no_difference pool b plan hchunk
  have hread : (readBytes pool b).value =
      .ok (⟨[⟨0, 4, "n", "I", 1⟩, ⟨4, 8, "n", "I", 1⟩]⟩, size 2) := by
    refine readBytes_eq_of_outcome (.complete (by rfl) (by rfl) fun i s hi => ?_)
    rcases i with _ | _ | i
    · cases hi
      exact ⟨⟨0, 4, 1, 2, 1⟩, rfl, ⟨rfl, rfl, rfl, rfl, rfl⟩⟩
    · cases hi
      exact ⟨⟨4, 8, 1, 2, 1⟩, rfl, ⟨rfl, rfl, rfl, rfl, rfl⟩⟩
    · cases hi
  rw [hread] at hanswer
  rw [hanswer] at htaken
  obtain ⟨t, ht, -, hmoved⟩ | ⟨n, i, r, index, cause, -, -, -, h, -⟩ | ⟨n, i, h, -⟩ := htaken
  · cases ht
    obtain ⟨htaken, hio, -⟩ := (hstalled 15 _ rfl).2 (by
      rintro (hlt | ⟨-, hle⟩)
      · exact absurd hlt (by decide)
      · rw [hmoved] at hle
        exact absurd hle (by decide))
    exact ⟨hchunk, hio denied rfl (by decide), htaken⟩
  · cases h
  · cases h

end LocalScopes.Body
