import LocalScopes.Method.Attribute
import LocalScopes.Proofs.Body.Delivery
import LocalScopes.Proofs.Body.EventTrace
import LocalScopes.Proofs.Body.Rewriting

/-! # Events of an attribute

The events of a reading, from any source, tell how it came out (`Body.Account`). The reading of an
attribute adds a warning if it succeeds and the body goes on behind its last record
(`events_readScopes`). `events_tell_the_outcome` has both. -/

namespace LocalScopes.Method

open Body

/-- The warnings about bytes behind the records, for a body of `length` bytes with the answer. -/
def trailingWarnings (length : Nat) : Except ReadError (Table × Nat) → List Event
  | .ok (_, consumed) => if consumed = length then [] else [.trailingBytes consumed length]
  | .error _ => []

theorem events_readScopes (constants : ClassConstants) (body : List UInt8) :
    (readScopes constants body).events.toList = (read constants.resolve body).events.toList ++
      trailingWarnings body.length (readBytes constants.resolve body).value := by
  cases hvalue : (readBytes constants.resolve body).value with
  | error e =>
    simp only [readScopes, hvalue, trailingWarnings, List.append_nil]
    rfl
  | ok answer =>
    obtain ⟨t, consumed⟩ := answer
    simp only [readScopes, hvalue, trailingWarnings]
    split
    · rw [List.append_nil]
      rfl
    · rw [Array.toList_push]
      rfl

theorem level_of_mem_trailingWarnings {length : Nat}
    {answer : Except ReadError (Table × Nat)} :
    ∀ e ∈ trailingWarnings length answer, e.level = .warn := by
  intro e he
  unfold trailingWarnings at he
  split at he
  · split at he
    · cases he
    · rw [List.mem_singleton.mp he]
      rfl
  · cases he

/-- **The events of a reading tell its outcome.** Whatever a source replies, the events are the
count, if the header is handed out, then the scopes of the records that are handed out and resolve,
in stream order up to the first that does not, and then the warning that goes with the answer, if it
is truncation or a bad reference. So there are as many traces as the table has scopes, or as records
were read before the truncation, or before the record with the bad reference. What a stream with a
plan hands out stands in the bytes in front of its end. An attribute has the events of its body, and
one more warning just if the body reads as a table and has bytes behind its records. -/
theorem events_tell_the_outcome :
    (∀ {ρ : Type} [Source ρ] (pool : Resolver) (source : ρ),
      let reading := read pool source
      let events := reading.events.toList
      let traced := (events.filter (·.level = .trace)).length
      ∃ scopes : List Scope,
        events = (headerFrom source).toList.map .reading ++
          (scopes.map .scopeRead ++ warnings reading.answer) ∧
        events.filter (·.level = .debug) = (headerFrom source).toList.map .reading ∧
        events.filter (·.level = .trace) = scopes.map .scopeRead ∧
        events.filter (·.level = .warn) = warnings reading.answer ∧
        (∀ i s, scopes[i]? = some s ↔ ComesTo pool source i ∧ ReadsAt pool source i s) ∧
        (∀ t, reading.answer = .ok t → t.scopes = scopes ∧ traced = t.size) ∧
        (∀ expected decoded, reading.answer = .error (.truncated expected decoded) →
          traced = decoded) ∧
        ∀ index cause, reading.answer = .error (.unresolved index cause) →
          ComesTo pool source traced ∧
            ∃ r, recordFrom source traced = some r ∧ r.BadReference pool index cause) ∧
    (∀ (plan : Delivery) (b total : List UInt8) (fault : IoFault), plan.chunk ≠ some 0 →
      PlannedSource.Ends plan b total fault →
      headerFrom (sourceOf b plan) = wordAt total 0 ∧
        ∀ i, recordFrom (sourceOf b plan) i = recordAt total i) ∧
    ∀ (constants : ClassConstants) (body : List UInt8),
      let bare := readBytes constants.resolve body
      (readScopes constants body).events.toList = (read constants.resolve body).events.toList ++
        trailingWarnings body.length bare.value ∧
      (∀ e ∈ trailingWarnings body.length bare.value, e.level = .warn) ∧
      ∀ t consumed, bare.value = .ok (t, consumed) →
        consumed = size t.size ∧ consumed ≤ body.length := by
  refine ⟨fun pool source => ?_, fun plan b total fault hchunk hends => ?_,
    fun constants body => ?_⟩
  · intro reading events traced
    obtain ⟨scopes, h⟩ := account_read pool source
    have htraced : traced = scopes.length := by
      rw [← List.length_map (f := Event.scopeRead), ← h.trace]
    refine ⟨scopes, h.events, h.debug, h.trace, h.warn, fun i s => h.getElem?_iff, ?_⟩
    rw [htraced]
    refine ⟨fun t ha => ?_, fun expected decoded ha => h.of_truncated ha,
      fun index cause ha => h.of_unresolved ha⟩
    have hscopes := h.of_ok ha
    exact ⟨hscopes, congrArg List.length hscopes.symm⟩
  · have hdelivers := PlannedSource.delivers hchunk hends
    have hstart : PlannedSource.Partway plan b total (sourceOf b plan) := ⟨rfl, rfl, Nat.zero_le _⟩
    exact ⟨headerFrom_eq_wordAt hdelivers hstart rfl, recordFrom_eq_recordAt hdelivers hstart rfl⟩
  · refine ⟨events_readScopes constants body, level_of_mem_trailingWarnings,
      fun t consumed hvalue => ?_⟩
    obtain ⟨hholds, rfl⟩ := readBytes_eq_ok_iff.mp hvalue
    exact ⟨rfl, hholds.size_le_length⟩

/-- A stream that moves three bytes at a time, interrupts two calls, and denies access behind the
second of three records, whose descriptor is bad; and an attribute with a byte too many. -/
theorem events_tell_the_outcome_of_bad_descriptor :
    let pool : Resolver := fun i =>
      if i = 9 then .error (.noEntry 9) else .ok (if i = 1 then "n" else "I")
    let b : List UInt8 := [0, 3, 0, 0, 0, 4, 0, 1, 0, 2, 0, 1, 0, 4, 0, 8, 0, 1, 0, 9, 0, 1, 7]
    let denied : IoFault := ⟨.permissionDenied, some "denied"⟩
    let plan : Delivery :=
      { chunk := some 3, interrupts := [0, 2], stall := some (22, .failing denied) }
    let reading := read pool (sourceOf b plan)
    plan.chunk ≠ some 0 ∧ reading.answer = .error (.unresolved 9 (.noEntry 9)) ∧
      ComesTo pool (sourceOf b plan) 1 ∧
      reading.events.toList =
        [.reading 3, .scopeRead ⟨0, 4, "n", "I", 1⟩, .unresolved 9 (.noEntry 9)] ∧
      (readScopes (.ofList [.text "n"]) [0, 1, 0, 0, 0, 4, 0, 1, 0, 1, 0, 1, 7]).events.toList =
        [.reading 1, .scopeRead ⟨0, 4, "n", "n", 1⟩, .trailingBytes 12 13] := by
  intro pool b denied plan reading
  have hchunk : plan.chunk ≠ some 0 := by decide
  have hstall : plan.stall = some (22, .failing denied) := rfl
  have hinside : 22 ≤ b.length := by decide
  have hends : PlannedSource.Ends plan b (b.take 22) denied := .stalled hstall hinside
  have hbad : Record.BadReference pool ⟨4, 8, 1, 9, 1⟩ 9 (.noEntry 9) :=
    .descriptor (show pool 1 = .ok "n" from rfl) rfl
  have hdescribes : Record.Describes pool ⟨0, 4, 1, 2, 1⟩ ⟨0, 4, "n", "I", 1⟩ :=
    ⟨rfl, rfl, rfl, rfl, rfl⟩
  have hanswer : reading.answer = .error (.unresolved 9 (.noEntry 9)) := by
    have hreaches : Reaches pool (b.take 22) 3 1 := by
      refine ⟨rfl, by decide, fun j hj => ?_⟩
      obtain rfl : j = 0 := by omega
      exact ⟨_, _, rfl, hdescribes⟩
    have hending : Ending pool (b.take 22) denied _ _ := .stopped hreaches (.bad rfl hbad)
    exact ((ending_sourceOf pool hchunk hends).unique hending).1
  obtain ⟨hevery, hstream, hattribute⟩ := events_tell_the_outcome
  obtain ⟨hheader, hrecord⟩ := hstream plan b (b.take 22) denied hchunk hends
  obtain ⟨scopes, hevents, -, -, -, hscopes, -, -, hposition⟩ := hevery pool (sourceOf b plan)
  have hfirst : scopes[0]? = some ⟨0, 4, "n", "I", 1⟩ :=
    (hscopes 0 _).mpr ⟨⟨⟨3, hheader, by decide⟩, by simp⟩, _, hrecord 0, hdescribes⟩
  have hnone : ∀ s, scopes[1]? ≠ some s := by
    intro s hs
    obtain ⟨-, r, hr, hname⟩ := (hscopes 1 s).mp hs
    have hrecord' : some r = some ⟨4, 8, 1, 9, 1⟩ := hr.symm.trans (hrecord 1)
    obtain rfl := Option.some.inj hrecord'
    have hdescriptor : pool 9 = .error (.noEntry 9) := rfl
    cases hdescriptor.symm.trans hname.descriptor
  obtain rfl : scopes = [⟨0, 4, "n", "I", 1⟩] := by
    rcases scopes with _ | ⟨s, _ | ⟨u, rest⟩⟩
    · exact absurd hfirst (by simp)
    · rw [Option.some.inj hfirst]
    · exact absurd rfl (hnone u)
  rw [hheader, hanswer] at hevents
  obtain ⟨hcomes, -⟩ := hposition 9 (.noEntry 9) hanswer
  rw [hevents] at hcomes
  exact ⟨hchunk, hanswer, hcomes, hevents, (hattribute _ _).1.trans (by decide +kernel)⟩

end LocalScopes.Method
