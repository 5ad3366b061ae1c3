import Mathlib.Data.List.Infix
import LocalScopes.Bytes.PlannedSink
import LocalScopes.Proofs.Bytes.Replies

/-! # Faults of sinks

A sink is without faults if it takes all the bytes of every write. How many calls it needs for them
makes no difference: besides an array this is every sink with a plan that may interrupt calls and
cut them short, but neither stalls nor takes nothing (`PlannedSink.faultFree`).

A sink that fails in the middle of a write has taken the bytes in front of the failure, and no
others. This much holds under every plan (`PlannedSink.inOrder`). Under a plan whose stream stalls
after `limit` bytes it is also known which write fails, and how (`PlannedSink.limited`): the one
with which the bytes would pass the limit. Both go from one write to several in a row. -/

namespace LocalScopes

/-! ### Sinks without faults -/

/-- **Sinks without faults.** A `good` sink takes all the bytes of a write, and is good afterwards.
What it has taken so far is `written`. -/
structure Sink.FaultFree {ω : Type} [Sink ω] (good : ω → Prop) (written : ω → Array UInt8) :
    Prop where
  succeeds : ∀ bytes sink, good sink → (Sink.put bytes sink).1 = .ok ()
  stays : ∀ bytes sink, good sink → good (Sink.put bytes sink).2
  takes : ∀ bytes sink, good sink →
    written (Sink.put bytes sink).2 = written sink ++ bytes.toArray

theorem Sink.faultFree_array : Sink.FaultFree (fun _ : Array UInt8 => True) id :=
  ⟨fun _ _ _ => rfl, fun _ _ _ => trivial, fun _ _ _ => rfl⟩

/-! ### Plans without faults -/

/-- The stream never stalls, and a call that is not interrupted moves something. -/
structure Delivery.Steady (d : Delivery) : Prop where
  stall : d.stall = none
  chunk : d.chunk ≠ some 0

namespace PlannedSink

theorem drain_of_steady (bytes : List UInt8) (s : PlannedSink) (h : s.plan.Steady) :
    ∃ after, drain bytes s = (.ok (), after) ∧ after.plan = s.plan ∧
      after.written = s.written ++ bytes.toArray := by
  fun_induction drain bytes s with
  | case1 s => exact ⟨s, rfl, rfl, by simp⟩
  | case2 byte rest s hreply _ ih =>
    obtain ⟨after, hdrain, hplan, hwritten⟩ := ih h
    exact ⟨after, hdrain, hplan, by simpa [advance] using hwritten⟩
  | case3 byte rest s fault hreply =>
    obtain ⟨limit, hstall, -⟩ := Delivery.of_fails hreply
    cases h.stall.symm.trans hstall
  | case4 byte rest s hreply =>
    obtain ⟨limit, hstall, -⟩ := Delivery.of_moves_zero h.chunk (Nat.succ_pos _) hreply
    cases h.stall.symm.trans hstall
  | case5 byte rest s m hreply ih =>
    obtain ⟨after, hdrain, hplan, hwritten⟩ := ih h
    refine ⟨after, hdrain, hplan, ?_⟩
    rw [hwritten, advance, Array.append_assoc, List.append_toArray (byte :: rest.take m),
      List.cons_append, List.take_append_drop]

theorem faultFree : Sink.FaultFree (fun s : PlannedSink => s.plan.Steady) written := by
  refine ⟨fun bytes s h => ?_, fun bytes s h => ?_, fun bytes s h => ?_⟩ <;>
    obtain ⟨after, hdrain, hplan, hwritten⟩ := drain_of_steady bytes s h
  · exact congrArg Prod.fst hdrain
  · change (drain bytes s).2.plan.Steady
    rwa [hdrain, hplan]
  · change (drain bytes s).2.written = _
    rw [hdrain, hwritten]

end PlannedSink

/-! ### Sinks in order -/

section InOrder
variable {ω : Type} {written : ω → Array UInt8}

/-- How a write of `bytes` may go: the sink takes all of them, or it fails and has taken some, but
not all, from the front. -/
inductive Sink.Took (written : ω → Array UInt8) (bytes : List UInt8) (sink : ω) :
    Except IoFault Unit × ω → Prop
  | all {after : ω} (taken : written after = written sink ++ bytes.toArray) :
      Took written bytes sink (.ok (), after)
  | front {fault : IoFault} {after : ω} {part : List UInt8} (start : part <+: bytes)
      (short : part.length < bytes.length)
      (taken : written after = written sink ++ part.toArray) :
      Took written bytes sink (.error fault, after)

/-- **Sinks in order.** Every write takes its bytes from the front, and a failed one not all. -/
def Sink.InOrder [Sink ω] (written : ω → Array UInt8) : Prop :=
  ∀ bytes sink, Sink.Took written bytes sink (Sink.put bytes sink)

theorem Sink.Took.append {bytes more : List UInt8} {sink after : ω}
    {result : Except IoFault Unit × ω} (h : written after = written sink ++ bytes.toArray)
    (hrest : Sink.Took written more after result) :
    Sink.Took written (bytes ++ more) sink result := by
  cases hrest with
  | all taken => exact .all (by simp [taken, h])
  | front start short taken =>
    refine .front ((List.prefix_append_right_inj bytes).mpr start) ?_ ?_
    · simp only [List.length_append]
      omega
    · simp [taken, h]

theorem Sink.Took.of_front {bytes : List UInt8} (more : List UInt8) {sink after : ω}
    {fault : IoFault} (h : Sink.Took written bytes sink (.error fault, after)) :
    Sink.Took written (bytes ++ more) sink (.error fault, after) := by
  cases h with
  | front start short taken =>
    refine .front (start.trans (List.prefix_append bytes more)) ?_ taken
    rw [List.length_append]
    omega

theorem Sink.InOrder.putAll [Sink ω] (h : Sink.InOrder written) :
    ∀ (parts : List (List UInt8)) (sink : ω),
      Sink.Took written parts.flatten sink (Sink.putAll parts sink)
  | [], sink => .all (by simp)
  | part :: rest, sink => by
    have hpart := h part sink
    unfold Sink.putAll
    rcases hr : Sink.put part sink with ⟨fault | _, after⟩
    · rw [hr] at hpart
      exact hpart.of_front rest.flatten
    · rw [hr] at hpart
      cases hpart with
      | all taken => exact .append taken (h.putAll rest after)

end InOrder

theorem PlannedSink.inOrder : Sink.InOrder PlannedSink.written := by
  intro bytes s
  change Sink.Took written bytes s (drain bytes s)
  fun_induction drain bytes s with
  | case1 s => exact .all (by simp)
  | case2 byte rest s hreply _ ih =>
    have hsame : (s.advance []).written = s.written ++ ([] : List UInt8).toArray := rfl
    exact .append hsame ih
  | case3 byte rest s fault hreply => exact .front List.nil_prefix (by simp) rfl
  | case4 byte rest s hreply => exact .front List.nil_prefix (by simp) rfl
  | case5 byte rest s m hreply ih =>
    have hpart : (s.advance (byte :: rest.take m)).written =
        s.written ++ (byte :: rest.take m).toArray := rfl
    have htook := Sink.Took.append hpart ih
    rwa [List.cons_append, List.take_append_drop] at htook

/-! ### Sinks with a limit -/

/-- **Sinks with a limit.** A write with which a good sink would hold more than `limit` bytes fills
it up to the limit and then fails with `fault`; any other write is taken. -/
def Sink.Limited {ω : Type} [Sink ω] (limit : Nat) (fault : IoFault) (good : ω → Prop)
    (written : ω → Array UInt8) : Prop :=
  ∀ bytes sink, good sink → ∃ after, good after ∧
    written after = written sink ++ (bytes.take (limit - (written sink).size)).toArray ∧
    Sink.put bytes sink =
      (if (written sink).size + bytes.length ≤ limit then .ok () else .error fault, after)

section Limited
variable {ω : Type} [Sink ω] {written : ω → Array UInt8} {limit : Nat} {fault : IoFault}
  {good : ω → Prop}
  (h : Sink.Limited limit fault good written)
include h

theorem Sink.Limited.put_ok {bytes : List UInt8} {sink : ω} (hs : good sink)
    (fits : (written sink).size + bytes.length ≤ limit) :
    ∃ after, good after ∧ written after = written sink ++ bytes.toArray ∧
      Sink.put bytes sink = (.ok (), after) := by
  obtain ⟨after, hafter, hwritten, hput⟩ := h bytes sink hs
  rw [if_pos fits] at hput
  rw [List.take_of_length_le (by omega)] at hwritten
  exact ⟨after, hafter, hwritten, hput⟩

theorem Sink.Limited.put_error {bytes : List UInt8} {sink : ω} (hs : good sink)
    (hover : limit < (written sink).size + bytes.length) :
    ∃ after, good after ∧
      written after = written sink ++ (bytes.take (limit - (written sink).size)).toArray ∧
      Sink.put bytes sink = (.error fault, after) := by
  obtain ⟨after, hafter, hwritten, hput⟩ := h bytes sink hs
  rw [if_neg (by omega)] at hput
  exact ⟨after, hafter, hwritten, hput⟩

theorem Sink.Limited.putAll_ok : ∀ (parts : List (List UInt8)) {sink : ω}, good sink →
    (written sink).size + parts.flatten.length ≤ limit →
    ∃ after, good after ∧ written after = written sink ++ parts.flatten.toArray ∧
      Sink.putAll parts sink = (.ok (), after)
  | [], sink, hs, _ => ⟨sink, hs, by simp, rfl⟩
  | part :: rest, sink, hs, fits => by
    rw [List.flatten_cons, List.length_append] at fits
    obtain ⟨mid, hmid, hwritten, hput⟩ := h.put_ok hs (show _ + part.length ≤ limit by omega)
    have hsize : (written mid).size = (written sink).size + part.length := by simp [hwritten]
    obtain ⟨after, hafter, hrest, hputs⟩ := Sink.Limited.putAll_ok rest hmid (by omega)
    refine ⟨after, hafter, ?_, ?_⟩
    · simp [hrest, hwritten]
    · unfold Sink.putAll
      rw [hput]
      exact hputs

theorem Sink.Limited.putAll_error : ∀ (parts : List (List UInt8)) {sink : ω}, good sink →
    (written sink).size ≤ limit → limit < (written sink).size + parts.flatten.length →
    ∃ after, good after ∧
      written after =
        written sink ++ (parts.flatten.take (limit - (written sink).size)).toArray ∧
      Sink.putAll parts sink = (.error fault, after)
  | [], sink, _, hle, hover => by
    rw [List.flatten_nil, List.length_nil] at hover
    omega
  | part :: rest, sink, hs, hle, hover => by
    rw [List.flatten_cons, List.length_append] at hover
    unfold Sink.putAll
    rcases Nat.lt_or_ge limit ((written sink).size + part.length) with hpart | hpart
    · obtain ⟨after, hafter, hwritten, hput⟩ := h.put_error hs hpart
      refine ⟨after, hafter, ?_, ?_⟩
      · rw [hwritten, List.flatten_cons, List.take_append_of_le_length (by omega)]
      · rw [hput]
    · obtain ⟨mid, hmid, hwritten, hput⟩ := h.put_ok hs hpart
      have hsize : (written mid).size = (written sink).size + part.length := by simp [hwritten]
      obtain ⟨after, hafter, hrest, hputs⟩ :=
        Sink.Limited.putAll_error rest hmid (by omega) (by omega)
      refine ⟨after, hafter, ?_, ?_⟩
      · have htake : part.take (limit - (written sink).size) = part :=
          List.take_of_length_le (by omega)
        rw [hrest, List.flatten_cons, List.take_append, htake, hsize, Nat.sub_add_eq]
        simp [hwritten]
      · rw [hput]
        exact hputs

end Limited

namespace PlannedSink

theorem limited {plan : Delivery} (hchunk : plan.chunk ≠ some 0) {limit : Nat}
    {stall : Stall} (hstall : plan.stall = some (limit, stall)) :
    Sink.Limited limit stall.writeFault
      (fun s : PlannedSink => s.plan = plan ∧ s.written.size ≤ limit) written := by
  intro bytes s hs
  change ∃ after, _ ∧ _ ∧ drain bytes s = _
  fun_induction drain bytes s with
  | case1 s => exact ⟨s, hs, by simp, by rw [if_pos (by simpa using hs.2)]⟩
  | case2 byte rest s hreply _ ih =>
    obtain ⟨after, hafter, hwritten, hdrain⟩ := ih (by simpa [advance] using hs)
    exact ⟨after, hafter, by simpa [advance] using hwritten, by simpa [advance] using hdrain⟩
  | case3 byte rest s fault hreply =>
    obtain ⟨hplan, hle⟩ := hs
    obtain ⟨limit', hstall', hge⟩ := Delivery.of_fails hreply
    rw [hplan, hstall] at hstall'
    cases hstall'
    refine ⟨s.advance [], ⟨hplan, by simpa [advance] using hle⟩, ?_, ?_⟩
    · simp [advance, Nat.sub_eq_zero_of_le hge]
    · rw [if_neg (by simp only [List.length_cons]; omega)]
      rfl
  | case4 byte rest s hreply =>
    obtain ⟨hplan, hle⟩ := hs
    obtain ⟨limit', hstall', hge⟩ :=
      Delivery.of_moves_zero (by rwa [hplan]) (Nat.succ_pos _) hreply
    rw [hplan, hstall] at hstall'
    cases hstall'
    refine ⟨s.advance [], ⟨hplan, by simpa [advance] using hle⟩, ?_, ?_⟩
    · simp [advance, Nat.sub_eq_zero_of_le hge]
    · rw [if_neg (by simp only [List.length_cons]; omega)]
      rfl
  | case5 byte rest s m hreply ih =>
    obtain ⟨hplan, hle⟩ := hs
    have hroom := Delivery.of_moves hreply (by rw [hplan]; exact hstall)
    have hmoved := Delivery.le_of_reply hreply
    have hpart : (byte :: rest.take m).length = m + 1 := by
      rw [List.length_cons, List.length_take]
      omega
    have hsize : (s.advance (byte :: rest.take m)).written.size = s.written.size + (m + 1) := by
      simp only [advance, Array.size_append, List.size_toArray, hpart]
    obtain ⟨after, hafter, hwritten, hdrain⟩ := ih ⟨hplan, by omega⟩
    refine ⟨after, hafter, ?_, ?_⟩
    · -- the bytes of this call are all below the limit
      have hsplit : (byte :: rest).take (limit - s.written.size) =
          (byte :: rest.take m) ++ (rest.drop m).take (limit - s.written.size - (m + 1)) := by
        conv_lhs => rw [← List.take_append_drop m rest, ← List.cons_append]
        rw [List.take_append, hpart, List.take_of_length_le (by omega)]
      rw [hwritten, hsize, hsplit, Nat.sub_add_eq]
      simp [advance]
    · rw [hdrain, hsize]
      have hiff : s.written.size + (m + 1) + (rest.drop m).length ≤ limit ↔
          s.written.size + (byte :: rest).length ≤ limit := by
        rw [List.length_drop, List.length_cons]
        omega
      simp only [hiff]

end PlannedSink

end LocalScopes
