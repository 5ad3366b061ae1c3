import Mathlib.Data.List.Infix
import LocalScopes.Bytes.PlannedSource
import LocalScopes.Bytes.Stream
import LocalScopes.Proofs.Bytes.Replies

/-! # Sources by what they deliver

For a reader a source comes to the bytes that it delivers and the fault with which it ends: a read
that finds enough bytes gets the next ones, and one that does not has moved all the bytes and
answers with the fault (`Source.Delivers`). How many calls it takes to get the bytes makes no
difference.

* `Source.delivers_list`: a list delivers its bytes and ends;
* `PlannedSource.delivers`: a source with a plan delivers its bytes and ends, or it delivers the
  bytes in front of the stall. -/

namespace LocalScopes

/-- **Sources by what they deliver.** A good source has moved a number of the bytes `total`. -/
structure Source.Delivers {ρ : Type} [Source ρ] (total : List UInt8) (fault : IoFault)
    (good : ρ → Prop) (moved : ρ → Nat) : Prop where
  enough : ∀ n source, good source → moved source + n ≤ total.length →
    ∃ part after, Source.take n source = (.ok part, after) ∧
      part.toList = (total.drop (moved source)).take n ∧ good after ∧
      moved after = moved source + n
  short : ∀ n source, good source → total.length < moved source + n →
    ∃ after, Source.take n source = (.error fault, after) ∧ moved after = total.length

theorem Source.delivers_list (total : List UInt8) :
    Source.Delivers total .endOfInput (· <:+ total) fun bytes => total.length - bytes.length := by
  constructor
  · rintro n bytes ⟨front, rfl⟩ hle
    have hmoved : (front ++ bytes).length - bytes.length = front.length := by simp
    rw [hmoved] at hle ⊢
    rw [List.length_append] at hle
    have hlen : (bytes.take n).length = n := by
      rw [List.length_take]
      omega
    have htake := Source.take_append hlen (bytes.drop n)
    rw [List.take_append_drop] at htake
    refine ⟨_, _, htake, ?_, (List.drop_suffix n bytes).trans (List.suffix_append front bytes), ?_⟩
    · rw [List.drop_left]
      rfl
    · simp only [List.length_append, List.length_drop]
      omega
  · rintro n bytes ⟨front, rfl⟩ hlt
    rw [List.length_append] at hlt
    exact ⟨[], Source.take_short (by omega), by simp⟩

namespace PlannedSource

/-- What a source with the bytes `b` and the plan `plan` delivers, and how it ends: the bytes end
before the stream stalls, or the stream stalls in front of the end of the bytes or there. -/
inductive Ends (plan : Delivery) (b : List UInt8) : List UInt8 → IoFault → Prop
  | input (h : ∀ limit stall, plan.stall = some (limit, stall) → b.length < limit) :
      Ends plan b b .endOfInput
  | stalled {limit : Nat} {stall : Stall} (h : plan.stall = some (limit, stall))
      (inside : limit ≤ b.length) : Ends plan b (b.take limit) stall.readFault

/-- The source has moved a number of the bytes of `b` in front of its end. -/
structure Partway (plan : Delivery) (b total : List UInt8) (s : PlannedSource) : Prop where
  plan_eq : s.plan = plan
  bytes_eq : s.bytes = b.drop s.moved
  moved_le : s.moved ≤ total.length

section Ends
variable {plan : Delivery} {b total : List UInt8} {fault : IoFault}
  (hends : Ends plan b total fault)
include hends

theorem Ends.start : total <+: b := by
  cases hends with
  | input => exact List.prefix_rfl
  | stalled => exact List.take_prefix _ _

theorem Ends.of_stall {limit moved : Nat} {stall : Stall} (hs : plan.stall = some (limit, stall))
    (hge : limit ≤ moved) (hle : moved ≤ total.length) :
    moved = total.length ∧ fault = stall.readFault := by
  cases hends with
  | input h =>
    have := h limit stall hs
    omega
  | stalled h inside =>
    rw [hs] at h
    cases h
    rw [List.length_take] at hle ⊢
    exact ⟨by omega, rfl⟩

/-- A call in front of the stall that finds no bytes is one at the end of the input. -/
theorem Ends.of_empty {moved n : Nat}
    (hroom : ∀ {limit stall}, plan.stall = some (limit, stall) → moved + (n + 1) ≤ limit)
    (hge : b.length ≤ moved) (hle : moved ≤ total.length) :
    moved = total.length ∧ fault = .endOfInput := by
  cases hends with
  | input => exact ⟨by omega, rfl⟩
  | stalled h inside =>
    have := hroom h
    omega

theorem Ends.le_length {n : Nat}
    (hroom : ∀ {limit stall}, plan.stall = some (limit, stall) → n ≤ limit) (hle : n ≤ b.length) :
    n ≤ total.length := by
  cases hends with
  | input => exact hle
  | stalled h inside =>
    rw [List.length_take]
    have := hroom h
    omega

theorem Ends.take_drop {moved n : Nat} (h : moved + n ≤ total.length) :
    (b.drop moved).take n = (total.drop moved).take n := by
  obtain ⟨rest, hrest⟩ := hends.start
  rw [← hrest, List.drop_append_of_le_length (by omega),
    List.take_append_of_le_length (by rw [List.length_drop]; omega)]

/-! ### One call -/

section Call
variable {s : PlannedSource} {wanted : Nat} (hs : Partway plan b total s)
include hs

theorem Partway.of_fails {fault' : IoFault}
    (hreply : s.plan.reply s.calls s.moved wanted = .fails fault') :
    s.moved = total.length ∧ fault = fault' := by
  obtain ⟨limit, hstall, hge⟩ := Delivery.of_fails hreply
  rw [hs.plan_eq] at hstall
  exact hends.of_stall hstall hge hs.moved_le

theorem Partway.of_nothing {m : Nat} (hchunk : plan.chunk ≠ some 0) (hwanted : 0 < wanted)
    (hreply : s.plan.reply s.calls s.moved wanted = .moves m) (hempty : s.bytes.take m = []) :
    s.moved = total.length ∧ fault = .endOfInput := by
  rw [hs.plan_eq] at hreply
  cases m with
  | zero =>
    obtain ⟨limit, hstall, hge⟩ := Delivery.of_moves_zero hchunk hwanted hreply
    exact hends.of_stall hstall hge hs.moved_le
  | succ m =>
    have hnil : s.bytes = [] := by
      have := List.take_eq_nil_iff.mp hempty
      simpa using this
    rw [hs.bytes_eq, List.drop_eq_nil_iff] at hnil
    exact hends.of_empty (fun hstall => Delivery.of_moves hreply hstall) hnil hs.moved_le

/-- The bytes that a call delivers are in front of the stall. -/
theorem Partway.advance {m : Nat} (hreply : s.plan.reply s.calls s.moved wanted = .moves m)
    (hpart : s.bytes.take m ≠ []) :
    Partway plan b total (s.advance (s.bytes.take m).length) ∧
      s.bytes.take m = (total.drop s.moved).take (s.bytes.take m).length := by
  have hlen : (s.bytes.take m).length ≤ m := List.length_take_le ..
  have hpos : 0 < (s.bytes.take m).length := List.length_pos_iff.mpr hpart
  have hinput : s.moved + (s.bytes.take m).length ≤ b.length := by
    have hfew : (s.bytes.take m).length ≤ (b.drop s.moved).length := by
      rw [← hs.bytes_eq]
      exact List.length_take_le' ..
    rw [List.length_drop] at hfew
    omega
  have hroom : s.moved + (s.bytes.take m).length ≤ total.length := by
    refine hends.le_length (fun hstall => ?_) hinput
    obtain ⟨k, rfl⟩ := Nat.exists_eq_add_one_of_ne_zero (show m ≠ 0 by omega)
    rw [hs.plan_eq] at hreply
    have := Delivery.of_moves hreply hstall
    omega
  refine ⟨⟨hs.plan_eq, ?_, hroom⟩, ?_⟩
  · simp only [PlannedSource.advance, hs.bytes_eq, List.drop_drop]
  · rw [← hends.take_drop hroom, ← hs.bytes_eq]
    exact List.prefix_iff_eq_take.mp (List.take_prefix m s.bytes)

end Call

/-! ### One read -/

theorem fill_spec (hchunk : plan.chunk ≠ some 0) {n : Nat} {s : PlannedSource}
    {got : Array UInt8} (fits : got.size ≤ n) (hs : Partway plan b total s) :
    (s.moved + (n - got.size) ≤ total.length → ∃ part after, fill n s got fits = (.ok part, after) ∧
      part.toList = got.toList ++ (total.drop s.moved).take (n - got.size) ∧
      Partway plan b total after ∧ after.moved = s.moved + (n - got.size)) ∧
    (total.length < s.moved + (n - got.size) → ∃ after, fill n s got fits = (.error fault, after) ∧
      after.moved = total.length) := by
  -- one case for each reply; only a repeated call and one that delivers go on
  fun_induction fill n s got fits with
  | case1 s got fits full =>
    have := hs.moved_le
    refine ⟨fun _ => ⟨_, s, rfl, ?_, hs, by omega⟩, fun hlt => by omega⟩
    simp [full, Vector.toList]
  | case2 s got fits hfull hreply ih => exact ih ⟨hs.plan_eq, hs.bytes_eq, hs.moved_le⟩
  | case3 s got fits hfull fault' hreply =>
    obtain ⟨hmoved, rfl⟩ := hs.of_fails hends hreply
    exact ⟨fun _ => by omega, fun _ => ⟨_, rfl, hmoved⟩⟩
  | case4 s got fits hfull m hreply part hempty =>
    obtain ⟨hmoved, rfl⟩ := hs.of_nothing hends hchunk (by omega) hreply hempty
    exact ⟨fun _ => by omega, fun _ => ⟨_, rfl, hmoved⟩⟩
  | case5 s got fits hfull m hreply part hpart ih =>
    obtain ⟨hstate, hbytes⟩ : Partway plan b total (s.advance part.length) ∧
        part = (total.drop s.moved).take part.length := hs.advance hends hreply hpart
    have hwanted := Delivery.le_of_reply hreply
    have hlen : part.length ≤ m := List.length_take_le ..
    have hgot : (got ++ part.toArray).size = got.size + part.length := by simp
    have hmore : s.moved + part.length + (n - (got.size + part.length)) =
        s.moved + (n - got.size) := by omega
    have hsum : n - got.size = part.length + (n - (got.size + part.length)) := by omega
    have hstep := ih hstate
    simp only [hgot, advance, hmore] at hstep
    refine ⟨fun henough => ?_, hstep.2⟩
    obtain ⟨all, after, hfill, hlist, hafter, hmoved⟩ := hstep.1 henough
    refine ⟨all, after, hfill, ?_, hafter, hmoved⟩
    rw [hlist, hsum, List.take_add, List.drop_drop, ← hbytes]
    simp

end Ends

/-- **What a source with a plan delivers.** -/
theorem delivers {plan : Delivery} (hchunk : plan.chunk ≠ some 0) {b total : List UInt8}
    {fault : IoFault} (hends : Ends plan b total fault) :
    Source.Delivers total fault (Partway plan b total) moved := by
  constructor
  · intro n s hs hle
    exact (fill_spec hends hchunk (Nat.zero_le n) hs).1 hle
  · intro n s hs hlt
    exact (fill_spec hends hchunk (Nat.zero_le n) hs).2 hlt

end PlannedSource

end LocalScopes
