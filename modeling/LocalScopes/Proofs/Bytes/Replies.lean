import Mathlib.Tactic.SplitIfs
import LocalScopes.Bytes.Delivery

/-! # Replies of a plan

What a reply says about the plan behind it. A call that moves bytes does not pass the stall, a call
that fails is one on a stalled stream, and so is one that moves nothing, if portions are not empty.
What a stall comes to depends on the direction: nothing read is the end of the input, and nothing
written is a fault of its own. -/

namespace LocalScopes

namespace Stall

/-- The fault of a read on a stalled stream. -/
def readFault : Stall → IoFault
  | silent => .endOfInput
  | failing fault => fault

/-- The fault of a write on a stalled stream. -/
def writeFault : Stall → IoFault
  | silent => .nothingWritten
  | failing fault => fault

end Stall

namespace Delivery

variable {d : Delivery} {calls moved wanted : Nat}

theorem portion_pos (h : d.chunk ≠ some 0) (hw : 0 < wanted) : 0 < d.portion wanted := by
  unfold portion
  rcases hc : d.chunk with _ | c
  · simp only [Option.getD_none]
    omega
  · have : c ≠ 0 := fun h0 => h (by rw [hc, h0])
    simp only [Option.getD_some]
    omega

theorem of_moves {n : Nat} (h : d.reply calls moved wanted = .moves (n + 1)) {limit : Nat}
    {stall : Stall} (hs : d.stall = some (limit, stall)) : moved + (n + 1) ≤ limit := by
  unfold reply at h
  rw [hs] at h
  dsimp only at h
  split_ifs at h with hi hlt
  · simp only [Reply.moves.injEq] at h
    omega
  · cases stall <;> cases h

theorem of_moves_zero (hchunk : d.chunk ≠ some 0) (hw : 0 < wanted)
    (h : d.reply calls moved wanted = .moves 0) :
    ∃ limit, d.stall = some (limit, .silent) ∧ limit ≤ moved := by
  have hpos := portion_pos hchunk hw
  unfold reply at h
  split at h
  · cases h
  · rcases hs : d.stall with _ | ⟨limit, stall⟩
    · rw [hs] at h
      simp only [Reply.moves.injEq] at h
      omega
    · rw [hs] at h
      dsimp only at h
      split_ifs at h with hlt
      · simp only [Reply.moves.injEq] at h
        omega
      · cases stall with
        | silent => exact ⟨limit, rfl, Nat.le_of_not_lt hlt⟩
        | failing fault => cases h

theorem of_fails {fault : IoFault} (h : d.reply calls moved wanted = .fails fault) :
    ∃ limit, d.stall = some (limit, .failing fault) ∧ limit ≤ moved := by
  unfold reply at h
  split at h
  · cases h
  · rcases hs : d.stall with _ | ⟨limit, stall⟩
    · rw [hs] at h
      cases h
    · rw [hs] at h
      dsimp only at h
      split_ifs at h with hlt
      · cases stall with
        | silent => cases h
        | failing fault' =>
          cases h
          exact ⟨limit, rfl, Nat.le_of_not_lt hlt⟩

end Delivery

end LocalScopes
