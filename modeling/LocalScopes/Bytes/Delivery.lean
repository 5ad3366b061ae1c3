import LocalScopes.Bytes.Stream

/-! # Delivery plans

A stream may move bytes in small portions, may be interrupted, and may stall for good once a
number of bytes has moved. A plan fixes how the calls on such a stream go.

* `Delivery.pending_succ_lt`: an interrupted call uses up one of the interruptions of the plan;
* `Delivery.le_of_reply`: a call moves no more than it asks for. -/

namespace LocalScopes

/-- What every call does once a stream has stalled. -/
inductive Stall where
  | silent
  | failing (fault : IoFault)

/-- How the calls on a stream go: the most bytes that one call moves, the calls that are
interrupted, by number from 0 on, and the number of bytes after which the stream stalls. -/
structure Delivery where
  chunk : Option Nat
  interrupts : List Nat
  stall : Option (Nat × Stall)

/-- How one call goes; an interrupted one has to be made again. -/
inductive Reply where
  | interrupted
  | moves (n : Nat)
  | fails (fault : IoFault)

namespace Delivery

/-- The most bytes that a call moves before the stream stalls. -/
def portion (d : Delivery) (wanted : Nat) : Nat := min wanted (d.chunk.getD wanted)

/-- How call number `calls` goes if it asks for `wanted` bytes when `moved` have moved. -/
def reply (d : Delivery) (calls moved wanted : Nat) : Reply :=
  if calls ∈ d.interrupts then .interrupted
  else
    match d.stall with
    | none => .moves (d.portion wanted)
    | some (limit, stall) =>
      if moved < limit then .moves (min (d.portion wanted) (limit - moved))
      else
        match stall with
        | .silent => .moves 0
        | .failing fault => .fails fault

/-- The number of interruptions that call number `calls` and those after it may meet. -/
def pending (d : Delivery) (calls : Nat) : Nat := (d.interrupts.filter (calls ≤ ·)).length

theorem mem_interrupts_of_reply {d : Delivery} {calls moved wanted : Nat}
    (h : d.reply calls moved wanted = .interrupted) : calls ∈ d.interrupts := by
  unfold reply at h
  split at h
  · assumption
  · split at h
    · simp at h
    · split at h
      · simp at h
      · split at h <;> simp at h

theorem le_of_reply {d : Delivery} {calls moved wanted n : Nat}
    (h : d.reply calls moved wanted = .moves n) : n ≤ wanted := by
  have portion_le : d.portion wanted ≤ wanted := Nat.min_le_left ..
  unfold reply at h
  split at h
  · simp at h
  · split at h
    · simp only [Reply.moves.injEq] at h
      omega
    · split at h
      · simp only [Reply.moves.injEq] at h
        omega
      · split at h
        · simp only [Reply.moves.injEq] at h
          omega
        · simp at h

theorem length_filter_succ_le (l : List Nat) (a : Nat) :
    (l.filter (a + 1 ≤ ·)).length ≤ (l.filter (a ≤ ·)).length := by
  rw [← List.countP_eq_length_filter, ← List.countP_eq_length_filter]
  refine List.countP_mono_left fun b _ hb => ?_
  simp only [decide_eq_true_eq] at hb ⊢
  omega

theorem length_filter_succ_lt {l : List Nat} {a : Nat} (h : a ∈ l) :
    (l.filter (a + 1 ≤ ·)).length < (l.filter (a ≤ ·)).length := by
  induction l with
  | nil => simp at h
  | cons b l ih =>
    have := length_filter_succ_le l a
    rw [List.filter_cons, List.filter_cons]
    rcases List.mem_cons.mp h with rfl | h
    · rw [if_neg (by simp), if_pos (by simp), List.length_cons]
      omega
    · have := ih h
      by_cases after : a + 1 ≤ b
      · rw [if_pos (by simpa using after), if_pos (by simpa using Nat.le_of_succ_le after)]
        simpa using this
      · rw [if_neg (by simpa using after)]
        split
        · rw [List.length_cons]
          omega
        · exact this

theorem pending_succ_lt {d : Delivery} {calls moved wanted : Nat}
    (h : d.reply calls moved wanted = .interrupted) : d.pending (calls + 1) < d.pending calls :=
  length_filter_succ_lt (mem_interrupts_of_reply h)

end Delivery

end LocalScopes
