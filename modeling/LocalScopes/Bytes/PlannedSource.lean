import LocalScopes.Bytes.Delivery

/-! # Sources with a plan

A source that delivers its bytes by a plan. A read repeats its calls until it has all its bytes: an
interrupted call is made again, and a short one is continued. A call that delivers nothing ends the
input. Each repetition delivers a byte or uses up an interruption, so there is an end to them. -/

namespace LocalScopes

/-- A source that delivers its bytes by a plan, after a number of calls that have moved some of
them. -/
structure PlannedSource where
  bytes : List UInt8
  plan : Delivery
  calls : Nat := 0
  moved : Nat := 0

namespace PlannedSource

/-- The source after one more call, which delivered `n` bytes. -/
def advance (s : PlannedSource) (n : Nat) : PlannedSource :=
  { s with bytes := s.bytes.drop n, calls := s.calls + 1, moved := s.moved + n }

/-- Calls the source until `n` bytes are there, of which it has `got`. -/
def fill (n : Nat) (s : PlannedSource) (got : Array UInt8) (fits : got.size ≤ n) :
    Except IoFault (Vector UInt8 n) × PlannedSource :=
  if full : got.size = n then (.ok ⟨got, full⟩, s)
  else
    match reply : s.plan.reply s.calls s.moved (n - got.size) with
    | .interrupted => fill n (s.advance 0) got fits
    | .fails fault => (.error fault, s.advance 0)
    | .moves m =>
      let part := s.bytes.take m
      if empty : part = [] then (.error .endOfInput, s.advance 0)
      else
        fill n (s.advance part.length) (got ++ part.toArray) (by
          have := Delivery.le_of_reply reply
          have : part.length ≤ m := List.length_take_le ..
          simp only [Array.size_append, List.size_toArray]
          omega)
termination_by (n - got.size, s.plan.pending s.calls)
decreasing_by
  · exact Prod.Lex.right _ (Delivery.pending_succ_lt reply)
  · have := Delivery.le_of_reply reply
    have : 0 < (s.bytes.take m).length := List.length_pos_iff.mpr empty
    apply Prod.Lex.left
    simp only [Array.size_append, List.size_toArray]
    omega

instance : Source PlannedSource where
  take n s := fill n s #[] (Nat.zero_le n)

end PlannedSource

end LocalScopes
