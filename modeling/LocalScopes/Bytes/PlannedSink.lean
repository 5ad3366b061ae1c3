import LocalScopes.Bytes.Delivery

/-! # Sinks with a plan

A sink that takes its bytes by a plan. A write repeats its calls until all its bytes are taken: an
interrupted call is made again, and a short one is continued. A call that takes nothing is a fault.
Each repetition takes a byte or uses up an interruption, so there is an end to them. -/

namespace LocalScopes

/-- A sink that takes its bytes by a plan, after a number of calls. -/
structure PlannedSink where
  written : Array UInt8 := #[]
  plan : Delivery
  calls : Nat := 0

namespace PlannedSink

/-- The sink after one more call, which took `part`. -/
def advance (s : PlannedSink) (part : List UInt8) : PlannedSink :=
  { s with written := s.written ++ part.toArray, calls := s.calls + 1 }

/-- Calls the sink until it has taken all of `bytes`. -/
def drain : List UInt8 → PlannedSink → Except IoFault Unit × PlannedSink
  | [], s => (.ok (), s)
  | byte :: rest, s =>
    match reply : s.plan.reply s.calls s.written.size (rest.length + 1) with
    | .interrupted =>
      have := Delivery.pending_succ_lt reply
      drain (byte :: rest) (s.advance [])
    | .fails fault => (.error fault, s.advance [])
    | .moves 0 => (.error .nothingWritten, s.advance [])
    | .moves (m + 1) => drain (rest.drop m) (s.advance (byte :: rest.take m))
termination_by bytes s => (bytes.length, s.plan.pending s.calls)
decreasing_by
  · exact Prod.Lex.right _ this
  · apply Prod.Lex.left
    simp only [List.length_drop, List.length_cons]
    omega

instance : Sink PlannedSink := ⟨drain⟩

end PlannedSink

end LocalScopes
