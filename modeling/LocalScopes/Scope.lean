/-! # Scopes

A scope says which name and descriptor a local slot carries over a range of instruction offsets.
The range is half open: it starts at `start` and covers `length` offsets. Its end is taken in the
natural numbers, so a range may run past the last 16-bit offset without wrapping. -/

namespace LocalScopes

/-- The debug record of one local variable: the first offset and the number of offsets of its range,
its name, its type descriptor and the slot that holds it. -/
structure Scope where
  start : UInt16
  length : UInt16
  name : String
  descriptor : String
  slot : UInt16
deriving DecidableEq, Inhabited

namespace Scope

/-- First offset after the range. -/
def stop (s : Scope) : Nat := s.start.toNat + s.length.toNat

/-- The range of `s` covers `offset`. -/
def Covers (s : Scope) (offset : UInt16) : Prop :=
  s.start.toNat ≤ offset.toNat ∧ offset.toNat < s.stop

instance (s : Scope) (offset : UInt16) : Decidable (s.Covers offset) :=
  inferInstanceAs (Decidable (_ ∧ _))

/-- The scope opens with the method, so its variable is a parameter. -/
def AtEntry (s : Scope) : Prop := s.start = 0

instance (s : Scope) : Decidable s.AtEntry := inferInstanceAs (Decidable (_ = _))

/-! ### Empty ranges and parameters -/

theorem not_covers_of_length_eq_zero {s : Scope} (h : s.length = 0) (offset : UInt16) :
    ¬ s.Covers offset := by
  simp only [Covers, stop, h, UInt16.toNat_zero]
  omega

/-- The scopes that cover offset 0 are the parameters with a nonempty range. -/
theorem covers_zero_iff {s : Scope} : s.Covers 0 ↔ s.AtEntry ∧ s.length ≠ 0 := by
  simp only [Covers, AtEntry, stop, ne_eq, ← UInt16.toNat_inj, UInt16.toNat_zero]
  omega

end Scope

end LocalScopes
