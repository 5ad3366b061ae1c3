import LocalScopes.Text.Quoted

/-! # Symbols

Names and descriptors are stored apart from the records that use them, and a record refers to one
by a 16-bit index. A pool answers what an index stands for; an interner answers which index a
string has, and may change while it does so. Either may refuse, and says why. -/

namespace LocalScopes

/-- Why an index of a class file's constants names no text. -/
inductive ConstantFault where
  | noConstant
  | notText
deriving DecidableEq, Repr

/-- Why a pool or an interner refused. A pool from elsewhere says so in its own words. -/
inductive SymbolError where
  | noEntry (index : UInt16)
  | poolFull (symbol : String)
  | badConstant (index : UInt16) (fault : ConstantFault)
  | refused (text : String)
deriving DecidableEq, Repr

/-- What each index stands for. -/
abbrev Resolver := UInt16 → Except SymbolError String

/-- The index of a string, and the interner's state after it was asked for. -/
abbrev Interner (σ : Type) := String → σ → Except SymbolError UInt16 × σ

/-- The label of the fault at an index. -/
def ConstantFault.label (index : UInt16) : ConstantFault → String
  | noConstant => s!"InvalidConstantPoolIndex({index})"
  | notText => s!"InvalidConstantPoolIndexType({index})"

/-- The wording of a refusal. -/
def SymbolError.message : SymbolError → String
  | noEntry index => s!"no string constant at index {index}"
  | poolFull symbol => s!"string pool is full, cannot intern {Text.quoted symbol}"
  | badConstant index fault => s!"constant #{index} is not a UTF-8 entry: {fault.label index}"
  | refused text => text

end LocalScopes
