import LocalScopes.Table
import LocalScopes.Body.Record
import LocalScopes.Bytes.Stream

/-! # Writing a body

A table is written scope by scope. Both symbols of a scope get their indices, the name first, and
then the words of the record are written one by one. A failure ends the writing; what was written
and interned before stays.

* `Body.write`: to any sink, with any interner. -/

namespace LocalScopes.Body

/-- Why a table could not be written. -/
inductive WriteError where
  /-- The table has more scopes than a body can declare. -/
  | tooManyScopes (count : Nat)
  | unindexed (symbol : String) (cause : SymbolError)
  | io (fault : IoFault)
deriving DecidableEq

namespace WriteError

/-- The texts of what lies behind a failure. -/
def causes : WriteError → List String
  | tooManyScopes _ => []
  | unindexed _ cause => [cause.message]
  | io fault => [fault.message]

/-- The wording of a failure. -/
def message : WriteError → String
  | tooManyScopes count => s!"too many scopes to encode: {count}"
  | unindexed symbol cause => s!"failed to intern symbol {Text.quoted symbol}: {cause.message}"
  | io fault => s!"I/O error: {fault.message}"

end WriteError

/-- What writing a table came to, the sink with what was written, and the interner's state. -/
structure Writing (ω σ : Type) where
  answer : Except WriteError Unit
  sink : ω
  symbols : σ

variable {ω σ : Type} [Sink ω]

/-- The indices of a scope's name and descriptor. -/
def internScope (intern : Interner σ) (s : Scope) (symbols : σ) :
    Except WriteError (UInt16 × UInt16) × σ :=
  match intern s.name symbols with
  | (.error cause, symbols) => (.error (.unindexed s.name cause), symbols)
  | (.ok nameIndex, symbols) =>
    match intern s.descriptor symbols with
    | (.error cause, symbols) => (.error (.unindexed s.descriptor cause), symbols)
    | (.ok descriptorIndex, symbols) => (.ok (nameIndex, descriptorIndex), symbols)

/-- Writes the records of scopes. -/
def writeRecords (intern : Interner σ) : List Scope → ω → σ → Writing ω σ
  | [], sink, symbols => ⟨.ok (), sink, symbols⟩
  | s :: rest, sink, symbols =>
    match internScope intern s symbols with
    | (.error e, symbols) => ⟨.error e, sink, symbols⟩
    | (.ok (nameIndex, descriptorIndex), symbols) =>
      match Sink.putAll ((Record.ofScope s nameIndex descriptorIndex).words.map Word.bytes)
          sink with
      | (.error fault, sink) => ⟨.error (.io fault), sink, symbols⟩
      | (.ok (), sink) => writeRecords intern rest sink symbols

/-- Writes a table. A table that is too long is refused before anything is written. -/
def write (intern : Interner σ) (t : Table) (sink : ω) (symbols : σ) : Writing ω σ :=
  if t.size ≤ maxCount then
    match Sink.put (Word.bytes (UInt16.ofNat t.size)) sink with
    | (.error fault, sink) => ⟨.error (.io fault), sink, symbols⟩
    | (.ok (), sink) => writeRecords intern t.scopes sink symbols
  else ⟨.error (.tooManyScopes t.size), sink, symbols⟩

end LocalScopes.Body
