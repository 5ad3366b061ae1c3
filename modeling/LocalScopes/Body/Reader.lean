import LocalScopes.Event
import LocalScopes.Table
import LocalScopes.Body.Record
import LocalScopes.Bytes.Stream

/-! # Reading a body

A body is read record by record. The first record that is missing or incomplete, or that refers to
a symbol which the pool refuses, ends the reading, and no part of the table is answered then. A
record is completed before its symbols are looked at.

* `Body.read`: from any source;
* `Body.readBytes`: from a list of bytes, with the number of bytes that were read. -/

namespace LocalScopes.Body

/-- Why a body could not be read: the input ended after `decoded` of the `expected` records, the
pool refuses an index, or the source failed. -/
inductive ReadError where
  | truncated (expected decoded : Nat)
  | unresolved (index : UInt16) (cause : SymbolError)
  | io (fault : IoFault)
deriving DecidableEq

namespace ReadError

/-- The texts of what lies behind a failure. -/
def causes : ReadError → List String
  | truncated .. => []
  | unresolved _ cause => [cause.message]
  | io fault => [fault.message]

/-- The wording of a failure. -/
def message : ReadError → String
  | truncated expected decoded =>
    s!"truncated input: expected {expected} scope records, decoded {decoded}"
  | unresolved index cause => s!"malformed symbol reference #{index}: {cause.message}"
  | io fault => s!"I/O error: {fault.message}"

end ReadError

/-- What reading a body came to, the source behind the last byte that was taken, and the events in
order. -/
structure Reading (ρ : Type) where
  answer : Except ReadError Table
  rest : ρ
  events : Array Event

/-- The end of a reading whose source answered with `fault`. The end of the input counts as
truncation, and is warned about. -/
def Reading.broken {ρ : Type} (fault : IoFault) (expected decoded : Nat) (rest : ρ)
    (events : Array Event) : Reading ρ :=
  if fault.kind = .unexpectedEnd then
    ⟨.error (.truncated expected decoded), rest, events.push (.truncated expected decoded)⟩
  else ⟨.error (.io fault), rest, events⟩

variable {ρ : Type} [Source ρ]

/-- Reads the last `missing` of `declared` records; the scopes of the others are known. -/
def readRecords (pool : Resolver) (declared : Nat) :
    (missing : Nat) → ρ → Array Scope → Array Event → Reading ρ
  | 0, source, scopes, events => ⟨.ok ⟨scopes.toList⟩, source, events⟩
  | missing + 1, source, scopes, events =>
    match Source.take recordSize source with
    | (.error fault, rest) => .broken fault declared scopes.size rest events
    | (.ok bytes, rest) =>
      match (Record.ofBytes bytes).resolve pool with
      | .error (index, cause) =>
        ⟨.error (.unresolved index cause), rest, events.push (.unresolved index cause)⟩
      | .ok scope =>
        readRecords pool declared missing rest (scopes.push scope) (events.push (.scopeRead scope))

/-- Reads a body. -/
def read (pool : Resolver) (source : ρ) : Reading ρ :=
  match Source.take headerSize source with
  | (.error fault, rest) => .broken fault 0 0 rest #[]
  | (.ok header, rest) =>
    let count := Word.join header[0] header[1]
    readRecords pool count.toNat count.toNat rest #[] #[.reading count]

/-- Reads the body at the start of a list of bytes. Answers with the table and the number of bytes
that the body takes. -/
def readBytes (pool : Resolver) (bytes : List UInt8) :
    Traced (Except ReadError (Table × Nat)) :=
  let reading := read pool bytes
  ⟨reading.answer.map fun table => (table, bytes.length - reading.rest.length), reading.events⟩

end LocalScopes.Body
