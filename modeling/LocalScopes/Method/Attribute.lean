import LocalScopes.Body.Reader
import LocalScopes.Symbol.ClassConstants

/-! # The local-variable attribute of a method

The body of the attribute is read against the constants of the class. Bytes behind the last record
do no harm, and are warned about. -/

namespace LocalScopes

/-- Why the scopes of a method could not be read: what went wrong in the body. -/
structure AttributeError where
  cause : Body.ReadError
deriving DecidableEq

namespace AttributeError

/-- The texts of what lies behind a failure. -/
def causes (e : AttributeError) : List String := e.cause.message :: e.cause.causes

/-- The wording of a failure. -/
def message (e : AttributeError) : String := s!"scope table error: {e.cause.message}"

end AttributeError

/-- Reads the scopes of a method from the body of its attribute. -/
def Method.readScopes (constants : ClassConstants) (body : List UInt8) :
    Traced (Except AttributeError Table) :=
  let reading := Body.readBytes constants.resolve body
  match reading.value with
  | .error e => ⟨.error ⟨e⟩, reading.events⟩
  | .ok (table, consumed) =>
    if consumed = body.length then ⟨.ok table, reading.events⟩
    else ⟨.ok table, reading.events.push (.trailingBytes consumed body.length)⟩

end LocalScopes
