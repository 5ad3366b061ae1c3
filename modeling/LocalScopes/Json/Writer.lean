import LocalScopes.Json.Problem
import LocalScopes.Json.StringLiteral
import LocalScopes.Table

/-! # Writing scopes as JSON

A scope is written as an object with its members in order, and a table as the sequence of its
scopes. Nothing stands between tokens.

* `Scope.toJson`, `Table.toJson`: the texts of a scope and a table. -/

namespace LocalScopes

namespace Json

/-- The written form of a member. -/
def member (field : Field) (value : String) : String :=
  StringLiteral.written field.key ++ ":" ++ value

/-- The written form of a 16-bit word. -/
def word16 (w : UInt16) : String := toString w.toNat

end Json

/-- The JSON text of a scope. -/
def Scope.toJson (s : Scope) : String :=
  let members := [Json.member .start (Json.word16 s.start),
    Json.member .length (Json.word16 s.length),
    Json.member .name (Json.StringLiteral.written s.name),
    Json.member .descriptor (Json.StringLiteral.written s.descriptor),
    Json.member .slot (Json.word16 s.slot)]
  "\x7b" ++ ",".intercalate members ++ "\x7d"

/-- The JSON text of a table. -/
def Table.toJson (t : Table) : String := "[" ++ ",".intercalate (t.scopes.map Scope.toJson) ++ "]"

end LocalScopes
