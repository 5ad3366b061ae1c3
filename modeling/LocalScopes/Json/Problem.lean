import LocalScopes.Json.Number
import LocalScopes.Text.Quoted

/-! # Problems in JSON texts

A text that is no JSON is malformed. A text that is JSON where it was read, and yet does not hold
what was looked for, has a problem in its data; that problem is named. -/

namespace LocalScopes.Json

/-- The members of a scope. -/
inductive Field where
  | start
  | length
  | name
  | descriptor
  | slot
deriving DecidableEq, Repr

namespace Field

/-- The key of a member. -/
def key : Field → String
  | start => "start_offset"
  | length => "length"
  | name => "name"
  | descriptor => "descriptor"
  | slot => "slot"

/-- The members in the order in which they are written. -/
def all : List Field := [start, length, name, descriptor, slot]

/-- The member of a key, if the key is one of a scope. -/
def ofKey? (key : String) : Option Field := all.find? fun f => f.key = key

end Field

/-- The start of a value: all of a value that is no container, or the opening bracket of one. -/
inductive Head where
  | null
  | boolean (b : Bool)
  | number (n : Number)
  | text (s : String)
  | sequence
  | map
deriving DecidableEq

/-- What a reader looks for. -/
inductive Expected where
  | scope
  | sequence
  | word
  | text
deriving DecidableEq, Repr

/-- A problem in the data of a text. -/
inductive DataError where
  | wrongKind (found : Head) (expected : Expected)
  | outOfRange (n : Int)
  /-- A sequence ends after fewer values than a scope has. -/
  | tooShort (length : Nat)
  /-- A member stands in an object twice. -/
  | duplicate (field : Field)
  | missing (field : Field)
deriving DecidableEq

/-- Why a text was refused. -/
inductive Problem where
  | malformed
  | data (error : DataError)
deriving DecidableEq

/-! ### Wordings -/

/-- The wording of what stands in a text. -/
def Head.description : Head → String
  | null => "null"
  | boolean b => s!"boolean `{b}`"
  | number (.integer n) => s!"integer `{n}`"
  | number (.float negative magnitude) => s!"floating point `{floatText negative magnitude}`"
  | text s => s!"string {Text.quoted s}"
  | sequence => "sequence"
  | map => "map"

/-- The wording of what was looked for. -/
def Expected.description : Expected → String
  | scope => "struct Scope"
  | sequence => "a sequence"
  | word => "u16"
  | text => "a string"

/-- The wording of a problem in the data. -/
def DataError.message : DataError → String
  | wrongKind found expected =>
    s!"invalid type: {found.description}, expected {expected.description}"
  | outOfRange n => s!"invalid value: integer `{n}`, expected {Expected.word.description}"
  | tooShort length =>
    s!"invalid length {length}, expected {Expected.scope.description} with 5 elements"
  | duplicate field => s!"duplicate field `{field.key}`"
  | missing field => s!"missing field `{field.key}`"

end LocalScopes.Json
