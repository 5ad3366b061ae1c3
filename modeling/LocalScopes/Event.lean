import LocalScopes.Symbol
import LocalScopes.Table

/-! # Events

What the library reports beside its answers, in the order in which it happens. An operation that
reports hands its events back with its answer (`Traced`), and nothing is written anywhere else. -/

namespace LocalScopes

/-- How loud an event is. -/
inductive Level where
  | error
  | warn
  | info
  | debug
  | trace
deriving DecidableEq, Repr

/-- What the library reports. -/
inductive Event where
  | reading (count : UInt16)
  | scopeRead (scope : Scope)
  | truncated (expected decoded : Nat)
  | unresolved (index : UInt16) (cause : SymbolError)
  | merging (existing incoming : Nat)
  | poolExhausted (kept dropped : Nat)
  | trailingBytes (consumed length : Nat)
deriving DecidableEq

/-- An answer and the events that were raised while it was found. -/
structure Traced (α : Type) where
  value : α
  events : Array Event

namespace Event

/-- The loudness of an event. -/
def level : Event → Level
  | reading .. | merging .. => .debug
  | scopeRead .. => .trace
  | truncated .. | unresolved .. | poolExhausted .. | trailingBytes .. => .warn

/-- The event warns. -/
def IsWarning (e : Event) : Prop := e.level = .warn

instance (e : Event) : Decidable e.IsWarning := inferInstanceAs (Decidable (_ = _))

/-- The part of the library that raises the event. -/
def target : Event → String
  | reading .. | scopeRead .. | truncated .. | unresolved .. => "varscope_core::codec"
  | merging .. => "varscope_core::table"
  | poolExhausted .. => "varscope_core::pool"
  | trailingBytes .. => "varscope_java::pool"

/-- The wording of an event. -/
def message : Event → String
  | reading .. => "decoding scope table"
  | scopeRead .. => "scope"
  | truncated .. => "scope table truncated"
  | unresolved _ cause => s!"unresolvable symbol in scope table: {cause.message}"
  | merging .. => "merging scope tables"
  | poolExhausted .. => "string pool index space exhausted, dropping remaining strings"
  | trailingBytes .. => "trailing bytes after local variable table"

/-- The named values that an event carries, in the order in which they are written. -/
def fields : Event → List (String × String)
  | reading count => [("count", toString count)]
  | scopeRead s =>
    [("slot", toString s.slot), ("start_offset", toString s.start), ("length", toString s.length),
      ("name", s.name), ("descriptor", s.descriptor)]
  | truncated expected decoded =>
    [("expected", toString expected), ("decoded", toString decoded)]
  | unresolved index _ => [("index", toString index)]
  | merging existing incoming =>
    [("existing", toString existing), ("incoming", toString incoming)]
  | poolExhausted kept dropped => [("kept", toString kept), ("dropped", toString dropped)]
  | trailingBytes consumed length =>
    [("consumed", toString consumed), ("len", toString length)]

/-- The names of an event's fields; its wording is a field of its own. -/
def fieldNames (e : Event) : List String := "message" :: e.fields.map (·.1)

end Event

/-- The scopes of `t` and then those of `u`, with a report of their numbers. -/
def Table.join (t u : Table) : Traced Table := ⟨t ++ u, #[.merging t.size u.size]⟩

@[simp] theorem Table.value_join (t u : Table) : (t.join u).value = t ++ u := rfl

end LocalScopes
