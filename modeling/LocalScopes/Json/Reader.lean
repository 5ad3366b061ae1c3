import LocalScopes.Json.Member
import LocalScopes.Table

/-! # Reading scopes from JSON

A scope is an object or a sequence, and a table is a sequence of scopes. A text is read from left
to right, and the first problem in it is answered. Only blanks may follow the value.

* `Scope.ofJson`, `Table.ofJson`: the scope and the table of a text. -/

namespace LocalScopes

namespace Json

/-- Reads a scope. -/
def readScope (text : List Char) : Except Problem (Scope × List Char) :=
  match readHead text with
  | .error p => .error p
  | .ok (.map, rest) => readObject rest
  | .ok (.sequence, rest) => readElements rest
  | .ok (head, _) => .error (.data (.wrongKind head .scope))

theorem length_readScope {text rest : List Char} {s : Scope}
    (h : readScope text = .ok (s, rest)) : rest.length < text.length := by
  unfold readScope at h
  split at h
  · simp at h
  · have := length_readHead ‹_›
    have := length_readObject h
    omega
  · have := length_readHead ‹_›
    have := length_readElements h
    omega
  · simp at h

/-- Reads the scopes of a sequence from one of them on, behind those in `scopes`. -/
def readScopes (scopes : Array Scope) (text : List Char) :
    Except Problem (Array Scope × List Char) :=
  match e : readScope text with
  | .error p => .error p
  | .ok (s, behind) =>
    have := length_readScope e
    match b : skipBlanks behind with
    | [] => malformed
    | c :: rest =>
      have := length_lt_of_skipBlanks b
      if c = ',' then readScopes (scopes.push s) rest
      else if c = ']' then .ok (scopes.push s, rest)
      else malformed
termination_by text.length

theorem readScopes_eq (scopes : Array Scope) (text : List Char) :
    readScopes scopes text = (do
      let (s, rest) ← readScope text
      match skipBlanks rest with
      | ',' :: rest => readScopes (scopes.push s) rest
      | ']' :: rest => .ok (scopes.push s, rest)
      | _ => malformed) := by
  rw [readScopes]
  split
  · simp [*, bind, Except.bind]
  · simp only [*, bind, Except.bind]
    split
    · simp [*]
    · split
      · simp [*]
      · split
        · simp [*]
        · simp [*]

/-- Reads the scopes of a sequence, behind its opening bracket. -/
def readSequence (text : List Char) : Except Problem (Array Scope × List Char) :=
  match skipBlanks text with
  | ']' :: rest => .ok (#[], rest)
  | _ => readScopes #[] text

/-- Reads a table. -/
def readTable (text : List Char) : Except Problem (Table × List Char) :=
  match readHead text with
  | .error p => .error p
  | .ok (.sequence, rest) => (readSequence rest).map fun r => (⟨r.1.toList⟩, r.2)
  | .ok (head, _) => .error (.data (.wrongKind head .sequence))

/-- What a reader finds in a text that holds nothing else. -/
def readAll {α : Type} (read : List Char → Except Problem (α × List Char)) (text : String) :
    Except Problem α :=
  match read text.toList with
  | .error p => .error p
  | .ok (a, rest) => if skipBlanks rest = [] then .ok a else malformed

end Json

/-- The scope of a JSON text. -/
def Scope.ofJson (text : String) : Except Json.Problem Scope := Json.readAll Json.readScope text

/-- The table of a JSON text. -/
def Table.ofJson (text : String) : Except Json.Problem Table := Json.readAll Json.readTable text

end LocalScopes
