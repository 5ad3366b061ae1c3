import LocalScopes.Json.Token
import LocalScopes.Scope

/-! # Scopes as sequences

A scope may be written as the sequence of its five values: start, length, name, descriptor and
slot.

* `readWord16`, `readText`: the values that a scope has;
* `readElements`: the five values. -/

namespace LocalScopes.Json

/-! ### Values -/

/-- Reads a 16-bit word. -/
def readWord16 (text : List Char) : Except Problem (UInt16 × List Char) :=
  match readHead text with
  | .error p => .error p
  | .ok (.number (.integer n), rest) =>
    if 0 ≤ n ∧ n < UInt16.size then .ok (UInt16.ofNat n.toNat, rest)
    else .error (.data (.outOfRange n))
  | .ok (head, _) => .error (.data (.wrongKind head .word))

/-- Reads a string. -/
def readText (text : List Char) : Except Problem (String × List Char) :=
  match readHead text with
  | .error p => .error p
  | .ok (.text s, rest) => .ok (s, rest)
  | .ok (head, _) => .error (.data (.wrongKind head .text))

/-! ### Elements -/

/-- The text from value number `index` of a scope on, which has a comma before it if it is not the
first. -/
def toElement (index : Nat) (text : List Char) : Except Problem (List Char) :=
  match skipBlanks text with
  | [] => malformed
  | c :: rest =>
    if c = ']' then .error (.data (.tooShort index))
    else if index = 0 then .ok (c :: rest)
    else if c = ',' then .ok rest
    else malformed

/-- The text behind a closing bracket. -/
def closeSequence (text : List Char) : Except Problem (List Char) :=
  match skipBlanks text with
  | ']' :: rest => .ok rest
  | _ => malformed

/-- Reads value number `index` of a scope. -/
def readElement {α : Type} (index : Nat) (read : List Char → Except Problem (α × List Char))
    (text : List Char) : Except Problem (α × List Char) :=
  (toElement index text).bind read

/-- Reads the five values of a scope, behind the opening bracket. -/
def readElements (text : List Char) : Except Problem (Scope × List Char) := do
  let (start, text) ← readElement 0 readWord16 text
  let (length, text) ← readElement 1 readWord16 text
  let (name, text) ← readElement 2 readText text
  let (descriptor, text) ← readElement 3 readText text
  let (slot, text) ← readElement 4 readWord16 text
  let text ← closeSequence text
  return (⟨start, length, name, descriptor, slot⟩, text)

/-! ### What is left of the text -/

theorem bind_eq_ok_iff {α β : Type} {x : Except Problem α} {f : α → Except Problem β} {b : β} :
    (x >>= f) = .ok b ↔ ∃ a, x = .ok a ∧ f a = .ok b := by
  cases x <;> simp [bind, Except.bind]

theorem map_eq_ok_iff {α β : Type} {x : Except Problem α} {f : α → β} {b : β} :
    x.map f = .ok b ↔ ∃ a, x = .ok a ∧ f a = b := by
  cases x <;> simp [Except.map]

theorem length_readWord16 {text rest : List Char} {w : UInt16}
    (h : readWord16 text = .ok (w, rest)) : rest.length < text.length := by
  unfold readWord16 at h
  split at h
  · simp at h
  · have := length_readHead ‹_›
    split at h
    · rw [Except.ok.injEq, Prod.mk.injEq] at h
      rwa [← h.2]
    · simp at h
  · simp at h

theorem length_readText {text rest : List Char} {s : String} (h : readText text = .ok (s, rest)) :
    rest.length < text.length := by
  unfold readText at h
  split at h
  · simp at h
  · have := length_readHead ‹_›
    rw [Except.ok.injEq, Prod.mk.injEq] at h
    rwa [← h.2]
  · simp at h

theorem length_toElement {index : Nat} {text rest : List Char}
    (h : toElement index text = .ok rest) : rest.length ≤ text.length := by
  have := length_skipBlanks text
  unfold toElement at h
  split at h
  · simp at h
  · rename_i blanks
    rw [blanks, List.length_cons] at this
    split at h
    · simp at h
    · split at h
      · simp only [Except.ok.injEq] at h
        simpa [← h] using this
      · split at h
        · simp only [Except.ok.injEq] at h
          rw [← h]
          omega
        · simp at h

theorem length_readElement {α : Type} {index : Nat} {text rest : List Char} {a : α}
    {read : List Char → Except Problem (α × List Char)}
    (shorter : ∀ {text rest a}, read text = .ok (a, rest) → rest.length < text.length)
    (h : readElement index read text = .ok (a, rest)) : rest.length < text.length := by
  obtain ⟨_, moved, h⟩ := bind_eq_ok_iff.mp h
  have := length_toElement moved
  have := shorter h
  omega

theorem length_closeSequence {text rest : List Char} (h : closeSequence text = .ok rest) :
    rest.length < text.length := by
  unfold closeSequence at h
  split at h
  · have := length_lt_of_skipBlanks ‹_›
    rw [Except.ok.injEq] at h
    rwa [← h]
  · simp at h

theorem length_readElements {text rest : List Char} {s : Scope}
    (h : readElements text = .ok (s, rest)) : rest.length < text.length := by
  unfold readElements at h
  simp only [bind_eq_ok_iff] at h
  obtain ⟨_, start, _, length, _, name, _, descriptor, _, slot, _, closed, h⟩ := h
  have := length_readElement length_readWord16 start
  have := length_readElement length_readWord16 length
  have := length_readElement length_readText name
  have := length_readElement length_readText descriptor
  have := length_readElement length_readWord16 slot
  have := length_closeSequence closed
  simp only [pure, Except.pure, Except.ok.injEq, Prod.mk.injEq] at h
  rw [← h.2]
  omega

end LocalScopes.Json
