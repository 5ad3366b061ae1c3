import LocalScopes.Json.Element
import LocalScopes.Json.Skip

/-! # Scopes as objects

A scope may be written as an object with five members, in any order and among members with other
keys, which are skipped. A member that stands twice is refused where it stands for the second time;
a missing one is noticed at the end of the object.

* `readMembers`: the scope of an object. -/

namespace LocalScopes.Json

/-- The members of a scope that have been read. -/
structure Members where
  start : Option UInt16 := none
  length : Option UInt16 := none
  name : Option String := none
  descriptor : Option String := none
  slot : Option UInt16 := none

namespace Members

/-- The member has been read. -/
def has (m : Members) : Field → Bool
  | .start => m.start.isSome
  | .length => m.length.isSome
  | .name => m.name.isSome
  | .descriptor => m.descriptor.isSome
  | .slot => m.slot.isSome

/-- Reads the value of a member. -/
def readField (m : Members) (field : Field) (text : List Char) :
    Except Problem (Members × List Char) :=
  match field with
  | .start => (readWord16 text).map fun r => ({ m with start := some r.1 }, r.2)
  | .length => (readWord16 text).map fun r => ({ m with length := some r.1 }, r.2)
  | .name => (readText text).map fun r => ({ m with name := some r.1 }, r.2)
  | .descriptor => (readText text).map fun r => ({ m with descriptor := some r.1 }, r.2)
  | .slot => (readWord16 text).map fun r => ({ m with slot := some r.1 }, r.2)

/-- The value of a member, which must have been read. -/
def require {α : Type} (field : Field) : Option α → Except Problem α
  | some v => .ok v
  | none => .error (.data (.missing field))

/-- The scope of all five members, or the first of them that is missing. -/
def toScope (m : Members) : Except Problem Scope := do
  return ⟨← require .start m.start, ← require .length m.length, ← require .name m.name,
    ← require .descriptor m.descriptor, ← require .slot m.slot⟩

end Members

/-- Reads the key of a member. -/
def readKey (text : List Char) : Except Problem (String × List Char) :=
  match skipBlanks text with
  | '"' :: rest =>
    match StringLiteral.read rest with
    | none => malformed
    | some r => .ok r
  | _ => malformed

/-- Reads the value of the member with the given key, of which the colon comes first. A member that
was read before is refused at once, and one that no scope has is skipped. -/
def readMember (m : Members) (key : String) (text : List Char) :
    Except Problem (Members × List Char) :=
  match Field.ofKey? key with
  | none =>
    match (skipColon text).bind skipValue with
    | none => malformed
    | some rest => .ok (m, rest)
  | some field =>
    if m.has field then .error (.data (.duplicate field))
    else
      match skipColon text with
      | none => malformed
      | some rest => m.readField field rest

/-! ### What is left of the text -/

theorem Members.length_readField {m n : Members} {field : Field} {text rest : List Char}
    (h : m.readField field text = .ok (n, rest)) : rest.length < text.length := by
  cases field <;> simp only [readField, map_eq_ok_iff, Prod.mk.injEq] at h <;>
    obtain ⟨_, h, _, rfl⟩ := h
  · exact length_readWord16 h
  · exact length_readWord16 h
  · exact length_readText h
  · exact length_readText h
  · exact length_readWord16 h

theorem length_readKey {text rest : List Char} {key : String}
    (h : readKey text = .ok (key, rest)) : rest.length < text.length := by
  unfold readKey at h
  split at h
  · have := length_lt_of_skipBlanks ‹_›
    split at h
    · simp at h
    · rename_i read
      rw [Except.ok.injEq] at h
      have := StringLiteral.length_read (h ▸ read)
      omega
  · simp at h

theorem length_readMember {m n : Members} {key : String} {text rest : List Char}
    (h : readMember m key text = .ok (n, rest)) : rest.length < text.length := by
  unfold readMember at h
  split at h
  · split at h
    · simp at h
    · rename_i skipped
      obtain ⟨_, colon, skipped⟩ := Option.bind_eq_some_iff.mp skipped
      have := length_skipColon colon
      have := length_skipValue skipped
      rw [Except.ok.injEq, Prod.mk.injEq] at h
      rw [← h.2]
      omega
  · split at h
    · simp at h
    · split at h
      · simp at h
      · have := length_skipColon ‹_›
        have := Members.length_readField h
        omega

/-! ### Objects -/

/-- Reads the members of a scope from a key on, behind those in `m`. -/
def readMembers (m : Members) (text : List Char) : Except Problem (Scope × List Char) :=
  match k : readKey text with
  | .error p => .error p
  | .ok (key, behindKey) =>
    have := length_readKey k
    match v : readMember m key behindKey with
    | .error p => .error p
    | .ok (m, behindValue) =>
      have := length_readMember v
      match b : skipBlanks behindValue with
      | [] => malformed
      | c :: rest =>
        have := length_lt_of_skipBlanks b
        if c = ',' then readMembers m rest
        else if c = '\x7d' then m.toScope.map fun s => (s, rest)
        else malformed
termination_by text.length

/-- Reads the members of a scope, behind the opening bracket. -/
def readObject (text : List Char) : Except Problem (Scope × List Char) :=
  match skipBlanks text with
  | '\x7d' :: rest => Members.toScope {} |>.map fun s => (s, rest)
  | _ => readMembers {} text

/-! ### Steps -/

theorem readMembers_eq (m : Members) (text : List Char) :
    readMembers m text = (do
      let (key, rest) ← readKey text
      let (m, rest) ← readMember m key rest
      match skipBlanks rest with
      | ',' :: rest => readMembers m rest
      | '\x7d' :: rest => m.toScope.map fun s => (s, rest)
      | _ => malformed) := by
  rw [readMembers]
  split
  · simp [*, bind, Except.bind]
  · split
    · simp [*, bind, Except.bind]
    · simp only [*, bind, Except.bind]
      split
      · simp [*]
      · split
        · simp [*]
        · split
          · simp [*]
          · simp [*]

theorem length_readMembers {m : Members} {text rest : List Char} {s : Scope}
    (h : readMembers m text = .ok (s, rest)) : rest.length < text.length := by
  fun_induction readMembers m text with
  | case1 => simp at h
  | case2 => simp at h
  | case3 => simp at h
  | case4 =>
    rename_i ih
    have := ih h
    omega
  | case5 =>
    obtain ⟨_, _, h⟩ := map_eq_ok_iff.mp h
    simp only [Prod.mk.injEq] at h
    rw [← h.2]
    omega
  | case6 => simp at h

theorem length_readObject {text rest : List Char} {s : Scope}
    (h : readObject text = .ok (s, rest)) : rest.length < text.length := by
  unfold readObject at h
  split at h
  · have := length_lt_of_skipBlanks ‹_›
    obtain ⟨_, _, h⟩ := map_eq_ok_iff.mp h
    rw [Prod.mk.injEq] at h
    rwa [← h.2]
  · exact length_readMembers h

end LocalScopes.Json
