import LocalScopes.Symbol

/-! # Constants of a class file

A class file numbers its constants from 1 on. A `long` or a `double` takes two indices, and the
second of them holds nothing. Only text constants are symbols.

* `ClassConstants.ofList`: the numbering of a list of constants. -/

namespace LocalScopes

/-- A constant of a class file. What a constant holds matters only if it is text. -/
inductive Constant where
  | text (s : String)
  | integer
  | float
  | long
  | double
  | classRef
  | stringRef
  | fieldRef
  | methodRef
  | interfaceMethodRef
  | nameAndType
  | methodHandle
  | methodType
  | dynamic
  | invokeDynamic
  | module
  | package
deriving DecidableEq, Repr

/-- The number of indices that a constant takes. -/
def Constant.width : Constant → Nat
  | long | double => 2
  | _ => 1

/-- The constants of a class file by index; nothing sits at index 0 and behind a wide constant. -/
structure ClassConstants where
  places : Array (Option Constant)

namespace ClassConstants

/-- No constant: index 0 is taken, and holds nothing. -/
def empty : ClassConstants := ⟨#[none]⟩

instance : EmptyCollection ClassConstants := ⟨empty⟩

/-- The constants with one more at the next free index. -/
def push (cs : ClassConstants) (c : Constant) : ClassConstants :=
  if c.width = 2 then ⟨(cs.places.push (some c)).push none⟩ else ⟨cs.places.push (some c)⟩

/-- The constants of a list, numbered in order. -/
def ofList (cs : List Constant) : ClassConstants := cs.foldl push ∅

/-- The constant at an index, if one sits there. -/
def get? (cs : ClassConstants) (index : UInt16) : Option Constant :=
  (cs.places[index.toNat]?).join

/-- The constants as the meaning of indices: only text resolves. -/
def resolve (cs : ClassConstants) : Resolver := fun index =>
  match cs.get? index with
  | some (.text s) => .ok s
  | some _ => .error (.badConstant index .notText)
  | none => .error (.badConstant index .noConstant)

/-! ### Numbering -/

theorem places_push (cs : ClassConstants) (c : Constant) :
    (cs.push c).places.toList =
      cs.places.toList ++ some c :: List.replicate (c.width - 1) none := by
  cases c <;> simp [push, Constant.width]

theorem places_foldl_push (l : List Constant) (cs : ClassConstants) :
    (l.foldl push cs).places.toList =
      cs.places.toList ++ l.flatMap fun c => some c :: List.replicate (c.width - 1) none := by
  induction l generalizing cs with
  | nil => simp
  | cons c l ih => simp [ih, places_push]

end ClassConstants

end LocalScopes
