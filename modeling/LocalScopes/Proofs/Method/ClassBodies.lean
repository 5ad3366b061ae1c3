import LocalScopes.Method.Attribute
import LocalScopes.Proofs.Body.Correspondence
import LocalScopes.Proofs.Symbol.ConstantNumbering
import LocalScopes.Proofs.Symbol.PoolHistory

/-! # Bodies against the constants of a class

The scopes of a method are what its body reads as, against any pool that is laid out as the
constants of the class are (`ClassConstants.LaidOut`). Constants that are all texts have the layout
of a string pool, so the body reads as it does against one.

* `value_readScopes`: the answer is that of the body;
* `ClassConstants.sameStrings_ofList`: texts as constants and as entries of a pool;
* `reads_over_layout`: all of it in one statement. -/

namespace LocalScopes

namespace ClassConstants

/-- The pool has the layout of the constants: their texts stand where they sit, and every other
index is refused for what it holds. -/
structure LaidOut (cs : List Constant) (pool : Resolver) : Prop where
  text : ∀ i s, SitsAt cs i.toNat (.text s) → pool i = .ok s
  other : ∀ i c, SitsAt cs i.toNat c → (∀ s, c ≠ .text s) →
    pool i = .error (.badConstant i .notText)
  vacant : ∀ i, Vacant cs i.toNat → pool i = .error (.badConstant i .noConstant)

theorem laidOut_ofList (cs : List Constant) : LaidOut cs (ofList cs).resolve where
  text _ _ h := resolve_eq_ok_iff.mpr h
  other _ c h hne := resolve_eq_error_iff.mpr (.inr ⟨⟨c, h, hne⟩, rfl⟩)
  vacant _ h := resolve_eq_error_iff.mpr (.inl ⟨h, rfl⟩)

theorem LaidOut.eq_resolve {cs : List Constant} {pool : Resolver} (h : LaidOut cs pool) :
    pool = (ofList cs).resolve := by
  have hcs := laidOut_ofList cs
  funext i
  rcases sitsAt_or_vacant cs i.toNat with ⟨c, hc⟩ | hvacant
  · by_cases htext : ∃ s, c = .text s
    · obtain ⟨s, rfl⟩ := htext
      rw [h.text i s hc, hcs.text i s hc]
    · have hne : ∀ s, c ≠ .text s := fun s hs => htext ⟨s, hs⟩
      rw [h.other i c hc hne, hcs.other i c hc hne]
  · rw [h.vacant i hvacant, hcs.vacant i hvacant]

theorem sameStrings_ofList {ss : List String} (h : ss.length ≤ StringPool.capacity) :
    Body.SameStrings (ofList (ss.map .text)).resolve (StringPool.ofList ss).resolve := by
  intro i s
  rw [resolve_eq_ok_iff, sitsAt_texts_iff, StringPool.resolve_eq_ok_iff,
    StringPool.get?_eq_some_iff]
  refine exists_congr fun k => and_congr_right fun _ => ?_
  rw [← Array.getElem?_toList, StringPool.entries_ofList, List.take_of_length_le h]

end ClassConstants

namespace Method

open Body ClassConstants

/-- The answer of an attribute whose body has the given answer. -/
def wrapped : Except ReadError (Table × Nat) → Except AttributeError Table
  | .ok (t, _) => .ok t
  | .error e => .error ⟨e⟩

/-- The answers of an attribute and of a body that say the same, causes of refusals apart. -/
inductive SameAnswer : Except AttributeError Table → Except ReadError (Table × Nat) → Prop
  | table (t : Table) (consumed : Nat) : SameAnswer (.ok t) (.ok (t, consumed))
  | truncated (expected decoded : Nat) :
      SameAnswer (.error ⟨.truncated expected decoded⟩) (.error (.truncated expected decoded))
  | unresolved (index : UInt16) (cause cause' : SymbolError) :
      SameAnswer (.error ⟨.unresolved index cause⟩) (.error (.unresolved index cause'))

theorem sameAnswer_wrapped {a a' : Except ReadError (Table × Nat)} (h : Corresponds id a a') :
    SameAnswer (wrapped a) a' := by
  cases h with
  | table t consumed => exact .table t consumed
  | truncated expected decoded => exact .truncated expected decoded
  | unresolved index cause cause' => exact .unresolved index cause cause'

theorem value_readScopes (constants : ClassConstants) (body : List UInt8) :
    (readScopes constants body).value = wrapped (readBytes constants.resolve body).value := by
  unfold readScopes
  dsimp only
  split
  · simp only [wrapped, *]
  · simp only [wrapped, *]
    split <;> rfl

/-- **A method's scopes are what its body reads as over the layout of the constants.** An index
resolves just to the text that sits there. One that holds nothing is refused for that, and so is one
that holds no text. The answer to a body, whatever pool has this layout, is the table or the failure
that the body has against that pool, and bytes behind the declared records make no difference. With
texts alone, the body reads as against a string pool made from them. -/
theorem reads_over_layout (cs : List Constant) :
    (∀ i s, (ofList cs).resolve i = .ok s ↔ SitsAt cs i.toNat (.text s)) ∧
    (∀ i, Vacant cs i.toNat → (ofList cs).resolve i = .error (.badConstant i .noConstant) ∧
      ConstantFault.noConstant.label i = s!"InvalidConstantPoolIndex({i})") ∧
    (∀ i c, SitsAt cs i.toNat c → (∀ s, c ≠ .text s) →
      (ofList cs).resolve i = .error (.badConstant i .notText) ∧
      ConstantFault.notText.label i = s!"InvalidConstantPoolIndexType({i})") ∧
    (∀ pool, LaidOut cs pool → ∀ body,
      (readScopes (ofList cs) body).value = wrapped (readBytes pool body).value) ∧
    (∀ body n, (wordAt body 0).map UInt16.toNat = some n → size n ≤ body.length → ∀ tail,
      (readScopes (ofList cs) (body ++ tail)).value = (readScopes (ofList cs) body).value) ∧
    ∀ ss : List String, cs = ss.map .text → ss.length ≤ 65535 → ∀ body,
      SameAnswer (readScopes (ofList cs) body).value
        (readBytes (StringPool.collect ss).value.resolve body).value := by
  have hcs := laidOut_ofList cs
  refine ⟨fun i s => resolve_eq_ok_iff, fun i h => ⟨hcs.vacant i h, rfl⟩,
    fun i c h hne => ⟨hcs.other i c h hne, rfl⟩, fun pool hpool body => ?_,
    fun body n header hthere tail => ?_, fun ss htexts hlen body => ?_⟩
  · rw [value_readScopes, hpool.eq_resolve]
  · rw [value_readScopes, value_readScopes, readBytes_append header hthere]
  · rw [value_readScopes, StringPool.value_collect, htexts]
    exact sameAnswer_wrapped ((sameStrings_ofList hlen).readBytes body)

/-- Behind a `long` the text has index 3, a byte behind the only record is ignored, and the same
record is bad where no `long` comes first. -/
theorem reads_over_layout_behind_long :
    let cs : List Constant := [.long, .text "n", .integer, .text "I"]
    let body : List UInt8 := [0, 1, 0, 0, 0, 4, 0, 3, 0, 5, 0, 1]
    (ofList cs).resolve 3 = .ok "n" ∧
      (ofList cs).resolve 2 = .error (.badConstant 2 .noConstant) ∧
      (ofList cs).resolve 4 = .error (.badConstant 4 .notText) ∧
      (readScopes (ofList cs) (body ++ [7])).value = (readScopes (ofList cs) body).value ∧
      (readScopes (ofList cs) body).value = .ok ⟨[⟨0, 4, "n", "I", 1⟩]⟩ ∧
      SameAnswer (readScopes (ofList (["n", "I"].map .text)) body).value
        (readBytes (StringPool.collect ["n", "I"]).value.resolve body).value := by
  intro cs body
  obtain ⟨htext, hvacant, hother, hlaid, hbehind, -⟩ := reads_over_layout cs
  refine ⟨(htext 3 "n").mpr ⟨1, rfl, rfl⟩, (hvacant 2 ?_).1, (hother 4 .integer ⟨2, rfl, rfl⟩ ?_).1,
    hbehind body 1 rfl (by decide) [7], (hlaid _ (laidOut_ofList cs) body).trans (by decide +kernel),
    (reads_over_layout _).2.2.2.2.2 ["n", "I"] rfl (by decide) body⟩
  · exact .secondHalf (k := 0) (c := .long) rfl rfl
  · simp

end Method

end LocalScopes
