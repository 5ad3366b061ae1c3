import Mathlib.Data.List.Basic
import LocalScopes.Symbol.ClassConstants

/-! # Numbering of constants

Where each constant of a class sits, by the widths of those before it (`SitsAt`), and which indices
hold nothing (`Vacant`): index 0, the second index of a wide constant, and all past the end. Every
index is one of these (`sitsAt_or_vacant`).

* `get?_of_sitsAt`, `get?_of_vacant`: what is stored at an index;
* `resolve_eq_ok_iff`, `resolve_eq_error_iff`: only a text resolves, and what else an index holds is
  seen from the refusal. -/

namespace LocalScopes.ClassConstants

/-- The number of indices that constants take. -/
def totalWidth : List Constant → Nat
  | [] => 0
  | c :: cs => c.width + totalWidth cs

/-- The index of constant `k`, behind all indices of the constants before it. -/
def indexOf (cs : List Constant) (k : Nat) : Nat := 1 + totalWidth (cs.take k)

/-- A constant sits at an index. -/
def SitsAt (cs : List Constant) (i : Nat) (c : Constant) : Prop :=
  ∃ k, cs[k]? = some c ∧ i = indexOf cs k

/-- Nothing sits at an index. -/
inductive Vacant (cs : List Constant) : Nat → Prop
  | zero : Vacant cs 0
  | secondHalf {k : Nat} {c : Constant} (present : cs[k]? = some c) (wide : c.width = 2) :
      Vacant cs (indexOf cs k + 1)
  | pastEnd {i : Nat} (behind : totalWidth cs < i) : Vacant cs i

/-! ### Widths -/

theorem width_eq (c : Constant) : c.width = 1 ∨ c.width = 2 := by
  cases c <;> simp [Constant.width]

theorem sitsAt_or_vacant (cs : List Constant) (i : Nat) : (∃ c, SitsAt cs i c) ∨ Vacant cs i := by
  suffices h : ∀ (cs : List Constant) (j : Nat), j < totalWidth cs →
      ∃ k c, cs[k]? = some c ∧
        (j = totalWidth (cs.take k) ∨ c.width = 2 ∧ j = totalWidth (cs.take k) + 1) by
    rcases Nat.eq_zero_or_pos i with rfl | hpos
    · exact .inr .zero
    · rcases Nat.lt_or_ge (totalWidth cs) i with hlt | hle
      · exact .inr (.pastEnd hlt)
      · obtain ⟨k, c, hk, hi | ⟨hwide, hi⟩⟩ := h cs (i - 1) (by omega)
        · exact .inl ⟨c, k, hk, by unfold indexOf; omega⟩
        · obtain rfl : i = indexOf cs k + 1 := by unfold indexOf; omega
          exact .inr (.secondHalf hk hwide)
  intro cs
  induction cs with
  | nil => intro j hj; simp [totalWidth] at hj
  | cons c cs ih =>
    intro j hj
    rw [totalWidth] at hj
    rcases Nat.lt_or_ge j c.width with hlt | hge
    · refine ⟨0, c, rfl, ?_⟩
      have hwidth := width_eq c
      simp only [List.take_zero, totalWidth]
      omega
    · obtain ⟨k, d, hk, hj'⟩ := ih (j - c.width) (by omega)
      refine ⟨k + 1, d, hk, ?_⟩
      rw [List.take_succ_cons, totalWidth]
      omega

/-! ### What is stored -/

/-- The indices of one constant. -/
def cells (c : Constant) : List (Option Constant) := some c :: List.replicate (c.width - 1) none

@[simp] theorem length_cells (c : Constant) : (cells c).length = c.width := by
  cases c <;> rfl

theorem length_flatMap_cells (cs : List Constant) : (cs.flatMap cells).length = totalWidth cs := by
  induction cs with
  | nil => rfl
  | cons c cs ih => rw [List.flatMap_cons, List.length_append, length_cells, ih, totalWidth]

theorem places_ofList (cs : List Constant) :
    (ofList cs).places.toList = none :: cs.flatMap cells :=
  places_foldl_push cs ∅

theorem get?_eq (cs : List Constant) (i : UInt16) :
    (ofList cs).get? i = ((none :: cs.flatMap cells)[i.toNat]?).join := by
  rw [get?, ← Array.getElem?_toList, places_ofList]

theorem getElem?_cells {cs : List Constant} {k : Nat} {c : Constant} (h : cs[k]? = some c) {j : Nat}
    (hj : j < c.width) : (none :: cs.flatMap cells)[indexOf cs k + j]? = (cells c)[j]? := by
  obtain ⟨hk, rfl⟩ := List.getElem?_eq_some_iff.mp h
  have hlen := length_flatMap_cells (cs.take k)
  have hsplit : cs.flatMap cells = (cs.take k).flatMap cells ++
      (cells cs[k] ++ (cs.drop (k + 1)).flatMap cells) := by
    rw [← List.flatMap_cons, ← List.drop_eq_getElem_cons hk, ← List.flatMap_append,
      List.take_append_drop]
  have hindex : indexOf cs k + j = totalWidth (cs.take k) + j + 1 := by unfold indexOf; omega
  rw [hindex, List.getElem?_cons_succ, hsplit, List.getElem?_append_right (by omega), hlen,
    Nat.add_sub_cancel_left, List.getElem?_append_left (by rwa [length_cells])]

theorem get?_of_sitsAt {cs : List Constant} {i : UInt16} {c : Constant}
    (h : SitsAt cs i.toNat c) : (ofList cs).get? i = some c := by
  obtain ⟨k, hk, hi⟩ := h
  have hpos : 0 < c.width := by
    have := width_eq c
    omega
  have hcell := getElem?_cells hk hpos
  rw [Nat.add_zero] at hcell
  rw [get?_eq, hi, hcell]
  rfl

theorem get?_of_vacant {cs : List Constant} {i : UInt16} (h : Vacant cs i.toNat) :
    (ofList cs).get? i = none := by
  rw [get?_eq]
  generalize i.toNat = n at h
  cases h with
  | zero => rfl
  | secondHalf present wide =>
    rw [getElem?_cells present (by omega), cells, wide]
    rfl
  | pastEnd behind =>
    have hlen : (none :: cs.flatMap cells).length ≤ n := by
      rw [List.length_cons, length_flatMap_cells]
      omega
    rw [List.getElem?_eq_none hlen]
    rfl

theorem get?_eq_some_iff {cs : List Constant} {i : UInt16} {c : Constant} :
    (ofList cs).get? i = some c ↔ SitsAt cs i.toNat c := by
  refine ⟨fun h => ?_, get?_of_sitsAt⟩
  rcases sitsAt_or_vacant cs i.toNat with ⟨d, hd⟩ | hvacant
  · rw [get?_of_sitsAt hd] at h
    obtain rfl := Option.some.inj h
    exact hd
  · rw [get?_of_vacant hvacant] at h
    cases h

theorem get?_eq_none_iff {cs : List Constant} {i : UInt16} :
    (ofList cs).get? i = none ↔ Vacant cs i.toNat := by
  refine ⟨fun h => ?_, get?_of_vacant⟩
  rcases sitsAt_or_vacant cs i.toNat with ⟨d, hd⟩ | hvacant
  · rw [get?_of_sitsAt hd] at h
    cases h
  · exact hvacant

/-! ### What indices stand for -/

/-- **Only a text resolves.** -/
theorem resolve_eq_ok_iff {cs : List Constant} {i : UInt16} {s : String} :
    (ofList cs).resolve i = .ok s ↔ SitsAt cs i.toNat (.text s) := by
  rw [← get?_eq_some_iff]
  unfold resolve
  split
  · simp [*]
  · rename_i hother hc
    simpa [hc] using hother s
  · simp [*]

/-- **A refusal says what the index holds**: nothing, or a constant that is no text. -/
theorem resolve_eq_error_iff {cs : List Constant} {i : UInt16} {e : SymbolError} :
    (ofList cs).resolve i = .error e ↔
      (Vacant cs i.toNat ∧ e = .badConstant i .noConstant) ∨
      ((∃ c, SitsAt cs i.toNat c ∧ ∀ s, c ≠ .text s) ∧ e = .badConstant i .notText) := by
  simp only [← get?_eq_some_iff, ← get?_eq_none_iff]
  unfold resolve
  split
  · simp [*]
  · rename_i c hne hc
    constructor
    · intro h
      cases h
      exact .inr ⟨⟨c, hc, hne⟩, rfl⟩
    · rintro (⟨hnone, -⟩ | ⟨-, rfl⟩)
      · rw [hc] at hnone
        cases hnone
      · rfl
  · simp [*, eq_comm]

/-! ### Texts alone -/

theorem totalWidth_texts (ss : List String) : totalWidth (ss.map .text) = ss.length := by
  induction ss with
  | nil => rfl
  | cons s ss ih =>
    have hwidth : (Constant.text s).width = 1 := rfl
    rw [List.map_cons, totalWidth, ih, hwidth, List.length_cons, Nat.add_comm]

theorem sitsAt_texts_iff {ss : List String} {i : Nat} {s : String} :
    SitsAt (ss.map .text) i (.text s) ↔ ∃ k, k + 1 = i ∧ ss[k]? = some s := by
  refine exists_congr fun k => ?_
  rw [List.getElem?_map, Option.map_eq_some_iff, and_comm]
  constructor
  · rintro ⟨rfl, s', hs, heq⟩
    obtain rfl := Constant.text.inj heq
    obtain ⟨hk, -⟩ := List.getElem?_eq_some_iff.mp hs
    refine ⟨?_, hs⟩
    rw [indexOf, ← List.map_take, totalWidth_texts, List.length_take]
    omega
  · rintro ⟨rfl, hs⟩
    obtain ⟨hk, -⟩ := List.getElem?_eq_some_iff.mp hs
    refine ⟨?_, s, hs, rfl⟩
    rw [indexOf, ← List.map_take, totalWidth_texts, List.length_take]
    omega

end LocalScopes.ClassConstants
