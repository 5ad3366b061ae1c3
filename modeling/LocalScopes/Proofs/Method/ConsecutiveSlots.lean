import LocalScopes.Method.Slots
import LocalScopes.Proofs.Method.Grammar

/-! # Consecutive slots

The widths of parameters are read off their text (`TypeText.width`). From the first free slot on,
each parameter has the slot behind all those of the parameters before it (`InARow`), so the slots
increase. A descriptor has slots just if its text is one and its parameters fit.

* `SlotLayout.exists_inARow_of_foldlM`, `SlotLayout.size_le_of_foldlM`: what the layout gives out,
  and when it stops, by its recursion;
* `Method.slots_of_text`: what a written descriptor has, whether it fits or not;
* `Method.inARow_of_slots`, `Method.slots_eq_of_inARow`: slots that are given out are in a row, and
  there is only one row;
* `Method.lays_out_what_fits`: all of it in one statement. -/

namespace LocalScopes

/-! ### Widths -/

/-- The number of slots of a type: two for `J` and `D`, and one for every other type. -/
def TypeText.width : TypeText → Nat
  | base .long | base .double => 2
  | _ => 1

/-- The number of slots of all the types. -/
def totalWidth : List TypeText → Nat
  | [] => 0
  | t :: types => t.width + totalWidth types

theorem TypeText.width_type (t : TypeText) : t.type.width.toNat = t.width := by
  rcases t with type | ⟨name, plain⟩ | component
  · cases type <;> rfl
  · rfl
  · rfl

theorem TypeText.width_pos (t : TypeText) : 0 < t.width := by
  unfold width
  split <;> omega

theorem totalWidth_append : ∀ types more : List TypeText,
    totalWidth (types ++ more) = totalWidth types + totalWidth more
  | [], more => by simp [totalWidth]
  | t :: types, more => by
    rw [List.cons_append, totalWidth, totalWidth, totalWidth_append types more, Nat.add_assoc]

theorem totalWidth_replicate (t : TypeText) : ∀ n : Nat,
    totalWidth (List.replicate n t) = t.width * n
  | 0 => rfl
  | n + 1 => by
    rw [List.replicate_succ, totalWidth, totalWidth_replicate t n, Nat.mul_succ, Nat.add_comm]

theorem totalWidth_take_succ {types : List TypeText} {i : Nat} {t : TypeText}
    (h : types[i]? = some t) :
    totalWidth (types.take (i + 1)) = totalWidth (types.take i) + t.width := by
  rw [List.take_add_one, h, totalWidth_append]
  simp [totalWidth]

theorem totalWidth_take_le (types : List TypeText) (i : Nat) :
    totalWidth (types.take i) ≤ totalWidth types := by
  have hsplit := totalWidth_append (types.take i) (types.drop i)
  rw [List.take_append_drop] at hsplit
  omega

theorem totalWidth_take_mono (types : List TypeText) {i j : Nat} (h : i ≤ j) :
    totalWidth (types.take i) ≤ totalWidth (types.take j) := by
  have hle := totalWidth_take_le (types.take j) i
  rwa [List.take_take, Nat.min_eq_left h] at hle

/-! ### Slots in a row -/

/-- The slots of types: the first one, and from one to the next as many as the type is wide. -/
structure InARow (first : Nat) (types : List TypeText) (slots : List UInt16) : Prop where
  length : slots.length = types.length
  toNat : ∀ i (h : i < slots.length), slots[i].toNat = first + totalWidth (types.take i)

section InARow
variable {first : Nat} {types : List TypeText} {slots : List UInt16}

theorem InARow.nil : InARow first [] [] := ⟨rfl, fun i hi => absurd hi (Nat.not_lt_zero i)⟩

theorem InARow.cons {slot : UInt16} {t : TypeText}
    (h : InARow (slot.toNat + t.width) types slots) :
    InARow slot.toNat (t :: types) (slot :: slots) := by
  refine ⟨congrArg (· + 1) h.length, fun i hi => ?_⟩
  cases i with
  | zero => rfl
  | succ i =>
    rw [List.getElem_cons_succ, h.toNat i (Nat.lt_of_succ_lt_succ hi), List.take_succ_cons,
      totalWidth, Nat.add_assoc]

theorem InARow.unique {others : List UInt16} (h : InARow first types slots)
    (h' : InARow first types others) : slots = others := by
  refine List.ext_getElem (h.length.trans h'.length.symm) fun i hi hi' => ?_
  rw [← UInt16.toNat_inj, h.toNat i hi, h'.toNat i hi']

theorem InARow.toNat_add_width_le (h : InARow first types slots) {i j : Nat}
    (hi : i < slots.length) (hj : j < slots.length) (hij : i < j) {t : TypeText}
    (ht : types[i]? = some t) : slots[i].toNat + t.width ≤ slots[j].toNat := by
  have hearlier := h.toNat i hi
  have hlater := h.toNat j hj
  have hstep := totalWidth_take_succ ht
  have hmono := totalWidth_take_mono types (show i + 1 ≤ j by omega)
  omega

theorem InARow.le_toNat (h : InARow first types slots) {slot : UInt16} (hslot : slot ∈ slots) :
    first ≤ slot.toNat := by
  obtain ⟨i, hi, rfl⟩ := List.getElem_of_mem hslot
  rw [h.toNat i hi]
  omega

theorem InARow.pairwise_lt (h : InARow first types slots) : slots.Pairwise (· < ·) := by
  rw [List.pairwise_iff_getElem]
  intro i j hi hj hij
  have hlt : i < types.length := by rwa [← h.length]
  have hle := h.toNat_add_width_le hi hj hij (List.getElem?_eq_getElem hlt)
  have hpos := types[i].width_pos
  rw [UInt16.lt_iff_toNat_lt]
  omega

theorem InARow.nodup (h : InARow first types slots) : slots.Nodup :=
  h.pairwise_lt.imp UInt16.ne_of_lt

theorem InARow.ne_second_half (h : InARow first types slots) {i : Nat} (hi : i < slots.length)
    {t : TypeText} (ht : types[i]? = some t) (hwide : t.width = 2) {slot : UInt16}
    (hslot : slot ∈ slots) : slot.toNat ≠ slots[i].toNat + 1 := by
  obtain ⟨j, hj, rfl⟩ := List.getElem_of_mem hslot
  -- a parameter before this one starts before it, and one behind it starts behind both slots
  rcases Nat.lt_trichotomy j i with hlt | rfl | hlt
  · have hbefore := List.pairwise_iff_getElem.mp h.pairwise_lt j i hj hi hlt
    rw [UInt16.lt_iff_toNat_lt] at hbefore
    omega
  · omega
  · have hbehind := h.toNat_add_width_le hi hj hlt ht
    omega

end InARow

/-! ### The layout -/

/-- **What a layout that goes on gives out**: slots in a row from the next free one on. -/
theorem SlotLayout.exists_inARow_of_foldlM : ∀ (types : List TypeText) {l m : SlotLayout},
    (types.map TypeText.type).foldlM add? l = some m →
      m.next.toNat = l.next.toNat + totalWidth types ∧
        ∃ row, m.slots.toList = l.slots.toList ++ row ∧ InARow l.next.toNat types row
  | [], l, m, h => by
    obtain rfl := Option.some.inj h
    exact ⟨rfl, [], (List.append_nil _).symm, .nil⟩
  | t :: types, l, m, h => by
    rw [List.map_cons, List.foldlM_cons, Option.bind_eq_bind, Option.bind_eq_some_iff] at h
    obtain ⟨step, hstep, hrest⟩ := h
    obtain ⟨hslots, hnext⟩ := add?_eq_some_iff.mp hstep
    obtain ⟨hlast, row, hrow, hlie⟩ := exists_inARow_of_foldlM types hrest
    rw [t.width_type] at hnext
    -- the rest starts behind the width of this type
    rw [hnext] at hlast hlie
    refine ⟨by rw [hlast, totalWidth, Nat.add_assoc], l.next :: row, ?_, hlie.cons⟩
    rw [hrow, hslots, Array.toList_push, List.append_assoc, List.singleton_append]

/-- **A layout stops only if the parameters are too wide**: a slot that is missing on the way is
missing for all of them. -/
theorem SlotLayout.size_le_of_foldlM : ∀ (types : List TypeText) {l : SlotLayout},
    (types.map TypeText.type).foldlM add? l = none →
      UInt16.size ≤ l.next.toNat + totalWidth types
  | t :: types, l, h => by
    rw [totalWidth]
    rw [List.map_cons, List.foldlM_cons, Option.bind_eq_bind] at h
    rcases hstep : l.add? t.type with _ | step
    · have hle := add?_eq_none_iff.mp hstep
      rw [t.width_type] at hle
      omega
    · rw [hstep, Option.bind_some] at h
      have hle := size_le_of_foldlM types h
      rw [(add?_eq_some_iff.mp hstep).2, t.width_type] at hle
      omega

namespace Method

/-- The number of slots that are kept for a receiver. -/
def receiverSlots (isStatic : Bool) : Nat := if isStatic then 0 else 1

theorem toNat_firstParameterSlot (isStatic : Bool) :
    (firstParameterSlot isStatic).toNat = receiverSlots isStatic := by
  cases isStatic <;> rfl

/-- **What a written descriptor has**: its parameters in a row if they fit, and else a refusal. -/
theorem slots_of_text {d : String} {m : MethodText} (h : d.toList = m.chars) (isStatic : Bool) :
    (∃ l, slots d isStatic = .ok l ∧
      receiverSlots isStatic + totalWidth m.parameters ≤ 65535 ∧
      InARow (receiverSlots isStatic) m.parameters l) ∨
    (slots d isStatic = .error (.tooManySlots d) ∧
      65535 < receiverSlots isStatic + totalWidth m.parameters) := by
  obtain ⟨result, hread⟩ := m.exists_read h
  rw [← toNat_firstParameterSlot]
  rcases hlayout : SlotLayout.ofTypes? (firstParameterSlot isStatic)
    (m.parameters.map TypeText.type) with _ | layout
  · refine .inr ⟨?_, SlotLayout.size_le_of_foldlM _ hlayout⟩
    simp only [slots, hread, hlayout]
  · obtain ⟨hnext, row, hslots, hrow⟩ := SlotLayout.exists_inARow_of_foldlM _ hlayout
    refine .inl ⟨row, ?_, ?_, hrow⟩
    · simp only [slots, hread, hlayout, hslots, List.nil_append]
    · rw [← hnext]
      exact Nat.le_of_lt_succ layout.next.toNat_lt_size

theorem inARow_of_slots {d : String} {isStatic : Bool} {l : List UInt16}
    (h : slots d isStatic = .ok l) {m : MethodText} (hm : d.toList = m.chars) :
    receiverSlots isStatic + totalWidth m.parameters ≤ 65535 ∧
      InARow (receiverSlots isStatic) m.parameters l := by
  rcases slots_of_text hm isStatic with ⟨l', hl', hfits, hrow⟩ | ⟨hrefused, -⟩
  · obtain rfl := Except.ok.inj (h.symm.trans hl')
    exact ⟨hfits, hrow⟩
  · rw [h] at hrefused
    cases hrefused

theorem exists_text_of_slots {d : String} {isStatic : Bool} {l : List UInt16}
    (h : slots d isStatic = .ok l) : ∃ m : MethodText, d.toList = m.chars := by
  rcases hread : MethodDescriptor.read d with fault | method
  · simp [slots, hread] at h
  · obtain ⟨m, hm, -⟩ := MethodText.exists_of_read hread
    exact ⟨m, hm⟩

theorem exists_slots_of_fits {d : String} {m : MethodText} (h : d.toList = m.chars)
    {isStatic : Bool} (fits : receiverSlots isStatic + totalWidth m.parameters ≤ 65535) :
    ∃ l, slots d isStatic = .ok l ∧ InARow (receiverSlots isStatic) m.parameters l := by
  rcases slots_of_text h isStatic with ⟨l, hl, -, hrow⟩ | ⟨-, hlong⟩
  · exact ⟨l, hl, hrow⟩
  · omega

theorem slots_eq_of_inARow {d : String} {m : MethodText} (h : d.toList = m.chars) {isStatic : Bool}
    (fits : receiverSlots isStatic + totalWidth m.parameters ≤ 65535) {l : List UInt16}
    (row : InARow (receiverSlots isStatic) m.parameters l) : slots d isStatic = .ok l := by
  obtain ⟨l', hl', hrow'⟩ := exists_slots_of_fits h fits
  rw [hl', row.unique hrow']

/-- **Slots are given to what fits.** A descriptor has slots just if it is written as one and the
slots of its parameters, behind that of a receiver, are at most all there are. Its parameters then
lie in a row, each behind the widths of those before it. A descriptor with more parameters is
refused for them. -/
theorem lays_out_what_fits (d : String) (isStatic : Bool) :
    (∀ l, slots d isStatic = .ok l ↔ ∃ m : MethodText, d.toList = m.chars ∧
      receiverSlots isStatic + totalWidth m.parameters ≤ 65535 ∧
      InARow (receiverSlots isStatic) m.parameters l) ∧
    ∀ m : MethodText, d.toList = m.chars →
      (receiverSlots isStatic + totalWidth m.parameters ≤ 65535 → ∃ l, slots d isStatic = .ok l ∧
        l.length = m.parameters.length ∧
        (∀ i (h : i < l.length),
          l[i].toNat = receiverSlots isStatic + totalWidth (m.parameters.take i)) ∧
        l.Pairwise (· < ·)) ∧
      (65535 < receiverSlots isStatic + totalWidth m.parameters →
        slots d isStatic = .error (.tooManySlots d) ∧
        (DescriptorError.tooManySlots d).detail = "parameters exceed the local slot range") := by
  refine ⟨fun l => ⟨fun h => ?_, ?_⟩, fun m hm => ⟨fun fits => ?_, fun hlong => ⟨?_, rfl⟩⟩⟩
  · obtain ⟨m, hm⟩ := exists_text_of_slots h
    exact ⟨m, hm, inARow_of_slots h hm⟩
  · rintro ⟨m, hm, fits, hrow⟩
    exact slots_eq_of_inARow hm fits hrow
  · obtain ⟨l, hl, hrow⟩ := exists_slots_of_fits hm fits
    exact ⟨l, hl, hrow.length, hrow.toNat, hrow.pairwise_lt⟩
  · rcases slots_of_text hm isStatic with ⟨-, -, hfits, -⟩ | ⟨hrefused, -⟩
    · omega
    · exact hrefused

/-- A class name of brackets and a result that runs on; and parameters that fill all slots, but not
behind a receiver. -/
theorem lays_out_what_fits_to_the_last :
    slots "([JL(][;DI)[Lx)" false = .ok [1, 2, 3, 5] ∧
    ∃ d : String, d.toList = '(' :: (List.replicate 65535 'S' ++ [')', 'V']) ∧
      (∃ l, slots d true = .ok l ∧ l.length = 65535) ∧
      slots d false = .error (.tooManySlots d) := by
  constructor
  · exact ((lays_out_what_fits _ false).1 _).mpr ⟨⟨[.array (.base .long),
      .object ['(', ']', '['] (by decide), .base .double, .base .int], "[Lx)".toList,
      .unclosed (.array (.object (by decide)))⟩, by decide, by decide, rfl, by decide⟩
  · let m : MethodText := ⟨List.replicate 65535 (.base .short), ['V'], .void []⟩
    have hchars : m.chars = '(' :: (List.replicate 65535 'S' ++ [')', 'V']) := by
      simp only [m, MethodText.chars, List.flatMap_replicate, TypeText.chars, BaseType.code,
        List.flatten_replicate_singleton]
    have hwidth : totalWidth m.parameters = 65535 := totalWidth_replicate _ _
    have hlength : m.parameters.length = 65535 := List.length_replicate
    have hd : (String.ofList m.chars).toList = m.chars := String.toList_ofList
    refine ⟨String.ofList m.chars, hd.trans hchars, ?_, ?_⟩
    · obtain ⟨l, hl, hlen, -⟩ := ((lays_out_what_fits _ true).2 m hd).1 (by rw [hwidth]; decide)
      exact ⟨l, hl, hlen.trans hlength⟩
    · exact (((lays_out_what_fits _ false).2 m hd).2 (by rw [hwidth]; decide)).1

end Method

end LocalScopes
