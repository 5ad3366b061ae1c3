import LocalScopes.Proofs.Method.ConsecutiveSlots
import LocalScopes.Proofs.Table.LastEntry

/-! # Names of parameters

Each parameter takes its name out of the map of names by slot. No slot comes twice, so no parameter
misses a name that another one took (`takeNames_of_nodup`), and each has the name that the table's
last scope on its slot gives it (`names_of_slots`). Names on other slots are left behind. -/

namespace LocalScopes.Method

/-- **Taking names out comes to looking them up**, if no slot comes twice. -/
theorem takeNames_of_nodup : ∀ {l : List UInt16}, l.Nodup → ∀ named : SlotNames,
    takeNames named l = l.map fun slot => named[slot]?
  | [], _, _ => rfl
  | slot :: l, h, named => by
    obtain ⟨hnew, hrest⟩ := List.nodup_cons.mp h
    rw [takeNames, takeNames_of_nodup hrest, List.map_cons]
    congr 1
    refine List.map_congr_left fun other hother => ?_
    -- the slot that was taken is none of the later ones
    have hcmp : compare slot other ≠ .eq := by
      intro heq
      rw [Std.compare_eq_iff_eq] at heq
      subst heq
      exact hnew hother
    rw [Std.TreeMap.getElem?_erase, if_neg hcmp]

theorem nodup_of_slots {d : String} {isStatic : Bool} {l : List UInt16}
    (h : slots d isStatic = .ok l) : l.Nodup := by
  obtain ⟨m, hm⟩ := exists_text_of_slots h
  exact (inARow_of_slots h hm).2.nodup

theorem names_of_slots {d : String} {isStatic : Bool} {l : List UInt16}
    (h : slots d isStatic = .ok l) (t : Table) :
    names t d isStatic = .ok (l.map fun slot => (t.lastEntry slot).map (·.name)) := by
  have htake := takeNames_of_nodup (nodup_of_slots h) t.slotNames
  simp only [names, h, Except.map, htake, Table.getElem?_slotNames]

theorem names_eq_error_iff {t : Table} {d : String} {isStatic : Bool} {e : DescriptorError} :
    names t d isStatic = .error e ↔ slots d isStatic = .error e := by
  unfold names
  cases slots d isStatic <;> simp [Except.map]

theorem names_append {d : String} {isStatic : Bool} {l : List UInt16}
    (h : slots d isStatic = .ok l) (a b : Table) :
    names (a ++ b) d isStatic = .ok (List.zipWith Option.or
      (l.map fun slot => (b.lastEntry slot).map (·.name))
      (l.map fun slot => (a.lastEntry slot).map (·.name))) := by
  rw [names_of_slots h, List.zipWith_map, List.zipWith_self]
  congr 1
  refine List.map_congr_left fun slot _ => ?_
  rw [Table.lastEntry_append]
  cases b.lastEntry slot <;> rfl

theorem names_filter {d : String} {isStatic : Bool} {l : List UInt16}
    (h : slots d isStatic = .ok l) (t : Table) :
    names ⟨t.scopes.filter fun s => s.slot ∈ l⟩ d isStatic = names t d isStatic := by
  rw [names_of_slots h, names_of_slots h]
  congr 1
  refine List.map_congr_left fun slot hslot => ?_
  rw [Table.lastEntry_filter]
  rintro s rfl
  exact decide_eq_true hslot

/-- **No name is lost.** Names fail just as slots do. Otherwise there is one entry for each declared
parameter, and it is the name of the last scope that opens with the method on the parameter's slot,
if there is one. So of two tables that are joined the later one gives an entry, and the earlier one
where the later has none; and what is recorded on other slots, such as that of the receiver and the
second half of a wide value, makes no difference. -/
theorem joins_without_loss (d : String) (isStatic : Bool) :
    (∀ t e, names t d isStatic = .error e ↔ slots d isStatic = .error e) ∧
    ∀ l, slots d isStatic = .ok l →
      (∀ t, names t d isStatic = .ok (l.map fun slot => (t.lastEntry slot).map (·.name))) ∧
      (∀ a b na nb, names a d isStatic = .ok na → names b d isStatic = .ok nb →
        names (a.join b).value d isStatic = .ok (List.zipWith Option.or nb na)) ∧
      (∀ t, names ⟨t.scopes.filter fun s => s.slot ∈ l⟩ d isStatic = names t d isStatic) ∧
      (isStatic = false → 0 ∉ l) ∧
      ∀ m : MethodText, d.toList = m.chars → l.length = m.parameters.length ∧
        ∀ i (h : i < l.length) t, m.parameters[i]? = some t → t.width = 2 →
          ∀ slot ∈ l, slot.toNat ≠ l[i].toNat + 1 := by
  refine ⟨fun t e => names_eq_error_iff, fun l hl => ⟨names_of_slots hl, ?_, names_filter hl, ?_,
    fun m hm => ?_⟩⟩
  · intro a b na nb ha hb
    rw [names_of_slots hl] at ha hb
    obtain rfl := Except.ok.inj ha
    obtain rfl := Except.ok.inj hb
    exact names_append hl a b
  · rintro rfl hzero
    obtain ⟨m, hm⟩ := exists_text_of_slots hl
    have hle := (inARow_of_slots hl hm).2.le_toNat hzero
    exact absurd hle (by decide)
  · have hrow := (inARow_of_slots hl hm).2
    exact ⟨hrow.length, fun i hi t ht hwide slot hslot => hrow.ne_second_half hi ht hwide hslot⟩

/-- A `long` is named anew by the later table, an empty range names a parameter, and neither the
receiver nor the second half of the `long` gives its name away. -/
theorem joins_without_loss_of_wide :
    let a : Table := ⟨[⟨0, 9, "this", "LDemo;", 0⟩, ⟨0, 9, "total", "J", 1⟩, ⟨0, 0, "k", "I", 3⟩]⟩
    let b : Table := ⟨[⟨0, 9, "sum", "J", 1⟩, ⟨0, 4, "half", "I", 2⟩]⟩
    slots "(JI)V" false = .ok [1, 3] ∧
      names (a.join b).value "(JI)V" false = .ok [some "sum", some "k"] := by
  intro a b
  have hslots : slots "(JI)V" false = .ok [1, 3] :=
    slots_eq_of_inARow (m := ⟨[.base .long, .base .int], ['V'], .void []⟩) rfl (by decide)
      ⟨rfl, by decide⟩
  obtain ⟨hnames, hjoin, -⟩ := (joins_without_loss "(JI)V" false).2 [1, 3] hslots
  exact ⟨hslots, hjoin a b _ _ (hnames a) (hnames b)⟩

end LocalScopes.Method
