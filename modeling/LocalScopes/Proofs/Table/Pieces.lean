import LocalScopes.Proofs.Table.LastEntry

/-! # Tables built from pieces

A table is made from a list of scopes, and then scopes are added at its end: one, a list of them, or
those of another table (`Appending`). After any number of such steps it is the concatenation of its
pieces (`Table.after_eq_concat`), and each query of it is made of the queries of the pieces: a slot
holds what the first piece says that says anything, its name as a parameter is what the last piece
says, and the scopes that cover an offset are those of all pieces, in order.

* `Table.after_append`: steps one after the other;
* `Table.scopeAt_concat`, `Table.covering_concat`, `Table.hasName_concat`,
  `Table.getElem?_slotNames_concat`: the queries, piece by piece;
* `Table.queries_follow_pieces`: all of it for a table and its history. -/

namespace LocalScopes

/-- A step that adds to the end of a table. -/
inductive Appending where
  | push (s : Scope)
  | extend (scopes : List Scope)
  | merge (other : Table)

namespace Appending

/-- What a step adds. -/
def piece : Appending → Table
  | push s => ⟨[s]⟩
  | extend scopes => ⟨scopes⟩
  | merge other => other

/-- The table after a step. -/
def apply (t : Table) : Appending → Table
  | push s => t.push s
  | extend scopes => t ++ ⟨scopes⟩
  | merge other => (t.join other).value

theorem apply_eq_append (t : Table) : ∀ step : Appending, step.apply t = t ++ step.piece
  | push _ => rfl
  | extend _ => rfl
  | merge _ => rfl

end Appending

namespace Table

/-- The table after steps, the first one first. -/
def after (t : Table) (steps : List Appending) : Table := steps.foldl Appending.apply t

/-- The tables of a list, one behind the other. -/
def concat : List Table → Table
  | [] => ∅
  | p :: pieces => p ++ concat pieces

theorem append_assoc (t u v : Table) : t ++ u ++ v = t ++ (u ++ v) :=
  congrArg Table.mk (List.append_assoc t.scopes u.scopes v.scopes)

theorem append_empty (t : Table) : t ++ ∅ = t := congrArg Table.mk (List.append_nil t.scopes)

theorem after_append (t : Table) (steps more : List Appending) :
    t.after (steps ++ more) = (t.after steps).after more := List.foldl_append

theorem after_eq_append_concat : ∀ (steps : List Appending) (t : Table),
    t.after steps = t ++ concat (steps.map Appending.piece)
  | [], t => (append_empty t).symm
  | step :: steps, t => by
    have hstep : t.after (step :: steps) = (step.apply t).after steps := rfl
    rw [hstep, after_eq_append_concat steps, step.apply_eq_append, append_assoc]
    rfl

/-- **A table is the concatenation of its pieces.** -/
theorem after_eq_concat (start : Table) (steps : List Appending) :
    start.after steps = concat (start :: steps.map Appending.piece) :=
  after_eq_append_concat steps start

theorem scopes_concat : ∀ pieces : List Table,
    (concat pieces).scopes = pieces.flatMap (·.scopes)
  | [] => rfl
  | p :: pieces => by rw [concat, scopes_append, scopes_concat pieces, List.flatMap_cons]

/-! ### Queries piece by piece -/

theorem hasName_append (t u : Table) (name : String) :
    (t ++ u).HasName name ↔ t.HasName name ∨ u.HasName name := by
  simp only [HasName, scopes_append, List.mem_append, or_and_right, exists_or]

theorem scopeAt_concat (slot offset : UInt16) : ∀ pieces : List Table,
    (concat pieces).scopeAt slot offset = pieces.findSome? (·.scopeAt slot offset)
  | [] => rfl
  | p :: pieces => by
    rw [concat, scopeAt_append, scopeAt_concat slot offset pieces, List.findSome?_cons]
    cases p.scopeAt slot offset <;> rfl

theorem covering_concat (offset : UInt16) : ∀ pieces : List Table,
    (concat pieces).covering offset = pieces.flatMap (·.covering offset)
  | [] => rfl
  | p :: pieces => by
    rw [concat, covering_append, covering_concat offset pieces, List.flatMap_cons]

theorem hasName_concat (name : String) : ∀ pieces : List Table,
    (concat pieces).HasName name ↔ ∃ p ∈ pieces, p.HasName name
  | [] => by simp [concat, HasName]
  | p :: pieces => by
    rw [concat, hasName_append, hasName_concat name pieces]
    simp

theorem getElem?_slotNames_concat (slot : UInt16) : ∀ pieces : List Table,
    (concat pieces).slotNames[slot]? = pieces.reverse.findSome? (·.slotNames[slot]?)
  | [] => by simp [concat, slotNames, entryScopes]
  | p :: pieces => by
    rw [concat, getElem?_slotNames_append, getElem?_slotNames_concat slot pieces,
      List.reverse_cons, List.findSome?_append, List.findSome?_singleton]

theorem scopeAt_after {t : Table} {slot offset : UInt16} {s : Scope}
    (h : t.scopeAt slot offset = some s) (more : List Appending) :
    (t.after more).scopeAt slot offset = some s := by
  rw [after_eq_append_concat, scopeAt_append, h]
  rfl

/-! ### Queries of one table -/

theorem scopeAt_eq_find?_covering (t : Table) (slot offset : UInt16) :
    t.scopeAt slot offset = (t.covering offset).find? fun s => s.slot = slot := by
  rw [scopeAt, covering, List.find?_filter]
  congr 1
  funext s
  simp only [decide_eq_true_eq]
  exact decide_eq_decide.mpr and_comm

theorem mem_covering_iff {t : Table} {offset : UInt16} {s : Scope} :
    s ∈ t.covering offset ↔ s ∈ t.scopes ∧ s.start.toNat ≤ offset.toNat ∧
      offset.toNat < s.start.toNat + s.length.toNat := by
  rw [covering, List.mem_filter, decide_eq_true_eq]
  rfl

/-- **Queries follow the pieces of a table.** After any steps that add to it, a table answers as its
pieces do: a slot holds what the first piece with an answer says, which no later step changes; the
covering scopes are those of the pieces in order; a name is there if some piece has it; and a
parameter has the name of the last piece that gives one. In the table itself, which holds the scopes
of the pieces in order, what holds a slot is the first covering scope on it, from which its name and
its descriptor come. A name is there if some scope has it, and the covering scopes are all those,
in their order, that start at the offset or before it and end behind it, where the end may be past
the last offset there is. -/
theorem queries_follow_pieces (start : Table) (steps : List Appending) (slot offset : UInt16)
    (name : String) :
    let t := start.after steps
    let pieces := start :: steps.map Appending.piece
    t.scopes = pieces.flatMap (·.scopes) ∧
    t.scopeAt slot offset = pieces.findSome? (·.scopeAt slot offset) ∧
    (∀ s, t.scopeAt slot offset = some s → ∀ more : List Appending,
      (start.after (steps ++ more)).scopeAt slot offset = some s) ∧
    t.covering offset = pieces.flatMap (·.covering offset) ∧
    (t.HasName name ↔ ∃ p ∈ pieces, p.HasName name) ∧
    t.slotNames[slot]? = pieces.reverse.findSome? (·.slotNames[slot]?) ∧
    (t.scopeAt slot offset = (t.covering offset).find? fun s => s.slot = slot) ∧
    t.nameAt slot offset = (t.scopeAt slot offset).map (·.name) ∧
    t.descriptorAt slot offset = (t.scopeAt slot offset).map (·.descriptor) ∧
    (t.HasName name ↔ ∃ s ∈ t.scopes, s.name = name) ∧
    (t.covering offset = t.scopes.filter fun s =>
      s.start.toNat ≤ offset.toNat ∧ offset.toNat < s.start.toNat + s.length.toNat) ∧
    ∀ s, s ∈ t.covering offset ↔ s ∈ t.scopes ∧ s.start.toNat ≤ offset.toNat ∧
      offset.toNat < s.start.toNat + s.length.toNat := by
  intro t pieces
  have hconcat : t = concat pieces := after_eq_concat start steps
  refine ⟨?_, ?_, fun s hs more => ?_, ?_, ?_, ?_, scopeAt_eq_find?_covering t slot offset, rfl, rfl,
    Iff.rfl, rfl, fun s => mem_covering_iff⟩
  · rw [hconcat, scopes_concat]
  · rw [hconcat, scopeAt_concat]
  · rw [after_append]
    exact scopeAt_after hs more
  · rw [hconcat, covering_concat]
  · rw [hconcat, hasName_concat]
  · rw [hconcat, getElem?_slotNames_concat]

/-- A range that ends past the last offset holds its slot against a later scope, which names the
parameter in its place. -/
theorem queries_follow_pieces_past_the_end :
    let x : Scope := ⟨65535, 2, "x", "J", 0⟩
    let z : Scope := ⟨65535, 65535, "z", "I", 0⟩
    let steps : List Appending := [.push ⟨0, 0, "p", "I", 0⟩, .extend [],
      .merge ⟨[⟨0, 65535, "y", "I", 0⟩, z]⟩]
    let t := Table.after ⟨[x]⟩ steps
    t.scopeAt 0 65535 = some x ∧ t.covering 65535 = [x, z] ∧ x ∈ t.covering 65535 ∧
      t.HasName "x" ∧ t.descriptorAt 0 65535 = some "J" ∧ t.slotNames[(0 : UInt16)]? = some "y" ∧
      (Table.after ⟨[x]⟩ (steps ++ [.push ⟨0, 65535, "w", "I", 0⟩])).scopeAt 0 65535 = some x := by
  intro x z steps t
  obtain ⟨hscopes, hfirst, hstays, -, -, hparameter, -, -, hdescriptor, hname, hcovering, hcovers⟩ :=
    queries_follow_pieces ⟨[x]⟩ steps 0 65535 "x"
  have hx : t.scopeAt 0 65535 = some x := hfirst.trans rfl
  have hmem : x ∈ t.scopes := hscopes ▸ List.mem_cons_self
  refine ⟨hx, ?_, (hcovers x).mpr ⟨hmem, by decide, by decide⟩, hname.mpr ⟨x, hmem, rfl⟩, ?_,
    hparameter.trans rfl, hstays x hx _⟩
  · rw [hcovering, hscopes]
    simp [x, z, steps, Appending.piece]
  · rw [hdescriptor, hx]
    rfl

end Table

end LocalScopes
