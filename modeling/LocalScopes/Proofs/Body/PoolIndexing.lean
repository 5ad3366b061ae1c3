import LocalScopes.Proofs.Body.Indexing
import LocalScopes.Proofs.Symbol.FirstIndex

/-! # Indices from a string pool

When a string pool is asked for the symbols of a table, it goes through one of its histories, so the
indices that it gives are the least ones of the symbols (`leastIn_indexScopes`) and resolve to them
from then on (`resolvesIn_indexScopes`, `Indexed.ResolvesIn.run`). Asked for them again at any later
time, it gives the same indices, and stays as it is (`indexScopes_again`). So it does when it has
all the symbols already, whoever asked for them (`indexScopes_of_known`), so a table of such symbols
is written even if the pool is full (`write_of_known`). -/

namespace LocalScopes.Body

open StringPool (Lawful Run)

theorem run_intern (s : String) (p : StringPool) : Run p (p.intern s).2 := .single ⟨s, rfl⟩

theorem Indexed.ResolvesIn.run {p q : StringPool} {d : Indexed} (h : d.ResolvesIn p.resolve)
    (hr : Run p q) : d.ResolvesIn q.resolve :=
  ⟨hr.resolve_eq_ok h.name, hr.resolve_eq_ok h.descriptor⟩

theorem run_of_intern_eq {p q : StringPool} {s : String} {reply : Except SymbolError UInt16}
    (h : p.intern s = (reply, q)) : Run p q := by
  have := run_intern s p
  rwa [h] at this

theorem run_internScope {s : Scope} {p q : StringPool} {given : Except WriteError (UInt16 × UInt16)}
    (h : internScope StringPool.intern s p = (given, q)) : Run p q := by
  rcases internScope_cases StringPool.intern s p with
    ⟨cause, y, hn, hs⟩ | ⟨i, y, cause, z, hn, hd, hs⟩ | ⟨i, y, j, z, hn, hd, hs⟩
  · obtain ⟨-, rfl⟩ := Prod.mk.inj (hs.symm.trans h)
    exact run_of_intern_eq hn
  · obtain ⟨-, rfl⟩ := Prod.mk.inj (hs.symm.trans h)
    exact (run_of_intern_eq hn).trans (run_of_intern_eq hd)
  · obtain ⟨-, rfl⟩ := Prod.mk.inj (hs.symm.trans h)
    exact (run_of_intern_eq hn).trans (run_of_intern_eq hd)

/-! ### Least indices -/

/-- The two indices are the least ones at which the pool holds the symbols of the scope. -/
structure Indexed.LeastIn (p : StringPool) (d : Indexed) : Prop where
  name : p.IsLeastIndex d.scope.name d.nameIndex
  descriptor : p.IsLeastIndex d.scope.descriptor d.descriptorIndex

theorem Indexed.LeastIn.run {p q : StringPool} {d : Indexed} (h : d.LeastIn p) (hp : Lawful p)
    (hr : Run p q) : d.LeastIn q :=
  ⟨hp.isLeastIndex_run hr h.name, hp.isLeastIndex_run hr h.descriptor⟩

theorem Indexed.LeastIn.resolvesIn {p : StringPool} {d : Indexed} (h : d.LeastIn p) :
    d.ResolvesIn p.resolve :=
  ⟨StringPool.resolve_eq_ok_iff.mpr h.name.1, StringPool.resolve_eq_ok_iff.mpr h.descriptor.1⟩

/-- The record of a scope whose symbols have their first indices in the pool. -/
def Record.indexedBy (p : StringPool) (s : Scope) : Record :=
  .ofScope s (p.firstIndexOf s.name) (p.firstIndexOf s.descriptor)

/-- The header for a number of records, and the records of scopes with their first indices. -/
def bodyIn (p : StringPool) (count : Nat) (scopes : List Scope) : List UInt8 :=
  Word.bytes (UInt16.ofNat count) ++ scopes.flatMap fun s => (Record.indexedBy p s).bytes

theorem Indexed.LeastIn.record_eq {p : StringPool} {d : Indexed} (h : d.LeastIn p)
    (hp : Lawful p) : d.record = .indexedBy p d.scope := by
  rw [Indexed.record, (hp.isLeastIndex_iff.mp h.name).2, (hp.isLeastIndex_iff.mp h.descriptor).2]
  rfl

theorem isLeastIndex_of_intern_eq {p q : StringPool} (hp : Lawful p) {s : String} {i : UInt16}
    (h : p.intern s = (.ok i, q)) : q.IsLeastIndex s i := by
  have := hp.isLeastIndex_of_intern (congrArg Prod.fst h)
  rwa [h] at this

theorem leastIn_internScope {p q : StringPool} (hp : Lawful p) {s : Scope} {i j : UInt16}
    (h : internScope StringPool.intern s p = (.ok (i, j), q)) : Indexed.LeastIn q ⟨s, i, j⟩ := by
  rcases internScope_cases StringPool.intern s p with
    ⟨cause, y, hn, hs⟩ | ⟨i, y, cause, z, hn, hd, hs⟩ | ⟨i, y, j, z, hn, hd, hs⟩
  · cases hs.symm.trans h
  · cases hs.symm.trans h
  · cases hs.symm.trans h
    have hy := hp.run (run_of_intern_eq hn)
    exact ⟨hy.isLeastIndex_run (run_of_intern_eq hd) (isLeastIndex_of_intern_eq hp hn),
      isLeastIndex_of_intern_eq hy hd⟩

theorem run_indexScopes : ∀ (scopes : List Scope) (p : StringPool),
    Run p (indexScopes StringPool.intern scopes p).symbols
  | [], _ => .refl
  | s :: rest, p => by
    rcases hs : internScope StringPool.intern s p with ⟨e | ⟨i, j⟩, q⟩
    · rw [indexScopes_cons_error hs]
      exact run_internScope hs
    · rw [indexScopes_cons_ok hs]
      exact (run_internScope hs).trans (run_indexScopes rest q)

theorem leastIn_indexScopes : ∀ (scopes : List Scope) {p : StringPool}, Lawful p →
    ∀ d ∈ (indexScopes StringPool.intern scopes p).done,
      d.LeastIn (indexScopes StringPool.intern scopes p).symbols
  | [], _, _, d, hd => by simp [indexScopes] at hd
  | s :: rest, p, hp, d, hd => by
    rcases hs : internScope StringPool.intern s p with ⟨e | ⟨i, j⟩, q⟩
    · rw [indexScopes_cons_error hs] at hd
      simp at hd
    · have hq := hp.run (run_internScope hs)
      rw [indexScopes_cons_ok hs] at hd ⊢
      rcases List.mem_cons.mp hd with rfl | hd
      · exact (leastIn_internScope hp hs).run hq (run_indexScopes rest q)
      · exact leastIn_indexScopes rest hq d hd

theorem resolvesIn_indexScopes (scopes : List Scope) {p : StringPool} (hp : Lawful p) :
    ∀ d ∈ (indexScopes StringPool.intern scopes p).done,
      d.ResolvesIn (indexScopes StringPool.intern scopes p).symbols.resolve :=
  fun d hd => (leastIn_indexScopes scopes hp d hd).resolvesIn

theorem map_record_indexScopes (scopes : List Scope) {p : StringPool} (hp : Lawful p) :
    (indexScopes StringPool.intern scopes p).done.map Indexed.record =
      ((indexScopes StringPool.intern scopes p).done.map Indexed.scope).map
        (Record.indexedBy (indexScopes StringPool.intern scopes p).symbols) := by
  have hlawful := hp.run (run_indexScopes scopes p)
  rw [List.map_map]
  exact List.map_congr_left fun d hd => (leastIn_indexScopes scopes hp d hd).record_eq hlawful

/-- **Writing without faults**: the answer and the pool are those of the symbols, and the records
that are written have first indices. -/
theorem write_faultFree_pool {ω : Type} [Sink ω] {good : ω → Prop} {written : ω → Array UInt8}
    (hfree : Sink.FaultFree good written) {p : StringPool} (hp : Lawful p) {t : Table}
    (ht : t.size ≤ maxCount) {sink : ω} (hs : good sink) :
    let w := write StringPool.intern t sink p
    let given := indexScopes StringPool.intern t.scopes p
    w.answer = given.answer ∧ w.symbols = given.symbols ∧
      written w.sink = written sink ++
        (bodyIn given.symbols t.size (given.done.map Indexed.scope)).toArray := by
  intro w given
  obtain ⟨hanswer, hsymbols, hwritten⟩ := write_faultFree_records hfree StringPool.intern ht hs p
  have hrecords := congrArg (List.flatMap Record.bytes) (map_record_indexScopes t.scopes hp)
  rw [List.flatMap_map, List.flatMap_map] at hrecords
  refine ⟨hanswer, hsymbols, ?_⟩
  rw [bodyIn, ← hrecords]
  exact hwritten

theorem run_writeRecords {ω : Type} [Sink ω] (scopes : List Scope) (sink : ω) (p : StringPool) :
    Run p (writeRecords StringPool.intern scopes sink p).symbols := by
  obtain ⟨front, -, heq⟩ := exists_indexScopes_eq_writeRecords StringPool.intern scopes sink p
  rw [heq]
  exact run_indexScopes front p

theorem run_write {ω : Type} [Sink ω] (t : Table) (sink : ω) (p : StringPool) :
    Run p (write StringPool.intern t sink p).symbols := by
  obtain ⟨front, -, heq⟩ := exists_indexScopes_eq_write StringPool.intern t sink p
  rw [heq]
  exact run_indexScopes front p

/-! ### Asked again -/

theorem internScope_again {s : Scope} {p q : StringPool} (hp : Lawful p)
    (hr : Run (internScope StringPool.intern s p).2 q) :
    internScope StringPool.intern s q = ((internScope StringPool.intern s p).1, q) := by
  have hagain : ∀ {a : String} {reply : Except SymbolError UInt16} {x y : StringPool}, Lawful x →
      x.intern a = (reply, y) → Run y q → q.intern a = (reply, q) := by
    intro a reply x y hx h hy
    have hlater : Run (x.intern a).2 q := by rwa [h]
    have := hx.intern_again hlater
    rwa [h] at this
  rcases internScope_cases StringPool.intern s p with
    ⟨cause, y, hn, hs⟩ | ⟨i, y, cause, z, hn, hd, hs⟩ | ⟨i, y, j, z, hn, hd, hs⟩
  · rw [hs] at hr ⊢
    simp [internScope, hagain hp hn hr]
  · rw [hs] at hr ⊢
    have hy := run_of_intern_eq hn
    have hname := hagain hp hn ((run_of_intern_eq hd).trans hr)
    simp [internScope, hname, hagain (hp.run hy) hd hr]
  · rw [hs] at hr ⊢
    have hy := run_of_intern_eq hn
    have hname := hagain hp hn ((run_of_intern_eq hd).trans hr)
    simp [internScope, hname, hagain (hp.run hy) hd hr]

/-- **Symbols that were asked for keep their indices**, and a refusal is repeated. -/
theorem indexScopes_again : ∀ (scopes : List Scope) {p q : StringPool}, Lawful p →
    Run (indexScopes StringPool.intern scopes p).symbols q →
      indexScopes StringPool.intern scopes q =
        ⟨(indexScopes StringPool.intern scopes p).done,
          (indexScopes StringPool.intern scopes p).answer, q⟩
  | [], _, _, _, _ => rfl
  | s :: rest, p, q, hp, hr => by
    rcases hs : internScope StringPool.intern s p with ⟨e | ⟨i, j⟩, y⟩
    · rw [indexScopes_cons_error hs] at hr ⊢
      have hlater : Run (internScope StringPool.intern s p).2 q := by rwa [hs]
      have hagain := internScope_again hp hlater
      rw [hs] at hagain
      rw [indexScopes_cons_error hagain]
    · rw [indexScopes_cons_ok hs] at hr ⊢
      have hlater : Run (internScope StringPool.intern s p).2 q := by
        rw [hs]
        exact (run_indexScopes rest y).trans hr
      have hagain := internScope_again hp hlater
      rw [hs] at hagain
      rw [indexScopes_cons_ok hagain, indexScopes_again rest (hp.run (run_internScope hs)) hr]

theorem indexScopes_of_known {p : StringPool} (hp : Lawful p) : ∀ scopes : List Scope,
    (∀ s ∈ scopes, s.name ∈ p.entries ∧ s.descriptor ∈ p.entries) →
      (indexScopes StringPool.intern scopes p).answer = .ok () ∧
        (indexScopes StringPool.intern scopes p).symbols = p
  | [], _ => ⟨rfl, rfl⟩
  | s :: rest, h => by
    obtain ⟨hname, hdescriptor⟩ := h s (by simp)
    have hs : internScope StringPool.intern s p =
        (.ok (p.firstIndexOf s.name, p.firstIndexOf s.descriptor), p) := by
      simp only [internScope, hp.intern_known hname, hp.intern_known hdescriptor]
    rw [indexScopes_cons_ok hs]
    exact indexScopes_of_known hp rest fun u hu => h u (List.mem_cons_of_mem s hu)

theorem write_of_known {ω : Type} [Sink ω] {good : ω → Prop} {written : ω → Array UInt8}
    (hfree : Sink.FaultFree good written) {p : StringPool} (hp : Lawful p) {t : Table}
    (ht : t.size ≤ maxCount)
    (h : ∀ s ∈ t.scopes, s.name ∈ p.entries ∧ s.descriptor ∈ p.entries) {sink : ω}
    (hs : good sink) :
    let w := write StringPool.intern t sink p
    w.answer = .ok () ∧ w.symbols = p ∧
      written w.sink = written sink ++ (bodyIn p t.size t.scopes).toArray := by
  intro w
  obtain ⟨hanswer, hsymbols, hwritten⟩ := write_faultFree_pool hfree hp ht hs
  obtain ⟨hok, hsame⟩ := indexScopes_of_known hp t.scopes h
  rw [hsame, indexScopes_done_of_ok StringPool.intern t.scopes p hok] at hwritten
  exact ⟨hanswer.trans hok, hsymbols.trans hsame, hwritten⟩

/-- Scopes some of which were asked for before get the indices that they would have got then. -/
theorem indexScopes_resume {front scopes : List Scope} (hfront : front <+: scopes)
    {p : StringPool} (hp : Lawful p) :
    indexScopes StringPool.intern scopes (indexScopes StringPool.intern front p).symbols =
      indexScopes StringPool.intern scopes p := by
  obtain ⟨rest, rfl⟩ := hfront
  have hagain := indexScopes_again front hp .refl
  -- a refusal among the first scopes ends both runs, and otherwise both go on from one pool
  rcases hanswer : (indexScopes StringPool.intern front p).answer with e | _
  · rw [indexScopes_append_of_error rest front p hanswer,
      indexScopes_append_of_error rest front _ (by rw [hagain]; exact hanswer), hagain]
  · rw [indexScopes_append_of_ok rest front p hanswer,
      indexScopes_append_of_ok rest front _ (by rw [hagain]; exact hanswer), hagain]

end LocalScopes.Body
