import LocalScopes.Proofs.Body.PoolIndexing
import LocalScopes.Proofs.Symbol.Filling

/-! # Tables that fill a pool

Writing a table asks a string pool for the symbols of its scopes, the name of each before its
descriptor. The pool gains those of them that it lacks, as far as there are indices
(`filled_indexScopes`), so whether a table can be written is a matter of numbers: its new symbols
fit or they do not (`fits_or_fills`). If they do not, the first symbol without an index is refused,
and the scopes that are written are those in front of the first one that has this symbol
(`front_of_refused`). -/

namespace LocalScopes

/-- The symbols of a scope, in the order in which they are asked for. -/
def Scope.symbols (s : Scope) : List String := [s.name, s.descriptor]

/-- The symbols of the scopes, in the order in which they are asked for. -/
def Table.symbols (t : Table) : List String := t.scopes.flatMap Scope.symbols

namespace Body

open StringPool (Lawful Filled newStrings)

/-! ### The symbols of one scope -/

section Scope
variable {s : Scope} {p q : StringPool} (hp : Lawful p)
include hp

theorem filled_internScope_ok {i j : UInt16}
    (h : internScope StringPool.intern s p = (.ok (i, j), q)) : Filled p s.symbols none q := by
  rcases internScope_cases StringPool.intern s p with
    ⟨cause, y, hn, hs⟩ | ⟨i, y, cause, z, hn, hd, hs⟩ | ⟨i, y, j, z, hn, hd, hs⟩
  · cases hs.symm.trans h
  · cases hs.symm.trans h
  · cases hs.symm.trans h
    have hy := hp.run (run_of_intern_eq hn)
    exact (hp.filled_of_intern_ok hn).append (hy.filled_of_intern_ok hd)

theorem filled_internScope_error {e : WriteError}
    (h : internScope StringPool.intern s p = (.error e, q)) :
    ∃ a ∈ s.symbols, e = .unindexed a (.poolFull a) ∧ Filled p s.symbols (some a) q := by
  rcases internScope_cases StringPool.intern s p with
    ⟨cause, y, hn, hs⟩ | ⟨i, y, cause, z, hn, hd, hs⟩ | ⟨i, y, j, z, hn, hd, hs⟩
  · cases hs.symm.trans h
    obtain ⟨rfl, hname⟩ := hp.filled_of_intern_error hn
    exact ⟨s.name, by simp [Scope.symbols], rfl, hname.extend [s.descriptor]⟩
  · cases hs.symm.trans h
    have hy := hp.run (run_of_intern_eq hn)
    obtain ⟨rfl, hdescriptor⟩ := hy.filled_of_intern_error hd
    exact ⟨s.descriptor, by simp [Scope.symbols], rfl,
      (hp.filled_of_intern_ok hn).append hdescriptor⟩
  · cases hs.symm.trans h

theorem mem_entries_of_internScope {i j : UInt16}
    (h : internScope StringPool.intern s p = (.ok (i, j), q)) : ∀ a ∈ s.symbols, a ∈ q.entries := by
  have hq := hp.run (run_internScope h)
  obtain ⟨hname, hdescriptor⟩ := leastIn_internScope hp h
  intro a ha
  simp only [Scope.symbols, List.mem_cons, List.not_mem_nil, or_false] at ha
  rcases ha with rfl | rfl
  · exact hq.mem_entries_iff.mpr ⟨i, hname.1⟩
  · exact hq.mem_entries_iff.mpr ⟨j, hdescriptor.1⟩

end Scope

/-! ### The symbols of all scopes -/

/-- What a writing answers when a symbol was refused, or none was. -/
def answerTo : Option String → Except WriteError Unit
  | none => .ok ()
  | some a => .error (.unindexed a (.poolFull a))

/-- **What the pool gains from scopes**, by one step for each of them. -/
theorem filled_indexScopes : ∀ (scopes : List Scope) {p : StringPool}, Lawful p →
    ∃ refused, (indexScopes StringPool.intern scopes p).answer = answerTo refused ∧
      Filled p (scopes.flatMap Scope.symbols) refused
        (indexScopes StringPool.intern scopes p).symbols
  | [], p, hp => ⟨none, rfl, hp.filled_nil⟩
  | s :: rest, p, hp => by
    rw [List.flatMap_cons]
    rcases hs : internScope StringPool.intern s p with ⟨e | ⟨i, j⟩, q⟩
    · obtain ⟨a, -, rfl, hfilled⟩ := filled_internScope_error hp hs
      rw [indexScopes_cons_error hs]
      exact ⟨some a, rfl, hfilled.extend _⟩
    · obtain ⟨refused, hanswer, hfilled⟩ := filled_indexScopes rest (hp.run (run_internScope hs))
      rw [indexScopes_cons_ok hs]
      exact ⟨refused, hanswer, (filled_internScope_ok hp hs).append hfilled⟩

section Scopes
variable {scopes : List Scope} {p : StringPool} (hp : Lawful p)
include hp

theorem indexScopes_ok_iff : (indexScopes StringPool.intern scopes p).answer = .ok () ↔
    p.size + (newStrings p.entries.toList (scopes.flatMap Scope.symbols)).length ≤
      StringPool.capacity := by
  obtain ⟨refused, hanswer, hfilled⟩ := filled_indexScopes scopes hp
  rw [hanswer, ← hfilled.none_iff hp.size_le]
  cases refused <;> simp [answerTo]

theorem entries_indexScopes_of_ok (h : (indexScopes StringPool.intern scopes p).answer = .ok ()) :
    (indexScopes StringPool.intern scopes p).symbols.entries.toList =
      p.entries.toList ++ newStrings p.entries.toList (scopes.flatMap Scope.symbols) := by
  obtain ⟨refused, hanswer, hfilled⟩ := filled_indexScopes scopes hp
  rw [h] at hanswer
  cases hfilled with
  | all room entries => exact entries
  | upTo next entries => cases hanswer

theorem exists_refused_indexScopes {e : WriteError}
    (h : (indexScopes StringPool.intern scopes p).answer = .error e) :
    ∃ a, e = .unindexed a (.poolFull a) ∧
      (newStrings p.entries.toList (scopes.flatMap Scope.symbols))[StringPool.capacity - p.size]? =
        some a ∧
      (indexScopes StringPool.intern scopes p).symbols.entries.toList = p.entries.toList ++
        (newStrings p.entries.toList (scopes.flatMap Scope.symbols)).take
          (StringPool.capacity - p.size) := by
  obtain ⟨refused, hanswer, hfilled⟩ := filled_indexScopes scopes hp
  rw [h] at hanswer
  cases hfilled with
  | all room entries => cases hanswer
  | upTo next entries =>
    cases hanswer
    exact ⟨_, rfl, next, entries⟩

theorem not_mem_entries_of_refused {a : String} {cause : SymbolError}
    (h : (indexScopes StringPool.intern scopes p).answer = .error (.unindexed a cause)) :
    a ∉ p.entries := by
  obtain ⟨a', hsame, next, -⟩ := exists_refused_indexScopes hp h
  cases hsame
  rw [← Array.mem_toList_iff]
  exact (StringPool.mem_newStrings.mp (List.mem_of_getElem? next)).2

end Scopes

/-- The scopes that got their indices are those in front of the first one with the refused
symbol. -/
theorem front_of_refused {a : String} {cause : SymbolError} :
    ∀ (scopes : List Scope) {p : StringPool}, Lawful p →
      (indexScopes StringPool.intern scopes p).answer = .error (.unindexed a cause) →
      (indexScopes StringPool.intern scopes p).done.map Indexed.scope =
        scopes.takeWhile fun s => a ∉ s.symbols
  | [], _, _, h => by cases h
  | s :: rest, p, hp, h => by
    rcases hs : internScope StringPool.intern s p with ⟨e | ⟨i, j⟩, q⟩
    · obtain ⟨a', ha', rfl, -⟩ := filled_internScope_error hp hs
      rw [indexScopes_cons_error hs] at h ⊢
      cases h
      rw [List.takeWhile_cons_of_neg (by simpa using ha')]
      rfl
    · have hq := hp.run (run_internScope hs)
      rw [indexScopes_cons_ok hs] at h ⊢
      have hnew := not_mem_entries_of_refused hq h
      have ha : a ∉ s.symbols := fun ha => hnew (mem_entries_of_internScope hp hs a ha)
      rw [List.takeWhile_cons_of_pos (by simpa using ha), List.map_cons,
        front_of_refused rest hq h]

/-! ### Writing -/

section FaultFree
variable {ω : Type} [Sink ω] {good : ω → Prop} {written : ω → Array UInt8}

/-- **A table fits into a pool, or fills it.** To a sink without faults, a table is written just if
the pool has an index for each symbol that it lacks, and these symbols are its new entries then.
Otherwise the first symbol without an index is refused, those before it are the new entries, and
what is written is the header and the records of the scopes in front of the first one that has the
refused symbol. All the indices in the records are those of first entries. A symbol that the pool
holds is never refused, even if the pool is full. -/
theorem fits_or_fills (hfree : Sink.FaultFree good written) {p : StringPool} (hp : p.Reachable)
    (t : Table) {sink : ω} (hs : good sink) :
    let w := write StringPool.intern t sink p
    let entries := p.entries.toList
    let new := newStrings entries t.symbols
    (65535 < t.size → w = ⟨.error (.tooManyScopes t.size), sink, p⟩) ∧
    (t.size ≤ 65535 →
      (w.answer = .ok () ↔ entries.length + new.length ≤ 65535) ∧
      (w.answer = .ok () → w.symbols.entries.toList = entries ++ new ∧
        written w.sink = written sink ++ (bodyIn w.symbols t.size t.scopes).toArray) ∧
      (65535 < entries.length + new.length → ∃ a, new[65535 - entries.length]? = some a ∧
        w.answer = .error (.unindexed a (.poolFull a)) ∧
        w.symbols.entries.toList = entries ++ new.take (65535 - entries.length) ∧
        written w.sink = written sink ++
          (bodyIn w.symbols t.size (t.scopes.takeWhile fun s => a ∉ s.symbols)).toArray) ∧
      ((∀ a ∈ t.symbols, a ∈ entries) → w.answer = .ok () ∧ w.symbols = p)) ∧
    ∀ a ∈ entries, StringPool.intern a p = (.ok (p.firstIndexOf a), p) ∧
      ∀ cause, w.answer ≠ .error (.unindexed a cause) := by
  intro w entries new
  have hlawful := hp.lawful
  have hlength : entries.length = p.size := Array.length_toList
  refine ⟨fun hlong => write_too_long hlong, fun ht => ?_, fun a ha => ⟨?_, fun cause hw => ?_⟩⟩
  · obtain ⟨hanswer, hsymbols, hwritten⟩ := write_faultFree_pool hfree hlawful ht hs
    rw [hlength]
    refine ⟨?_, fun hw => ?_, fun hover => ?_, fun hknown => ?_⟩
    · rw [hanswer]
      exact indexScopes_ok_iff hlawful
    · have hok := hanswer.symm.trans hw
      rw [indexScopes_done_of_ok StringPool.intern t.scopes p hok, ← hsymbols] at hwritten
      refine ⟨?_, hwritten⟩
      rw [hsymbols]
      exact entries_indexScopes_of_ok hlawful hok
    · obtain ⟨e, he⟩ : ∃ e, (indexScopes StringPool.intern t.scopes p).answer = .error e := by
        rcases h : (indexScopes StringPool.intern t.scopes p).answer with e | _
        · exact ⟨e, rfl⟩
        · exact absurd ((indexScopes_ok_iff hlawful).mp h) (Nat.not_le.mpr hover)
      obtain ⟨a, rfl, next, hentries⟩ := exists_refused_indexScopes hlawful he
      rw [front_of_refused t.scopes hlawful he, ← hsymbols] at hwritten
      refine ⟨a, next, hanswer.trans he, ?_, hwritten⟩
      rw [hsymbols]
      exact hentries
    · have hheld : ∀ s ∈ t.scopes, s.name ∈ p.entries ∧ s.descriptor ∈ p.entries := by
        intro s hs
        have hmem : ∀ a ∈ s.symbols, a ∈ p.entries := fun a ha =>
          Array.mem_toList_iff.mp (hknown a (List.mem_flatMap.mpr ⟨s, hs, ha⟩))
        exact ⟨hmem s.name (by simp [Scope.symbols]), hmem s.descriptor (by simp [Scope.symbols])⟩
      obtain ⟨hok, hsame, -⟩ := write_of_known hfree hlawful ht hheld hs
      exact ⟨hok, hsame⟩
  · exact hlawful.intern_known (Array.mem_toList_iff.mp ha)
  · rcases Nat.lt_or_ge maxCount t.size with hlong | ht
    · cases (congrArg Writing.answer (write_too_long hlong)).symm.trans hw
    · have hanswer := (write_faultFree_pool hfree hlawful ht hs).1
      exact not_mem_entries_of_refused hlawful (hanswer.symm.trans hw) (Array.mem_toList_iff.mp ha)

end FaultFree

/-- A pool of duplicates has one index left. The name of the second scope takes it, and the
descriptor of that scope is refused. -/
theorem fits_or_fills_but_descriptor :
    let p := (StringPool.collect (List.replicate 65534 "I")).value
    let t : Table := ⟨[⟨0, 4, "I", "I", 1⟩, ⟨2, 6, "n", "J", 2⟩]⟩
    let w := write StringPool.intern t (#[] : Array UInt8) p
    w.answer = .error (.unindexed "J" (.poolFull "J")) ∧
      w.symbols.entries.toList = List.replicate 65534 "I" ++ ["n"] ∧
      w.sink.toList = [0, 2, 0, 0, 0, 4, 0, 1, 0, 1, 0, 1] := by
  intro p t w
  have hp : p.Reachable := ⟨p, .collect _, .refl⟩
  have hentries : p.entries.toList = List.replicate 65534 "I" := by
    rw [show p = StringPool.ofList (List.replicate 65534 "I") from StringPool.value_collect _,
      StringPool.entries_ofList, List.take_replicate]
    rfl
  have hlength : (List.replicate 65534 "I").length = 65534 := List.length_replicate
  have hfirst : ∀ rest, (List.replicate 65534 "I" ++ rest).idxOf "I" = 0 := fun rest => by
    rw [show 65534 = 65533 + 1 from rfl, List.replicate_succ]
    exact List.idxOf_cons_self
  have hmem : ∀ a, a ∈ List.replicate 65534 "I" ↔ a = "I" := fun a =>
    List.mem_replicate.trans (and_iff_right (by decide))
  -- from here on the entries are known by these facts only
  generalize List.replicate 65534 "I" = held at hentries hlength hfirst hmem ⊢
  clear_value p
  have hnew : StringPool.newStrings held t.symbols = ["n", "J"] := by
    simp [StringPool.newStrings, t, Table.symbols, Scope.symbols, hmem, List.eraseDups_cons]
  obtain ⟨-, hfits, -⟩ := @fits_or_fills _ _ _ _ Sink.faultFree_array p hp t #[] trivial
  obtain ⟨-, -, hfull, -⟩ := hfits (by decide)
  rw [hentries, hnew, hlength, show 65535 - 65534 = 1 from rfl] at hfull
  obtain ⟨a, ha, hanswer, hsymbols, hwritten⟩ := hfull (by decide)
  obtain rfl : "J" = a := Option.some.inj ha
  refine ⟨hanswer, hsymbols, ?_⟩
  have hfront : t.scopes.takeWhile (fun s => "J" ∉ s.symbols) = [⟨0, 4, "I", "I", 1⟩] := by
    decide
  have hindex : w.symbols.firstIndexOf "I" = 1 := by
    rw [StringPool.firstIndexOf, hsymbols, hfirst]
    rfl
  rw [hfront, bodyIn, List.flatMap_singleton, Record.indexedBy, hindex, id_eq, id_eq,
    Array.empty_append] at hwritten
  rw [hwritten, List.toList_toArray, show t.size = 2 from rfl]
  decide

end Body

end LocalScopes
