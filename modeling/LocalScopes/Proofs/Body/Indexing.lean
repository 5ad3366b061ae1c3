import LocalScopes.Body.Writer
import LocalScopes.Proofs.Bytes.SinkFaults

/-! # Indices for a table

Writing a table asks for the indices of its symbols and writes what it is given. To an array, which
takes all bytes, the two come apart: the symbols of the scopes are asked for one after the other up
to the first refusal (`indexScopes`), and the records of the scopes before it are written
(`write_array`). What an interner is asked for, and what it replies, is recorded by one that replies
as the given one does, and keeps the list of its calls beside the state (`Interner.recorded`).

* `write_map`: a sink and an interner that follow other ones write the same;
* `write_faultFree`, `write_recorded`: so does any sink without faults in place of an array, and an
  interner that records its calls;
* `exists_asked`: the calls are the two of each scope in table order, up to the first refusal
  (`Asked`);
* `exists_indexed_of_write`: what a success wrote, and by which calls. -/

namespace LocalScopes

/-! ### Calls of an interner -/

/-- A call of an interner: the string it is asked for, and its reply. -/
structure Call where
  symbol : String
  reply : Except SymbolError UInt16

/-- The pool gives the index of the reply, if there is one, the string of the call. -/
def Call.AgreesWith (pool : Resolver) (c : Call) : Prop :=
  ∀ i, c.reply = .ok i → pool i = .ok c.symbol

/-- The interner with a record of its calls, the first one first. -/
def Interner.recorded {σ : Type} (intern : Interner σ) : Interner (σ × List Call) :=
  fun s (symbols, calls) =>
    let answer := intern s symbols
    (answer.1, answer.2, calls ++ [⟨s, answer.1⟩])

theorem Interner.calls_of_recorded {σ : Type} {intern : Interner σ} {s : String}
    {x y : σ × List Call} {reply : Except SymbolError UInt16}
    (h : intern.recorded s x = (reply, y)) : y.2 = x.2 ++ [⟨s, reply⟩] := by
  obtain ⟨rfl, rfl⟩ := Prod.mk.inj h
  rfl

namespace Body

variable {ω σ τ : Type} [Sink ω]

/-! ### The symbols of one scope -/

/-- **One scope**: its name is refused, or its name gets an index and its descriptor is refused, or
both get their indices. -/
theorem internScope_cases (intern : Interner σ) (s : Scope) (x : σ) :
    (∃ cause y, intern s.name x = (.error cause, y) ∧
      internScope intern s x = (.error (.unindexed s.name cause), y)) ∨
    (∃ i y cause z, intern s.name x = (.ok i, y) ∧ intern s.descriptor y = (.error cause, z) ∧
      internScope intern s x = (.error (.unindexed s.descriptor cause), z)) ∨
    ∃ i y j z, intern s.name x = (.ok i, y) ∧ intern s.descriptor y = (.ok j, z) ∧
      internScope intern s x = (.ok (i, j), z) := by
  unfold internScope
  rcases hn : intern s.name x with ⟨cause | i, y⟩
  · exact .inl ⟨cause, y, rfl, rfl⟩
  · dsimp only
    rcases hd : intern s.descriptor y with ⟨cause | j, z⟩
    · exact .inr (.inl ⟨i, y, cause, z, rfl, hd, rfl⟩)
    · exact .inr (.inr ⟨i, y, j, z, rfl, hd, rfl⟩)

/-! ### The steps of a writing -/

section Steps
variable {intern : Interner σ} {s : Scope} {rest : List Scope} {sink after : ω} {x y : σ}
  {i j : UInt16} {fault : IoFault}

theorem writeRecords_cons_refused {e : WriteError} (h : internScope intern s x = (.error e, y)) :
    writeRecords intern (s :: rest) sink x = ⟨.error e, sink, y⟩ := by
  simp [writeRecords, h]

theorem writeRecords_cons_broken (h : internScope intern s x = (.ok (i, j), y))
    (hput : Sink.putAll ((Record.ofScope s i j).words.map Word.bytes) sink =
      (.error fault, after)) :
    writeRecords intern (s :: rest) sink x = ⟨.error (.io fault), after, y⟩ := by
  simp [writeRecords, h, hput]

theorem writeRecords_cons_ok (h : internScope intern s x = (.ok (i, j), y))
    (hput : Sink.putAll ((Record.ofScope s i j).words.map Word.bytes) sink = (.ok (), after)) :
    writeRecords intern (s :: rest) sink x = writeRecords intern rest after y := by
  simp [writeRecords, h, hput]

variable {t : Table}

theorem write_too_long (h : maxCount < t.size) :
    write intern t sink x = ⟨.error (.tooManyScopes t.size), sink, x⟩ := by
  simp [write, Nat.not_le.mpr h]

theorem write_broken (ht : t.size ≤ maxCount)
    (hput : Sink.put (Word.bytes (UInt16.ofNat t.size)) sink = (.error fault, after)) :
    write intern t sink x = ⟨.error (.io fault), after, x⟩ := by
  simp [write, ht, hput]

theorem write_eq_writeRecords (ht : t.size ≤ maxCount)
    (hput : Sink.put (Word.bytes (UInt16.ofNat t.size)) sink = (.ok (), after)) :
    write intern t sink x = writeRecords intern t.scopes after x := by
  simp [write, ht, hput]

end Steps

/-! ### Sinks and interners that follow others -/

/-- What a writing came to, for a sink seen through `g` and an interner seen through `f`. -/
def Writing.map {υ : Type} (g : ω → υ) (f : τ → σ) (w : Writing ω τ) : Writing υ σ :=
  ⟨w.answer, g w.sink, f w.symbols⟩

section Map
variable {υ : Type} [Sink υ] {p : ω → Prop} {g : ω → υ} {intern : Interner σ}
  {follower : Interner τ} {f : τ → σ}
  (hg : ∀ bytes sink, p sink → p (Sink.put bytes sink).2 ∧
    Sink.put bytes (g sink) = ((Sink.put bytes sink).1, g (Sink.put bytes sink).2))
  (hf : ∀ s x, intern s (f x) = ((follower s x).1, f (follower s x).2))

include hf in
theorem internScope_map (s : Scope) (x : τ) :
    internScope intern s (f x) =
      ((internScope follower s x).1, f (internScope follower s x).2) := by
  rcases internScope_cases follower s x with
    ⟨cause, y, hn, h⟩ | ⟨i, y, cause, z, hn, hd, h⟩ | ⟨i, y, j, z, hn, hd, h⟩
  · rw [h]
    simp [internScope, hf, hn]
  · rw [h]
    simp [internScope, hf, hn, hd]
  · rw [h]
    simp [internScope, hf, hn, hd]

include hg

theorem putAll_map : ∀ (parts : List (List UInt8)) (sink : ω), p sink →
    p (Sink.putAll parts sink).2 ∧
      Sink.putAll parts (g sink) = ((Sink.putAll parts sink).1, g (Sink.putAll parts sink).2)
  | [], _, hp => ⟨hp, rfl⟩
  | part :: rest, sink, hp => by
    unfold Sink.putAll
    obtain ⟨hstay, hput⟩ := hg part sink hp
    rw [hput]
    rcases hr : Sink.put part sink with ⟨fault | _, after⟩
    · rw [hr] at hstay
      exact ⟨hstay, rfl⟩
    · rw [hr] at hstay
      exact putAll_map rest after hstay

include hf

theorem writeRecords_map : ∀ (scopes : List Scope) {sink : ω} (x : τ), p sink →
    writeRecords intern scopes (g sink) (f x) = (writeRecords follower scopes sink x).map g f
  | [], _, _, _ => rfl
  | s :: rest, sink, x, hp => by
    have hs := internScope_map hf s x
    rcases hfollow : internScope follower s x with ⟨e | ⟨i, j⟩, y⟩ <;> rw [hfollow] at hs
    · rw [writeRecords_cons_refused hs, writeRecords_cons_refused hfollow]
      rfl
    · obtain ⟨hstay, hput⟩ := putAll_map hg ((Record.ofScope s i j).words.map Word.bytes) sink hp
      rcases hr : Sink.putAll ((Record.ofScope s i j).words.map Word.bytes) sink with
        ⟨fault | _, after⟩ <;> rw [hr] at hstay hput
      · rw [writeRecords_cons_broken hs hput, writeRecords_cons_broken hfollow hr]
        rfl
      · rw [writeRecords_cons_ok hs hput, writeRecords_cons_ok hfollow hr]
        exact writeRecords_map rest y hstay

/-- **The same writing.** If a sink and an interner do as other ones do, so does a writing. -/
theorem write_map (t : Table) {sink : ω} (x : τ) (hp : p sink) :
    write intern t (g sink) (f x) = (write follower t sink x).map g f := by
  rcases Nat.lt_or_ge maxCount t.size with hlong | ht
  · rw [write_too_long hlong, write_too_long hlong]
    rfl
  · obtain ⟨hstay, hput⟩ := hg (Word.bytes (UInt16.ofNat t.size)) sink hp
    rcases hr : Sink.put (Word.bytes (UInt16.ofNat t.size)) sink with ⟨fault | _, after⟩ <;>
      rw [hr] at hstay hput
    · rw [write_broken ht hput, write_broken ht hr]
      rfl
    · rw [write_eq_writeRecords ht hput, write_eq_writeRecords ht hr]
      exact writeRecords_map hg hf t.scopes x hstay

end Map

theorem write_faultFree {good : ω → Prop} {written : ω → Array UInt8}
    (h : Sink.FaultFree good written) (intern : Interner σ) (t : Table) {sink : ω} (symbols : σ)
    (hs : good sink) :
    write intern t (written sink) symbols = (write intern t sink symbols).map written id := by
  refine write_map (f := id) (fun bytes sink hs => ⟨h.stays bytes sink hs, ?_⟩) (fun _ _ => rfl) t
    symbols hs
  rw [Sink.put_array, h.succeeds bytes sink hs, h.takes bytes sink hs]

theorem write_recorded (intern : Interner σ) (t : Table) (sink : ω) (symbols : σ)
    (calls : List Call) :
    write intern t sink symbols =
      (write intern.recorded t sink (symbols, calls)).map id Prod.fst :=
  write_map (p := fun _ => True) (g := id) (f := (Prod.fst : σ × List Call → σ))
    (fun _ _ _ => ⟨trivial, rfl⟩) (fun _ _ => rfl) t (symbols, calls) trivial

/-- The calls that writing a table makes. -/
def callsOf (intern : Interner σ) (t : Table) (sink : ω) (symbols : σ) : List Call :=
  (write intern.recorded t sink (symbols, [])).symbols.2

/-! ### Indexed scopes -/

/-- A scope with the indices that its name and its descriptor are given. -/
structure Indexed where
  scope : Scope
  nameIndex : UInt16
  descriptorIndex : UInt16

namespace Indexed

/-- The words of the scope's record, in the order of the layout. -/
def words (d : Indexed) : List UInt16 :=
  [d.scope.start, d.scope.length, d.nameIndex, d.descriptorIndex, d.scope.slot]

/-- The record of the scope. -/
def record (d : Indexed) : Record := .ofScope d.scope d.nameIndex d.descriptorIndex

/-- The two calls by which the scope got its indices. -/
def calls (d : Indexed) : List Call :=
  [⟨d.scope.name, .ok d.nameIndex⟩, ⟨d.scope.descriptor, .ok d.descriptorIndex⟩]

/-- The pool gives the two indices the symbols of the scope. -/
structure ResolvesIn (pool : Resolver) (d : Indexed) : Prop where
  name : pool d.nameIndex = .ok d.scope.name
  descriptor : pool d.descriptorIndex = .ok d.scope.descriptor

theorem bytes_record (d : Indexed) : d.record.bytes = d.words.flatMap Word.bytes := rfl

theorem ResolvesIn.resolve_record {pool : Resolver} {d : Indexed} (h : d.ResolvesIn pool) :
    d.record.resolve pool = .ok d.scope := by
  simp [record, Record.resolve, Record.ofScope, h.name, h.descriptor]

theorem resolvesIn_of_calls {pool : Resolver} {d : Indexed}
    (h : ∀ c ∈ d.calls, c.AgreesWith pool) : d.ResolvesIn pool :=
  ⟨h ⟨d.scope.name, .ok d.nameIndex⟩ (by simp [calls]) _ rfl,
    h ⟨d.scope.descriptor, .ok d.descriptorIndex⟩ (by simp [calls]) _ rfl⟩

end Indexed

/-- The body of indexed scopes: their number, and the words of each. -/
def bodyOf (done : List Indexed) : List UInt8 :=
  Word.bytes (UInt16.ofNat done.length) ++ done.flatMap fun d => d.words.flatMap Word.bytes

theorem length_flatMap_bytes (done : List Indexed) :
    (done.flatMap fun d => d.words.flatMap Word.bytes).length = recordSize * done.length := by
  have hrecords := Record.length_flatMap_bytes (done.map Indexed.record)
  rwa [List.flatMap_map, List.length_map] at hrecords

theorem length_bodyOf (done : List Indexed) : (bodyOf done).length = size done.length := by
  rw [bodyOf, List.length_append, length_flatMap_bytes, Word.length_bytes]
  rfl

theorem length_eq_size {done : List Indexed} {t : Table}
    (h : done.map Indexed.scope = t.scopes) : done.length = t.size := by
  rw [← List.length_map Indexed.scope, h]
  rfl

/-! ### Indices up to the first refusal -/

/-- What asking for the symbols of scopes comes to: the scopes before the first refusal, the answer,
and the interner afterwards. -/
structure Indexing (σ : Type) where
  done : List Indexed
  answer : Except WriteError Unit
  symbols : σ

/-- Asks for the symbols of scopes, up to the first refusal. -/
def indexScopes (intern : Interner σ) : List Scope → σ → Indexing σ
  | [], symbols => ⟨[], .ok (), symbols⟩
  | s :: rest, symbols =>
    match internScope intern s symbols with
    | (.error e, symbols) => ⟨[], .error e, symbols⟩
    | (.ok (i, j), symbols) =>
      let later := indexScopes intern rest symbols
      ⟨⟨s, i, j⟩ :: later.done, later.answer, later.symbols⟩

theorem indexScopes_cons_error {intern : Interner σ} {s : Scope} {rest : List Scope} {x y : σ}
    {e : WriteError} (h : internScope intern s x = (.error e, y)) :
    indexScopes intern (s :: rest) x = ⟨[], .error e, y⟩ := by
  simp [indexScopes, h]

theorem indexScopes_cons_ok {intern : Interner σ} {s : Scope} {rest : List Scope} {x y : σ}
    {i j : UInt16} (h : internScope intern s x = (.ok (i, j), y)) :
    indexScopes intern (s :: rest) x =
      ⟨⟨s, i, j⟩ :: (indexScopes intern rest y).done, (indexScopes intern rest y).answer,
        (indexScopes intern rest y).symbols⟩ := by
  simp [indexScopes, h]

theorem indexScopes_done_of_ok (intern : Interner σ) : ∀ (scopes : List Scope) (x : σ),
    (indexScopes intern scopes x).answer = .ok () →
      (indexScopes intern scopes x).done.map Indexed.scope = scopes
  | [], _, _ => rfl
  | s :: rest, x, h => by
    rcases hs : internScope intern s x with ⟨e | ⟨i, j⟩, y⟩
    · rw [indexScopes_cons_error hs] at h
      cases h
    · rw [indexScopes_cons_ok hs] at h ⊢
      simp only [List.map_cons, indexScopes_done_of_ok intern rest y h]

theorem indexScopes_append_of_ok {intern : Interner σ} (rest : List Scope) :
    ∀ (front : List Scope) (x : σ), (indexScopes intern front x).answer = .ok () →
      indexScopes intern (front ++ rest) x =
        let later := indexScopes intern rest (indexScopes intern front x).symbols
        ⟨(indexScopes intern front x).done ++ later.done, later.answer, later.symbols⟩
  | [], _, _ => rfl
  | s :: front, x, h => by
    rcases hs : internScope intern s x with ⟨e | ⟨i, j⟩, y⟩
    · rw [indexScopes_cons_error hs] at h
      cases h
    · rw [indexScopes_cons_ok hs] at h ⊢
      rw [List.cons_append, indexScopes_cons_ok hs, indexScopes_append_of_ok rest front y h]
      rfl

theorem indexScopes_append_of_error {intern : Interner σ} {e : WriteError} (rest : List Scope) :
    ∀ (front : List Scope) (x : σ), (indexScopes intern front x).answer = .error e →
      indexScopes intern (front ++ rest) x = indexScopes intern front x
  | [], _, h => by cases h
  | s :: front, x, h => by
    rcases hs : internScope intern s x with ⟨e' | ⟨i, j⟩, y⟩
    · rw [List.cons_append, indexScopes_cons_error hs, indexScopes_cons_error hs]
    · rw [indexScopes_cons_ok hs] at h
      rw [List.cons_append, indexScopes_cons_ok hs, indexScopes_cons_ok hs,
        indexScopes_append_of_error rest front y h]

theorem indexScopes_take (intern : Interner σ) : ∀ (scopes : List Scope) (x : σ) {k : Nat},
    k ≤ (indexScopes intern scopes x).done.length →
      (indexScopes intern (scopes.take k) x).answer = .ok () ∧
        (indexScopes intern (scopes.take k) x).done = (indexScopes intern scopes x).done.take k
  | [], _, k, _ => by simp [indexScopes]
  | s :: rest, x, 0, _ => by simp [indexScopes]
  | s :: rest, x, k + 1, hk => by
    rcases hs : internScope intern s x with ⟨e | ⟨i, j⟩, y⟩
    · rw [indexScopes_cons_error hs] at hk
      simp at hk
    · rw [indexScopes_cons_ok hs, List.length_cons] at hk
      obtain ⟨hanswer, hdone⟩ := indexScopes_take intern rest y (Nat.le_of_succ_le_succ hk)
      rw [List.take_succ_cons, indexScopes_cons_ok hs, indexScopes_cons_ok hs,
        List.take_succ_cons, hdone]
      exact ⟨hanswer, rfl⟩

/-- Whatever ends a writing, it has asked for the symbols of scopes from the front. -/
theorem exists_indexScopes_eq_writeRecords (intern : Interner σ) :
    ∀ (scopes : List Scope) (sink : ω) (x : σ), ∃ front, front <+: scopes ∧
      (writeRecords intern scopes sink x).symbols = (indexScopes intern front x).symbols
  | [], _, _ => ⟨[], List.prefix_rfl, rfl⟩
  | s :: rest, sink, x => by
    have hfirst : [s] <+: s :: rest := (List.prefix_cons_inj s).mpr List.nil_prefix
    rcases hs : internScope intern s x with ⟨e | ⟨i, j⟩, y⟩
    · refine ⟨[s], hfirst, ?_⟩
      rw [writeRecords_cons_refused hs, indexScopes_cons_error hs]
    · rcases hput : Sink.putAll ((Record.ofScope s i j).words.map Word.bytes) sink with
        ⟨fault | _, after⟩
      · refine ⟨[s], hfirst, ?_⟩
        rw [writeRecords_cons_broken hs hput, indexScopes_cons_ok hs]
        rfl
      · obtain ⟨front, hfront, heq⟩ := exists_indexScopes_eq_writeRecords intern rest after y
        refine ⟨s :: front, (List.prefix_cons_inj s).mpr hfront, ?_⟩
        rw [writeRecords_cons_ok hs hput, indexScopes_cons_ok hs]
        exact heq

theorem exists_indexScopes_eq_write (intern : Interner σ) (t : Table) (sink : ω) (x : σ) :
    ∃ front, front <+: t.scopes ∧
      (write intern t sink x).symbols = (indexScopes intern front x).symbols := by
  rcases Nat.lt_or_ge maxCount t.size with hlong | ht
  · rw [write_too_long hlong]
    exact ⟨[], List.nil_prefix, rfl⟩
  · rcases hput : Sink.put (Word.bytes (UInt16.ofNat t.size)) sink with ⟨fault | _, after⟩
    · rw [write_broken ht hput]
      exact ⟨[], List.nil_prefix, rfl⟩
    · rw [write_eq_writeRecords ht hput]
      exact exists_indexScopes_eq_writeRecords intern t.scopes after x

theorem writeRecords_array (intern : Interner σ) :
    ∀ (scopes : List Scope) (out : Array UInt8) (x : σ),
      writeRecords intern scopes out x =
        ⟨(indexScopes intern scopes x).answer,
          out ++ ((indexScopes intern scopes x).done.flatMap fun d =>
            d.words.flatMap Word.bytes).toArray,
          (indexScopes intern scopes x).symbols⟩
  | [], out, x => by simp [writeRecords, indexScopes]
  | s :: rest, out, x => by
    rcases hs : internScope intern s x with ⟨e | ⟨i, j⟩, y⟩
    · rw [writeRecords_cons_refused hs, indexScopes_cons_error hs]
      simp
    · rw [writeRecords_cons_ok hs (Sink.putAll_array _ out), indexScopes_cons_ok hs,
        writeRecords_array intern rest]
      simp only [List.flatMap_cons, ← List.append_toArray, Array.append_assoc]
      rfl

/-- **Writing to an array**: the header, and the records of the scopes before the first refusal. -/
theorem write_array (intern : Interner σ) {t : Table} (ht : t.size ≤ maxCount) (out : Array UInt8)
    (symbols : σ) :
    write intern t out symbols =
      ⟨(indexScopes intern t.scopes symbols).answer,
        out ++ (Word.bytes (UInt16.ofNat t.size) ++
          (indexScopes intern t.scopes symbols).done.flatMap fun d =>
            d.words.flatMap Word.bytes).toArray,
        (indexScopes intern t.scopes symbols).symbols⟩ := by
  rw [write_eq_writeRecords ht (Sink.put_array _ out), writeRecords_array, Array.append_assoc,
    ← List.append_toArray]

theorem write_faultFree_records {good : ω → Prop} {written : ω → Array UInt8}
    (hfree : Sink.FaultFree good written) (intern : Interner σ) {t : Table}
    (ht : t.size ≤ maxCount) {sink : ω} (hs : good sink) (symbols : σ) :
    let w := write intern t sink symbols
    let given := indexScopes intern t.scopes symbols
    w.answer = given.answer ∧ w.symbols = given.symbols ∧
      written w.sink = written sink ++ (Word.bytes (UInt16.ofNat t.size) ++
        given.done.flatMap fun d => d.words.flatMap Word.bytes).toArray := by
  intro w given
  have hsame := write_faultFree hfree intern t symbols hs
  rw [write_array intern ht] at hsame
  obtain ⟨hanswer, hsink, hsymbols⟩ := Writing.mk.inj hsame
  exact ⟨hanswer.symm, hsymbols.symm, hsink.symm⟩

theorem size_write_array (intern : Interner σ) {t : Table} (ht : t.size ≤ maxCount) (symbols : σ) :
    (write intern t (#[] : Array UInt8) symbols).sink.size =
      size (indexScopes intern t.scopes symbols).done.length := by
  rw [write_array intern ht, size, ← length_flatMap_bytes]
  simp [Word.length_bytes, headerSize]

theorem size_le_of_write {intern : Interner σ} {t : Table} {sink : ω} {symbols : σ}
    (h : (write intern t sink symbols).answer = .ok ()) : t.size ≤ maxCount := by
  unfold write at h
  split at h
  · assumption
  · cases h

theorem write_array_of_ok {intern : Interner σ} {t : Table} {out : Array UInt8} {symbols : σ}
    (h : (write intern t out symbols).answer = .ok ()) :
    (indexScopes intern t.scopes symbols).done.map Indexed.scope = t.scopes ∧
      write intern t out symbols =
        ⟨.ok (), out ++ (bodyOf (indexScopes intern t.scopes symbols).done).toArray,
          (indexScopes intern t.scopes symbols).symbols⟩ := by
  have hw := write_array intern (size_le_of_write h) out symbols
  have hanswer : (indexScopes intern t.scopes symbols).answer = .ok () := by rwa [hw] at h
  have hdone := indexScopes_done_of_ok intern t.scopes symbols hanswer
  refine ⟨hdone, ?_⟩
  rw [hw, hanswer, bodyOf, length_eq_size hdone]

/-! ### The calls -/

/-- The calls for the symbols of scopes, and what they come to. The scopes `done` get both indices,
the name first. They are all the scopes, or a symbol of the next one is refused. -/
inductive Asked (scopes : List Scope) (done : List Indexed) :
    List Call → Except WriteError Unit → Prop
  | all (whole : done.map Indexed.scope = scopes) :
      Asked scopes done (done.flatMap Indexed.calls) (.ok ())
  | name {s : Scope} {cause : SymbolError}
      (before : done.map Indexed.scope = scopes.take done.length)
      (here : scopes[done.length]? = some s) :
      Asked scopes done (done.flatMap Indexed.calls ++ [⟨s.name, .error cause⟩])
        (.error (.unindexed s.name cause))
  | descriptor {s : Scope} {i : UInt16} {cause : SymbolError}
      (before : done.map Indexed.scope = scopes.take done.length)
      (here : scopes[done.length]? = some s) :
      Asked scopes done
        (done.flatMap Indexed.calls ++ [⟨s.name, .ok i⟩, ⟨s.descriptor, .error cause⟩])
        (.error (.unindexed s.descriptor cause))

theorem Asked.cons {rest : List Scope} {done : List Indexed} {calls : List Call}
    {answer : Except WriteError Unit} (h : Asked rest done calls answer) (d : Indexed) :
    Asked (d.scope :: rest) (d :: done) (d.calls ++ calls) answer := by
  cases h with
  | all whole =>
    rw [← List.flatMap_cons]
    exact .all (by rw [List.map_cons, whole])
  | name before here =>
    rw [← List.append_assoc, ← List.flatMap_cons]
    exact .name (by rw [List.map_cons, before]; rfl) here
  | descriptor before here =>
    rw [← List.append_assoc, ← List.flatMap_cons]
    exact .descriptor (by rw [List.map_cons, before]; rfl) here

theorem Asked.scope_of_ok {scopes : List Scope} {done : List Indexed} {calls : List Call}
    (h : Asked scopes done calls (.ok ())) : done.map Indexed.scope = scopes := by
  cases h with
  | all whole => exact whole

theorem Asked.calls_of_ok {scopes : List Scope} {done : List Indexed} {calls : List Call}
    (h : Asked scopes done calls (.ok ())) : calls = done.flatMap Indexed.calls := by
  cases h
  rfl

/-- **The calls for the symbols of scopes.** -/
theorem exists_asked (intern : Interner σ) : ∀ (scopes : List Scope) (x : σ × List Call),
    ∃ calls, (indexScopes intern.recorded scopes x).symbols.2 = x.2 ++ calls ∧
      Asked scopes (indexScopes intern.recorded scopes x).done calls
        (indexScopes intern.recorded scopes x).answer
  | [], x => ⟨[], by simp [indexScopes], .all rfl⟩
  | s :: rest, x => by
    rcases internScope_cases intern.recorded s x with
      ⟨cause, y, hn, hs⟩ | ⟨i, y, cause, z, hn, hd, hs⟩ | ⟨i, y, j, z, hn, hd, hs⟩
    · rw [indexScopes_cons_error hs]
      exact ⟨_, Interner.calls_of_recorded hn, .name rfl rfl⟩
    · rw [indexScopes_cons_error hs]
      refine ⟨[⟨s.name, .ok i⟩, ⟨s.descriptor, .error cause⟩], ?_, .descriptor rfl rfl⟩
      rw [Interner.calls_of_recorded hd, Interner.calls_of_recorded hn, List.append_assoc]
      rfl
    · obtain ⟨calls, hcalls, hasked⟩ := exists_asked intern rest z
      rw [indexScopes_cons_ok hs]
      refine ⟨Indexed.calls ⟨s, i, j⟩ ++ calls, ?_, hasked.cons ⟨s, i, j⟩⟩
      rw [hcalls, Interner.calls_of_recorded hd, Interner.calls_of_recorded hn,
        List.append_assoc, List.append_assoc]
      rfl

theorem write_array_asked (intern : Interner σ) {t : Table} (ht : t.size ≤ maxCount)
    (out : Array UInt8) (symbols : σ) :
    let given := indexScopes intern.recorded t.scopes (symbols, [])
    let free := write intern t out symbols
    Asked t.scopes given.done (callsOf intern t out symbols) free.answer ∧
      free.sink = out ++ (Word.bytes (UInt16.ofNat t.size) ++
        given.done.flatMap fun d => d.words.flatMap Word.bytes).toArray := by
  intro given free
  have harray := write_array intern.recorded ht out (symbols, [])
  have hfree : free = (write intern.recorded t out (symbols, [])).map id Prod.fst :=
    write_recorded intern t out symbols []
  have hcalls : callsOf intern t out symbols = given.symbols.2 :=
    congrArg (fun w => w.symbols.2) harray
  obtain ⟨calls, hrecord, hasked⟩ := exists_asked intern t.scopes (symbols, [])
  rw [List.nil_append] at hrecord
  rw [hcalls, hrecord, hfree, harray]
  exact ⟨hasked, rfl⟩

/-- **A success to a sink without faults**: each scope got its indices by its two calls, and the
body of all of them was written. -/
theorem exists_indexed_of_write {good : ω → Prop} {written : ω → Array UInt8}
    (hfree : Sink.FaultFree good written) {intern : Interner σ} {t : Table} {sink : ω} {symbols : σ}
    (hs : good sink) (h : (write intern t sink symbols).answer = .ok ()) :
    ∃ done : List Indexed, done.map Indexed.scope = t.scopes ∧
      callsOf intern t sink symbols = done.flatMap Indexed.calls ∧
      written (write intern t sink symbols).sink = written sink ++ (bodyOf done).toArray := by
  obtain ⟨hasked, hsink⟩ :=
    write_array_asked intern (size_le_of_write h) (written sink) symbols
  have hcalls : callsOf intern t (written sink) symbols = callsOf intern t sink symbols := by
    unfold callsOf
    rw [write_faultFree hfree intern.recorded t (symbols, []) hs]
    rfl
  have hsame := write_faultFree hfree intern t symbols hs
  have hok : (write intern t (written sink) symbols).answer = .ok () := by
    rw [hsame]
    exact h
  rw [hcalls, hok] at hasked
  have hdone := hasked.scope_of_ok
  refine ⟨_, hdone, hasked.calls_of_ok, ?_⟩
  rw [bodyOf, length_eq_size hdone, ← hsink, hsame]
  rfl

end Body

end LocalScopes
