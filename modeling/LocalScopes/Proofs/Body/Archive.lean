import LocalScopes.Proofs.Body.PoolIndexing
import LocalScopes.Proofs.Body.RoundTrip

/-! # Bodies that share a pool

Tables are written one behind the other to one buffer, and all of them use one pool, which may also
be asked for other strings in between. What has been written is made of bodies whose indices the
pool resolves (`Archive.Intact`). Every step keeps this, since an index keeps its string. So the
buffer reads as the tables in their order, with the pool as it is in the end.

* `Archive.Step.intact`, `Archive.Run.intact`: one step, and any number of them;
* `Archive.Intact.readBodies`, `Archive.Intact.readBytes`: the tables, one behind the other and by
  their places. -/

namespace LocalScopes

open Body

/-- A pool, what has been written with it, and the tables that were written, the first one first. -/
structure Archive where
  pool : StringPool
  bytes : Array UInt8
  tables : List Table

namespace Archive

/-- Nothing has been written. -/
def start (p : StringPool) : Archive := ⟨p, #[], []⟩

/-- The pool is asked for a string, with success or not, or a table is written with success. -/
inductive Step : Archive → Archive → Prop
  | intern (a : Archive) (s : String) : Step a ⟨(a.pool.intern s).2, a.bytes, a.tables⟩
  | write (a : Archive) (t : Table)
      (written : (Body.write StringPool.intern t a.bytes a.pool).answer = .ok ()) :
      Step a ⟨(Body.write StringPool.intern t a.bytes a.pool).symbols,
        (Body.write StringPool.intern t a.bytes a.pool).sink, a.tables ++ [t]⟩

/-- Any number of steps. -/
abbrev Run : Archive → Archive → Prop := Relation.ReflTransGen Step

/-- Number of bytes of the bodies of tables. -/
def span : List Table → Nat
  | [] => 0
  | t :: ts => size t.size + span ts

/-- Reads bodies one behind the other: the tables, and what is left of the bytes. -/
def readBodies (pool : Resolver) : Nat → List UInt8 → Except ReadError (List Table) × List UInt8
  | 0, bytes => (.ok [], bytes)
  | count + 1, bytes =>
    match read pool bytes with
    | ⟨.error e, rest, _⟩ => (.error e, rest)
    | ⟨.ok t, rest, _⟩ =>
      let later := readBodies pool count rest
      (later.1.map (t :: ·), later.2)

/-! ### The invariant -/

/-- The table of indexed scopes. -/
def tableOf (done : List Indexed) : Table := ⟨done.map Indexed.scope⟩

theorem size_tableOf (done : List Indexed) : (tableOf done).size = done.length := List.length_map _

/-- **The invariant of an archive**: it is made of the bodies of its tables, and the pool resolves
the indices in them. -/
structure Intact (a : Archive) (bodies : List (List Indexed)) : Prop where
  lawful : a.pool.Lawful
  bytes : a.bytes.toList = bodies.flatMap bodyOf
  tables : a.tables = bodies.map tableOf
  length_le : ∀ done ∈ bodies, done.length ≤ maxCount
  resolved : ∀ done ∈ bodies, ∀ d ∈ done, d.ResolvesIn a.pool.resolve

theorem intact_start {p : StringPool} (hp : p.Lawful) : Intact (start p) [] :=
  ⟨hp, rfl, rfl, by simp, by simp⟩

theorem Intact.of_run {a : Archive} {bodies : List (List Indexed)} (h : Intact a bodies)
    {q : StringPool} (hr : StringPool.Run a.pool q) : Intact ⟨q, a.bytes, a.tables⟩ bodies :=
  ⟨h.lawful.run hr, h.bytes, h.tables, h.length_le, fun done hdone d hd =>
    (h.resolved done hdone d hd).run hr⟩

theorem Intact.add {a : Archive} {bodies : List (List Indexed)} (h : Intact a bodies)
    {done : List Indexed} (hlen : done.length ≤ maxCount)
    (hres : ∀ d ∈ done, d.ResolvesIn a.pool.resolve) :
    Intact ⟨a.pool, a.bytes ++ (bodyOf done).toArray, a.tables ++ [tableOf done]⟩
      (bodies ++ [done]) := by
  refine ⟨h.lawful, by simp [h.bytes], by simp [h.tables], fun other hmem => ?_,
    fun other hmem => ?_⟩
  · rcases List.mem_append.mp hmem with hmem | hmem
    · exact h.length_le other hmem
    · rwa [List.mem_singleton.mp hmem]
  · rcases List.mem_append.mp hmem with hmem | hmem
    · exact h.resolved other hmem
    · rwa [List.mem_singleton.mp hmem]

/-- A step adds at most one body, behind the others. -/
theorem Step.intact {a b : Archive} {bodies : List (List Indexed)} (hs : Step a b)
    (h : Intact a bodies) : ∃ more, Intact b (bodies ++ more) := by
  cases hs with
  | intern s => exact ⟨[], by simpa using h.of_run (run_intern s a.pool)⟩
  | write t written =>
    obtain ⟨hscopes, hwrite⟩ := write_array_of_ok written
    have hsize := size_le_of_write written
    have hres := resolvesIn_indexScopes t.scopes h.lawful
    -- the bodies before resolve in the later pool, and the new one does by what it was given
    have hlater := h.of_run (run_indexScopes t.scopes a.pool)
    generalize indexScopes StringPool.intern t.scopes a.pool = given at *
    have htable : tableOf given.done = t := by rw [tableOf, hscopes]
    have hlen : given.done.length ≤ maxCount := by rwa [← size_tableOf, htable]
    have hadded := hlater.add hlen hres
    rw [htable] at hadded
    rw [hwrite]
    exact ⟨[given.done], hadded⟩

theorem Run.intact {a b : Archive} {bodies : List (List Indexed)} (hr : Run a b)
    (h : Intact a bodies) : ∃ more, Intact b (bodies ++ more) := by
  induction hr with
  | refl => exact ⟨[], by simpa using h⟩
  | tail _ hs ih =>
    obtain ⟨more, hmore⟩ := ih
    obtain ⟨more', hmore'⟩ := hs.intact hmore
    exact ⟨more ++ more', by rwa [← List.append_assoc]⟩

theorem Run.tables_prefix {a b : Archive} (hr : Run a b) : a.tables <+: b.tables := by
  induction hr with
  | refl => exact List.prefix_rfl
  | tail _ hs ih =>
    cases hs with
    | intern => exact ih
    | write => exact ih.trans (List.prefix_append _ _)

/-! ### Reading an archive -/

theorem length_flatMap_bodyOf : ∀ bodies : List (List Indexed),
    (bodies.flatMap bodyOf).length = span (bodies.map tableOf)
  | [] => rfl
  | done :: bodies => by
    rw [List.flatMap_cons, List.length_append, length_bodyOf, length_flatMap_bodyOf bodies,
      List.map_cons, span, size_tableOf]

theorem readBodies_flatMap {pool : Resolver} : ∀ bodies : List (List Indexed),
    (∀ done ∈ bodies, done.length ≤ maxCount) →
    (∀ done ∈ bodies, ∀ d ∈ done, d.ResolvesIn pool) → ∀ tail : List UInt8,
      readBodies pool bodies.length (bodies.flatMap bodyOf ++ tail) =
        (.ok (bodies.map tableOf), tail)
  | [], _, _, tail => rfl
  | done :: bodies, hlen, hres, tail => by
    have ih := readBodies_flatMap bodies (fun d hd => hlen d (List.mem_cons_of_mem done hd))
      (fun d hd => hres d (List.mem_cons_of_mem done hd)) tail
    rw [List.flatMap_cons, List.append_assoc, List.length_cons, readBodies,
      read_bodyOf (hlen done (by simp)) (hres done (by simp))]
    simp only [ih, Except.map]
    rfl

theorem Intact.readBodies {a : Archive} {bodies : List (List Indexed)} (h : Intact a bodies) :
    readBodies a.pool.resolve a.tables.length a.bytes.toList = (.ok a.tables, []) := by
  have hlen : a.tables.length = bodies.length := by rw [h.tables, List.length_map]
  have := readBodies_flatMap bodies h.length_le h.resolved []
  rwa [List.append_nil, ← h.bytes, ← h.tables, ← hlen] at this

theorem Intact.readBytes {a : Archive} {bodies : List (List Indexed)} (h : Intact a bodies)
    {k : Nat} {t : Table} (hk : a.tables[k]? = some t) :
    (readBytes a.pool.resolve (a.bytes.toList.drop (span (a.tables.take k)))).value =
      .ok (t, size t.size) := by
  rw [h.tables, List.getElem?_map, Option.map_eq_some_iff] at hk
  obtain ⟨done, hdone, rfl⟩ := hk
  have hmem := List.mem_of_getElem? hdone
  obtain ⟨hlt, rfl⟩ := List.getElem?_eq_some_iff.mp hdone
  have hsplit : a.bytes.toList = (bodies.take k).flatMap bodyOf ++
      (bodyOf bodies[k] ++ (bodies.drop (k + 1)).flatMap bodyOf) := by
    rw [h.bytes, ← List.flatMap_cons, ← List.drop_eq_getElem_cons hlt, ← List.flatMap_append,
      List.take_append_drop]
  rw [hsplit, h.tables, ← List.map_take, ← length_flatMap_bodyOf, List.drop_left,
    readBytes_bodyOf (h.length_le _ hmem) (h.resolved _ hmem), size_tableOf]
  rfl

/-! ### The tables of a run -/

/-- **An archive reads as its tables.** After any steps from a new pool, the bodies read one behind
the other as the tables in their order, and nothing is left over. The body of a table stands behind
those of the tables before it, and after any further steps it still reads as that table and takes
the same bytes. -/
theorem reads_as_tables {p : StringPool} (hp : p.Made) {a : Archive} (h : Run (start p) a) :
    readBodies a.pool.resolve a.tables.length a.bytes.toList = (.ok a.tables, []) ∧
    ∀ later, Run a later → ∀ k t, a.tables[k]? = some t →
      (readBytes later.pool.resolve (later.bytes.toList.drop (span (a.tables.take k)))).value =
        .ok (t, size t.size) := by
  obtain ⟨bodies, hbodies⟩ := h.intact (intact_start hp.lawful)
  refine ⟨hbodies.readBodies, fun later hr k t hk => ?_⟩
  obtain ⟨more, hmore⟩ := hr.intact hbodies
  obtain ⟨rest, hrest⟩ := hr.tables_prefix
  obtain ⟨hlt, -⟩ := List.getElem?_eq_some_iff.mp hk
  have hlater : later.tables[k]? = some t := by rwa [← hrest, List.getElem?_append_left hlt]
  have htake : later.tables.take k = a.tables.take k := by
    rw [← hrest, List.take_append_of_le_length (Nat.le_of_lt hlt)]
  rw [← htake]
  exact hmore.readBytes hlater

/-- Two tables written with a pool that holds one string twice, and a string interned in between. -/
theorem reads_as_tables_of_two :
    let t : Table := ⟨[⟨0, 10, "a", "I", 1⟩]⟩
    let u : Table := ⟨[⟨0, 10, "b", "I", 1⟩, ⟨4, 0, "a", "b", 2⟩]⟩
    ∃ a, Run (start (StringPool.collect ["I", "I"]).value) a ∧ a.tables = [t, u] ∧
      (readBytes a.pool.resolve (a.bytes.toList.drop 12)).value = .ok (u, 22) := by
  intro t u
  have hrun : ∃ a, Run (start (StringPool.collect ["I", "I"]).value) a ∧ a.tables = [t, u] := by
    refine ⟨_, .tail (.tail (.single (.write _ t ?_)) (.intern _ "b")) (.write _ u ?_), rfl⟩
    · simp [t, start, write, writeRecords, internScope, StringPool.intern, StringPool.ofList_eq,
        StringPool.append, StringPool.capacity, Table.size, maxCount]
    · simp [t, u, start, write, writeRecords, internScope, StringPool.intern, StringPool.ofList_eq,
        StringPool.append, StringPool.capacity, Table.size, maxCount]
  obtain ⟨a, ha, htables⟩ := hrun
  refine ⟨a, ha, htables, ?_⟩
  have := (reads_as_tables (.collect _) ha).2 a .refl 1 u (by rw [htables]; rfl)
  rwa [htables] at this

end Archive

end LocalScopes
