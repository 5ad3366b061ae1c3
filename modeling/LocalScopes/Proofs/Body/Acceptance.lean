import LocalScopes.Proofs.Body.Layout
import LocalScopes.Proofs.Bytes.EndingSource

/-! # What a body reads as

Which answer a list of bytes has, said by the places of its words and records alone. With the header
in place, the answer is decided by the first declared record that is not there in full or has a bad
reference; without such a record it is the table of all the declared ones. A source that delivers
these bytes and then ends with a fault has the same answer, or that fault in place of a missing
record.

* `Outcome`, `Ending`: the answers by place, for a list and for any source, of which there is only
  one (`Ending.unique`);
* `ending_readRecords`, `ending_read`: the reading ends with such an answer, by one step for each
  record;
* `readBytes_eq_of_outcome`: so what the answer depends on is seen from the places. -/

namespace LocalScopes.Body

/-- Record `i` is there, and describes the scope. -/
def HoldsAt (pool : Resolver) (b : List UInt8) (i : Nat) (s : Scope) : Prop :=
  ∃ r, recordAt b i = some r ∧ r.Describes pool s

/-- How record `i` of `n` ends the reading: it is not there in full, or it is and has a bad
reference. -/
inductive StopsAt (pool : Resolver) (b : List UInt8) (n i : Nat) : ReadError → Prop
  | short (missing : b.length < size (i + 1)) : StopsAt pool b n i (.truncated n i)
  | bad {r : Record} {index : UInt16} {cause : SymbolError} (present : recordAt b i = some r)
      (refused : r.BadReference pool index cause) : StopsAt pool b n i (.unresolved index cause)

/-- The header declares `n` records, `i` is one of them, and all before it describe scopes. -/
structure Reaches (pool : Resolver) (b : List UInt8) (n i : Nat) : Prop where
  header : (wordAt b 0).map UInt16.toNat = some n
  declared : i < n
  before : ∀ j < i, ∃ s, HoldsAt pool b j s

/-- **The answer to a list of bytes.** -/
inductive Outcome (pool : Resolver) (b : List UInt8) : Except ReadError (Table × Nat) → Prop
  | headless (missing : b.length < headerSize) : Outcome pool b (.error (.truncated 0 0))
  | stopped {n i : Nat} {e : ReadError} (reached : Reaches pool b n i)
      (stop : StopsAt pool b n i e) : Outcome pool b (.error e)
  | complete {n : Nat} {scopes : List Scope} (header : (wordAt b 0).map UInt16.toNat = some n)
      (length : scopes.length = n) (records : ∀ i s, scopes[i]? = some s → HoldsAt pool b i s) :
      Outcome pool b (.ok (⟨scopes⟩, size n))

/-- The failure, if the source ends with `fault`: a fault other than the end of the input takes the
place of truncation. -/
def ReadError.endedBy (fault : IoFault) : ReadError → ReadError
  | truncated expected decoded =>
    if fault.kind = .unexpectedEnd then .truncated expected decoded else .io fault
  | e => e

/-- **The answer to a source** that delivers the bytes `b` and ends with `fault`, and the number of
bytes that are taken from it. A record that ends the reading is taken as far as it is there. -/
inductive Ending (pool : Resolver) (b : List UInt8) (fault : IoFault) :
    Except ReadError Table → Nat → Prop
  | headless (missing : b.length < headerSize) :
      Ending pool b fault (.error (.endedBy fault (.truncated 0 0))) b.length
  | stopped {n i : Nat} {e : ReadError} (reached : Reaches pool b n i)
      (stop : StopsAt pool b n i e) :
      Ending pool b fault (.error (e.endedBy fault)) (min b.length (size (i + 1)))
  | complete {n : Nat} {scopes : List Scope} (header : (wordAt b 0).map UInt16.toNat = some n)
      (length : scopes.length = n) (records : ∀ i s, scopes[i]? = some s → HoldsAt pool b i s) :
      Ending pool b fault (.ok ⟨scopes⟩) (size n)

/-! ### One record -/

/-- The record at a place, resolved, if it is there. -/
def resolveAt (pool : Resolver) (b : List UInt8) (i : Nat) :
    Option (Except (UInt16 × SymbolError) Scope) :=
  (recordAt b i).map (Record.resolve pool)

theorem holdsAt_iff {pool : Resolver} {b : List UInt8} {i : Nat} {s : Scope} :
    HoldsAt pool b i s ↔ resolveAt pool b i = some (.ok s) := by
  simp only [HoldsAt, resolveAt, Option.map_eq_some_iff, Record.resolve_eq_ok_iff]

theorem StopsAt.resolveAt {pool : Resolver} {b : List UInt8} {n i : Nat} {e : ReadError}
    (h : StopsAt pool b n i e) :
    (resolveAt pool b i = none ∧ e = .truncated n i) ∨
      ∃ index cause, resolveAt pool b i = some (.error (index, cause)) ∧
        e = .unresolved index cause := by
  unfold Body.resolveAt
  cases h with
  | short missing => exact .inl ⟨by rw [recordAt_eq_none missing]; rfl, rfl⟩
  | bad present refused =>
    refine .inr ⟨_, _, ?_, rfl⟩
    rw [present, Option.map_some, Record.resolve_eq_error_iff.mpr refused]

theorem HoldsAt.unique {pool : Resolver} {b : List UInt8} {i : Nat} {s t : Scope}
    (hs : HoldsAt pool b i s) (ht : HoldsAt pool b i t) : s = t := by
  rw [holdsAt_iff] at hs ht
  rw [hs] at ht
  exact Except.ok.inj (Option.some.inj ht)

theorem StopsAt.unique {pool : Resolver} {b : List UInt8} {n i : Nat} {e e' : ReadError}
    (h : StopsAt pool b n i e) (h' : StopsAt pool b n i e') : e = e' := by
  rcases h.resolveAt with ⟨hr, rfl⟩ | ⟨index, cause, hr, rfl⟩
  · rcases h'.resolveAt with ⟨-, rfl⟩ | ⟨index', cause', hr', -⟩
    · rfl
    · cases hr.symm.trans hr'
  · rcases h'.resolveAt with ⟨hr', -⟩ | ⟨index', cause', hr', rfl⟩
    · cases hr.symm.trans hr'
    · cases hr.symm.trans hr'
      rfl

theorem StopsAt.not_holdsAt {pool : Resolver} {b : List UInt8} {n i : Nat} {e : ReadError}
    (h : StopsAt pool b n i e) (s : Scope) : ¬ HoldsAt pool b i s := by
  rw [holdsAt_iff]
  rcases h.resolveAt with ⟨hr, -⟩ | ⟨index, cause, hr, -⟩ <;> simp [hr]

theorem resolveAt_congr {pool : Resolver} {b d : List UInt8} {m i : Nat}
    (h : ∀ j < m, b[j]? = d[j]?) (hi : size (i + 1) ≤ m) :
    resolveAt pool b i = resolveAt pool d i := by
  unfold resolveAt
  rw [recordAt_congr h hi]

/-! ### Records from the first one on -/

theorem forall_getElem?_concat {P : Nat → Scope → Prop} {scopes : List Scope} {s : Scope}
    (h : ∀ i t, scopes[i]? = some t → P i t) (hs : P scopes.length s) :
    ∀ i t, (scopes ++ [s])[i]? = some t → P i t := by
  intro i t hi
  rcases Nat.lt_trichotomy i scopes.length with hlt | rfl | hgt
  · rw [List.getElem?_append_left hlt] at hi
    exact h i t hi
  · rw [List.getElem?_concat_length] at hi
    cases hi
    exact hs
  · rw [List.getElem?_eq_none (by rw [List.length_append, List.length_singleton]; omega)] at hi
    cases hi

theorem exists_holdsAt {pool : Resolver} {b : List UInt8} {scopes : List Scope}
    (h : ∀ i s, scopes[i]? = some s → HoldsAt pool b i s) {i : Nat} (hi : i < scopes.length) :
    ∃ s, HoldsAt pool b i s :=
  ⟨scopes[i], h i _ (List.getElem?_eq_getElem hi)⟩

theorem scopes_unique {pool : Resolver} {b : List UInt8} {l l' : List Scope}
    (hlen : l.length = l'.length) (h : ∀ i s, l[i]? = some s → HoldsAt pool b i s)
    (h' : ∀ i s, l'[i]? = some s → HoldsAt pool b i s) : l = l' := by
  refine List.ext_getElem hlen fun i hi hi' => ?_
  have hs := h i _ (List.getElem?_eq_getElem hi)
  have hs' := h' i _ (List.getElem?_eq_getElem hi')
  exact hs.unique hs'

/-! ### One answer -/

theorem Reaches.not_stopsAt {pool : Resolver} {b : List UInt8} {n i j : Nat} {e : ReadError}
    (h : Reaches pool b n i) (hj : j < i) : ¬ StopsAt pool b n j e := by
  intro hstop
  obtain ⟨s, hs⟩ := h.before j hj
  exact hstop.not_holdsAt s hs

theorem header_ne_some {b : List UInt8} {n : Nat} (h : b.length < headerSize) :
    (wordAt b 0).map UInt16.toNat ≠ some n := by
  rw [wordAt_eq_none_iff.mpr h]
  simp

theorem declared_unique {b : List UInt8} {n n' : Nat} (h : (wordAt b 0).map UInt16.toNat = some n)
    (h' : (wordAt b 0).map UInt16.toNat = some n') : n = n' :=
  Option.some.inj (h.symm.trans h')

theorem Ending.unique {pool : Resolver} {b : List UInt8} {fault : IoFault}
    {a a' : Except ReadError Table} {k k' : Nat} (h : Ending pool b fault a k)
    (h' : Ending pool b fault a' k') : a = a' ∧ k = k' := by
  cases h with
  | headless missing =>
    cases h' with
    | headless => exact ⟨rfl, rfl⟩
    | stopped reached => exact absurd reached.header (header_ne_some missing)
    | complete header => exact absurd header (header_ne_some missing)
  | @stopped n i e reached stop =>
    cases h' with
    | headless missing => exact absurd reached.header (header_ne_some missing)
    | @stopped n' i' e' reached' stop' =>
      obtain rfl := declared_unique reached.header reached'.header
      rcases Nat.lt_trichotomy i' i with hlt | rfl | hlt
      · exact absurd stop' (reached.not_stopsAt hlt)
      · rw [stop.unique stop']
        exact ⟨rfl, rfl⟩
      · exact absurd stop (reached'.not_stopsAt hlt)
    | complete header length records =>
      obtain rfl := declared_unique reached.header header
      obtain ⟨s, hs⟩ := exists_holdsAt records (length ▸ reached.declared)
      exact absurd hs (stop.not_holdsAt s)
  | complete header length records =>
    cases h' with
    | headless missing => exact absurd header (header_ne_some missing)
    | stopped reached stop =>
      obtain rfl := declared_unique header reached.header
      obtain ⟨s, hs⟩ := exists_holdsAt records (length ▸ reached.declared)
      exact absurd hs (stop.not_holdsAt s)
    | complete header' length' records' =>
      obtain rfl := declared_unique header header'
      rw [scopes_unique (length.trans length'.symm) records records']
      exact ⟨rfl, rfl⟩

/-! ### The reading -/

@[simp] theorem ReadError.endedBy_endOfInput (e : ReadError) : e.endedBy .endOfInput = e := by
  cases e <;> rfl

@[simp] theorem answer_broken {ρ : Type} (fault : IoFault) (expected decoded : Nat) (rest : ρ)
    (events : Array Event) : (Reading.broken fault expected decoded rest events).answer =
      .error (.endedBy fault (.truncated expected decoded)) := by
  unfold Reading.broken ReadError.endedBy
  dsimp only
  split <;> rfl

@[simp] theorem rest_broken {ρ : Type} (fault : IoFault) (expected decoded : Nat) (rest : ρ)
    (events : Array Event) : (Reading.broken fault expected decoded rest events).rest = rest := by
  unfold Reading.broken
  split <;> rfl

section Source
variable {ρ : Type} [Source ρ] {pool : Resolver} {b : List UInt8} {fault : IoFault}
  {good : ρ → Prop} {moved : ρ → Nat} (h : Source.Delivers b fault good moved)
include h

/-- The reading of the missing records, when all scopes so far hold. -/
theorem ending_readRecords {n : Nat} (header : (wordAt b 0).map UInt16.toNat = some n) :
    ∀ (missing : Nat) {i : Nat} {source : ρ} (scopes : Array Scope) (events : Array Event),
      good source → moved source = size i → i + missing = n → scopes.size = i →
      size i ≤ b.length → (∀ j s, scopes.toList[j]? = some s → HoldsAt pool b j s) →
      Ending pool b fault (readRecords pool n missing source scopes events).answer
        (moved (readRecords pool n missing source scopes events).rest)
  | 0, i, source, scopes, events, hgood, hmoved, hi, hsize, hle, hold => by
    obtain rfl : i = n := hi
    rw [readRecords, hmoved]
    exact .complete header hsize hold
  | missing + 1, i, source, scopes, events, hgood, hmoved, hi, hsize, hle, hold => by
    have reached : Reaches pool b n i := by
      refine ⟨header, by omega, fun j hj => ?_⟩
      exact exists_holdsAt hold (by rwa [Array.length_toList, hsize])
    rcases Nat.lt_or_ge b.length (size (i + 1)) with hshort | hthere
    · -- the source is out of bytes within this record
      obtain ⟨after, htake, hafter⟩ :=
        h.short recordSize source hgood (by rwa [hmoved, ← size_succ])
      have hend : Ending pool b fault _ _ := .stopped reached (.short hshort)
      rw [Nat.min_eq_left (Nat.le_of_lt hshort)] at hend
      simp only [readRecords, htake, answer_broken, rest_broken, hsize, hafter]
      exact hend
    · obtain ⟨part, after, htake, hpart, hgood', hafter⟩ :=
        h.enough recordSize source hgood (by rwa [hmoved, ← size_succ])
      rw [hmoved] at hpart hafter
      rw [← size_succ] at hafter
      have hrec := recordAt_eq_ofBytes hpart
      simp only [readRecords, htake]
      cases hres : (Record.ofBytes part).resolve pool with
      | error failure =>
        obtain ⟨index, cause⟩ := failure
        have hend : Ending pool b fault _ _ :=
          .stopped reached (.bad hrec (Record.resolve_eq_error_iff.mp hres))
        rw [Nat.min_eq_right hthere, ← hafter] at hend
        exact hend
      | ok s =>
        have hholds : HoldsAt pool b i s := ⟨_, hrec, Record.resolve_eq_ok_iff.mp hres⟩
        refine ending_readRecords header missing _ _ hgood' hafter (by omega) (by simp [hsize])
          hthere ?_
        rw [Array.toList_push]
        exact forall_getElem?_concat hold (by rwa [Array.length_toList, hsize])

/-- **A reading ends as the places of the bytes say**, whatever source delivers them. -/
theorem ending_read (pool : Resolver) {source : ρ} (hgood : good source)
    (hmoved : moved source = 0) :
    Ending pool b fault (read pool source).answer (moved (read pool source).rest) := by
  rcases Nat.lt_or_ge b.length headerSize with hshort | hthere
  · obtain ⟨after, htake, hafter⟩ := h.short headerSize source hgood (by rwa [hmoved, Nat.zero_add])
    simp only [read, htake, answer_broken, rest_broken, hafter]
    exact .headless hshort
  · obtain ⟨part, after, htake, hpart, hgood', hafter⟩ :=
      h.enough headerSize source hgood (by rwa [hmoved, Nat.zero_add])
    rw [hmoved, List.drop_zero] at hpart
    rw [hmoved] at hafter
    have hword := wordAt_zero_eq_join hpart
    simp only [read, htake]
    exact ending_readRecords h (by rw [hword]; rfl) _ _ _ hgood' (hafter.trans (Nat.zero_add _))
      (Nat.zero_add _) rfl hthere (by simp)

end Source

/-! ### Lists of bytes -/

theorem outcome_iff {pool : Resolver} {b : List UInt8} {a : Except ReadError (Table × Nat)} :
    Outcome pool b a ↔ ∃ answer taken, Ending pool b .endOfInput answer taken ∧
      a = answer.map fun table => (table, taken) := by
  constructor
  · rintro (missing | ⟨reached, stop⟩ | ⟨header, length, records⟩)
    · exact ⟨_, _, .headless missing, rfl⟩
    · refine ⟨_, _, .stopped reached stop, ?_⟩
      rw [ReadError.endedBy_endOfInput]
      rfl
    · exact ⟨_, _, .complete header length records, rfl⟩
  · rintro ⟨answer, taken, missing | ⟨reached, stop⟩ | ⟨header, length, records⟩, rfl⟩
    · exact .headless missing
    · rw [ReadError.endedBy_endOfInput]
      exact .stopped reached stop
    · exact .complete header length records

theorem Outcome.unique {pool : Resolver} {b : List UInt8} {a a' : Except ReadError (Table × Nat)}
    (h : Outcome pool b a) (h' : Outcome pool b a') : a = a' := by
  obtain ⟨answer, taken, hend, rfl⟩ := outcome_iff.mp h
  obtain ⟨answer', taken', hend', rfl⟩ := outcome_iff.mp h'
  obtain ⟨rfl, rfl⟩ := hend.unique hend'
  rfl

theorem ending_list (pool : Resolver) (b : List UInt8) :
    Ending pool b .endOfInput (read pool b).answer (b.length - (read pool b).rest.length) :=
  ending_read (Source.delivers_list b) pool List.suffix_rfl (Nat.sub_self b.length)

theorem outcome_readBytes (pool : Resolver) (b : List UInt8) :
    Outcome pool b (readBytes pool b).value :=
  outcome_iff.mpr ⟨_, _, ending_list pool b, rfl⟩

theorem readBytes_eq_of_outcome {pool : Resolver} {b : List UInt8}
    {a : Except ReadError (Table × Nat)} (h : Outcome pool b a) : (readBytes pool b).value = a :=
  (outcome_readBytes pool b).unique h

/-! ### What the answer depends on -/

theorem Reaches.congr {pool other : Resolver} {b d : List UInt8} {n i : Nat}
    (h : Reaches pool b n i) (hheader : wordAt b 0 = wordAt d 0)
    (hrecords : ∀ j < i, resolveAt pool b j = resolveAt other d j) : Reaches other d n i := by
  refine ⟨by rw [← hheader]; exact h.header, h.declared, fun j hj => ?_⟩
  obtain ⟨s, hs⟩ := h.before j hj
  rw [holdsAt_iff, hrecords j hj, ← holdsAt_iff] at hs
  exact ⟨s, hs⟩

theorem Reaches.readBytes_take_append {pool : Resolver} {b : List UInt8} {n i : Nat} {r : Record}
    {index : UInt16} {cause : SymbolError} (h : Reaches pool b n i)
    (present : recordAt b i = some r) (bad : r.BadReference pool index cause) (tail : List UInt8) :
    (readBytes pool (b.take (size (i + 1)) ++ tail)).value = .error (.unresolved index cause) := by
  have hle := le_length_of_recordAt present
  have hsame : ∀ j < size (i + 1), b[j]? = (b.take (size (i + 1)) ++ tail)[j]? := by
    intro j hj
    rw [List.getElem?_append_left (by rw [List.length_take]; omega), List.getElem?_take_of_lt hj]
  have hmono : ∀ {j}, j ≤ i → size (j + 1) ≤ size (i + 1) :=
    fun hj => size_le_size (Nat.succ_le_succ hj)
  refine readBytes_eq_of_outcome (.stopped (h.congr ?_ fun j hj => ?_) (.bad ?_ bad))
  · exact wordAt_congr hsame (by simp only [size, headerSize]; omega)
  · exact resolveAt_congr hsame (hmono (Nat.le_of_lt hj))
  · rw [← recordAt_congr hsame (hmono (Nat.le_refl i)), present]

/-- A missing record ends the reading whatever the pool says about indices that no record before it
refers to. -/
theorem Reaches.readBytes_of_missing {pool other : Resolver} {b : List UInt8} {n i : Nat}
    (h : Reaches pool b n i) (missing : b.length < size (i + 1))
    (hsame : ∀ j < i, ∀ r, recordAt b j = some r →
      other r.nameIndex = pool r.nameIndex ∧ other r.descriptorIndex = pool r.descriptorIndex) :
    (readBytes other b).value = .error (.truncated n i) := by
  refine readBytes_eq_of_outcome (.stopped (h.congr rfl fun j hj => ?_) (.short missing))
  unfold resolveAt
  cases hrec : recordAt b j with
  | none => rfl
  | some r =>
    obtain ⟨hname, hdescriptor⟩ := hsame j hj r hrec
    simp only [Option.map_some, Record.resolve, hname, hdescriptor]

/-! ### The first failure decides -/

/-- **What reading answers.** The answer is the one that the places of the bytes give: the first
declared record that is missing or has a bad reference decides, and without one it is the table of
all records. A bad reference counts whatever is behind its record, and a missing record counts
before any reference in it. -/
theorem first_failure_decides (pool : Resolver) (b : List UInt8) :
    (∀ answer, (readBytes pool b).value = answer ↔ Outcome pool b answer) ∧
    (∀ n i r index cause, Reaches pool b n i → recordAt b i = some r →
      r.BadReference pool index cause → ∀ tail,
        (readBytes pool (b.take (size (i + 1)) ++ tail)).value =
          .error (.unresolved index cause)) ∧
    ∀ n i, Reaches pool b n i → b.length < size (i + 1) → ∀ other : Resolver,
      (∀ j < i, ∀ r, recordAt b j = some r →
        other r.nameIndex = pool r.nameIndex ∧ other r.descriptorIndex = pool r.descriptorIndex) →
      (readBytes other b).value = .error (.truncated n i) := by
  refine ⟨fun answer => ⟨?_, readBytes_eq_of_outcome⟩, ?_, ?_⟩
  · rintro rfl
    exact outcome_readBytes pool b
  · intro n i r index cause h present bad tail
    exact h.readBytes_take_append present bad tail
  · intro n i h missing other hsame
    exact h.readBytes_of_missing missing hsame

/-- A bad descriptor in the first record is reported although the second record is missing. -/
theorem first_failure_decides_early :
    let pool : Resolver := fun i => if i = 1 then .ok "n" else .error (.noEntry i)
    let b : List UInt8 := [0, 2, 0, 0, 0, 4, 0, 1, 0, 9, 0, 1]
    Reaches pool b 2 0 ∧ b.length < size 2 ∧
      (readBytes pool b).value = .error (.unresolved 9 (.noEntry 9)) := by
  intro pool b
  have hreached : Reaches pool b 2 0 := ⟨rfl, by decide, by simp⟩
  refine ⟨hreached, by decide, ?_⟩
  exact (first_failure_decides pool b).2.1 2 0 ⟨0, 4, 1, 9, 1⟩ 9 (.noEntry 9) hreached rfl
    (.descriptor (show pool 1 = .ok "n" from rfl) rfl) []

end LocalScopes.Body
