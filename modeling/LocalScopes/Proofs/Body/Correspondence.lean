import LocalScopes.Proofs.Body.Acceptance

/-! # Bodies that correspond

Two bodies with one count and one length are read, each against a pool of its own. Where each record
describes the same scope on both sides, or has a bad reference on both, the answers correspond: the
same table, the same truncation, or a bad reference in the same record (`corresponds_readBytes`).
The indices may differ from one side to the other; `r` takes those of the first to the second. It is
enough that the pools reply alike to the two references of the record (`SameReply`).

Also here: where all declared records resolve alike the answer is one (`Outcome.congr`), so bytes
behind these records make no difference (`Outcome.append`). -/

namespace LocalScopes.Body

/-- What two pools reply: one string, or two refusals. -/
inductive SameReply : Except SymbolError String → Except SymbolError String → Prop
  | string (s : String) : SameReply (.ok s) (.ok s)
  | refused (cause cause' : SymbolError) : SameReply (.error cause) (.error cause')

theorem SameReply.refl (reply : Except SymbolError String) : SameReply reply reply := by
  cases reply with
  | ok s => exact .string s
  | error cause => exact .refused cause cause

/-- A record on both sides: one scope, or two refusals. -/
inductive SameScope (r : UInt16 → UInt16) :
    Except (UInt16 × SymbolError) Scope → Except (UInt16 × SymbolError) Scope → Prop
  | scope (s : Scope) : SameScope r (.ok s) (.ok s)
  | refused (index : UInt16) (cause cause' : SymbolError) :
      SameScope r (.error (index, cause)) (.error (r index, cause'))

/-- The answers on both sides. -/
inductive Corresponds (r : UInt16 → UInt16) :
    Except ReadError (Table × Nat) → Except ReadError (Table × Nat) → Prop
  | table (t : Table) (consumed : Nat) : Corresponds r (.ok (t, consumed)) (.ok (t, consumed))
  | truncated (expected decoded : Nat) :
      Corresponds r (.error (.truncated expected decoded)) (.error (.truncated expected decoded))
  | unresolved (index : UInt16) (cause cause' : SymbolError) :
      Corresponds r (.error (.unresolved index cause)) (.error (.unresolved (r index) cause'))

section Sides
variable {r : UInt16 → UInt16} {pool other : Resolver} {b d : List UInt8}

theorem HoldsAt.same {i : Nat} {s : Scope}
    (h : Option.Rel (SameScope r) (resolveAt pool b i) (resolveAt other d i))
    (hs : HoldsAt pool b i s) : HoldsAt other d i s := by
  rw [holdsAt_iff] at hs ⊢
  rw [hs] at h
  generalize resolveAt other d i = x at h ⊢
  cases h with
  | some hx => cases hx; rfl

/-- **Answers correspond** where all declared records do. -/
theorem Outcome.corresponds (hlength : b.length = d.length) (hheader : wordAt b 0 = wordAt d 0)
    (h : ∀ n, (wordAt b 0).map UInt16.toNat = some n → ∀ i < n,
      Option.Rel (SameScope r) (resolveAt pool b i) (resolveAt other d i))
    {a : Except ReadError (Table × Nat)} (ha : Outcome pool b a) :
    ∃ a', Outcome other d a' ∧ Corresponds r a a' := by
  cases ha with
  | headless missing => exact ⟨_, .headless (hlength ▸ missing), .truncated 0 0⟩
  | @stopped n i e reached stop =>
    have hreached : Reaches other d n i := by
      refine ⟨hheader ▸ reached.header, reached.declared, fun j hj => ?_⟩
      obtain ⟨s, hs⟩ := reached.before j hj
      exact ⟨s, hs.same (h n reached.header j (Nat.lt_trans hj reached.declared))⟩
    cases stop with
    | short missing =>
      exact ⟨_, .stopped hreached (.short (hlength ▸ missing)), .truncated n i⟩
    | @bad record index cause present refused =>
      have hrel := h n reached.header i reached.declared
      rw [resolveAt, present, Option.map_some, Record.resolve_eq_error_iff.mpr refused] at hrel
      rcases hrec : recordAt d i with _ | record'
      · rw [resolveAt, hrec] at hrel
        cases hrel
      · rw [resolveAt, hrec, Option.map_some] at hrel
        rcases hres : record'.resolve other with ⟨index', cause'⟩ | s
        · rw [hres] at hrel
          cases hrel with
          | some hsame =>
            cases hsame
            exact ⟨_, .stopped hreached (.bad hrec (Record.resolve_eq_error_iff.mp hres)),
              .unresolved index cause cause'⟩
        · rw [hres] at hrel
          cases hrel with
          | some hsame => cases hsame
  | @complete n scopes header length records =>
    refine ⟨_, .complete (hheader ▸ header) length fun i s hi => ?_, .table ⟨scopes⟩ (size n)⟩
    have hlt : i < n := length ▸ (List.getElem?_eq_some_iff.mp hi).1
    exact (records i s hi).same (h n header i hlt)

theorem corresponds_readBytes (hlength : b.length = d.length) (hheader : wordAt b 0 = wordAt d 0)
    (h : ∀ n, (wordAt b 0).map UInt16.toNat = some n → ∀ i < n,
      Option.Rel (SameScope r) (resolveAt pool b i) (resolveAt other d i)) :
    Corresponds r (readBytes pool b).value (readBytes other d).value := by
  obtain ⟨a', ha', hcorr⟩ := (outcome_readBytes pool b).corresponds hlength hheader h
  rwa [readBytes_eq_of_outcome ha']

end Sides

/-! ### One record -/

/-- The record with other indices. -/
def Record.relabel (r : UInt16 → UInt16) (record : Record) : Record :=
  { record with
    nameIndex := r record.nameIndex
    descriptorIndex := r record.descriptorIndex }

theorem Record.sameScope_relabel {r : UInt16 → UInt16} {pool other : Resolver} {record : Record}
    (hname : SameReply (pool record.nameIndex) (other (r record.nameIndex)))
    (hdescriptor : SameReply (pool record.descriptorIndex) (other (r record.descriptorIndex))) :
    SameScope r (record.resolve pool) ((record.relabel r).resolve other) := by
  unfold Record.resolve Record.relabel
  dsimp only
  generalize pool record.nameIndex = x, other (r record.nameIndex) = x' at hname ⊢
  generalize pool record.descriptorIndex = y, other (r record.descriptorIndex) = y'
    at hdescriptor ⊢
  cases hname with
  | refused cause cause' => exact .refused _ cause cause'
  | string name =>
    cases hdescriptor with
    | refused cause cause' => exact .refused _ cause cause'
    | string descriptor => exact .scope _

/-! ### One body against two pools -/

/-- Two pools that resolve the same indices to the same strings. -/
def SameStrings (pool other : Resolver) : Prop := ∀ i s, pool i = .ok s ↔ other i = .ok s

theorem SameStrings.reply {pool other : Resolver} (h : SameStrings pool other) (i : UInt16) :
    SameReply (pool i) (other i) := by
  have hi := h i
  rcases hpool : pool i with cause | s
  · rcases hother : other i with cause' | s'
    · exact .refused cause cause'
    · cases hpool.symm.trans ((hi s').mpr hother)
  · rw [(hi s).mp hpool]
    exact .string s

theorem SameStrings.readBytes {pool other : Resolver} (h : SameStrings pool other)
    (b : List UInt8) :
    Corresponds id (readBytes pool b).value (Body.readBytes other b).value := by
  refine corresponds_readBytes rfl rfl fun n _ i _ => ?_
  unfold resolveAt
  cases recordAt b i with
  | none => exact .none
  | some record => exact .some (Record.sameScope_relabel (h.reply _) (h.reply _))

/-! ### Records that resolve alike -/

theorem StopsAt.congr {pool other : Resolver} {b d : List UInt8} {n i : Nat} {e : ReadError}
    (h : StopsAt pool b n i e) (hrecord : Body.resolveAt pool b i = Body.resolveAt other d i) :
    StopsAt other d n i e := by
  rcases h.resolveAt with ⟨hnone, rfl⟩ | ⟨index, cause, hbad, rfl⟩
  · rw [hrecord, Body.resolveAt, Option.map_eq_none_iff] at hnone
    exact .short (recordAt_eq_none_iff.mp hnone)
  · rw [hrecord, Body.resolveAt, Option.map_eq_some_iff] at hbad
    obtain ⟨record, present, hres⟩ := hbad
    exact .bad present (Record.resolve_eq_error_iff.mp hres)

/-- **One answer** where all declared records resolve alike. -/
theorem Outcome.congr {pool other : Resolver} {b d : List UInt8}
    {a : Except ReadError (Table × Nat)} (ha : Outcome pool b a)
    (hheader : wordAt b 0 = wordAt d 0)
    (h : ∀ n, (wordAt b 0).map UInt16.toNat = some n → ∀ i < n,
      resolveAt pool b i = resolveAt other d i) : Outcome other d a := by
  cases ha with
  | headless missing =>
    rw [headerSize, ← Nat.zero_add 2, ← wordAt_eq_none_iff, hheader] at missing
    exact .headless (wordAt_eq_none_iff.mp missing)
  | @stopped n i e reached stop =>
    have hsame := h n reached.header
    exact .stopped (reached.congr hheader fun j hj => hsame j (Nat.lt_trans hj reached.declared))
      (stop.congr (hsame i reached.declared))
  | @complete n scopes header length records =>
    refine .complete (hheader ▸ header) length fun i s hi => ?_
    have hlt : i < n := length ▸ (List.getElem?_eq_some_iff.mp hi).1
    rw [holdsAt_iff, ← h n header i hlt, ← holdsAt_iff]
    exact records i s hi

/-! ### Bytes behind the records -/

theorem getElem?_append_congr (b tail : List UInt8) : ∀ j < b.length, b[j]? = (b ++ tail)[j]? :=
  fun _ hj => (List.getElem?_append_left hj).symm

/-- **Bytes behind the declared records make no difference.** -/
theorem Outcome.append {pool : Resolver} {b : List UInt8} {a : Except ReadError (Table × Nat)}
    (h : Outcome pool b a) {n : Nat} (header : (wordAt b 0).map UInt16.toNat = some n)
    (hthere : size n ≤ b.length) (tail : List UInt8) : Outcome pool (b ++ tail) a := by
  have hsame := getElem?_append_congr b tail
  refine h.congr (wordAt_congr hsame (Nat.le_trans (size_le_size (Nat.zero_le n)) hthere)) ?_
  intro n' header' i hi
  obtain rfl := declared_unique header header'
  exact resolveAt_congr hsame (Nat.le_trans (size_le_size hi) hthere)

theorem readBytes_append {b : List UInt8} {n : Nat}
    (header : (wordAt b 0).map UInt16.toNat = some n) (hthere : size n ≤ b.length)
    (pool : Resolver) (tail : List UInt8) :
    (readBytes pool (b ++ tail)).value = (readBytes pool b).value :=
  readBytes_eq_of_outcome ((outcome_readBytes pool b).append header hthere tail)

end LocalScopes.Body
