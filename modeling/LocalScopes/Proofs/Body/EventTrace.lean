import LocalScopes.Proofs.Body.Acceptance

/-! # Events of a reading

A reading reports the count once the header is there, each scope once its record is there and both
symbols are resolved, and a warning if it ends for want of bytes or by a bad reference. So its
events account for its answer (`Account`). This is so for every source, whatever it replies: the
header and the records are those that it hands out, one read after the other (`headerFrom`,
`recordFrom`). For a source that delivers given bytes they are what stands in these bytes
(`headerFrom_eq_wordAt`, `recordFrom_eq_recordAt`).

* `account_readRecords`, `account_read`: the account, by one step for each record;
* `Account.getElem?_iff`: which scopes are reported;
* `Account.debug`, `Account.trace`, `Account.warn`: the events of each level. -/

namespace LocalScopes.Body

/-! ### Warnings and levels -/

/-- The warnings that go with an answer. -/
def warnings : Except ReadError Table → List Event
  | .error (.truncated expected decoded) => [.truncated expected decoded]
  | .error (.unresolved index cause) => [.unresolved index cause]
  | .error (.io _) | .ok _ => []

theorem events_broken {ρ : Type} (fault : IoFault) (expected decoded : Nat) (rest : ρ)
    (events : Array Event) : (Reading.broken fault expected decoded rest events).events.toList =
      events.toList ++ warnings (Reading.broken fault expected decoded rest events).answer := by
  unfold Reading.broken
  split
  · rw [Array.toList_push]
    rfl
  · rw [warnings, List.append_nil]

theorem eq_truncated_of_endedBy {fault : IoFault} {e : ReadError} {expected decoded : Nat}
    (h : e.endedBy fault = .truncated expected decoded) : e = .truncated expected decoded := by
  cases e with
  | truncated =>
    unfold ReadError.endedBy at h
    dsimp only at h
    split at h
    · exact h
    · cases h
  | unresolved => exact h
  | io => exact h

theorem eq_unresolved_of_endedBy {fault : IoFault} {e : ReadError} {index : UInt16}
    {cause : SymbolError} (h : e.endedBy fault = .unresolved index cause) :
    e = .unresolved index cause := by
  cases e with
  | truncated =>
    unfold ReadError.endedBy at h
    dsimp only at h
    split at h <;> cases h
  | unresolved => exact h
  | io => exact h

theorem filter_level_of_all {l : List Event} {level : Level} (h : ∀ e ∈ l, e.level = level)
    (wanted : Level) : l.filter (·.level = wanted) = if level = wanted then l else [] := by
  split
  · next heq => exact List.filter_eq_self.mpr fun e he => decide_eq_true ((h e he).trans heq)
  · next hne =>
    refine List.filter_eq_nil_iff.mpr fun e he => ?_
    rw [decide_eq_true_eq, h e he]
    exact hne

theorem level_of_mem_warnings {answer : Except ReadError Table} : ∀ e ∈ warnings answer,
    e.level = .warn := by
  intro e he
  unfold warnings at he
  split at he
  · rw [List.mem_singleton.mp he]
    rfl
  · rw [List.mem_singleton.mp he]
    rfl
  · cases he
  · cases he

/-! ### What a source hands out -/

section Source
variable {ρ : Type} [Source ρ]

/-- The next `n` bytes of a source, with the source behind them. -/
def next? (n : Nat) (source : ρ) : Option (Vector UInt8 n × ρ) :=
  match Source.take n source with
  | (.ok part, rest) => some (part, rest)
  | (.error _, _) => none

/-- The source behind the header and `i` records. -/
def behind (source : ρ) : Nat → Option ρ
  | 0 => (next? headerSize source).map (·.2)
  | i + 1 => (behind source i).bind fun rest => (next? recordSize rest).map (·.2)

/-- The count in the header, if the source hands it out. -/
def headerFrom (source : ρ) : Option UInt16 :=
  (next? headerSize source).bind fun handed => wordAt handed.1.toList 0

/-- Record `i`, if the source hands it out. -/
def recordFrom (source : ρ) (i : Nat) : Option Record :=
  (behind source i).bind fun rest => (next? recordSize rest).map fun handed =>
    Record.ofBytes handed.1

theorem next?_of_ok {n : Nat} {source rest : ρ} {part : Vector UInt8 n}
    (h : Source.take n source = (.ok part, rest)) : next? n source = some (part, rest) := by
  rw [next?, h]

theorem next?_of_error {n : Nat} {source rest : ρ} {fault : IoFault}
    (h : Source.take n source = (.error fault, rest)) : next? n source = none := by
  rw [next?, h]

theorem headerFrom_of_ok {source rest : ρ} {part : Vector UInt8 headerSize}
    (h : Source.take headerSize source = (.ok part, rest)) :
    headerFrom source = some (Word.join part[0] part[1]) ∧ behind source 0 = some rest := by
  have hall : part.toList = part.toList.take headerSize :=
    (List.take_of_length_le (Nat.le_of_eq part.length_toList)).symm
  rw [headerFrom, behind, next?_of_ok h]
  exact ⟨wordAt_zero_eq_join hall, rfl⟩

theorem headerFrom_of_error {source rest : ρ} {fault : IoFault}
    (h : Source.take headerSize source = (.error fault, rest)) :
    headerFrom source = none ∧ behind source 0 = none := by
  rw [headerFrom, behind, next?_of_error h]
  exact ⟨rfl, rfl⟩

section Behind
variable {source rest after : ρ} {i : Nat} (hbehind : behind source i = some rest)
include hbehind

theorem recordFrom_of_ok {part : Vector UInt8 recordSize}
    (h : Source.take recordSize rest = (.ok part, after)) :
    recordFrom source i = some (Record.ofBytes part) ∧ behind source (i + 1) = some after := by
  rw [recordFrom, behind, hbehind, Option.bind_some, Option.bind_some, next?_of_ok h]
  exact ⟨rfl, rfl⟩

theorem recordFrom_of_error {fault : IoFault}
    (h : Source.take recordSize rest = (.error fault, after)) :
    recordFrom source i = none ∧ behind source (i + 1) = none := by
  rw [recordFrom, behind, hbehind, Option.bind_some, Option.bind_some, next?_of_error h]
  exact ⟨rfl, rfl⟩

end Behind

/-! ### Sources that deliver given bytes -/

section Delivers
variable {total : List UInt8} {fault : IoFault} {good : ρ → Prop} {moved : ρ → Nat}
  (h : Source.Delivers total fault good moved) {source : ρ}
include h

theorem header_step (hgood : good source) (hmoved : moved source = 0) :
    headerFrom source = wordAt total 0 ∧
      ((size 0 ≤ total.length ∧ ∃ rest, behind source 0 = some rest ∧ good rest ∧
        moved rest = size 0) ∨
      (total.length < size 0 ∧ behind source 0 = none)) := by
  have hzero : size 0 = headerSize := rfl
  rcases Nat.lt_or_ge total.length headerSize with hshort | hthere
  · obtain ⟨after, htake, -⟩ := h.short headerSize source hgood (by omega)
    obtain ⟨hheader, hnone⟩ := headerFrom_of_error htake
    exact ⟨hheader.trans (wordAt_eq_none_iff.mpr hshort).symm, .inr ⟨hshort, hnone⟩⟩
  · obtain ⟨part, after, htake, hpart, hafter, hat⟩ := h.enough headerSize source hgood (by omega)
    rw [hmoved, List.drop_zero] at hpart
    obtain ⟨hheader, hsome⟩ := headerFrom_of_ok htake
    exact ⟨hheader.trans (wordAt_zero_eq_join hpart).symm,
      .inl ⟨hthere, after, hsome, hafter, by omega⟩⟩

theorem record_step {rest : ρ} {i : Nat} (hbehind : behind source i = some rest)
    (hrest : good rest) (hat : moved rest = size i) :
    recordFrom source i = recordAt total i ∧
      ((size (i + 1) ≤ total.length ∧ ∃ after, behind source (i + 1) = some after ∧ good after ∧
        moved after = size (i + 1)) ∨
      (total.length < size (i + 1) ∧ behind source (i + 1) = none)) := by
  have hsucc := size_succ i
  rcases Nat.lt_or_ge total.length (size (i + 1)) with hshort | hthere
  · obtain ⟨after, htake, -⟩ := h.short recordSize rest hrest (by omega)
    obtain ⟨hrecord, hnone⟩ := recordFrom_of_error hbehind htake
    exact ⟨hrecord.trans (recordAt_eq_none hshort).symm, .inr ⟨hshort, hnone⟩⟩
  · obtain ⟨part, after, htake, hpart, hafter, hat'⟩ := h.enough recordSize rest hrest (by omega)
    rw [hat] at hpart
    obtain ⟨hrecord, hsome⟩ := recordFrom_of_ok hbehind htake
    exact ⟨hrecord.trans (recordAt_eq_ofBytes hpart).symm,
      .inl ⟨hthere, after, hsome, hafter, by omega⟩⟩

variable (hgood : good source) (hmoved : moved source = 0)
include hgood hmoved

theorem headerFrom_eq_wordAt : headerFrom source = wordAt total 0 :=
  (header_step h hgood hmoved).1

/-- The source gets behind the header and `i` records just if all of their bytes are there. -/
theorem behind_cases : ∀ i : Nat,
    (size i ≤ total.length ∧ ∃ rest, behind source i = some rest ∧ good rest ∧
      moved rest = size i) ∨
    (total.length < size i ∧ behind source i = none)
  | 0 => (header_step h hgood hmoved).2
  | i + 1 => by
    rcases behind_cases i with ⟨-, rest, hbehind, hrest, hat⟩ | ⟨hlt, hbehind⟩
    · exact (record_step h hbehind hrest hat).2
    · have hsucc := size_succ i
      exact .inr ⟨by omega, by rw [behind, hbehind]; rfl⟩

theorem recordFrom_eq_recordAt (i : Nat) : recordFrom source i = recordAt total i := by
  rcases behind_cases h hgood hmoved i with ⟨-, rest, hbehind, hrest, hat⟩ | ⟨hlt, hbehind⟩
  · exact (record_step h hbehind hrest hat).1
  · have hsucc := size_succ i
    rw [recordAt_eq_none (by omega), recordFrom, hbehind]
    rfl

end Delivers

/-! ### How a reading ends -/

/-- Record `i` is handed out, and describes the scope. -/
def ReadsAt (pool : Resolver) (source : ρ) (i : Nat) (s : Scope) : Prop :=
  ∃ r, recordFrom source i = some r ∧ r.Describes pool s

/-- A reading comes to record `i`: it is declared, and all before it describe scopes. -/
structure ComesTo (pool : Resolver) (source : ρ) (i : Nat) : Prop where
  declared : ∃ count, headerFrom source = some count ∧ i < count.toNat
  before : ∀ j < i, ∃ s, ReadsAt pool source j s

/-- **How a reading ends** behind the scopes that it has read. -/
inductive Conclusion (pool : Resolver) (source : ρ) : List Scope → Except ReadError Table → Prop
  | headless (fault : IoFault) (missing : headerFrom source = none) :
      Conclusion pool source [] (.error (.endedBy fault (.truncated 0 0)))
  | short {scopes : List Scope} {count : UInt16} (fault : IoFault)
      (header : headerFrom source = some count) (declared : scopes.length < count.toNat)
      (missing : recordFrom source scopes.length = none) :
      Conclusion pool source scopes
        (.error (.endedBy fault (.truncated count.toNat scopes.length)))
  | bad {scopes : List Scope} {count : UInt16} {r : Record} {index : UInt16} {cause : SymbolError}
      (header : headerFrom source = some count) (declared : scopes.length < count.toNat)
      (present : recordFrom source scopes.length = some r)
      (refused : r.BadReference pool index cause) :
      Conclusion pool source scopes (.error (.unresolved index cause))
  | complete {scopes : List Scope} {count : UInt16} (header : headerFrom source = some count)
      (all : scopes.length = count.toNat) : Conclusion pool source scopes (.ok ⟨scopes⟩)

theorem readsAt_iff {pool : Resolver} {source : ρ} {i : Nat} {s : Scope} :
    ReadsAt pool source i s ↔
      (recordFrom source i).map (Record.resolve pool) = some (.ok s) := by
  simp only [ReadsAt, Option.map_eq_some_iff, Record.resolve_eq_ok_iff]

theorem ReadsAt.unique {pool : Resolver} {source : ρ} {i : Nat} {s u : Scope}
    (hs : ReadsAt pool source i s) (hu : ReadsAt pool source i u) : s = u := by
  rw [readsAt_iff] at hs hu
  rw [hs] at hu
  exact Except.ok.inj (Option.some.inj hu)

theorem Conclusion.declared {pool : Resolver} {source : ρ} {scopes : List Scope}
    {answer : Except ReadError Table} (h : Conclusion pool source scopes answer) {i : Nat}
    (hi : i < scopes.length) : ∃ count, headerFrom source = some count ∧ i < count.toNat := by
  cases h with
  | headless => cases hi
  | short fault header declared => exact ⟨_, header, by omega⟩
  | bad header declared => exact ⟨_, header, by omega⟩
  | complete header all => exact ⟨_, header, by omega⟩

theorem Conclusion.lt_length {pool : Resolver} {source : ρ} {scopes : List Scope}
    {answer : Except ReadError Table} (h : Conclusion pool source scopes answer) {i : Nat}
    {s : Scope} (hi : ComesTo pool source i) (hs : ReadsAt pool source i s) :
    i < scopes.length := by
  by_contra hle
  obtain ⟨⟨count, hheader, hcount⟩, hbefore⟩ := hi
  -- the record behind the scopes is this one or one before it
  have hnext : ∃ u, ReadsAt pool source scopes.length u := by
    rcases Nat.lt_or_eq_of_le (Nat.le_of_not_lt hle) with hlt | heq
    · exact hbefore _ hlt
    · exact ⟨s, by rwa [heq]⟩
  obtain ⟨u, r, hr, hdescribes⟩ := hnext
  cases h with
  | headless fault missing => cases missing.symm.trans hheader
  | short fault header declared missing => cases missing.symm.trans hr
  | bad header declared present refused =>
    cases present.symm.trans hr
    have hok := Record.resolve_eq_ok_iff.mpr hdescribes
    cases hok.symm.trans (Record.resolve_eq_error_iff.mpr refused)
  | complete header all =>
    cases header.symm.trans hheader
    omega

/-! ### The account -/

/-- **The account that a reading gives of its answer.** It has read the scopes, in stream order, and
reports the header, the scopes and what goes wrong. -/
structure Account (pool : Resolver) (source : ρ) (scopes : List Scope) (reading : Reading ρ) :
    Prop where
  conclusion : Conclusion pool source scopes reading.answer
  records : ∀ i s, scopes[i]? = some s → ReadsAt pool source i s
  events : reading.events.toList = (headerFrom source).toList.map .reading ++
    (scopes.map .scopeRead ++ warnings reading.answer)

/-- The account of the reading of the missing records, when the scopes so far have been read. -/
theorem account_readRecords {pool : Resolver} {source : ρ} {count : UInt16}
    (header : headerFrom source = some count) :
    ∀ (missing : Nat) {rest : ρ} (scopes : Array Scope) (events : Array Event),
      behind source scopes.size = some rest → scopes.size + missing = count.toNat →
      (∀ i s, scopes.toList[i]? = some s → ReadsAt pool source i s) →
      events.toList = .reading count :: scopes.toList.map .scopeRead →
      ∃ all, Account pool source all
        (readRecords pool count.toNat missing rest scopes events)
  | 0, rest, scopes, events, hbehind, hsize, hread, hevents => by
    refine ⟨scopes.toList, .complete header ?_, hread, ?_⟩
    · rw [Array.length_toList]
      exact hsize
    · rw [readRecords, header, hevents, warnings, List.append_nil]
      rfl
  | missing + 1, rest, scopes, events, hbehind, hsize, hread, hevents => by
    have hlength : scopes.toList.length = scopes.size := Array.length_toList
    have hdeclared : scopes.toList.length < count.toNat := by omega
    rcases htake : Source.take recordSize rest with ⟨fault | part, after⟩
    · -- the record is not handed out
      obtain ⟨hrecord, -⟩ := recordFrom_of_error hbehind htake
      refine ⟨scopes.toList, ?_, hread, ?_⟩
      · simp only [readRecords, htake, answer_broken]
        rw [← hlength]
        exact .short fault header hdeclared (by rwa [hlength])
      · simp only [readRecords, htake, events_broken, hevents, header]
        rfl
    · obtain ⟨hrecord, hafter⟩ := recordFrom_of_ok hbehind htake
      simp only [readRecords, htake]
      cases hres : (Record.ofBytes part).resolve pool with
      | error failure =>
        obtain ⟨index, cause⟩ := failure
        refine ⟨scopes.toList, .bad header hdeclared (by rwa [hlength])
          (Record.resolve_eq_error_iff.mp hres), hread, ?_⟩
        rw [Array.toList_push, hevents, header]
        rfl
      | ok s =>
        have hs : ReadsAt pool source scopes.size s :=
          ⟨_, hrecord, Record.resolve_eq_ok_iff.mp hres⟩
        refine account_readRecords header missing _ _ ?_ ?_ ?_ ?_
        · rwa [Array.size_push]
        · rw [Array.size_push]
          omega
        · rw [Array.toList_push]
          exact forall_getElem?_concat hread (by rwa [hlength])
        · rw [Array.toList_push, Array.toList_push, hevents, List.map_append]
          rfl

/-- **Every reading accounts for its answer.** -/
theorem account_read (pool : Resolver) (source : ρ) :
    ∃ scopes, Account pool source scopes (read pool source) := by
  rcases htake : Source.take headerSize source with ⟨fault | part, rest⟩
  · obtain ⟨header, -⟩ := headerFrom_of_error htake
    refine ⟨[], ?_, by simp, ?_⟩
    · simp only [read, htake, answer_broken]
      exact .headless fault header
    · simp only [read, htake, events_broken, header]
      rfl
  · obtain ⟨header, hbehind⟩ := headerFrom_of_ok htake
    simp only [read, htake]
    exact account_readRecords header _ #[] _ hbehind (Nat.zero_add _) (by simp) rfl

section Account
variable {pool : Resolver} {source : ρ} {scopes : List Scope} {reading : Reading ρ}
  (h : Account pool source scopes reading)
include h

theorem Account.getElem?_iff {i : Nat} {s : Scope} :
    scopes[i]? = some s ↔ ComesTo pool source i ∧ ReadsAt pool source i s := by
  constructor
  · intro hi
    obtain ⟨hlt, -⟩ := List.getElem?_eq_some_iff.mp hi
    refine ⟨⟨h.conclusion.declared hlt, fun j hj => ?_⟩, h.records i s hi⟩
    have hj' : j < scopes.length := by omega
    exact ⟨_, h.records j _ (List.getElem?_eq_getElem hj')⟩
  · rintro ⟨hi, hs⟩
    have hlt := h.conclusion.lt_length hi hs
    have hsome := List.getElem?_eq_getElem hlt
    rw [hsome, (h.records i _ hsome).unique hs]

/-! ### What the answer says of the scopes -/

theorem Account.of_ok {t : Table} (ha : reading.answer = .ok t) : t.scopes = scopes := by
  have hconclusion := h.conclusion
  rw [ha] at hconclusion
  cases hconclusion
  rfl

theorem Account.of_truncated {expected decoded : Nat}
    (ha : reading.answer = .error (.truncated expected decoded)) : scopes.length = decoded := by
  have hconclusion := h.conclusion
  generalize reading.answer = answer at ha hconclusion
  cases hconclusion with
  | headless =>
    cases eq_truncated_of_endedBy (Except.error.inj ha)
    rfl
  | short =>
    cases eq_truncated_of_endedBy (Except.error.inj ha)
    rfl
  | bad => cases ha
  | complete => cases ha

theorem Account.of_unresolved {index : UInt16} {cause : SymbolError}
    (ha : reading.answer = .error (.unresolved index cause)) :
    ComesTo pool source scopes.length ∧
      ∃ r, recordFrom source scopes.length = some r ∧ r.BadReference pool index cause := by
  have hconclusion := h.conclusion
  generalize reading.answer = answer at ha hconclusion
  cases hconclusion with
  | headless => cases eq_unresolved_of_endedBy (Except.error.inj ha)
  | short => cases eq_unresolved_of_endedBy (Except.error.inj ha)
  | bad header declared present refused =>
    cases ha
    refine ⟨⟨⟨_, header, declared⟩, fun j hj => ?_⟩, _, present, refused⟩
    exact ⟨_, h.records j _ (List.getElem?_eq_getElem hj)⟩
  | complete => cases ha

/-! ### Events by level -/

theorem Account.filter_level (wanted : Level) :
    reading.events.toList.filter (·.level = wanted) =
      (if .debug = wanted then (headerFrom source).toList.map .reading else []) ++
      ((if .trace = wanted then scopes.map .scopeRead else []) ++
        if .warn = wanted then warnings reading.answer else []) := by
  have hheader : ∀ e ∈ (headerFrom source).toList.map Event.reading, e.level = .debug := by
    simp [Event.level]
  have hscopes : ∀ e ∈ scopes.map Event.scopeRead, e.level = .trace := by
    simp [Event.level]
  rw [h.events, List.filter_append, List.filter_append, filter_level_of_all hheader,
    filter_level_of_all hscopes, filter_level_of_all level_of_mem_warnings]

theorem Account.debug : reading.events.toList.filter (·.level = .debug) =
    (headerFrom source).toList.map .reading := by
  rw [h.filter_level]
  exact List.append_nil _

theorem Account.trace : reading.events.toList.filter (·.level = .trace) =
    scopes.map .scopeRead := by
  rw [h.filter_level]
  exact List.append_nil _

theorem Account.warn : reading.events.toList.filter (·.level = .warn) =
    warnings reading.answer := h.filter_level .warn

end Account

end Source

end LocalScopes.Body
