import LocalScopes.Json.Token

/-! # Skipping values

The text behind a value of any kind, containers and all. The containers that are open are kept on
a stack, so values may be nested to any depth. A value that is skipped can only be malformed.

* `skipValue`: the text behind a value. -/

namespace LocalScopes.Json

/-- The kinds of containers. -/
inductive Container where
  | sequence
  | map
deriving DecidableEq, Repr

/-- The bracket that closes a container. -/
def Container.closing : Container → Char
  | sequence => ']'
  | map => '\x7d'

/-- The text behind a colon. -/
def skipColon (text : List Char) : Option (List Char) :=
  match skipBlanks text with
  | ':' :: rest => some rest
  | _ => none

/-- The text behind the key of a member and its colon. -/
def skipKey (text : List Char) : Option (List Char) :=
  match skipBlanks text with
  | '"' :: rest => (StringLiteral.skip rest).bind skipColon
  | _ => none

/-- The text from the next value of a container on, which in a map has a key before it. -/
def skipToValue : Container → List Char → Option (List Char)
  | .sequence, text => some text
  | .map, text => skipKey text

/-- The container that a bracket opens. -/
def Container.ofOpening? : List Char → Option (Container × List Char)
  | '[' :: rest => some (.sequence, rest)
  | '\x7b' :: rest => some (.map, rest)
  | _ => none

theorem length_skipColon {text rest : List Char} (h : skipColon text = some rest) :
    rest.length < text.length := by
  unfold skipColon at h
  split at h
  · have := length_lt_of_skipBlanks ‹_›
    rw [Option.some.injEq] at h
    rwa [← h]
  · simp at h

theorem length_skipKey {text rest : List Char} (h : skipKey text = some rest) :
    rest.length < text.length := by
  unfold skipKey at h
  split at h
  · have := length_lt_of_skipBlanks ‹_›
    obtain ⟨_, skipped, h⟩ := Option.bind_eq_some_iff.mp h
    have := StringLiteral.length_skip skipped
    have := length_skipColon h
    omega
  · simp at h

theorem length_skipToValue {container : Container} {text rest : List Char}
    (h : skipToValue container text = some rest) : rest.length ≤ text.length := by
  cases container with
  | sequence =>
    rw [skipToValue, Option.some.injEq] at h
    exact Nat.le_of_eq (congrArg List.length h.symm)
  | map => exact Nat.le_of_lt (length_skipKey h)

theorem Container.length_ofOpening? {container : Container} {text rest : List Char}
    (h : Container.ofOpening? text = some (container, rest)) : rest.length < text.length := by
  unfold Container.ofOpening? at h
  split at h
  · simp only [Option.some.injEq, Prod.mk.injEq] at h
    simp [← h.2]
  · simp only [Option.some.injEq, Prod.mk.injEq] at h
    simp [← h.2]
  · simp at h

/-! ### Values -/

mutual

/-- The text behind a value that starts `text`, and behind the containers in `opened`, of which the
innermost comes first. -/
def skipWithin (opened : List Container) (text : List Char) : Option (List Char) :=
  let start := skipBlanks text
  have : start.length ≤ text.length := length_skipBlanks text
  match h : Container.ofOpening? start with
  | some (container, rest) =>
    have := Container.length_ofOpening? h
    match e : skipBlanks rest with
    | [] => none
    | c :: behind =>
      have := length_lt_of_skipBlanks e
      if c = container.closing then skipBehind opened behind
      else
        match v : skipToValue container rest with
        | none => none
        | some value =>
          have := length_skipToValue v
          skipWithin (container :: opened) value
  | none =>
    match h : skipPlain start with
    | none => none
    | some rest =>
      have := length_skipPlain h
      skipBehind opened rest
termination_by text.length

/-- The text behind the containers in `opened`, where `text` follows a value of the innermost. -/
def skipBehind (opened : List Container) (text : List Char) : Option (List Char) :=
  match opened with
  | [] => some text
  | container :: outer =>
    match e : skipBlanks text with
    | [] => none
    | c :: rest =>
      have := length_lt_of_skipBlanks e
      if c = ',' then
        match v : skipToValue container rest with
        | none => none
        | some value =>
          have := length_skipToValue v
          skipWithin opened value
      else if c = container.closing then skipBehind outer rest
      else none
termination_by text.length

end

/-! ### Steps -/

theorem skipWithin_eq (opened : List Container) (text : List Char) :
    skipWithin opened text =
      match Container.ofOpening? (skipBlanks text) with
      | some (container, rest) =>
        match skipBlanks rest with
        | [] => none
        | c :: behind =>
          if c = container.closing then skipBehind opened behind
          else (skipToValue container rest).bind (skipWithin (container :: opened))
      | none => (skipPlain (skipBlanks text)).bind (skipBehind opened) := by
  rw [skipWithin]
  dsimp only
  split
  · simp only [*]
    split
    · simp [*]
    · simp only [*]
      split
      · rfl
      · split <;> simp [*]
  · simp only [*]
    split <;> simp [*]

theorem skipBehind_nil (text : List Char) : skipBehind [] text = some text := by
  rw [skipBehind.eq_def]

theorem skipBehind_cons (container : Container) (outer : List Container) (text : List Char) :
    skipBehind (container :: outer) text =
      match skipBlanks text with
      | [] => none
      | c :: rest =>
        if c = ',' then (skipToValue container rest).bind (skipWithin (container :: outer))
        else if c = container.closing then skipBehind outer rest
        else none := by
  rw [skipBehind.eq_def]
  dsimp only
  split
  · simp [*]
  · simp only [*]
    split
    · split <;> simp [*]
    · rfl

theorem length_skipWithin_skipBehind (n : Nat) : ∀ text : List Char, text.length ≤ n →
    (∀ opened rest, skipWithin opened text = some rest → rest.length < text.length) ∧
    (∀ opened rest, skipBehind opened text = some rest → rest.length ≤ text.length) := by
  induction n with
  | zero =>
    intro text small
    obtain rfl : text = [] := List.eq_nil_of_length_eq_zero (Nat.le_zero.mp small)
    constructor
    · intro opened rest h
      simp [skipWithin_eq, skipBlanks, Container.ofOpening?, skipPlain] at h
    · intro opened rest h
      cases opened with
      | nil =>
        rw [skipBehind_nil, Option.some.injEq] at h
        exact Nat.le_of_eq (congrArg List.length h.symm)
      | cons => simp [skipBehind_cons, skipBlanks] at h
  | succ n ih =>
    intro text small
    have blanks := length_skipBlanks text
    constructor
    · intro opened rest h
      rw [skipWithin_eq] at h
      split at h
      · have opening := Container.length_ofOpening? ‹_›
        split at h
        · simp at h
        · have next := length_lt_of_skipBlanks ‹_›
          split at h
          · have := (ih _ (by omega)).2 _ _ h
            omega
          · obtain ⟨_, toValue, h⟩ := Option.bind_eq_some_iff.mp h
            have := length_skipToValue toValue
            have := (ih _ (by omega)).1 _ _ h
            omega
      · obtain ⟨_, plain, h⟩ := Option.bind_eq_some_iff.mp h
        have := length_skipPlain plain
        have := (ih _ (by omega)).2 _ _ h
        omega
    · intro opened rest h
      cases opened with
      | nil =>
        rw [skipBehind_nil, Option.some.injEq] at h
        exact Nat.le_of_eq (congrArg List.length h.symm)
      | cons =>
        rw [skipBehind_cons] at h
        split at h
        · simp at h
        · have next := length_lt_of_skipBlanks ‹_›
          split at h
          · obtain ⟨_, toValue, h⟩ := Option.bind_eq_some_iff.mp h
            have := length_skipToValue toValue
            have := (ih _ (by omega)).1 _ _ h
            omega
          · split at h
            · have := (ih _ (by omega)).2 _ _ h
              omega
            · simp at h

/-- The text behind a value. -/
def skipValue (text : List Char) : Option (List Char) := skipWithin [] text

theorem length_skipValue {text rest : List Char} (h : skipValue text = some rest) :
    rest.length < text.length :=
  (length_skipWithin_skipBehind text.length text (Nat.le_refl _)).1 [] rest h

end LocalScopes.Json
