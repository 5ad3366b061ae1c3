import LocalScopes.Proofs.Json.ValueText
import LocalScopes.Scope

/-! # Members of an object

What an object says about a scope, apart from any reading. Only the members with one of the five
keys count. An object describes a scope if each of these keys stands there once, with the value as
it is written (`Describes`). Otherwise it is refused (`Refused`): for its first member that repeats
a key or holds no such value (`Fault`), and if there is none, for the first key that is missing.

* `Describes.unique`, `Refused.unique`, `Describes.not_refused`: an object describes one scope or is
  refused for one reason. -/

namespace LocalScopes.Json

/-! ### Members -/

/-- A member of an object: its key, however it is written, and its value. -/
structure Member where
  key : String
  value : JsonText .value

namespace JsonText

/-- The members of an object, or of what is left of it from one of them on. -/
def members : {part : Part} → JsonText part → List Member
  | _, last (.key _ glyphs _) _ value _ => [⟨textOf glyphs, value⟩]
  | _, more (.key _ glyphs _) _ value _ rest => ⟨textOf glyphs, value⟩ :: rest.members
  | _, @filled .map items => items.members
  | _, _ => []

/-- The values of a sequence, or of what is left of it from one of them on. -/
def elements : {part : Part} → JsonText part → List (JsonText .value)
  | _, last .element _ value _ => [value]
  | _, more .element _ value _ rest => value :: rest.elements
  | _, @filled .sequence items => items.elements
  | _, _ => []

/-- The value is an object. -/
def IsObject : JsonText .value → Prop
  | empty .map _ | @filled .map _ => True
  | _ => False

/-- The value is written as the digits of a 16-bit word. -/
def IsWord (v : JsonText .value) (w : UInt16) : Prop := ∃ n, v = .number n ∧ n.IsWord w

/-- The value is written as a string. -/
def IsString (v : JsonText .value) (s : String) : Prop :=
  ∃ glyphs, v = .text glyphs ∧ textOf glyphs = s

end JsonText

/-- The values of the members with the key of a field. -/
def valuesOf (f : Field) (members : List Member) : List (JsonText .value) :=
  (members.filter fun m => m.key = f.key).map Member.value

/-! ### What describes a scope -/

/-- The value is that of a field of the scope, as it is written. -/
def Writes (s : Scope) : Field → JsonText .value → Prop
  | .start, v => v.IsWord s.start
  | .length, v => v.IsWord s.length
  | .name, v => v.IsString s.name
  | .descriptor, v => v.IsString s.descriptor
  | .slot, v => v.IsWord s.slot

/-- Each field of the scope is a member once. -/
def Describes (members : List Member) (s : Scope) : Prop :=
  ∀ f, ∃ v, valuesOf f members = [v] ∧ Writes s f v

/-! ### What is refused -/

/-- What the value of a field has to be. -/
def Field.expected : Field → Expected
  | start | length | slot => .word
  | name | descriptor => .text

/-- The start of a value is of the kind that is looked for. -/
def Expected.Takes : Expected → Head → Prop
  | word, .number (.integer _) => True
  | text, .text _ => True
  | _, _ => False

/-- What is wrong with a value where a word or a string is looked for. -/
inductive Misfit (expected : Expected) (v : JsonText .value) : Problem → Prop
  /-- It is of another kind. -/
  | kind {head : Head} (hv : v.head = some head) (h : ¬ expected.Takes head) :
      Misfit expected v (.data (.wrongKind head expected))
  /-- It is an integer that is no 16-bit word. -/
  | range {i : Int} (hword : expected = .word) (hv : v.head = some (.number (.integer i)))
      (h : i < 0 ∨ UInt16.size ≤ i) : Misfit expected v (.data (.outOfRange i))
  /-- It is a number that is too large for a float. -/
  | tooLarge (hv : v.head = none) : Misfit expected v .malformed

/-- What is wrong with a member behind the members `before`. -/
inductive Fault (before : List Member) (m : Member) : Problem → Prop
  /-- Its field stands there already, whatever its value is. -/
  | repeated {f : Field} (hkey : m.key = f.key) (h : valuesOf f before ≠ []) :
      Fault before m (.data (.duplicate f))
  /-- Its field is new, and its value does not fit. -/
  | misfit {f : Field} {p : Problem} (hkey : m.key = f.key) (hnew : valuesOf f before = [])
      (h : Misfit f.expected m.value p) : Fault before m p

/-- Nothing is wrong with any of the members. -/
def Sound (members : List Member) : Prop :=
  ∀ before m behind p, members = before ++ m :: behind → ¬ Fault before m p

/-- The first field without a member. -/
def firstMissing? (members : List Member) : Option Field :=
  Field.all.find? fun f => (valuesOf f members).isEmpty

/-- Why an object describes no scope. -/
inductive Refused (members : List Member) : Problem → Prop
  /-- Something is wrong with a member, and with none before it. -/
  | fault {before : List Member} {m : Member} {behind : List Member} {p : Problem}
      (hmembers : members = before ++ m :: behind) (hsound : Sound before) (h : Fault before m p) :
      Refused members p
  /-- Nothing is wrong with any member, and a field is missing. -/
  | missing {f : Field} (hsound : Sound members) (h : firstMissing? members = some f) :
      Refused members (.data (.missing f))

/-! ### Keys -/

theorem Field.ofKey?_key (f : Field) : Field.ofKey? f.key = some f := by
  cases f <;> rfl

theorem Field.key_of_ofKey? {key : String} {f : Field} (h : Field.ofKey? key = some f) :
    key = f.key := by
  have hfound := List.find?_some (p := fun f : Field => f.key = key) h
  exact (of_decide_eq_true hfound).symm

theorem Field.key_injective {f g : Field} (h : f.key = g.key) : f = g := by
  have hsome := congrArg Field.ofKey? h
  rw [Field.ofKey?_key, Field.ofKey?_key] at hsome
  exact Option.some.inj hsome

theorem valuesOf_append (f : Field) (members members' : List Member) :
    valuesOf f (members ++ members') = valuesOf f members ++ valuesOf f members' := by
  rw [valuesOf, List.filter_append, List.map_append]
  rfl

theorem valuesOf_cons_self {f : Field} {m : Member} (h : m.key = f.key) (members : List Member) :
    valuesOf f (m :: members) = m.value :: valuesOf f members := by
  rw [valuesOf, List.filter_cons_of_pos (by simpa using h)]
  rfl

theorem valuesOf_cons_ne {f : Field} {m : Member} (h : m.key ≠ f.key) (members : List Member) :
    valuesOf f (m :: members) = valuesOf f members := by
  rw [valuesOf, List.filter_cons_of_neg (by simpa using h)]
  rfl

/-! ### Values that fit -/

theorem JsonText.IsWord.head_eq {v : JsonText .value} {w : UInt16} (h : v.IsWord w) :
    v.head = some (.number (.integer w.toNat)) := by
  obtain ⟨n, rfl, hn⟩ := h
  rw [JsonText.head, NumberText.value_of_isWord hn, Option.map_some]

theorem JsonText.IsString.head_eq {v : JsonText .value} {s : String} (h : v.IsString s) :
    v.head = some (.text s) := by
  obtain ⟨glyphs, rfl, rfl⟩ := h
  rfl

theorem JsonText.IsWord.not_misfit {v : JsonText .value} {w : UInt16} (h : v.IsWord w)
    (p : Problem) : ¬ Misfit .word v p := by
  have hv := h.head_eq
  have hword := w.toNat_lt_size
  rintro (⟨hhead, htakes⟩ | ⟨-, hhead, hrange⟩ | hhead)
  · rw [hv] at hhead
    obtain rfl := Option.some.inj hhead
    exact htakes trivial
  · rw [hv, Option.some.injEq, Head.number.injEq, Number.integer.injEq] at hhead
    omega
  · rw [hv] at hhead
    cases hhead

theorem JsonText.IsString.not_misfit {v : JsonText .value} {s : String} (h : v.IsString s)
    (p : Problem) : ¬ Misfit .text v p := by
  have hv := h.head_eq
  rintro (⟨hhead, htakes⟩ | ⟨hword, -, -⟩ | hhead)
  · rw [hv] at hhead
    obtain rfl := Option.some.inj hhead
    exact htakes trivial
  · cases hword
  · rw [hv] at hhead
    cases hhead

theorem Writes.not_misfit {s : Scope} {f : Field} {v : JsonText .value} (h : Writes s f v)
    (p : Problem) : ¬ Misfit f.expected v p := by
  cases f with
  | start | length | slot => exact JsonText.IsWord.not_misfit h p
  | name | descriptor => exact JsonText.IsString.not_misfit h p

/-- There is at most one value, and it fits. -/
def FitsOnce (expected : Expected) (values : List (JsonText .value)) : Prop :=
  values = [] ∨ ∃ v, values = [v] ∧ ∀ p, ¬ Misfit expected v p

theorem sound_of_fitsOnce {members : List Member}
    (h : ∀ f, FitsOnce f.expected (valuesOf f members)) : Sound members := by
  have hvalues : ∀ {before m behind} {f : Field}, members = before ++ m :: behind →
      m.key = f.key → valuesOf f before = [] ∧ ∀ p, ¬ Misfit f.expected m.value p := by
    intro before m behind f hmembers hkey
    have hsplit : valuesOf f members = valuesOf f before ++ m.value :: valuesOf f behind := by
      rw [hmembers, valuesOf_append, valuesOf_cons_self hkey]
    rcases h f with hnone | ⟨v, hone, hfits⟩
    · simp [hsplit] at hnone
    · obtain ⟨hbefore, hm⟩ : valuesOf f before = [] ∧ m.value = v := by
        simp only [hsplit, List.append_eq_singleton_iff, List.cons.injEq, reduceCtorEq, and_false,
          or_false] at hone
        exact ⟨hone.1, hone.2.1⟩
      exact ⟨hbefore, hm ▸ hfits⟩
  rintro before m behind p hmembers (⟨hkey, hrepeated⟩ | ⟨hkey, -, hmisfit⟩)
  · exact hrepeated (hvalues hmembers hkey).1
  · exact (hvalues hmembers hkey).2 p hmisfit

theorem sound_nil : Sound [] := by
  intro before m behind p h
  simp at h

theorem Describes.sound {members : List Member} {s : Scope} (h : Describes members s) :
    Sound members :=
  sound_of_fitsOnce fun f => by
    obtain ⟨v, hv, hwrites⟩ := h f
    exact .inr ⟨v, hv, hwrites.not_misfit⟩

/-! ### Unique answers -/

theorem JsonText.IsWord.unique {v : JsonText .value} {w w' : UInt16} (h : v.IsWord w)
    (h' : v.IsWord w') : w = w' := by
  obtain ⟨n, rfl, hn⟩ := h
  obtain ⟨n', heq, hn'⟩ := h'
  cases heq
  exact UInt16.toNat_inj.mp (hn.value.symm.trans hn'.value)

theorem JsonText.IsString.unique {v : JsonText .value} {s s' : String} (h : v.IsString s)
    (h' : v.IsString s') : s = s' := by
  obtain ⟨glyphs, rfl, rfl⟩ := h
  obtain ⟨glyphs', heq, rfl⟩ := h'
  cases heq
  rfl

/-- **An object describes one scope.** -/
theorem Describes.unique {members : List Member} {s s' : Scope} (h : Describes members s)
    (h' : Describes members s') : s = s' := by
  have hsame : ∀ f, ∃ v, Writes s f v ∧ Writes s' f v := by
    intro f
    obtain ⟨v, hv, hwrites⟩ := h f
    obtain ⟨v', hv', hwrites'⟩ := h' f
    obtain rfl : v = v' := by
      rw [hv] at hv'
      exact (List.cons.inj hv').1
    exact ⟨v, hwrites, hwrites'⟩
  obtain ⟨_, hstart, hstart'⟩ := hsame .start
  obtain ⟨_, hlength, hlength'⟩ := hsame .length
  obtain ⟨_, hname, hname'⟩ := hsame .name
  obtain ⟨_, hdescriptor, hdescriptor'⟩ := hsame .descriptor
  obtain ⟨_, hslot, hslot'⟩ := hsame .slot
  cases s
  cases s'
  rw [Scope.mk.injEq]
  exact ⟨JsonText.IsWord.unique hstart hstart', JsonText.IsWord.unique hlength hlength',
    JsonText.IsString.unique hname hname', JsonText.IsString.unique hdescriptor hdescriptor',
    JsonText.IsWord.unique hslot hslot'⟩

theorem Misfit.unique {expected : Expected} {v : JsonText .value} {p p' : Problem}
    (h : Misfit expected v p) (h' : Misfit expected v p') : p = p' := by
  have htakes : ∀ {i : Int}, expected = .word → expected.Takes (.number (.integer i)) := by
    rintro i rfl
    trivial
  rcases h with ⟨hv, hkind⟩ | ⟨hword, hv, -⟩ | hv <;>
    rcases h' with ⟨hv', hkind'⟩ | ⟨hword', hv', -⟩ | hv' <;>
    simp only [hv, reduceCtorEq, Option.some.injEq, Head.number.injEq, Number.integer.injEq] at hv'
  · rw [hv']
  · exact absurd (hv' ▸ htakes hword') hkind
  · exact absurd (hv' ▸ htakes hword) hkind'
  · rw [hv']
  · rfl

theorem Fault.unique {before : List Member} {m : Member} {p p' : Problem}
    (h : Fault before m p) (h' : Fault before m p') : p = p' := by
  rcases h with @⟨f, hkey, hrepeated⟩ | @⟨f, p, hkey, hnew, hmisfit⟩ <;>
    rcases h' with @⟨g, hkey', hrepeated'⟩ | @⟨g, p', hkey', hnew', hmisfit'⟩ <;>
    obtain rfl := Field.key_injective (hkey.symm.trans hkey')
  · rfl
  · exact absurd hnew' hrepeated
  · exact absurd hnew hrepeated'
  · exact hmisfit.unique hmisfit'

/-- No fault stands before the members that are sound. -/
theorem Fault.length_le {before before' behind behind' : List Member} {m m' : Member} {p : Problem}
    (hmembers : before ++ m :: behind = before' ++ m' :: behind') (hsound : Sound before')
    (h : Fault before m p) : before'.length ≤ before.length := by
  rcases List.append_eq_append_iff.mp hmembers with ⟨between, rfl, hbetween⟩ | ⟨between, rfl, -⟩
  · cases between with
    | nil => rw [List.append_nil]
    | cons m'' between =>
      obtain ⟨rfl, -⟩ := List.cons.inj hbetween
      exact absurd h (hsound before m between p rfl)
  · rw [List.length_append]
    omega

/-- **An object is refused for one reason.** -/
theorem Refused.unique {members : List Member} {p p' : Problem} (h : Refused members p)
    (h' : Refused members p') : p = p' := by
  rcases h with @⟨before, m, behind, p, hmembers, hsound, hfault⟩ | @⟨f, hsound, hmissing⟩ <;>
    rcases h' with @⟨before', m', behind', p', hmembers', hsound', hfault'⟩ |
      @⟨f', hsound', hmissing'⟩
  · have hsame := hmembers.symm.trans hmembers'
    have hlength := Nat.le_antisymm (hfault'.length_le hsame.symm hsound)
      (hfault.length_le hsame hsound')
    obtain ⟨rfl, hrest⟩ := List.append_inj hsame hlength
    obtain ⟨rfl, -⟩ := List.cons.inj hrest
    exact hfault.unique hfault'
  · exact absurd hfault (hsound' _ _ _ _ hmembers)
  · exact absurd hfault' (hsound _ _ _ _ hmembers')
  · rw [Option.some.inj (hmissing.symm.trans hmissing')]

/-- **An object that describes a scope is not refused.** -/
theorem Describes.not_refused {members : List Member} {s : Scope} (h : Describes members s)
    (p : Problem) : ¬ Refused members p := by
  rintro (⟨hmembers, -, hfault⟩ | ⟨-, hmissing⟩)
  · exact h.sound _ _ _ _ hmembers hfault
  · rename_i f
    obtain ⟨v, hv, -⟩ := h f
    have hempty := List.find?_some hmissing
    rw [hv] at hempty
    cases hempty

end LocalScopes.Json
