/-! # Byte streams

A source hands out a wanted number of bytes or says why not; a sink takes all the bytes it is given
or says why not. Both answer with the stream as it is afterwards, whether they succeed or not. The
reason is a fault: a kind, and the stream's own text if it has one.

A list of bytes is a source that ends, and an array of bytes a sink that never fails. -/

namespace LocalScopes

/-! ### Faults -/

/-- Kinds of stream faults. -/
inductive IoKind where
  | notFound
  | permissionDenied
  | connectionReset
  | brokenPipe
  | invalidData
  | timedOut
  | wouldBlock
  | unexpectedEnd
  | writeZero
  | other
deriving DecidableEq, Repr

/-- The wording of a kind, for a fault without a text of its own. -/
def IoKind.message : IoKind → String
  | notFound => "entity not found"
  | permissionDenied => "permission denied"
  | connectionReset => "connection reset"
  | brokenPipe => "broken pipe"
  | invalidData => "invalid data"
  | timedOut => "timed out"
  | wouldBlock => "operation would block"
  | unexpectedEnd => "unexpected end of file"
  | writeZero => "write zero"
  | other => "other error"

/-- A fault of a byte stream, with the stream's own text if it has one. -/
structure IoFault where
  kind : IoKind
  text : Option String
deriving DecidableEq, Repr

namespace IoFault

/-- The wording of a fault. -/
def message (f : IoFault) : String := f.text.getD f.kind.message

/-- The input ended before the bytes that were asked for. -/
def endOfInput : IoFault := ⟨.unexpectedEnd, none⟩

/-- The output took none of the bytes that it was given. -/
def nothingWritten : IoFault := ⟨.writeZero, some "failed to write whole buffer"⟩

end IoFault

/-! ### Sources and sinks -/

/-- A stream that bytes come from. -/
class Source (ρ : Type) where
  /-- The next `n` bytes. -/
  take : (n : Nat) → ρ → Except IoFault (Vector UInt8 n) × ρ

/-- A stream that bytes go to. -/
class Sink (ω : Type) where
  /-- All the bytes of a list. -/
  put : List UInt8 → ω → Except IoFault Unit × ω

/-- A read that finds too few bytes takes all that remain. -/
instance : Source (List UInt8) where
  take n bytes :=
    let part := bytes.take n
    if h : part.length = n then (.ok ⟨part.toArray, by simpa using h⟩, bytes.drop n)
    else (.error .endOfInput, [])

instance : Sink (Array UInt8) where
  put bytes out := (.ok (), out ++ bytes.toArray)

/-- Puts lists of bytes one after the other, up to the first one that is not taken. -/
def Sink.putAll {ω : Type} [Sink ω] : List (List UInt8) → ω → Except IoFault Unit × ω
  | [], sink => (.ok (), sink)
  | part :: rest, sink =>
    match put part sink with
    | (.error fault, sink) => (.error fault, sink)
    | (.ok (), sink) => putAll rest sink

/-! ### Plain bytes -/

namespace Source

theorem take_append {n : Nat} {part : List UInt8} (h : part.length = n) (rest : List UInt8) :
    take n (part ++ rest) = (.ok ⟨part.toArray, by simpa using h⟩, rest) := by
  subst h
  simp [take]

theorem take_short {n : Nat} {bytes : List UInt8} (h : bytes.length < n) :
    take n bytes = (.error .endOfInput, []) := by
  simp only [take, List.length_take]
  rw [dif_neg]
  omega

end Source

@[simp] theorem Sink.put_array (bytes : List UInt8) (out : Array UInt8) :
    put bytes out = (.ok (), out ++ bytes.toArray) := rfl

@[simp] theorem Sink.putAll_array (parts : List (List UInt8)) (out : Array UInt8) :
    putAll parts out = (.ok (), out ++ parts.flatten.toArray) := by
  induction parts generalizing out with
  | nil => simp [putAll]
  | cons part rest ih => simp [putAll, ih]

end LocalScopes
