import Mathlib.Algebra.Ring.Nat
import Mathlib.Data.List.Basic

/-!
# The byte codec

Values written as bytes and read back, little-endian throughout (`boundary/codec.rs`).
`Option` is the result of code that may panic, `none` being the panic.
-/

namespace SansEffort

abbrev Bytes := List UInt8

/-- Why bytes could not be decoded. -/
inductive DecodeError
  | truncated (needed available : Nat)
  | tooLong (len : Nat)
  | invalidUtf8 (validUpTo : Nat)
  | unknownTag (tag : UInt8)
  | trailingBytes (remaining : Nat)
  deriving DecidableEq, Repr

/-- The low `n` bytes of a number, lowest first: `to_le_bytes`. -/
def toLeBytes : Nat → Nat → Bytes
  | 0, _ => []
  | n + 1, v => UInt8.ofNat (v % 256) :: toLeBytes n (v / 256)

/-- The number whose bytes, lowest first, these are: `from_le_bytes`. -/
def fromLeBytes : Bytes → Nat
  | [] => 0
  | b :: rest => b.toNat + 256 * fromLeBytes rest

@[simp] theorem length_toLeBytes (n v : Nat) : (toLeBytes n v).length = n := by
  induction n generalizing v with
  | zero => rfl
  | succ n ih => simp only [toLeBytes, List.length_cons, ih]

/-- Appends little-endian records to a buffer. -/
structure Writer where
  buffer : Bytes

namespace Writer

def new : Writer := ⟨[]⟩

def u8 (w : Writer) (v : UInt8) : Writer := ⟨w.buffer ++ [v]⟩

def u32 (w : Writer) (v : Nat) : Writer := ⟨w.buffer ++ toLeBytes 4 v⟩

def u64 (w : Writer) (v : Nat) : Writer := ⟨w.buffer ++ toLeBytes 8 v⟩

/-- A `u32` length, then the bytes. Panics at 4 GiB. -/
def bytes (w : Writer) (b : Bytes) : Option Writer :=
  if b.length < 2 ^ 32 then some ⟨(w.u32 b.length).buffer ++ b⟩ else none

/-- A nested record, written in place: its length is filled in after `write`. -/
def nested (w : Writer) (write : Writer → Option Writer) : Option Writer := do
  let start := w.buffer.length
  let w ← write (w.u32 0)
  let len := w.buffer.length - start - 4
  if len < 2 ^ 32 then
    if start + 4 ≤ w.buffer.length then
      some ⟨w.buffer.take start ++ toLeBytes 4 len ++ w.buffer.drop (start + 4)⟩
    else some w
  else none

def str (w : Writer) (s : String) : Option Writer := w.bytes s.toUTF8.data.toList

def finish (w : Writer) : Bytes := w.buffer

end Writer

/-- Reads little-endian records from the front of a slice, its state: what is left of it. -/
abbrev Reader := StateT Bytes (Except DecodeError)

namespace Reader

def take (n : Nat) : Reader Bytes := do
  let bytes ← get
  if n ≤ bytes.length then
    set (bytes.drop n)
    return bytes.take n
  else throw (.truncated n bytes.length)

def u8 : Reader UInt8 := do
  return (← take 1).headD 0

def u32 : Reader Nat := do
  return fromLeBytes (← take 4)

def u64 : Reader UInt64 := do
  return UInt64.ofNat (fromLeBytes (← take 8))

/-- A `u32` length, then that many bytes. A `u32` always fits the `usize` of a 64-bit
target, so `DecodeError.tooLong` is not raised here. -/
def bytes : Reader Bytes := do
  take (← u32)

/-- The text with these bytes, if they are UTF-8. -/
def fromUtf8 (b : Bytes) : Option String := String.fromUTF8? ⟨b.toArray⟩

/-- How many bytes of a field were valid UTF-8: the length of its longest valid prefix. -/
def validUpTo (b : Bytes) : Nat :=
  ((List.range (b.length + 1)).reverse.find? fun n => (fromUtf8 (b.take n)).isSome).getD 0

def str : Reader String := do
  let b ← bytes
  match fromUtf8 b with
  | some s => return s
  | none => throw (.invalidUtf8 (validUpTo b))

/-- End of input: every byte must have been consumed. -/
def finish : Reader Unit := do
  let bytes ← get
  if bytes.isEmpty then return () else throw (.trailingBytes bytes.length)

/-- Exactly one value: `Decode::from_bytes`. -/
def fromBytes {α : Type} (decode : Reader α) (b : Bytes) : Except DecodeError α :=
  ((do let value ← decode; finish; return value : Reader α).run b).map Prod.fst

end Reader

end SansEffort
