import SansEffort.Library.Reading
import SansEffort.Codec
import Mathlib.Tactic.Ring

/-!
# Layouts

What each reader of the codec takes from the front of its input: a number its bytes, lowest
first, a payload its length and then itself. Each writer appends just that.
-/

namespace SansEffort

open Reading

/-! ### Numbers as bytes -/

theorem fromLeBytes_lt (b : Bytes) : fromLeBytes b < 256 ^ b.length := by
  induction b with
  | nil => simp [fromLeBytes]
  | cons byte rest ih =>
    have small := byte.toNat_lt
    simp only [fromLeBytes, List.length_cons, Nat.pow_succ]
    omega

theorem toLeBytes_fromLeBytes (b : Bytes) : toLeBytes b.length (fromLeBytes b) = b := by
  induction b with
  | nil => rfl
  | cons byte rest ih =>
    have small := byte.toNat_lt
    have low : (byte.toNat + 256 * fromLeBytes rest) % 256 = byte.toNat := by omega
    have high : (byte.toNat + 256 * fromLeBytes rest) / 256 = fromLeBytes rest := by omega
    simp [toLeBytes, fromLeBytes, low, high, ih]

theorem fromLeBytes_toLeBytes (n v : Nat) : fromLeBytes (toLeBytes n v) = v % 256 ^ n := by
  induction n generalizing v with
  | zero => simp [toLeBytes, fromLeBytes, Nat.mod_one]
  | succ n ih =>
    have byte : (UInt8.ofNat (v % 256)).toNat = v % 256 := by
      simp
    rw [toLeBytes, fromLeBytes, ih, byte, Nat.pow_succ, Nat.mul_comm (256 ^ n), Nat.mod_mul]

/-- A number that fits in `n` bytes is what they say. -/
theorem fromLeBytes_of_lt {n v : Nat} (small : v < 256 ^ n) : fromLeBytes (toLeBytes n v) = v := by
  rw [fromLeBytes_toLeBytes, Nat.mod_eq_of_lt small]

/-! ### The primitive readers -/

@[simp] theorem reads_take (n : Nat) (input front rest : Bytes) :
    Reads (Reader.take n) input front rest ↔ front.length = n ∧ input = front ++ rest := by
  have taken : (Reader.take n).run input =
      if n ≤ input.length then .ok (input.take n, input.drop n)
      else .error (.truncated n input.length) := by
    show (if n ≤ input.length then _ else _ : Reader Bytes) input = _
    split <;> rfl
  unfold Reads
  rw [taken]
  constructor
  · intro h
    split at h
    · next enough =>
      cases h
      exact ⟨List.length_take_of_le enough, (List.take_append_drop n input).symm⟩
    · cases h
  · rintro ⟨rfl, rfl⟩
    simp

@[simp] theorem reads_u8 (input : Bytes) (b : UInt8) (rest : Bytes) :
    Reads Reader.u8 input b rest ↔ input = b :: rest := by
  unfold Reader.u8
  simp only [reads_bind, reads_take, reads_pure]
  constructor
  · rintro ⟨front, _, ⟨length, rfl⟩, rfl, rfl⟩
    obtain ⟨byte, rfl⟩ := List.length_eq_one_iff.mp length
    rfl
  · rintro rfl
    exact ⟨[b], rest, ⟨rfl, rfl⟩, rfl, rfl⟩

@[simp] theorem reads_u32 (input : Bytes) (v : Nat) (rest : Bytes) :
    Reads Reader.u32 input v rest ↔ v < 2 ^ 32 ∧ input = toLeBytes 4 v ++ rest := by
  unfold Reader.u32
  simp only [reads_bind, reads_take, reads_pure]
  constructor
  · rintro ⟨front, _, ⟨length, rfl⟩, rfl, rfl⟩
    have bound := fromLeBytes_lt front
    have same := toLeBytes_fromLeBytes front
    rw [length] at bound same
    exact ⟨bound, by rw [same]⟩
  · rintro ⟨small, rfl⟩
    exact ⟨toLeBytes 4 v, rest, ⟨length_toLeBytes 4 v, rfl⟩, fromLeBytes_of_lt small, rfl⟩

@[simp] theorem reads_u64 (input : Bytes) (v : UInt64) (rest : Bytes) :
    Reads Reader.u64 input v rest ↔ input = toLeBytes 8 v.toNat ++ rest := by
  unfold Reader.u64
  simp only [reads_bind, reads_take, reads_pure]
  constructor
  · rintro ⟨front, _, ⟨length, rfl⟩, rfl, rfl⟩
    have bound := fromLeBytes_lt front
    have same := toLeBytes_fromLeBytes front
    rw [length] at bound same
    rw [UInt64.toNat_ofNat_of_lt' bound, same]
  · rintro rfl
    refine ⟨toLeBytes 8 v.toNat, rest, ⟨length_toLeBytes 8 _, rfl⟩, ?_, rfl⟩
    rw [fromLeBytes_of_lt v.toNat_lt, UInt64.ofNat_toNat]

/-- A payload's length, and the payload: `none` if the length does not fit. -/
def payload (b : Bytes) : Option Bytes :=
  if b.length < 2 ^ 32 then some (toLeBytes 4 b.length ++ b) else none

theorem payload_eq_some (b front : Bytes) :
    payload b = some front ↔ b.length < 2 ^ 32 ∧ toLeBytes 4 b.length ++ b = front := by
  simp [payload]

theorem payload_of_lt {b : Bytes} (short : b.length < 2 ^ 32) :
    payload b = some (toLeBytes 4 b.length ++ b) := if_pos short

@[simp] theorem reads_bytes (input b rest : Bytes) :
    Reads Reader.bytes input b rest ↔ ∃ front, payload b = some front ∧ input = front ++ rest := by
  unfold Reader.bytes
  simp only [reads_bind, reads_u32, reads_take, payload_eq_some]
  constructor
  · rintro ⟨_, _, ⟨small, rfl⟩, rfl, rfl⟩
    exact ⟨_, ⟨small, rfl⟩, by simp⟩
  · rintro ⟨_, ⟨small, rfl⟩, rfl⟩
    exact ⟨b.length, b ++ rest, ⟨small, by simp⟩, rfl, rfl⟩

/-- The bytes of a text. -/
def utf8 (s : String) : Bytes := s.toUTF8.data.toList

theorem fromUtf8_eq_some (b : Bytes) (s : String) : Reader.fromUtf8 b = some s ↔ utf8 s = b := by
  unfold Reader.fromUtf8 String.fromUTF8? utf8
  constructor
  · intro h
    split at h
    · cases h
      rfl
    · cases h
  · rintro rfl
    have same : (⟨s.toUTF8.data.toList.toArray⟩ : ByteArray) = s.toByteArray := by simp
    rw [same, dif_pos s.isValidUTF8]
    rfl

@[simp] theorem reads_str (input : Bytes) (s : String) (rest : Bytes) :
    Reads Reader.str input s rest ↔
      ∃ front, payload (utf8 s) = some front ∧ input = front ++ rest := by
  unfold Reader.str
  simp only [reads_bind, reads_bytes]
  constructor
  · rintro ⟨b, _, ⟨front, laid, rfl⟩, read⟩
    cases text : Reader.fromUtf8 b with
    | none => simp [text] at read
    | some t =>
      simp only [text, reads_pure] at read
      obtain ⟨rfl, rfl⟩ := read
      rw [(fromUtf8_eq_some b t).mp text]
      exact ⟨front, laid, rfl⟩
  · rintro ⟨front, laid, rfl⟩
    refine ⟨utf8 s, rest, ⟨front, laid, rfl⟩, ?_⟩
    rw [(fromUtf8_eq_some _ s).mpr rfl]
    simp

@[simp] theorem reads_finish (input : Bytes) (x : Unit) (rest : Bytes) :
    Reads Reader.finish input x rest ↔ input = [] ∧ rest = [] := by
  unfold Reads Reader.finish
  cases input with
  | nil =>
    constructor
    · intro h
      cases h
      exact ⟨rfl, rfl⟩
    · rintro ⟨_, rfl⟩
      rfl
  | cons byte input =>
    constructor
    · intro h
      cases h
    · rintro ⟨h, _⟩
      cases h

theorem fromBytes_eq_ok {α : Type} (decode : Reader α) (b : Bytes) (x : α) :
    decode.fromBytes b = .ok x ↔ Reads decode b x [] := by
  have whole : ∀ y rest, Reads (do let value ← decode; Reader.finish; return value) b y rest ↔
      rest = [] ∧ Reads decode b y [] := by
    intro y rest
    simp only [reads_bind, reads_finish, reads_pure]
    constructor
    · rintro ⟨_, _, read, _, _, ⟨rfl, rfl⟩, rfl, rfl⟩
      exact ⟨rfl, read⟩
    · rintro ⟨rfl, read⟩
      exact ⟨y, [], read, (), [], ⟨rfl, rfl⟩, rfl, rfl⟩
  unfold Reader.fromBytes
  cases ran : StateT.run (do let value ← decode; Reader.finish; return value : Reader α) b with
  | error e =>
    constructor
    · intro h
      cases h
    · intro read
      have accepted := ((whole x []).mpr ⟨rfl, read⟩).symm.trans ran
      cases accepted
  | ok taken =>
    obtain ⟨y, rest⟩ := taken
    obtain ⟨rfl, own⟩ := (whole y rest).mp ran
    constructor
    · intro h
      cases h
      exact own
    · intro read
      rw [(own.unique read).1]
      rfl

/-! ### The primitive writers -/

/-- A writer that appends the layout, and panics if there is none. -/
def Appends (write : Writer → Option Writer) (layout : Option Bytes) : Prop :=
  ∀ w, write w = layout.map fun front => ⟨w.buffer ++ front⟩

theorem appends_bytes (b : Bytes) : Appends (·.bytes b) (payload b) := by
  intro w
  unfold Writer.bytes payload
  split
  · simp [Writer.u32]
  · rfl

theorem appends_str (s : String) : Appends (·.str s) (payload (utf8 s)) := appends_bytes (utf8 s)

/-- A nested record is laid out as a payload. -/
theorem appends_nested {write : Writer → Option Writer} {inner : Bytes}
    (writes : Appends write (some inner)) : Appends (·.nested write) (payload inner) := by
  intro w
  have start : (w.u32 0).buffer.length = w.buffer.length + 4 := by simp [Writer.u32]
  have length : w.buffer.length + 4 + inner.length - w.buffer.length - 4 = inner.length := by omega
  unfold Writer.nested payload
  simp only [writes (w.u32 0), Option.map_some, Option.bind_eq_bind, Option.bind_some,
    List.length_append, start, length]
  split
  · rw [if_pos (by omega)]
    simp [Writer.u32]
  · rfl

/-- A nested record is laid out as a payload, and panics where what is inside it does. -/
theorem Appends.nested {write : Writer → Option Writer} {inner : Option Bytes}
    (writes : Appends write inner) : Appends (·.nested write) (inner.bind payload) := by
  cases inner with
  | some inner => exact appends_nested writes
  | none =>
    intro w
    have failed : write (w.u32 0) = none := writes (w.u32 0)
    simp [Writer.nested, failed]

theorem Appends.andThen {first second : Writer → Option Writer} {front back : Option Bytes}
    (one : Appends first front) (two : Appends second back) :
    Appends (fun w => (first w).bind second)
      (front.bind fun front => back.map (front ++ ·)) := by
  intro w
  have later : ∀ front, second ⟨w.buffer ++ front⟩ =
      back.map fun back => ⟨w.buffer ++ front ++ back⟩ := fun front => two ⟨w.buffer ++ front⟩
  show (first w).bind second = _
  rw [one w]
  cases front with
  | none => rfl
  | some front => cases back <;> simp [later]

end SansEffort
