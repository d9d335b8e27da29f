import SansEffort.Layout

/-!
# Codable types

The types a value can be encoded at (`boundary/codec.rs`): the primitives, and whatever `Result`
and `Option` make of them. Encoding and decoding go by the type, one layer at a time.
-/

namespace SansEffort

open Reading

/-- A type with an `Encode` and a `Decode`. -/
inductive Codable
  | u8
  | u32
  | u64
  | unit
  | string
  | bytes
  | result (ok err : Codable)
  | option (inner : Codable)
  deriving DecidableEq

namespace Codable

abbrev Carrier : Codable → Type
  | u8 => UInt8
  | u32 => UInt32
  | u64 => UInt64
  | unit => Unit
  | string => String
  | bytes => Bytes
  | result ok err => Except err.Carrier ok.Carrier
  | option inner => Option inner.Carrier

/-- `none` if it panics. -/
def encode : (t : Codable) → t.Carrier → Writer → Option Writer
  | u8, v, w => some (w.u8 v)
  | u32, v, w => some (w.u32 v.toNat)
  | u64, v, w => some (w.u64 v.toNat)
  | unit, _, w => some w
  | string, s, w => w.str s
  | bytes, b, w => w.bytes b
  | result ok _, .ok value, w => ok.encode value (w.u8 0)
  | result _ err, .error error, w => err.encode error (w.u8 1)
  | option _, none, w => some (w.u8 0)
  | option inner, some value, w => inner.encode value (w.u8 1)

def decode : (t : Codable) → Reader t.Carrier
  | u8 => Reader.u8
  | u32 => UInt32.ofNat <$> Reader.u32
  | u64 => Reader.u64
  | unit => pure ()
  | string => Reader.str
  | bytes => Reader.bytes
  | result ok err => do
    let tag ← Reader.u8
    if tag = 0 then .ok <$> ok.decode
    else if tag = 1 then .error <$> err.decode
    else throw (.unknownTag tag)
  | option inner => do
    let tag ← Reader.u8
    if tag = 0 then pure none
    else if tag = 1 then some <$> inner.decode
    else throw (.unknownTag tag)

/-- A value alone, as bytes. -/
def toBytes (t : Codable) (x : t.Carrier) : Option Bytes := (t.encode x Writer.new).map Writer.finish

def fromBytes (t : Codable) : Bytes → Except DecodeError t.Carrier := t.decode.fromBytes

/-- Every payload is shorter than 4 GiB. -/
def Short : (t : Codable) → t.Carrier → Prop
  | string, s => (utf8 s).length < 2 ^ 32
  | bytes, b => b.length < 2 ^ 32
  | result ok _, .ok value => ok.Short value
  | result _ err, .error error => err.Short error
  | option inner, some value => inner.Short value
  | _, _ => True

def layout : (t : Codable) → t.Carrier → Option Bytes
  | u8, v => some [v]
  | u32, v => some (toLeBytes 4 v.toNat)
  | u64, v => some (toLeBytes 8 v.toNat)
  | unit, _ => some []
  | string, s => payload (utf8 s)
  | bytes, b => payload b
  | result ok _, .ok value => (ok.layout value).map (0 :: ·)
  | result _ err, .error error => (err.layout error).map (1 :: ·)
  | option _, none => some [0]
  | option inner, some value => (inner.layout value).map (1 :: ·)

theorem appends_encode (t : Codable) (x : t.Carrier) : Appends (t.encode x) (t.layout x) := by
  have tagged : ∀ {inner : Codable} {value : inner.Carrier} (tag : UInt8),
      Appends (inner.encode value) (inner.layout value) →
      Appends (fun w => inner.encode value (w.u8 tag)) ((inner.layout value).map (tag :: ·)) := by
    intro inner value tag writes w
    show inner.encode value (w.u8 tag) = _
    rw [writes]
    cases inner.layout value <;> simp [Writer.u8]
  induction t with
  | u8 => intro w; simp [encode, layout, Writer.u8]
  | u32 => intro w; simp [encode, layout, Writer.u32]
  | u64 => intro w; simp [encode, layout, Writer.u64]
  | unit => intro w; simp [encode, layout]
  | string => exact appends_str x
  | bytes => exact appends_bytes x
  | result ok err ihOk ihErr =>
    cases x with
    | ok value => exact tagged 0 (ihOk value)
    | error error => exact tagged 1 (ihErr error)
  | option inner ih =>
    cases x with
    | none => intro w; simp [encode, layout, Writer.u8]
    | some value => exact tagged 1 (ih value)

theorem toBytes_eq (t : Codable) (x : t.Carrier) : t.toBytes x = t.layout x := by
  unfold toBytes
  rw [appends_encode t x Writer.new]
  cases t.layout x <;> simp [Writer.new, Writer.finish]

theorem exact_decode (t : Codable) : Exact t.decode (t.layout · = some ·) := by
  induction t with
  | u8 | u64 | unit | string | bytes =>
    intro input x rest
    simp [decode, layout]
  | u32 =>
    intro input x rest
    simp only [decode, layout, reads_map, reads_u32, Option.some.injEq]
    constructor
    · rintro ⟨v, ⟨small, rfl⟩, rfl⟩
      refine ⟨_, rfl, ?_⟩
      rw [UInt32.toNat_ofNat_of_lt' small]
    · rintro ⟨_, rfl, rfl⟩
      exact ⟨x.toNat, ⟨x.toNat_lt, rfl⟩, by simp⟩
  | result ok err ihOk ihErr =>
    intro input x rest
    simp only [decode, reads_bind, reads_u8]
    constructor
    · rintro ⟨tag, middle, rfl, read⟩
      -- the tag says which of the two follows
      split at read
      · next zero =>
        rw [reads_map] at read
        obtain ⟨value, taken, rfl⟩ := read
        obtain ⟨front, laid, rfl⟩ := (ihOk _ _ _).mp taken
        exact ⟨0 :: front, by simp [layout, laid], by simp [zero]⟩
      · split at read
        · next one =>
          rw [reads_map] at read
          obtain ⟨error, taken, rfl⟩ := read
          obtain ⟨front, laid, rfl⟩ := (ihErr _ _ _).mp taken
          exact ⟨1 :: front, by simp [layout, laid], by simp [one]⟩
        · simp at read
    · rintro ⟨_, laid, rfl⟩
      cases x with
      | ok value =>
        obtain ⟨front, inside, rfl⟩ := Option.map_eq_some_iff.mp laid
        refine ⟨0, front ++ rest, rfl, ?_⟩
        simpa using ihOk.reads inside rest
      | error error =>
        obtain ⟨front, inside, rfl⟩ := Option.map_eq_some_iff.mp laid
        refine ⟨1, front ++ rest, rfl, ?_⟩
        simpa using ihErr.reads inside rest
  | option inner ih =>
    intro input x rest
    simp only [decode, reads_bind, reads_u8]
    constructor
    · rintro ⟨tag, middle, rfl, read⟩
      split at read
      · next zero =>
        obtain ⟨rfl, rfl⟩ := (reads_pure _ _ _ _).mp read
        exact ⟨[0], rfl, by simp [zero]⟩
      · split at read
        · next one =>
          rw [reads_map] at read
          obtain ⟨value, taken, rfl⟩ := read
          obtain ⟨front, laid, rfl⟩ := (ih _ _ _).mp taken
          exact ⟨1 :: front, by simp [layout, laid], by simp [one]⟩
        · simp at read
    · rintro ⟨_, laid, rfl⟩
      cases x with
      | none =>
        cases laid
        exact ⟨0, rest, rfl, by simp⟩
      | some value =>
        obtain ⟨front, inside, rfl⟩ := Option.map_eq_some_iff.mp laid
        refine ⟨1, front ++ rest, rfl, ?_⟩
        simpa using ih.reads inside rest

/-- Encoding panics just where a payload is too long. -/
theorem layout_isSome_iff (t : Codable) (x : t.Carrier) : (t.layout x).isSome ↔ t.Short x := by
  induction t with
  | u8 | u32 | u64 | unit => simp [layout, Short]
  | string | bytes => simp [layout, Short, payload]
  | result ok err ihOk ihErr =>
    cases x with
    | ok value => simp [layout, Short, ihOk]
    | error error => simp [layout, Short, ihErr]
  | option inner ih =>
    cases x with
    | none => simp [layout, Short]
    | some value => simp [layout, Short, ih]

/-- A value is read back from its encoding whatever follows it, and from nothing else. -/
theorem codec_is_exact (t : Codable) :
    (∀ x, t.Short x → ∃ encoded, t.toBytes x = some encoded ∧
      ∀ rest, t.decode.run (encoded ++ rest) = .ok (x, rest)) ∧
    (∀ input x rest, t.decode.run input = .ok (x, rest) →
      t.Short x ∧ ∃ encoded, t.toBytes x = some encoded ∧ input = encoded ++ rest) ∧
    ∀ b x, t.fromBytes b = .ok x ↔ t.toBytes x = some b := by
  have exact := exact_decode t
  refine ⟨fun x short => ?_, fun input x rest read => ?_, fun b x => ?_⟩
  · obtain ⟨encoded, laid⟩ := Option.isSome_iff_exists.mp ((layout_isSome_iff t x).mpr short)
    refine ⟨encoded, ?_, fun rest => exact.reads laid rest⟩
    rw [toBytes_eq, laid]
  · obtain ⟨encoded, laid, same⟩ := (exact input x rest).mp read
    refine ⟨(layout_isSome_iff t x).mp (by simp [laid]), encoded, ?_, same⟩
    rw [toBytes_eq, laid]
  · rw [toBytes_eq, ← exact.all b x]
    exact fromBytes_eq_ok t.decode b x

theorem codec_is_exact_nested :
    ∃ encoded, (option (result u64 string)).toBytes (some (.ok 5)) = some encoded ∧
      ∀ rest, (option (result u64 string)).decode.run (encoded ++ rest) = .ok (some (.ok 5), rest) :=
  (codec_is_exact (option (result u64 string))).1 (some (.ok 5)) trivial

end Codable

end SansEffort
