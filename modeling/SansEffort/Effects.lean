import SansEffort.Awaiting

/-!
# The standard effects on the wire

The effects of `sans-effort-effects`, and the errors their replies carry, each with its two
directions (`console.rs`, `time.rs`, `random.rs`, `env.rs`, `fs.rs`). What is read back is what
was written, but for a sleep: its duration crosses in whole milliseconds.
-/

namespace SansEffort

open Reading

/-- `none` if it panics. -/
class Encode (α : Type) where
  encode : α → Writer → Option Writer

class Decode (α : Type) where
  decode : Reader α

section

variable {α : Type} [Encode α] [Decode α]

/-- A value alone, as bytes. -/
def toBytes (x : α) : Option Bytes := (Encode.encode x Writer.new).map Writer.finish

/-- What a value is read back as, once written; `none` if writing it panics. -/
def readBack (x : α) : Option (Except DecodeError α) :=
  (toBytes x).map (Decode.decode (α := α)).fromBytes

/-- The `Decode` contract, for one value. -/
def RoundTrips (x : α) : Prop := readBack x = some (.ok x)

end

/-! ### Console -/

structure ReadLineEffect

instance : Encode ReadLineEffect := ⟨fun _ w => some w⟩

instance : Decode ReadLineEffect := ⟨pure ⟨⟩⟩

structure WriteLineEffect where
  line : String

instance : Encode WriteLineEffect := ⟨fun effect w => w.str effect.line⟩

instance : Decode WriteLineEffect := ⟨.mk <$> Reader.str⟩

inductive ReadLineError
  | closed
  | failed
  deriving DecidableEq

instance : Encode ReadLineError :=
  ⟨fun error w => some (w.u8 (match error with
    | .closed => 0
    | .failed => 1))⟩

instance : Decode ReadLineError where
  decode := do
    let tag ← Reader.u8
    if tag = 0 then pure .closed
    else if tag = 1 then pure .failed
    else throw (.unknownTag tag)

/-! ### Time -/

/-- A `u128` in the source. -/
def Duration.asMillis (d : Duration) : Nat := d.secs.toNat * 1000 + d.nanos / 1000000

def Duration.fromMillis (millis : UInt64) : Duration where
  secs := millis / 1000
  nanos := millis.toNat % 1000 * 1000000
  small := by omega

/-- Wake after a duration. -/
structure SleepEffect where
  duration : Duration

/-- The duration in whole milliseconds; saturates. -/
def SleepEffect.millis (effect : SleepEffect) : UInt64 :=
  if effect.duration.asMillis < 2 ^ 64 then .ofNat effect.duration.asMillis else .ofNat (2 ^ 64 - 1)

/-- Sub-millisecond precision does not cross. -/
instance : Encode SleepEffect := ⟨fun effect w => some (w.u64 effect.millis.toNat)⟩

instance : Decode SleepEffect := ⟨(fun ms => ⟨.fromMillis ms⟩) <$> Reader.u64⟩

structure NowEffect

instance : Encode NowEffect := ⟨fun _ w => some w⟩

instance : Decode NowEffect := ⟨pure ⟨⟩⟩

/-! ### Randomness, and the environment -/

structure RandomEffect where
  len : UInt32

instance : Encode RandomEffect := ⟨fun effect w => some (w.u32 effect.len.toNat)⟩

instance : Decode RandomEffect := ⟨(fun len => ⟨.ofNat len⟩) <$> Reader.u32⟩

structure VarEffect where
  name : String

instance : Encode VarEffect := ⟨fun effect w => w.str effect.name⟩

instance : Decode VarEffect := ⟨.mk <$> Reader.str⟩

/-! ### Files -/

structure ReadFileEffect where
  path : String

instance : Encode ReadFileEffect := ⟨fun effect w => w.str effect.path⟩

instance : Decode ReadFileEffect := ⟨.mk <$> Reader.str⟩

structure WriteFileEffect where
  path : String
  bytes : Bytes

instance : Encode WriteFileEffect :=
  ⟨fun effect w => do
    let w ← w.str effect.path
    w.bytes effect.bytes⟩

instance : Decode WriteFileEffect where
  decode := do
    let path ← Reader.str
    let bytes ← Reader.bytes
    return ⟨path, bytes⟩

inductive FsError
  | notFound
  | permissionDenied
  | other
  deriving DecidableEq

instance : Encode FsError :=
  ⟨fun error w => some (w.u8 (match error with
    | .notFound => 0
    | .permissionDenied => 1
    | .other => 2))⟩

instance : Decode FsError where
  decode := do
    let tag ← Reader.u8
    if tag = 0 then pure .notFound
    else if tag = 1 then pure .permissionDenied
    else if tag = 2 then pure .other
    else throw (.unknownTag tag)

/-! ### What is read back -/

section

variable {α : Type} [Encode α] [Decode α]

/-- What an encoding is read back as, if it is laid out so and that is what the layout reads as. -/
theorem readBack_eq {x y : α} {front : Bytes} (writes : Appends (Encode.encode x) (some front))
    (reads : Reads Decode.decode front y []) : readBack x = some (.ok y) := by
  have written : toBytes x = some front := by
    unfold toBytes
    rw [writes Writer.new]
    rfl
  have back := (fromBytes_eq_ok Decode.decode front y).mpr reads
  unfold readBack
  rw [written, Option.map_some, back]

theorem not_roundTrips_of_panic {x : α} (writes : Appends (Encode.encode x) none) :
    ¬ RoundTrips x := by
  unfold RoundTrips readBack toBytes
  rw [writes Writer.new]
  simp

/-- An effect that is written as one payload comes back just when that is not too long. -/
theorem roundTrips_iff_payload {x : α} {b : Bytes} (writes : Appends (Encode.encode x) (payload b))
    (reads : ∀ front, payload b = some front → Reads Decode.decode front x []) :
    RoundTrips x ↔ b.length < 2 ^ 32 := by
  cases laid : payload b with
  | some front =>
    have short := ((payload_eq_some b front).mp laid).1
    rw [laid] at writes
    exact iff_of_true (readBack_eq writes (reads front laid)) short
  | none =>
    have long : ¬ b.length < 2 ^ 32 := by simpa [payload] using laid
    rw [laid] at writes
    exact iff_of_false (not_roundTrips_of_panic writes) long

theorem roundTrips_of_tag {x : α} {tag : UInt8}
    (writes : ∀ w, Encode.encode x w = some (w.u8 tag)) (reads : Reads Decode.decode [tag] x []) :
    RoundTrips x :=
  readBack_eq (show Appends (Encode.encode x) (some [tag]) from writes) reads

end

theorem reads_text {β : Type} (f : String → β) {s : String} {front : Bytes}
    (laid : payload (utf8 s) = some front) : Reads (f <$> Reader.str) front (f s) [] := by
  refine (reads_map _ _ _ _ _).mpr ⟨s, ?_, rfl⟩
  exact (reads_str _ _ _).mpr ⟨front, laid, (List.append_nil front).symm⟩

theorem ReadLineError.roundTrips (error : ReadLineError) : RoundTrips error := by
  cases error with
  | closed => exact roundTrips_of_tag (fun _ => rfl) rfl
  | failed => exact roundTrips_of_tag (fun _ => rfl) rfl

theorem FsError.roundTrips (error : FsError) : RoundTrips error := by
  cases error with
  | notFound => exact roundTrips_of_tag (fun _ => rfl) rfl
  | permissionDenied => exact roundTrips_of_tag (fun _ => rfl) rfl
  | other => exact roundTrips_of_tag (fun _ => rfl) rfl

theorem RandomEffect.roundTrips (effect : RandomEffect) : RoundTrips effect := by
  have writes : Appends (Encode.encode effect) (some (toLeBytes 4 effect.len.toNat)) := fun _ => rfl
  apply readBack_eq writes
  refine (reads_map _ _ _ _ _).mpr ⟨effect.len.toNat, ?_, by simp⟩
  simpa using effect.len.toNat_lt

theorem WriteFileEffect.roundTrips_iff (effect : WriteFileEffect) :
    RoundTrips effect ↔ (utf8 effect.path).length < 2 ^ 32 ∧ effect.bytes.length < 2 ^ 32 := by
  have writes : Appends (Encode.encode effect) _ :=
    (appends_str effect.path).andThen (appends_bytes effect.bytes)
  cases path : payload (utf8 effect.path) with
  | none =>
    have long : ¬ (utf8 effect.path).length < 2 ^ 32 := by simpa [payload] using path
    rw [path] at writes
    exact iff_of_false (not_roundTrips_of_panic writes) fun short => long short.1
  | some front =>
    have shortPath := ((payload_eq_some _ _).mp path).1
    cases bytes : payload effect.bytes with
    | none =>
      have long : ¬ effect.bytes.length < 2 ^ 32 := by simpa [payload] using bytes
      rw [path, bytes] at writes
      exact iff_of_false (not_roundTrips_of_panic writes) fun short => long short.2
    | some back =>
      have shortBytes := ((payload_eq_some _ _).mp bytes).1
      rw [path, bytes] at writes
      refine iff_of_true (readBack_eq writes ?_) ⟨shortPath, shortBytes⟩
      refine (reads_bind _ _ _ _ _).mpr ⟨effect.path, back, ?_, ?_⟩
      · exact (reads_str _ _ _).mpr ⟨front, path, rfl⟩
      · refine (reads_bind _ _ _ _ _).mpr ⟨effect.bytes, [], ?_, rfl⟩
        simpa using bytes

/-! ### A sleep -/

theorem SleepEffect.readBack (effect : SleepEffect) :
    readBack effect = some (.ok ⟨.fromMillis effect.millis⟩) := by
  have writes : Appends (Encode.encode effect) (some (toLeBytes 8 effect.millis.toNat)) :=
    fun _ => rfl
  apply readBack_eq writes
  refine (reads_map _ _ _ _ _).mpr ⟨effect.millis, ?_, rfl⟩
  simp

/-- A duration is what its whole milliseconds say when it has no others, and when they fit. -/
theorem Duration.fromMillis_eq_iff (millis : UInt64) (d : Duration) :
    Duration.fromMillis millis = d ↔ d.nanos % 1000000 = 0 ∧ d.asMillis = millis.toNat := by
  obtain ⟨secs, nanos, small⟩ := d
  have fits := millis.toNat_lt
  have seconds : (millis / 1000).toNat = millis.toNat / 1000 := by simp
  simp only [fromMillis, asMillis, Duration.mk.injEq]
  rw [← UInt64.toNat_inj, seconds]
  omega

theorem SleepEffect.roundTrips_iff (effect : SleepEffect) :
    RoundTrips effect ↔
      effect.duration.nanos % 1000000 = 0 ∧ effect.duration.asMillis < 2 ^ 64 := by
  have same : RoundTrips effect ↔ Duration.fromMillis effect.millis = effect.duration := by
    unfold RoundTrips
    rw [effect.readBack]
    constructor
    · intro read
      exact congrArg SleepEffect.duration (Except.ok.inj (Option.some.inj read))
    · intro same
      rw [same]
  rw [same, Duration.fromMillis_eq_iff]
  unfold SleepEffect.millis
  split
  · next fits =>
    rw [UInt64.toNat_ofNat_of_lt' fits]
    exact and_congr_right fun _ => iff_of_true rfl fits
  · next past =>
    simp only [past, and_false, iff_false]
    rintro ⟨_, full⟩
    have most := (UInt64.ofNat (2 ^ 64 - 1)).toNat_lt
    omega

/-- A nanosecond's sleep is read back as none at all. -/
theorem a_nanosecond_does_not_cross : ¬ RoundTrips (⟨⟨0, 1, by decide⟩⟩ : SleepEffect) := by
  rw [SleepEffect.roundTrips_iff]
  decide

/-- Whatever can be written is read back as it was, but for a sleep; and that comes back as its
whole milliseconds, at most as many as the field holds. -/
theorem standard_effects_round_trip :
    (∀ effect : ReadLineEffect, RoundTrips effect) ∧
    (∀ effect : WriteLineEffect, RoundTrips effect ↔ (utf8 effect.line).length < 2 ^ 32) ∧
    (∀ error : ReadLineError, RoundTrips error) ∧
    (∀ effect : NowEffect, RoundTrips effect) ∧
    (∀ effect : RandomEffect, RoundTrips effect) ∧
    (∀ effect : VarEffect, RoundTrips effect ↔ (utf8 effect.name).length < 2 ^ 32) ∧
    (∀ effect : ReadFileEffect, RoundTrips effect ↔ (utf8 effect.path).length < 2 ^ 32) ∧
    (∀ effect : WriteFileEffect, RoundTrips effect ↔
      (utf8 effect.path).length < 2 ^ 32 ∧ effect.bytes.length < 2 ^ 32) ∧
    (∀ error : FsError, RoundTrips error) ∧
    ∀ effect : SleepEffect,
      readBack effect = some (.ok ⟨.fromMillis effect.millis⟩) ∧
      (RoundTrips effect ↔
        effect.duration.nanos % 1000000 = 0 ∧ effect.duration.asMillis < 2 ^ 64) := by
  -- a unit has no bytes, a number has a fixed width, and a text is no longer than its length field
  refine ⟨fun _ => rfl, ?line, ReadLineError.roundTrips, fun _ => rfl, RandomEffect.roundTrips,
    ?name, ?path, WriteFileEffect.roundTrips_iff, FsError.roundTrips,
    fun effect => ⟨effect.readBack, effect.roundTrips_iff⟩⟩
  case line =>
    intro effect
    apply roundTrips_iff_payload (appends_str effect.line)
    intro front laid
    exact reads_text WriteLineEffect.mk laid
  case name =>
    intro effect
    apply roundTrips_iff_payload (appends_str effect.name)
    intro front laid
    exact reads_text VarEffect.mk laid
  case path =>
    intro effect
    apply roundTrips_iff_payload (appends_str effect.path)
    intro front laid
    exact reads_text ReadFileEffect.mk laid

end SansEffort
