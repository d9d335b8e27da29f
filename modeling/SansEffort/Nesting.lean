import SansEffort.Layout

/-!
# Records written in place

A nested record is written straight into the buffer, after four bytes kept for its length, and
the length is filled in when the record is done (`boundary/codec.rs`). The records inside it do the
same further on, before the outer length is known.
-/

namespace SansEffort

/-- One thing a caller has a writer do. -/
inductive Write
  | u8 (v : UInt8)
  | u32 (v : UInt32)
  | u64 (v : UInt64)
  | bytes (b : Bytes)
  | str (s : String)
  | nested (writes : List Write)

namespace Write

mutual
/-- `none` if it panics. -/
def run : Write → Writer → Option Writer
  | u8 v, w => some (w.u8 v)
  | u32 v, w => some (w.u32 v.toNat)
  | u64 v, w => some (w.u64 v.toNat)
  | bytes b, w => w.bytes b
  | str s, w => w.str s
  | nested writes, w => w.nested (runAll writes)

def runAll : List Write → Writer → Option Writer
  | [], w => some w
  | write :: writes, w => (write.run w).bind (runAll writes)
end

mutual
/-- What the writes stand for: every record its own length and then itself. -/
def record : Write → Bytes
  | u8 v => [v]
  | u32 v => toLeBytes 4 v.toNat
  | u64 v => toLeBytes 8 v.toNat
  | bytes b => toLeBytes 4 b.length ++ b
  | str s => toLeBytes 4 (utf8 s).length ++ utf8 s
  | nested writes => toLeBytes 4 (recordAll writes).length ++ recordAll writes

def recordAll : List Write → Bytes
  | [] => []
  | write :: writes => write.record ++ recordAll writes
end

mutual
/-- Every level is shorter than 4 GiB. -/
def fits : Write → Bool
  | u8 _ | u32 _ | u64 _ => true
  | bytes b => b.length < 2 ^ 32
  | str s => (utf8 s).length < 2 ^ 32
  | nested writes => fitsAll writes && (recordAll writes).length < 2 ^ 32

def fitsAll : List Write → Bool
  | [] => true
  | write :: writes => write.fits && fitsAll writes
end

/-- The bytes to be appended, if the writes do not panic. -/
def layout (write : Write) : Option Bytes := if write.fits then some write.record else none

def layoutAll (writes : List Write) : Option Bytes :=
  if fitsAll writes then some (recordAll writes) else none

theorem layout_bytes (b : Bytes) : (bytes b).layout = payload b := by
  simp [layout, fits, record, payload]

theorem layout_str (s : String) : (str s).layout = payload (utf8 s) := by
  simp [layout, fits, record, payload]

theorem layout_nested (writes : List Write) :
    (nested writes).layout = (layoutAll writes).bind payload := by
  unfold layout layoutAll
  cases inside : fitsAll writes with
  | false => simp [fits, inside]
  | true => simp [fits, record, inside, payload]

theorem layoutAll_cons (write : Write) (writes : List Write) :
    layoutAll (write :: writes) =
      write.layout.bind fun front => (layoutAll writes).map (front ++ ·) := by
  unfold layout layoutAll
  cases first : write.fits <;> cases later : fitsAll writes <;>
    simp [fitsAll, recordAll, first, later]

mutual
/-- Each write appends its own bytes, wherever in the buffer it comes. -/
theorem appends_run (write : Write) : Appends write.run write.layout := by
  cases write with
  | u8 v => intro w; simp [run, layout, fits, record, Writer.u8]
  | u32 v => intro w; simp [run, layout, fits, record, Writer.u32]
  | u64 v => intro w; simp [run, layout, fits, record, Writer.u64]
  | bytes b =>
    rw [layout_bytes]
    exact appends_bytes b
  | str s =>
    rw [layout_str]
    exact appends_str s
  | nested writes =>
    -- the levels inside are done with their own lengths before this one is filled in
    intro w
    rw [run, layout_nested]
    exact (appends_runAll writes).nested w

theorem appends_runAll (writes : List Write) : Appends (runAll writes) (layoutAll writes) := by
  cases writes with
  | nil => intro w; simp [runAll, layoutAll, fitsAll, recordAll]
  | cons write writes =>
    intro w
    rw [runAll, layoutAll_cons]
    exact (appends_run write).andThen (appends_runAll writes) w
end

/-- Written in place or copied, a record leaves one and the same buffer: what was there before,
then its length and itself, unless some level of it is too long. -/
theorem in_place_is_copied (w : Writer) (writes : List Write) :
    w.nested (runAll writes) = (do
      let inner ← runAll writes Writer.new
      w.bytes inner.finish) ∧
    w.nested (runAll writes) =
      if (nested writes).fits then
        some ⟨w.buffer ++ (toLeBytes 4 (recordAll writes).length ++ recordAll writes)⟩
      else none := by
  have placed : w.nested (runAll writes) =
      ((layoutAll writes).bind payload).map fun front => ⟨w.buffer ++ front⟩ :=
    (appends_runAll writes).nested w
  have apart : runAll writes Writer.new = (layoutAll writes).map fun front => ⟨front⟩ :=
    appends_runAll writes Writer.new
  constructor
  · rw [placed, apart]
    cases layoutAll writes with
    | none => rfl
    | some inner => exact (appends_bytes inner w).symm
  · rw [placed, ← layout_nested]
    cases fit : (nested writes).fits <;> simp [layout, record, fit]

end Write

end SansEffort
