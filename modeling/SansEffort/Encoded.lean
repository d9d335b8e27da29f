import SansEffort.Hosting

/-!
# The byte layer

A machine whose calls take and return bytes (`encoded.rs`): one reply record in, the effects
encoded out, and the machine's status.
-/

namespace SansEffort

/-- One decoded reply record. -/
inductive Input
  | bytes (id : UInt64) (v : Bytes)
  | str (id : UInt64) (v : String)
  | u64 (id : UInt64) (v : UInt64)
  | unit (id : UInt64)

namespace Input

def read : Reader Input := do
  let tag ← Reader.u8
  let input ←
    if tag = 1 then pure (.str (← Reader.u64) (← Reader.str))
    else if tag = 2 then pure (.u64 (← Reader.u64) (← Reader.u64))
    else if tag = 3 then pure (.unit (← Reader.u64))
    else if tag = 4 then pure (.bytes (← Reader.u64) (← Reader.bytes))
    else throw (.unknownTag tag)
  Reader.finish
  return input

def decode (bytes : Bytes) : Except DecodeError Input := (read.run bytes).map Prod.fst

def id : Input → Nat
  | .bytes id _ => id.toNat
  | .str id _ => id.toNat
  | .u64 id _ => id.toNat
  | .unit id => id.toNat

def value : Input → Value
  | .bytes _ v => .bytes v
  | .str _ v => .str v
  | .u64 _ v => .u64 v
  | .unit _ => .unit

end Input

variable {σ E H V : Type}

/-- One frame per effect, then one per id abandoned. `view` writes a view's own bytes. -/
def encode (view : V → Writer → Option Writer) (step : Yield (Shown V)) : Option Bytes := do
  let w ← step.effects.foldlM (fun w shown =>
    (w.u8 (if shown.awaits then Contract.frameAsk else Contract.frameTell)).nested
      (view shown.view)) Writer.new
  let w ← step.closed.foldlM (fun w id =>
    (w.u8 Contract.frameClosed).nested fun w => some (w.u64 id)) w
  return w.finish

namespace Encoded

/-- The effects a call recorded, encoded, and its status. -/
def report (view : V → Writer → Option Writer) :
    Except Error (Yield (Shown V)) × Machine σ E H → Option (Coded × Machine σ E H)
  | (.error error, m) => some (.error error, m)
  | (.ok shown, m) => (encode view shown).map fun bytes => (.ok (bytes, m.status), m)

/-- Deliver one reply record and run to the next wait. -/
def reply (r : Routine σ E H) (split : E → V × Option Pending)
    (view : V → Writer → Option Writer) (m : Machine σ E H) (record : Bytes) :
    Option (Coded × Machine σ E H) :=
  match Input.decode record with
  | .error error => some (.error (.malformed error), m)
  | .ok input => (m.replyShown r split input.id input.value).bind (report view)

def resume (r : Routine σ E H) (split : E → V × Option Pending)
    (view : V → Writer → Option Writer) (m : Machine σ E H) : Option (Coded × Machine σ E H) :=
  (m.resumeShown r split).bind (report view)

end Encoded

end SansEffort
