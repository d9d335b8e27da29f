import SansEffort.Codec

/-!
# Replies

The four kinds of value a reply may be, the handle that answers one request, and what a
mailbox keeps of the type a request awaits (`reply.rs`, `boundary/pending.rs`).
-/

namespace SansEffort

inductive Kind
  | bytes
  | str
  | u64
  | unit
  deriving DecidableEq, Repr

/-- A reply value as the mailbox and the ABI carry it. -/
inductive Value
  | bytes (v : Bytes)
  | str (v : String)
  | u64 (v : UInt64)
  | unit
  deriving DecidableEq

def Value.kind : Value → Kind
  | .bytes _ => .bytes
  | .str _ => .str
  | .u64 _ => .u64
  | .unit => .unit

/-- The Rust type of a wire kind's values. -/
abbrev Kind.Carrier : Kind → Type
  | .bytes => Bytes
  | .str => String
  | .u64 => UInt64
  | .unit => Unit

/-- Borrow a value as this kind, or `none` if it is of another. -/
def Kind.fromValueRef : (k : Kind) → Value → Option k.Carrier
  | .bytes, .bytes v => some v
  | .str, .str v => some v
  | .u64, .u64 v => some v
  | .unit, .unit => some ()
  | _, _ => none

theorem Kind.fromValueRef_eq_none_iff (k : Kind) (v : Value) :
    k.fromValueRef v = none ↔ v.kind ≠ k := by
  constructor
  · rintro taken rfl
    cases v <;> cases taken
  · intro other
    cases k <;> cases v <;> first | rfl | exact absurd rfl other

/-- The capability to answer one request: which driver minted it, and which request. The
answer's type is a phantom of the source's. -/
structure ReplyHandle where
  driver : Nat
  id : Nat
  deriving DecidableEq, Repr

/-- An outstanding request, by the kind of reply it takes. -/
inductive Pending
  | bytes (reply : ReplyHandle)
  | str (reply : ReplyHandle)
  | u64 (reply : ReplyHandle)
  | unit (reply : ReplyHandle)
  deriving DecidableEq, Repr

def Pending.id : Pending → Nat
  | .bytes r => r.id
  | .str r => r.id
  | .u64 r => r.id
  | .unit r => r.id

def Pending.kind : Pending → Kind
  | .bytes _ => .bytes
  | .str _ => .str
  | .u64 _ => .u64
  | .unit _ => .unit

/-- Wrap a handle of this kind: `Reply::into_pending`. -/
def Kind.intoPending : Kind → ReplyHandle → Pending
  | .bytes, r => .bytes r
  | .str, r => .str r
  | .u64, r => .u64 r
  | .unit, r => .unit r

/-- Unwrap a pending handle of this kind, or hand it back: `Reply::from_pending`. -/
def Kind.fromPending : Kind → Pending → Except Pending ReplyHandle
  | .bytes, .bytes r => .ok r
  | .str, .str r => .ok r
  | .u64, .u64 r => .ok r
  | .unit, .unit r => .ok r
  | _, other => .error other

@[simp] theorem Kind.intoPending_id (k : Kind) (r : ReplyHandle) : (k.intoPending r).id = r.id := by
  cases k <;> rfl

@[simp] theorem Kind.intoPending_kind (k : Kind) (r : ReplyHandle) :
    (k.intoPending r).kind = k := by
  cases k <;> rfl

theorem Kind.fromPending_intoPending (k wanted : Kind) (r : ReplyHandle) :
    wanted.fromPending (k.intoPending r) =
      if k = wanted then .ok r else .error (k.intoPending r) := by
  cases k <;> cases wanted <;> rfl

/-- What a slot needs of the type a request awaits: the kind it crosses as, and whether a
wire value of that kind holds a valid answer (`Answer::check`). -/
structure Answer where
  wire : Kind
  accepts : wire.Carrier → Except DecodeError Unit

/-- Whether a value is a valid answer for a slot. -/
abbrev Check := Value → Option (Except DecodeError Unit)

/-- The check a slot runs before it accepts a reply. `none` is the source's `unreachable!`,
for a value of another kind than the slot's. -/
def Answer.check (a : Answer) : Check := fun value =>
  (a.wire.fromValueRef value).map a.accepts

theorem Answer.check_of_kind (a : Answer) (v : Value) (same : v.kind = a.wire) :
    ∃ verdict, a.check v = some verdict := by
  unfold Answer.check
  cases wire : a.wire.fromValueRef v with
  | none => exact absurd same ((Kind.fromValueRef_eq_none_iff a.wire v).mp wire)
  | some w => exact ⟨_, rfl⟩

end SansEffort
