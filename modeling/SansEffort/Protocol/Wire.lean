import Mathlib.Data.Finset.Sort
import SansEffort.Protocol.Ending
import SansEffort.Replies

/-!
# The specified library, on the wire

The library of the specification as a host has it, behind the C ABI: machines by handle, reply
records in and frames out. A program's asks are any of the demo's requests. The library itself says
nothing of what a call is refused for; that is as the table and its machines have it.
-/

namespace SansEffort.Protocol

open Boundary Python

/-- The library between calls. -/
structure Library where
  machines : List Machine
  queued : String → Nat
  senders : String → Int
  wakes : Finset Nat
  /-- Those that have completed, and are not freed. -/
  finished : Finset Nat

namespace Library

/-- The library as a call begins. -/
def world (l : Library) : World := ⟨l.machines, l.queued, l.senders, ∅, [], ∅, []⟩

/-- Machines are numbered from 0, and handles from 1. -/
def entry (l : Library) (handle : Nat) : Option Machine :=
  if handle = 0 then none
  else (l.machines[handle - 1]?).filter fun m => m.status ≠ .gone ∨ handle - 1 ∈ l.finished

end Library

def Status.reported : Status → SansEffort.Status
  | .awaiting => .awaiting
  | .complete | .gone => .complete
  | _ => .idle

section

variable (k : Instance) (asks : Nat → Nat → Boundary.Request)

/-- An effect of machine `h`, as the host sees it. -/
def shown (machines : List Machine) (h : Nat) : Effect → Shown View
  | .asked id => ⟨(asks h id).view id, true⟩
  | .spawned child =>
    ⟨if (machines[child]?).any (·.pinned) then .spawnedPinned (child + 1) else .spawned (child + 1),
      false⟩

namespace Output

def yielded (out : Output) (machines : List Machine) (h : Nat) : Yield (Shown View) :=
  ⟨out.effects.map (shown asks machines h), out.closed.sort (· ≤ ·)⟩

def woken (out : Output) : List Nat := (out.woke.sort (· ≤ ·)).map (· + 1)

def encoded (out : Output) (machines : List Machine) (h : Nat) : Option Bytes :=
  (encode View.encode (out.yielded asks machines h)).map (· ++ wokeFrames out.woken)

end Output

namespace Library

/-- What a call leaves, from what it put out. One that has completed is not freed here. -/
def left (l : Library) (w : World) (h : Nat) (failed : Bool) (out : Output) : Library where
  machines := Host.retire w.machines h out
  queued := w.queued
  senders := w.senders
  wakes := if failed then l.wakes ∪ w.woke else l.wakes
  finished := if out.status = .complete then insert h l.finished else l.finished

/-- A call on a machine there is, from the host's one thread. -/
def call (l : Library) (e : Event) (m : Machine) : Coded × Library :=
  let w := l.world.owned k e 0 m
  let out := Host.output w e.target 0 ((l.world.attempt k e).failed e.target) m
  let after := l.left w e.target (decide ((l.world.attempt k e).failed e.target)) out
  if (l.world.attempt k e).failed e.target then (.error .panicked, after)
  else
    (out.encoded asks w.machines e.target).elim (.error .panicked, after) fun data =>
      (.ok (data, out.status.reported), after)

def resume (l : Library) (handle : Nat) : Coded × Library :=
  match l.entry handle with
  | none => (.error .badHandle, l)
  | some m =>
    if handle - 1 ∈ l.finished then (.error .finished, l)
    else l.call k asks (.resume (handle - 1)) m

/-- A reply to a machine that has not finished. -/
def answer (l : Library) (h : Nat) (m : Machine) (id : Nat) (value : Value) : Coded × Library :=
  let awaited := (asks h id).reply
  if id ∉ m.asks then (.error (if 0 < id ∧ id < m.nextId then .stale id else .badInput), l)
  else if value.kind ≠ awaited.wire then (.error (.wrongKind id awaited.wire value.kind), l)
  else
    match awaited.answer.check value with
    | some (.error error) => (.error (.malformed error), l)
    | _ => l.call k asks (.reply h id) m

def reply (l : Library) (handle : Nat) (record : Bytes) : Coded × Library :=
  match l.entry handle with
  | none => (.error .badHandle, l)
  | some m =>
    match Input.decode record with
    | .error error => (.error (.malformed error), l)
    | .ok input =>
      if handle - 1 ∈ l.finished then (.error .finished, l)
      else l.answer k asks (handle - 1) m input.id input.value

end Library

/-- The C ABI, with the specified library behind it. -/
def spoken : Lib Library where
  resume := Library.resume k asks
  reply := Library.reply k asks
  wakes l := (wokeFrames ((l.wakes.sort (· ≤ ·)).map (· + 1)), { l with wakes := ∅ })

end

end SansEffort.Protocol
