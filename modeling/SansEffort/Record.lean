import SansEffort.Contract

/-!
# Recordings

What a recording session keeps (`record.rs`): the machines that joined it, by number, and the
calls on them with what each returned.
-/

namespace SansEffort.Record

structure Outcome where
  code : Int
  bytes : Bytes
  deriving DecidableEq

/-- A call's result, as a recording keeps it. -/
def outcome : Coded → Outcome
  | .ok (bytes, status) => ⟨Contract.statusCode status, bytes⟩
  | .error error => ⟨error.code, []⟩

/-- One call on a recorded machine, named by its number in the session. -/
inductive Event
  | resume (machine : Nat) (outcome : Outcome)
  | reply (machine : Nat) (record : Bytes) (outcome : Outcome)
  | free (machine : Nat) (outcome : Outcome)
  deriving DecidableEq

namespace Event

def machine : Event → Nat
  | resume machine _ => machine
  | reply machine _ _ => machine
  | free machine _ => machine

def outcome : Event → Outcome
  | resume _ outcome => outcome
  | reply _ _ outcome => outcome
  | free _ outcome => outcome

end Event

/-- A recorded run: the session's machines in the order they were created, and every call. -/
structure Log where
  handles : List Nat
  events : List Event
  deriving DecidableEq

namespace Log

def empty : Log := ⟨[], []⟩

/-- The number of a session's machine, `u32::MAX` for all beyond it. -/
def number (place : Nat) : Nat := min place (2 ^ 32 - 1)

/-- Add a machine to the session: its number. -/
def adopt (log : Log) (handle : Nat) : Nat × Log :=
  (number log.handles.length, { log with handles := log.handles ++ [handle] })

def push (log : Log) (event : Event) : Log := { log with events := log.events ++ [event] }

/-- The handle of the session's `machine`th machine. -/
def handle (log : Log) (machine : Nat) : Option Nat := log.handles[machine]?

theorem number_of_lt {place : Nat} (small : place < 2 ^ 32) : number place = place :=
  Nat.min_eq_left (by omega)

end Log

end SansEffort.Record
