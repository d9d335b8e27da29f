import SansEffort.Driver

/-!
# The contract with a host

Why a call failed (`error.rs`), and the codes and frame kinds a foreign host assumes
(`contract.rs`).
-/

namespace SansEffort

inductive Error
  | badHandle
  | badInput
  | malformed (error : DecodeError)
  | stale (id : Nat)
  | wrongKind (id : Nat) (expected got : Kind)
  | busy
  | wrongThread
  | finished
  | panicked
  deriving DecidableEq, Repr

namespace Contract

def frameTell : UInt8 := 1
def frameAsk : UInt8 := 2
def frameClosed : UInt8 := 3
def frameWoke : UInt8 := 4

def ok : Int := 0

/-- The wire code of a status. -/
def statusCode : Status → Int
  | .awaiting => 0
  | .complete => 1
  | .idle => 2

end Contract

/-- The wire code of an error. -/
def Error.code : Error → Int
  | .busy => -1
  | .finished => -2
  | .wrongKind _ _ _ => -3
  | .panicked => -4
  | .badHandle => -5
  | .badInput => -6
  | .malformed _ => -7
  | .stale _ => -8
  | .wrongThread => -9

/-- What a call on the byte layer returns: its effects encoded, and the machine's status. -/
abbrev Coded := Except Error (Bytes × Status)

end SansEffort
