import SansEffort.Mail

/-!
# The outbox

Where a routine's context records what it wants the host to do (`driver/outbox.rs`). Every
operation takes the lock once, so each is one step here.
-/

namespace SansEffort

/-- What one step hands to the host (`Yield`): effects in order, and the ids abandoned. -/
structure Yield (E : Type*) where
  effects : List E
  closed : List Nat
  deriving DecidableEq

/-- A place in the order: an effect, or the request whose effect is being built. -/
inductive Held (E : Type*)
  | ready (effect : E)
  | reserved (id : Nat)
  deriving DecidableEq

def Held.isReady {E : Type*} : Held E → Bool
  | .ready _ => true
  | .reserved _ => false

def Held.effect {E : Type*} : Held E → Option E
  | .ready effect => some effect
  | .reserved _ => none

/-- The place reserved for a request. -/
def Held.isFor {E : Type*} (id : Nat) : Held E → Bool
  | .ready _ => false
  | .reserved r => r = id

/-- One operation on an outbox, with what it was given and what it returned. -/
inductive Event (E : Type*)
  | told (effect : E)
  | minted (id : Nat)
  | opened (id : Nat) (effect : E) (answer : Answer)
  | unreserved (id : Nat)
  | collected (id : Nat) (value : Option Value)
  | dropped (id : Nat)
  | delivered (id : Nat) (value : Value)
  | drained (yielded : Yield E)

/-- `Inner`, the shared state, and beside it the `log`: what has been done to this outbox so
far, newest first. No operation reads the log. -/
structure Outbox (E : Type*) where
  effects : List E
  building : Option Nat
  held : List (Held E)
  mail : Mail
  driverWaker : Option Waker
  log : List (Event E)

namespace Outbox

variable {E : Type*}

def new (driver : Nat) : Outbox E := ⟨[], none, [], Mail.new driver, none, []⟩

/-- Record `held` after everything already recorded: at once if nothing is being built,
otherwise behind it. -/
def record (o : Outbox E) (held : Held E) : Outbox E :=
  let o := match o.building with
    | some id => { o with building := none, held := o.held ++ [Held.reserved id] }
    | none => o
  if !o.held.isEmpty then { o with held := o.held ++ [held] }
  else match held with
    | .ready effect => { o with effects := o.effects ++ [effect] }
    | .reserved id => { o with building := some id }

/-- Move the ready front of `held` to `effects`. -/
def release (o : Outbox E) : Outbox E :=
  let front := o.held.takeWhile Held.isReady
  { o with
    effects := o.effects ++ front.filterMap Held.effect
    held := o.held.drop front.length }

def noting (o : Outbox E) (event : Event E) : Outbox E := { o with log := event :: o.log }

def tell (o : Outbox E) (effect : E) : Outbox E :=
  (o.record (.ready effect)).noting (.told effect)

def mint (o : Outbox E) : ReplyHandle × Outbox E :=
  let (reply, mail) := o.mail.mint
  (reply, ({ o with mail }.record (.reserved reply.id)).noting (.minted reply.id))

/-- Put an effect in the place reserved for its request. -/
def place (held : List (Held E)) (id : Nat) (effect : E) : Option (List (Held E)) :=
  match held with
  | [] => none
  | .reserved r :: rest =>
    if r = id then some (.ready effect :: rest) else (place rest id effect).map (.reserved r :: ·)
  | .ready e :: rest => (place rest id effect).map (.ready e :: ·)

def openRequest (o : Outbox E) (id : Nat) (effect : E) (answer : Answer) : Outbox E :=
  let o := { o with mail := o.mail.openSlot id answer.check }
  let o :=
    if o.building = some id then { o with building := none, effects := o.effects ++ [effect] }
    else match place o.held id effect with
      | some held => { o with held }.release
      | none => o
  o.noting (.opened id effect answer)

/-- The effect could not be built: give up its place, so nothing waits behind it. -/
def unreserve (o : Outbox E) (id : Nat) : Outbox E :=
  let o :=
    if o.building = some id then { o with building := none }
    else { o with held := o.held.filter fun held => !held.isFor id }.release
  o.noting (.unreserved id)

/-- The driver's own waker, once, as the driver is built. -/
def adopt (o : Outbox E) (waker : Waker) : Outbox E := { o with driverWaker := some waker }

/-- A poll of a request's future: `Awaiting::poll` is this and a conversion. -/
def collect (o : Outbox E) (id : Nat) (waker : Waker) : Option Value × Outbox E :=
  let own := o.driverWaker.any (· == waker)
  let (value, mail) := o.mail.collect id (if own then none else some waker)
  (value, { o with mail }.noting (.collected id value))

/-- A request's future was dropped: `Awaiting::drop`. -/
def close (o : Outbox E) (id : Nat) : Outbox E :=
  { o with mail := o.mail.close id }.noting (.dropped id)

/-- The host replied. `none` is a panic. -/
def deliver (o : Outbox E) (reply : ReplyHandle) (value : Value) : Option (Delivery × Outbox E) :=
  (o.mail.deliver reply value).map fun
    | (.delivered waker, mail) =>
      (.delivered waker, { o with mail }.noting (.delivered reply.id value))
    | (other, mail) => (other, { o with mail })

/-- Everything since the last poll, and how many requests are still open. -/
def drain (o : Outbox E) : Yield E × Nat × Outbox E :=
  let (closed, mail) := o.mail.takeClosed
  let yielded : Yield E := ⟨o.effects, closed⟩
  (yielded, mail.outstanding, { o with effects := [], mail }.noting (.drained yielded))

end Outbox

end SansEffort
