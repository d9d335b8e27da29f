import SansEffort.Library.Stacks
import SansEffort.Library.Transition
import SansEffort.Spawning

/-!
# A process and its threads

The handle table (`table.rs`) as the threads of a process use it together. The table's lock is
taken and released within a function, so a function is the steps between, and the steps of the
threads interleave. Wakes and recordings change no map and are not here.
-/

namespace SansEffort

/-- How a call ends, once it has let go of the machine's lock. -/
inductive Exit
  /-- It returns what the code returned, or `Busy`. -/
  | returned
  /-- It returns `Panicked`, as the machine's code or its constructor did. -/
  | panicked
  /-- It returns `Panicked`, as the lock is poisoned. -/
  | poisoned
  /-- It unwinds, since the destructor of the panic's payload panicked. -/
  | unwinding
  deriving DecidableEq

/-- What a thread is in the middle of, innermost first. Only the constructors, routines and
destructors are not the table's own code. -/
inductive Layer
  /-- A parked machine's constructor, in `resume`. -/
  | building (who : Who)
  /-- `guarded`: the handle is to be found. -/
  | finding (handle : Nat)
  /-- Its entry is cloned, and its lock to be tried. -/
  | found (handle : Nat) (who : Who)
  /-- The lock is taken, and the machine's code runs. -/
  | running (handle : Nat) (who : Who)
  /-- The lock is taken and found poisoned, and to be released. -/
  | refused (handle : Nat) (who : Who)
  /-- The code panicked: the destructor of the panic's payload, and then the machine is to be
  removed. -/
  | caught (handle : Nat) (who : Who)
  /-- It is removed, and its lock to be released. -/
  | removed (handle : Nat) (who : Who)
  /-- The entry is dropped: the machine's destructors, if no other reference to it is left. Where
  a constructor panicked, the destructor of the panic's payload. -/
  | leaving (who : Who) (exit : Exit)
  /-- What `free` removed is dropped. -/
  | freeing (who : Who)
  deriving DecidableEq

namespace Layer

/-- The machine's lock is held, or its cell borrowed. -/
def locks (who : Who) : Layer → Bool
  | running _ w => w = who
  | refused _ w => w = who
  | caught _ w => w = who
  | removed _ w => w = who
  | _ => false

/-- The machine is being built. -/
def builds (who : Who) : Layer → Bool
  | building w => w = who
  | _ => false

/-- The machine a layer has a reference to. -/
def entry : Layer → Option Who
  | building who => some who
  | finding _ => none
  | found _ who => some who
  | running _ who => some who
  | refused _ who => some who
  | caught _ who => some who
  | removed _ who => some who
  | leaving who _ => some who
  | freeing who => some who

/-- Code that is not the table's own runs on top of it. -/
def runsCode : Layer → Bool
  | building _ => true
  | running _ _ => true
  | caught _ _ => true
  | leaving _ _ => true
  | freeing _ => true
  | _ => false

end Layer

/-- What can be told of a machine. -/
inductive Occurrence
  /-- Its lock was taken for a call. -/
  | began (who : Who)
  /-- Its code panicked in a call. -/
  | panicked (who : Who)
  /-- A call in which it panicked released its lock. -/
  | unlocked (who : Who)
  /-- A call in which it panicked unwound past its lock. -/
  | unwound (who : Who)
  /-- `free` returned `Ok`. -/
  | freed (who : Who)
  /-- A call on it returned `Panicked`. -/
  | failed (who : Who)
  deriving DecidableEq

def Occurrence.who : Occurrence → Who
  | began who => who
  | panicked who => who
  | unlocked who => who
  | unwound who => who
  | freed who => who
  | failed who => who

/-- A step of a thread. -/
inductive Deed
  | new
  | newPinned
  | resume (handle : Nat)
  | reply (handle : Nat)
  | free (handle : Nat)
  | reissue (handles : List Nat)
  -- the constructor of a pinned machine returns, or panics
  | built
  | buildPanicked
  -- the steps of `guarded`
  | find
  | tryLock
  | finish
  | panics
  | remove
  | unlock
  -- the destructor of the panic's payload panics: a lock let go by the unwinding is poisoned,
  -- unless the thread was unwinding already when it took the lock
  | payloadPanicked (poisons : Bool)
  -- what the call held is dropped, and the call returns or its destructors panic
  | left
  | unwinds
  deriving DecidableEq

/-- The table, and each thread's own: its pinned machines, the handles it issues again and what it
is in the middle of. Beside them the last machine each handle was issued to and a history, newest
first, that nothing reads. -/
structure Process (T : Type) where
  machines : Nat → Option Who
  parked : Nat → Option Who
  pinned : Nat → Option T
  next : Nat
  locked : Who → Bool
  poisoned : Who → Bool
  locals : T → Nat → Option Who
  reissue : T → List Nat
  stack : T → List Layer
  issued : Nat → Who
  history : List Occurrence

namespace Process

variable {T : Type}

def new : Process T where
  machines := fun _ => none
  parked := fun _ => none
  pinned := fun _ => none
  next := 1
  locked := fun _ => false
  poisoned := fun _ => false
  locals := fun _ _ => none
  reissue := fun _ => []
  stack := fun _ => []
  issued := fun handle => ⟨handle, 0, false⟩
  history := []

/-- The handles in use and the next one, as `issue` sees them. -/
def table (p : Process T) : Table :=
  { Table.new with
    machines := p.machines, parked := p.parked, next := p.next
    pinned := fun handle => (p.pinned handle).isSome }

/-- Code that may call the table runs: the thread's own, or a machine's. -/
def calls (p : Process T) (t : T) : Bool := (p.stack t).head?.all Layer.runsCode

def happen (p : Process T) (event : Occurrence) : Process T := { p with history := event :: p.history }

@[simp] theorem happen_history (p : Process T) (event : Occurrence) :
    (p.happen event).history = event :: p.history := rfl

section

variable [DecidableEq T]

def put (p : Process T) (t : T) (layers : List Layer) : Process T :=
  { p with stack := Function.update p.stack t layers }

@[simp] theorem put_history (p : Process T) (t : T) (layers : List Layer) :
    (p.put t layers).history = p.history := rfl

def create (p : Process T) (t : T) (pinned : Bool) : Option (Process T) :=
  (p.table.issue (p.reissue t)).map fun (handle, table, rest) =>
    let who : Who := ⟨handle, (p.issued handle).turn + 1, pinned⟩
    { p with
      machines := if pinned then p.machines else Function.update p.machines handle (some who)
      parked := if pinned then Function.update p.parked handle (some who) else p.parked
      next := table.next
      reissue := Function.update p.reissue t rest
      issued := Function.update p.issued handle who }

/-- Where a handle's machine is, from the calling thread. -/
def find (p : Process T) (t : T) (handle : Nat) : Except Error Who :=
  match p.machines handle with
  | some who => .ok who
  | none =>
    if (p.parked handle).isSome then .error .badInput
    else match p.pinned handle with
      | some owner =>
        if owner = t then
          match p.locals t handle with
          | some who => .ok who
          | none => .error .badHandle
        else .error .wrongThread
      | none => .error .badHandle

def free (p : Process T) (t : T) (handle : Nat) : Process T :=
  if (p.machines handle).isSome || (p.parked handle).isSome then
    { p with
      machines := Function.update p.machines handle none
      parked := Function.update p.parked handle none }.put t (.freeing (p.issued handle) :: p.stack t)
  else if p.pinned handle = some t then
    { p with
      pinned := Function.update p.pinned handle none
      locals := Function.update p.locals t (Function.update (p.locals t) handle none) }.put t
      (.freeing (p.issued handle) :: p.stack t)
  -- `WrongThread` or `BadHandle`
  else p

/-- One step of a thread: `none` if it cannot be taken. -/
def step (p : Process T) : T × Deed → Option (Process T)
  | (t, .new) => if p.calls t then p.create t false else none
  | (t, .newPinned) => if p.calls t then p.create t true else none
  | (t, .resume handle) =>
    if p.calls t then
      match p.parked handle with
      | some who =>
        some ({ p with
          parked := Function.update p.parked handle none
          pinned := Function.update p.pinned handle (some t) }.put t (.building who :: p.stack t))
      | none => some (p.put t (.finding handle :: p.stack t))
    else none
  | (t, .reply handle) => if p.calls t then some (p.put t (.finding handle :: p.stack t)) else none
  | (t, .free handle) => if p.calls t then some (p.free t handle) else none
  | (t, .reissue handles) =>
    if p.calls t then some { p with reissue := Function.update p.reissue t handles } else none
  | (t, .built) =>
    match p.stack t with
    | .building who :: rest =>
      some ({ p with
        locals := Function.update p.locals t
          (Function.update (p.locals t) who.handle (some who)) }.put t
        (.finding who.handle :: rest))
    | _ => none
  | (t, .buildPanicked) =>
    match p.stack t with
    | .building who :: rest =>
      some ({ p with pinned := Function.update p.pinned who.handle none }.put t
        (.leaving who .panicked :: rest))
    | _ => none
  | (t, .find) =>
    match p.stack t with
    | .finding handle :: rest =>
      match p.find t handle with
      | .ok who => some (p.put t (.found handle who :: rest))
      | .error _ => some (p.put t rest)
    | _ => none
  -- only a migrating machine has a mutex, which can be poisoned
  | (t, .tryLock) =>
    match p.stack t with
    | .found handle who :: rest =>
      if p.locked who then some (p.put t (.leaving who .returned :: rest))
      else if !who.pinned && p.poisoned who then
        some ({ p with locked := Function.update p.locked who true }.put t
          (.refused handle who :: rest))
      else some (({ p with locked := Function.update p.locked who true }.put t
        (.running handle who :: rest)).happen (.began who))
    | _ => none
  | (t, .finish) =>
    match p.stack t with
    | .running _ who :: rest =>
      some ({ p with locked := Function.update p.locked who false }.put t
        (.leaving who .returned :: rest))
    | _ => none
  | (t, .panics) =>
    match p.stack t with
    | .running handle who :: rest =>
      some ((p.put t (.caught handle who :: rest)).happen (.panicked who))
    | _ => none
  | (t, .remove) =>
    match p.stack t with
    | .caught handle who :: rest =>
      if who.pinned then
        some (({ p with
          locked := Function.update p.locked who false
          pinned := Function.update p.pinned handle none
          locals := Function.update p.locals t (Function.update (p.locals t) handle none) }.put t
          (.leaving who .panicked :: rest)).happen (.unlocked who))
      else
        some ({ p with machines := Function.update p.machines handle none }.put t
          (.removed handle who :: rest))
    | _ => none
  | (t, .unlock) =>
    match p.stack t with
    | .removed _ who :: rest =>
      some (({ p with locked := Function.update p.locked who false }.put t
        (.leaving who .panicked :: rest)).happen (.unlocked who))
    | .refused _ who :: rest =>
      some ({ p with locked := Function.update p.locked who false }.put t
        (.leaving who .poisoned :: rest))
    | _ => none
  | (t, .payloadPanicked poisons) =>
    match p.stack t with
    | .caught _ who :: rest =>
      some (({ p with
        locked := Function.update p.locked who false
        poisoned := Function.update p.poisoned who (p.poisoned who || poisons) }.put t
        (.leaving who .unwinding :: rest)).happen (.unwound who))
    | _ => none
  | (t, .left) =>
    match p.stack t with
    | .leaving _ .returned :: rest => some (p.put t rest)
    | .leaving who .panicked :: rest => some ((p.put t rest).happen (.failed who))
    | .leaving who .poisoned :: rest => some ((p.put t rest).happen (.failed who))
    | .freeing who :: rest => some ((p.put t rest).happen (.freed who))
    | _ => none
  | (t, .unwinds) =>
    match p.stack t with
    | .leaving _ _ :: rest => some (p.put t rest)
    | .freeing _ :: rest => some (p.put t rest)
    | _ => none

/-- What a step of a thread does, and when. -/
inductive Stepped (p : Process T) (t : T) : Deed → Process T → Prop
  | new (after : Process T) (calls : p.calls t = true) (created : p.create t false = some after) :
      Stepped p t .new after
  | newPinned (after : Process T) (calls : p.calls t = true)
      (created : p.create t true = some after) : Stepped p t .newPinned after
  | starts (handle : Nat) (who : Who) (calls : p.calls t = true)
      (parked : p.parked handle = some who) :
      Stepped p t (.resume handle) ({ p with
        parked := Function.update p.parked handle none
        pinned := Function.update p.pinned handle (some t) }.put t (.building who :: p.stack t))
  | resumes (handle : Nat) (calls : p.calls t = true) (started : p.parked handle = none) :
      Stepped p t (.resume handle) (p.put t (.finding handle :: p.stack t))
  | replies (handle : Nat) (calls : p.calls t = true) :
      Stepped p t (.reply handle) (p.put t (.finding handle :: p.stack t))
  | frees (handle : Nat) (calls : p.calls t = true) : Stepped p t (.free handle) (p.free t handle)
  | reissue (handles : List Nat) (calls : p.calls t = true) :
      Stepped p t (.reissue handles) { p with reissue := Function.update p.reissue t handles }
  | built (who : Who) (rest : List Layer) (stack : p.stack t = .building who :: rest) :
      Stepped p t .built ({ p with
        locals := Function.update p.locals t
          (Function.update (p.locals t) who.handle (some who)) }.put t (.finding who.handle :: rest))
  | buildPanicked (who : Who) (rest : List Layer) (stack : p.stack t = .building who :: rest) :
      Stepped p t .buildPanicked ({ p with pinned := Function.update p.pinned who.handle none }.put t
        (.leaving who .panicked :: rest))
  | finds (handle : Nat) (who : Who) (rest : List Layer)
      (stack : p.stack t = .finding handle :: rest) (found : p.find t handle = .ok who) :
      Stepped p t .find (p.put t (.found handle who :: rest))
  | misses (handle : Nat) (error : Error) (rest : List Layer)
      (stack : p.stack t = .finding handle :: rest) (missing : p.find t handle = .error error) :
      Stepped p t .find (p.put t rest)
  | busy (handle : Nat) (who : Who) (rest : List Layer)
      (stack : p.stack t = .found handle who :: rest) (locked : p.locked who = true) :
      Stepped p t .tryLock (p.put t (.leaving who .returned :: rest))
  | refuses (handle : Nat) (who : Who) (rest : List Layer)
      (stack : p.stack t = .found handle who :: rest) (free : p.locked who = false)
      (migrating : who.pinned = false) (poisoned : p.poisoned who = true) :
      Stepped p t .tryLock ({ p with locked := Function.update p.locked who true }.put t
        (.refused handle who :: rest))
  | locks (handle : Nat) (who : Who) (rest : List Layer)
      (stack : p.stack t = .found handle who :: rest) (free : p.locked who = false)
      (sound : who.pinned = false → p.poisoned who = false) :
      Stepped p t .tryLock (({ p with locked := Function.update p.locked who true }.put t
        (.running handle who :: rest)).happen (.began who))
  | finishes (handle : Nat) (who : Who) (rest : List Layer)
      (stack : p.stack t = .running handle who :: rest) :
      Stepped p t .finish ({ p with locked := Function.update p.locked who false }.put t
        (.leaving who .returned :: rest))
  | panics (handle : Nat) (who : Who) (rest : List Layer)
      (stack : p.stack t = .running handle who :: rest) :
      Stepped p t .panics ((p.put t (.caught handle who :: rest)).happen (.panicked who))
  | removesPinned (handle : Nat) (who : Who) (rest : List Layer)
      (stack : p.stack t = .caught handle who :: rest) (pinned : who.pinned = true) :
      Stepped p t .remove (({ p with
        locked := Function.update p.locked who false
        pinned := Function.update p.pinned handle none
        locals := Function.update p.locals t (Function.update (p.locals t) handle none) }.put t
        (.leaving who .panicked :: rest)).happen (.unlocked who))
  | removes (handle : Nat) (who : Who) (rest : List Layer)
      (stack : p.stack t = .caught handle who :: rest) (migrating : who.pinned = false) :
      Stepped p t .remove ({ p with machines := Function.update p.machines handle none }.put t
        (.removed handle who :: rest))
  | unlocks (handle : Nat) (who : Who) (rest : List Layer)
      (stack : p.stack t = .removed handle who :: rest) :
      Stepped p t .unlock (({ p with locked := Function.update p.locked who false }.put t
        (.leaving who .panicked :: rest)).happen (.unlocked who))
  | releases (handle : Nat) (who : Who) (rest : List Layer)
      (stack : p.stack t = .refused handle who :: rest) :
      Stepped p t .unlock ({ p with locked := Function.update p.locked who false }.put t
        (.leaving who .poisoned :: rest))
  | payloadPanicked (poisons : Bool) (handle : Nat) (who : Who) (rest : List Layer)
      (stack : p.stack t = .caught handle who :: rest) :
      Stepped p t (.payloadPanicked poisons) (({ p with
        locked := Function.update p.locked who false
        poisoned := Function.update p.poisoned who (p.poisoned who || poisons) }.put t
        (.leaving who .unwinding :: rest)).happen (.unwound who))
  | returns (who : Who) (rest : List Layer) (stack : p.stack t = .leaving who .returned :: rest) :
      Stepped p t .left (p.put t rest)
  | fails (who : Who) (exit : Exit) (rest : List Layer)
      (stack : p.stack t = .leaving who exit :: rest) (failed : exit = .panicked ∨ exit = .poisoned) :
      Stepped p t .left ((p.put t rest).happen (.failed who))
  | freed (who : Who) (rest : List Layer) (stack : p.stack t = .freeing who :: rest) :
      Stepped p t .left ((p.put t rest).happen (.freed who))
  | unwinds (who : Who) (exit : Exit) (rest : List Layer)
      (stack : p.stack t = .leaving who exit :: rest) : Stepped p t .unwinds (p.put t rest)
  | freeUnwinds (who : Who) (rest : List Layer) (stack : p.stack t = .freeing who :: rest) :
      Stepped p t .unwinds (p.put t rest)

/-- A step that is taken is one of these. -/
theorem step_cases {p after : Process T} {t : T} {deed : Deed}
    (stepped : p.step (t, deed) = some after) : Stepped p t deed after := by
  cases deed <;> simp only [Process.step] at stepped
  case new =>
    split at stepped
    · next calls => exact .new after calls stepped
    · cases stepped
  case newPinned =>
    split at stepped
    · next calls => exact .newPinned after calls stepped
    · cases stepped
  case resume handle =>
    split at stepped
    · next calls =>
      split at stepped <;> cases stepped
      · next who parked => exact .starts handle who calls parked
      · next started => exact .resumes handle calls started
    · cases stepped
  case reply handle =>
    split at stepped <;> cases stepped
    next calls => exact .replies handle calls
  case free handle =>
    split at stepped <;> cases stepped
    next calls => exact .frees handle calls
  case reissue handles =>
    split at stepped <;> cases stepped
    next calls => exact .reissue handles calls
  case built =>
    split at stepped <;> cases stepped
    next who rest stack => exact .built who rest stack
  case buildPanicked =>
    split at stepped <;> cases stepped
    next who rest stack => exact .buildPanicked who rest stack
  case find =>
    split at stepped
    · next handle rest stack =>
      split at stepped <;> cases stepped
      · next who found => exact .finds handle who rest stack found
      · next error missing => exact .misses handle error rest stack missing
    · cases stepped
  case tryLock =>
    split at stepped
    · next handle who rest stack =>
      split at stepped
      · next locked =>
        cases stepped
        exact .busy handle who rest stack locked
      · next free =>
        have free := Bool.eq_false_of_not_eq_true free
        split at stepped <;> cases stepped
        · next poisoned =>
          obtain ⟨migrating, poisoned⟩ := Bool.and_eq_true_iff.mp poisoned
          exact .refuses handle who rest stack free (by simpa using migrating) poisoned
        · next sound =>
          exact .locks handle who rest stack free fun migrating => by simpa [migrating] using sound
    · cases stepped
  case finish =>
    split at stepped <;> cases stepped
    next handle who rest stack => exact .finishes handle who rest stack
  case panics =>
    split at stepped <;> cases stepped
    next handle who rest stack => exact .panics handle who rest stack
  case remove =>
    split at stepped
    · next handle who rest stack =>
      split at stepped <;> cases stepped
      · next pinned => exact .removesPinned handle who rest stack pinned
      · next migrating =>
        exact .removes handle who rest stack (Bool.eq_false_of_not_eq_true migrating)
    · cases stepped
  case unlock =>
    split at stepped <;> cases stepped
    · next handle who rest stack => exact .unlocks handle who rest stack
    · next handle who rest stack => exact .releases handle who rest stack
  case payloadPanicked poisons =>
    split at stepped <;> cases stepped
    next handle who rest stack => exact .payloadPanicked poisons handle who rest stack
  case left =>
    split at stepped <;> cases stepped
    · next who rest stack => exact .returns who rest stack
    · next who rest stack => exact .fails who .panicked rest stack (.inl rfl)
    · next who rest stack => exact .fails who .poisoned rest stack (.inr rfl)
    · next who rest stack => exact .freed who rest stack
  case unwinds =>
    split at stepped <;> cases stepped
    · next who exit rest stack => exact .unwinds who exit rest stack
    · next who rest stack => exact .freeUnwinds who rest stack

end

/-! ### Machines in their places -/

/-- The machine is the last to carry its handle, or an earlier one. -/
def Known (p : Process T) (who : Who) : Prop := who.turn ≤ (p.issued who.handle).turn

/-- What a layer says of its machine. -/
def Fits (p : Process T) : Layer → Prop
  | .building who => who.pinned = true ∧ p.Known who
  | .finding _ => True
  | .found handle who => who.handle = handle ∧ p.Known who
  | .running handle who => who.handle = handle ∧ p.Known who
  | .refused handle who => who.handle = handle ∧ who.pinned = false ∧ p.Known who
  | .caught handle who => who.handle = handle ∧ p.Known who
  | .removed handle who => who.handle = handle ∧ who.pinned = false ∧ p.Known who
  | .leaving who exit => (exit = .poisoned → who.pinned = false) ∧ p.Known who
  | .freeing who => p.Known who

/-- A handle is in one map at most, and a machine in the map for its kind, under its handle. -/
structure Placed (p : Process T) : Prop where
  exclusive : p.table.Exclusive
  issued : ∀ handle, (p.issued handle).handle = handle
  machines : ∀ handle who, p.machines handle = some who →
    who = p.issued handle ∧ who.pinned = false
  parked : ∀ handle who, p.parked handle = some who → who = p.issued handle ∧ who.pinned = true
  locals : ∀ t handle who, p.locals t handle = some who →
    who.handle = handle ∧ who.pinned = true ∧ p.Known who

/-- At most one call has a machine's lock, and at most one builds it. -/
structure Stacked (p : Process T) : Prop where
  layers : ∀ t, ∀ layer ∈ p.stack t, p.Fits layer
  history : ∀ event ∈ p.history, p.Known event.who
  locked : ∀ who, Stacks.Somewhere (Layer.locks who) p.stack → p.locked who = true
  sole : ∀ who, Stacks.Sole (Layer.locks who) p.stack
  builds : ∀ who, Stacks.Sole (Layer.builds who) p.stack
  unstarted : ∀ handle who, p.parked handle = some who →
    ¬ Stacks.Somewhere (Layer.builds who) p.stack

theorem placed_new : (new : Process T).Placed := by
  constructor
  · constructor
    · intro handle there
      cases there
    · intro handle there
      cases there
  · intro handle
    rfl
  · intro handle who there
    cases there
  · intro handle who there
    cases there
  · intro t handle who there
    cases there

theorem stacked_new : (new : Process T).Stacked := by
  constructor
  · intro t layer member
    cases member
  · intro event member
    cases member
  · rintro who ⟨t, layer, member, _⟩
    cases member
  · intro who
    exact Stacks.sole_nil _
  · intro who
    exact Stacks.sole_nil _
  · intro handle who there
    cases there

variable {p after : Process T}

theorem known_of_entry (stacked : p.Stacked) {t : T} {layer : Layer} (member : layer ∈ p.stack t)
    {who : Who} (entry : layer.entry = some who) : p.Known who := by
  have fits := stacked.layers t layer member
  cases layer <;> simp only [Layer.entry, Option.some.injEq, reduceCtorEq] at entry
  case building w => exact entry ▸ fits.2
  case found handle w => exact entry ▸ fits.2
  case running handle w => exact entry ▸ fits.2
  case caught handle w => exact entry ▸ fits.2
  case refused handle w => exact entry ▸ fits.2.2
  case removed handle w => exact entry ▸ fits.2.2
  case leaving w exit => exact entry ▸ fits.2
  case freeing w => exact entry ▸ fits

theorem Placed.parked_known (placed : p.Placed) {handle : Nat} {who : Who}
    (there : p.parked handle = some who) : who.handle = handle ∧ p.Known who := by
  obtain ⟨rfl, _⟩ := placed.parked handle who there
  have own := placed.issued handle
  exact ⟨own, by rw [Known, own]⟩

/-- What `find` finds is there. -/
theorem Placed.find [DecidableEq T] (placed : p.Placed) {t : T} {handle : Nat} {who : Who}
    (found : p.find t handle = .ok who) : who.handle = handle ∧ p.Known who ∧
      (p.machines handle = some who ∨
        p.locals t handle = some who ∧ p.pinned handle = some t) := by
  unfold Process.find at found
  split at found
  · next there =>
    cases found
    obtain ⟨rfl, _⟩ := placed.machines handle _ there
    have own := placed.issued handle
    exact ⟨own, by rw [Known, own], .inl there⟩
  · split at found
    · cases found
    · split at found
      · next owner pinned =>
        split at found
        · next own =>
          subst own
          split at found <;> cases found
          next there =>
            obtain ⟨own, _, known⟩ := placed.locals _ handle _ there
            exact ⟨own, known, .inr ⟨there, pinned⟩⟩
        · cases found
      · cases found

/-! ### What changes neither -/

theorem Placed.of_same (placed : p.Placed) (machines : after.machines = p.machines)
    (parked : after.parked = p.parked) (pinned : after.pinned = p.pinned)
    (locals : after.locals = p.locals) (issued : after.issued = p.issued) : after.Placed := by
  constructor
  case exclusive =>
    have same : after.table.machines = p.table.machines ∧ after.table.parked = p.table.parked ∧
        after.table.pinned = p.table.pinned := by
      simp only [Process.table, machines, parked, pinned, and_self]
    constructor
    · rw [same.1, same.2.1, same.2.2]
      exact placed.exclusive.machines
    · rw [same.2.1, same.2.2]
      exact placed.exclusive.parked
  case issued =>
    rw [issued]
    exact placed.issued
  case machines =>
    rw [machines, issued]
    exact placed.machines
  case parked =>
    rw [parked, issued]
    exact placed.parked
  case locals =>
    simp only [locals, Known, issued]
    exact placed.locals

/-- Entries taken out of the maps, or a machine put in its thread's. -/
theorem Placed.fewer (placed : p.Placed)
    (machines : ∀ handle who, after.machines handle = some who → p.machines handle = some who)
    (parked : ∀ handle who, after.parked handle = some who → p.parked handle = some who)
    (pinned : ∀ handle t, after.pinned handle = some t → p.pinned handle = some t)
    (locals : ∀ t handle who, after.locals t handle = some who → p.locals t handle = some who ∨
      who.handle = handle ∧ who.pinned = true ∧ p.Known who)
    (issued : after.issued = p.issued) : after.Placed := by
  constructor
  case exclusive =>
    apply placed.exclusive.moves
    -- each handle the table has, it had before
    apply Table.Moves.fewer
    · intro handle there
      obtain ⟨who, present⟩ := Option.isSome_iff_exists.mp there
      exact Option.isSome_iff_exists.mpr ⟨who, machines handle who present⟩
    · intro handle there
      obtain ⟨who, present⟩ := Option.isSome_iff_exists.mp there
      exact Option.isSome_iff_exists.mpr ⟨who, parked handle who present⟩
    · intro handle there
      obtain ⟨t, present⟩ := Option.isSome_iff_exists.mp there
      exact Option.isSome_iff_exists.mpr ⟨t, pinned handle t present⟩
  case issued =>
    rw [issued]
    exact placed.issued
  case machines =>
    intro handle who there
    rw [issued]
    exact placed.machines handle who (machines handle who there)
  case parked =>
    intro handle who there
    rw [issued]
    exact placed.parked handle who (parked handle who there)
  case locals =>
    intro t handle who there
    rw [Known, issued]
    exact (locals t handle who there).elim (placed.locals t handle who) id

theorem Stacked.of_maps (stacked : p.Stacked)
    (parked : ∀ handle who, after.parked handle = some who → p.parked handle = some who)
    (locked : after.locked = p.locked) (stack : after.stack = p.stack)
    (issued : after.issued = p.issued) (history : after.history = p.history) : after.Stacked := by
  have known : ∀ who, p.Known who → after.Known who := by
    intro who known
    rwa [Known, issued]
  constructor
  case layers =>
    rw [stack]
    intro t layer member
    have fits := stacked.layers t layer member
    cases layer <;> simp only [Fits, Known, issued] at fits ⊢ <;> exact fits
  case history =>
    rw [history]
    intro event member
    exact known _ (stacked.history event member)
  case locked =>
    rw [stack, locked]
    exact stacked.locked
  case sole =>
    rw [stack]
    exact stacked.sole
  case builds =>
    rw [stack]
    exact stacked.builds
  case unstarted =>
    intro handle who there
    rw [stack]
    exact stacked.unstarted handle who (parked handle who there)

theorem Stacked.happen (stacked : p.Stacked) (event : Occurrence) (known : p.Known event.who) :
    (p.happen event).Stacked := by
  constructor
  · exact stacked.layers
  · intro other member
    rcases List.mem_cons.mp member with rfl | member
    · exact known
    · exact stacked.history other member
  · exact stacked.locked
  · exact stacked.sole
  · exact stacked.builds
  · exact stacked.unstarted

/-- A machine known stays known when another is created. -/
theorem known_create {handle : Nat} {pinned : Bool} {who : Who} (known : p.Known who)
    (issued : after.issued =
      Function.update p.issued handle ⟨handle, (p.issued handle).turn + 1, pinned⟩) :
    after.Known who := by
  rw [Known, issued]
  by_cases own : who.handle = handle
  · rw [own, Function.update_self]
    rw [Known, own] at known
    exact Nat.le_succ_of_le known
  · rw [Function.update_of_ne own]
    exact known

theorem known_earlier {handle : Nat} {pinned : Bool} {who : Who} (known : p.Known who) :
    who ≠ ⟨handle, (p.issued handle).turn + 1, pinned⟩ := by
  rintro rfl
  exact absurd known (Nat.not_succ_le_self _)

theorem unused_maps {handle : Nat} (unused : p.table.inUse handle = false) :
    p.machines handle = none ∧ p.parked handle = none ∧ p.pinned handle = none := by
  obtain ⟨machines, parked, pinned⟩ := Table.inUse_eq_false.mp unused
  refine ⟨machines, parked, ?_⟩
  simpa [Process.table] using pinned

theorem of_update_pinned {f : Nat → Option T} {key handle : Nat} {t : T}
    (there : Function.update f key none handle = some t) : f handle = some t := by
  by_cases own : handle = key
  · simp [own] at there
  · rwa [Function.update_of_ne own] at there

variable [DecidableEq T]

/-- A thread changes its stack, and takes no lock and starts no constructor. -/
theorem Stacked.put (stacked : p.Stacked) {t : T} {layers : List Layer}
    (fits : ∀ layer ∈ layers, layer ∈ p.stack t ∨ p.Fits layer)
    (locks : ∀ who, layers.countP (Layer.locks who) ≤ (p.stack t).countP (Layer.locks who))
    (builds : ∀ who, layers.countP (Layer.builds who) ≤ (p.stack t).countP (Layer.builds who)) :
    (p.put t layers).Stacked := by
  constructor
  · exact Stacks.each_update stacked.layers t fits
  · exact stacked.history
  · intro who held
    exact stacked.locked who (Stacks.somewhere_update (locks who) held)
  · intro who
    exact (stacked.sole who).update t (locks who)
  · intro who
    exact (stacked.builds who).update t (builds who)
  · intro handle who there built
    exact stacked.unstarted handle who there (Stacks.somewhere_update (builds who) built)

/-- The innermost layer of a thread is replaced. -/
theorem Stacked.replace (stacked : p.Stacked) {t : T} {layer : Layer} {rest : List Layer}
    (stack : p.stack t = layer :: rest) (other : Layer) (fits : p.Fits layer → p.Fits other)
    (locks : ∀ who, other.locks who = true → layer.locks who = true)
    (builds : ∀ who, other.builds who = true → layer.builds who = true) :
    (p.put t (other :: rest)).Stacked := by
  apply stacked.put
  · intro l member
    rw [stack]
    rcases List.mem_cons.mp member with rfl | member
    · exact .inr (fits (stacked.layers t layer (by simp [stack])))
    · exact .inl (List.mem_cons_of_mem _ member)
  · intro who
    rw [stack, List.countP_cons, List.countP_cons]
    apply Nat.add_le_add_left
    by_cases holds : other.locks who = true
    · simp [holds, locks who holds]
    · simp [holds]
  · intro who
    rw [stack, List.countP_cons, List.countP_cons]
    apply Nat.add_le_add_left
    by_cases holds : other.builds who = true
    · simp [holds, builds who holds]
    · simp [holds]

theorem Stacked.push (stacked : p.Stacked) (t : T) (layer : Layer) (fits : p.Fits layer)
    (locks : ∀ who, layer.locks who = false) (builds : ∀ who, layer.builds who = false) :
    (p.put t (layer :: p.stack t)).Stacked := by
  apply stacked.put
  · intro l member
    rcases List.mem_cons.mp member with rfl | member
    · exact .inr fits
    · exact .inl member
  · intro who
    simp [locks who]
  · intro who
    simp [builds who]

theorem Stacked.pop (stacked : p.Stacked) {t : T} {layer : Layer} {rest : List Layer}
    (stack : p.stack t = layer :: rest) : (p.put t rest).Stacked := by
  apply stacked.put
  · intro l member
    rw [stack]
    exact .inl (List.mem_cons_of_mem _ member)
  · intro who
    simp [stack, List.countP_cons]
  · intro who
    simp [stack, List.countP_cons]

/-- A call takes the lock it tried. -/
theorem Stacked.lock (stacked : p.Stacked) {t : T} {handle : Nat} {who : Who} {rest : List Layer}
    (stack : p.stack t = .found handle who :: rest) (free : p.locked who = false) (other : Layer)
    (locks : ∀ w, other.locks w = decide (w = who)) (builds : ∀ w, other.builds w = false)
    (fits : p.Fits other) :
    ({ p with locked := Function.update p.locked who true }.put t (other :: rest)).Stacked := by
  -- nobody had it, or it would have been locked
  have unheld : ¬ Stacks.Somewhere (Layer.locks who) p.stack := by
    intro held
    rw [stacked.locked who held] at free
    cases free
  have beneath : rest.countP (Layer.locks who) = 0 := by
    by_contra held
    apply unheld
    rw [Stacks.somewhere_iff]
    refine ⟨t, ?_⟩
    rw [stack, List.countP_cons]
    omega
  -- each other lock is held as it was
  have others : ∀ w, w ≠ who → (other :: rest).countP (Layer.locks w) ≤
      (p.stack t).countP (Layer.locks w) := by
    intro w apart
    simp [stack, List.countP_cons, locks, apart]
  constructor
  case layers =>
    refine Stacks.each_update stacked.layers t fun l member => ?_
    rw [stack]
    rcases List.mem_cons.mp member with rfl | member
    · exact .inr fits
    · exact .inl (List.mem_cons_of_mem _ member)
  case history => exact stacked.history
  case locked =>
    intro w held
    by_cases own : w = who
    · subst own
      exact Function.update_self _ _ _
    · refine (Function.update_of_ne own _ _).trans ?_
      exact stacked.locked w (Stacks.somewhere_update (others w own) held)
  case sole =>
    intro w
    by_cases own : w = who
    · subst own
      -- the first to hold it, and only once
      apply Stacks.sole_first unheld
      simp [beneath, locks]
    · exact (stacked.sole w).update t (others w own)
  case builds =>
    intro w
    apply (stacked.builds w).update
    simp [stack, List.countP_cons, builds]
  case unstarted =>
    intro h w there built
    refine stacked.unstarted h w there (Stacks.somewhere_update ?_ built)
    simp [stack, List.countP_cons, builds]

/-- A call releases the lock it holds. -/
theorem Stacked.unlock (stacked : p.Stacked) {t : T} {layer : Layer} {rest : List Layer}
    (stack : p.stack t = layer :: rest) (who : Who) (holds : layer.locks who = true) (exit : Exit)
    (refused : exit = .poisoned → who.pinned = false) :
    ({ p with locked := Function.update p.locked who false }.put t
        (.leaving who exit :: rest)).Stacked ∧
      ¬ Stacks.Somewhere (Layer.locks who)
        (Function.update p.stack t (.leaving who exit :: rest)) := by
  -- the layer on top was the only one to hold the lock
  have had : (p.stack t).countP (Layer.locks who) = rest.countP (Layer.locks who) + 1 := by
    simp [stack, holds]
  have beneath : rest.countP (Layer.locks who) = 0 := by
    have once := (stacked.sole who).once t
    omega
  have released : ¬ Stacks.Somewhere (Layer.locks who)
      (Function.update p.stack t (.leaving who exit :: rest)) := by
    apply (stacked.sole who).last
    · omega
    · simp [beneath, Layer.locks]
  -- the layers are sound as they are; only what is locked remains to be seen
  have replaced : (p.put t (.leaving who exit :: rest)).Stacked := by
    apply stacked.replace stack (.leaving who exit)
    · intro fits
      cases layer <;> simp [Layer.locks] at holds <;> subst holds <;> simp_all [Fits]
    · intro w never
      cases never
    · intro w never
      cases never
  refine ⟨⟨replaced.layers, replaced.history, ?_, replaced.sole, replaced.builds,
    replaced.unstarted⟩, released⟩
  intro w held
  by_cases own : w = who
  · subst own
    exact absurd held released
  · exact (Function.update_of_ne own _ _).trans (replaced.locked w held)

/-! ### Creating and freeing -/

/-- Creating a machine puts it in its map, and its handle to use. -/
theorem create_spec {t : T} {pinned : Bool} (created : p.create t pinned = some after) :
    ∃ handle next reissue, p.table.inUse handle = false ∧ after = { p with
      machines := if pinned then p.machines
        else Function.update p.machines handle (some ⟨handle, (p.issued handle).turn + 1, pinned⟩)
      parked := if pinned then
          Function.update p.parked handle (some ⟨handle, (p.issued handle).turn + 1, pinned⟩)
        else p.parked
      next, reissue
      issued := Function.update p.issued handle ⟨handle, (p.issued handle).turn + 1, pinned⟩ } := by
  obtain ⟨⟨handle, table, rest⟩, issued, rfl⟩ := Option.map_eq_some_iff.mp created
  exact ⟨handle, table.next, Function.update p.reissue t rest, (Table.issue_spec issued).1, rfl⟩

theorem Placed.create (placed : p.Placed) {t : T} {pinned : Bool}
    (created : p.create t pinned = some after) : after.Placed := by
  obtain ⟨fresh, next, reissue, unused, rfl⟩ := create_spec created
  obtain ⟨noMachine, notParked, notPinned⟩ := unused_maps unused
  constructor
  case exclusive =>
    apply placed.exclusive.moves
    apply Table.Moves.comes fresh unused
    -- a pinned machine is parked, and any other is in `machines`
    · cases pinned
      · exact .inr notParked
      · exact .inl noMachine
    · intro other apart
      cases pinned <;> simp [Process.table, Function.update_of_ne apart]
    · rfl
  case issued =>
    intro handle
    -- under the fresh handle is the new machine; the rest is as it was
    by_cases own : handle = fresh
    · simp [own]
    · simp [Function.update_of_ne own, placed.issued handle]
  case machines =>
    intro handle who there
    by_cases own : handle = fresh
    · subst own
      cases pinned <;> simp [noMachine] at there
      simp [← there]
    · have before : p.machines handle = some who := by
        cases pinned <;> simpa [Function.update_of_ne own] using there
      simpa [Function.update_of_ne own] using placed.machines handle who before
  case parked =>
    intro handle who there
    by_cases own : handle = fresh
    · subst own
      cases pinned <;> simp [notParked] at there
      simp [← there]
    · have before : p.parked handle = some who := by
        cases pinned <;> simpa [Function.update_of_ne own] using there
      simpa [Function.update_of_ne own] using placed.parked handle who before
  case locals =>
    intro u handle who there
    obtain ⟨own, kind, known⟩ := placed.locals u handle who there
    exact ⟨own, kind, known_create known rfl⟩

theorem Stacked.create (stacked : p.Stacked) {t : T} {pinned : Bool}
    (created : p.create t pinned = some after) : after.Stacked := by
  obtain ⟨fresh, next, reissue, unused, rfl⟩ := create_spec created
  constructor
  case layers =>
    intro u layer member
    have fits := stacked.layers u layer member
    cases layer with
    | finding handle => trivial
    | building who => exact ⟨fits.1, known_create fits.2 rfl⟩
    | found handle who => exact ⟨fits.1, known_create fits.2 rfl⟩
    | running handle who => exact ⟨fits.1, known_create fits.2 rfl⟩
    | caught handle who => exact ⟨fits.1, known_create fits.2 rfl⟩
    | refused handle who => exact ⟨fits.1, fits.2.1, known_create fits.2.2 rfl⟩
    | removed handle who => exact ⟨fits.1, fits.2.1, known_create fits.2.2 rfl⟩
    | leaving who exit => exact ⟨fits.1, known_create fits.2 rfl⟩
    | freeing who => exact known_create fits rfl
  case history =>
    intro event member
    exact known_create (stacked.history event member) rfl
  case locked => exact stacked.locked
  case sole => exact stacked.sole
  case builds => exact stacked.builds
  case unstarted =>
    intro handle who there
    by_cases own : handle = fresh
    · subst own
      -- nothing builds a machine just created
      rintro ⟨u, layer, member, builds⟩
      have fits := stacked.layers u layer member
      cases layer <;> simp [Layer.builds] at builds
      subst builds
      cases pinned with
      | false => simp [(unused_maps unused).2.1] at there
      | true =>
        simp at there
        exact known_earlier fits.2 there.symm
    · have before : p.parked handle = some who := by
        cases pinned <;> simpa [Function.update_of_ne own] using there
      exact stacked.unstarted handle who before

/-- A free takes the machine out of its map, or is refused. -/
theorem free_cases (p : Process T) (t : T) (handle : Nat) :
    p.free t handle = p ∨
    (((p.machines handle).isSome ∨ (p.parked handle).isSome) ∧ p.free t handle = { p with
      machines := Function.update p.machines handle none
      parked := Function.update p.parked handle none }.put t
        (.freeing (p.issued handle) :: p.stack t)) ∨
    (p.machines handle = none ∧ p.parked handle = none ∧ p.pinned handle = some t ∧
      p.free t handle = { p with
        pinned := Function.update p.pinned handle none
        locals := Function.update p.locals t (Function.update (p.locals t) handle none) }.put t
        (.freeing (p.issued handle) :: p.stack t)) := by
  unfold Process.free
  split
  · next there => exact .inr (.inl ⟨by simpa using there, rfl⟩)
  · next absent =>
    split
    · next pinned =>
      simp at absent
      exact .inr (.inr ⟨absent.1, absent.2, pinned, rfl⟩)
    · exact .inl rfl

theorem of_update_locals {locals : T → Nat → Option Who} {t u : T} {key handle : Nat} {who : Who}
    (there : Function.update locals t (Function.update (locals t) key none) u handle = some who) :
    locals u handle = some who := by
  by_cases own : u = t
  · subst own
    rw [Function.update_self] at there
    exact Thread.of_update_none there
  · rwa [Function.update_of_ne own] at there

theorem Placed.free (placed : p.Placed) (t : T) (handle : Nat) : (p.free t handle).Placed := by
  rcases p.free_cases t handle with same | ⟨_, same⟩ | ⟨_, _, _, same⟩
  · rwa [same]
  · rw [same]
    exact placed.fewer (fun _ _ => Thread.of_update_none) (fun _ _ => Thread.of_update_none)
      (fun _ _ => id) (fun _ _ _ => .inl) rfl
  · rw [same]
    exact placed.fewer (fun _ _ => id) (fun _ _ => id) (fun _ _ => of_update_pinned)
      (fun _ _ _ there => .inl (of_update_locals there)) rfl

theorem Stacked.free (stacked : p.Stacked) (placed : p.Placed) (t : T) (handle : Nat) :
    (p.free t handle).Stacked := by
  have known : p.Known (p.issued handle) := by
    rw [Known, placed.issued]
  have pushed := stacked.push t (.freeing (p.issued handle)) known (fun _ => rfl)
    fun _ => rfl
  rcases p.free_cases t handle with same | ⟨_, same⟩ | ⟨_, _, _, same⟩
  · rwa [same]
  · rw [same]
    exact pushed.of_maps (fun _ _ => Thread.of_update_none) rfl rfl rfl rfl
  · rw [same]
    exact pushed.of_maps (fun _ _ => id) rfl rfl rfl rfl

/-! ### Every step -/

theorem Placed.step (placed : p.Placed) (stacked : p.Stacked) {t : T} {deed : Deed}
    (stepped : p.step (t, deed) = some after) : after.Placed := by
  cases step_cases stepped with
  | new _ _ created => exact placed.create created
  | newPinned _ _ created => exact placed.create created
  | starts handle who _ there =>
    constructor
    · apply placed.exclusive.moves
      apply Table.Moves.starts handle
      · simp [Process.table, there]
      · rfl
      · rfl
      · funext other
        by_cases own : other = handle
        · simp [Process.table, Process.put, own]
        · simp [Process.table, Process.put, own]
    · exact placed.issued
    · exact placed.machines
    · intro other w present
      exact placed.parked other w (Thread.of_update_none present)
    · exact placed.locals
  | frees handle => exact placed.free t handle
  | built who rest stack =>
    refine placed.fewer (fun _ _ => id) (fun _ _ => id) (fun _ _ => id) ?_ rfl
    intro u handle w there
    by_cases own : u = t
    · subst own
      simp only [Process.put, Function.update_self] at there
      rcases Thread.at_update there with before | ⟨rfl, rfl⟩
      · exact .inl before
      · have fits := stacked.layers u (.building w) (by simp [stack])
        exact .inr ⟨rfl, fits.1, fits.2⟩
    · simp only [Process.put, Function.update_of_ne own] at there
      exact .inl there
  | buildPanicked =>
    exact placed.fewer (fun _ _ => id) (fun _ _ => id) (fun _ _ => of_update_pinned)
      (fun _ _ _ => .inl) rfl
  | removesPinned =>
    exact placed.fewer (fun _ _ => id) (fun _ _ => id) (fun _ _ => of_update_pinned)
      (fun _ _ _ there => .inl (of_update_locals there)) rfl
  | removes =>
    exact placed.fewer (fun _ _ => Thread.of_update_none) (fun _ _ => id) (fun _ _ => id)
      (fun _ _ _ => .inl) rfl
  -- no map changes
  | _ => exact placed.of_same rfl rfl rfl rfl rfl

/-- A parked machine's constructor begins, and no other runs for it. -/
theorem Stacked.start (stacked : p.Stacked) (placed : p.Placed) {handle : Nat} {who : Who}
    (there : p.parked handle = some who) (t : T) : Stacked ({ p with
      parked := Function.update p.parked handle none
      pinned := Function.update p.pinned handle (some t) }.put t (.building who :: p.stack t)) := by
  -- while it was parked nobody was building it
  have unbuilt := stacked.unstarted handle who there
  obtain ⟨own, known⟩ := placed.parked_known there
  have beneath : (p.stack t).countP (Layer.builds who) = 0 := by
    by_contra built
    exact unbuilt (Stacks.somewhere_iff.mpr ⟨t, Nat.pos_of_ne_zero built⟩)
  have others : ∀ w, w ≠ who → (Layer.building who :: p.stack t).countP (Layer.builds w) ≤
      (p.stack t).countP (Layer.builds w) := by
    intro w other
    simp [Layer.builds, other.symm]
  constructor
  case layers =>
    apply Stacks.each_update stacked.layers
    intro layer member
    rcases List.mem_cons.mp member with rfl | member
    · exact .inr ⟨(placed.parked handle who there).2, known⟩
    · exact .inl member
  case history => exact stacked.history
  case locked =>
    intro w held
    refine stacked.locked w (Stacks.somewhere_update ?_ held)
    simp [Layer.locks]
  case sole =>
    intro w
    apply (stacked.sole w).update
    simp [Layer.locks]
  case builds =>
    intro w
    by_cases own : w = who
    · subst own
      -- the first to build it, and only once
      apply Stacks.sole_first unbuilt
      simp [beneath, Layer.builds]
    · exact (stacked.builds w).update t (others w own)
  case unstarted =>
    intro other w present
    have before := Thread.of_update_none present
    -- what is parked still is another machine
    have apart : w ≠ who := by
      rintro rfl
      have same := (placed.parked_known before).1.symm.trans own
      subst same
      simp [Process.put] at present
    intro built
    exact stacked.unstarted other w before (Stacks.somewhere_update (others w apart) built)

theorem Stacked.step (stacked : p.Stacked) (placed : p.Placed) {t : T} {deed : Deed}
    (stepped : p.step (t, deed) = some after) : after.Stacked := by
  cases step_cases stepped with
  | new _ _ created => exact stacked.create created
  | newPinned _ _ created => exact stacked.create created
  | starts handle who _ there => exact stacked.start placed there t
  | resumes handle | replies handle =>
    exact stacked.push t (.finding handle) trivial (fun _ => rfl) fun _ => rfl
  | frees handle => exact stacked.free placed t handle
  | reissue => exact stacked.of_maps (fun _ _ => id) rfl rfl rfl rfl
  | built who rest stack =>
    have replaced := stacked.replace stack (.finding who.handle) (fun _ => trivial)
      nofun nofun
    exact replaced.of_maps (fun _ _ => id) rfl rfl rfl rfl
  | buildPanicked who rest stack =>
    have fits := stacked.layers t (.building who) (by simp [stack])
    have replaced := stacked.replace stack (.leaving who .panicked) (fun _ => ⟨nofun, fits.2⟩) nofun
      nofun
    exact replaced.of_maps (fun _ _ => id) rfl rfl rfl rfl
  | finds handle who rest stack found =>
    obtain ⟨own, known, _⟩ := placed.find found
    exact stacked.replace stack (.found handle who) (fun _ => ⟨own, known⟩) nofun nofun
  | misses handle error rest stack => exact stacked.pop stack
  | busy handle who rest stack =>
    have fits := stacked.layers t (.found handle who) (by simp [stack])
    exact stacked.replace stack (.leaving who .returned) (fun _ => ⟨nofun, fits.2⟩) nofun nofun
  | refuses handle who rest stack free migrating =>
    have fits := stacked.layers t (.found handle who) (by simp [stack])
    exact stacked.lock stack free (.refused handle who) (by simp [Layer.locks, eq_comm])
      (fun _ => rfl) ⟨fits.1, migrating, fits.2⟩
  | locks handle who rest stack free =>
    have fits := stacked.layers t (.found handle who) (by simp [stack])
    exact (stacked.lock stack free (.running handle who) (by simp [Layer.locks, eq_comm])
      (fun _ => rfl) fits).happen (.began who) fits.2
  | finishes handle who rest stack =>
    exact (stacked.unlock stack who (by simp [Layer.locks]) .returned nofun).1
  | panics handle who rest stack =>
    have fits := stacked.layers t (.running handle who) (by simp [stack])
    have replaced := stacked.replace stack (.caught handle who) (fun _ => fits)
      (fun _ => id) nofun
    exact replaced.happen (.panicked who) fits.2
  | removesPinned handle who rest stack =>
    have fits := stacked.layers t (.caught handle who) (by simp [stack])
    have unlocked := (stacked.unlock stack who (by simp [Layer.locks]) .panicked nofun).1
    have told := unlocked.happen (.unlocked who) fits.2
    exact told.of_maps (fun _ _ => id) rfl rfl rfl rfl
  -- the lock is held until the machine is out of the table
  | removes handle who rest stack migrating =>
    have fits := stacked.layers t (.caught handle who) (by simp [stack])
    have replaced := stacked.replace stack (.removed handle who)
      (fun _ => ⟨fits.1, migrating, fits.2⟩) (fun _ => id) nofun
    exact replaced.of_maps (fun _ _ => id) rfl rfl rfl rfl
  | unlocks handle who rest stack =>
    have fits := stacked.layers t (.removed handle who) (by simp [stack])
    exact (stacked.unlock stack who (by simp [Layer.locks]) .panicked nofun).1.happen
      (.unlocked who) fits.2.2
  | releases handle who rest stack =>
    have fits := stacked.layers t (.refused handle who) (by simp [stack])
    exact (stacked.unlock stack who (by simp [Layer.locks]) .poisoned fun _ => fits.2.1).1
  | payloadPanicked poisons handle who rest stack =>
    have fits := stacked.layers t (.caught handle who) (by simp [stack])
    have unlocked := (stacked.unlock stack who (by simp [Layer.locks]) .unwinding nofun).1
    have told := unlocked.happen (.unwound who) fits.2
    exact told.of_maps (fun _ _ => id) rfl rfl rfl rfl
  | returns who rest stack => exact stacked.pop stack
  | fails who exit rest stack =>
    have fits := stacked.layers t (.leaving who exit) (by simp [stack])
    exact (stacked.pop stack).happen (.failed who) fits.2
  | freed who rest stack =>
    have fits := stacked.layers t (.freeing who) (by simp [stack])
    exact (stacked.pop stack).happen (.freed who) fits
  | unwinds who exit rest stack => exact stacked.pop stack
  | freeUnwinds who rest stack => exact stacked.pop stack

end Process

end SansEffort
