import SansEffort.Python

/-!
# What a Python host does

The same host's reply records, the little world that its effects read and change, and its loop: a
small scheduler over all the machines that it has been told of. It takes its actions oldest first,
or with a seed from a machine chosen at random (`demo/driven/python/main.py`).
-/

namespace SansEffort.Python

open Boundary

/-! ### Reply records -/

/-- `struct.pack` of a number, in `n` bytes. -/
def pack (n v : Nat) : Except Raised Bytes :=
  if v < 256 ^ n then .ok (toLeBytes n v) else .error .unpack

/-- Bytes with their length in front. -/
def packed (b : Bytes) : Except Raised Bytes := do return (← pack 4 b.length) ++ b

def replyStr (id : Nat) (s : String) : Except Raised Bytes := do
  return 1 :: ((← pack 8 id) ++ (← packed (utf8 s)))

def replyU64 (id n : Nat) : Except Raised Bytes := do
  return 2 :: ((← pack 8 id) ++ (← pack 8 n))

def replyUnit (id : Nat) : Except Raised Bytes := do
  return 3 :: (← pack 8 id)

def replyBytes (id : Nat) (b : Bytes) : Except Raised Bytes := do
  return 4 :: ((← pack 8 id) ++ (← packed b))

/-- An encoded `Result<String, ReadLineError>`. -/
def readLineReply (id : Nat) : Option String → Except Raised Bytes
  | none => replyBytes id [1, 0]
  | some line => do replyBytes id (0 :: (← packed (utf8 line)))

/-- An encoded `Option<String>`. -/
def someStr : Option String → Except Raised Bytes
  | none => return [0]
  | some s => return 1 :: (← packed (utf8 s))

/-- An encoded `Result<Vec<u8>, FsError>`. -/
def okBytes : Option Bytes → Except Raised Bytes
  | none => return [1, 0]
  | some b => return 0 :: (← packed b)

/-! ### The world -/

def GREETINGS : List (String × String) := [("alice", "Hello"), ("bob", "Hi"), ("carol", "Hey")]

def ENVIRONMENT : List (String × String) := [("JOURNAL", "notes.txt")]

def EPOCH_MILLIS : Nat := 1700000000000

/-- What the effects read and change, and the time. -/
structure World where
  lines : List String
  written : List String
  greeted : Nat
  files : String → Option Bytes
  readings : Nat
  nextByte : Nat
  now : Nat

namespace World

def new (script : List String) : World := ⟨script, [], 0, fun _ => none, 0, 0, 0⟩

/-- The reading of the clock, in nanoseconds. -/
def nanos (w : World) : Nat := (EPOCH_MILLIS + 1000 * w.readings) * 1000000

/-- The next `len` random bytes. -/
def bytes (w : World) (len : Nat) : Bytes :=
  (List.range len).map fun i => UInt8.ofNat ((w.nextByte + i) % 256)

/-- The record that replies to a request, and the world after it. The loop deals with the other
effects. -/
def answer (w : World) : View → Except Raised (Bytes × World)
  | .readLine id => return (← readLineReply id w.lines.head?, { w with lines := w.lines.tail })
  | .lookup name id => return (← replyStr id ((GREETINGS.lookup name).getD "Greetings"), w)
  | .count id => return (← replyU64 id (w.greeted + 1), { w with greeted := w.greeted + 1 })
  | .now id => return (← replyU64 id w.nanos, { w with readings := w.readings + 1 })
  | .random len id =>
    return (← replyBytes id (w.bytes len.toNat), { w with nextByte := (w.nextByte + len.toNat) % 256 })
  | .var name id => return (← replyBytes id (← someStr (ENVIRONMENT.lookup name)), w)
  | .readFile path id => return (← replyBytes id (← okBytes (w.files path)), w)
  | .writeFile path bytes id =>
    return (← replyBytes id [0], { w with files := Function.update w.files path (some bytes) })
  | _ => throw .unbound

end World

/-! ### The loop -/

/-- The C ABI, over all of its machines. -/
structure Lib (L : Type) where
  resume : L → Nat → Coded × L
  reply : L → Nat → Bytes → Coded × L
  wakes : L → Bytes × L

/-- `random.Random`: a chance, and a choice of one index below a length. -/
structure Rng (R : Type) where
  eighth : R → Bool × R
  choice : Nat → R → Nat × R
  choice_lt : ∀ n r, 0 < n → (choice n r).1 < n

/-- A machine's effects stay in order; a deferred reply, and what `wakes` names, have a lane of
their own. -/
inductive Lane
  | machine (handle : Nat)
  | reply (handle id : Nat)
  | woke (handle : Nat)
  deriving DecidableEq

/-- An effect, or a reply to be made. -/
inductive Item
  | effect (e : Effect)
  | reply (id : Nat) (record : Bytes)

/-- `e.get("id")`. -/
def Item.id : Item → Option Nat
  | .effect (.of view) =>
    match view with
    | .writeLine _ | .spawned _ | .spawnedPinned _ => none
    | view => some view.number
  | .effect (.closed id) => some id
  | .effect (.woke _) => none
  | .reply id _ => some id

structure Timer where
  due : Nat
  order : Nat
  handle : Nat
  id : Nat
  deriving DecidableEq

/-- `heappush`. The least timer is first; no two have the same `order`. -/
def push (timer : Timer) : List Timer → List Timer
  | [] => [timer]
  | first :: rest =>
    if timer.due < first.due ∨ timer.due = first.due ∧ timer.order < first.order then
      timer :: first :: rest
    else first :: push timer rest

/-- `drive`'s variables. `rng` is there if there is a seed. -/
structure Host (L R : Type) where
  lib : L
  rng : Option R
  queue : List (Lane × Nat × Item)
  machines : List (Nat × Status)
  closed : List (Nat × Nat)
  timers : List Timer
  order : Nat
  world : World

/-- `machines[handle] = status`. -/
def assign (handle : Nat) (status : Status) : List (Nat × Status) → List (Nat × Status)
  | [] => [(handle, status)]
  | (other, old) :: rest =>
    if other = handle then (handle, status) :: rest else (other, old) :: assign handle status rest

namespace Host

variable {L R : Type}

/-- A closed id is noted now; the rest waits its turn. -/
def note (handle : Nat) (host : Host L R) : Effect → Host L R
  | .closed id => { host with closed := (handle, id) :: host.closed }
  | e => { host with queue := host.queue ++ [(.machine handle, handle, .effect e)] }

/-- `ran`. -/
def ran (handle : Nat) (result : Coded × L) (host : Host L R) : Except Raised (Host L R) :=
  match result with
  | (.error error, _) => throw (.failed error.code)
  | (.ok (data, status), lib) => do
    let effects ← decode data
    return effects.foldl (note handle)
      { host with lib, machines := assign handle status host.machines }

def live (host : Host L R) : List Nat :=
  (host.machines.filter (·.2 ≠ .complete)).map Prod.fst

/-- The places of the oldest action of each lane. -/
def eligible (host : Host L R) : List Nat :=
  (List.range host.queue.length).filter fun i =>
    ((host.queue.take i).map Prod.fst).all fun lane => some lane ≠ (host.queue[i]?).map Prod.fst

/-- With a seed, a machine is sometimes resumed for no reason. -/
def stutter (lib : Lib L) (rng : Rng R) (r : R) (host : Host L R) : Except Raised (R × Host L R) :=
  if host.live = [] then return (r, host)
  else
    let (stutters, r) := rng.eighth r
    if stutters then do
      let (i, r) := rng.choice host.live.length r
      let handle := host.live.getD i 0
      return (r, ← host.ran handle (lib.resume host.lib handle))
    else return (r, host)

/-- The next action: the oldest, or the oldest of a lane chosen at random. `none` if the queue has
none. -/
def take (lib : Lib L) (rng : Rng R) (host : Host L R) :
    Except Raised (Option (Nat × Item) × Host L R) :=
  match host.rng with
  | none => return (host.queue.head?.map Prod.snd, { host with queue := host.queue.tail })
  | some r => do
    let (r, host) ← host.stutter lib rng r
    let (k, r) := rng.choice host.eligible.length r
    let at_ := host.eligible.getD k 0
    return ((host.queue[at_]?).map Prod.snd,
      { host with rng := some r, queue := host.queue.eraseIdx at_ })

/-- The loop's handling of one item. -/
def perform (lib : Lib L) (handle : Nat) (host : Host L R) : Item → Except Raised (Host L R)
  | .reply _ record => host.ran handle (lib.reply host.lib handle record)
  | .effect (.woke other) =>
    match host.machines.lookup other with
    | some status =>
      if status = .complete then return host else host.ran other (lib.resume host.lib other)
    | none => return host
  | .effect (.of (.writeLine text)) =>
    return { host with world.written := host.world.written ++ [text] }
  | .effect (.of (.spawned child)) | .effect (.of (.spawnedPinned child)) =>
    host.ran child (lib.resume host.lib child)
  | .effect (.of (.sleep millis id)) =>
    return { host with
      timers := push ⟨host.world.now + millis.toNat, host.order, handle, id⟩ host.timers
      order := host.order + 1 }
  | .effect (.of view) => do
    let (record, world) ← host.world.answer view
    match host.rng with
    | none => ran handle (lib.reply host.lib handle record) { host with world }
    | some _ => return { host with
        world
        queue := host.queue ++ [(.reply handle view.number, handle, .reply view.number record)] }
  | .effect (.closed _) => throw .unbound

/-- Timers whose sleeps were given up are dropped. -/
def due (host : Host L R) : List Timer :=
  host.timers.dropWhile fun timer => (timer.handle, timer.id) ∈ host.closed

/-- One turn of the loop. The flag says whether the loop goes on. -/
def turn (lib : Lib L) (rng : Rng R) (host : Host L R) : Except Raised (Host L R × Bool) :=
  if host.queue = [] then do
    let (data, after) := lib.wakes host.lib
    let host := { host with lib := after }
    let woken ← decode data
    if woken ≠ [] then do
      let handles ← woken.mapM fun
        | .woke handle => pure handle
        | .of (.spawned handle) | .of (.spawnedPinned handle) => pure handle
        | _ => throw .key
      return ({ host with
        queue := (handles.zip woken).map fun (handle, e) => (.woke handle, 0, .effect e) }, true)
    else
      match host.due with
      | [] => return ({ host with timers := [] }, false)
      | timer :: rest => do
        let host := { host with timers := rest, world.now := timer.due }
        let record ← replyUnit timer.id
        return (← host.ran timer.handle (lib.reply host.lib timer.handle record), true)
  else do
    let (taken, host) ← host.take lib rng
    match taken with
    | none => return (host, true)
    | some (handle, item) =>
      if item.id.any fun id => (handle, id) ∈ host.closed then return (host, true)
      else return (← host.perform lib handle item, true)

/-- The host after a number of turns. The flag says whether the loop goes on. -/
def after (lib : Lib L) (rng : Rng R) : Nat → Host L R → Except Raised (Host L R × Bool)
  | 0, host => return (host, true)
  | k + 1, host => do
    let (host, going) ← host.after lib rng k
    if going then host.turn lib rng else return (host, false)

/-- The lines it wrote, or `Stalled` if a machine has not completed. -/
def verdict (host : Host L R) : Except Raised (List String) :=
  if host.live = [] then return host.world.written else throw (.stalled host.live.length)

/-- The start of `drive`: the root is resumed. -/
def begin (lib : Lib L) (root : Nat) (w : World) (seed : Option R) (l : L) :
    Except Raised (Host L R) :=
  Host.ran root (lib.resume l root) ⟨l, seed, [], [], [], [], 0, w⟩

end Host

/-- `drive` for `turns` turns of its loop: `none` if the loop still goes on. -/
def drive {L R : Type} (lib : Lib L) (rng : Rng R) (root : Nat) (script : List String)
    (seed : Option R) (l : L) (turns : Nat) : Option (Except Raised (List String)) :=
  match (do (← Host.begin lib root (.new script) seed l).after lib rng turns) with
  | .error raised => some (.error raised)
  | .ok (host, going) => if going then none else some host.verdict

end SansEffort.Python
