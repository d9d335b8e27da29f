import SansEffort.Driver
import SansEffort.Library.Coupling

/-!
# Routines built from asks

Futures put together from tells, asks, receives in the process, sequencing, `join` and `select`
(`join.rs`, `select.rs`), and how a driver polls them. An ask is awaited directly, or in an adapter
that decides when to poll it.
-/

namespace SansEffort

variable {E H M S L W : Type} {own : Waker}

open Coupling

/-- What a future returns. -/
inductive Out (M : Type)
  | unit
  | reply (value : Value)
  | message (m : M)
  | both (a b : Out M)
  | left (a : Out M)
  | right (b : Out M)
  deriving DecidableEq

/-- An adapter around a request's future, with `S` its state, polled with the driver's own waker.
It polls the request when it is due: the first time, and once a waker it handed it has fired. Its
wakers are its own. Whether it also polls the request at other times is up to it, and so is
whether a waker that fires wakes its parent every time. -/
structure Adapter (S : Type) (own : Waker) where
  start : S
  /-- Polled with a waker: the one to poll the request with, if it is to be polled. -/
  poll : S → Waker → Option Waker × S
  /-- One of its wakers has fired: whether to wake the waker it was last polled with. -/
  fire : S → Waker → Bool × S
  handed : S → List Waker
  due : S → Bool
  starts : due start = true
  polls : ∀ s, due s = true → (poll s own).1.isSome = true
  hands : ∀ s w, (poll s own).1 = some w → w ≠ own ∧ w ∈ handed (poll s own).2
  keeps_polled : ∀ s, handed s ⊆ handed (poll s own).2
  keeps_fired : ∀ s v, handed s ⊆ handed (fire s v).2
  fires : ∀ s w, w ∈ handed s → due (fire s w).2 = true
  stays : ∀ s w, due s = true → due (fire s w).2 = true

/-- `WhenWoken`'s flag. -/
structure Flag where
  set : Bool
  parent : Option Waker

/-- `WhenWoken`: it polls its request on the first poll, and after that only once `flag` has fired.
A flag that fires wakes the waker it was last polled with, once. -/
def whenWoken (flag : Waker) (foreign : flag ≠ own) : Adapter Flag own where
  start := ⟨true, none⟩
  poll s waker := (if s.set then some flag else none, ⟨false, some waker⟩)
  fire s _ := (s.parent.isSome, ⟨true, none⟩)
  handed _ := [flag]
  due s := s.set
  starts := rfl
  polls s due := by
    rw [if_pos due]
    rfl
  hands s w polled := by
    split at polled
    · cases polled
      exact ⟨foreign, List.mem_cons_self⟩
    · cases polled
  keeps_polled _ := List.Subset.refl _
  keeps_fired _ _ := List.Subset.refl _
  fires _ _ _ := rfl
  stays _ _ _ := rfl

/-- A future not polled yet. The effect of an ask is built by `make`, which panics by returning
`none`. `call` runs a part of the routine again, and so lets it go on for ever. -/
inductive Task (E M S L : Type) (own : Waker)
  | ret (result : Out M)
  | tell (effect : E)
  | ask (adapter : Option (Adapter S own)) (answer : Answer) (make : ReplyHandle → Option E)
  | receive (place : Nat)
  | bind (first : Task E M S L own) (next : Out M → Task E M S L own)
  | join (a b : Task E M S L own)
  | select (a b : Task E M S L own)
  | call (name : L)

/-- How a request is awaited: directly, or in an adapter. -/
abbrev Awaited (S : Type) (own : Waker) := Option (Adapter S own × S)

/-- A future that has been polled and is suspended. A side of a `join` that has finished is its
result. -/
inductive Fut (E M S L : Type) (own : Waker)
  | asked (awaited : Awaited S own) (id : Nat)
  | receiving (place : Nat)
  | bind (first : Fut E M S L own) (next : Out M → Task E M S L own)
  | joinBoth (a b : Fut E M S L own)
  | joinLeft (a : Fut E M S L own) (y : Out M)
  | joinRight (x : Out M) (b : Fut E M S L own)
  | select (a b : Fut E M S L own)

inductive Polled (E M S L : Type) (own : Waker)
  | ready (result : Out M)
  | pending (future : Fut E M S L own)

/-- The places where routines of one process wait for each other, with `W` the process's state. A
receive is polled there with a waker, or dropped there. A poll says whether it woke the waker at
once. -/
structure Places (W M : Type) where
  poll : Nat → Waker → W → (Option M × Bool) × W
  drop : Nat → W → W

/-- Code that runs in a poll: it acts on what its outbox and its driver share, and on the process.
It unwinds, or never returns, by failing. -/
abbrev Polling (E H W : Type) := StateT (Shared E H × W) Option

def Polling.code {α : Type} (p : Prog E α) : Polling E H W α := fun (shared, world) =>
  let (a, shared) := p.run shared
  some (a, shared, world)

theorem Polling.run_code {α : Type} (p : Prog E α) (shared : Shared E H) (world : W) :
    (code p).run (shared, world) = some ((p.run shared).1, (p.run shared).2, world) := rfl

/-! ### Requests and receives -/

/-- `Asking::into_future`. -/
def record (answer : Answer) (make : ReplyHandle → Option E) : Polling E H W Nat := do
  match ← Polling.code (.ask answer (fun reply => .ret (make reply)) .ret) with
  | some id => return id
  | none => failure

def close (id : Nat) : Polling E H W Unit := Polling.code (.close id (.ret ()))

/-- The waker to poll a request with, if it is to be polled. -/
def Awaited.poll (waker : Waker) : Awaited S own → Option Waker × Awaited S own
  | none => (some waker, none)
  | some (adapter, s) =>
    let (inner, s) := adapter.poll s waker
    (inner, some (adapter, s))

/-- A request that has its reply is dropped at once. A `join` holds it until the other side has
finished too, but there is nothing left of it to close then. -/
def pollAsked (waker : Waker) (awaited : Awaited S own) (id : Nat) :
    Polling E H W (Polled E M S L own) :=
  match awaited.poll waker with
  | (none, awaited) => return .pending (.asked awaited id)
  | (some inner, awaited) => do
    match ← Polling.code (.collect id inner .ret) with
    | some value =>
      close id
      return .ready (.reply value)
    | none => return .pending (.asked awaited id)

/-- The driver's waker was called. -/
def Shared.wakeUp (shared : Shared E H) : Shared E H :=
  let (hook, wakeup) := shared.wakeup.wakeUp
  { shared with wakeup, hooked := hook.toList ++ shared.hooked }

def pollReceive (places : Places W M) (waker : Waker) (place : Nat) :
    Polling E H W (Polled E M S L own) := fun (shared, world) =>
  let ((message, woke), world) := places.poll place waker world
  let shared := if woke then shared.wakeUp else shared
  match message with
  | some m => some (.ready (.message m), shared, world)
  | none => some (.pending (.receiving place), shared, world)

/-! ### Polling -/

/-- `join` once both sides have been polled. -/
def Polled.join : Polled E M S L own → Polled E M S L own → Polled E M S L own
  | .ready x, .ready y => .ready (.both x y)
  | .pending a, .ready y => .pending (.joinLeft a y)
  | .ready x, .pending b => .pending (.joinRight x b)
  | .pending a, .pending b => .pending (.joinBoth a b)

/-- Drop a suspended future. What it holds is dropped last declared first. -/
def Fut.drop (places : Places W M) : Fut E M S L own → Polling E H W Unit
  | .asked _ id => close id
  | .receiving place => modify fun (shared, world) => (shared, places.drop place world)
  | .bind first _ => first.drop places
  | .joinBoth a b => do b.drop places; a.drop places
  | .joinLeft a _ => a.drop places
  | .joinRight _ b => b.drop places
  | .select a b => do b.drop places; a.drop places

/-- `IntoFuture`: an ask is recorded. Everything else waits for its first poll. -/
def Task.intoFuture : Task E M S L own → Polling E H W (Option (Awaited S own × Nat))
  | .ask adapter answer make => do
    let id ← record answer make
    return some (adapter.map fun a => (a, a.start), id)
  | _ => return none

/-- The first poll of one side of a `join` or a `select`. -/
def firstPoll (waker : Waker) (lazily : Polling E H W (Polled E M S L own)) :
    Option (Awaited S own × Nat) → Polling E H W (Polled E M S L own)
  | some (awaited, id) => pollAsked waker awaited id
  | none => lazily

/-- Drop a side that was never polled: if it is an ask, it was recorded all the same. -/
def dropEarly : Option (Awaited S own × Nat) → Polling E H W Unit
  | some (_, id) => close id
  | none => pure ()

/-- The first poll. `call` is what the routine's parts do. -/
def Task.beginWith (call : L → Polling E H W (Polled E M S L own)) (places : Places W M)
    (waker : Waker) : Task E M S L own → Polling E H W (Polled E M S L own)
  | .ret result => return .ready result
  | .tell effect => do
    Polling.code (.tell effect (.ret ()))
    return .ready .unit
  | .ask adapter answer make => do
    let id ← record answer make
    pollAsked waker (adapter.map fun a => (a, a.start)) id
  | .receive place => pollReceive places waker place
  | .bind first next => do
    match ← first.beginWith call places waker with
    | .ready result => (next result).beginWith call places waker
    | .pending future => return .pending (.bind future next)
  | .join a b => do
    let early ← a.intoFuture
    let late ← b.intoFuture
    let x ← firstPoll waker (a.beginWith call places waker) early
    let y ← firstPoll waker (b.beginWith call places waker) late
    return x.join y
  | .select a b => do
    let early ← a.intoFuture
    let late ← b.intoFuture
    match ← firstPoll waker (a.beginWith call places waker) early with
    | .ready x =>
      dropEarly late
      return .ready (.left x)
    | .pending a =>
      match ← firstPoll waker (b.beginWith call places waker) late with
      | .ready y =>
        a.drop places
        return .ready (.right y)
      | .pending b => return .pending (.select a b)
  | .call name => call name

/-- A routine's parts, and how deep they may call each other in one poll: one that calls deeper
does not return. -/
structure Source (E M S L W : Type) (own : Waker) where
  code : L → Task E M S L own
  depth : Nat
  places : Places W M

def Source.callTo (src : Source E M S L W own) (waker : Waker) :
    Nat → L → Polling E H W (Polled E M S L own)
  | 0, _ => failure
  | depth + 1, name => (src.code name).beginWith (src.callTo waker depth) src.places waker

def Task.begin (src : Source E M S L W own) (waker : Waker) (task : Task E M S L own) :
    Polling E H W (Polled E M S L own) :=
  task.beginWith (src.callTo waker src.depth) src.places waker

/-- A later poll. -/
def Fut.poll (src : Source E M S L W own) (waker : Waker) :
    Fut E M S L own → Polling E H W (Polled E M S L own)
  | .asked awaited id => pollAsked waker awaited id
  | .receiving place => pollReceive src.places waker place
  | .bind first next => do
    match ← first.poll src waker with
    | .ready result => (next result).begin src waker
    | .pending future => return .pending (.bind future next)
  | .joinBoth a b => do
    let x ← a.poll src waker
    let y ← b.poll src waker
    return x.join y
  | .joinLeft a y => do
    let x ← a.poll src waker
    return x.join (.ready y)
  | .joinRight x b => do
    let y ← b.poll src waker
    return Polled.join (.ready x) y
  | .select a b => do
    match ← a.poll src waker with
    | .ready x =>
      b.drop src.places
      return .ready (.left x)
    | .pending a =>
      match ← b.poll src waker with
      | .ready y =>
        a.drop src.places
        return .ready (.right y)
      | .pending b => return .pending (.select a b)

/-- A waker has fired: the adapters that handed it out are told. The flag says whether any of them
wakes its parent. -/
def Awaited.fire (waker : Waker) : Awaited S own → Bool × Awaited S own
  | some (adapter, s) =>
    if waker ∈ adapter.handed s then
      let (wakes, s) := adapter.fire s waker
      (wakes, some (adapter, s))
    else (false, some (adapter, s))
  | none => (false, none)

def Fut.fire (waker : Waker) : Fut E M S L own → Bool × Fut E M S L own
  | .asked awaited id =>
    let (wakes, awaited) := awaited.fire waker
    (wakes, .asked awaited id)
  | .receiving place => (false, .receiving place)
  | .bind first next =>
    let (wakes, first) := first.fire waker
    (wakes, .bind first next)
  | .joinBoth a b =>
    let (left, a) := a.fire waker
    let (right, b) := b.fire waker
    (left || right, .joinBoth a b)
  | .joinLeft a y =>
    let (wakes, a) := a.fire waker
    (wakes, .joinLeft a y)
  | .joinRight x b =>
    let (wakes, b) := b.fire waker
    (wakes, .joinRight x b)
  | .select a b =>
    let (left, a) := a.fire waker
    let (right, b) := b.fire waker
    (left || right, .select a b)

/-! ### The routine -/

/-- A routine's future over its life. -/
inductive Stage (E M S L : Type) (own : Waker)
  | fresh (task : Task E M S L own)
  | running (future : Fut E M S L own)
  | done

namespace Stage

/-- A future that has returned panics if it is polled again. -/
def poll (src : Source E M S L W own) (waker : Waker) :
    Stage E M S L own → Polling E H W (Poll × Stage E M S L own)
  | .fresh task => do
    match ← task.begin src waker with
    | .ready _ => return (.ready, .done)
    | .pending future => return (.pending, .running future)
  | .running future => do
    match ← future.poll src waker with
    | .ready _ => return (.ready, .done)
    | .pending future => return (.pending, .running future)
  | .done => failure

def drop (places : Places W M) : Stage E M S L own → Polling E H W Unit
  | .running future => future.drop places
  | _ => pure ()

def fire (waker : Waker) : Stage E M S L own → Bool × Stage E M S L own
  | .running future =>
    let (wakes, future) := future.fire waker
    (wakes, .running future)
  | stage => (false, stage)

end Stage

/-! ### Polls in lockstep -/

/-- The same code, run with two outboxes that `rel` relates and in the same process, fails with
both, or returns the same and leaves them related. -/
def Polling.Lockstep {α : Type} (rel : Outbox E → Outbox E → Prop) (act : Polling E H W α) : Prop :=
  ∀ s₁ s₂, rel s₁.1.outbox s₂.1.outbox → s₁.2 = s₂.2 →
    Coupled (fun a₁ t₁ a₂ t₂ => a₁ = a₂ ∧ rel t₁.1.outbox t₂.1.outbox ∧ t₁.2 = t₂.2) act s₁ act s₂

/-- Operations of the routine's side do not tell the outboxes apart. -/
def Prog.Respects (H : Type) (rel : Outbox E → Outbox E → Prop) : Prop :=
  ∀ (α : Type) (p : Prog E α) (s₁ s₂ : Shared E H), rel s₁.outbox s₂.outbox →
    (p.run s₁).1 = (p.run s₂).1 ∧ rel (p.run s₁).2.outbox (p.run s₂).2.outbox

/-- No operation of the routine's side tells apart outboxes that `rel` relates. -/
structure Outbox.Respected (rel : Outbox E → Outbox E → Prop) : Prop where
  tell : ∀ o₁ o₂ effect, rel o₁ o₂ → rel (o₁.tell effect) (o₂.tell effect)
  mint : ∀ o₁ o₂, rel o₁ o₂ → o₁.mint.1 = o₂.mint.1 ∧ rel o₁.mint.2 o₂.mint.2
  openRequest : ∀ o₁ o₂ id effect answer, rel o₁ o₂ →
    rel (o₁.openRequest id effect answer) (o₂.openRequest id effect answer)
  unreserve : ∀ o₁ o₂ id, rel o₁ o₂ → rel (o₁.unreserve id) (o₂.unreserve id)
  collect : ∀ o₁ o₂ id waker, rel o₁ o₂ →
    (o₁.collect id waker).1 = (o₂.collect id waker).1 ∧
      rel (o₁.collect id waker).2 (o₂.collect id waker).2
  close : ∀ o₁ o₂ id, rel o₁ o₂ → rel (o₁.close id) (o₂.close id)

theorem Outbox.Respected.respects {rel : Outbox E → Outbox E → Prop} (respected : Respected rel) :
    Prog.Respects H rel := by
  intro α p
  induction p with
  | ret a => exact fun s₁ s₂ related => ⟨rfl, related⟩
  | tell effect next ih =>
    exact fun s₁ s₂ related => ih _ _ (respected.tell s₁.outbox s₂.outbox effect related)
  | ask answer make next ihMake ihNext =>
    intro s₁ s₂ related
    obtain ⟨reply, related⟩ := respected.mint s₁.outbox s₂.outbox related
    obtain ⟨built, related⟩ := ihMake s₁.outbox.mint.1 { s₁ with outbox := s₁.outbox.mint.2 }
      { s₂ with outbox := s₂.outbox.mint.2 } related
    simp only [Prog.run, ← reply]
    generalize (make s₁.outbox.mint.1).run { s₁ with outbox := s₁.outbox.mint.2 } = r₁ at built related
    generalize (make s₁.outbox.mint.1).run { s₂ with outbox := s₂.outbox.mint.2 } = r₂ at built related
    obtain ⟨effect, t₁⟩ := r₁
    obtain ⟨_, t₂⟩ := r₂
    obtain rfl : effect = _ := built
    cases effect with
    | some effect => exact ihNext _ _ _ (respected.openRequest _ _ _ effect answer related)
    | none => exact ihNext _ _ _ (respected.unreserve _ _ _ related)
  | collect id waker next ih =>
    intro s₁ s₂ related
    obtain ⟨value, related⟩ := respected.collect s₁.outbox s₂.outbox id waker related
    simp only [Prog.run, ← value]
    exact ih _ _ _ related
  | close id next ih =>
    exact fun s₁ s₂ related => ih _ _ (respected.close s₁.outbox s₂.outbox id related)
  | wake next ih => exact fun s₁ s₂ related => ih _ _ related

theorem respects_eq : Prog.Respects H (E := E) (· = ·) := by
  apply Outbox.Respected.respects
  constructor
  all_goals intros; subst_vars; first | rfl | exact ⟨rfl, rfl⟩

section

variable {rel : Outbox E → Outbox E → Prop} {α β : Type}

theorem lockstep_pure (a : α) : (pure a : Polling E H W α).Lockstep rel := by
  intro s₁ s₂ related same
  exact .some ⟨rfl, related, same⟩

theorem lockstep_failure : (failure : Polling E H W α).Lockstep rel := by
  intro s₁ s₂ _ _
  exact coupled_failure

theorem Polling.Lockstep.bind {act : Polling E H W α} {next : α → Polling E H W β}
    (first : act.Lockstep rel) (rest : ∀ a, (next a).Lockstep rel) : (act >>= next).Lockstep rel := by
  intro s₁ s₂ related same
  refine Coupled.bind (first s₁ s₂ related same) ?_
  rintro a t₁ _ t₂ ⟨rfl, related', same'⟩
  exact rest a t₁ t₂ related' same'

variable (respects : Prog.Respects H rel)
include respects

theorem lockstep_code (p : Prog E α) : (Polling.code p : Polling E H W α).Lockstep rel := by
  intro s₁ s₂ related same
  obtain ⟨returned, related'⟩ := respects α p s₁.1 s₂.1 related
  exact .some ⟨returned, related', same⟩

theorem lockstep_record (answer : Answer) (make : ReplyHandle → Option E) :
    (record answer make : Polling E H W Nat).Lockstep rel := by
  refine .bind (lockstep_code respects _) fun id => ?_
  cases id with
  | some id => exact lockstep_pure id
  | none => exact lockstep_failure

theorem lockstep_pollAsked (waker : Waker) (awaited : Awaited S own) (id : Nat) :
    (pollAsked waker awaited id : Polling E H W (Polled E M S L own)).Lockstep rel := by
  unfold pollAsked
  split
  · exact lockstep_pure _
  · refine .bind (lockstep_code respects _) fun value => ?_
    cases value with
    | some value => exact .bind (lockstep_code respects _) fun _ => lockstep_pure _
    | none => exact lockstep_pure _

omit respects in
/-- A receive leaves the outbox alone. -/
theorem lockstep_pollReceive (places : Places W M) (waker : Waker) (place : Nat) :
    (pollReceive places waker place : Polling E H W (Polled E M S L own)).Lockstep rel := by
  rintro ⟨shared₁, world⟩ ⟨shared₂, _⟩ related rfl
  rcases polled : places.poll place waker world with ⟨⟨message, woke⟩, world'⟩
  have woken : rel (if woke then shared₁.wakeUp else shared₁).outbox
      (if woke then shared₂.wakeUp else shared₂).outbox := by
    cases woke <;> exact related
  simp only [Coupled, pollReceive, StateT.run, polled]
  cases message with
  | some m => exact .some ⟨rfl, woken, rfl⟩
  | none => exact .some ⟨rfl, woken, rfl⟩

theorem lockstep_drop (places : Places W M) (future : Fut E M S L own) :
    (future.drop places : Polling E H W Unit).Lockstep rel := by
  induction future with
  | asked awaited id =>
    unfold Fut.drop
    exact lockstep_code respects _
  | receiving place =>
    intro s₁ s₂ related same
    exact .some ⟨rfl, related, congrArg (places.drop place) same⟩
  | bind first next ih => exact ih
  | joinBoth a b ihA ihB => exact .bind ihB fun _ => ihA
  | joinLeft a y ih => exact ih
  | joinRight x b ih => exact ih
  | select a b ihA ihB => exact .bind ihB fun _ => ihA

theorem lockstep_intoFuture (task : Task E M S L own) :
    (task.intoFuture : Polling E H W (Option (Awaited S own × Nat))).Lockstep rel := by
  cases task
  case ask adapter answer make =>
    exact .bind (lockstep_record respects answer make) fun _ => lockstep_pure _
  all_goals exact lockstep_pure _

theorem lockstep_firstPoll (waker : Waker) {lazily : Polling E H W (Polled E M S L own)}
    (lockstep : lazily.Lockstep rel) (early : Option (Awaited S own × Nat)) :
    (firstPoll waker lazily early).Lockstep rel := by
  cases early with
  | some early => exact lockstep_pollAsked respects waker early.1 early.2
  | none => exact lockstep

theorem lockstep_dropEarly (late : Option (Awaited S own × Nat)) :
    (dropEarly late : Polling E H W Unit).Lockstep rel := by
  cases late with
  | some late =>
    unfold dropEarly
    exact lockstep_code respects _
  | none => exact lockstep_pure ()

theorem lockstep_beginWith {call : L → Polling E H W (Polled E M S L own)}
    (calls : ∀ name, (call name).Lockstep rel) (places : Places W M) (waker : Waker)
    (task : Task E M S L own) : (task.beginWith call places waker).Lockstep rel := by
  induction task with
  | ret result => exact lockstep_pure _
  | tell effect => exact .bind (lockstep_code respects _) fun _ => lockstep_pure _
  | ask adapter answer make =>
    exact .bind (lockstep_record respects answer make) fun id => lockstep_pollAsked respects _ _ id
  | receive place => exact lockstep_pollReceive places waker place
  | bind first next ihFirst ihNext =>
    unfold Task.beginWith
    refine .bind ihFirst fun polled => ?_
    cases polled with
    | ready result => exact ihNext result
    | pending future => exact lockstep_pure _
  | join a b ihA ihB =>
    refine .bind (lockstep_intoFuture respects a) fun early => ?_
    refine .bind (lockstep_intoFuture respects b) fun late => ?_
    refine .bind (lockstep_firstPoll respects waker ihA early) fun x => ?_
    exact .bind (lockstep_firstPoll respects waker ihB late) fun y => lockstep_pure _
  | select a b ihA ihB =>
    refine .bind (lockstep_intoFuture respects a) fun early => ?_
    refine .bind (lockstep_intoFuture respects b) fun late => ?_
    refine .bind (lockstep_firstPoll respects waker ihA early) fun x => ?_
    cases x with
    | ready x => exact .bind (lockstep_dropEarly respects late) fun _ => lockstep_pure _
    | pending a =>
      refine .bind (lockstep_firstPoll respects waker ihB late) fun y => ?_
      cases y with
      | ready y => exact .bind (lockstep_drop respects places a) fun _ => lockstep_pure _
      | pending b => exact lockstep_pure _
  | call name => exact calls name

theorem lockstep_callTo (src : Source E M S L W own) (waker : Waker) (depth : Nat) (name : L) :
    (src.callTo waker depth name : Polling E H W (Polled E M S L own)).Lockstep rel := by
  induction depth generalizing name with
  | zero => exact lockstep_failure
  | succ depth ih => exact lockstep_beginWith respects ih src.places waker (src.code name)

theorem lockstep_begin (src : Source E M S L W own) (waker : Waker) (task : Task E M S L own) :
    (task.begin src waker : Polling E H W (Polled E M S L own)).Lockstep rel :=
  lockstep_beginWith respects (lockstep_callTo respects src waker src.depth) src.places waker task

theorem lockstep_poll (src : Source E M S L W own) (waker : Waker) (future : Fut E M S L own) :
    (future.poll src waker : Polling E H W (Polled E M S L own)).Lockstep rel := by
  induction future with
  | asked awaited id => exact lockstep_pollAsked respects waker awaited id
  | receiving place => exact lockstep_pollReceive src.places waker place
  | bind first next ih =>
    refine .bind ih fun polled => ?_
    cases polled with
    | ready result => exact lockstep_begin respects src waker (next result)
    | pending future => exact lockstep_pure _
  | joinBoth a b ihA ihB => exact .bind ihA fun x => .bind ihB fun y => lockstep_pure _
  | joinLeft a y ih => exact .bind ih fun x => lockstep_pure _
  | joinRight x b ih => exact .bind ih fun y => lockstep_pure _
  | select a b ihA ihB =>
    refine .bind ihA fun x => ?_
    cases x with
    | ready x => exact .bind (lockstep_drop respects src.places b) fun _ => lockstep_pure _
    | pending a =>
      refine .bind ihB fun y => ?_
      cases y with
      | ready y => exact .bind (lockstep_drop respects src.places a) fun _ => lockstep_pure _
      | pending b => exact lockstep_pure _

namespace Stage

theorem lockstep_poll (src : Source E M S L W own) (waker : Waker) (stage : Stage E M S L own) :
    (stage.poll src waker : Polling E H W (Poll × Stage E M S L own)).Lockstep rel := by
  cases stage with
  | fresh task =>
    refine .bind (lockstep_begin respects src waker task) fun polled => ?_
    cases polled <;> exact lockstep_pure _
  | running future =>
    refine .bind (SansEffort.lockstep_poll respects src waker future) fun polled => ?_
    cases polled <;> exact lockstep_pure _
  | done => exact lockstep_failure

theorem lockstep_drop (places : Places W M) (stage : Stage E M S L own) :
    (stage.drop places : Polling E H W Unit).Lockstep rel := by
  cases stage with
  | running future => exact SansEffort.lockstep_drop respects places future
  | fresh _ => exact lockstep_pure ()
  | done => exact lockstep_pure ()

end Stage

end

/-! ### What a poll does to the outbox -/

/-- The code does to the outbox only what a routine may do. -/
def Polling.Runs {α : Type} (act : Polling E H W α) : Prop :=
  ∀ before a after, before.1.outbox.Kept → act.run before = some (a, after) →
    Outbox.Ran before.1.outbox after.1.outbox

/-- An invariant of the outbox is a relation of it with itself. -/
theorem Polling.Lockstep.keeps {α : Type} {act : Polling E H W α} {holds : Outbox E → Prop}
    (lockstep : act.Lockstep fun o₁ o₂ => o₁ = o₂ ∧ holds o₁) {before after : Shared E H × W} {a : α}
    (ran : act.run before = some (a, after)) (held : holds before.1.outbox) :
    holds after.1.outbox := by
  have coupled := lockstep before before ⟨rfl, held⟩ rfl
  unfold Coupled at coupled
  rw [ran] at coupled
  cases coupled with
  | some both => exact both.2.1.2

/-- What code keeps of the outbox, whatever it is. -/
theorem respects_invariant {holds : Outbox E → Prop}
    (kept : ∀ (α : Type) (p : Prog E α) (s : Shared E H), holds s.outbox → holds (p.run s).2.outbox) :
    Prog.Respects H fun o₁ o₂ => o₁ = o₂ ∧ holds o₁ := by
  intro α p s₁ s₂ ⟨same, held⟩
  obtain ⟨returned, left⟩ := respects_eq α p s₁ s₂ same
  exact ⟨returned, left, kept α p s₁ held⟩

theorem respects_ran (o : Outbox E) :
    Prog.Respects H fun o₁ o₂ => o₁ = o₂ ∧ o₁.Kept ∧ Outbox.Ran o o₁ := by
  refine respects_invariant fun α p s ⟨kept, ran⟩ => ?_
  have runs := (p.run_spec s kept).1
  exact ⟨(runs.grown kept).1, ran.trans runs⟩

theorem Polling.runs_of_lockstep {α : Type} {act : Polling E H W α}
    (lockstep : ∀ o, act.Lockstep fun o₁ o₂ => o₁ = o₂ ∧ o₁.Kept ∧ Outbox.Ran o o₁) : act.Runs := by
  intro before a after kept ran
  exact ((lockstep before.1.outbox).keeps ran ⟨kept, .refl _⟩).2

/-- The routine that a driver polls. The process's state is kept beside its future. -/
def Source.routine (src : Source E M S L W own) : Routine (Stage E M S L own × W) E H where
  poll held waker shared :=
    ((held.1.poll src waker).run (shared, held.2)).map fun ((poll, stage), shared, world) =>
      ((poll, stage, world), shared)
  drop held shared := ((held.1.drop src.places).run (shared, held.2)).map fun (_, shared, _) => shared
  wake held waker shared :=
    let (wakes, stage) := held.1.fire waker
    some ((stage, held.2), if wakes then shared.wakeUp else shared)
  poll_ran held waker shared result after kept polled := by
    obtain ⟨⟨_, _, _⟩, ran, same⟩ := Option.map_eq_some_iff.mp polled
    cases same
    exact Polling.runs_of_lockstep (fun o => held.1.lockstep_poll (respects_ran o) src waker)
      (shared, held.2) _ _ kept ran
  drop_ran held shared after kept dropped := by
    obtain ⟨⟨_, _, _⟩, ran, rfl⟩ := Option.map_eq_some_iff.mp dropped
    exact Polling.runs_of_lockstep (fun o => held.1.lockstep_drop (respects_ran o) src.places)
      (shared, held.2) _ _ kept ran
  wake_ran held waker shared held' after _ woken := by
    have same : (if (held.1.fire waker).1 then shared.wakeUp else shared) = after :=
      congrArg Prod.snd (Option.some.inj woken)
    have outbox : after.outbox = shared.outbox := by
      rw [← same]
      split <;> rfl
    rw [outbox]
    exact .refl _

/-! ### A driver's run -/

/-- What is done to a driver from outside, one at a time. What others in the process do may wake
it, and so may whoever else has kept its waker. -/
inductive Doing (H W : Type)
  | resume
  | reply (reply : ReplyHandle) (value : Value)
  | inProcess (change : W → Bool × W)
  | wake
  | onWake (hook : H)

/-- What can be seen of a driver after it: what a call returned, the status, and the hooks called
so far. -/
structure Seen (E H : Type) where
  returned : Option (Except Stepper.Refused (Yield E))
  status : Status
  hooked : List H
  deriving DecidableEq

namespace Stepper

variable {F : Type}

def wakeUp (d : Stepper F E H) : Stepper F E H := { d with shared := d.shared.wakeUp }

/-- The process changes, and the driver's waker may be called for it. -/
def inProcess (d : Stepper (F × W) E H) (change : W → Bool × W) : Stepper (F × W) E H :=
  match d.future with
  | none => d
  | some (future, world) =>
    let (woke, world) := change world
    let d := { d with future := some (future, world) }
    if woke then d.wakeUp else d

/-- `none` is a panic. -/
def doing (r : Routine (F × W) E H) (d : Stepper (F × W) E H) :
    Doing H W → Option (Option (Except Refused (Yield E)) × Stepper (F × W) E H)
  | .resume => (d.poll r).map fun (yielded, d) => (some (.ok yielded), d)
  | .reply reply value => (d.tryReply r reply value).map fun (result, d) => (some result, d)
  | .inProcess change => some (none, d.inProcess change)
  | .wake => some (none, d.wakeUp)
  | .onWake hook => some (none, d.onWake hook)

/-- What is seen of a run, up to the first panic. -/
def watch (r : Routine (F × W) E H) : Stepper (F × W) E H → List (Doing H W) →
    List (Option (Seen E H))
  | _, [] => []
  | d, doing :: rest =>
    match d.doing r doing with
    | none => [none]
    | some (returned, d) => some ⟨returned, d.status, d.shared.hooked⟩ :: d.watch r rest

end Stepper

/-- A driver of a routine that begins with `task`. -/
def Source.start (driver : Nat) (task : Task E M S L own) (world : W) :
    Stepper (Stage E M S L own × W) E H :=
  .new driver own (.ret (.fresh task, world))

/-! ### Without adapters -/

/-- The same future, with its asks awaited directly. -/
def Task.plain : Task E M S L own → Task E M S L own
  | .ask _ answer make => .ask none answer make
  | .bind first next => .bind first.plain fun result => (next result).plain
  | .join a b => .join a.plain b.plain
  | .select a b => .select a.plain b.plain
  | task => task

def Fut.plain : Fut E M S L own → Fut E M S L own
  | .asked _ id => .asked none id
  | .receiving place => .receiving place
  | .bind first next => .bind first.plain fun result => (next result).plain
  | .joinBoth a b => .joinBoth a.plain b.plain
  | .joinLeft a y => .joinLeft a.plain y
  | .joinRight x b => .joinRight x b.plain
  | .select a b => .select a.plain b.plain

def Source.plain (src : Source E M S L W own) : Source E M S L W own :=
  { src with code := fun name => (src.code name).plain }

end SansEffort
