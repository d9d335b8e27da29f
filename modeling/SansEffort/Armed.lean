import SansEffort.Twins
import SansEffort.Library.Coupling

/-!
# Armed futures

A future whose adapters are armed is polled beside the same future without them. An adapter that
is not due has one of its wakers in the slot of its request, so the reply is not there yet, and
the poll that it leaves out would have found nothing.
-/

namespace SansEffort

variable {E H M S L W : Type} {own : Waker}

open Coupling

/-! ### Requests and their adapters -/

/-- The request's slot is open, and its adapter is due, or will be when the slot's waker fires. -/
def Awaited.Armed (o : Outbox E) (id : Nat) (awaited : Awaited S own) : Prop :=
  ∃ slot, o.mail.lookup id = some slot ∧ ∀ adapter s, awaited = some (adapter, s) →
    adapter.due s = true ∨ slot.value = none ∧ ∃ w ∈ adapter.handed s, slot.waker = some w

namespace Fut

def ids : Fut E M S L own → List Nat
  | .asked _ id => [id]
  | .receiving _ => []
  | .bind first _ => first.ids
  | .joinBoth a b => a.ids ++ b.ids
  | .joinLeft a _ => a.ids
  | .joinRight _ b => b.ids
  | .select a b => a.ids ++ b.ids

def Armed (o : Outbox E) : Fut E M S L own → Prop
  | .asked awaited id => awaited.Armed o id
  | .receiving _ => True
  | .bind first _ => first.Armed o
  | .joinBoth a b => a.Armed o ∧ b.Armed o
  | .joinLeft a _ => a.Armed o
  | .joinRight _ b => b.Armed o
  | .select a b => a.Armed o ∧ b.Armed o

theorem Armed.congr {o o' : Outbox E} {future : Fut E M S L own} (armed : future.Armed o)
    (same : ∀ id ∈ future.ids, o'.mail.lookup id = o.mail.lookup id) : future.Armed o' := by
  induction future with
  | asked awaited id =>
    obtain ⟨slot, found, ready⟩ := armed
    exact ⟨slot, (same id List.mem_cons_self).trans found, ready⟩
  | receiving place => trivial
  | bind first next ih => exact ih armed same
  | joinBoth a b ihA ihB =>
    exact ⟨ihA armed.1 fun id member => same id (List.mem_append_left _ member),
      ihB armed.2 fun id member => same id (List.mem_append_right _ member)⟩
  | joinLeft a y ih => exact ih armed same
  | joinRight x b ih => exact ih armed same
  | select a b ihA ihB =>
    exact ⟨ihA armed.1 fun id member => same id (List.mem_append_left _ member),
      ihB armed.2 fun id member => same id (List.mem_append_right _ member)⟩

end Fut

namespace Polled

def plain : Polled E M S L own → Polled E M S L own
  | .ready result => .ready result
  | .pending future => .pending future.plain

def ids : Polled E M S L own → List Nat
  | .ready _ => []
  | .pending future => future.ids

def Armed (o : Outbox E) : Polled E M S L own → Prop
  | .ready _ => True
  | .pending future => future.Armed o

theorem plain_join (x y : Polled E M S L own) : (x.join y).plain = x.plain.join y.plain := by
  cases x <;> cases y <;> rfl

theorem ids_join (x y : Polled E M S L own) : (x.join y).ids = x.ids ++ y.ids := by
  cases x <;> cases y <;> simp [Polled.join, ids, Fut.ids]

theorem Armed.join {o : Outbox E} {x y : Polled E M S L own} (left : x.Armed o)
    (right : y.Armed o) : (x.join y).Armed o := by
  cases x with
  | ready x =>
    cases y with
    | ready y => trivial
    | pending b => exact right
  | pending a =>
    cases y with
    | ready y => exact left
    | pending b => exact ⟨left, right⟩

theorem Armed.congr {o o' : Outbox E} {polled : Polled E M S L own} (armed : polled.Armed o)
    (same : ∀ id ∈ polled.ids, o'.mail.lookup id = o.mail.lookup id) : polled.Armed o' := by
  cases polled with
  | ready result => trivial
  | pending future => exact Fut.Armed.congr armed same

end Polled

/-- The two runs side by side. -/
structure Beside (own : Waker) (s₁ s₂ : Shared E H × W) : Prop where
  outbox : Outbox.Twin own s₁.1.outbox s₂.1.outbox
  wakeup : s₁.1.wakeup = s₂.1.wakeup
  hooked : s₁.1.hooked = s₂.1.hooked
  world : s₁.2 = s₂.2

/-- What polls return side by side, the second having held `ids` in the outbox `o`. -/
structure Agree (ids : List Nat) (o : Outbox E) (p₁ : Polled E M S L own) (s₁ : Shared E H × W)
    (p₂ : Polled E M S L own) (s₂ : Shared E H × W) : Prop where
  plain : p₁ = p₂.plain
  beside : Beside own s₁ s₂
  moved : Outbox.Moved ids o s₂.1.outbox p₂.ids
  armed : p₂.Armed s₂.1.outbox

/-! ### One request -/

theorem run_record (answer : Answer) (make : ReplyHandle → Option E) (shared : Shared E H)
    (world : W) : (record answer make).run (shared, world) =
      (make shared.outbox.mint.1).map fun effect => (shared.outbox.mint.1.id,
        { shared with outbox :=
          shared.outbox.mint.2.openRequest shared.outbox.mint.1.id effect answer }, world) := by
  have asked : ∀ built after, (Prog.ask answer (fun reply => .ret (make reply)) .ret).run shared =
      (built, after) → (record answer make).run (shared, world) =
        built.map fun id => (id, after, world) := by
    intro built after ran
    unfold record
    rw [StateT.run_bind, Polling.run_code, ran]
    cases built <;> rfl
  cases made : make shared.outbox.mint.1 with
  | none =>
    apply asked none { shared with outbox := shared.outbox.mint.2.unreserve shared.outbox.mint.1.id }
    simp only [Prog.run, made]
  | some effect =>
    apply asked (some _)
    simp only [Prog.run, made]

theorem coupled_close {s₁ s₂ : Shared E H × W} (beside : Beside own s₁ s₂) (id : Nat) :
    Coupled (fun _ t₁ _ t₂ => Beside own t₁ t₂ ∧ Outbox.Moved [id] s₂.1.outbox t₂.1.outbox [])
      (close id) s₁ (close id) s₂ := by
  refine .some ⟨⟨beside.outbox.close id, beside.wakeup, beside.hooked, beside.world⟩, ?_⟩
  exact beside.outbox.kept₂.moved_close id

theorem coupled_record {s₁ s₂ : Shared E H × W} (beside : Beside own s₁ s₂) (answer : Answer)
    (make : ReplyHandle → Option E) :
    Coupled (fun id₁ t₁ id₂ t₂ => id₁ = id₂ ∧ Beside own t₁ t₂ ∧
        Outbox.Moved [] s₂.1.outbox t₂.1.outbox [id₂] ∧
        ∃ slot, t₂.1.outbox.mail.lookup id₂ = some slot)
      (record answer make) s₁ (record answer make) s₂ := by
  obtain ⟨shared₁, world₁⟩ := s₁
  obtain ⟨shared₂, world₂⟩ := s₂
  unfold Coupled
  obtain ⟨reply, minted⟩ := beside.outbox.mint
  obtain ⟨_, given, log⟩ := beside.outbox.kept₂.mint
  have numbered : shared₂.outbox.mint.1.id = shared₂.outbox.mail.next := by rw [given]
  rw [run_record, run_record, reply]
  cases make shared₂.outbox.mint.1 with
  | none => exact .none
  | some effect =>
    rw [numbered]
    obtain ⟨moved, opened⟩ := beside.outbox.kept₂.moved_record effect answer
    refine .some ⟨rfl, ⟨?_, beside.wakeup, beside.hooked, beside.world⟩, moved, opened⟩
    obtain ⟨_, _, log₁⟩ := beside.outbox.kept₁.mint
    refine minted.openRequest ?_ (log ▸ List.mem_cons_self) effect answer
    rw [log₁, beside.outbox.next]
    exact List.mem_cons_self

theorem coupled_pollReceive {s₁ s₂ : Shared E H × W} (beside : Beside own s₁ s₂)
    (places : Places W M) (waker : Waker) (place : Nat) :
    Coupled (Agree [] s₂.1.outbox) (pollReceive places waker place) s₁
      (pollReceive places waker place : Polling E H W (Polled E M S L own)) s₂ := by
  obtain ⟨shared₁, world₁⟩ := s₁
  obtain ⟨shared₂, world₂⟩ := s₂
  obtain ⟨outbox, wakeup, hooked, world⟩ := beside
  obtain rfl : world₁ = world₂ := world
  have woken : Beside own (shared₁.wakeUp, world₁) (shared₂.wakeUp, world₁) := by
    refine ⟨outbox, congrArg (fun w => w.wakeUp.2) wakeup, ?_, rfl⟩
    show shared₁.wakeup.wakeUp.1.toList ++ shared₁.hooked =
      shared₂.wakeup.wakeUp.1.toList ++ shared₂.hooked
    rw [show shared₁.wakeup = shared₂.wakeup from wakeup,
      show shared₁.hooked = shared₂.hooked from hooked]
  have moved := Outbox.Moved.refl outbox.kept₂ ⟨.nil, List.forall_mem_nil _⟩
  rcases polled : places.poll place waker world₁ with ⟨⟨message, woke⟩, world'⟩
  simp only [Coupled, pollReceive, StateT.run, polled]
  -- the place is polled in the same process by both, and says the same
  cases woke with
  | true =>
    cases message with
    | some m => exact .some ⟨rfl, ⟨woken.outbox, woken.wakeup, woken.hooked, rfl⟩, moved, trivial⟩
    | none => exact .some ⟨rfl, ⟨woken.outbox, woken.wakeup, woken.hooked, rfl⟩, moved, trivial⟩
  | false =>
    cases message with
    | some m => exact .some ⟨rfl, ⟨outbox, wakeup, hooked, rfl⟩, moved, trivial⟩
    | none => exact .some ⟨rfl, ⟨outbox, wakeup, hooked, rfl⟩, moved, trivial⟩

theorem coupled_collect {s₁ s₂ : Shared E H × W} (beside : Beside own s₁ s₂) (id : Nat)
    (w₁ w₂ : Waker) :
    Coupled (fun v₁ t₁ v₂ t₂ => v₁ = v₂ ∧ Beside own t₁ t₂ ∧
        v₂ = (s₂.1.outbox.collect id w₂).1 ∧ t₂.1.outbox = (s₂.1.outbox.collect id w₂).2)
      (Polling.code (.collect id w₁ .ret)) s₁ (Polling.code (.collect id w₂ .ret)) s₂ := by
  obtain ⟨same, twin⟩ := beside.outbox.collect id w₁ w₂
  exact .some ⟨same, ⟨twin, beside.wakeup, beside.hooked, beside.world⟩, rfl, rfl⟩

/-- An adapter that is not due has no reply to find. -/
theorem Awaited.Armed.waits {o : Outbox E} (kept : o.Kept) {awaited awaited' : Awaited S own}
    {id : Nat} (armed : awaited.Armed o id) (skipped : awaited.poll own = (none, awaited')) :
    (life id o.log).value = none ∧ awaited'.Armed o id := by
  obtain ⟨slot, found, ready⟩ := armed
  cases awaited with
  | none => cases skipped
  | some held =>
    obtain ⟨adapter, s⟩ := held
    obtain ⟨inner, same⟩ := Prod.mk.inj skipped
    rcases ready adapter s rfl with due | ⟨missing, w, handed, waker⟩
    · have polled := adapter.polls s due
      rw [inner] at polled
      cases polled
    · obtain ⟨_, _, _, value, _⟩ := kept.mail.lookup_some found
      refine ⟨value.symm.trans missing, slot, found, fun other s' held => .inr ⟨missing, w, ?_, waker⟩⟩
      rw [← same] at held
      cases held
      exact adapter.keeps_polled s handed

theorem Awaited.Armed.polled {o : Outbox E} (kept : o.Kept) (adopted : o.driverWaker = some own)
    {awaited awaited' : Awaited S own} {id : Nat} {inner : Waker} (armed : awaited.Armed o id)
    (polled : awaited.poll own = (some inner, awaited')) (missing : (o.collect id inner).1 = none) :
    awaited'.Armed (o.collect id inner).2 id := by
  obtain ⟨slot, found, _⟩ := armed
  have waits : slot.value = none := by
    obtain ⟨_, _, _, value, _⟩ := kept.mail.lookup_some found
    rw [value, ← (kept.collect id inner).2, missing]
  cases awaited with
  | none =>
    obtain ⟨_, rfl⟩ := Prod.mk.inj polled
    obtain ⟨slot', found'⟩ := kept.collect_open found missing
    exact ⟨slot', found', nofun⟩
  | some held =>
    obtain ⟨adapter, s⟩ := held
    obtain ⟨handing, rfl⟩ := Prod.mk.inj polled
    obtain ⟨foreign, handed⟩ := adapter.hands s inner handing
    refine ⟨_, kept.collect_waits found waits adopted foreign, fun other s' held => .inr ?_⟩
    cases held
    exact ⟨waits, inner, handed, rfl⟩

theorem coupled_pollAsked {s₁ s₂ : Shared E H × W} (beside : Beside own s₁ s₂)
    {awaited : Awaited S own} {id : Nat} (low : id < s₂.1.outbox.mail.next)
    (armed : awaited.Armed s₂.1.outbox id) :
    Coupled (Agree [id] s₂.1.outbox) (pollAsked own none id) s₁
      (pollAsked own awaited id : Polling E H W (Polled E M S L own)) s₂ := by
  have kept := beside.outbox.kept₂
  cases polled : awaited.poll own with
  | mk inner awaited' =>
    cases inner with
    | none =>
      obtain ⟨missing, armed'⟩ := armed.waits kept polled
      -- with an adapter that still waits, the slot is not looked at
      have skips : (pollAsked own awaited id : Polling E H W (Polled E M S L own)) =
          pure (.pending (.asked awaited' id)) := by
        unfold pollAsked
        rw [polled]
      obtain ⟨vain, twin⟩ := beside.outbox.collect_fruitless missing own
      -- without it the slot is looked at in vain, which leaves a waker in it
      have looks : (pollAsked own none id : Polling E H W (Polled E M S L own)).run s₁ =
          some (.pending (.asked none id),
            { s₁.1 with outbox := (s₁.1.outbox.collect id own).2 }, s₁.2) := by
        have looked : (Prog.collect id own .ret).run s₁.1 =
            (none, { s₁.1 with outbox := (s₁.1.outbox.collect id own).2 }) :=
          congrArg (·, _) vain
        unfold pollAsked Awaited.poll
        dsimp only
        rw [StateT.run_bind, show s₁ = (s₁.1, s₁.2) from rfl, Polling.run_code, looked]
        rfl
      unfold Coupled
      rw [skips, looks]
      refine .some ⟨rfl, ⟨twin, beside.wakeup, beside.hooked, beside.world⟩, ?_, armed'⟩
      exact .refl kept ⟨by simp, by simpa using low⟩
    | some inner =>
      unfold pollAsked
      rw [polled]
      refine Coupled.bind (coupled_collect beside id own inner) ?_
      rintro v₁ t₁ v₂ t₂ ⟨rfl, beside', value, outbox⟩
      -- both look at the slot: still empty, or the value is taken and the request closed
      have moved := kept.moved_collect low inner
      rw [← outbox] at moved
      cases v₁ with
      | none =>
        refine coupled_pure ⟨rfl, beside', moved, ?_⟩
        show awaited'.Armed t₂.1.outbox id
        rw [outbox]
        exact armed.polled kept beside.outbox.adopted polled value.symm
      | some v =>
        refine Coupled.bind (coupled_close beside' id) ?_
        rintro _ u₁ _ u₂ ⟨beside'', ended⟩
        exact coupled_pure ⟨rfl, beside'', moved.trans ended, trivial⟩

/-! ### Futures -/

theorem Outbox.Holds.left {o : Outbox E} {ids others : List Nat} (holds : Holds (ids ++ others) o) :
    Holds ids o :=
  ⟨(List.nodup_append.mp holds.nodup).1, fun id member =>
    holds.below id (List.mem_append_left _ member)⟩

theorem Outbox.Holds.right {o : Outbox E} {ids others : List Nat} (holds : Holds (ids ++ others) o) :
    Holds others o :=
  ⟨(List.nodup_append.mp holds.nodup).2.1, fun id member =>
    holds.below id (List.mem_append_right _ member)⟩

theorem Outbox.Holds.later {o o' : Outbox E} {ids : List Nat} (holds : Holds ids o)
    (next : o.mail.next ≤ o'.mail.next) : Holds ids o' :=
  ⟨holds.nodup, fun id member => Nat.lt_of_lt_of_le (holds.below id member) next⟩

/-- Two futures dropped one after the other, the second first. -/
theorem coupled_drop_both (places : Places W M) {a b : Fut E M S L own}
    (dropA : ∀ {s₁ s₂ : Shared E H × W}, Beside own s₁ s₂ → Outbox.Holds a.ids s₂.1.outbox →
      Coupled (fun _ t₁ _ t₂ => Beside own t₁ t₂ ∧ Outbox.Moved a.ids s₂.1.outbox t₂.1.outbox [])
        (a.plain.drop places) s₁ (a.drop places) s₂)
    (dropB : ∀ {s₁ s₂ : Shared E H × W}, Beside own s₁ s₂ → Outbox.Holds b.ids s₂.1.outbox →
      Coupled (fun _ t₁ _ t₂ => Beside own t₁ t₂ ∧ Outbox.Moved b.ids s₂.1.outbox t₂.1.outbox [])
        (b.plain.drop places) s₁ (b.drop places) s₂)
    {s₁ s₂ : Shared E H × W} (beside : Beside own s₁ s₂)
    (holds : Outbox.Holds (a.ids ++ b.ids) s₂.1.outbox) :
    Coupled (fun _ t₁ _ t₂ => Beside own t₁ t₂ ∧
        Outbox.Moved (a.ids ++ b.ids) s₂.1.outbox t₂.1.outbox [])
      (do b.plain.drop places; a.plain.drop places) s₁ (do b.drop places; a.drop places) s₂ := by
  refine Coupled.bind (dropB beside holds.right) ?_
  rintro _ t₁ _ t₂ ⟨beside', moved⟩
  refine (dropA beside' (holds.left.later moved.next)).mono ?_
  rintro _ u₁ _ u₂ ⟨beside'', moved'⟩
  refine ⟨beside'', ?_⟩
  exact (moved.both moved' (holds.swap List.perm_append_comm)).swap List.perm_append_comm (.refl _)

theorem coupled_drop (places : Places W M) (future : Fut E M S L own) {s₁ s₂ : Shared E H × W}
    (beside : Beside own s₁ s₂) (holds : Outbox.Holds future.ids s₂.1.outbox) :
    Coupled (fun _ t₁ _ t₂ => Beside own t₁ t₂ ∧
        Outbox.Moved future.ids s₂.1.outbox t₂.1.outbox [])
      (future.plain.drop places) s₁ (future.drop places) s₂ := by
  induction future generalizing s₁ s₂ with
  | asked awaited id => exact coupled_close beside id
  | receiving place =>
    refine .some ⟨⟨beside.outbox, beside.wakeup, beside.hooked, ?_⟩, .refl beside.outbox.kept₂ holds⟩
    exact congrArg (places.drop place) beside.world
  | bind first next ih => exact ih beside holds
  | joinBoth a b ihA ihB => exact coupled_drop_both places ihA ihB beside holds
  | joinLeft a y ih => exact ih beside holds
  | joinRight x b ih => exact ih beside holds
  | select a b ihA ihB => exact coupled_drop_both places ihA ihB beside holds

/-- What the requests recorded early are, side by side. -/
structure Entered (o : Outbox E) (early₁ : Option (Awaited S own × Nat)) (s₁ : Shared E H × W)
    (early₂ : Option (Awaited S own × Nat)) (s₂ : Shared E H × W) : Prop where
  plain : early₁ = early₂.map fun early => (none, early.2)
  beside : Beside own s₁ s₂
  moved : Outbox.Moved [] o s₂.1.outbox (early₂.map Prod.snd).toList
  armed : ∀ awaited id, early₂ = some (awaited, id) → awaited.Armed s₂.1.outbox id

/-- A request just recorded is armed: its adapter is due. -/
theorem armed_recorded {o : Outbox E} {id : Nat} (opened : ∃ slot, o.mail.lookup id = some slot)
    (adapter : Option (Adapter S own)) :
    Awaited.Armed o id (adapter.map fun a => (a, a.start)) := by
  obtain ⟨slot, found⟩ := opened
  refine ⟨slot, found, fun a s held => .inl ?_⟩
  obtain ⟨_, _, same⟩ := Option.map_eq_some_iff.mp held
  cases same
  exact a.starts

theorem coupled_intoFuture (task : Task E M S L own) {s₁ s₂ : Shared E H × W}
    (beside : Beside own s₁ s₂) :
    Coupled (Entered s₂.1.outbox) task.plain.intoFuture s₁ task.intoFuture s₂ := by
  cases task
  case ask adapter answer make =>
    refine Coupled.bind (coupled_record beside answer make) ?_
    rintro _ t₁ id t₂ ⟨rfl, beside', moved, opened⟩
    refine coupled_pure ⟨rfl, beside', moved, fun awaited other same => ?_⟩
    cases same
    exact armed_recorded opened adapter
  all_goals exact coupled_pure ⟨rfl, beside, .refl beside.outbox.kept₂ ⟨.nil, nofun⟩, nofun⟩

theorem coupled_firstPoll {lazily₁ lazily₂ : Polling E H W (Polled E M S L own)}
    (lazily : ∀ {s₁ s₂ : Shared E H × W}, Beside own s₁ s₂ →
      Coupled (Agree [] s₂.1.outbox) lazily₁ s₁ lazily₂ s₂)
    (early : Option (Awaited S own × Nat)) {s₁ s₂ : Shared E H × W} (beside : Beside own s₁ s₂)
    (holds : Outbox.Holds (early.map Prod.snd).toList s₂.1.outbox)
    (armed : ∀ awaited id, early = some (awaited, id) → awaited.Armed s₂.1.outbox id) :
    Coupled (Agree (early.map Prod.snd).toList s₂.1.outbox)
      (firstPoll own lazily₁ (early.map fun early => (none, early.2))) s₁
      (firstPoll own lazily₂ early) s₂ := by
  cases early with
  | none => exact lazily beside
  | some early =>
    obtain ⟨awaited, id⟩ := early
    exact coupled_pollAsked beside (holds.below id List.mem_cons_self) (armed awaited id rfl)

theorem Agree.after {o o' : Outbox E} {ids ids' : List Nat} {p₁ p₂ : Polled E M S L own}
    {s₁ s₂ : Shared E H × W} (moved : Outbox.Moved ids o o' ids') (agree : Agree ids' o' p₁ s₁ p₂ s₂) :
    Agree ids o p₁ s₁ p₂ s₂ :=
  ⟨agree.plain, agree.beside, moved.trans agree.moved, agree.armed⟩

/-- The requests in `ids` are as they were. -/
structure Outbox.Stays (ids : List Nat) (o o' : Outbox E) : Prop where
  next : o.mail.next ≤ o'.mail.next
  same : ∀ id ∈ ids, o'.mail.lookup id = o.mail.lookup id

/-- What moves some requests leaves the others as they were. -/
theorem Outbox.Moved.stays {o o' : Outbox E} {ids ids' others : List Nat}
    (moved : Moved ids o o' ids') (holds : Holds (ids ++ others) o) : Stays others o o' := by
  refine ⟨moved.next, fun id member => moved.frame id ?_ (holds.right.below id member)⟩
  intro mine
  exact (List.nodup_append.mp holds.nodup).2.2 id mine id member rfl

/-- Both sides of a `join` are polled, one after the other. -/
theorem coupled_join {m₁ m₂ n₁ n₂ : Polling E H W (Polled E M S L own)} {ids others : List Nat}
    {s₁ s₂ : Shared E H × W} (holds : Outbox.Holds (ids ++ others) s₂.1.outbox)
    (first : Coupled (Agree ids s₂.1.outbox) m₁ s₁ m₂ s₂)
    (second : ∀ {t₁ t₂ : Shared E H × W}, Beside own t₁ t₂ →
      Outbox.Stays others s₂.1.outbox t₂.1.outbox →
      Coupled (Agree others t₂.1.outbox) n₁ t₁ n₂ t₂) :
    Coupled (Agree (ids ++ others) s₂.1.outbox)
      (do let x ← m₁; let y ← n₁; return x.join y) s₁
      (do let x ← m₂; let y ← n₂; return x.join y) s₂ := by
  refine Coupled.bind first ?_
  rintro _ t₁ x t₂ ⟨rfl, beside, moved, armed⟩
  refine Coupled.bind (second beside (moved.stays holds)) ?_
  rintro _ u₁ y u₂ ⟨rfl, beside', moved', armed'⟩
  refine coupled_pure ⟨(Polled.plain_join x y).symm, beside', ?_, ?_⟩
  · rw [Polled.ids_join]
    exact moved.both moved' holds
  · -- what the first left suspended is as it was
    have early := (moved.beside holds).holds
    have stays := moved'.stays (early.swap List.perm_append_comm)
    exact .join (armed.congr stays.same) armed'

/-- The sides of a `select` are polled until one is ready, and then the other is dropped. -/
theorem coupled_select {m₁ m₂ n₁ n₂ : Polling E H W (Polled E M S L own)} {d₁ d₂ : Polling E H W Unit}
    {places : Places W M} {ids others : List Nat} {s₁ s₂ : Shared E H × W}
    (holds : Outbox.Holds (ids ++ others) s₂.1.outbox)
    (first : Coupled (Agree ids s₂.1.outbox) m₁ s₁ m₂ s₂)
    (drops : ∀ {t₁ t₂ : Shared E H × W}, Beside own t₁ t₂ →
      Outbox.Stays others s₂.1.outbox t₂.1.outbox →
      Coupled (fun _ u₁ _ u₂ => Beside own u₁ u₂ ∧ Outbox.Moved others t₂.1.outbox u₂.1.outbox [])
        d₁ t₁ d₂ t₂)
    (second : ∀ {t₁ t₂ : Shared E H × W}, Beside own t₁ t₂ →
      Outbox.Stays others s₂.1.outbox t₂.1.outbox →
      Coupled (Agree others t₂.1.outbox) n₁ t₁ n₂ t₂) :
    let selects := fun (m n : Polling E H W (Polled E M S L own)) (d : Polling E H W Unit) => (do
      match ← m with
      | .ready x =>
        d
        return .ready (.left x)
      | .pending a =>
        match ← n with
        | .ready y =>
          a.drop places
          return .ready (.right y)
        | .pending b => return .pending (.select a b) : Polling E H W (Polled E M S L own))
    Coupled (Agree (ids ++ others) s₂.1.outbox) (selects m₁ n₁ d₁) s₁ (selects m₂ n₂ d₂) s₂ := by
  -- the left side first, and the right only if it waits
  intro selects
  refine Coupled.bind first ?_
  rintro _ t₁ p t₂ ⟨rfl, beside, moved, armed⟩
  have stays := moved.stays holds
  cases p with
  | ready x =>
    refine Coupled.bind (drops beside stays) ?_
    rintro _ u₁ _ u₂ ⟨beside', moved'⟩
    exact coupled_pure ⟨rfl, beside', moved.both moved' holds, trivial⟩
  | pending a =>
    refine Coupled.bind (second beside stays) ?_
    rintro _ u₁ q u₂ ⟨rfl, beside', moved', armed'⟩
    have both := moved.both moved' holds
    cases q with
    | ready y =>
      refine Coupled.bind (coupled_drop places a beside' ?_) ?_
      · exact both.holds.left
      · rintro _ v₁ _ v₂ ⟨beside'', dropped⟩
        refine coupled_pure ⟨rfl, beside'', ?_, trivial⟩
        rw [show (Polled.pending a).ids ++ (Polled.ready y).ids = a.ids from List.append_nil _] at both
        exact both.trans dropped
    | pending b =>
      -- what the left waits for is open still, after the right was polled
      have early := (moved.beside holds).holds
      have stays := moved'.stays (early.swap List.perm_append_comm)
      exact coupled_pure ⟨rfl, beside', both, armed.congr stays.same, armed'⟩

/-! ### Tasks -/

/-- Both sides of a `join` or a `select` have been made futures, in order. -/
theorem Entered.both {o : Outbox E} {early₁ early₂ late₁ late₂ : Option (Awaited S own × Nat)}
    {t₁ t₂ u₁ u₂ : Shared E H × W} (first : Entered o early₁ t₁ early₂ t₂)
    (second : Entered t₂.1.outbox late₁ u₁ late₂ u₂) :
    Outbox.Moved [] o u₂.1.outbox ((early₂.map Prod.snd).toList ++ (late₂.map Prod.snd).toList) ∧
      ∀ awaited id, early₂ = some (awaited, id) → awaited.Armed u₂.1.outbox id := by
  have moved := first.moved.both second.moved ⟨.nil, nofun⟩
  refine ⟨moved, fun awaited id same => ?_⟩
  obtain ⟨slot, found, ready⟩ := first.armed awaited id same
  have member : id ∈ (early₂.map Prod.snd).toList := by simp [same]
  have low := first.moved.holds.below id member
  exact ⟨slot, (second.moved.frame id nofun low).trans found, ready⟩

theorem Awaited.Armed.stays {o o' : Outbox E} {early : Option (Awaited S own × Nat)}
    (armed : ∀ awaited id, early = some (awaited, id) → awaited.Armed o id)
    (stays : Outbox.Stays (early.map Prod.snd).toList o o') :
    ∀ awaited id, early = some (awaited, id) → awaited.Armed o' id := by
  intro awaited id same
  obtain ⟨slot, found, ready⟩ := armed awaited id same
  exact ⟨slot, (stays.same id (by simp [same])).trans found, ready⟩

theorem coupled_dropEarly (late : Option (Awaited S own × Nat)) {s₁ s₂ : Shared E H × W}
    (beside : Beside own s₁ s₂) :
    Coupled (fun _ t₁ _ t₂ => Beside own t₁ t₂ ∧
        Outbox.Moved (late.map Prod.snd).toList s₂.1.outbox t₂.1.outbox [])
      (dropEarly (late.map fun late => ((none : Awaited S own), late.2))) s₁ (dropEarly late) s₂ := by
  cases late with
  | none => exact coupled_pure ⟨beside, .refl beside.outbox.kept₂ ⟨.nil, nofun⟩⟩
  | some late => exact coupled_close beside late.2

/-- Polls of the routine's parts go alike. -/
def Alike (call₁ call₂ : L → Polling E H W (Polled E M S L own)) : Prop :=
  ∀ (name : L) {s₁ s₂ : Shared E H × W}, Beside own s₁ s₂ →
    Coupled (Agree [] s₂.1.outbox) (call₁ name) s₁ (call₂ name) s₂

theorem coupled_beginWith {call₁ call₂ : L → Polling E H W (Polled E M S L own)}
    (calls : Alike call₁ call₂) (places : Places W M) (task : Task E M S L own)
    {s₁ s₂ : Shared E H × W} (beside : Beside own s₁ s₂) :
    Coupled (Agree [] s₂.1.outbox) (task.plain.beginWith call₁ places own) s₁
      (task.beginWith call₂ places own) s₂ := by
  -- a task that is ready at once holds nothing
  have unmoved : ∀ {s₁ s₂ : Shared E H × W}, Beside own s₁ s₂ →
      Outbox.Moved [] s₂.1.outbox s₂.1.outbox [] :=
    fun beside => .refl beside.outbox.kept₂ ⟨.nil, nofun⟩
  -- by induction on the task, each part from wherever the one before has got to
  induction task generalizing s₁ s₂ with
  | ret result => exact coupled_pure ⟨rfl, beside, unmoved beside, trivial⟩
  | tell effect =>
    refine .some ⟨rfl, ⟨beside.outbox.tell effect, beside.wakeup, beside.hooked, beside.world⟩, ?_,
      trivial⟩
    exact Outbox.moved_mail beside.outbox.kept₂ (Outbox.record_mail _ _)
  | ask adapter answer make =>
    refine Coupled.bind (coupled_record beside answer make) ?_
    rintro _ t₁ id t₂ ⟨rfl, beside', moved, opened⟩
    refine (coupled_pollAsked beside' ?_ (armed_recorded opened adapter)).mono ?_
    · exact moved.holds.below _ List.mem_cons_self
    · intro _ _ _ _ agree
      exact agree.after moved
  | receive place => exact coupled_pollReceive beside places own place
  | bind first next ihFirst ihNext =>
    rw [Task.plain, Task.beginWith, Task.beginWith]
    refine Coupled.bind (ihFirst beside) ?_
    rintro _ t₁ p t₂ ⟨rfl, beside', moved, armed⟩
    cases p with
    | ready result =>
      refine (ihNext result beside').mono ?_
      intro _ _ _ _ agree
      exact agree.after moved
    | pending future => exact coupled_pure ⟨rfl, beside', moved, armed⟩
  | join a b ihA ihB =>
    refine Coupled.bind (coupled_intoFuture a beside) ?_
    rintro _ t₁ early t₂ entered
    obtain rfl := entered.plain
    refine Coupled.bind (coupled_intoFuture b entered.beside) ?_
    rintro _ u₁ late u₂ entered'
    obtain rfl := entered'.plain
    -- what both sides recorded early is held while the first is polled
    obtain ⟨moved, armed⟩ := entered.both entered'
    refine (coupled_join moved.holds ?_ ?_).mono ?_
    · exact coupled_firstPoll ihA early entered'.beside moved.holds.left armed
    · intro v₁ v₂ beside' stays
      exact coupled_firstPoll ihB late beside' (moved.holds.right.later stays.next)
        (Awaited.Armed.stays entered'.armed stays)
    · intro _ _ _ _ agree
      exact agree.after moved
  | select a b ihA ihB =>
    refine Coupled.bind (coupled_intoFuture a beside) ?_
    rintro _ t₁ early t₂ entered
    obtain rfl := entered.plain
    refine Coupled.bind (coupled_intoFuture b entered.beside) ?_
    rintro _ u₁ late u₂ entered'
    obtain rfl := entered'.plain
    obtain ⟨moved, armed⟩ := entered.both entered'
    refine (coupled_select moved.holds ?_ ?_ ?_).mono ?_
    · exact coupled_firstPoll ihA early entered'.beside moved.holds.left armed
    · intro v₁ v₂ beside' stays
      exact coupled_dropEarly late beside'
    · intro v₁ v₂ beside' stays
      exact coupled_firstPoll ihB late beside' (moved.holds.right.later stays.next)
        (Awaited.Armed.stays entered'.armed stays)
    · intro _ _ _ _ agree
      exact agree.after moved
  | call name => exact calls name beside

theorem alike_callTo (src : Source E M S L W own) (depth : Nat) :
    Alike (src.plain.callTo own depth) (src.callTo (H := H) own depth) := by
  induction depth with
  | zero =>
    intro name s₁ s₂ beside
    exact coupled_failure
  | succ depth ih =>
    intro name s₁ s₂ beside
    exact coupled_beginWith ih src.places (src.code name) beside

theorem coupled_begin (src : Source E M S L W own) (task : Task E M S L own)
    {s₁ s₂ : Shared E H × W} (beside : Beside own s₁ s₂) :
    Coupled (Agree [] s₂.1.outbox) (task.plain.begin src.plain own) s₁ (task.begin src own) s₂ :=
  coupled_beginWith (alike_callTo src src.depth) src.places task beside

/-- A poll of a future whose adapters are armed goes as it would without them. -/
theorem coupled_poll (src : Source E M S L W own) (future : Fut E M S L own)
    {s₁ s₂ : Shared E H × W} (beside : Beside own s₁ s₂)
    (holds : Outbox.Holds future.ids s₂.1.outbox) (armed : future.Armed s₂.1.outbox) :
    Coupled (Agree future.ids s₂.1.outbox) (future.plain.poll src.plain own) s₁
      (future.poll src own) s₂ := by
  -- by induction on the future, as in `coupled_beginWith`
  induction future generalizing s₁ s₂ with
  | asked awaited id => exact coupled_pollAsked beside (holds.below id List.mem_cons_self) armed
  | receiving place => exact coupled_pollReceive beside src.places own place
  | bind first next ih =>
    refine Coupled.bind (ih beside holds armed) ?_
    rintro _ t₁ p t₂ ⟨rfl, beside', moved, armed'⟩
    cases p with
    | ready result =>
      refine (coupled_begin src (next result) beside').mono ?_
      intro _ _ _ _ agree
      exact agree.after moved
    | pending future => exact coupled_pure ⟨rfl, beside', moved, armed'⟩
  | joinBoth a b ihA ihB =>
    refine coupled_join holds (ihA beside holds.left armed.1) ?_
    intro t₁ t₂ beside' stays
    exact ihB beside' (holds.right.later stays.next) (armed.2.congr stays.same)
  | joinLeft a y ih =>
    refine Coupled.bind (ih beside holds armed) ?_
    rintro _ t₁ p t₂ ⟨rfl, beside', moved, armed'⟩
    refine coupled_pure ⟨(Polled.plain_join p (.ready y)).symm, beside', ?_, armed'.join trivial⟩
    rw [Polled.ids_join]
    -- the side that is ready holds nothing
    exact (List.append_nil p.ids).symm ▸ moved
  | joinRight x b ih =>
    refine Coupled.bind (ih beside holds armed) ?_
    rintro _ t₁ p t₂ ⟨rfl, beside', moved, armed'⟩
    refine coupled_pure ⟨(Polled.plain_join (.ready x) p).symm, beside', ?_, .join trivial armed'⟩
    rw [Polled.ids_join]
    exact moved
  | select a b ihA ihB =>
    refine coupled_select holds (ihA beside holds.left armed.1) ?_ ?_
    · intro t₁ t₂ beside' stays
      exact coupled_drop src.places b beside' (holds.right.later stays.next)
    · intro t₁ t₂ beside' stays
      exact ihB beside' (holds.right.later stays.next) (armed.2.congr stays.same)

end SansEffort
