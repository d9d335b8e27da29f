import SansEffort.Protocol.Following

/-!
# The Python host runs the specification

Each turn of the Python host's loop is a few actions of the specification's host: what it takes off
its queue is called, or was for nobody, and a machine resumed for no reason is a spurious resume. So
what the loop reaches, the specification reaches, and when the loop ends so does it.
-/

namespace SansEffort.Protocol

open Boundary Python

variable {k : Instance} {asks : Nat → Nat → Boundary.Request} {R : Type}

/-- The numbers of every state reached in at most `n` actions fit the wire. -/
def Host.Roomy (k : Instance) (n : Nat) (s : Host) : Prop :=
  ∀ actions s', Transition.run (Host.step k) s actions = some s' → actions.length ≤ n → s'.Small

/-- The Python host has gone on, and the specification's host with it in at most `n` actions. Work
has been done, or the queue's weight has fallen by `d`. -/
structure Went (k : Instance) (asks : Nat → Nat → Boundary.Request) (n d : Nat)
    (host : Python.Host Library R) (s : Host) (after : Python.Host Library R) (s' : Host) : Prop where
  follows : Follows k asks none after s'
  ran : ∃ actions, Transition.run (Host.step k) s actions = some s' ∧ actions.length ≤ n
  spends : ∀ load, Loads k load → s'.work k load < s.work k load ∨
    s'.work k load = s.work k load ∧ after.weight + d ≤ host.weight
  modest : ∀ m, host.world.Modest m → after.world.Modest (m + n)

/-- Some run from here comes to a pending event whose call panics. -/
def Host.Panics (k : Instance) (s : Host) : Prop :=
  ∃ actions s' e, Transition.run (Host.step k) s actions = some s' ∧ e ∈ s'.pending ∧
    (s'.world.attempt k e).failed e.target

/-- What a part of the Python host's loop comes to: it goes on, a call panics, or an answer fits no
record. -/
inductive Goes (k : Instance) (asks : Nat → Nat → Boundary.Request) (n d : Nat)
    (host : Python.Host Library R) (s : Host) : Except Raised (Python.Host Library R) → Prop
  | on (after : Python.Host Library R) (s' : Host) : Went k asks n d host s after s' →
      Goes k asks n d host s (.ok after)
  | panicked : s.Panics k → Goes k asks n d host s (.error (.failed (-4)))
  | unfit (g id : Nat) (w : Python.World) : ¬ Fits w (asks g id) →
      (∀ m, host.world.Modest m → w.Modest (m + n)) → Goes k asks n d host s (.error .unpack)

variable {host after : Python.Host Library R} {s s' : Host} {n d : Nat}

theorem Host.Roomy.later {a b : Nat} (roomy : s.Roomy k (a + b)) {actions : List Host.Action}
    (ran : Transition.run (Host.step k) s actions = some s') (few : actions.length ≤ a) :
    s'.Roomy k b := by
  intro more last ran' few'
  refine roomy (actions ++ more) last ?_ (by rw [List.length_append]; omega)
  rw [Transition.run_append, ran]
  exact ran'

theorem Host.Roomy.less {m : Nat} (roomy : s.Roomy k n) (le : m ≤ n) : s.Roomy k m :=
  fun actions s' ran few => roomy actions s' ran (few.trans le)

theorem Host.Roomy.small (roomy : s.Roomy k n) : s.Small := roomy [] s rfl (Nat.zero_le _)

theorem Host.Panics.before {actions : List Host.Action}
    (ran : Transition.run (Host.step k) s actions = some s') (panics : s'.Panics k) : s.Panics k := by
  obtain ⟨more, last, e, ran', pending, failed⟩ := panics
  refine ⟨actions ++ more, last, e, ?_, pending, failed⟩
  rw [Transition.run_append, ran]
  exact ran'

theorem Went.trans {host' : Python.Host Library R} {s'' : Host} {n' d' : Nat}
    (first : Went k asks n d host s after s') (second : Went k asks n' d' after s' host' s'') :
    Went k asks (n + n') (d + d') host s host' s'' := by
  obtain ⟨actions, ran, few⟩ := first.ran
  obtain ⟨more, ran', few'⟩ := second.ran
  refine ⟨second.follows, ⟨actions ++ more, ?_, by rw [List.length_append]; omega⟩,
    fun load loads => ?_, fun m modest => ?_⟩
  · rw [Transition.run_append, ran]
    exact ran'
  · rcases first.spends load loads with less | ⟨same, lighter⟩ <;>
      rcases second.spends load loads with less' | ⟨same', lighter'⟩
    · exact .inl (by omega)
    · exact .inl (by omega)
    · exact .inl (by omega)
    · exact .inr ⟨by omega, by omega⟩
  · exact (second.modest _ (first.modest m modest)).more (by omega)

theorem Went.goes {n' d' : Nat} (went : Went k asks n d host s after s')
    {result : Except Raised (Python.Host Library R)} (goes : Goes k asks n' d' after s' result) :
    Goes k asks (n + n') (d + d') host s result := by
  cases goes with
  | on last s'' went' => exact .on last s'' (went.trans went')
  | panicked panics =>
    obtain ⟨actions, ran, _⟩ := went.ran
    exact .panicked (panics.before ran)
  | unfit g id w unfit modest =>
    exact .unfit g id w unfit fun m before => (modest _ (went.modest m before)).more (by omega)

/-- What follows from the host with an event taken up follows from the host before. -/
theorem Goes.taken {j : Nat} (lighter : after.weight + d ≤ host.weight)
    (modest : ∀ m, host.world.Modest m → after.world.Modest (m + j)) {d' : Nat}
    {actions : List Host.Action} (ran : Transition.run (Host.step k) s actions = some s')
    (few : actions.length ≤ j) (still : ∀ load, s'.work k load = s.work k load)
    {result : Except Raised (Python.Host Library R)} (goes : Goes k asks n d' after s' result) :
    Goes k asks (j + n) (d + d') host s result := by
  cases goes with
  | on last s'' went =>
    obtain ⟨more, ran', few'⟩ := went.ran
    refine .on last s'' ⟨went.follows, ⟨actions ++ more, ?_, by rw [List.length_append]; omega⟩,
      fun load loads => ?_, fun m before => (went.modest _ (modest m before)).more (by omega)⟩
    · rw [Transition.run_append, ran]
      exact ran'
    · have same := still load
      rcases went.spends load loads with less | ⟨same', lighter'⟩
      · exact .inl (by omega)
      · exact .inr ⟨by omega, by omega⟩
  | panicked panics => exact .panicked (panics.before ran)
  | unfit g id w unfit later =>
    exact .unfit g id w unfit fun m before => (later _ (modest m before)).more (by omega)

/-- A part of the loop that makes no call needs no action of the specification's host. -/
theorem Goes.noted (lighter : after.weight + d ≤ host.weight)
    (modest : ∀ m, host.world.Modest m → after.world.Modest (m + 1)) {d' : Nat}
    {result : Except Raised (Python.Host Library R)} (goes : Goes k asks n d' after s result) :
    Goes k asks (1 + n) (d + d') host s result := by
  have stays : Transition.run (Host.step k) s [] = some s := rfl
  exact goes.taken lighter modest stays (Nat.zero_le 1) fun _ => rfl

/-! ### A call -/

section

variable (correct : k.Correct) (short : k.Short) (workers : 1 ≤ k.workers)
  (shorts : ∀ g id, Short (asks g id))
include correct short workers shorts

theorem Follows.goes {e : Event} {m : Machine} (follows : Follows k asks (some e) host s)
    (found : s.machines[e.target]? = some m) (stays : m.status ≠ .gone) (roomy : s.Roomy k 2) :
    Goes k asks 2 0 host s (host.ran (e.target + 1) (host.lib.call k asks e m)) := by
  have pending := follows.held e rfl
  obtain ⟨m', there, right, begins⟩ := follows.callable pending
  obtain rfl := Option.some.inj (found.symm.trans there)
  have ran := Host.run_served workers found pending follows.running follows.idle right
  rcases follows.called correct short workers shorts found stays
    (fun _ => roomy _ _ ran (le_refl _)) with ⟨failed, raised⟩ | ⟨calm, heard, after⟩
  · rw [raised]
    exact .panicked ⟨[], s, e, rfl, pending, failed⟩
  · rw [heard]
    refine .on _ _ ⟨after, ⟨_, ran, le_refl _⟩, fun load loads => ?_,
      fun m modest => modest.more (Nat.le_add_right m 2)⟩
    have sound := follows.judging.awake.sound
    obtain ⟨n, called⟩ := Host.ran_of_found sound.world found stays begins calm
    refine (Host.served_spends loads sound called calm).imp_right fun ⟨same, effects, woke⟩ =>
      ⟨same, Nat.le_of_eq ?_⟩
    apply Python.Host.heard_weight
    · unfold Output.yielded
      rw [effects]
      rfl
    · unfold Output.woken
      rw [woke, Finset.sort_empty, List.map_nil]

/-! ### What is taken off the queue -/

variable {entry : Python.Entry} {queue : List Python.Entry} {rng : Option R}

/-- The resume of a machine that is not gone. -/
theorem Follows.resume_goes {g : Nat} {m : Machine} (follows : Follows k asks (some (.resume g)) host s)
    (found : s.machines[g]? = some m) (stays : m.status ≠ .gone) (roomy : s.Roomy k 2) :
    Goes k asks 2 0 host s (host.ran (g + 1) ((spoken k asks).resume host.lib (g + 1))) := by
  rw [follows.resumed found stays]
  exact follows.goes correct short workers shorts found stays roomy

/-- The first resume of a child. -/
theorem born_goes (follows : Follows k asks none host s) (perm : host.queue.Perm (entry :: queue))
    {g : Nat} (child : entry.child = some (g + 1)) (awaits : entry.awaits = none)
    (woken : entry.woken = none) (roomy : s.Roomy k 3) :
    Goes k asks 3 1 host s (Python.Host.ran (g + 1) ((spoken k asks).resume host.lib (g + 1))
      { host with rng, queue }) := by
  let after : Python.Host Library R := { host with rng, queue }
  have born := Python.Host.born_of_perm after perm
  have awaited := Python.Host.awaited_of_perm after perm rfl
  have told := Python.Host.told_of_perm after perm
  have listed : g + 1 ∈ host.born := born.mem_iff.mpr (by simp [child])
  obtain ⟨g', m, same, there, fresh, _⟩ := follows.born.2 _ listed
  obtain rfl : g = g' := Nat.succ.inj same
  -- it is pending, since nothing is in flight
  have pending : .resume g ∈ s.pending := by
    rcases follows.judging.awake.unbegun g m there fresh with pending | ⟨x, out, flying, _⟩
    · exact pending
    · rw [follows.idle] at flying
      cases flying
  have up : Follows k asks (some (.resume g)) after s := by
    refine follows.take rfl rfl rfl (fun entry member => follows.queue entry
      (perm.mem_iff.mpr (List.mem_cons_of_mem _ member))) follows.timers _ _ _ awaited born told ?_ ?_
      ?_ ?_ ?_
    · rintro e same
      exact Option.some.inj same ▸ pending
    · simp [awaits]
    · intro g' same
      rw [child] at same
      rw [Nat.succ.inj (Option.some.inj same)]
    · simp [woken]
    · intro g' same later
      obtain rfl := Event.resume.inj (Option.some.inj same)
      rw [child] at born
      exact (List.nodup_cons.mp (born.nodup_iff.mp follows.born.1)).1 later
  have weight := Python.Host.weight_of_perm after perm rfl
  have lighter : after.weight + 1 ≤ host.weight := by
    have := entry.weight_pos
    omega
  have room : s.Roomy k 2 := roomy.less (by decide)
  have goes := up.resume_goes correct short workers shorts there (by simp [fresh]) room
  exact goes.noted lighter fun m modest => modest.more (Nat.le_succ m)

/-- The reply to an outstanding request. -/
theorem Follows.reply_goes {g id : Nat} (follows : Follows k asks (some (.reply g id)) host s)
    {record : Bytes} (answering : Answering asks g id record) (roomy : s.Roomy k 2) :
    Goes k asks 2 0 host s
      (host.ran (g + 1) ((spoken k asks).reply host.lib (g + 1) record)) := by
  obtain ⟨m, there, asked | ⟨out, flying, _⟩⟩ := follows.live g id (follows.held _ rfl)
  · obtain ⟨stays, same⟩ := follows.replied there asked answering
    rw [same]
    exact follows.goes correct short workers shorts there stays roomy
  · rw [follows.idle] at flying
    cases flying

end

/-- The item taken off the queue is for nobody, and the host drops it. -/
theorem Follows.dropped {entry : Python.Entry} {queue : List Python.Entry}
    (follows : Follows k asks none host s) (rng : Option R) (perm : host.queue.Perm (entry :: queue))
    (child : entry.child = none)
    (awaits : ∀ pair, entry.awaits = some pair → pair ∈ host.closed)
    (woken : ∀ g, entry.woken = some (g + 1) → .resume g ∈ s.pending → ∃ m,
      s.machines[g]? = some m ∧ (m.status = .notStarted ∨ m.status = .gone)) :
    Follows k asks none { host with rng, queue } s ∧
      Python.Host.weight { host with rng, queue } + 1 ≤ host.weight := by
  let after : Python.Host Library R := { host with rng, queue }
  have weight := Python.Host.weight_of_perm after perm rfl
  have lighter : after.weight + 1 ≤ host.weight := by
    have := entry.weight_pos
    omega
  refine ⟨?_, lighter⟩
  refine follows.take rfl rfl rfl (fun entry member => follows.queue entry
    (perm.mem_iff.mpr (List.mem_cons_of_mem _ member))) follows.timers _ _ _
    (Python.Host.awaited_of_perm after perm rfl) (Python.Host.born_of_perm after perm)
    (Python.Host.told_of_perm after perm) (by simp) ?_ (by simp [child])
    (fun g named pending => .inr (woken g named pending)) (by simp)
  intro g id
  simp only [reduceCtorEq, Option.mem_toList, false_iff, not_and, not_not]
  exact awaits _

/-- The host takes up a request, and is to reply to it. -/
theorem Follows.asked {entry : Python.Entry} {queue : List Python.Entry} {rng : Option R}
    (follows : Follows k asks none host s) (perm : host.queue.Perm (entry :: queue)) {g id : Nat}
    (awaits : entry.awaits = some (g + 1, id)) (child : entry.child = none)
    (woken : entry.woken = none) (opened : (g + 1, id) ∉ host.closed) :
    Follows k asks (some (.reply g id)) { host with rng, queue } s := by
  let after : Python.Host Library R := { host with rng, queue }
  have awaited := Python.Host.awaited_of_perm after perm rfl
  have listed : (g + 1, id) ∈ host.awaited := awaited.mem_iff.mpr (by simp [awaits])
  refine follows.take rfl rfl rfl (fun entry member => follows.queue entry
    (perm.mem_iff.mpr (List.mem_cons_of_mem _ member))) follows.timers _ _ _ awaited
    (Python.Host.born_of_perm after perm) (Python.Host.told_of_perm after perm) ?_ ?_ (by simp [child])
    (by simp [woken]) (by simp)
  · rintro e same
    exact Option.some.inj same ▸ (follows.replies g id).mpr (.inr ⟨listed, opened⟩)
  · intro g' id'
    rw [awaits]
    simp only [Option.some.injEq, Event.reply.injEq, Option.toList_some, List.mem_singleton,
      Prod.mk.injEq, Nat.add_right_cancel_iff]
    constructor
    · rintro ⟨rfl, rfl⟩
      exact ⟨⟨rfl, rfl⟩, opened⟩
    · rintro ⟨⟨rfl, rfl⟩, _⟩
      exact ⟨rfl, rfl⟩

/-- The host takes up a wake, and is to resume the machine. -/
theorem Follows.woken {lane : Lane} {h g : Nat} {queue : List Python.Entry} {rng : Option R}
    {m : Machine} (follows : Follows k asks none host s)
    (perm : host.queue.Perm ((lane, h, .effect (.woke (g + 1))) :: queue))
    (there : s.machines[g]? = some m) (begun : m.status ≠ .notStarted)
    (pending : .resume g ∈ s.pending) :
    Follows k asks (some (.resume g)) { host with rng, queue } s := by
  let after : Python.Host Library R := { host with rng, queue }
  have born : host.born.Perm after.born := Python.Host.born_of_perm after perm
  refine follows.take rfl rfl rfl (fun entry member => follows.queue entry
    (perm.mem_iff.mpr (List.mem_cons_of_mem _ member))) follows.timers
    _ none _
    (Python.Host.awaited_of_perm after perm rfl) born (Python.Host.told_of_perm after perm) ?_ ?_
    (by simp) ?_ ?_
  · rintro e same
    exact Option.some.inj same ▸ pending
  · simp [Python.Entry.awaits, Item.id]
  · rintro g' named _
    rw [Nat.succ.inj (Option.some.inj named)]
    exact .inl rfl
  · rintro g' same listed
    obtain rfl := Event.resume.inj (Option.some.inj same)
    obtain ⟨g', m', same, there', fresh, _⟩ := follows.born.2 _ (born.mem_iff.mpr listed)
    obtain rfl : g = g' := Nat.succ.inj same
    obtain rfl := Option.some.inj (there.symm.trans there')
    exact begun fresh

/-- The status the host has noted for a machine says whether it is gone or waits. -/
theorem Follows.reported (follows : Follows k asks none host s) {handle : Nat}
    {status : SansEffort.Status} (found : host.machines.lookup handle = some status) :
    ∃ g m, handle = g + 1 ∧ s.machines[g]? = some m ∧
      (m.status = .gone ∧ status = .complete ∨ m.waitingIn ∧ status ≠ .complete) := by
  have listed : handle ∈ host.machines.map Prod.fst := by
    obtain ⟨front, back, same, _⟩ := List.lookup_eq_some_iff.mp found
    rw [same]
    simp
  obtain ⟨g, low, rfl⟩ := follows.handles _ listed
  have there := List.getElem?_eq_getElem low
  refine ⟨g, _, rfl, there, ?_⟩
  have known := follows.known g _ there
  have same := known.status
  have freed := known.freed
  have settled := follows.judging.settled _ (List.getElem_mem low)
  rw [found] at same
  unfold Machine.waitingIn
  cases now : s.machines[g].status <;> 
    simp [now, Status.reported] at same freed settled ⊢ <;> simp [same]

section

variable (correct : k.Correct) (short : k.Short) (workers : 1 ≤ k.workers)
  (shorts : ∀ g id, Short (asks g id))
include correct short workers shorts

/-- A request is answered, now or later, or is slept on. -/
theorem Follows.request_goes {lane : Lane} {g id : Nat} {queue : List Python.Entry} {rng : Option R}
    (follows : Follows k asks none host s)
    (perm : host.queue.Perm ((lane, g + 1, .effect (.of ((asks g id).view id))) :: queue))
    (opened : (g + 1, id) ∉ host.closed) (roomy : s.Roomy k 3) :
    Goes k asks 3 1 host s (Python.Host.perform (spoken k asks) (g + 1) { host with rng, queue }
      (.effect (.of ((asks g id).view id)))) := by
  let after : Python.Host Library R := { host with rng, queue }
  let entry : Python.Entry := (lane, g + 1, .effect (.of ((asks g id).view id)))
  have awaits : entry.awaits = some (g + 1, id) := by simp [entry, Python.Entry.awaits]
  have child : entry.child = none := by simp [entry, Python.Entry.child]
  have woken : entry.woken = none := by simp [entry, Python.Entry.woken]
  have weighs : host.weight = 3 + after.weight := by
    rw [Python.Host.weight_of_perm after perm rfl]
    simp [Python.Entry.weight]
  have awaited := Python.Host.awaited_of_perm after perm rfl
  rw [show Python.Entry.awaits _ = _ from awaits] at awaited
  have born := Python.Host.born_of_perm after perm
  have told := Python.Host.told_of_perm after perm
  have queued : ∀ entry ∈ queue, Queued asks entry := fun entry member =>
    follows.queue entry (perm.mem_iff.mpr (List.mem_cons_of_mem _ member))
  -- it waits for its reply where it is now
  have moved : ∀ {host' : Python.Host Library R}, host'.lib = host.lib →
      host'.machines = host.machines → host'.closed = host.closed →
      (∀ entry ∈ host'.queue, Queued asks entry) →
      (∀ timer ∈ host'.timers, ∃ g r, timer.handle = g + 1 ∧ asks g timer.id = .sleep r) →
      host'.awaited.Perm ((g + 1, id) :: after.awaited) → host'.born = after.born →
      host'.told = after.told → Follows k asks none host' s := by
    intro host' lib machines closed queue timers now born' told'
    refine follows.take lib machines closed queue timers [] none none
      (awaited.trans now.symm) ?_ ?_ (by simp) (by simp) (by simp) (by simp) (by simp)
    · rw [born']
      rw [show Python.Entry.child _ = _ from child] at born
      exact born
    · rw [told']
      rw [show Python.Entry.woken _ = _ from woken] at told
      exact told
  have small : id < 2 ^ 64 := by
    obtain ⟨g', m, same, there, low⟩ := follows.made (g + 1, id)
      (.inl (awaited.mem_iff.mpr List.mem_cons_self))
    exact Nat.lt_of_lt_of_le low (roomy.small.2 m (List.mem_of_getElem? there))
  show Goes k asks 3 1 host s (Python.Host.perform (spoken k asks) (g + 1) after _)
  by_cases awake : ∀ r, asks g id ≠ .sleep r
  · by_cases fits : Fits host.world (asks g id)
    · obtain ⟨record, value, made, replies, carries⟩ := answers small fits awake
      have answering : Answering asks g id record := ⟨value, _, replies, carries⟩
      have modest : ∀ m, host.world.Modest m →
          (World.context.ask (asks g id) host.world).2.Modest (m + 1) :=
        fun m modest => modest.ask (shorts g id)
      cases rng with
      | none =>
        have performed : Python.Host.perform (spoken k asks) (g + 1) after
            (.effect (.of ((asks g id).view id))) = _ := Python.Host.perform_ask awake rfl made
        rw [performed]
        have waiting : Follows k asks (some (.reply g id)) after s :=
          follows.asked perm awaits child woken opened
        have up : Follows k asks (some (.reply g id))
            { after with world := (World.context.ask (asks g id) host.world).2 } s := { waiting with }
        have room : s.Roomy k 2 :=
          roomy.less (by decide)
        have goes := up.reply_goes correct short workers shorts answering room
        have lighter : Python.Host.weight
            { after with world := (World.context.ask (asks g id) host.world).2 } + 1 ≤ host.weight := by
          show after.weight + 1 ≤ _
          omega
        exact goes.noted lighter modest
      | some r =>
        have performed : Python.Host.perform (spoken k asks) (g + 1) after
            (.effect (.of ((asks g id).view id))) = _ := Python.Host.perform_later awake rfl made
        rw [performed, Item.number_request]
        obtain ⟨perm', born', told', weight⟩ := after.postponed
          (World.context.ask (asks g id) host.world).2 (.reply (g + 1) id) (g + 1) id record
        refine .on _ s ⟨moved rfl rfl rfl (fun entry member => ?_) follows.timers perm' born' told',
          ⟨[], rfl, Nat.zero_le _⟩, fun load _ => .inr ⟨rfl, by omega⟩,
          fun m before => (modest m before).more (by omega)⟩
        rcases List.mem_append.mp member with old | new
        · exact queued entry old
        · obtain rfl := List.mem_singleton.mp new
          exact .replies _ g id record answering
    · have performed : Python.Host.perform (spoken k asks) (g + 1) after
          (.effect (.of ((asks g id).view id))) = _ :=
        Python.Host.perform_raised awake (answer_unfit small fits)
      rw [performed]
      exact .unfit g id host.world fits fun m modest => modest.more (Nat.le_add_right m 3)
  · obtain ⟨r, sleeps⟩ : ∃ r, asks g id = .sleep r := by simpa using awake
    obtain ⟨perm', weight⟩ := after.slept
      ⟨host.world.now + r.millis.toNat, host.order, g + 1, id⟩ (host.order + 1)
    have performed : Python.Host.perform (spoken k asks) (g + 1) after
        (.effect (.of ((asks g id).view id))) = .ok { after with
          timers := push ⟨host.world.now + r.millis.toNat, host.order, g + 1, id⟩ after.timers
          order := host.order + 1 } := by
      rw [sleeps]
      rfl
    rw [performed]
    refine .on _ s ⟨moved rfl rfl rfl queued (fun timer member => ?_) perm' rfl rfl,
      ⟨[], rfl, Nat.zero_le _⟩, fun load _ => .inr ⟨rfl, by omega⟩,
      fun m before => before.more (Nat.le_add_right m 3)⟩
    rcases List.mem_cons.mp ((Python.Host.push_perm _ _).mem_iff.mp member) with rfl | old
    · exact ⟨g, r, rfl, sleeps⟩
    · exact follows.timers timer old

/-- A machine that was woken is resumed, if it waits. -/
theorem Follows.woke_goes {lane : Lane} {h g : Nat} {queue : List Python.Entry} {rng : Option R}
    (follows : Follows k asks none host s)
    (perm : host.queue.Perm ((lane, h, .effect (.woke (g + 1))) :: queue))
    (left : 0 < s.spuriousLeft) (roomy : s.Roomy k 3) :
    Goes k asks 3 1 host s (Python.Host.perform (spoken k asks) h { host with rng, queue }
      (.effect (.woke (g + 1)))) := by
  let after : Python.Host Library R := { host with rng, queue }
  let entry : Python.Entry := (lane, h, .effect (.woke (g + 1)))
  have performed : Python.Host.perform (spoken k asks) h after (.effect (.woke (g + 1))) =
      (host.machines.lookup (g + 1)).elim (.ok after) fun status =>
        if status = .complete then .ok after
        else after.ran (g + 1) ((spoken k asks).resume after.lib (g + 1)) := by
    unfold Python.Host.perform
    dsimp only
    cases host.machines.lookup (g + 1) <;> rfl
  show Goes k asks 3 1 host s (Python.Host.perform (spoken k asks) h after _)
  rw [performed]
  have weight : host.weight = 1 + after.weight :=
    Python.Host.weight_of_perm after perm rfl
  have drops : (∀ m, s.machines[g]? = some m → m.status = .notStarted ∨ m.status = .gone) →
      Goes k asks 3 1 host s (.ok after) := by
    intro idle
    obtain ⟨dropped, lighter⟩ := follows.dropped rng perm rfl (by simp [Python.Entry.awaits,
      Item.id]) fun g' named pending => by
        obtain rfl : g = g' := Nat.succ.inj (Option.some.inj named)
        have low := follows.judging.placed.pending _ pending
        exact ⟨_, List.getElem?_eq_getElem low, idle _ (List.getElem?_eq_getElem low)⟩
    exact .on after s ⟨dropped, ⟨[], rfl, Nat.zero_le _⟩, fun load _ => .inr ⟨rfl, lighter⟩,
      fun m before => before.more (Nat.le_add_right m 3)⟩
  cases found : host.machines.lookup (g + 1) with
  | none =>
    refine drops fun m there => .inl ?_
    have known := (follows.known g m there).status
    rw [found] at known
    by_contra begun
    rw [if_neg begun] at known
    cases known
  | some status =>
    rw [Option.elim_some]
    obtain ⟨g', m, same, there, ⟨gone, rfl⟩ | ⟨waits, going⟩⟩ := follows.reported found <;>
      obtain rfl : g = g' := Nat.succ.inj same
    · refine drops fun m' there' => .inr ?_
      obtain rfl := Option.some.inj (there.symm.trans there')
      exact gone
    · rw [if_neg going]
      have begun : m.status ≠ .notStarted := by rcases waits with status | status <;> simp [status]
      have stays : m.status ≠ .gone := by rcases waits with status | status <;> simp [status]
      obtain ⟨actions, s', ran, few, machines, up⟩ : ∃ actions s',
          Transition.run (Host.step k) s actions = some s' ∧ actions.length ≤ 1 ∧
            s'.machines = s.machines ∧ Follows k asks (some (.resume g)) after s' := by
        by_cases pending : .resume g ∈ s.pending
        · exact ⟨[], s, rfl, Nat.zero_le _, rfl, follows.woken perm there begun pending⟩
        · have dropped := (follows.dropped rng perm rfl (by simp [Python.Entry.awaits, Item.id])
            fun g' named due => by
              obtain rfl : g = g' := Nat.succ.inj (Option.some.inj named)
              exact absurd due pending).1
          rcases dropped.up correct short there waits left with up | ⟨stepped, up⟩
          · exact ⟨[], s, rfl, Nat.zero_le _, rfl, up⟩
          · exact ⟨[.spurious g], s.spurred g, by simp [stepped], le_refl _, rfl, up⟩
      have room : s'.Roomy k 2 := Host.Roomy.later (a := 1) roomy ran few
      have goes := up.resume_goes correct short workers shorts (machines ▸ there) stays room
      have lighter : after.weight + 1 ≤ host.weight := by omega
      exact goes.taken (j := 1) lighter (fun m before => before.more (Nat.le_succ m)) ran few
        fun load => congrArg (fun machines => (List.map (Machine.work k load) machines).sum) machines

/-- The host deals with any item of its queue, or drops it if its request was given up. -/
theorem Follows.entry_goes {entry : Python.Entry} {queue : List Python.Entry}
    (follows : Follows k asks none host s) (rng : Option R) (perm : host.queue.Perm (entry :: queue))
    (left : 0 < s.spuriousLeft) (roomy : s.Roomy k 3) :
    if entry.awaits.any (· ∈ host.closed) then Went k asks 3 1 host s { host with rng, queue } s
    else Goes k asks 3 1 host s
      (Python.Host.perform (spoken k asks) entry.2.1 { host with rng, queue } entry.2.2) := by
  have queued := follows.queue entry (perm.mem_iff.mpr List.mem_cons_self)
  have dropped : entry.child = none → entry.woken = none →
      (∀ pair, entry.awaits = some pair → pair ∈ host.closed) →
      Went k asks 3 1 host s { host with rng, queue } s := by
    intro child woken given
    obtain ⟨dropped, lighter⟩ := follows.dropped rng perm child given (by simp [woken])
    exact ⟨dropped, ⟨[], rfl, Nat.zero_le _⟩, fun load _ => .inr ⟨rfl, lighter⟩,
      fun m before => before.more (Nat.le_add_right m 3)⟩
  have room : s.Roomy k 2 := roomy.less (by decide)
  cases queued with
  | born lane h g =>
    exact born_goes correct short workers shorts follows perm rfl rfl rfl roomy
  | bornPinned lane h g =>
    exact born_goes correct short workers shorts follows perm rfl rfl rfl roomy
  | woke lane h g =>
    exact follows.woke_goes correct short workers shorts perm left roomy
  | asks lane g id =>
    have awaits : Python.Entry.awaits (lane, g + 1, .effect (.of ((asks g id).view id))) =
        some (g + 1, id) := by simp [Python.Entry.awaits]
    rw [awaits, Option.any_some]
    split
    · next given =>
      refine dropped (by simp [Python.Entry.child]) (by simp [Python.Entry.woken]) fun pair same => ?_
      rw [awaits] at same
      exact Option.some.inj same ▸ of_decide_eq_true given
    · next opened =>
      exact follows.request_goes correct short workers shorts perm (by simpa using opened) roomy
  | replies lane g id record answering =>
    have awaits : Python.Entry.awaits (lane, g + 1, .reply id record) = some (g + 1, id) := rfl
    rw [awaits, Option.any_some]
    split
    · next given =>
      refine dropped rfl rfl fun pair same => ?_
      rw [awaits] at same
      exact Option.some.inj same ▸ of_decide_eq_true given
    · next opened =>
      let after : Python.Host Library R := { host with rng, queue }
      have up : Follows k asks (some (.reply g id)) after s :=
        follows.asked perm awaits rfl rfl (by simpa using opened)
      have lighter : after.weight + 1 ≤ host.weight := by
        rw [Python.Host.weight_of_perm after perm rfl]
        exact Nat.add_comm _ 1 ▸ Nat.add_le_add_right (Nat.succ_le_succ (Nat.zero_le _)) _
      have goes := up.reply_goes correct short workers shorts answering room
      exact goes.noted lighter fun m before => before.more (Nat.le_succ m)

/-- A machine that has not completed is resumed for no reason. -/
theorem Follows.stutter_goes {handle : Nat} (follows : Follows k asks none host s)
    (alive : handle ∈ host.live) (left : 0 < s.spuriousLeft) (roomy : s.Roomy k 3) :
    Goes k asks 3 0 host s (host.ran handle ((spoken k asks).resume host.lib handle)) := by
  obtain ⟨known, member, rfl⟩ := List.mem_map.mp alive
  obtain ⟨listed, going⟩ := List.mem_filter.mp member
  have found := lookup_of_mem known.2 follows.apart listed
  have going : known.2 ≠ .complete := by simpa using going
  obtain ⟨g, m, same, there, ⟨_, complete⟩ | ⟨waits, _⟩⟩ := follows.reported found
  · exact absurd complete going
  · rw [same]
    have stays : m.status ≠ .gone := by rcases waits with status | status <;> simp [status]
    rcases follows.up correct short there waits left with up | ⟨stepped, up⟩
    · have room : s.Roomy k 2 := roomy.less (by decide)
      have goes := up.resume_goes correct short workers shorts there stays room
      exact goes.noted (d := 0) (le_refl _) fun m before => before.more (Nat.le_succ m)
    · have ran : Transition.run (Host.step k) s [.spurious g] = some (s.spurred g) := by simp [stepped]
      have room : (s.spurred g).Roomy k 2 := Host.Roomy.later (a := 1) roomy ran (le_refl _)
      have goes := up.resume_goes correct short workers shorts there stays room
      exact goes.taken (j := 1) (d := 0) (le_refl _) (fun m before => before.more (Nat.le_succ m))
        ran (le_refl _) fun _ => rfl

/-- The first timer that is still wanted is replied to. -/
theorem Follows.timer_goes {timer : Timer} {rest : List Timer} (follows : Follows k asks none host s)
    (due : host.due = timer :: rest) (roomy : s.Roomy k 3) :
    ∃ record, replyUnit timer.id = .ok record ∧
      Goes k asks 3 1 host s (Python.Host.ran timer.handle
        ((spoken k asks).reply host.lib timer.handle record)
        { host with timers := rest, world.now := timer.due }) := by
  let after : Python.Host Library R := { host with timers := rest, world.now := timer.due }
  obtain ⟨opened, among, lighter, dropped, given, awaited⟩ :=
    Python.Host.due_cons due { host.world with now := timer.due }
  obtain ⟨g, r, same, sleeps⟩ := follows.timers timer (among timer List.mem_cons_self)
  rw [same] at awaited
  have small : timer.id < 2 ^ 64 := by
    obtain ⟨g', m, _, there, low⟩ := follows.made (g + 1, timer.id)
      (.inl (awaited.mem_iff.mpr (by simp)))
    exact Nat.lt_of_lt_of_le low (roomy.small.2 m (List.mem_of_getElem? there))
  obtain ⟨record, value, made, replies, carries⟩ := answers_sleep host.world r small
  have answering : Answering asks g timer.id record := by
    unfold Answering
    rw [sleeps]
    exact ⟨value, _, replies, carries⟩
  have up : Follows k asks (some (.reply g timer.id)) after s := by
    refine follows.take rfl rfl rfl follows.queue (fun other member =>
      follows.timers other (among other (List.mem_cons_of_mem _ member))) _ none none awaited (.refl _)
      (.refl _) ?_ ?_ (by simp) (by simp) (by simp)
    · rintro e up
      obtain rfl := Option.some.inj up
      exact (follows.replies g timer.id).mpr (.inr ⟨awaited.mem_iff.mpr (by simp), same ▸ opened⟩)
    · intro g' id
      rw [List.mem_append, List.mem_singleton]
      constructor
      · intro up
        obtain ⟨rfl, rfl⟩ := Event.reply.inj (Option.some.inj up)
        exact ⟨.inr rfl, same ▸ opened⟩
      · rintro ⟨before | now, wanted⟩
        · exact absurd (given _ before) wanted
        · obtain ⟨handle, rfl⟩ := Prod.mk.inj now
          rw [Nat.succ.inj handle]
  have room : s.Roomy k 2 := roomy.less (by decide)
  have goes := up.reply_goes correct short workers shorts answering room
  refine ⟨record, made, ?_⟩
  rw [same]
  exact goes.noted lighter fun m before => (before.more (Nat.le_succ m)).later _

end

/-! ### A turn -/

/-- An action spends at most one of the budget of spurious resumes. -/
theorem Host.run_spurious {actions : List Host.Action}
    (ran : Transition.run (Host.step k) s actions = some s') :
    s.spuriousLeft ≤ s'.spuriousLeft + actions.length := by
  induction actions generalizing s with
  | nil =>
    obtain rfl := Option.some.inj ran
    simp
  | cons a rest ih =>
    obtain ⟨next, stepped, later⟩ := Option.bind_eq_some_iff.mp ran
    have once : s.spuriousLeft ≤ next.spuriousLeft + 1 := by
      cases step_cases stepped with
      | spurred => exact (Int.sub_add_cancel s.spuriousLeft 1).ge
      | refused | called | returned | woken | judged | killed | done => exact Int.le.intro 1 rfl
    have := ih later
    rw [List.length_cons]
    push_cast
    omega

/-- The number of machines that are not gone. -/
def Host.unfinished (s : Host) : Nat := s.machines.countP (·.status ≠ .gone)

theorem countP_range {α : Type} (p : α → Bool) (l : List α) :
    (List.range l.length).countP (fun i => (l[i]?).any p) = l.countP p := by
  induction l with
  | nil => rfl
  | cons a rest ih =>
    have later : (List.range rest.length).countP ((fun i => ((a :: rest)[i]?).any p) ∘ Nat.succ) =
        rest.countP p := ih
    rw [List.length_cons, List.range_succ_eq_map, List.countP_cons, List.countP_map, later,
      List.countP_cons]
    rfl

/-- Once every machine has begun, the Python host's live machines are those not gone. -/
theorem Follows.live_length (follows : Follows k asks none host s) (begun : host.born = []) :
    host.live.length = s.unfinished := by
  have apart : host.live.Nodup := follows.apart.sublist (List.filter_sublist.map _)
  have handles : (((List.range s.machines.length).filter fun g =>
      (s.machines[g]?).any (·.status ≠ .gone)).map (· + 1)).Nodup :=
    (List.nodup_range.filter _).map (add_left_injective 1)
  suffices same : ∀ handle, handle ∈ host.live ↔ handle ∈ ((List.range s.machines.length).filter
      fun g => (s.machines[g]?).any (·.status ≠ .gone)).map (· + 1) by
    rw [((List.perm_ext_iff_of_nodup apart handles).mpr same).length_eq, List.length_map,
      ← List.countP_eq_length_filter, countP_range]
    rfl
  intro handle
  rw [List.mem_map]
  constructor
  · intro alive
    obtain ⟨known, member, rfl⟩ := List.mem_map.mp alive
    obtain ⟨listed, going⟩ := List.mem_filter.mp member
    have found := lookup_of_mem known.2 follows.apart listed
    have going : known.2 ≠ .complete := by simpa using going
    obtain ⟨g, m, same, there, ⟨_, complete⟩ | ⟨waits, _⟩⟩ := follows.reported found
    · exact absurd complete going
    · have stays : m.status ≠ .gone := by rcases waits with status | status <;> simp [status]
      exact ⟨g, List.mem_filter.mpr ⟨List.mem_range.mpr (List.getElem?_eq_some_iff.mp there).1, by
        simp [there, stays]⟩, same.symm⟩
  · rintro ⟨g, member, rfl⟩
    obtain ⟨low, stays⟩ := List.mem_filter.mp member
    obtain ⟨m, there⟩ : ∃ m, s.machines[g]? = some m :=
      ⟨_, List.getElem?_eq_getElem (List.mem_range.mp low)⟩
    have stays : m.status ≠ .gone := by simpa [there] using stays
    have known := (follows.known g m there).status
    have fresh : m.status ≠ .notStarted := by
      intro fresh
      rcases follows.begins g m there fresh with up | listed
      · cases up
      · rw [begun] at listed
        cases listed
    rw [if_neg fresh] at known
    obtain ⟨g', m', same, there', ⟨gone, _⟩ | ⟨_, going⟩⟩ := follows.reported known <;>
      obtain rfl : g = g' := Nat.succ.inj same <;>
      obtain rfl := Option.some.inj (there.symm.trans there')
    · exact absurd gone stays
    · obtain ⟨front, back, listed, _⟩ := List.lookup_eq_some_iff.mp known
      unfold Python.Host.live
      rw [listed]
      simp [going]

/-- What turns of the loop come to, with at most `n` actions of the specification's host. -/
inductive Turned (k : Instance) (asks : Nat → Nat → Boundary.Request) (n d : Nat)
    (host : Python.Host Library R) (s : Host) : Except Raised (Python.Host Library R × Bool) → Prop
  | on (after : Python.Host Library R) (s' : Host) : Went k asks n d host s after s' →
      Turned k asks n d host s (.ok (after, true))
  | stopped (after : Python.Host Library R) (actions : List Host.Action) (s' : Host) :
      Transition.run (Host.step k) s actions = some s' → s'.verdict ≠ .running →
      (s'.verdict = .ended ↔ s'.allGone) → after.live.length = s'.unfinished →
      Turned k asks n d host s (.ok (after, false))
  | panicked : s.Panics k → Turned k asks n d host s (.error (.failed (-4)))
  | unfit (g id : Nat) (w : Python.World) : ¬ Fits w (asks g id) →
      (∀ m, host.world.Modest m → w.Modest (m + n)) → Turned k asks n d host s (.error .unpack)

theorem Goes.turned {j : Nat} (few : j ≤ n) {result : Except Raised (Python.Host Library R)}
    (goes : Goes k asks j d host s result) :
    Turned k asks n d host s (do return (← result, true)) := by
  cases goes with
  | on after s' went =>
    obtain ⟨actions, ran, short⟩ := went.ran
    exact .on after s' ⟨went.follows, ⟨actions, ran, short.trans few⟩, went.spends,
      fun m before => (went.modest m before).more (Nat.add_le_add_left few m)⟩
  | panicked panics => exact .panicked panics
  | unfit g id w unfit modest =>
    exact .unfit g id w unfit fun m before => (modest m before).more (Nat.add_le_add_left few m)

theorem Went.turned {n' d' : Nat} (went : Went k asks n d host s after s')
    {result : Except Raised (Python.Host Library R × Bool)}
    (turned : Turned k asks n' d' after s' result) :
    Turned k asks (n + n') (d + d') host s result := by
  obtain ⟨actions, ran, _⟩ := went.ran
  cases turned with
  | on last s'' went' => exact .on last s'' (went.trans went')
  | stopped last more s'' ran' given ended count =>
    refine .stopped last (actions ++ more) s'' ?_ given ended count
    rw [Transition.run_append, ran]
    exact ran'
  | panicked panics => exact .panicked (panics.before ran)
  | unfit g id w unfit modest =>
    exact .unfit g id w unfit fun m before => (modest _ (went.modest m before)).more (by omega)

section

variable (correct : k.Correct) (short : k.Short) (workers : 1 ≤ k.workers)
  (shorts : ∀ g id, Short (asks g id))
include correct short workers shorts

/-- A turn with an empty queue fires a timer, or ends the loop with a verdict. -/
theorem Follows.idles {rng : Rng R} (follows : Follows k asks none host s) (queued : host.queue = [])
    (roomy : s.Roomy k 6) : Turned k asks 6 1 host s (host.turn (spoken k asks) rng) := by
  have quiet : (spoken k asks).wakes host.lib = ([], host.lib) := by
    show (wokeFrames ((host.lib.wakes.sort (· ≤ ·)).map (· + 1)), { host.lib with wakes := ∅ }) = _
    rw [follows.library]
    unfold Host.library
    simp [wokeFrames]
  rw [Python.Host.turn_idle queued quiet]
  have room : s.Roomy k 3 := roomy.less (by decide)
  cases due : host.due with
  | cons timer rest =>
    obtain ⟨record, made, goes⟩ := follows.timer_goes correct short workers shorts due room
    dsimp only
    rw [made]
    exact goes.turned (by omega)
  | nil =>
    have born : host.born = [] := by simp [Python.Host.born, queued]
    have told : host.told = [] := by simp [Python.Host.told, queued]
    -- what is still pending is for machines that are gone
    have idle : ∀ e ∈ s.pending, ∃ h m, e = .resume h ∧ s.machines[h]? = some m ∧ m.status = .gone ∧
        (m.pinned = true → m.owner ≠ -1) ∧ ¬ Host.wrong m 0 := by
      intro e pending
      obtain ⟨m, found, right, _⟩ := follows.callable pending
      cases e with
      | resume g =>
        rcases follows.resumes g pending with up | listed | named | ⟨m', there, gone⟩
        · cases up
        · rw [born] at listed
          cases listed
        · rw [told] at named
          cases named
        · obtain rfl := Option.some.inj (found.symm.trans there)
          exact ⟨g, m, rfl, there, gone, (follows.known g m there).owned (by simp [gone]), right⟩
      | reply g id =>
        rcases (follows.replies g id).mp pending with up | ⟨awaited, opened⟩
        · cases up
        · simp only [Python.Host.awaited, queued, List.filterMap_nil, List.nil_append,
            List.mem_map] at awaited
          obtain ⟨timer, member, same⟩ := awaited
          exact absurd (same ▸ Python.Host.due_nil due timer member) opened
    obtain ⟨actions, s', ran, machines, given, ended⟩ :=
      Host.run_judged correct workers follows.running follows.idle follows.wakes idle
    refine .stopped _ actions s' ran given ?_ ?_
    · unfold Host.allGone at ended ⊢
      rwa [machines]
    · unfold Host.unfinished
      rw [machines]
      exact follows.live_length born

/-- A turn of the loop is at most six actions of the specification's host. -/
theorem Follows.turns (rng : Rng R) (follows : Follows k asks none host s) (left : 6 ≤ s.spuriousLeft)
    (roomy : s.Roomy k 6) : Turned k asks 6 1 host s (host.turn (spoken k asks) rng) := by
  by_cases queued : host.queue = []
  · exact follows.idles correct short workers shorts queued roomy
  obtain ⟨start, begun, raises, takes⟩ := Python.Host.take_cases (spoken k asks) rng host
  have room : s.Roomy k 3 := roomy.less (by decide)
  have goes : Goes k asks 3 0 host s start := by
    rcases begun with rfl | ⟨handle, alive, rfl⟩
    · exact .on host s ⟨follows, ⟨[], rfl, Nat.zero_le _⟩, fun load _ => .inr ⟨rfl, le_refl _⟩,
        fun m before => before.more (Nat.le_add_right m 3)⟩
    · exact follows.stutter_goes correct short workers shorts alive (by omega) room
  have more : ∀ after, start = .ok after → after.queue ≠ [] := by
    rintro after rfl
    rcases begun with same | ⟨handle, _, ran⟩
    · obtain rfl := Except.ok.inj same
      exact queued
    · obtain ⟨more, same⟩ := Python.Host.ran_queue ran.symm
      rw [same]
      exact List.append_ne_nil_of_left_ne_nil queued more
  cases goes with
  | panicked panics =>
    rw [Python.Host.turn_of_failed queued (raises _ rfl)]
    exact .panicked panics
  | unfit g id w unfit modest =>
    rw [Python.Host.turn_of_failed queued (raises _ rfl)]
    exact .unfit g id w unfit fun m before => (modest m before).more (by omega)
  | on after s' went =>
    obtain ⟨entry, rest, r, perm, taken⟩ := takes after rfl (more after rfl)
    rw [Python.Host.turn_of_take queued taken]
    obtain ⟨actions, ran, few⟩ := went.ran
    have left' : 0 < s'.spuriousLeft := by
      have := Host.run_spurious ran
      omega
    have does := went.follows.entry_goes correct short workers shorts r perm left'
      (Host.Roomy.later (a := 3) roomy ran few)
    split at does
    · next given =>
      rw [if_pos given]
      exact .on _ s' (went.trans does)
    · next wanted =>
      rw [if_neg wanted]
      exact (went.goes does).turned (le_refl _)

end

end SansEffort.Protocol
