import SansEffort.Protocol.Machines

/-!
# The machine that is called

What the call's own machine comes to, and the requests it asks and closes on the way. Wakes,
channels and children are left out.
-/

namespace SansEffort.Protocol

variable {k : Instance}

/-- The machine called, but for whether it is woken, and the requests that the call has closed and
asked so far. -/
structure Account where
  machine : Machine
  closed : Finset Nat
  asked : Finset Nat

/-- What one instruction makes of the machine, and of the requests closed and asked. -/
inductive Turn (k : Instance) (m : Machine) (closed asked : Finset Nat) : Account → Prop
  | returned : Turn k m closed asked ⟨(m.over .complete).bare, closed ∪ m.asks, asked⟩
  | passed : m.pc < (k.programs m.prog).length →
      Turn k m closed asked ⟨{ m with pc := m.pc + 1 }.bare, closed, asked⟩
  | idled (c : String) :
      Turn k m closed asked ⟨{ m with status := .idle, waiting := c }.bare, closed, asked⟩
  | awaited (c : String) (racing : Nat) :
      Turn k m closed asked ⟨{ m with
        status := .awaiting, waiting := c, racing, asks := m.asks ∪ {m.nextId},
        nextId := m.nextId + 1 }.bare, closed, asked ∪ {m.nextId}⟩
  | panicked : Turn k m closed asked ⟨{ m with status := .panicking }.bare, closed, asked⟩

/-- What an event makes of the machine, and of the requests closed and asked. -/
inductive Entry (m : Machine) (closed asked : Finset Nat) : Event → Account → Prop
  | started (h : Nat) : m.status = .notStarted →
      Entry m closed asked (.resume h) ⟨{ m with status := .running }.bare, closed, asked⟩
  | looked (h : Nat) : m.status = .idle →
      Entry m closed asked (.resume h)
        ⟨{ m with status := .running, waiting := "" }.bare, closed, asked⟩
  | won (h : Nat) : m.status = .awaiting → m.racing ≠ 0 →
      Entry m closed asked (.resume h) ⟨{ m with
        status := .running, pc := m.pc + 1, waiting := "", asks := m.asks \ {m.racing},
        racing := 0 }.bare, closed ∪ {m.racing}, asked⟩
  | kept (h : Nat) : m.status ≠ .notStarted → m.status ≠ .idle →
      Entry m closed asked (.resume h) ⟨m.bare, closed, asked⟩
  | answered (h id : Nat) : id ∈ m.asks →
      Entry m closed asked (.reply h id) ⟨{ m with
        status := .running, pc := m.pc + 1, waiting := "", asks := m.asks \ {id},
        racing := 0 }.bare, closed, asked⟩
  | discarded (h id : Nat) : id ∉ m.asks →
      Entry m closed asked (.reply h id) ⟨m.bare, closed, asked⟩

theorem askedIn_append_asked (effects : List Effect) (id : Nat) :
    askedIn (effects ++ [.asked id]) = askedIn effects ∪ {id} := by
  unfold askedIn
  rw [List.filterMap_append, List.toFinset_append]
  rfl

theorem askedIn_append_spawned (effects : List Effect) (i : Nat) :
    askedIn (effects ++ [.spawned i]) = askedIn effects := by
  unfold askedIn
  rw [List.filterMap_append, List.toFinset_append]
  exact Finset.union_empty _

namespace World

def account (w : World) (h : Nat) : Option Account :=
  (w.machines[h]?).map fun m => ⟨m.bare, w.closed, askedIn w.effects⟩

variable {w w' : World} {h : Nat} {m : Machine}

theorem account_of (found : w.machines[h]? = some m) :
    w.account h = some ⟨m.bare, w.closed, askedIn w.effects⟩ := by
  rw [account, found]
  rfl

theorem account_update {f : Machine → Machine} {closed asked : Finset Nat}
    (found : w.machines[h]? = some m) (machines : w'.machines = (w.update h f).machines)
    (same : w'.closed = closed) (recorded : askedIn w'.effects = asked) :
    w'.account h = some ⟨(f m).bare, closed, asked⟩ := by
  rw [account_of ((congrArg (·[h]?) machines).trans (getElem?_update_self found f)), same, recorded]

theorem take_emitted (w : World) (c : String) :
    (w.take c).closed = w.closed ∧ (w.take c).effects = w.effects := by
  unfold take
  split <;> exact ⟨rfl, rfl⟩

theorem Nudged.account (nudged : w.Nudged w') (h : Nat) : w'.account h = w.account h := by
  have bare := nudged.bare h
  unfold World.bare at bare
  unfold World.account
  rw [nudged.closed, nudged.effects]
  cases before : w.machines[h]? with
  | none =>
    rw [before] at bare
    rw [Option.map_eq_none_iff.mp bare]
  | some m =>
    rw [before] at bare
    obtain ⟨m', after, same⟩ := Option.map_eq_some_iff.mp bare
    rw [after, Option.map_some, same]
    rfl

/-- One instruction of a running machine. -/
theorem exec_turn (found : w.machines[h]? = some m) :
    m.status ≠ .running ∧ w.exec k h = w ∨
      m.status = .running ∧ ∃ a, Turn k m w.closed (askedIn w.effects) a ∧
        (w.exec k h).account h = some a := by
  obtain ⟨stopped, same⟩ | ⟨running, w', same, ran⟩ := exec_cases (k := k) found
  · exact .inl ⟨stopped, same⟩
  refine .inr ⟨running, ?_⟩
  rw [same]
  cases ran with
  -- the senders it drops are no part of its account, nor are the waiters a send wakes
  | returns =>
    refine ⟨_, .returned, ?_⟩
    unfold finish
    rw [found]
    dsimp only
    rw [(dropSenders_spec _ m.holds).1.account]
    exact account_update (f := (·.over .complete)) found rfl rfl rfl
  | sends c instr =>
    refine ⟨_, .passed (List.getElem?_eq_some_iff.mp instr).1, ?_⟩
    rw [(wakeWaiters_spec _ c).1.account]
    exact account_update (f := fun m => { m with pc := m.pc + 1 }) found rfl rfl rfl
  | takes c low =>
    refine ⟨_, .passed low, ?_⟩
    obtain ⟨closed, effects⟩ := take_emitted w c
    exact account_update (f := fun m => { m with pc := m.pc + 1 })
      ((congrArg (·[h]?) (machines_take w c)).trans found) rfl closed (congrArg askedIn effects)
  | spawns p pinned instr =>
    refine ⟨_, .passed ?_, ?_⟩
    · exact instr.elim (fun at_pc => (List.getElem?_eq_some_iff.mp at_pc).1)
        fun at_pc => (List.getElem?_eq_some_iff.mp at_pc).1
    · exact account_update (f := fun m => { m with pc := m.pc + 1 }) found rfl rfl
        (askedIn_append_spawned _ _)
  | waits c _ _ =>
    exact ⟨_, .idled c, account_update
      (f := fun m => { m with status := .idle, waiting := c, woken := false }) found rfl rfl rfl⟩
  | asks _ =>
    exact ⟨_, .awaited m.waiting m.racing, account_update (f := fun m => { m with
      status := .awaiting, asks := m.asks ∪ {m.nextId}, nextId := m.nextId + 1 }) found rfl rfl
      (askedIn_append_asked _ _)⟩
  | races c _ _ =>
    exact ⟨_, .awaited c m.nextId, account_update (f := fun m => { m with
      status := .awaiting, waiting := c, woken := false, racing := m.nextId,
      asks := m.asks ∪ {m.nextId}, nextId := m.nextId + 1 }) found rfl rfl
      (askedIn_append_asked _ _)⟩
  | panics _ =>
    exact ⟨_, .panicked, account_update (f := fun m => { m with status := .panicking })
      found rfl rfl rfl⟩

theorem begin_entry {e : Event} (found : w.machines[e.target]? = some m) :
    ∃ a, Entry m w.closed (askedIn w.effects) e a ∧ (w.begin e).account e.target = some a := by
  obtain ⟨w', same, begun⟩ := begin_cases found
  rw [same]
  cases begun with
  | starts h status =>
    exact ⟨_, .started h status, account_update (h := h)
      (f := fun m => { m with status := .running }) found rfl rfl rfl⟩
  | looks h status =>
    exact ⟨_, .looked h status, account_update (h := h)
      (f := fun m => { m with status := .running, waiting := "", woken := false }) found rfl rfl rfl⟩
  | wins h status racing _ =>
    have there : (w.take m.waiting).machines[h]? = some m := machines_take w m.waiting ▸ found
    exact ⟨_, .won h status racing, account_update (h := h) (f := fun n => { n with
      status := .running, pc := n.pc + 1, waiting := "", woken := false, asks := n.asks \ {m.racing},
      racing := 0 }) there rfl rfl (congrArg askedIn (take_emitted w m.waiting).2)⟩
  | waits h status _ _ =>
    exact ⟨_, .kept h (by simp [status]) (by simp [status]), account_update (h := h)
      (f := fun m => { m with woken := false }) found rfl rfl rfl⟩
  | ignores h unstarted idle _ => exact ⟨_, .kept h unstarted idle, account_of (h := h) found⟩
  | answers h i taken asked either =>
    have there : taken.machines[h]? = some m ∧ taken.closed = w.closed ∧ taken.effects = w.effects := by
      rcases either with rfl | rfl
      · exact ⟨found, rfl, rfl⟩
      · exact ⟨machines_take w m.waiting ▸ found, take_emitted w m.waiting⟩
    exact ⟨_, .answered h i asked, account_update (h := h) (f := fun m => { m with
      status := .running, pc := m.pc + 1, waiting := "", woken := false, asks := m.asks \ {i},
      racing := 0 }) there.1 rfl there.2.1 (congrArg askedIn there.2.2)⟩
  | discards h i absent => exact ⟨_, .discarded h i absent, account_of (h := h) found⟩

/-- What holds of the machine once the event has come, and is kept by each instruction, holds when
the call ends. -/
theorem attempt_account {e : Event} (found : w.machines[e.target]? = some m) (holds : Account → Prop)
    (entered : ∀ a, Entry m w.closed (askedIn w.effects) e a → holds a)
    (kept : ∀ n closed asked a, n.status = .running → holds ⟨n.bare, closed, asked⟩ →
      Turn k n closed asked a → holds a) :
    ∃ a, (w.attempt k e).account e.target = some a ∧ holds a := by
  obtain ⟨a, entry, begun⟩ := begin_entry found
  apply runToWait_keeps (k := k) (h := e.target)
    (fun w => ∃ a, w.account e.target = some a ∧ holds a) _ ⟨a, begun, entered a entry⟩
  rintro w ⟨a, before, held⟩
  obtain ⟨n, there, rfl⟩ := Option.map_eq_some_iff.mp before
  obtain ⟨_, same⟩ | ⟨running, a, turn, after⟩ := exec_turn (k := k) there
  · rw [same]
    exact ⟨_, before, held⟩
  · exact ⟨a, after, kept n _ _ a running held turn⟩

/-! ### The end of a call -/

theorem askedIn_register (w : World) : askedIn (w.register k).effects = askedIn w.effects := by
  show askedIn (w.effects.map _) = _
  unfold askedIn
  rw [List.filterMap_map]
  congr 2
  funext effect
  cases effect <;> rfl

/-- A call that fails removes its machine; otherwise it is as the run left it, and perhaps owned. -/
theorem owned_self {e : Event} {a : Account} (worker : Nat) (m : Machine)
    (ran : (w.attempt k e).account e.target = some a) :
    ∃ m', (w.owned k e worker m).machines[e.target]? = some m' ∧
      (m'.owner = a.machine.owner ∨ m'.owner = worker) ∧
      ((w.attempt k e).failed e.target ∧ a.machine.status = .panicking ∧
          m'.status = .gone ∧ m'.asks = ∅ ∨
        ¬ (w.attempt k e).failed e.target ∧ a.machine.status ≠ .panicking ∧
          (w.owned k e worker m).closed = a.closed ∧
          askedIn (w.owned k e worker m).effects = a.asked ∧
          m'.bare = { a.machine with owner := m'.owner }) := by
  obtain ⟨n, there, rfl⟩ := Option.map_eq_some_iff.mp ran
  have decides : (w.attempt k e).failed e.target ↔ n.status = .panicking := by
    rw [failed_iff]
    constructor
    · rintro ⟨other, at_h, status⟩
      obtain rfl := Option.some.inj (there.symm.trans at_h)
      exact status
    · exact fun status => ⟨n, there, status⟩
  -- an owner is only written down
  have owned : ∀ {c : World} {n' : Machine}, c.machines[e.target]? = some n' →
      (c.own e.target worker m).closed = c.closed ∧ (c.own e.target worker m).effects = c.effects ∧
        ∃ o, (c.own e.target worker m).machines[e.target]? = some { n' with owner := o } ∧
          (o = n'.owner ∨ o = worker) := by
    intro c n' found
    unfold own
    split
    · exact ⟨rfl, rfl, _, getElem?_update_self found _, .inr rfl⟩
    · exact ⟨rfl, rfl, n'.owner, found, .inl rfl⟩
  unfold World.owned conclude
  by_cases failed : (w.attempt k e).failed e.target
  · rw [if_pos failed]
    have gone : ((w.attempt k e).failCall k e.target).bare e.target = some (n.over .gone).bare := by
      rw [(nudged_failCall _ _).bare]
      exact bare_of (getElem?_update_self there _)
    obtain ⟨b, found⟩ := of_bare gone
    obtain ⟨_, _, o, after, owner⟩ := owned found
    exact ⟨_, after, owner, .inl ⟨failed, decides.mp failed, rfl, rfl⟩⟩
  · rw [if_neg failed]
    have found : ((w.attempt k e).register k).machines[e.target]? = some n := by
      rw [machines_register, List.getElem?_append_left (List.getElem?_eq_some_iff.mp there).1]
      exact there
    obtain ⟨closed, effects, o, after, owner⟩ := owned found
    refine ⟨_, after, owner, .inr ⟨failed, fun status => failed (decides.mpr status), closed, ?_, rfl⟩⟩
    rw [effects]
    exact askedIn_register _

end World

end SansEffort.Protocol
