import SansEffort.Protocol.Calls

/-!
# Machines between and during calls

What is true of each machine at every moment: what it has asked, what it waits for, and where in its
program it is.
-/

namespace SansEffort.Protocol

variable {k : Instance}

namespace Machine

structure Sound (k : Instance) (m : Machine) : Prop where
  named : m.prog ∈ k.names
  within : m.pc ≤ (k.programs m.prog).length
  numbered : 0 < m.nextId
  /-- Only a machine that awaits a reply has asked. -/
  free : m.status ≠ .awaiting → m.asks = ∅ ∧ m.racing = 0
  /-- It has asked once, and a race is for that. -/
  asking : m.status = .awaiting → m.pc < (k.programs m.prog).length ∧
    ∃ id, 0 < id ∧ id < m.nextId ∧ m.asks = {id} ∧ (m.racing = 0 ∨ m.racing = id)
  receiving : m.status = .idle → (k.programs m.prog)[m.pc]? = some (.recv m.waiting)

theorem sound_fresh {p : String} (named : p ∈ k.names) (pinned : Bool) :
    (fresh k p pinned).Sound k :=
  ⟨named, Nat.zero_le _, Nat.one_pos, fun _ => ⟨rfl, rfl⟩, by simp [fresh], by simp [fresh]⟩

variable {m : Machine}

theorem Sound.over (sound : m.Sound k) {status : Status} (ended : status ≠ .awaiting)
    (gone : status ≠ .idle) : (m.over status).Sound k :=
  ⟨sound.named, sound.within, sound.numbered, fun _ => ⟨rfl, rfl⟩, fun same => absurd same ended,
    fun same => absurd same gone⟩

/-- A machine that neither asks nor waits stays sound as its counter moves on. -/
theorem Sound.moved (sound : m.Sound k) {m' : Machine} (prog : m'.prog = m.prog)
    (within : m'.pc ≤ (k.programs m.prog).length) (nextId : m'.nextId = m.nextId)
    (asks : m'.asks = ∅) (racing : m'.racing = 0) (waiting : m'.status ≠ .awaiting)
    (idle : m'.status ≠ .idle) : m'.Sound k := by
  refine ⟨prog ▸ sound.named, prog ▸ within, nextId ▸ sound.numbered, fun _ => ⟨asks, racing⟩,
    fun same => absurd same waiting, fun same => absurd same idle⟩

theorem Sound.woken (sound : m.Sound k) (b : Bool) : ({ m with woken := b } : Machine).Sound k :=
  ⟨sound.named, sound.within, sound.numbered, sound.free, sound.asking, sound.receiving⟩

theorem Sound.asks_of_waits (sound : m.Sound k) {id : Nat} (asked : id ∈ m.asks) :
    m.status = .awaiting ∧ m.pc < (k.programs m.prog).length ∧ m.asks = {id} ∧ id < m.nextId := by
  have status : m.status = .awaiting := by
    by_contra other
    rw [(sound.free other).1] at asked
    simp at asked
  obtain ⟨inside, other, _, low, asks, _⟩ := sound.asking status
  rw [asks] at asked
  obtain rfl := Finset.mem_singleton.mp asked
  exact ⟨status, inside, asks, low⟩

/-- What a reply does to the machine it is for, and what a won race does. -/
theorem Sound.go (sound : m.Sound k) {id : Nat} (asked : id ∈ m.asks) :
    ({ m with
      status := .running, pc := m.pc + 1, waiting := "", woken := false, asks := m.asks \ {id},
      racing := 0 } : Machine).Sound k := by
  obtain ⟨_, inside, asks, _⟩ := sound.asks_of_waits asked
  exact sound.moved rfl inside rfl (by rw [asks]; simp) rfl (by simp) (by simp)

end Machine

namespace World

/-- Every machine is sound, and the children to come are programs there are. -/
structure Sound (k : Instance) (w : World) : Prop where
  machines : ∀ m ∈ w.machines, m.Sound k
  children : ∀ child ∈ w.children, child.1 ∈ k.names

variable {w w' : World} {h : Nat}

theorem update_machines {f : Machine → Machine} {m : Machine} (member : m ∈ (w.update h f).machines) :
    m ∈ w.machines ∨ ∃ m', w.machines[h]? = some m' ∧ m = f m' := by
  obtain ⟨g, there⟩ := List.mem_iff_getElem?.mp member
  rw [getElem?_update] at there
  split at there
  · next here =>
    obtain ⟨m', found, rfl⟩ := Option.map_eq_some_iff.mp there
    exact .inr ⟨m', here ▸ found, rfl⟩
  · exact .inl (List.mem_of_getElem? there)

theorem Sound.update (sound : w.Sound k) {f : Machine → Machine}
    (machines : w'.machines = (w.update h f).machines)
    (self : ∀ m, w.machines[h]? = some m → (f m).Sound k)
    (children : ∀ child ∈ w'.children, child.1 ∈ k.names) : w'.Sound k := by
  refine ⟨fun m member => ?_, children⟩
  rw [machines] at member
  obtain before | ⟨m', found, rfl⟩ := update_machines member
  · exact sound.machines m before
  · exact self m' found

theorem Nudged.sound (nudged : w.Nudged w') (sound : w.Sound k) : w'.Sound k := by
  refine ⟨fun m member => ?_, fun child member => sound.children child (nudged.children ▸ member)⟩
  obtain ⟨g, there⟩ := List.mem_iff_getElem?.mp member
  obtain ⟨m', found, same, _⟩ := nudged.of_machine there
  rw [same]
  exact (sound.machines m' (List.mem_of_getElem? found)).woken _

theorem Sound.take (sound : w.Sound k) (c : String) : (w.take c).Sound k := by
  unfold World.take
  split
  · exact ⟨sound.machines, sound.children⟩
  · exact sound

theorem Sound.finish (sound : w.Sound k) (h : Nat) : (w.finish h).Sound k := by
  unfold World.finish
  split
  · exact sound
  · apply (dropSenders_spec _ _).1.sound
    exact sound.update (f := (·.over .complete)) rfl (fun m found =>
      (sound.machines m (List.mem_of_getElem? found)).over (by simp) (by simp)) sound.children

theorem Sound.exec (sound : w.Sound k) (h : Nat) : (w.exec k h).Sound k := by
  cases found : w.machines[h]? with
  | none =>
    unfold World.exec
    rw [found]
    exact sound
  | some m =>
    have self := sound.machines m (List.mem_of_getElem? found)
    -- the machine that runs is `m`
    have only : ∀ {f : Machine → Machine}, (f m).Sound k →
        ∀ m', w.machines[h]? = some m' → (f m').Sound k := by
      intro f after m' there
      rw [found] at there
      obtain rfl := Option.some.inj there
      exact after
    obtain ⟨_, same⟩ | ⟨running, w', same, ran⟩ := exec_cases (k := k) found
    · rw [same]
      exact sound
    · obtain ⟨asks, racing⟩ := self.free (by simp [running])
      have inside : ∀ {i : Instr}, (k.programs m.prog)[m.pc]? = some i →
          m.pc < (k.programs m.prog).length := fun at_pc => (List.getElem?_eq_some_iff.mp at_pc).1
      have passes : m.pc < (k.programs m.prog).length →
          ({ m with pc := m.pc + 1 } : Machine).Sound k := fun low =>
        self.moved rfl low rfl asks racing (by simp [running]) (by simp [running])
      rw [same]
      cases ran with
      | returns => exact sound.finish h
      | sends c instr =>
        apply (wakeWaiters_spec _ c).1.sound
        exact sound.update rfl (only (passes (inside instr))) sound.children
      | takes c low =>
        refine (sound.take c).update rfl (fun m' there => ?_) (sound.take c).children
        rw [machines_take, found] at there
        obtain rfl := Option.some.inj there
        exact passes low
      | spawns p pinned instr =>
        refine sound.update rfl (only (passes (instr.elim inside inside))) fun child member => ?_
        rcases List.mem_append.mp member with before | new
        · exact sound.children child before
        · obtain rfl := List.mem_singleton.mp new
          exact k.spawns_named m.prog self.named p
            (instr.imp List.mem_of_getElem? List.mem_of_getElem?)
      | waits c instr _ =>
        refine sound.update rfl (only ?_) sound.children
        exact ⟨self.named, self.within, self.numbered, fun _ => ⟨asks, racing⟩, by simp,
          fun _ => instr⟩
      | asks instr =>
        refine sound.update rfl (only ?_) sound.children
        refine ⟨self.named, self.within, Nat.succ_pos _, fun other => absurd rfl other, fun _ =>
          ⟨inside instr, m.nextId, self.numbered, Nat.lt_succ_self _, ?_, .inl racing⟩, by simp⟩
        simp [asks]
      | races c instr _ =>
        refine sound.update rfl (only ?_) sound.children
        refine ⟨self.named, self.within, Nat.succ_pos _, fun other => absurd rfl other, fun _ =>
          ⟨inside instr, m.nextId, self.numbered, Nat.lt_succ_self _, ?_, .inr rfl⟩, by simp⟩
        simp [asks]
      | panics low =>
        exact sound.update rfl (only (self.moved rfl self.within rfl asks racing (by simp) (by simp)))
          sound.children

theorem Sound.begin (sound : w.Sound k) (e : Event) : (w.begin e).Sound k := by
  cases found : w.machines[e.target]? with
  | none =>
    rw [begin_none found]
    exact sound
  | some m =>
    have self := sound.machines m (List.mem_of_getElem? found)
    have only : ∀ {f : Machine → Machine}, (f m).Sound k →
        ∀ m', w.machines[e.target]? = some m' → (f m').Sound k := by
      intro f after m' there
      rw [found] at there
      obtain rfl := Option.some.inj there
      exact after
    obtain ⟨w', same, begun⟩ := begin_cases found
    rw [same]
    cases begun with
    | starts h status =>
      obtain ⟨asks, racing⟩ := self.free (by simp [status])
      exact sound.update rfl (only (self.moved rfl self.within rfl asks racing (by simp) (by simp)))
        sound.children
    | looks h status =>
      obtain ⟨asks, racing⟩ := self.free (by simp [status])
      exact sound.update rfl (only (self.moved rfl self.within rfl asks racing (by simp) (by simp)))
        sound.children
    | wins h status racing _ =>
      obtain ⟨_, id, _, _, asks, direct | same⟩ := self.asking status
      · exact absurd direct racing
      · refine (sound.take m.waiting).update (h := h) rfl (fun m' there => ?_)
          (sound.take m.waiting).children
        have there : w.machines[h]? = some m' := machines_take w m.waiting ▸ there
        obtain rfl := Option.some.inj (found.symm.trans there)
        exact self.go (by rw [asks, same]; simp)
    | waits h _ _ _ => exact sound.update rfl (only (self.woken false)) sound.children
    | ignores | discards => exact sound
    | answers h id taken asked either =>
      rcases either with rfl | rfl
      · exact sound.update rfl (only (self.go asked)) sound.children
      · refine (sound.take m.waiting).update (h := h) rfl (fun m' there => ?_)
          (sound.take m.waiting).children
        have there : w.machines[h]? = some m' := machines_take w m.waiting ▸ there
        obtain rfl := Option.some.inj (found.symm.trans there)
        exact self.go asked

theorem Sound.attempt (sound : w.Sound k) (e : Event) : (w.attempt k e).Sound k :=
  runToWait_keeps (World.Sound k) (fun _ sound => sound.exec _) (sound.begin e)

theorem Sound.conclude (sound : w.Sound k) (h : Nat) : (w.conclude k h).Sound k := by
  unfold World.conclude
  split
  · apply (nudged_failCall w h).sound
    exact sound.update (f := (·.over .gone)) rfl (fun m found =>
      (sound.machines m (List.mem_of_getElem? found)).over (by simp) (by simp)) sound.children
  · refine ⟨fun m member => ?_, sound.children⟩
    rcases List.mem_append.mp member with before | new
    · exact sound.machines m before
    · obtain ⟨child, there, rfl⟩ := List.mem_map.mp new
      exact Machine.sound_fresh (sound.children child there) child.2

theorem Sound.own (sound : w.Sound k) (h worker : Nat) (m : Machine) : (w.own h worker m).Sound k := by
  unfold World.own
  split
  · refine sound.update rfl (fun m' found => ?_) sound.children
    have self := sound.machines m' (List.mem_of_getElem? found)
    exact ⟨self.named, self.within, self.numbered, self.free, self.asking, self.receiving⟩
  · exact sound

end World

/-! ### The host -/

namespace Host

/-- The library is sound, and a call that has run left its machine as its output tells. -/
structure Sound (k : Instance) (s : Host) : Prop where
  world : s.world.Sound k
  told : ∀ h out, s.inFlight.lookup h = some out →
    ∃ m, s.machines[h]? = some m ∧ m.status = out.status

variable {s s' : Host}

theorem sound_init (k : Instance) : (init k).Sound k := by
  refine ⟨⟨fun m member => ?_, by simp [Host.world]⟩, by simp [init]⟩
  obtain rfl := List.mem_singleton.mp member
  exact Machine.sound_fresh k.root_named false

theorem status_of_bare {m m' : Machine} (same : m'.bare = m.bare) : m'.status = m.status := by
  have := congrArg Machine.status same
  exact this

theorem Sound.step (sound : s.Sound k) {a : Action} (taken : s.step k a = some s') :
    s'.Sound k := by
  cases step_cases taken with
  | refused | woken | judged | spurred | done => exact ⟨sound.world, sound.told⟩
  | called e worker m found _ _ _ _ _ =>
    -- the worker holds the output of the machine it called, and of no other
    refine ⟨?_, fun x out there => ?_⟩
    · have ended := ((sound.world.attempt e).conclude e.target).own e.target worker m
      exact ⟨ended.machines, sound.world.children⟩
    · obtain ⟨rfl, rfl⟩ | ⟨away, before⟩ := of_insert there
      · obtain ⟨m', self, status⟩ := called_self (k := k) found
        exact ⟨m', self, status.symm⟩
      · obtain ⟨m', at_x, same⟩ := sound.told x out before
        obtain ⟨after, there, bare⟩ := called_other (k := k) worker m away at_x
        exact ⟨after, there, (status_of_bare bare).trans same⟩
  | returned h out found =>
    obtain ⟨m, there, status⟩ := sound.told h out found
    have self := sound.world.machines m (List.mem_of_getElem? there)
    constructor
    · refine ⟨fun m' member => ?_, sound.world.children⟩
      have member : m' ∈ retire s.machines h out := member
      unfold retire at member
      dsimp only at member
      split at member
      -- retired: a machine that is over asks for nothing
      · next ended =>
        obtain before | ⟨m₀, at_h, rfl⟩ := World.update_machines (w := s.world) member
        · exact sound.world.machines m' before
        · obtain rfl := Option.some.inj (there.symm.trans at_h)
          obtain ⟨asks, racing⟩ := self.free (by
            rw [status]
            rcases ended with same | same <;> simp [same])
          exact self.moved rfl self.within rfl asks racing (by simp) (by simp)
      · exact sound.world.machines m' member
    · intro x out' there'
      obtain ⟨away, before⟩ := of_erase there'
      obtain ⟨m', at_x, same⟩ := sound.told x out' before
      refine ⟨m', ?_, same⟩
      show (retire s.machines h out)[x]? = some m'
      unfold retire
      dsimp only
      split
      · exact (World.getElem?_update s.world h x _).trans ((if_neg away).trans at_x)
      · exact at_x
  | killed h m found _ free _ =>
    constructor
    · have gone : (s.world.update h (·.over .gone)).Sound k :=
        sound.world.update rfl (fun m found =>
          (sound.world.machines m (List.mem_of_getElem? found)).over (by simp) (by simp))
          sound.world.children
      exact ⟨((World.dropSenders_spec _ m.holds).1.sound gone).machines, sound.world.children⟩
    -- a machine that is killed has no output in flight
    · intro x out there
      obtain ⟨m', at_x, same⟩ := sound.told x out there
      have away : x ≠ h := by
        rintro rfl
        cases (not_mem_keys.mp free).symm.trans there
      have only := (World.dropSenders_spec (s.world.update h (·.over .gone)) m.holds).1.only
        (World.only_update h s.world rfl)
      obtain ⟨after, found', bare⟩ := Option.map_eq_some_iff.mp
        ((only.bare x away).trans (World.bare_of at_x))
      exact ⟨after, found', (status_of_bare bare).trans same⟩

end Host

end SansEffort.Protocol
