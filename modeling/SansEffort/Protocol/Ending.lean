import Mathlib.Algebra.BigOperators.Group.Finset.Basic
import Mathlib.Algebra.GroupWithZero.Nat
import Mathlib.Data.Prod.Lex
import SansEffort.Library.Acyclic
import SansEffort.Protocol.Verdicts

/-!
# Every run ends

Each machine has so much work left: the instructions to come, with the work of what they spawn, and
a unit for beginning and for each wait that ends with a reply. A call uses some of it up, or neither
changes the machine nor emits anything. So the host, which calls a machine only for an event, comes
to its verdict.
-/

namespace SansEffort.Protocol

/-- A program that another spawns. -/
def Instance.Spawns (k : Instance) (p q : String) : Prop :=
  .spawn q ∈ k.programs p ∨ .spawnPinned q ∈ k.programs p

/-- What an instruction costs, with `load` the work of each program. A wait for a reply takes half
of it. -/
def cost (load : String → Nat) : Instr → Nat
  | .spawn p | .spawnPinned p => 2 + load p
  | _ => 2

/-- `load` is the work of each program, with all that it spawns. -/
def Loads (k : Instance) (load : String → Nat) : Prop :=
  ∀ p ∈ k.names, load p = 2 + ((k.programs p).map (cost load)).sum

variable {k : Instance} {load : String → Nat}

/-- If no program spawns itself, however indirectly, each has a finite amount of work. -/
theorem exists_loads (acyclic : ∀ p ∈ k.names, ¬ Relation.TransGen k.Spawns p p) :
    ∃ load, Loads k load := by
  have acyclic : ∀ p ∈ k.names, ¬ Relation.TransGen (Function.swap k.Spawns) p p := by
    intro p named cycle
    exact acyclic p named (Relation.transGen_swap.mp cycle)
  refine Acyclic.exists_solution acyclic
    (fun load p => 2 + ((k.programs p).map (cost load)).sum) fun p named f g same => ?_
  have costs : (k.programs p).map (cost f) = (k.programs p).map (cost g) := by
    apply List.map_congr_left
    intro i member
    cases i with
    | spawn q => exact congrArg (2 + ·) (same q (k.spawns_named p named q (.inl member)) (.inl member))
    | spawnPinned q =>
      exact congrArg (2 + ·) (same q (k.spawns_named p named q (.inr member)) (.inr member))
    | send | recv | ask | race | panic => rfl
  show 2 + _ = 2 + _
  rw [costs]

namespace Machine

/-- The cost of the rest of the machine's program. -/
def rest (k : Instance) (load : String → Nat) (m : Machine) : Nat :=
  (((k.programs m.prog).drop m.pc).map (cost load)).sum

def work (k : Instance) (load : String → Nat) (m : Machine) : Nat :=
  match m.status with
  | .notStarted => 2 + m.rest k load
  | .running | .idle => 1 + m.rest k load
  | .awaiting => m.rest k load
  | .panicking | .complete | .gone => 0

variable {m : Machine}

theorem rest_eq {i : Instr} (instr : (k.programs m.prog)[m.pc]? = some i) :
    m.rest k load = cost load i + rest k load { m with pc := m.pc + 1 } := by
  obtain ⟨low, rfl⟩ := List.getElem?_eq_some_iff.mp instr
  unfold rest
  rw [List.drop_eq_getElem_cons low, List.map_cons, List.sum_cons]

theorem rest_lt (load : String → Nat) (low : m.pc < (k.programs m.prog).length) :
    rest k load { m with pc := m.pc + 1 } + 2 ≤ m.rest k load := by
  rw [rest_eq (List.getElem?_eq_getElem low)]
  have : 2 ≤ cost load (k.programs m.prog)[m.pc] := by
    unfold cost
    split <;> omega
  omega

theorem work_fresh (loads : Loads k load) {p : String} (named : p ∈ k.names) (pinned : Bool) :
    (fresh k p pinned).work k load = load p := by
  rw [loads p named]
  rfl

theorem work_over (m : Machine) {status : Status} (ended : status = .complete ∨ status = .gone) :
    (m.over status).work k load = 0 := by
  rcases ended with rfl | rfl <;> rfl

/-- A machine that waits has work left. -/
theorem work_pos (load : String → Nat) (sound : m.Sound k) (waits : m.waitingIn) : 0 < m.work k load := by
  rcases waits with status | status
  · unfold work
    rw [status]
    exact Nat.add_pos_left Nat.one_pos _
  · have := rest_lt load (sound.asking status).1
    unfold work
    rw [status]
    dsimp only
    omega

end Machine

theorem sum_modify {α : Type*} (g : α → Nat) (l : List α) {i : Nat} {a : α} (f : α → α)
    (found : l[i]? = some a) : ((l.modify i f).map g).sum + g a = (l.map g).sum + g (f a) := by
  induction l generalizing i with
  | nil => cases found
  | cons b rest ih =>
    cases i with
    | zero =>
      obtain rfl : b = a := Option.some.inj found
      simp only [List.modify_zero_cons, List.map_cons, List.sum_cons]
      omega
    | succ i =>
      have := ih (i := i) found
      simp only [List.modify_succ_cons, List.map_cons, List.sum_cons]
      omega

namespace World

/-- The work of the machines, and of the children to come. -/
def work (k : Instance) (load : String → Nat) (w : World) : Nat :=
  (w.machines.map (Machine.work k load)).sum + (w.children.map fun child => load child.1).sum

variable {w w' : World} {h : Nat} {m : Machine}

theorem work_update (load : String → Nat) {f : Machine → Machine} (found : w.machines[h]? = some m)
    (machines : w'.machines = (w.update h f).machines) (children : w'.children = w.children) :
    w'.work k load + m.work k load = w.work k load + (f m).work k load := by
  have changed := sum_modify (Machine.work k load) w.machines f found
  unfold work
  rw [machines, children]
  show ((w.machines.modify h f).map _).sum + _ + _ = _
  omega

theorem Nudged.works (nudged : w.Nudged w') :
    w'.machines.map (Machine.work k load) = w.machines.map (Machine.work k load) := by
  have counted : ∀ machines : List Machine, machines.map (Machine.work k load) =
      (machines.map Machine.bare).map (Machine.work k load) := by
    intro machines
    rw [List.map_map]
    rfl
  rw [counted, counted w.machines, nudged.bare_all]

theorem Nudged.work (nudged : w.Nudged w') : w'.work k load = w.work k load := by
  unfold World.work
  rw [nudged.children, nudged.works]

theorem work_take (w : World) (c : String) : (w.take c).work k load = w.work k load := by
  unfold take
  split <;> rfl

/-- Some work is done, or nothing has happened that the host could hear of. -/
def Spends (k : Instance) (load : String → Nat) (h : Nat) (w w' : World) : Prop :=
  w'.work k load < w.work k load ∨
    w'.work k load = w.work k load ∧ w'.woke = w.woke ∧ w'.effects = w.effects ∧
      (w'.failed h → w.failed h)

theorem Spends.refl (w : World) (h : Nat) : Spends k load h w w :=
  .inr ⟨rfl, rfl, rfl, id⟩

theorem Spends.trans {w'' : World} (first : Spends k load h w w') (second : Spends k load h w' w'') :
    Spends k load h w w'' := by
  rcases first with less | ⟨same, woke, effects, fails⟩
  · rcases second with less' | ⟨same', _⟩
    · exact .inl (less'.trans less)
    · exact .inl (same' ▸ less)
  · rcases second with less' | ⟨same', woke', effects', fails'⟩
    · exact .inl (same ▸ less')
    · exact .inr ⟨same'.trans same, woke'.trans woke, effects'.trans effects, fails ∘ fails'⟩

theorem spends_take (c : String) : Spends k load h w (w.take c) := by
  refine .inr ⟨work_take w c, ?_, (take_emitted w c).2, ?_⟩
  · unfold take
    split <;> rfl
  · unfold failed
    rw [machines_take]
    exact id

/-- A machine is changed to one with less work. -/
theorem work_lt {f : Machine → Machine} (found : w.machines[h]? = some m)
    (machines : w'.machines = (w.update h f).machines) (children : w'.children = w.children)
    (less : (f m).work k load < m.work k load) : w'.work k load < w.work k load := by
  have := work_update (k := k) load found machines children
  omega

/-- A machine is changed to one with as much work, and does not panic. -/
theorem spends_kept {f : Machine → Machine} (found : w.machines[h]? = some m)
    (machines : w'.machines = (w.update h f).machines) (children : w'.children = w.children)
    (same : (f m).work k load = m.work k load) (woke : w'.woke = w.woke)
    (effects : w'.effects = w.effects) (calm : (f m).status ≠ .panicking) : Spends k load h w w' := by
  have := work_update (k := k) load found machines children
  refine .inr ⟨by omega, woke, effects, fun failed => ?_⟩
  obtain ⟨n, there, status⟩ := (failed_iff w' h).mp failed
  rw [machines, getElem?_update_self found] at there
  obtain rfl := Option.some.inj there
  exact absurd status calm

theorem Nudged.spends {w'' : World} (nudged : w'.Nudged w'') (less : w'.work k load < w.work k load) :
    Spends k load h w w'' := by
  apply Or.inl
  rw [nudged.work]
  exact less

theorem work_finish (load : String → Nat) (found : w.machines[h]? = some m) :
    (w.finish h).work k load + m.work k load = w.work k load := by
  have ended : ({ w.update h (·.over .complete) with closed := w.closed ∪ m.asks } : World).work k load +
      m.work k load = w.work k load + (m.over .complete).work k load :=
    work_update load found rfl rfl
  unfold finish
  rw [found]
  dsimp only
  rw [(dropSenders_spec _ m.holds).1.work]
  rw [Machine.work_over m (.inl rfl)] at ended
  exact ended

/-- What one instruction spends. -/
theorem exec_spends (w : World) (h : Nat) : Spends k load h w (w.exec k h) := by
  cases found : w.machines[h]? with
  | none =>
    unfold exec
    rw [found]
    exact .refl w h
  | some m =>
    obtain ⟨_, same⟩ | ⟨running, w', same, ran⟩ := exec_cases (k := k) found
    · rw [same]
      exact .refl w h
    · rw [same]
      have work : m.work k load = 1 + m.rest k load := by
        unfold Machine.work
        rw [running]
      have next : Machine.work k load { m with pc := m.pc + 1 } =
          1 + Machine.rest k load { m with pc := m.pc + 1 } := by
        unfold Machine.work
        simp only [running]
      have passed : m.pc < (k.programs m.prog).length →
          Machine.work k load { m with pc := m.pc + 1 } < m.work k load := by
        intro low
        have := Machine.rest_lt load low
        omega
      cases ran with
      | returns =>
        have := work_finish (k := k) load found
        exact .inl (by omega)
      | sends c instr =>
        apply (wakeWaiters_spec _ c).1.spends
        exact work_lt found rfl rfl (passed (List.getElem?_eq_some_iff.mp instr).1)
      | takes c low =>
        have there : (w.take c).machines[h]? = some m := machines_take w c ▸ found
        exact (spends_take c).trans (.inl (work_lt there rfl rfl (passed low)))
      | spawns p pinned instr =>
        -- the child's work was part of the instruction's
        have price : m.rest k load =
            2 + load p + Machine.rest k load { m with pc := m.pc + 1 } := by
          rcases instr with instr | instr <;> exact Machine.rest_eq instr
        have moved : (w.update h fun m => { m with pc := m.pc + 1 }).work k load + m.work k load =
            w.work k load + Machine.work k load { m with pc := m.pc + 1 } :=
          work_update load found rfl rfl
        have grown : (w.spawn k h p pinned).work k load =
            (w.update h fun m => { m with pc := m.pc + 1 }).work k load + load p := by
          show _ + ((w.children ++ [(p, pinned)]).map fun child => load child.1).sum =
            _ + (w.children.map fun child => load child.1).sum + _
          rw [List.map_append, List.sum_append, ← Nat.add_assoc]
          rfl
        exact .inl (by omega)
      | waits c _ _ =>
        refine spends_kept (f := fun m => { m with status := .idle, waiting := c, woken := false })
          found rfl rfl ?_ rfl rfl (by simp)
        rw [work]
        rfl
      | asks _ =>
        refine .inl (work_lt (f := fun m => { m with
          status := .awaiting, asks := m.asks ∪ {m.nextId}, nextId := m.nextId + 1 })
          found rfl rfl ?_)
        rw [work]
        exact Nat.lt_add_of_pos_left Nat.one_pos
      | races c _ _ =>
        refine .inl (work_lt (f := fun m => { m with
          status := .awaiting, waiting := c, woken := false, racing := m.nextId,
          asks := m.asks ∪ {m.nextId}, nextId := m.nextId + 1 }) found rfl rfl ?_)
        rw [work]
        exact Nat.lt_add_of_pos_left Nat.one_pos
      | panics _ =>
        refine .inl (work_lt (f := fun m => { m with status := .panicking }) found rfl rfl ?_)
        rw [work]
        exact Nat.add_pos_left Nat.one_pos _

/-- What the event that begins a call spends. -/
theorem begin_spends (sound : w.Sound k) (e : Event) : Spends k load e.target w (w.begin e) := by
  cases found : w.machines[e.target]? with
  | none =>
    rw [begin_none found]
    exact .refl w _
  | some m =>
    have self := sound.machines m (List.mem_of_getElem? found)
    obtain ⟨w', same, begun⟩ := begin_cases found
    rw [same]
    -- a reply, or a message in a race, ends the wait
    have goes : ∀ m' : Machine, m'.prog = m.prog → m'.pc = m.pc + 1 → m'.status = .running →
        m.status = .awaiting → m'.work k load < m.work k load := by
      intro m' prog pc status awaiting
      have := Machine.rest_lt load (self.asking awaiting).1
      have rest : m'.rest k load = Machine.rest k load { m with pc := m.pc + 1 } := by
        unfold Machine.rest
        rw [prog, pc]
      unfold Machine.work
      rw [status, awaiting]
      dsimp only
      omega
    cases begun with
    | starts h status =>
      refine .inl (work_lt (h := h) (f := fun m => { m with status := .running }) found rfl rfl ?_)
      unfold Machine.work
      rw [status]
      exact Nat.add_lt_add_right (Nat.lt_succ_self 1) _
    | looks h status =>
      refine spends_kept (h := h)
        (f := fun m => { m with status := .running, waiting := "", woken := false })
        found rfl rfl ?_ rfl rfl (by simp)
      unfold Machine.work
      rw [status]
      rfl
    | wins h status _ _ =>
      have there : (w.take m.waiting).machines[h]? = some m := machines_take w m.waiting ▸ found
      exact (spends_take m.waiting).trans (.inl (work_lt (h := h) (f := fun n => { n with
        status := .running, pc := n.pc + 1, waiting := "", woken := false,
        asks := n.asks \ {m.racing}, racing := 0 }) there rfl rfl (goes _ rfl rfl rfl status)))
    | waits h status _ _ =>
      exact spends_kept (h := h) (f := fun m => { m with woken := false }) found rfl rfl rfl rfl rfl
        (by simp [status])
    | ignores | discards => exact .refl w _
    | answers h i taken asked either =>
      have there : taken.machines[h]? = some m ∧ Spends k load h w taken := by
        rcases either with rfl | rfl
        · exact ⟨found, .refl taken h⟩
        · exact ⟨machines_take w m.waiting ▸ found, spends_take m.waiting⟩
      exact there.2.trans (.inl (work_lt (f := fun m => { m with
        status := .running, pc := m.pc + 1, waiting := "", woken := false, asks := m.asks \ {i},
        racing := 0 }) there.1 rfl rfl (goes _ rfl rfl rfl (self.asks_of_waits asked).1)))

theorem attempt_spends (load : String → Nat) (sound : w.Sound k) (e : Event) :
    Spends k load e.target w (w.attempt k e) :=
  (begin_spends sound e).trans (runToWait_keeps (k := k) (h := e.target)
    (Spends k load e.target (w.begin e)) (fun _ spent => spent.trans (exec_spends _ _))
    (.refl _ _))

/-- The end of a call adds no work: a child takes over its own, or never existed. -/
theorem work_owned (loads : Loads k load) (sound : w.Sound k) (e : Event) (worker : Nat) (m : Machine) :
    ((w.owned k e worker m).machines.map (Machine.work k load)).sum ≤
      (w.attempt k e).work k load := by
  have owner : ∀ c : World, (c.own e.target worker m).machines.map (Machine.work k load) =
      c.machines.map (Machine.work k load) := by
    intro c
    unfold own
    split
    · show (c.machines.modify e.target _).map _ = _
      apply List.ext_getElem?
      intro g
      rw [List.getElem?_map, List.getElem?_modify, List.getElem?_map]
      cases c.machines[g]? with
      | none => rfl
      | some n =>
        show some (Machine.work k load (if _ then _ else _)) = _
        split <;> rfl
    · rfl
  unfold owned conclude
  rw [owner]
  split
  · next failed =>
    obtain ⟨n, found, _⟩ := (failed_iff _ _).mp failed
    have less := sum_modify (Machine.work k load) (w.attempt k e).machines (·.over .gone) found
    rw [Machine.work_over n (.inr rfl)] at less
    rw [(nudged_failCall _ _).works]
    refine le_trans ?_ (Nat.le_add_right _ _)
    show (((w.attempt k e).machines.modify e.target _).map _).sum ≤ _
    omega
  · have born : (w.attempt k e).children.map (Machine.work k load ∘ fun c => fresh k c.1 c.2) =
        (w.attempt k e).children.map fun child => load child.1 :=
      List.map_congr_left fun child member =>
        Machine.work_fresh loads ((sound.attempt e).children child member) child.2
    rw [machines_register, List.map_append, List.sum_append, List.map_map, born]
    exact le_refl _

end World

/-! ### The host -/

/-- What an output brings the host to do: to take it, and an event for each machine or request it
names. -/
def Output.brings (out : Output) : Nat :=
  1 + 2 * (out.woke.card + (spawnedIn out.effects).card + (askedIn out.effects).card)

namespace Host

variable {s s' : Host}

/-- The work of the machines. -/
def work (k : Instance) (load : String → Nat) (s : Host) : Nat :=
  (s.machines.map (Machine.work k load)).sum

def outputs (inFlight : Finmap fun _ : Nat => Output) : Nat :=
  ∑ h ∈ inFlight.keys, (inFlight.lookup h).elim 0 Output.brings

/-- What the host has yet to do if no machine does any work. -/
def backlog (s : Host) : Nat :=
  3 * s.wakes.card + 2 * s.pending.card + outputs s.inFlight + 3 * s.spuriousLeft.toNat +
    if s.verdict = .running then 1 else 0

theorem outputs_insert {inFlight : Finmap fun _ : Nat => Output} {h : Nat} {out : Output}
    (free : h ∉ inFlight.keys) : outputs (inFlight.insert h out) = outputs inFlight + out.brings := by
  have keys : (inFlight.insert h out).keys = insert h inFlight.keys := by
    ext x
    rw [Finmap.mem_keys, Finmap.mem_insert, Finset.mem_insert, Finmap.mem_keys, eq_comm]
  unfold outputs
  rw [keys, Finset.sum_insert free, Finmap.lookup_insert, Nat.add_comm]
  congr 1
  apply Finset.sum_congr rfl
  intro x member
  rw [Finmap.lookup_insert_of_ne]
  rintro rfl
  exact free member

theorem outputs_erase {inFlight : Finmap fun _ : Nat => Output} {h : Nat} {out : Output}
    (found : inFlight.lookup h = some out) :
    outputs (inFlight.erase h) + out.brings = outputs inFlight := by
  have member : h ∈ inFlight.keys := by
    by_contra free
    cases (not_mem_keys.mp free).symm.trans found
  unfold outputs
  rw [← Finset.sum_erase_add _ _ member, Finmap.keys_erase, found]
  show _ + out.brings = _ + out.brings
  congr 1
  apply Finset.sum_congr rfl
  intro x other
  rw [Finmap.lookup_erase_ne (Finset.mem_erase.mp other).1]

/-- A call lowers the work, or keeps it and uses up its event. -/
theorem called_lowers (loads : Loads k load) (sound : s.Sound k) (settled : s.settled) {e : Event}
    (worker : Nat) (m : Machine) (pending : e ∈ s.pending) (free : e.target ∉ s.inFlight.keys) :
    (s.called k e worker m).work k load < s.work k load ∨
      (s.called k e worker m).work k load = s.work k load ∧
        (s.called k e worker m).backlog < s.backlog := by
  have ended : (s.called k e worker m).work k load ≤ (s.world.attempt k e).work k load :=
    World.work_owned loads sound.world e worker m
  have begun : s.world.work k load = s.work k load := rfl
  rcases World.attempt_spends load sound.world e with less | ⟨same, woke, effects, fails⟩
  · exact .inl (by omega)
  · rcases Nat.lt_or_eq_of_le (ended.trans_eq (same.trans begun)) with less | still
    · exact .inl less
    refine .inr ⟨still, ?_⟩
    have calm : ¬ (s.world.attempt k e).failed e.target := by
      intro failed
      obtain ⟨n, there, panicking⟩ := (World.failed_iff _ _).mp (fails failed)
      exact (settled n (List.mem_of_getElem? there)).2 panicking
    -- the output is empty
    have brings : (output (s.world.owned k e worker m) e.target worker
        ((s.world.attempt k e).failed e.target) m).brings = 1 := by
      unfold Output.brings
      rw [output_woke, output_effects, if_neg calm, if_neg calm]
      unfold World.owned World.conclude
      rw [if_neg calm, World.own_woke, World.own_effects, World.woke_register, woke,
        World.effects_register_nil effects]
      rfl
    have card := Finset.card_erase_add_one pending
    have wakes : (s.called k e worker m).wakes = s.wakes :=
      (called_wakes s e worker m k).trans (if_neg calm)
    unfold backlog
    rw [wakes, called_inFlight, outputs_insert free, brings]
    show 3 * s.wakes.card + 2 * (s.pending.erase e).card + (outputs s.inFlight + 1) +
      3 * s.spuriousLeft.toNat + (if s.verdict = .running then 1 else 0) < _
    omega

theorem work_retire (machines : List Machine) {h : Nat} {out : Output} {m : Machine}
    (there : machines[h]? = some m) (told : m.status = out.status) :
    ((retire machines h out).map (Machine.work k load)).sum =
      (machines.map (Machine.work k load)).sum := by
  unfold retire
  dsimp only
  split
  · next ended =>
    have changed := sum_modify (Machine.work k load) machines
      (fun m => { m with status := .gone }) there
    have weightless : m.work k load = 0 := by
      unfold Machine.work
      rcases ended with status | status <;> rw [told, status]
    have gone : Machine.work k load { m with status := .gone } = 0 := rfl
    omega
  · rfl

/-- The output of a call is turned into events. -/
theorem returned_lowers (correct : k.Correct) {h : Nat} {out : Output}
    (found : s.inFlight.lookup h = some out) : (s.returned k h out).backlog < s.backlog := by
  have outputs := outputs_erase found
  have pending : (s.returned k h out).pending.card ≤ s.pending.card +
      (out.woke.card + (spawnedIn out.effects).card + (askedIn out.effects).card) := by
    have asked : ((askedIn out.effects).image (.reply h : Nat → Event)).card ≤
        (askedIn out.effects).card := Finset.card_image_le
    have spawned : ((spawnedIn out.effects).image Event.resume).card ≤
        (spawnedIn out.effects).card := Finset.card_image_le
    have woken : (out.woke.image Event.resume).card ≤ out.woke.card := Finset.card_image_le
    refine (Finset.card_le_card Finset.sdiff_subset).trans ?_
    rw [correct.heedsWoke, correct.waitsForWoke]
    have stays : (if !true ∧ out.status = .idle then {.resume h} else ∅ : Finset Event) = ∅ := by simp
    rw [if_pos rfl, stays, Finset.union_empty]
    have all := Finset.card_union_le (s.pending ∪ out.woke.image Event.resume ∪
      (spawnedIn out.effects).image .resume) ((askedIn out.effects).image (.reply h))
    have most := Finset.card_union_le (s.pending ∪ out.woke.image Event.resume)
      ((spawnedIn out.effects).image .resume)
    have woke := Finset.card_union_le s.pending (out.woke.image Event.resume)
    omega
  unfold Output.brings at outputs
  unfold backlog
  show 3 * s.wakes.card + 2 * (s.returned k h out).pending.card +
    Host.outputs (s.inFlight.erase h) + 3 * s.spuriousLeft.toNat +
    (if s.verdict = .running then 1 else 0) < _
  omega

/-- Each action but `done` lowers what is left to do. -/
theorem step_lowers (correct : k.Correct) (loads : Loads k load) (sound : s.Sound k)
    (settled : s.settled) {a : Action} (acts : a ≠ .done) (taken : s.step k a = some s') :
    s'.work k load < s.work k load ∨
      s'.work k load = s.work k load ∧ s'.backlog < s.backlog := by
  cases step_cases taken with
  | refused e worker m found unrouted _ => cases correct.routesPinned.symm.trans unrouted
  | called e worker m _ pending _ _ free _ =>
    exact called_lowers loads sound settled worker m pending free
  | returned h out found =>
    obtain ⟨m, there, told⟩ := sound.told h out found
    exact .inr ⟨work_retire s.machines there told, returned_lowers correct found⟩
  | woken running pending _ nonempty =>
    -- the wakes become events, which weigh less
    refine .inr ⟨rfl, ?_⟩
    have card : (s.wakes.image Event.resume).card ≤ s.wakes.card := Finset.card_image_le
    have named := Finset.card_pos.mpr (Finset.nonempty_iff_ne_empty.mpr nonempty)
    unfold backlog
    rw [pending, Finset.card_empty]
    dsimp only
    rw [Finset.card_empty]
    omega
  | judged running _ _ _ =>
    refine .inr ⟨rfl, ?_⟩
    unfold backlog
    -- it says so once only
    have given : (if !k.checksAllDone ∨ s.allGone then Verdict.ended else .stall) ≠ .running := by
      split <;> simp
    dsimp only
    rw [if_neg given, if_pos running]
    omega
  | spurred h m _ _ _ _ left =>
    refine .inr ⟨rfl, ?_⟩
    -- one less may be made up
    have card := Finset.card_union_le s.pending {.resume h}
    rw [Finset.card_singleton] at card
    unfold backlog
    dsimp only
    omega
  | killed h m found waits _ _ =>
    -- what the machine was still to do is left undone
    apply Or.inl
    have pos := Machine.work_pos load
      (sound.world.machines m (List.mem_of_getElem? found)) waits
    have less := sum_modify (Machine.work k load) s.machines (·.over .gone) found
    rw [Machine.work_over m (.inr rfl)] at less
    have killed : (s.killed h m).work k load =
        ((s.machines.modify h (·.over .gone)).map (Machine.work k load)).sum :=
      congrArg List.sum (World.dropSenders_spec (s.world.update h (·.over .gone)) m.holds).1.works
    unfold work at killed ⊢
    omega
  | done _ => exact absurd rfl acts

/-- What is left to do: the work first, and then the backlog. -/
def toDo (k : Instance) (load : String → Nat) (s : Host) : Nat ×ₗ Nat :=
  toLex (s.work k load, s.backlog)

end Host

/-- If no program spawns itself, no run goes on for ever; and a run that can go no further, if there
is a worker to make its calls, has reached a verdict. -/
theorem every_run_ends (k : Instance) (correct : k.Correct) (short : k.Short)
    (acyclic : ∀ p ∈ k.names, ¬ Relation.TransGen k.Spawns p p) :
    (∀ (states : Nat → Host) (actions : Nat → Host.Action), states 0 = Host.init k →
      ¬ ∀ n, actions n ≠ .done ∧ (states n).step k (actions n) = some (states (n + 1))) ∧
    (1 ≤ k.workers → ∀ (actions : List Host.Action) (s : Host),
      Transition.run (Host.step k) (Host.init k) actions = some s →
      (∀ a, a ≠ .done → s.step k a = none) → s.verdict ≠ .running) := by
  constructor
  · intro states actions initial
    obtain ⟨load, loads⟩ := exists_loads acyclic
    refine Transition.ends_of_lower (· ≠ Host.Action.done) (Host.Judging k) (Host.toDo k load)
      (fun s a next judging _ taken => ?_) (fun s a next judging acts taken => ?_)
      (initial ▸ Host.judging_init k)
    · exact judging.step correct short taken
    · exact Prod.Lex.toLex_lt_toLex.mpr
        (Host.step_lowers correct loads judging.awake.sound judging.settled acts taken)
  · intro workers actions s ran stuck running
    have cannot : ∀ {a : Host.Action}, a ≠ .done → ¬ (s.step k a).isSome := by
      intro a acts
      rw [stuck a acts]
      simp
    rcases (Host.judging_run correct short ran).goes_on workers running with
      ⟨e, worker, called⟩ | ⟨h, returned⟩ | quiet
    · exact cannot (a := .call e worker) (by simp) called
    · exact cannot (a := .ret h) (by simp) returned
    · exact cannot (a := .quiet) (by simp) quiet

theorem deadline_acyclic : ∀ p ∈ deadline.names, ¬ Relation.TransGen deadline.Spawns p p := by
  have spawns : ∀ p q, deadline.Spawns p q → p = "parent" ∧ q = "quick" := by
    intro p q spawned
    unfold Instance.Spawns deadline at spawned
    by_cases parent : p = "parent"
    · exact ⟨parent, by simpa [parent] using spawned⟩
    · simp [parent] at spawned
  have chains : ∀ p q, Relation.TransGen deadline.Spawns p q → p = "parent" ∧ q = "quick" := by
    intro p q chain
    induction chain with
    | single spawned => exact spawns _ _ spawned
    | tail _ spawned ih => exact ⟨ih.1, (spawns _ _ spawned).2⟩
  intro p _ cycle
  obtain ⟨rfl, same⟩ := chains p p cycle
  exact absurd same (by decide)

theorem every_run_ends_deadline :
    (∀ (states : Nat → Host) (actions : Nat → Host.Action), states 0 = Host.init deadline →
      ¬ ∀ n, actions n ≠ .done ∧ (states n).step deadline (actions n) = some (states (n + 1))) ∧
    ∀ (actions : List Host.Action) (s : Host),
      Transition.run (Host.step deadline) (Host.init deadline) actions = some s →
      (∀ a, a ≠ .done → s.step deadline a = none) → s.verdict ≠ .running := by
  obtain ⟨finite, reaches⟩ := every_run_ends deadline ⟨rfl, rfl, rfl, rfl, rfl⟩ deadline_short
    deadline_acyclic
  exact ⟨finite, reaches (le_refl _)⟩

/-- One machine, and no worker to call it on. -/
def workerless : Instance where
  names := {"root"}
  programs _ := []
  holds _ := []
  root := "root"
  workers := 0
  heedsWoke := true
  dropsClosed := true
  routesPinned := true
  checksAllDone := true
  waitsForWoke := true
  spurious := 0
  kills := 0
  holds_distinct _ := List.nodup_nil
  root_named := by decide
  spawns_named p _ q spawned := by simp at spawned

/-- Without a worker nothing is ever called, and there is no verdict. -/
theorem no_verdict_without_a_worker :
    ¬ ∀ (k : Instance), k.Correct → k.Short →
      (∀ p ∈ k.names, ¬ Relation.TransGen k.Spawns p p) → ∀ (actions : List Host.Action) (s : Host),
      Transition.run (Host.step k) (Host.init k) actions = some s →
      (∀ a, a ≠ .done → s.step k a = none) → s.verdict ≠ .running := by
  intro reaches
  have acyclic : ∀ p ∈ workerless.names, ¬ Relation.TransGen workerless.Spawns p p := by
    intro p _ cycle
    obtain ⟨q, spawned, _⟩ := Relation.TransGen.head'_iff.mp cycle
    simp [Instance.Spawns, workerless] at spawned
  apply reaches workerless ⟨rfl, rfl, rfl, rfl, rfl⟩ (fun p _ => Nat.zero_le _) acyclic [] _ rfl _ rfl
  intro a acts
  by_contra can
  obtain ⟨s, taken⟩ := Option.ne_none_iff_exists'.mp can
  -- the one machine has not begun, and its resume stays pending
  have one : ∀ {h : Nat} {m : Machine}, (Host.init workerless).machines[h]? = some m →
      m = fresh workerless "root" false := by
    intro h m there
    exact List.mem_singleton.mp (List.mem_of_getElem? there)
  cases Host.step_cases taken with
  | refused e worker m _ routes _ => cases routes
  | called e worker m _ _ idle _ _ _ => simp [Host.idleWorkers, workerless] at idle
  | returned h out flying => simp [Host.init] at flying
  | woken _ pending _ _ => simp [Host.init] at pending
  | judged _ pending _ _ => simp [Host.init] at pending
  | spurred h m there waits _ _ _ =>
    obtain rfl := one there
    simp [Machine.waitingIn, fresh] at waits
  | killed h m there waits _ _ =>
    obtain rfl := one there
    simp [Machine.waitingIn, fresh] at waits
  | done _ => exact acts rfl

end SansEffort.Protocol
