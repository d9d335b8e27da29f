import SansEffort.Process

/-!
# Runs after a panic

A call finds its machine and takes the machine's lock in two steps, and a panicking call removes
the machine and releases the lock in two more. Whether a machine that panicked runs again depends
on how the steps of two threads fall. A call whose panic's payload panics as it is dropped releases
the lock and leaves the machine, and then it depends on whether the lock is poisoned.
-/

namespace SansEffort

namespace Layer

/-- The machine was found, and its lock is to be tried. -/
def tries (who : Who) : Layer → Bool
  | found _ w => w = who
  | _ => false

/-- The call is between finding the machine and releasing its lock. -/
def uses (who : Who) (layer : Layer) : Bool := layer.tries who || layer.locks who

/-- The machine's code has panicked in the call. -/
def failed (who : Who) : Layer → Bool
  | caught _ w => w = who
  | removed _ w => w = who
  | _ => false

/-- The machine is removed from the table. -/
def removes (who : Who) : Layer → Bool
  | removed _ w => w = who
  | _ => false

end Layer

namespace Process

variable {T : Type}

/-- No call can come to run the machine. -/
def Out (p : Process T) (who : Who) : Prop :=
  p.machines who.handle ≠ some who ∧ ¬ Stacks.Somewhere (Layer.uses who) p.stack

/-- No migrating machine runs that has panicked. -/
def Final : List Occurrence → Prop
  | [] => True
  | event :: history =>
    (∀ who, event = .began who → who.pinned = false → .panicked who ∉ history) ∧ Final history

/-- Where a machine that has panicked is. -/
structure Dead (p : Process T) : Prop where
  panicked : ∀ who, .panicked who ∈ p.history → who.pinned = false →
    Stacks.Somewhere (Layer.failed who) p.stack ∨ p.Out who ∨ p.poisoned who = true
  removed : ∀ who, Stacks.Somewhere (Layer.removes who) p.stack → p.machines who.handle ≠ some who
  unlocked : ∀ who, .unlocked who ∈ p.history → who.pinned = false → p.Out who
  unwound : ∀ who, .unwound who ∈ p.history → who.pinned = false → p.poisoned who = true
  final : Final p.history

theorem dead_new : (new : Process T).Dead := by
  constructor
  · intro who member
    cases member
  · rintro who ⟨t, layer, member, _⟩
    cases member
  · intro who member
    cases member
  · intro who member
    cases member
  · trivial

/-- A panicking call releases a machine's lock only where it is poisoned, or the machine is removed
and no call has found it and not yet tried the lock. -/
def NoneWaiting (p : Process T) (act : T × Deed) : Prop :=
  (act.2 = .unlock → ∀ handle who rest, p.stack act.1 = .removed handle who :: rest →
    ¬ Stacks.Somewhere (Layer.tries who) p.stack) ∧
  (act.2 = .payloadPanicked false → ∀ handle who rest,
    p.stack act.1 = .caught handle who :: rest → who.pinned = true)

variable {p after : Process T}

/-- A found machine whose lock is free, and not poisoned, has not panicked. -/
theorem Dead.alive (dead : p.Dead) (stacked : p.Stacked) {t : T} {handle : Nat} {who : Who}
    {rest : List Layer} (top : p.stack t = .found handle who :: rest) (free : p.locked who = false)
    (sound : who.pinned = false → p.poisoned who = false) (migrating : who.pinned = false) :
    .panicked who ∉ p.history := by
  intro member
  rcases dead.panicked who member migrating with ⟨u, layer, inside, failed⟩ | out | poisoned
  · have locked := stacked.locked who ⟨u, layer, inside, by
      cases layer <;> simp_all [Layer.failed, Layer.locks]⟩
    rw [free] at locked
    cases locked
  · exact out.2 ⟨t, .found handle who, by simp [top], by simp [Layer.uses, Layer.tries]⟩
  · rw [sound migrating] at poisoned
    cases poisoned

section

variable [DecidableEq T]

/-- What a step does that neither finds nor runs a machine, nor comes out of a panic. -/
structure Bystands (p after : Process T) (t : T) : Prop where
  machines : ∀ who, p.Known who → after.machines who.handle = some who →
    p.machines who.handle = some who
  stack : ∃ layers, after.stack = Function.update p.stack t layers ∧
    (∀ who, layers.countP (Layer.uses who) ≤ (p.stack t).countP (Layer.uses who)) ∧
    (∀ who, (p.stack t).countP (Layer.failed who) ≤ layers.countP (Layer.failed who)) ∧
    ∀ who, layers.countP (Layer.removes who) ≤ (p.stack t).countP (Layer.removes who)
  poisoned : after.poisoned = p.poisoned
  history : after.history = p.history ∨ ∃ who, after.history = .freed who :: p.history ∨
    after.history = .failed who :: p.history

theorem Out.bystands {t : T} {who : Who} (out : p.Out who) (known : p.Known who)
    (bystands : Bystands p after t) : after.Out who := by
  obtain ⟨layers, stack, uses, _⟩ := bystands.stack
  constructor
  · intro there
    exact out.1 (bystands.machines who known there)
  · rw [stack]
    intro used
    exact out.2 (Stacks.somewhere_update (uses who) used)

theorem Dead.bystands {t : T} (dead : p.Dead) (stacked : p.Stacked)
    (bystands : Bystands p after t) : after.Dead := by
  obtain ⟨layers, stack, uses, failed, removes⟩ := bystands.stack
  -- it tells of no panic and no release
  have told : ∀ who, (.panicked who ∈ after.history → .panicked who ∈ p.history) ∧
      (.unlocked who ∈ after.history → .unlocked who ∈ p.history) ∧
      (.unwound who ∈ after.history → .unwound who ∈ p.history) := by
    intro who
    rcases bystands.history with same | ⟨w, same | same⟩
    · rw [same]
      exact ⟨id, id, id⟩
    · simp [same]
    · simp [same]
  constructor
  case panicked =>
    intro who member migrating
    have before := (told who).1 member
    rcases dead.panicked who before migrating with running | out | poisoned
    · left
      rw [stack]
      exact Stacks.somewhere_kept (failed who) running
    · exact .inr (.inl (out.bystands (stacked.history _ before) bystands))
    · rw [bystands.poisoned]
      exact .inr (.inr poisoned)
  case removed =>
    intro who running there
    rw [stack] at running
    have before := Stacks.somewhere_update (removes who) running
    -- the machine was in a call, so it was not just created under its handle
    have known : p.Known who := by
      obtain ⟨u, layer, member, holds⟩ := before
      apply known_of_entry stacked member
      cases layer <;> simp_all [Layer.removes, Layer.entry]
    exact dead.removed who before (bystands.machines who known there)
  case unlocked =>
    intro who member migrating
    have before := (told who).2.1 member
    exact (dead.unlocked who before migrating).bystands (stacked.history _ before) bystands
  case unwound =>
    intro who member migrating
    rw [bystands.poisoned]
    exact dead.unwound who ((told who).2.2 member) migrating
  case final =>
    rcases bystands.history with same | ⟨w, same | same⟩
    · rw [same]
      exact dead.final
    · rw [same]
      exact ⟨by simp, dead.final⟩
    · rw [same]
      exact ⟨by simp, dead.final⟩

/-- A step that leaves the stacks and the machines, or takes machines out. -/
theorem bystands_of_stack {t : T} (stack : after.stack = p.stack)
    (machines : ∀ who, p.Known who → after.machines who.handle = some who →
      p.machines who.handle = some who) (poisoned : after.poisoned = p.poisoned)
    (history : after.history = p.history) : Bystands p after t := by
  refine ⟨machines, ⟨p.stack t, ?_, ?_, ?_, ?_⟩, poisoned, .inl history⟩
  · rw [stack, Function.update_eq_self]
  · intro who
    exact le_rfl
  · intro who
    exact le_rfl
  · intro who
    exact le_rfl

/-- A layer that has nothing to do with a found machine is put on a stack. -/
theorem bystands_push {t : T} {layer : Layer} (stack : after.stack = Function.update p.stack t
      (layer :: p.stack t)) (uses : ∀ who, layer.uses who = false)
    (removes : ∀ who, layer.removes who = false)
    (machines : ∀ who, p.Known who → after.machines who.handle = some who →
      p.machines who.handle = some who) (poisoned : after.poisoned = p.poisoned)
    (history : after.history = p.history) : Bystands p after t := by
  refine ⟨machines, ⟨_, stack, ?_, ?_, ?_⟩, poisoned, .inl history⟩
  · intro who
    simp [uses who]
  · intro who
    exact (List.sublist_cons_self _ _).countP_le
  · intro who
    simp [removes who]

/-- One is taken off that is of no panic, or a new one put in its place. -/
theorem bystands_pop {t : T} {layer : Layer} {rest layers : List Layer}
    (top : p.stack t = layer :: rest) (stack : after.stack = Function.update p.stack t layers)
    (fine : ∀ who, layer.failed who = false)
    (rest_or : layers = rest ∨ ∃ other, layers = other :: rest ∧
      (∀ who, other.uses who = false) ∧ ∀ who, other.removes who = false)
    (machines : after.machines = p.machines) (poisoned : after.poisoned = p.poisoned)
    (history : after.history = p.history ∨ ∃ who, after.history = .freed who :: p.history ∨
      after.history = .failed who :: p.history) : Bystands p after t := by
  refine ⟨fun who _ there => machines ▸ there, ⟨layers, stack, ?_, ?_, ?_⟩, poisoned, history⟩
  all_goals
    intro who
    have less : ∀ (l : Layer) (f : Layer → Bool), rest.countP f ≤ (l :: rest).countP f :=
      fun l f => (List.sublist_cons_self l rest).countP_le
    rcases rest_or with rfl | ⟨other, rfl, unused, unremoved⟩
    · simp [top, fine who, less]
    · simp [top, fine who, unused who, unremoved who, less]

theorem create_bystands {t : T} {pinned : Bool} (created : p.create t pinned = some after) :
    Bystands p after t := by
  obtain ⟨fresh, next, reissue, unused, rfl⟩ := create_spec created
  refine bystands_of_stack rfl ?_ rfl rfl
  intro who known there
  by_cases own : who.handle = fresh
  · cases pinned with
    | true => exact there
    | false =>
      simp only [own, Bool.false_eq_true, if_false, Function.update_self, Option.some.injEq] at there
      exact absurd there.symm (known_earlier known)
  · cases pinned with
    | true => exact there
    | false => simpa [Function.update_of_ne own] using there

theorem free_bystands (p : Process T) (t : T) (handle : Nat) : Bystands p (p.free t handle) t := by
  rcases p.free_cases t handle with same | ⟨_, same⟩ | ⟨_, _, _, same⟩
  · rw [same]
    exact bystands_of_stack rfl (fun _ _ => id) rfl rfl
  · rw [same]
    exact bystands_push rfl (fun _ => rfl) (fun _ => rfl) (fun _ _ => Thread.of_update_none) rfl rfl
  · rw [same]
    exact bystands_push rfl (fun _ => rfl) (fun _ => rfl) (fun _ _ => id) rfl rfl

/-- A step that adds no user of a machine leaves it out. -/
theorem Out.kept {t : T} {who : Who} {layers : List Layer} (out : p.Out who)
    (machines : after.machines who.handle = some who → p.machines who.handle = some who)
    (stack : after.stack = Function.update p.stack t layers)
    (uses : layers.countP (Layer.uses who) ≤ (p.stack t).countP (Layer.uses who)) :
    after.Out who := by
  constructor
  · intro there
    exact out.1 (machines there)
  · rw [stack]
    intro used
    exact out.2 (Stacks.somewhere_update uses used)

/-- A step that takes a machine from one layer to the next, in a call that found it. -/
theorem Dead.moved {t : T} {layer other : Layer} {rest : List Layer} (dead : p.Dead)
    (top : p.stack t = layer :: rest)
    (stack : after.stack = Function.update p.stack t (other :: rest))
    (machines : ∀ who, after.machines who.handle = some who → p.machines who.handle = some who)
    (uses : ∀ who, other.uses who = true → layer.uses who = true)
    (poisoned : ∀ who, p.poisoned who = true → after.poisoned who = true)
    (failed : ∀ who, who.pinned = false → layer.failed who = true →
      other.failed who = true ∨ after.poisoned who = true)
    (removes : ∀ who, other.removes who = true → layer.removes who = true ∨
      after.machines who.handle ≠ some who)
    (told : ∀ who, who.pinned = false → .panicked who ∈ after.history →
      .panicked who ∈ p.history ∨ other.failed who = true)
    (unlocked : ∀ who, who.pinned = false → .unlocked who ∈ after.history →
      .unlocked who ∈ p.history)
    (unwound : ∀ who, who.pinned = false → .unwound who ∈ after.history →
      .unwound who ∈ p.history ∨ after.poisoned who = true)
    (final : Final after.history) : after.Dead := by
  -- the new layer uses no machine that the old one did not
  have fewer : ∀ who, (other :: rest).countP (Layer.uses who) ≤
      (p.stack t).countP (Layer.uses who) := by
    intro who
    rw [top, List.countP_cons, List.countP_cons]
    apply Nat.add_le_add_left
    by_cases used : other.uses who = true
    · simp [used, uses who used]
    · simp [used]
  have out : ∀ who, p.Out who → after.Out who := fun who out =>
    out.kept (machines who) stack (fewer who)
  constructor
  case panicked =>
    intro who member migrating
    rcases told who migrating member with before | now
    · rcases dead.panicked who before migrating with running | gone | poison
      · -- the layer that had failed is replaced by one that has too, or the lock is poisoned
        by_cases fails : layer.failed who = true
        · rcases failed who migrating fails with still | poison
          · exact .inl ⟨t, other, by simp [stack], still⟩
          · exact .inr (.inr poison)
        · left
          rw [stack]
          apply Stacks.somewhere_kept _ running
          rw [top, List.countP_cons, List.countP_cons]
          apply Nat.add_le_add_left
          simp [fails]
      · exact .inr (.inl (out who gone))
      · exact .inr (.inr (poisoned who poison))
    · left
      refine ⟨t, other, ?_, now⟩
      simp [stack]
  case removed =>
    intro who ⟨u, l, member, holds⟩
    rw [stack] at member
    -- in the stack of this thread, on top or below; or in another's
    by_cases own : u = t
    · subst own
      rw [Function.update_self] at member
      rcases List.mem_cons.mp member with rfl | member
      · rcases removes who holds with before | gone
        · intro there
          exact dead.removed who ⟨u, layer, by simp [top], before⟩ (machines who there)
        · exact gone
      · intro there
        exact dead.removed who ⟨u, l, by simp [top, member], holds⟩ (machines who there)
    · rw [Function.update_of_ne own] at member
      intro there
      exact dead.removed who ⟨u, l, member, holds⟩ (machines who there)
  case unlocked =>
    intro who member migrating
    exact out who (dead.unlocked who (unlocked who migrating member) migrating)
  case unwound =>
    intro who member migrating
    rcases unwound who migrating member with before | poison
    · exact poisoned who (dead.unwound who before migrating)
    · exact poison
  case final => exact final

/-- A machine found is in its table, so it is not one that panicked and is gone. -/
theorem Dead.find (dead : p.Dead) (placed : p.Placed) {t : T} {handle : Nat} {who : Who}
    {rest : List Layer} (top : p.stack t = .finding handle :: rest)
    (found : p.find t handle = .ok who) : (p.put t (.found handle who :: rest)).Dead := by
  obtain ⟨own, known, there⟩ := placed.find found
  have out : ∀ w, w.pinned = false → p.Out w →
      (p.put t (.found handle who :: rest)).Out w := by
    intro w migrating out
    -- what is found is in its table, and what is out is in none
    have other : who ≠ w := by
      rintro rfl
      rcases there with there | ⟨there, _⟩
      · rw [← own] at there
        exact out.1 there
      · have pinned := (placed.locals t handle who there).2.1
        simp [pinned] at migrating
    refine out.kept id rfl ?_
    simp [top, Layer.uses, Layer.tries, Layer.locks, other]
  constructor
  · intro w member migrating
    rcases dead.panicked w member migrating with running | gone | poisoned
    · left
      apply Stacks.somewhere_kept _ running
      simp [top, Layer.failed]
    · exact .inr (.inl (out w migrating gone))
    · exact .inr (.inr poisoned)
  · intro w running
    refine dead.removed w (Stacks.somewhere_update ?_ running)
    simp [top, Layer.removes]
  · intro w member migrating
    exact out w migrating (dead.unlocked w member migrating)
  · exact dead.unwound
  · exact dead.final

/-- The lock is taken and is poisoned, so the machine does not run. -/
theorem Dead.refuse (dead : p.Dead) {t : T} {handle : Nat} {who : Who} {rest : List Layer}
    (top : p.stack t = .found handle who :: rest) :
    Dead ({ p with locked := Function.update p.locked who true }.put t
      (.refused handle who :: rest)) := by
  refine dead.moved top rfl (fun _ => id) ?_ (fun _ => id) ?_ ?_ ?_ ?_ ?_ ?_
  · intro w used
    simpa [Layer.uses, Layer.locks, Layer.tries] using used
  · intro w migrating failed
    cases failed
  · intro w removes
    cases removes
  · intro w migrating member
    exact .inl member
  · intro w migrating member
    exact member
  · intro w migrating member
    exact .inl member
  · exact dead.final

theorem Dead.begin (dead : p.Dead) (stacked : p.Stacked) {t : T} {handle : Nat} {who : Who}
    {rest : List Layer} (top : p.stack t = .found handle who :: rest) (free : p.locked who = false)
    (sound : who.pinned = false → p.poisoned who = false) :
    (({ p with locked := Function.update p.locked who true }.put t
      (.running handle who :: rest)).happen (.began who)).Dead := by
  have alive := dead.alive stacked top free sound
  refine dead.moved top rfl (fun _ => id) ?_ (fun _ => id) ?_ ?_ ?_ ?_ ?_ ?_
  · intro w used
    simpa [Layer.uses, Layer.locks, Layer.tries] using used
  · intro w migrating failed
    cases failed
  · intro w removes
    cases removes
  · intro w migrating member
    exact .inl (by simpa using member)
  · intro w migrating member
    simpa using member
  · intro w migrating member
    exact .inl (by simpa using member)
  · refine ⟨?_, dead.final⟩
    rintro w ⟨⟩ migrating
    exact alive migrating

theorem Dead.panics (dead : p.Dead) {t : T} {handle : Nat} {who : Who} {rest : List Layer}
    (top : p.stack t = .running handle who :: rest) :
    ((p.put t (.caught handle who :: rest)).happen (.panicked who)).Dead := by
  refine dead.moved top rfl (fun _ => id) ?_ (fun _ => id) ?_ ?_ ?_ ?_ ?_ ?_
  · intro w used
    simpa [Layer.uses, Layer.locks, Layer.tries] using used
  · intro w migrating failed
    cases failed
  · intro w removes
    cases removes
  · intro w migrating member
    rcases List.mem_cons.mp member with same | member
    · cases same
      exact .inr (by simp [Layer.failed])
    · exact .inl member
  · intro w migrating member
    simpa using member
  · intro w migrating member
    exact .inl (by simpa using member)
  · exact ⟨by simp, dead.final⟩

theorem Dead.removePinned (dead : p.Dead) {t : T} {handle : Nat} {who : Who} {rest : List Layer}
    (top : p.stack t = .caught handle who :: rest) (pinned : who.pinned = true) :
    (({ p with
      locked := Function.update p.locked who false
      pinned := Function.update p.pinned handle none
      locals := Function.update p.locals t (Function.update (p.locals t) handle none) }.put t
      (.leaving who .panicked :: rest)).happen (.unlocked who)).Dead := by
  refine dead.moved top rfl (fun _ => id) ?_ (fun _ => id) ?_ ?_ ?_ ?_ ?_ ?_
  · intro w used
    cases used
  · intro w migrating fails
    simp only [Layer.failed, decide_eq_true_eq] at fails
    subst fails
    simp [pinned] at migrating
  · intro w removes
    cases removes
  · intro w migrating member
    exact .inl (by simpa using member)
  · intro w migrating member
    rcases List.mem_cons.mp member with same | member
    · cases same
      simp [pinned] at migrating
    · exact member
  · intro w migrating member
    exact .inl (by simpa using member)
  · exact ⟨by simp, dead.final⟩

theorem Dead.removeMigrating (dead : p.Dead) (stacked : p.Stacked) {t : T} {handle : Nat}
    {who : Who} {rest : List Layer} (top : p.stack t = .caught handle who :: rest) :
    Dead ({ p with machines := Function.update p.machines handle none }.put t
      (.removed handle who :: rest)) := by
  have fits := stacked.layers t (.caught handle who) (by simp [top])
  refine dead.moved top rfl (fun _ => Thread.of_update_none) ?_ (fun _ => id) ?_ ?_ ?_ ?_ ?_ ?_
  · intro w used
    simpa [Layer.uses, Layer.locks, Layer.tries] using used
  · intro w _ fails
    exact .inl (by simpa [Layer.failed] using fails)
  · intro w removes
    simp only [Layer.removes, decide_eq_true_eq] at removes
    subst removes
    right
    simp [Process.put, fits.1]
  · intro w _ member
    exact .inl member
  · intro w _ member
    exact member
  · intro w _ member
    exact .inl member
  · exact dead.final

/-- The payload's destructor panics, and the lock let go is poisoned, as `waiting` says. -/
theorem Dead.unwind_poisoned (dead : p.Dead) {t : T} {handle : Nat} {who : Who} {rest : List Layer}
    {poisons : Bool} (waiting : p.NoneWaiting (t, .payloadPanicked poisons))
    (top : p.stack t = .caught handle who :: rest) :
    (({ p with
      locked := Function.update p.locked who false
      poisoned := Function.update p.poisoned who (p.poisoned who || poisons) }.put t
      (.leaving who .unwinding :: rest)).happen (.unwound who)).Dead := by
  -- that of a pinned machine is no matter
  have poison : who.pinned = false →
      Function.update p.poisoned who (p.poisoned who || poisons) who = true := by
    intro migrating
    cases poisons with
    | true => simp
    | false =>
      have pinned := waiting.2 rfl handle who rest top
      simp [pinned] at migrating
  refine dead.moved top rfl (fun _ => id) ?_ ?_ ?_ ?_ ?_ ?_ ?_ ?_
  · intro w used
    cases used
  · intro w before
    by_cases own : w = who
    · subst own
      simp [Process.put, Process.happen, before]
    · exact (Function.update_of_ne own _ _).trans before
  · intro w migrating fails
    simp only [Layer.failed, decide_eq_true_eq] at fails
    subst fails
    exact .inr (poison migrating)
  · intro w removes
    cases removes
  · intro w migrating member
    exact .inl (by simpa using member)
  · intro w migrating member
    simpa using member
  · intro w migrating member
    rcases List.mem_cons.mp member with same | member
    · cases same
      exact .inr (poison migrating)
    · exact .inl member
  · exact ⟨by simp, dead.final⟩

/-- The lock is released, and no other call has found the machine or holds its lock. -/
theorem Dead.unlock (dead : p.Dead) (stacked : p.Stacked) {t : T} {handle : Nat} {who : Who}
    {rest : List Layer} (waiting : p.NoneWaiting (t, .unlock))
    (top : p.stack t = .removed handle who :: rest) :
    (({ p with locked := Function.update p.locked who false }.put t
      (.leaving who .panicked :: rest)).happen (.unlocked who)).Dead := by
  have unheld := (stacked.unlock top who (by simp [Layer.locks]) .panicked nofun).2
  -- no call waits for the lock, which is what `waiting` says
  have untried : ¬ Stacks.Somewhere (Layer.tries who)
      (Function.update p.stack t (.leaving who .panicked :: rest)) := by
    intro waits
    refine waiting.1 rfl handle who rest top (Stacks.somewhere_update ?_ waits)
    simp [top, Layer.tries]
  -- it was taken from its table before the lock was released
  have gone : p.machines who.handle ≠ some who :=
    dead.removed who ⟨t, .removed handle who, by simp [top], by simp [Layer.removes]⟩
  -- so nobody has it any more, and those that were out stay so
  have out : ∀ w, w = who ∨ p.Out w → (({ p with
      locked := Function.update p.locked who false }.put t (.leaving who .panicked :: rest)).happen
        (.unlocked who)).Out w := by
    rintro w (rfl | out)
    · refine ⟨gone, ?_⟩
      rintro ⟨u, layer, member, used⟩
      simp only [Layer.uses, Bool.or_eq_true] at used
      rcases used with tries | locks
      · exact untried ⟨u, layer, member, tries⟩
      · exact unheld ⟨u, layer, member, locks⟩
    · refine out.kept id rfl ?_
      have less := (List.sublist_cons_self (Layer.removed handle who) rest).countP_le
        (p := Layer.uses w)
      simpa [top, Layer.uses, Layer.tries, Layer.locks] using less
  constructor
  case panicked =>
    intro w member migrating
    by_cases own : w = who
    · exact .inr (.inl (out w (.inl own)))
    · rcases dead.panicked w (by simpa using member) migrating with running | before | poisoned
      · left
        apply Stacks.somewhere_kept _ running
        simp [top, Layer.failed, Ne.symm own]
      · exact .inr (.inl (out w (.inr before)))
      · exact .inr (.inr poisoned)
  case removed =>
    intro w running
    refine dead.removed w (Stacks.somewhere_update ?_ running)
    have less := (List.sublist_cons_self (Layer.removed handle who) rest).countP_le
      (p := Layer.removes w)
    simpa [top, Layer.removes] using less
  case unlocked =>
    intro w member migrating
    rcases List.mem_cons.mp member with same | member
    · cases same
      exact out _ (.inl rfl)
    · exact out w (.inr (dead.unlocked w member migrating))
  case unwound =>
    intro w member migrating
    exact dead.unwound w (by simpa using member) migrating
  case final => exact ⟨by simp, dead.final⟩

theorem Dead.step (dead : p.Dead) (placed : p.Placed) (stacked : p.Stacked) {t : T} {deed : Deed}
    (waiting : p.NoneWaiting (t, deed)) (stepped : p.step (t, deed) = some after) : after.Dead := by
  cases step_cases stepped with
  | new _ _ created => exact dead.bystands stacked (create_bystands created)
  | newPinned _ _ created => exact dead.bystands stacked (create_bystands created)
  | starts | resumes | replies =>
    exact dead.bystands stacked
      (bystands_push rfl (fun _ => rfl) (fun _ => rfl) (fun _ _ => id) rfl rfl)
  | frees handle => exact dead.bystands stacked (p.free_bystands t handle)
  | reissue =>
    exact dead.bystands stacked (bystands_of_stack (t := t) rfl (fun _ _ => id) rfl rfl)
  | built who rest top =>
    exact dead.bystands stacked (bystands_pop top rfl (fun _ => rfl)
      (.inr ⟨_, rfl, fun _ => rfl, fun _ => rfl⟩) rfl rfl (.inl rfl))
  | buildPanicked who rest top =>
    exact dead.bystands stacked (bystands_pop top rfl (fun _ => rfl)
      (.inr ⟨_, rfl, fun _ => rfl, fun _ => rfl⟩) rfl rfl (.inl rfl))
  | finds handle who rest top found => exact dead.find placed top found
  | busy handle who rest top =>
    exact dead.bystands stacked (bystands_pop top rfl (fun _ => rfl)
      (.inr ⟨_, rfl, fun _ => rfl, fun _ => rfl⟩) rfl rfl (.inl rfl))
  | refuses handle who rest top => exact dead.refuse top
  | locks handle who rest top free sound => exact dead.begin stacked top free sound
  | finishes handle who rest top | releases handle who rest top =>
    exact dead.bystands stacked (bystands_pop top rfl (fun _ => rfl)
      (.inr ⟨_, rfl, fun _ => rfl, fun _ => rfl⟩) rfl rfl (.inl rfl))
  -- the call that panicked, up to where it lets the next one in
  | panics handle who rest top => exact dead.panics top
  | removesPinned handle who rest top pinned => exact dead.removePinned top pinned
  | removes handle who rest top => exact dead.removeMigrating stacked top
  | unlocks handle who rest top => exact dead.unlock stacked waiting top
  | payloadPanicked poisons handle who rest top => exact dead.unwind_poisoned waiting top
  | fails who exit rest top =>
    exact dead.bystands stacked (bystands_pop top rfl (fun _ => rfl) (.inl rfl) rfl rfl
      (.inr ⟨who, .inr rfl⟩))
  | freed who rest top =>
    exact dead.bystands stacked (bystands_pop top rfl (fun _ => rfl) (.inl rfl) rfl rfl
      (.inr ⟨who, .inl rfl⟩))
  | misses _ _ _ top | returns _ _ top | unwinds _ _ _ top | freeUnwinds _ _ top =>
    exact dead.bystands stacked (bystands_pop top rfl (fun _ => rfl) (.inl rfl) rfl rfl (.inl rfl))

/-- A call that tries a poisoned lock is refused, busy or not. -/
theorem poisoned_refuses {t : T} {handle : Nat} {who : Who} {rest : List Layer}
    (migrating : who.pinned = false) (poisoned : p.poisoned who = true)
    (top : p.stack t = .found handle who :: rest) : ∃ after, p.step (t, .tryLock) = some after ∧
      (after.stack t = .leaving who .returned :: rest ∨
        after.stack t = .refused handle who :: rest) := by
  simp only [Process.step, top, migrating, poisoned, Bool.not_false, Bool.and_self, if_true]
  cases p.locked who with
  | true => exact ⟨_, rfl, .inl (Function.update_self _ _ _)⟩
  | false => exact ⟨_, rfl, .inr (Function.update_self _ _ _)⟩

/-- A migrating machine that has panicked never runs again, in a run where no panicking call
releases a lock that another is about to try, unless it is poisoned. From the release on no call has
the machine or finds it; and if the call unwound, those that find it and try its lock are
refused. -/
theorem panicked_machines_never_run_again (acts : List (T × Deed)) (p : Process T)
    (ran : Transition.run step new acts = some p)
    (met : Transition.Along step NoneWaiting new acts) :
    Final p.history ∧ (∀ who, who.pinned = false → .unlocked who ∈ p.history →
      (∀ t, ∀ layer ∈ p.stack t, layer.uses who = false) ∧
        ∀ t, p.find t who.handle ≠ .ok who) ∧
      ∀ who, who.pinned = false → .unwound who ∈ p.history → ∀ t handle rest,
        p.stack t = .found handle who :: rest → ∃ after, p.step (t, .tryLock) = some after ∧
          (after.stack t = .leaving who .returned :: rest ∨
            after.stack t = .refused handle who :: rest) := by
  have inv : p.Placed ∧ p.Stacked ∧ p.Dead := by
    refine Transition.run_invariant_along NoneWaiting
      (fun p => p.Placed ∧ p.Stacked ∧ p.Dead) ?_ ⟨placed_new, stacked_new, dead_new⟩ met ran
    rintro p ⟨t, deed⟩ after ⟨placed, stacked, dead⟩ waiting stepped
    exact ⟨placed.step stacked stepped, stacked.step placed stepped,
      dead.step placed stacked waiting stepped⟩
  obtain ⟨placed, stacked, dead⟩ := inv
  refine ⟨dead.final, fun who migrating unlocked => ?_, fun who migrating unwound t handle rest top =>
    poisoned_refuses migrating (dead.unwound who unwound migrating) top⟩
  have out := dead.unlocked who unlocked migrating
  constructor
  · intro t layer member
    by_contra used
    exact out.2 ⟨t, layer, member, by simpa using used⟩
  · intro t found
    obtain ⟨_, _, there | ⟨there, _⟩⟩ := placed.find found
    · exact out.1 there
    · have pinned := (placed.locals t _ who there).2.1
      simp [pinned] at migrating

end

/-! ### Two threads -/

/-- Neither of two threads has found a machine it has not tried, and no payload's destructor panics
without poisoning the lock. -/
def noneFound (p : Process Bool) (act : Bool × Deed) : Bool :=
  act.2 != .payloadPanicked false &&
    (act.2 != .unlock || [false, true].all fun t => (p.stack t).all fun layer =>
      match layer with
      | .found _ _ => false
      | _ => true)

theorem noneWaiting_of_noneFound (p : Process Bool) (act : Bool × Deed)
    (passed : noneFound p act = true) : p.NoneWaiting act := by
  obtain ⟨poisons, passed⟩ := Bool.and_eq_true_iff.mp passed
  constructor
  · rintro unlock handle who rest _ ⟨t, layer, member, tries⟩
    simp only [unlock, bne_self_eq_false, Bool.false_or, List.all_eq_true] at passed
    have fine := passed t (by cases t <;> simp) layer member
    cases layer <;> simp_all [Layer.tries]
  · intro unpoisoned
    simp [unpoisoned] at poisons

/-- A call that tries the lock while it is held is refused, and later ones find nothing. -/
theorem panicked_machines_never_run_again_busy : ∃ p : Process Bool,
    Transition.run step new [(false, .new), (true, .resume 1), (true, .find), (false, .resume 1),
      (false, .find), (false, .tryLock), (false, .panics), (true, .tryLock), (true, .left),
      (false, .remove), (false, .unlock), (false, .left), (true, .resume 1)] = some p ∧
    Final p.history ∧ ∀ t, p.find t 1 ≠ .ok ⟨1, 1, false⟩ := by
  refine ⟨_, rfl, ?_⟩
  have never := panicked_machines_never_run_again [(false, .new), (true, .resume 1), (true, .find),
    (false, .resume 1), (false, .find), (false, .tryLock), (false, .panics), (true, .tryLock),
    (true, .left), (false, .remove), (false, .unlock), (false, .left), (true, .resume 1)] _ rfl
    (Transition.along_of_check noneWaiting_of_noneFound rfl)
  exact ⟨never.1, (never.2.1 ⟨1, 1, false⟩ rfl (by decide)).2⟩

/-- A call that found the machine before it was removed, and tries the lock once it is released,
runs it again. -/
theorem panicked_machine_runs_again : ∃ p : Process Bool,
    Transition.run step new [(false, .new), (true, .resume 1), (true, .find), (false, .resume 1),
      (false, .find), (false, .tryLock), (false, .panics), (false, .remove), (false, .unlock),
      (true, .tryLock)] = some p ∧
    p.history = [.began ⟨1, 1, false⟩, .unlocked ⟨1, 1, false⟩, .panicked ⟨1, 1, false⟩,
      .began ⟨1, 1, false⟩] ∧
    ¬ Final p.history := by
  refine ⟨_, rfl, rfl, fun final => ?_⟩
  exact final.1 ⟨1, 1, false⟩ rfl rfl (by decide)

end Process

end SansEffort
