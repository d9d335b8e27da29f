import SansEffort.Testing.Handing

/-!
# Stalls

A machine that was woken since its last poll is in the queue of those woken, or is to be resumed. A
run returns when nothing is ready and no timer is left; but between the look at the queue and that,
the schedule is asked twice, and a completed machine that it kills is dropped. Whoever that wakes is
not resumed any more.
-/

namespace SansEffort.Testing

variable {G E D : Type}

/-- Whether machine `who` was woken after its last poll began. -/
def wokenSince (log : List (Event E)) (who : Nat) : Bool :=
  log.foldl (fun woken event =>
    match event with
    | .polled m => if m = who then false else woken
    | .woke m => if m = who then true else woken
    | _ => woken) false

@[simp] theorem wokenSince_polled (log : List (Event E)) (m who : Nat) :
    wokenSince (log ++ [.polled m]) who = if m = who then false else wokenSince log who := by
  unfold wokenSince
  rw [List.foldl_append]
  rfl

@[simp] theorem wokenSince_woke (log : List (Event E)) (m who : Nat) :
    wokenSince (log ++ [.woke m]) who = if m = who then true else wokenSince log who := by
  unfold wokenSince
  rw [List.foldl_append]
  rfl

/-- An event that is neither a poll nor a wake. -/
theorem wokenSince_other (log : List (Event E)) {event : Event E} (who : Nat)
    (other : (∀ m, event ≠ .polled m) ∧ ∀ m, event ≠ .woke m) :
    wokenSince (log ++ [event]) who = wokenSince log who := by
  unfold wokenSince
  rw [List.foldl_append]
  cases event with
  | polled m => exact absurd rfl (other.1 m)
  | woke m => exact absurd rfl (other.2 m)
  | yielded | handed | set | fired => rfl

namespace World

/-- Who has been woken is on its way to a resume; machine `but` is left out while a poll of it is
about to begin. -/
structure Told (but : Option Nat) (w : World E D) : Prop where
  wakeups : w.wakeups.length = w.machines.length
  hooks : ∀ (who : Nat) (u : Wakeup Nat), w.wakeups[who]? = some u → u.hook = some who
  heard : ∀ (who : Nat) (u : Wakeup Nat), w.wakeups[who]? = some u → wokenSince w.log who = true →
    u.woken = true
  unborn : ∀ who, w.wakeups.length ≤ who → wokenSince w.log who = false
  told : ∀ (who : Nat) (m : Machine) (u : Wakeup Nat), some who ≠ but → w.machine who = some m →
    m.future = true → w.wakeups[who]? = some u → u.woken = true →
    who ∈ w.woken ∨ .resume who ∈ w.ready

variable {w w' : World E D} {but : Option Nat}

theorem machine_eq (w : World E D) {who : Nat} {m : Machine} :
    w.machine who = some m ↔ w.machines[who]? = some (some m) := by
  unfold machine
  rw [Option.join_eq_some_iff]

/-- The wakes are as they were, and no machine more runs. -/
theorem Told.kept (told : w.Told but) (wakeups : w'.wakeups = w.wakeups)
    (length : w'.machines.length = w.machines.length)
    (machines : ∀ who m, some who ≠ but → w'.machine who = some m → m.future = true →
      ∃ m', w.machine who = some m' ∧ m'.future = true)
    (log : ∀ who, wokenSince w'.log who = wokenSince w.log who)
    (still : ∀ who m, some who ≠ but → w'.machine who = some m → m.future = true →
      who ∈ w.woken ∨ .resume who ∈ w.ready → who ∈ w'.woken ∨ .resume who ∈ w'.ready) :
    w'.Told but := by
  refine ⟨by rw [wakeups, length, told.wakeups], fun who u there => told.hooks who u (wakeups ▸ there),
    fun who u there woken => told.heard who u (wakeups ▸ there) (log who ▸ woken),
    fun who high => (log who).trans (told.unborn who (wakeups ▸ high)),
    fun who m u other there runs found woken => ?_⟩
  obtain ⟨m', before, ran⟩ := machines who m other there runs
  exact still who m other there runs (told.told who m' u other before ran (wakeups ▸ found) woken)

theorem Told.wakeUp (told : w.Told but) (who : Nat) : (w.wakeUp who).Told but := by
  unfold World.wakeUp
  cases found : w.wakeups[who]? with
  | none => exact told
  | some u =>
    have hook := told.hooks who u found
    have low := (List.getElem?_eq_some_iff.mp found).1
    -- the machine's wakes are those of `u`, woken, and the others' are as they were
    have each : ∀ (x : Nat) (u' : Wakeup Nat), (w.wakeups.set who { u with woken := true })[x]? = some u' →
        x = who ∧ u' = { u with woken := true } ∨ x ≠ who ∧ w.wakeups[x]? = some u' := by
      intro x u' there
      rw [List.getElem?_set] at there
      split at there
      · next same => exact .inl ⟨same.symm, (Option.some.inj there).symm⟩
      · next other => exact .inr ⟨Ne.symm other, there⟩
    refine ⟨(List.length_set ..).trans told.wakeups, fun x u' there => ?_, fun x u' there woken => ?_,
      fun x high => ?_, fun x m u' other machine runs there woken => ?_⟩
    · obtain ⟨rfl, rfl⟩ | ⟨_, before⟩ := each x u' there
      · exact hook
      · exact told.hooks x u' before
    · obtain ⟨rfl, rfl⟩ | ⟨away, before⟩ := each x u' there
      · rfl
      · apply told.heard x u' before
        rwa [wokenSince_woke, if_neg (Ne.symm away)] at woken
    · have high : w.wakeups.length ≤ x := (List.length_set ..) ▸ high
      rw [wokenSince_woke, if_neg (by omega)]
      exact told.unborn x high
    · obtain ⟨rfl, rfl⟩ | ⟨_, before⟩ := each x u' there
      · cases already : u.woken with
        | true =>
          refine (told.told x m u other machine runs found already).imp_left fun member => ?_
          exact List.mem_append_left _ member
        | false =>
          -- the first wake since its last poll calls the hook
          refine .inl (List.mem_append_right _ ?_)
          simp [Wakeup.wakeUp, already, hook]
      · refine (told.told x m u' other machine runs before woken).imp_left fun member => ?_
        exact List.mem_append_left _ member

theorem Told.woken (told : w.Told but) (woke : List Nat) : (woke.foldl World.wakeUp w).Told but := by
  induction woke generalizing w with
  | nil => exact told
  | cons who rest ih => exact ih (told.wakeUp who)

theorem Told.adopt (told : w.Told none) (m : Machine) (wakeup : Wakeup Nat) :
    (w.adopt m wakeup).Told none := by
  -- the newcomer's flag may be up already, and then the log says that it was woken
  have log : ∀ x, wokenSince (w.adopt m wakeup).log x =
      if x = w.machines.length then wakeup.woken else wokenSince w.log x := by
    intro x
    unfold World.adopt
    dsimp only
    by_cases new : x = w.machines.length
    · have before := told.unborn x (told.wakeups.trans new.symm).le
      rw [if_pos new]
      cases wakeup.woken with
      | true => exact (wokenSince_woke _ _ _).trans (if_pos new.symm)
      | false => exact before
    · rw [if_neg new]
      cases wakeup.woken with
      | true => exact (wokenSince_woke _ _ _).trans (if_neg (Ne.symm new))
      | false => rfl
  -- the wakeups are those there were and the newcomer's
  have each : ∀ (x : Nat) (u : Wakeup Nat), (w.wakeups ++ [wakeup.setHook w.machines.length])[x]? = some u →
      x = w.machines.length ∧ u = wakeup.setHook w.machines.length ∨
        x < w.machines.length ∧ w.wakeups[x]? = some u := by
    intro x u there
    rw [← told.wakeups] at there ⊢
    rcases Nat.lt_trichotomy x w.wakeups.length with low | same | high
    · rw [List.getElem?_append_left low] at there
      exact .inr ⟨low, there⟩
    · rw [same, List.getElem?_concat_length] at there
      exact .inl ⟨same, (Option.some.inj there).symm⟩
    · rw [List.getElem?_eq_none_iff.mpr (by simp; omega)] at there
      cases there
  constructor
  -- as many wakeups as machines
  case wakeups =>
    show (_ ++ [_]).length = (_ ++ [_]).length
    rw [List.length_append, List.length_append, told.wakeups]
    rfl
  -- each is hooked to its own machine
  case hooks =>
    intro x u there
    obtain ⟨rfl, rfl⟩ | ⟨_, before⟩ := each x u there
    · rfl
    · exact told.hooks x u before
  -- a flag is up for a wake that the log has
  case heard =>
    intro x u there woken
    rw [log] at woken
    obtain ⟨rfl, rfl⟩ | ⟨low, before⟩ := each x u there
    · rwa [if_pos rfl] at woken
    · rw [if_neg (by omega)] at woken
      exact told.heard x u before woken
  -- nothing is logged of machines to come
  case unborn =>
    intro x high
    have high : (w.wakeups ++ [wakeup.setHook w.machines.length]).length ≤ x := high
    rw [List.length_append, List.length_singleton, told.wakeups] at high
    rw [log, if_neg (by omega)]
    exact told.unborn x (by rw [told.wakeups]; omega)
  -- who was woken and not polled since is on its way to a resume: the newcomer joins the queue
  case told =>
    intro x m' u _ machine runs there woken
    obtain ⟨rfl, rfl⟩ | ⟨low, before⟩ := each x u there
    · exact .inr (List.mem_append_right _ (List.mem_singleton_self _))
    · have machine : (w.machines ++ [some m])[x]? = some (some m') := (machine_eq _).mp machine
      rw [List.getElem?_append_left low] at machine
      refine (told.told x m' u (by simp) ((machine_eq w).mpr machine) runs before woken).imp_right ?_
      exact fun member => List.mem_append_left _ member

/-- A machine is about to be polled: what it was told before is of no account any more. -/
theorem Told.except (told : w.Told none) (who : Nat) : w.Told (some who) :=
  ⟨told.wakeups, told.hooks, told.heard, told.unborn, fun x m u _ => told.told x m u (by simp)⟩

/-- What a modification of one machine's wakes leaves. -/
theorem of_modify {wakeups : List (Wakeup Nat)} {who x : Nat} {f : Wakeup Nat → Wakeup Nat}
    {u : Wakeup Nat} (there : (wakeups.modify who f)[x]? = some u) :
    ∃ u', wakeups[x]? = some u' ∧ u = if x = who then f u' else u' := by
  rw [List.getElem?_modify] at there
  obtain ⟨u', found, rfl⟩ := Option.map_eq_some_iff.mp there
  refine ⟨u', found, ?_⟩
  by_cases same : who = x
  · rw [if_pos same, if_pos same.symm]
  · rw [if_neg same, if_neg (Ne.symm same)]

/-- The machine is held woken, without telling. -/
theorem Told.hold (told : w.Told but) (who : Nat)
    (unheard : but = some who ∨ ∀ m, w.machine who = some m → m.future = false) :
    (w.hold who).Told but := by
  refine ⟨(List.length_modify ..).trans told.wakeups, fun x u there => ?_, fun x u there woken => ?_,
    fun x high => told.unborn x ((List.length_modify ..) ▸ high),
    fun x m u other machine runs there woken => ?_⟩
  all_goals obtain ⟨u', before, same⟩ := of_modify there
  · rw [same]
    split <;> exact told.hooks x u' before
  · rw [same]
    split
    · rfl
    · exact told.heard x u' before woken
  · by_cases its : x = who
    · subst its
      rcases unheard with same | stopped
      · exact absurd same.symm other
      · cases runs.symm.trans (stopped m machine)
    · rw [if_neg its] at same
      rw [same] at woken
      exact told.told x m u' other machine runs before woken

/-- A poll begins, and from now on a wake of the machine is news. -/
theorem Told.clear (told : w.Told but) (who : Nat) (only : but = none ∨ but = some who) :
    (w.clear who).Told none := by
  -- the flag of `who` goes down, and the log has its poll: both forget the wakes before
  refine ⟨(List.length_modify ..).trans told.wakeups, fun x u there => ?_, fun x u there woken => ?_,
    fun x high => ?_, fun x m u _ machine runs there woken => ?_⟩
  · obtain ⟨u', before, same⟩ := of_modify there
    rw [same]
    split <;> exact told.hooks x u' before
  · obtain ⟨u', before, same⟩ := of_modify there
    have woken : wokenSince (w.log ++ [.polled who]) x = true := woken
    rw [wokenSince_polled] at woken
    by_cases its : who = x
    · rw [if_pos its] at woken
      cases woken
    · rw [if_neg its] at woken
      rw [same, if_neg (Ne.symm its)]
      exact told.heard x u' before woken
  · show wokenSince (w.log ++ [.polled who]) x = false
    rw [wokenSince_polled]
    split
    · rfl
    · exact told.unborn x ((List.length_modify ..) ▸ high)
  · obtain ⟨u', before, same⟩ := of_modify there
    by_cases its : x = who
    · rw [same, if_pos its] at woken
      cases woken
    · rw [same, if_neg its] at woken
      -- only `who` could be the one that is not accounted for, and it is not `x`
      refine told.told x m u' ?_ machine runs before woken
      rcases only with rfl | rfl
      · simp
      · exact fun same => its (Option.some.inj same)

/-- A machine that runs is polled. -/
theorem Told.ran (told : w.Told but) (who : Nat) (only : but = none ∨ but = some who) {m : Machine}
    (there : w.machine who = some m) (runs : m.future = true) (woke : List Nat) (poll : Poll)
    (step : Yield E) (outstanding : Nat) : (w.ran who woke poll step outstanding).Told none := by
  have before := (told.clear who only).woken woke
  have machines : (woke.foldl World.wakeUp (w.clear who)).machines = w.machines :=
    (foldl_wakeUp_same _ _).1
  refine before.kept rfl (List.length_set ..) (fun x m' _ found ran => ?_)
    (fun x => wokenSince_other _ x ⟨by simp, by simp⟩) (fun x m' _ _ _ => ?_)
  · have found : ((woke.foldl World.wakeUp (w.clear who)).machines.set who
        (some (.polled poll outstanding)))[x]? = some (some m') := (machine_eq _).mp found
    rw [foldl_wakeUp_machine]
    rw [machines, List.getElem?_set] at found
    by_cases same : who = x
    · exact ⟨m, same ▸ there, runs⟩
    · rw [if_neg same] at found
      exact ⟨m', (machine_eq w).mpr found, ran⟩
  · exact fun on => on.imp_right fun member => List.mem_append_left _ member

/-- Removing one action leaves the others. -/
theorem mem_eraseIdx {ready : List (Action E D)} {pick : Nat} {action other : Action E D}
    (picked : ready[pick]? = some action) (differs : other ≠ action) (member : other ∈ ready) :
    other ∈ ready.eraseIdx pick := by
  rw [eq_take_append picked] at member
  rw [List.eraseIdx_eq_take_drop_succ]
  rcases List.mem_append.mp member with early | late
  · exact List.mem_append_left _ early
  · exact List.mem_append_right _ ((List.mem_cons.mp late).resolve_left differs)

/-- An action is removed that is no resume of a machine that runs. -/
theorem Told.erase (told : w.Told but) {pick : Nat} {action : Action E D}
    (picked : w.ready[pick]? = some action)
    (other : ∀ who m, some who ≠ but → w.machine who = some m → m.future = true →
      .resume who ≠ action) (log : ∀ who, wokenSince w'.log who = wokenSince w.log who)
    (same : w' = { w with ready := w.ready.eraseIdx pick, log := w'.log }) : w'.Told but := by
  have machines : w'.machines = w.machines := by rw [same]
  have machine : ∀ who, w'.machine who = w.machine who := by
    intro who
    unfold World.machine
    rw [machines]
  refine told.kept (by rw [same]) (by rw [machines]) (fun who m _ there runs => ?_) log
    (fun who m away there runs => ?_)
  · exact ⟨m, (machine who) ▸ there, runs⟩
  · rw [same]
    exact fun on => on.imp_right (mem_eraseIdx picked (other who m away (machine who ▸ there) runs))

theorem Told.move (told : w.Told none) (move : w.Move w') : w'.Told none := by
  cases move with
  | woke who => exact told.wakeUp who
  | drained =>
    -- from the queue of the woken to what is ready
    obtain ⟨added, taken, resumed⟩ := takeWoken_spec w
    refine told.kept (by rw [taken]) (by rw [taken]) (fun who m _ there runs => ⟨m, ?_, runs⟩)
      (fun who => by rw [taken]) (fun who m _ _ _ on => .inr ?_)
    · rw [taken] at there
      exact there
    · rcases on with woken | ready
      · exact resumed who woken
      · rw [taken]
        exact List.mem_append_left _ ready
  | freed who m _ =>
    refine told.kept rfl (List.length_set ..) (fun x m' _ there runs => ⟨m', ?_, runs⟩)
      (fun _ => rfl) (fun _ _ _ _ _ => id)
    have there : (w.machines.set who none)[x]? = some (some m') := (machine_eq _).mp there
    rw [List.getElem?_set] at there
    split at there
    · split at there <;> cases there
    · exact (machine_eq w).mpr there
  | polled w₀ who m woke woke' poll step outstanding there runs either =>
    rcases either with rfl | rfl
    · exact told.ran who (.inl rfl) there runs woke poll step outstanding
    · have held := ((told.except who).hold who (.inl rfl)).woken woke'
      exact held.ran who (.inr rfl) ((foldl_wakeUp_machine _ woke' who).trans there) runs woke poll
        -- held while it is polled: what the poll wakes is accounted for, all but `who` itself
        step outstanding
  | unheard who m woke there stopped =>
    refine (told.hold who (.inr fun m' found => ?_)).woken woke
    obtain rfl := Option.some.inj (there.symm.trans found)
    exact stopped
  | handed pick who effect _ picked =>
    exact told.erase picked (by simp) (fun x => wokenSince_other _ x ⟨by simp, by simp⟩) rfl
  | replied pick who deliver picked => exact told.erase picked (by simp) (fun _ => rfl) rfl
  | resumed pick who m woke poll step outstanding picked there runs =>
    -- a resume is taken off the queue and its machine polled at once
    have erased : ({ w with ready := w.ready.eraseIdx pick } : World E D).Told (some who) :=
      (told.except who).erase picked (fun x _ away _ _ same => away (by
        rw [(Action.resume.inj same)])) (fun _ => rfl) rfl
    exact erased.ran who (.inr rfl) there runs woke poll step outstanding
  | ignored pick who picked stopped =>
    refine told.erase picked (fun x m _ there runs same => ?_) (fun _ => rfl) rfl
    rw [Action.resume.inj same] at there
    cases runs.symm.trans (stopped m there)
  | acted who a =>
    -- what is ready only grows
    have grown : ∀ {action : Action E D} {x : Nat}, x ∈ w.woken ∨ .resume x ∈ w.ready →
        x ∈ w.woken ∨ .resume x ∈ w.ready ++ [action] :=
      fun on => on.imp_right fun member => List.mem_append_left _ member
    cases a with
    | reply deliver =>
      exact told.kept rfl rfl (fun x m _ there runs => ⟨m, there, runs⟩) (fun _ => rfl)
        fun _ _ _ _ _ => grown
    | replyAfter delay deliver =>
      exact told.kept rfl rfl (fun x m _ there runs => ⟨m, there, runs⟩)
        (fun x => wokenSince_other _ x ⟨by simp, by simp⟩) fun _ _ _ _ _ => id
    | spawn => exact told.adopt _ _
    | spawnPinned => exact told.adopt _ _
    | wake other => exact told.wakeUp other
  | fired _ _ fired =>
    obtain ⟨next, timer, _, rfl⟩ := fireNextTimer_spec fired
    exact told.kept rfl rfl (fun x m _ there runs => ⟨m, there, runs⟩)
      (fun x => wokenSince_other _ x ⟨by simp, by simp⟩)
      fun _ _ _ _ _ on => on.imp_right fun member => List.mem_append_left _ member

theorem told_start (root : Machine) (wakeup : Wakeup Nat) :
    (World.adopt (⟨[], [], [], 0, [], [], 0, []⟩ : World E D) root wakeup).Told none :=
  Told.adopt ⟨rfl, by simp, by simp, fun _ _ => rfl, by simp⟩ root wakeup

/-- A wake adds no one else to the queue. -/
theorem Told.mem_woken (told : w.Told but) (woke : List Nat) {x : Nat}
    (member : x ∈ (woke.foldl World.wakeUp w).woken) : x ∈ w.woken ∨ x ∈ woke := by
  induction woke generalizing w with
  | nil => exact .inl member
  | cons who rest ih =>
    rcases ih (told.wakeUp who) member with before | later
    · unfold World.wakeUp at before
      split at before
      · exact .inl before
      · next u found =>
        rcases List.mem_append.mp before with before | hooked
        · exact .inl before
        · -- the hook that is called tells of the machine itself
          have hooked : x ∈ (if u.woken then none else u.hook : Option Nat).toList := hooked
          rw [told.hooks who u found] at hooked
          split at hooked
          · cases hooked
          · exact .inr (List.mem_cons.mpr (.inl (by simpa using hooked)))
    · exact .inr (List.mem_cons_of_mem _ later)

end World

/-! ### The iteration that returns -/

/-- The machine that the schedule names to be killed. -/
def Code.victim (code : Code G E D) (s : State G E D) : Option Nat :=
  (code.kill s.world.machines.length s.shared).2.2

/-- What is left of the code's state once the schedule was asked whom to kill, and the machine it
named was dropped with its timers; and whom that woke. -/
def Code.killed (code : Code G E D) (s : State G E D) : G × List Nat :=
  let (shared, woke, victim) := code.kill s.world.machines.length s.shared
  match victim with
  | none => (shared, woke)
  | some who =>
    match s.world.machine who with
    | none => (shared, woke)
    | some _ =>
      let dropped := (s.world.timers.filter (·.who = who)).map Timer.deliver
      let (shared, woke', _) := code.free who dropped shared
      (shared, woke ++ woke')

/-- The iteration has nothing to do: nothing is ready, no one has woken, the machine that the
schedule kills had completed and only its timers are left, and the schedule resumes no machine that
is left. -/
structure Idles (code : Code G E D) (s : State G E D) : Prop where
  ready : s.world.ready = []
  woken : s.world.woken = []
  victim : ∀ who m, code.victim s = some who → s.world.machine who = some m → m.status = .complete
  timers : ∀ timer ∈ s.world.timers, code.victim s = some timer.who ∧
    (s.world.machine timer.who).isSome
  stutter : ∀ who m, (code.stutter s.world.machines.length (code.killed s).1).2.2 = some who →
    s.world.machine who = some m → code.victim s = some who

/-- If the iteration has nothing to do, the schedule, and the completed machine it kills, wake no
machine that is still running. -/
def Undisturbed (code : Code G E D) (s : State G E D) : Prop :=
  Idles code s → ∀ who, who ∈ (code.killed s).2 ∨
      who ∈ (code.stutter s.world.machines.length (code.killed s).1).2.1 →
    ∀ m, s.world.machine who = some m → m.status = .complete

/-- A world without the machine that the schedule names, if that is there, and without its
timers. -/
def Code.without (code : Code G E D) (s : State G E D) (w : World E D) : World E D :=
  match code.victim s with
  | none => w
  | some who =>
    match s.world.machine who with
    | none => w
    | some _ => { w with
        machines := w.machines.set who none, timers := w.timers.filter (·.who ≠ who) }

/-- Waking goes by the wakes alone. -/
theorem World.foldl_wakeUp_aside (w : World E D) (machines : List (Option Machine))
    (timers : List (Timer D)) (woke : List Nat) :
    woke.foldl World.wakeUp { w with machines, timers } =
      { woke.foldl World.wakeUp w with machines, timers } := by
  induction woke generalizing w with
  | nil => rfl
  | cons who rest ih =>
    have first : ({ w with machines, timers } : World E D).wakeUp who =
        { w.wakeUp who with machines, timers } := by
      unfold World.wakeUp
      dsimp only
      split <;> rfl
    rw [List.foldl_cons, List.foldl_cons, first]
    exact ih (w.wakeUp who)

/-- The iteration goes on unless the machine that the schedule names was running. -/
theorem complete_of_killing {code : Code G E D} {s s' : State G E D}
    (went : s.killing code = (s', false)) :
    ∀ who m, code.victim s = some who → s.world.machine who = some m → m.status = .complete := by
  intro who m named there
  have machine := State.call_machine s (code.kill s.world.machines.length) who
  have same : (s.call (code.kill s.world.machines.length)).2 = code.victim s := rfl
  unfold State.killing at went
  generalize s.call (code.kill s.world.machines.length) = after at went machine same
  obtain ⟨s₁, victim⟩ := after
  obtain rfl : victim = some who := same.trans named
  dsimp only [State.kill] at went
  rw [machine, there] at went
  dsimp only at went
  split at went
  · cases (Prod.mk.inj went).2
  · next ended =>
    simpa using (Prod.mk.inj ended).2

/-- What the look at whom to kill leaves, if the iteration goes on. -/
theorem killing_eq {code : Code G E D} {s : State G E D}
    (complete : ∀ who m, code.victim s = some who → s.world.machine who = some m →
      m.status = .complete) :
    s.killing code = ({ s with
      shared := (code.killed s).1,
      world := code.without s ((code.killed s).2.foldl World.wakeUp s.world) }, false) := by
  -- what the schedule says: its state, whom it wakes, and a victim perhaps
  obtain ⟨g, woke, victim, said⟩ : ∃ g woke victim,
      code.kill s.world.machines.length s.shared = (g, woke, victim) := ⟨_, _, _, rfl⟩
  have called : s.call (code.kill s.world.machines.length) =
      ({ s with shared := g, world := woke.foldl World.wakeUp s.world }, victim) := by
    unfold State.call
    rw [said]
  have named : code.victim s = victim := congrArg (·.2.2) said
  -- waking moves no machine and no timer
  have machines := fun (w : World E D) woke => (World.foldl_wakeUp_same w woke).1
  have timers := fun (w : World E D) woke => (World.foldl_wakeUp_same w woke).2.2
  unfold State.killing Code.without Code.killed
  rw [called, said, named]
  cases victim with
  | none => rfl
  | some who =>
    dsimp only
    unfold State.kill
    dsimp only
    rw [World.foldl_wakeUp_machine]
    cases there : s.world.machine who with
    | none => rfl
    | some m =>
      -- a victim that is complete is dropped, and the iteration goes on
      have ended : decide (m.status ≠ .complete) = false := by simp [complete who m named there]
      simp only [State.call, World.foldl_wakeUp_aside, List.foldl_append, timers, machines, ended]

/-- What the look at whom to kill leaves, if the iteration goes on. -/
structure Spared (code : Code G E D) (s s' : State G E D) : Prop where
  shared : s'.shared = (code.killed s).1
  ready : s'.world.ready = s.world.ready
  told : s'.world.Told none
  woken : ∀ who ∈ s'.world.woken, who ∈ s.world.woken ∨ who ∈ (code.killed s).2
  length : s'.world.machines.length = s.world.machines.length
  machines : ∀ who m, s'.world.machine who = some m → s.world.machine who = some m
  others : ∀ who m, s.world.machine who = some m →
    s'.world.machine who = some m ∨ code.victim s = some who
  timers : ∀ timer ∈ s.world.timers, timer ∈ s'.world.timers ∨
    code.victim s = some timer.who ∧ (s.world.machine timer.who).isSome
  victim : ∀ who m, code.victim s = some who → s.world.machine who = some m → m.status = .complete

section

variable {code : Code G E D} {s : State G E D} {w : World E D}

/-- Nothing but the machine and its timers is missing. -/
theorem without_same (code : Code G E D) (s : State G E D) (w : World E D) :
    ∃ machines timers, machines.length = w.machines.length ∧
      code.without s w = { w with machines, timers } := by
  unfold Code.without
  split
  · exact ⟨w.machines, w.timers, rfl, rfl⟩
  · split
    · exact ⟨w.machines, w.timers, rfl, rfl⟩
    · exact ⟨_, _, List.length_set .., rfl⟩

theorem without_machine (same : w.machines = s.world.machines) (who : Nat) :
    (code.without s w).machine who =
      if code.victim s = some who then none else s.world.machine who := by
  have plain : w.machine who = s.world.machine who := by
    unfold World.machine
    rw [same]
  unfold Code.without
  cases named : code.victim s with
  | none => simpa using plain
  | some victim =>
    dsimp only
    cases there : s.world.machine victim with
    | none =>
      dsimp only
      split
      · next its => rw [plain, ← Option.some.inj its, there]
      · exact plain
    | some m =>
      -- the victim is there: its slot is empty from now on
      have low := (List.getElem?_eq_some_iff.mp ((World.machine_eq _).mp there)).1
      show ((w.machines.set victim none)[who]?).join = _
      rw [same, List.getElem?_set]
      by_cases its : victim = who
      · subst its
        simp [low]
      · rw [if_neg its, if_neg (by simpa using its)]
        rfl

theorem mem_without_timers (timer : Timer D) :
    timer ∈ (code.without s w).timers ↔ timer ∈ w.timers ∧
      ¬ (code.victim s = some timer.who ∧ (s.world.machine timer.who).isSome) := by
  unfold Code.without
  cases named : code.victim s with
  | none => simp
  | some victim =>
    dsimp only
    cases there : s.world.machine victim with
    | none =>
      refine (and_iff_left ?_).symm
      rintro ⟨its, found⟩
      rw [← Option.some.inj its, there] at found
      cases found
    | some m =>
      have own : timer.who = victim → (s.world.machine timer.who).isSome := by
        rintro rfl
        rw [there]
        rfl
      simp only [List.mem_filter, Option.some.injEq, decide_eq_true_eq, eq_comm (a := victim)]
      exact and_congr_right fun _ => not_congr (iff_self_and.mpr own)

theorem without_told (told : w.Told none) (same : w.machines = s.world.machines) :
    (code.without s w).Told none := by
  unfold Code.without
  split
  · exact told
  · next who _ =>
    split
    · exact told
    · next m there =>
      refine told.move (.freed w who m ?_)
      unfold World.machine
      rw [same]
      exact there

theorem spared_of_killing {s' : State G E D} (told : s.world.Told none)
    (went : s.killing code = (s', false)) : Spared code s s' := by
  -- the iteration goes on, so whoever is named and still there is complete
  have complete := complete_of_killing went
  rw [killing_eq complete] at went
  obtain rfl := (Prod.mk.inj went).1
  obtain ⟨machines, ready, timers⟩ := World.foldl_wakeUp_same s.world (code.killed s).2
  obtain ⟨left, still, length, same⟩ := without_same code s ((code.killed s).2.foldl World.wakeUp s.world)
  have machine : ∀ who, (code.without s _).machine who =
      if code.victim s = some who then none else s.world.machine who := without_machine machines
  constructor
  case shared => exact rfl
  case ready =>
    dsimp only
    rw [same]
    exact ready
  case told => exact without_told (told.woken _) machines
  -- whom it wakes, by the flags and hooks
  case woken =>
    intro who member
    dsimp only at member
    rw [same] at member
    exact told.mem_woken _ member
  case length =>
    dsimp only
    rw [same]
    exact length.trans (congrArg List.length machines)
  case machines =>
    intro who m there
    dsimp only at there
    rw [machine] at there
    split at there
    · cases there
    · exact there
  case others =>
    intro who m there
    dsimp only
    rw [machine]
    split
    · next named => exact .inr named
    · exact .inl there
  -- a timer goes only with the victim, and only if the victim was still there
  case timers =>
    intro timer member
    by_cases its : code.victim s = some timer.who ∧ (s.world.machine timer.who).isSome
    · exact .inr its
    · exact .inl ((mem_without_timers timer).mpr ⟨timers.symm ▸ member, its⟩)
  case victim => exact complete

end

/-- The schedule resumes no machine: all it does is to wake some. -/
theorem still_of_stuttering {code : Code G E D} {s s' : State G E D}
    (went : s.stuttering code = (s', false)) :
    s'.world = (code.stutter s.world.machines.length s.shared).2.1.foldl World.wakeUp s.world ∧
      ∀ who, (code.stutter s.world.machines.length s.shared).2.2 = some who →
        s.world.machine who = none := by
  have world := State.call_world s (code.stutter s.world.machines.length)
  have named : (s.call (code.stutter s.world.machines.length)).2 =
      (code.stutter s.world.machines.length s.shared).2.2 := rfl
  unfold State.stuttering at went
  rw [← named]
  generalize s.call (code.stutter s.world.machines.length) = after at went world
  obtain ⟨s₁, victim⟩ := after
  cases victim with
  | none =>
    obtain rfl := (Prod.mk.inj went).1
    exact ⟨world, by simp⟩
  | some who =>
    dsimp only at went
    split at went
    · next gone =>
      obtain rfl := (Prod.mk.inj went).1
      -- it goes on only if whom the schedule names is gone
      refine ⟨world, fun x same => ?_⟩
      rw [← Option.some.inj same, ← gone, world]
      exact (World.foldl_wakeUp_machine _ _ who).symm
    · cases (Prod.mk.inj went).2

/-- The queue was empty if nothing is ready once those in it are to be resumed. -/
theorem drained_of_nothing {w : World E D} (nothing : w.takeWoken.ready = []) :
    w.ready = [] ∧ w.woken = [] ∧ w.takeWoken = w := by
  obtain ⟨added, taken, resumed⟩ := World.takeWoken_spec w
  have empty : w.woken = [] := by
    rw [List.eq_nil_iff_forall_not_mem]
    intro who member
    have member := resumed who member
    rw [nothing] at member
    cases member
  rw [taken] at nothing
  obtain ⟨ready, unadded⟩ := List.append_eq_nil_iff.mp nothing
  refine ⟨ready, empty, ?_⟩
  rw [taken, unadded, List.append_nil, ← empty]

/-- An iteration that goes on past the schedule, and then finds nothing ready. -/
theorem spared_of_nothing {code : Code G E D} {s s' s'' : State G E D} (told : s.world.Told none)
    (killed : State.killing code { s with world := s.world.takeWoken } = (s', false))
    (stuttered : s'.stuttering code = (s'', false)) (ready : s''.world.ready = []) :
    s.world.ready = [] ∧ s.world.woken = [] ∧ s.killing code = (s', false) ∧ Spared code s s' ∧
      (∀ who m, (code.stutter s.world.machines.length (code.killed s).1).2.2 = some who →
        s.world.machine who = some m → code.victim s = some who) ∧
      s''.world = (code.stutter s.world.machines.length (code.killed s).1).2.1.foldl World.wakeUp
        s'.world := by
  have spared := spared_of_killing (told.move (.drained s.world)) killed
  obtain ⟨world, gone⟩ := still_of_stuttering stuttered
  have ready' : s'.world.ready = [] := by
    rw [← (World.foldl_wakeUp_same s'.world _).2.1, ← world]
    exact ready
  obtain ⟨nothing, unwoken, drained⟩ := drained_of_nothing (spared.ready.symm.trans ready')
  rw [drained] at killed spared
  rw [spared.shared, spared.length] at world gone
  refine ⟨nothing, unwoken, killed, spared, fun who m named there => ?_, world⟩
  refine (spared.others who m there).resolve_left fun left => ?_
  cases left.symm.trans (gone who named)

/-- If the iteration that returns was not disturbed, no machine that is still running was woken
since its last poll. -/
theorem quiet_of_turn {code : Code G E D} {s : State G E D} (told : s.world.Told none)
    (going : s.result = none) (undisturbed : Undisturbed code s)
    (returned : (s.turn code).result.isSome) :
    ∀ who m, (s.turn code).world.machine who = some m → m.status ≠ .complete →
      wokenSince (s.turn code).world.log who = false := by
  obtain none | ⟨s', s'', killed, stuttered, ready, unfired, same⟩ := State.turn_result code s going
  · rw [none] at returned
    cases returned
  obtain ⟨nothing, unwoken, _, spared, stutter, world⟩ :=
    spared_of_nothing told killed stuttered ready
  have timers : s'.world.timers = [] := by
    rw [← (World.foldl_wakeUp_same s'.world _).2.2, ← world]
    exact World.timers_of_unfired unfired
  have idles : Idles code s := by
    refine ⟨nothing, unwoken, spared.victim, fun timer member => ?_, stutter⟩
    refine (spared.timers timer member).resolve_left fun left => ?_
    rw [timers] at left
    cases left
  intro who m there running
  rw [same] at there ⊢
  have told' : s''.world.Told none := by
    rw [world]
    exact spared.told.woken _
  have there' : s.world.machine who = some m := by
    apply spared.machines who m
    rw [← World.foldl_wakeUp_machine s'.world _ who, ← world]
    exact there
  have runs : m.future = true := by
    have := m.complete_iff.not.mp running
    simpa using this
  -- were it woken, it would be in the queue, as nothing is ready
  by_contra woken
  rw [Bool.not_eq_false] at woken
  obtain ⟨low, _⟩ := List.getElem?_eq_some_iff.mp ((World.machine_eq _).mp there)
  have found := List.getElem?_eq_getElem (lt_of_lt_of_eq low told'.wakeups.symm)
  have queued : who ∈ s''.world.woken := by
    refine (told'.told who m _ (by simp) there runs found (told'.heard who _ found woken)).resolve_right ?_
    rw [ready]
    exact List.not_mem_nil
  rw [world] at queued
  -- and who is in the queue was woken by the schedule, or by what it dropped
  have disturbed : who ∈ (code.killed s).2 ∨
      who ∈ (code.stutter s.world.machines.length (code.killed s).1).2.1 := by
    refine (spared.told.mem_woken _ queued).imp_left fun before => ?_
    refine (spared.woken who before).resolve_left ?_
    rw [unwoken]
    exact List.not_mem_nil
  exact running (undisturbed idles who disturbed m there')

theorem mem_stuck {w : World E D} {who : Nat} :
    who ∈ w.stuck ↔ ∃ m, w.machine who = some m ∧ m.status ≠ .complete := by
  unfold World.stuck
  rw [List.mem_filter, List.mem_range, Option.any_eq_true]
  constructor
  · rintro ⟨_, m, there, running⟩
    exact ⟨m, there, by simpa using running⟩
  · rintro ⟨m, there, running⟩
    exact ⟨(List.getElem?_eq_some_iff.mp ((World.machine_eq w).mp there)).1, m, there, by simpa using running⟩

/-- A machine still running that was woken since its last poll is on its way to a resume; what is
picked is there; and a run that returns has done all there was to do, and names the machines still
running. If no iteration that has nothing to do is disturbed, none of these was woken since its last
poll. -/
theorem verdict_loses_no_wake (code : Code G E D) (shared : G) (root : Machine)
    (wakeup : Wakeup Nat) (actions : List Unit) (s : State G E D)
    (ran : Transition.run (State.step code) (State.start shared root wakeup) actions = some s) :
    (∀ who m, s.world.machine who = some m → m.status ≠ .complete →
      wokenSince s.world.log who = true → who ∈ s.world.woken ∨ .resume who ∈ s.world.ready) ∧
    (s.result.isSome → s.world.ready = [] ∧ s.world.timers = [] ∧
      (s.result = some (.stalled s.world.stuck) ∨
        s.result = some (.completed s.killed) ∧ s.world.stuck = []) ∧
      ∀ who, who ∈ s.world.stuck ↔ ∃ m, s.world.machine who = some m ∧ m.status ≠ .complete) ∧
    (Transition.Along (State.step code) (fun s _ => Undisturbed code s)
        (State.start shared root wakeup) actions →
      s.result.isSome → ∀ who m, s.world.machine who = some m →
        m.status = .complete ∨ wokenSince s.world.log who = false) := by
  have told := kept_by_run (fun w => w.Told none) (fun _ _ => World.Told.move)
    (World.told_start root wakeup) ran
  refine ⟨fun who m there running woken => ?_, fun returned => ?_, fun met => ?_⟩
  -- its flag is up as the log says, and so it is on its way
  · obtain ⟨low, _⟩ := List.getElem?_eq_some_iff.mp ((World.machine_eq _).mp there)
    have found := List.getElem?_eq_getElem (lt_of_lt_of_eq low told.wakeups.symm)
    have runs : m.future = true := by
      have := m.complete_iff.not.mp running
      simpa using this
    exact told.told who m _ (by simp) there runs found (told.heard who _ found woken)
  · obtain ⟨ready, timers, result⟩ := State.ended_run ran returned
    -- `run` breaks only once it has handed out and fired everything
    refine ⟨ready, timers, ?_, fun _ => mem_stuck⟩
    rw [result]
    unfold State.finished
    dsimp only
    split
    · next empty => exact .inr ⟨rfl, List.isEmpty_iff.mp empty⟩
    · exact .inl rfl
  -- along the run, and at its last iteration: no other has a result
  · have quiet := Transition.run_invariant_along (fun s _ => Undisturbed code s)
      (fun s : State G E D => s.world.Told none ∧ (s.result.isSome → ∀ who m,
        s.world.machine who = some m → m.status ≠ .complete → wokenSince s.world.log who = false))
      (fun s _ next held undisturbed stepped => ?_)
      ⟨World.told_start root wakeup, by simp [State.start]⟩ met ran
    · exact fun returned who m there => or_iff_not_imp_left.mpr (quiet.2 returned who m there)
    · unfold State.step at stepped
      split at stepped
      · cases stepped
      · next going =>
        obtain rfl := Option.some.inj stepped
        have going : s.result = none := by simpa using going
        exact ⟨kept_by_turn _ (fun _ _ => World.Told.move) held.1,
          quiet_of_turn held.1 going undisturbed⟩

/-- A root whose one ask is abandoned, and answered late with what keeps a channel open; and a child
that waits for that channel to be closed. The schedule may kill the root once the child waits. -/
def heirs (kills : Bool) : Code Nat Unit Unit where
  poll who g := if who = 0 then (g, [], .ready, ⟨[()], []⟩, 0) else (1, [], .pending, ⟨[], []⟩, 0)
  deliver _ _ g := (g, [], .gone)
  wake _ _ g := (g, [], ())
  discard _ g := (g, [], ())
  free _ replies g := (g, if replies.isEmpty then [] else [1], ())
  handle _ _ _ g := (g, [.spawn, .replyAfter 1000000000 ()])
  next _ g := (g, [], 0)
  stutter _ g := (g, [], none)
  kill _ g := if kills && g = 1 then (2, [], some 0) else (g, [], none)

theorem undisturbed_of_spares (s : State Nat Unit Unit) : Undisturbed (heirs false) s := by
  intro _ who woken
  rcases woken with woken | woken <;> cases woken

theorem verdict_loses_no_wake_spared :
    ∃ s, Transition.run (State.step (heirs false)) (State.start 0 .new .new)
        [(), (), (), (), ()] = some s ∧
      s.result = some (.stalled [1]) ∧ wokenSince s.world.log 1 = false := by
  refine ⟨_, rfl, rfl, ?_⟩
  have kept := (verdict_loses_no_wake (heirs false) 0 .new .new [(), (), (), (), ()] _ rfl).2.2
    (Transition.along_of_all (fun s _ => undisturbed_of_spares s) _ _) rfl
  exact (kept 1 (.polled .pending 0) rfl).resolve_left (by decide)

/-- The completed root is killed, with the timer that would have answered it. The child that this
wakes is said never to progress. -/
theorem stalled_by_a_late_kill :
    ∃ s, Transition.run (State.step (heirs true)) (State.start 0 .new .new)
        [(), (), (), ()] = some s ∧
      s.result = some (.stalled [1]) ∧ wokenSince s.world.log 1 = true ∧ s.world.woken = [1] ∧
      s.world.machine 1 = some (.polled .pending 0) :=
  ⟨_, rfl, rfl, rfl, rfl, rfl⟩

end SansEffort.Testing
