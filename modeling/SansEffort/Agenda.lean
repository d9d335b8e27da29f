import SansEffort.Alone

/-!
# What the host has to do

The queue and the timers of the Python host as an agenda: the children it is to begin, the machines
it has been told are woken, and the requests that wait for a reply. What it takes off the queue, and
what a call puts there, whatever the order that a seed gives them.
-/

namespace SansEffort.Python

open Boundary

/-! ### Items -/

namespace Item

/-- The child that an item tells the host to begin. -/
def child : Item → Option Nat
  | .effect (.of (.spawned handle)) => some handle
  | .effect (.of (.spawnedPinned handle)) => some handle
  | _ => none

/-- The machine that an item says was woken. -/
def woken : Item → Option Nat
  | .effect (.woke handle) => some handle
  | _ => none

/-- How much the host has to do with an item: a request becomes a reply or a timer first. -/
def weight : Item → Nat
  | .effect (.of (.spawned _)) | .effect (.of (.spawnedPinned _)) | .effect (.woke _) => 1
  | .effect (.of (.writeLine _)) | .effect (.closed _) => 1
  | .effect (.of _) => 3
  | .reply _ _ => 2

end Item

@[simp] theorem Item.id_request (request : Boundary.Request) (id : Nat) :
    (Item.effect (.of (request.view id))).id = some id := by
  cases request <;> rfl

@[simp] theorem Item.number_request (request : Boundary.Request) (id : Nat) :
    (request.view id).number = id := by
  cases request <;> rfl

@[simp] theorem Item.child_request (request : Boundary.Request) (id : Nat) :
    (Item.effect (.of (request.view id))).child = none := by
  cases request <;> rfl

@[simp] theorem Item.woken_request (request : Boundary.Request) (id : Nat) :
    (Item.effect (.of (request.view id))).woken = none := by
  cases request <;> rfl

@[simp] theorem Item.weight_request (request : Boundary.Request) (id : Nat) :
    (Item.effect (.of (request.view id))).weight = 3 := by
  cases request <;> rfl

/-- An item of the queue, with its lane and the machine it is of. -/
abbrev Entry := Lane × Nat × Item

/-- The request that an item is, or replies to. -/
def Entry.awaits (entry : Entry) : Option (Nat × Nat) := entry.2.2.id.map (entry.2.1, ·)

def Entry.child (entry : Entry) : Option Nat := entry.2.2.child

def Entry.woken (entry : Entry) : Option Nat := entry.2.2.woken

def Entry.weight (entry : Entry) : Nat := entry.2.2.weight

theorem Entry.weight_pos (entry : Entry) : 0 < entry.weight := by
  obtain ⟨_, _, item⟩ := entry
  unfold Entry.weight Item.weight
  split <;> omega

/-! ### The machines it knows -/

theorem lookup_later {handle other : Nat} (away : other ≠ handle) (status : Status)
    (rest : List (Nat × Status)) : ((handle, status) :: rest).lookup other = rest.lookup other := by
  have away : (other == handle) = false := by simpa using away
  rw [List.lookup_cons, away]

theorem lookup_assign (handle : Nat) (status : Status) (machines : List (Nat × Status)) (other : Nat) :
    (assign handle status machines).lookup other =
      if other = handle then some status else machines.lookup other := by
  by_cases same : other = handle
  · subst same
    rw [if_pos rfl]
    induction machines with
    | nil => exact List.lookup_cons_self
    | cons known rest ih =>
      unfold assign
      by_cases here : known.1 = other
      · rw [if_pos here]
        exact List.lookup_cons_self
      · rw [if_neg here, lookup_later (Ne.symm here)]
        exact ih
  · rw [if_neg same]
    induction machines with
    | nil => exact lookup_later same status []
    | cons known rest ih =>
      obtain ⟨first, old⟩ := known
      unfold assign
      by_cases here : first = handle
      · rw [if_pos here, lookup_later same, lookup_later (here ▸ same)]
      · rw [if_neg here]
        by_cases this : other = first
        · rw [this, List.lookup_cons_self, List.lookup_cons_self]
        · rw [lookup_later this, lookup_later this, ih]

theorem assign_handles (handle : Nat) (status : Status) (machines : List (Nat × Status)) :
    (assign handle status machines).map Prod.fst =
      if handle ∈ machines.map Prod.fst then machines.map Prod.fst
      else machines.map Prod.fst ++ [handle] := by
  induction machines with
  | nil => rfl
  | cons known rest ih =>
    obtain ⟨first, old⟩ := known
    unfold assign
    by_cases here : first = handle
    · simp [here]
    · rw [if_neg here, List.map_cons, ih]
      by_cases there : handle ∈ rest.map Prod.fst <;> simp [there, Ne.symm here]

theorem lookup_of_mem {machines : List (Nat × Status)} {handle : Nat} (status : Status)
    (apart : (machines.map Prod.fst).Nodup) (member : (handle, status) ∈ machines) :
    machines.lookup handle = some status := by
  induction machines with
  | nil => cases member
  | cons known rest ih =>
    obtain ⟨first, old⟩ := known
    obtain ⟨fresh, apart⟩ := List.nodup_cons.mp apart
    rcases List.mem_cons.mp member with same | later
    · obtain ⟨rfl, rfl⟩ := Prod.mk.inj same
      exact List.lookup_cons_self
    · have away : handle ≠ first := by
        rintro rfl
        exact fresh (List.mem_map.mpr ⟨_, later, rfl⟩)
      rw [lookup_later away]
      exact ih apart later

namespace Host

variable {L R : Type}

/-- The requests that a reply is owed to, each with its machine. -/
def awaited (host : Host L R) : List (Nat × Nat) :=
  host.queue.filterMap Entry.awaits ++ host.timers.map fun timer => (timer.handle, timer.id)

/-- The children whose births are in the queue. -/
def born (host : Host L R) : List Nat := host.queue.filterMap Entry.child

/-- The machines whose wakes are in the queue. -/
def told (host : Host L R) : List Nat := host.queue.filterMap Entry.woken

def weight (host : Host L R) : Nat := (host.queue.map Entry.weight).sum + host.timers.length

/-! ### What a call puts there -/

/-- The host once it has read what a call said. -/
def heard (host : Host L R) (handle : Nat) (status : Status) (l : L) (step : Yield (Shown View))
    (woken : List Nat) : Host L R :=
  { host with
    lib := l
    machines := assign handle status host.machines
    queue := host.queue ++
      (step.effects.map fun shown => (.machine handle, handle, .effect (.of shown.view))) ++
      woken.map fun other => (.machine handle, handle, .effect (.woke other))
    closed := (step.closed.map (handle, ·)).reverse ++ host.closed }

theorem ran_said {host : Host L R} {handle : Nat} {data : Bytes} {status : Status} {l : L}
    {step : Yield (Shown View)} {woken : List Nat} (read : decode data = .ok (said step woken)) :
    host.ran handle (.ok (data, status), l) = .ok (host.heard handle status l step woken) := by
  have effects : ∀ (views : List (Shown View)) (host : Host L R),
      (views.map fun shown => Effect.of shown.view).foldl (note handle) host = { host with
        queue := host.queue ++
          views.map fun shown => (.machine handle, handle, .effect (.of shown.view)) } := by
    intro views
    induction views with
    | nil => simp
    | cons view views ih => simp [note, ih]
  have closed : ∀ (ids : List Nat) (host : Host L R),
      (ids.map Effect.closed).foldl (note handle) host = { host with
        closed := (ids.map (handle, ·)).reverse ++ host.closed } := by
    intro ids
    induction ids with
    | nil => simp
    | cons id ids ih => simp [note, ih]
  have wakes : ∀ (handles : List Nat) (host : Host L R),
      (handles.map Effect.woke).foldl (note handle) host = { host with
        queue := host.queue ++
          handles.map fun other => (.machine handle, handle, .effect (.woke other)) } := by
    intro handles
    induction handles with
    | nil => simp
    | cons other handles ih => simp [note, ih]
  show (do
    let effects ← decode data
    return effects.foldl (note handle) _) = _
  rw [read]
  apply congrArg Except.ok
  simp only [said, List.foldl_append, effects, closed, wakes, heard]

/-- A call takes nothing off the queue. -/
theorem ran_queue {host after : Host L R} {handle : Nat} {result : Coded × L}
    (ran : host.ran handle result = .ok after) : ∃ more, after.queue = host.queue ++ more := by
  have noted : ∀ (effects : List Effect) (host : Host L R),
      ∃ more, (effects.foldl (note handle) host).queue = host.queue ++ more := by
    intro effects
    induction effects with
    | nil => exact fun host => ⟨[], (List.append_nil _).symm⟩
    | cons e effects ih =>
      intro host
      obtain ⟨more, same⟩ := ih (note handle host e)
      rw [List.foldl_cons, same]
      unfold note
      split
      · exact ⟨more, rfl⟩
      · exact ⟨_, List.append_assoc _ _ _⟩
  obtain ⟨coded, l⟩ := result
  cases coded with
  | error error => cases ran
  | ok said =>
    obtain ⟨data, status⟩ := said
    have ran : (do
        let effects ← decode data
        return effects.foldl (note handle) _) = Except.ok after := ran
    cases read : decode data with
    | error raised =>
      rw [read] at ran
      cases ran
    | ok effects =>
      rw [read] at ran
      obtain rfl := Except.ok.inj ran
      exact noted effects _

theorem heard_awaited (host : Host L R) (handle : Nat) (status : Status) (l : L)
    (step : Yield (Shown View)) (woken : List Nat) :
    (host.heard handle status l step woken).awaited.Perm (host.awaited ++
      (step.effects.filterMap fun shown => (Item.effect (.of shown.view)).id).map (handle, ·)) := by
  have quiet : (woken.map fun other => ((.machine handle, handle, .effect (.woke other)) : Entry)
      ).filterMap Entry.awaits = [] := by
    simp [List.filterMap_map, Entry.awaits, Item.id, Function.comp_def]
  have new : (step.effects.map fun shown => ((.machine handle, handle, .effect (.of shown.view)) :
      Entry)).filterMap Entry.awaits =
        (step.effects.filterMap fun shown => (Item.effect (.of shown.view)).id).map (handle, ·) := by
    rw [List.filterMap_map, List.map_filterMap]
    rfl
  unfold awaited heard
  simp only [List.filterMap_append, quiet, new, List.append_nil, List.append_assoc]
  exact List.Perm.append_left _ List.perm_append_comm

theorem heard_born (host : Host L R) (handle : Nat) (status : Status) (l : L)
    (step : Yield (Shown View)) (woken : List Nat) :
    (host.heard handle status l step woken).born = host.born ++
      step.effects.filterMap fun shown => (Item.effect (.of shown.view)).child := by
  unfold born heard
  simp [List.filterMap_append, List.filterMap_map, Entry.child, Item.child, Function.comp_def]

theorem heard_told (host : Host L R) (handle : Nat) (status : Status) (l : L)
    (step : Yield (Shown View)) (woken : List Nat) :
    (host.heard handle status l step woken).told = host.told ++ woken := by
  unfold told heard
  simp [List.filterMap_append, List.filterMap_map, Entry.woken, Item.woken, Function.comp_def]

theorem heard_weight {host : Host L R} {handle : Nat} {status : Status} {l : L}
    {step : Yield (Shown View)} {woken : List Nat} (silent : step.effects = []) (unwoken : woken = []) :
    (host.heard handle status l step woken).weight = host.weight := by
  unfold weight heard
  simp [silent, unwoken]

/-! ### What is taken off it -/

theorem awaited_of_perm {host : Host L R} (after : Host L R) {entry : Entry}
    (taken : host.queue.Perm (entry :: after.queue)) (timers : after.timers = host.timers) :
    host.awaited.Perm (entry.awaits.toList ++ after.awaited) := by
  unfold awaited
  rw [timers, ← List.append_assoc]
  apply List.Perm.append_right
  refine (taken.filterMap Entry.awaits).trans ?_
  cases found : entry.awaits <;> simp [found]

theorem born_of_perm {host : Host L R} (after : Host L R) {entry : Entry}
    (taken : host.queue.Perm (entry :: after.queue)) :
    host.born.Perm (entry.child.toList ++ after.born) := by
  refine (taken.filterMap Entry.child).trans ?_
  cases found : entry.child <;> simp [found, born]

theorem told_of_perm {host : Host L R} (after : Host L R) {entry : Entry}
    (taken : host.queue.Perm (entry :: after.queue)) :
    host.told.Perm (entry.woken.toList ++ after.told) := by
  refine (taken.filterMap Entry.woken).trans ?_
  cases found : entry.woken <;> simp [found, told]

theorem weight_of_perm {host : Host L R} (after : Host L R) {entry : Entry}
    (taken : host.queue.Perm (entry :: after.queue)) (timers : after.timers = host.timers) :
    host.weight = entry.weight + after.weight := by
  unfold weight
  rw [timers, (taken.map Entry.weight).sum_nat, List.map_cons, List.sum_cons, Nat.add_assoc]

/-- The timer that is due is for a sleep still wanted, and those dropped before it are not. -/
theorem due_cons {host : Host L R} {timer : Timer} {rest : List Timer} (due : host.due = timer :: rest)
    (world : World) : let after : Host L R := { host with timers := rest, world }
    (timer.handle, timer.id) ∉ host.closed ∧ (∀ other ∈ timer :: rest, other ∈ host.timers) ∧
      after.weight + 1 ≤ host.weight ∧ ∃ dropped : List (Nat × Nat),
        (∀ pair ∈ dropped, pair ∈ host.closed) ∧
          host.awaited.Perm (dropped ++ [(timer.handle, timer.id)] ++ after.awaited) := by
  let given : Timer → Bool := fun timer => decide ((timer.handle, timer.id) ∈ host.closed)
  have split : host.timers = host.timers.takeWhile given ++ timer :: rest := by
    rw [← due]
    exact List.takeWhile_append_dropWhile.symm
  refine ⟨?_, fun other member => ?_, ?_, (host.timers.takeWhile given).map fun timer =>
    (timer.handle, timer.id), fun pair member => ?_, ?_⟩
  · have first := List.head?_dropWhile_not given host.timers
    rw [show host.timers.dropWhile given = timer :: rest from due] at first
    simpa [given] using first
  · rw [split]
    exact List.mem_append_right _ member
  · have length := congrArg List.length split
    rw [List.length_append, List.length_cons] at length
    show (host.queue.map Entry.weight).sum + rest.length + 1 ≤ (host.queue.map Entry.weight).sum + _
    omega
  · obtain ⟨timer, taken, rfl⟩ := List.mem_map.mp member
    have dropped : given timer = true := List.mem_takeWhile_imp taken
    exact of_decide_eq_true dropped
  · have timers : host.timers.map (fun timer => (timer.handle, timer.id)) =
        (host.timers.takeWhile given).map (fun timer => (timer.handle, timer.id)) ++
          [(timer.handle, timer.id)] ++ rest.map fun timer => (timer.handle, timer.id) := by
      nth_rewrite 1 [split]
      simp
    unfold awaited
    rw [timers]
    exact List.perm_append_comm_assoc _ _ _

/-- If no timer is due, the sleeps of all the timers were given up. -/
theorem due_nil {host : Host L R} (due : host.due = []) :
    ∀ timer ∈ host.timers, (timer.handle, timer.id) ∈ host.closed := by
  intro timer member
  exact of_decide_eq_true (List.dropWhile_eq_nil_iff.mp due timer member)

/-! ### What is put back -/

theorem push_perm (timer : Timer) (timers : List Timer) :
    (push timer timers).Perm (timer :: timers) := by
  induction timers with
  | nil => exact .refl _
  | cons first rest ih =>
    unfold push
    split
    · exact .refl _
    · exact (ih.cons first).trans (.swap timer first rest)

/-- A sleep is answered by setting a timer. -/
theorem slept (host : Host L R) (timer : Timer) (order : Nat) :
    let after : Host L R := { host with timers := push timer host.timers, order }
    after.awaited.Perm ((timer.handle, timer.id) :: host.awaited) ∧ after.weight = host.weight + 1 := by
  have pushed := push_perm timer host.timers
  refine ⟨?_, ?_⟩
  · exact ((pushed.map fun timer => (timer.handle, timer.id)).append_left _).trans List.perm_middle
  · have same := pushed.length_eq
    unfold weight
    simp only [List.length_cons] at same ⊢
    omega

/-- A reply to be made later is queued. -/
theorem postponed (host : Host L R) (world : World) (lane : Lane) (handle id : Nat) (record : Bytes) :
    let after : Host L R :=
      { host with world, queue := host.queue ++ [(lane, handle, .reply id record)] }
    after.awaited.Perm ((handle, id) :: host.awaited) ∧ after.born = host.born ∧
      after.told = host.told ∧ after.weight = host.weight + 2 := by
  refine ⟨?_, ?_, ?_, ?_⟩
  · unfold awaited
    simp only [List.filterMap_append, List.append_assoc]
    exact List.perm_middle
  · simp [born, Entry.child, Item.child]
  · simp [told, Entry.woken, Item.woken]
  · unfold weight
    simp only [List.map_append, List.sum_append, List.map_cons, List.map_nil, List.sum_cons,
      List.sum_nil, Entry.weight, Item.weight]
    omega

theorem getD_mem {l : List Nat} {i : Nat} (low : i < l.length) : l.getD i 0 ∈ l := by
  rw [List.getD_eq_getElem?_getD, List.getElem?_eq_getElem low]
  exact List.getElem_mem low

/-- An item of the queue is taken, perhaps after a machine that has not completed was resumed. -/
theorem take_cases (lib : Lib L) (rng : Rng R) (host : Host L R) :
    ∃ start, (start = .ok host ∨
        ∃ handle ∈ host.live, start = host.ran handle (lib.resume host.lib handle)) ∧
      (∀ raised, start = .error raised → host.take lib rng = .error raised) ∧
      ∀ after, start = .ok after → after.queue ≠ [] →
        ∃ (entry : Entry) (rest : List Entry) (r : Option R), after.queue.Perm (entry :: rest) ∧
          host.take lib rng = .ok (some entry.2, { after with rng := r, queue := rest }) := by
  cases seeded : host.rng with
  | none =>
    refine ⟨.ok host, .inl rfl, by simp, fun after same queued => ?_⟩
    cases same
    obtain ⟨entry, rest, listed⟩ := List.exists_cons_of_ne_nil queued
    refine ⟨entry, rest, none, listed ▸ .refl _, ?_⟩
    unfold take
    rw [seeded, listed]
    rfl
  | some r =>
    have picked : ∀ (after : Host L R) (r : R), after.queue ≠ [] →
        ∃ (entry : Entry) (rest : List Entry), after.queue.Perm (entry :: rest) ∧
          let at_ := after.eligible.getD (rng.choice after.eligible.length r).1 0
          after.queue[at_]? = some entry ∧ after.queue.eraseIdx at_ = rest := by
      intro after r queued
      have length := List.length_pos_iff.mpr queued
      -- the oldest of all is the oldest of its lane
      have first : 0 ∈ after.eligible := by
        simp [eligible, List.mem_filter, length]
      have low := rng.choice_lt after.eligible.length r (List.length_pos_of_mem first)
      have inside := List.mem_range.mp (List.mem_filter.mp (getD_mem low)).1
      exact ⟨_, _, (List.getElem_cons_eraseIdx_perm inside).symm,
        List.getElem?_eq_getElem inside, rfl⟩
    have taken : ∀ (start : Except Raised (R × Host L R)), host.stutter lib rng r = start →
        (∀ raised, start.map Prod.snd = .error raised → host.take lib rng = .error raised) ∧
        ∀ after, start.map Prod.snd = .ok after → after.queue ≠ [] →
          ∃ (entry : Entry) (rest : List Entry) (r : Option R), after.queue.Perm (entry :: rest) ∧
            host.take lib rng = .ok (some entry.2, { after with rng := r, queue := rest }) := by
      intro start stuttered
      cases start with
      | error raised =>
        refine ⟨fun other same => ?_, fun after same => (by cases same)⟩
        cases same
        unfold take
        rw [seeded]
        simp only [stuttered]
        rfl
      | ok result =>
        refine ⟨fun other same => (by cases same), fun after same queued => ?_⟩
        cases same
        obtain ⟨entry, rest, perm, there, left⟩ := picked result.2 result.1 queued
        refine ⟨entry, rest, some (rng.choice result.2.eligible.length result.1).2, perm, ?_⟩
        unfold take
        rw [seeded]
        simp only [stuttered, bind, Except.bind, there, left]
        rfl
    by_cases idle : host.live = []
    · have stuttered : host.stutter lib rng r = .ok (r, host) := if_pos idle
      exact ⟨.ok host, .inl rfl, (taken _ stuttered).1, (taken _ stuttered).2⟩
    · cases stutters : (rng.eighth r).1 with
      | false =>
        have stuttered : host.stutter lib rng r = .ok ((rng.eighth r).2, host) := by
          unfold stutter
          simp [idle, stutters]
          rfl
        exact ⟨.ok host, .inl rfl, (taken _ stuttered).1, (taken _ stuttered).2⟩
      | true =>
        have low := rng.choice_lt host.live.length (rng.eighth r).2 (List.length_pos_iff.mpr idle)
        let handle := host.live.getD (rng.choice host.live.length (rng.eighth r).2).1 0
        have alive : handle ∈ host.live := getD_mem low
        have stuttered : host.stutter lib rng r =
            (host.ran handle (lib.resume host.lib handle)).map
              ((rng.choice host.live.length (rng.eighth r).2).2, ·) := by
          unfold stutter
          simp only [idle, stutters, if_false, if_true]
          cases host.ran handle (lib.resume host.lib handle) <;> rfl
        refine ⟨_, .inr ⟨handle, alive, rfl⟩, ?_, ?_⟩
        · intro raised failed
          exact (taken _ stuttered).1 raised (by rw [failed]; rfl)
        · intro after went
          exact (taken _ stuttered).2 after (by rw [went]; rfl)

/-! ### A turn -/

/-- An item is dealt with, unless its request was given up. -/
theorem turn_of_take {lib : Lib L} {rng : Rng R} {host after : Host L R} {entry : Entry}
    (queued : host.queue ≠ []) (taken : host.take lib rng = .ok (some entry.2, after)) :
    host.turn lib rng = if entry.awaits.any (· ∈ after.closed) then .ok (after, true)
      else (do return (← after.perform lib entry.2.1 entry.2.2, true)) := by
  unfold turn
  rw [if_neg queued, taken]
  simp only [bind, Except.bind, Entry.awaits, Option.any_map]
  rfl

theorem turn_of_failed {lib : Lib L} {rng : Rng R} {host : Host L R} {raised : Raised}
    (queued : host.queue ≠ []) (failed : host.take lib rng = .error raised) :
    host.turn lib rng = .error raised := by
  unfold turn
  rw [if_neg queued, failed]
  rfl

/-- With nothing queued and nobody woken, the first timer that is still wanted fires. -/
theorem turn_idle {lib : Lib L} {rng : Rng R} {host : Host L R} (queued : host.queue = [])
    (quiet : lib.wakes host.lib = ([], host.lib)) :
    host.turn lib rng = match host.due with
      | [] => .ok ({ host with timers := [] }, false)
      | timer :: rest => do
        let record ← replyUnit timer.id
        return (← Host.ran timer.handle (lib.reply host.lib timer.handle record)
          { host with timers := rest, world.now := timer.due }, true) := by
  have nothing : decode [] = .ok [] := rfl
  unfold turn
  rw [if_pos queued, quiet]
  simp only [nothing, bind, Except.bind, ne_eq, not_true_eq_false, if_false]
  rfl

/-- A request is replied to later, if there is a seed. -/
theorem perform_later {lib : Lib L} {host : Host L R} {handle id : Nat} {request : Boundary.Request}
    (awake : ∀ r, request ≠ .sleep r) {r : R} (seeded : host.rng = some r) {record : Bytes} {w : World}
    (made : host.world.answer (request.view id) = .ok (record, w)) :
    Host.perform lib handle host (.effect (.of (request.view id))) = .ok { host with
      world := w
      queue := host.queue ++ [(.reply handle (request.view id).number, handle,
        .reply (request.view id).number record)] } := by
  obtain ⟨_, rng, _⟩ := host
  cases seeded
  cases request with
  | sleep r => exact absurd rfl (awake r)
  | _ =>
    show Bind.bind (World.answer _ _) _ = _
    rw [made]
    rfl

theorem perform_raised {lib : Lib L} {host : Host L R} {handle id : Nat} {request : Boundary.Request}
    (awake : ∀ r, request ≠ .sleep r) {raised : Raised}
    (made : host.world.answer (request.view id) = .error raised) :
    Host.perform lib handle host (.effect (.of (request.view id))) = .error raised := by
  cases request with
  | sleep r => exact absurd rfl (awake r)
  | _ =>
    show Bind.bind (World.answer _ _) _ = _
    rw [made]
    rfl

end Host

/-! ### What there is to reply -/

/-- A world that has counted no further than `n`, and whose texts are short enough to cross. -/
structure World.Modest (n : Nat) (w : World) : Prop where
  greeted : w.greeted ≤ n
  readings : w.readings ≤ n
  lines : ∀ line ∈ w.lines, (utf8 line).length + 5 < 2 ^ 32
  files : ∀ path b, w.files path = some b → b.length + 17 < 2 ^ 32

namespace World.Modest

variable {n : Nat} {w : World}

theorem more {m : Nat} (modest : w.Modest n) (le : n ≤ m) : w.Modest m :=
  ⟨modest.greeted.trans le, modest.readings.trans le, modest.lines, modest.files⟩

theorem later (modest : w.Modest n) (now : Nat) : World.Modest n { w with now } :=
  ⟨modest.greeted, modest.readings, modest.lines, modest.files⟩

/-- Every request can be answered for a long time. -/
theorem fits (modest : w.Modest n) (few : n ≤ 2 ^ 33) (request : Boundary.Request) : Fits w request := by
  have greeted := modest.greeted
  have readings := modest.readings
  cases request with
  | count => exact (by omega : w.greeted + 1 < 2 ^ 64)
  | readLine => exact fun line first => modest.lines line (List.mem_of_mem_head? first)
  | now =>
    have nanos : w.nanos = (1700000000000 + 1000 * w.readings) * 1000000 := rfl
    exact (by omega : w.nanos < 2 ^ 64)
  | readFile request =>
    intro b there
    have := modest.files _ b there
    omega
  | lookup | sleep | random | var | writeFile => trivial

/-- An answer counts one at most, and a file is as short as the request that wrote it. -/
theorem ask (modest : w.Modest n) {request : Boundary.Request} (short : Short request) :
    (World.context.ask request w).2.Modest (n + 1) := by
  obtain ⟨greeted, readings, lines, files⟩ := modest.more (Nat.le_succ n)
  cases request with
  | count => exact ⟨Nat.succ_le_succ modest.greeted, readings, lines, files⟩
  | now => exact ⟨greeted, Nat.succ_le_succ modest.readings, lines, files⟩
  | readLine => exact ⟨greeted, readings, fun line member => lines line (List.mem_of_mem_tail member),
      files⟩
  | lookup | sleep | random | var | readFile => exact ⟨greeted, readings, lines, files⟩
  | writeFile request =>
    refine ⟨greeted, readings, lines, fun path b there => ?_⟩
    have short : _ + _ + 17 < 2 ^ 32 := short
    have there : Function.update w.files request.path (some request.bytes) path = some b := there
    by_cases same : path = request.path
    · subst same
      rw [Function.update_self] at there
      obtain rfl := Option.some.inj there
      omega
    · rw [Function.update_of_ne same] at there
      exact files path b there

end World.Modest

theorem pack_of_ge {n v : Nat} (large : ¬ v < 256 ^ n) : pack n v = .error .unpack := if_neg large

theorem packed_of_ge {b : Bytes} (long : ¬ b.length < 2 ^ 32) : packed b = .error .unpack := by
  unfold packed
  rw [pack_of_ge (by simpa using long)]
  rfl

theorem replyBytes_of_ge {id : Nat} (small : id < 2 ^ 64) {b : Bytes} (long : ¬ b.length < 2 ^ 32) :
    replyBytes id b = .error .unpack := by
  unfold replyBytes
  rw [pack_of_lt (by simpa using small), packed_of_ge long]
  rfl

/-- An answer that fits no record is none: `struct.pack` raises. -/
theorem answer_unfit {w : World} {request : Boundary.Request} {id : Nat} (small : id < 2 ^ 64)
    (unfit : ¬ Fits w request) : w.answer (request.view id) = .error .unpack := by
  have number : ∀ v, ¬ v < 2 ^ 64 → replyU64 id v = .error .unpack := by
    intro v large
    unfold replyU64
    rw [pack_of_lt (by simpa using small), pack_of_ge (by simpa using large)]
    rfl
  cases request with
  | count =>
    show (do return (← replyU64 id _, _)) = _
    rw [number _ unfit]
    rfl
  | now =>
    show (do return (← replyU64 id _, _)) = _
    rw [number _ unfit]
    rfl
  | readLine =>
    obtain ⟨line, first, long⟩ : ∃ line, w.lines.head? = some line ∧
        ¬ (utf8 line).length + 5 < 2 ^ 32 := by
      by_contra unheld
      exact unfit fun line first => by
        by_contra long
        exact unheld ⟨line, first, long⟩
    show (do return (← readLineReply id w.lines.head?, _)) = _
    rw [first]
    show (do return (← (do replyBytes id (0 :: (← packed (utf8 line)))), _)) = _
    by_cases inner : (utf8 line).length < 2 ^ 32
    · rw [packed_of_lt inner]
      show (do return (← replyBytes id _, _)) = _
      rw [replyBytes_of_ge small (by simp; omega)]
      rfl
    · rw [packed_of_ge inner]
      rfl
  | readFile request =>
    obtain ⟨b, there, long⟩ : ∃ b, w.files request.path = some b ∧ ¬ b.length + 5 < 2 ^ 32 := by
      by_contra absent
      exact unfit fun b there => by
        by_contra long
        exact absent ⟨b, there, long⟩
    show (do return (← replyBytes id (← okBytes (w.files request.path)), w)) = _
    rw [there]
    show (do return (← replyBytes id (← (do return 0 :: (← packed b))), w)) = _
    by_cases inner : b.length < 2 ^ 32
    · rw [packed_of_lt inner]
      show (do return (← replyBytes id _, w)) = _
      rw [replyBytes_of_ge small (by simp; omega)]
      rfl
    · rw [packed_of_ge inner]
      rfl
  | lookup | sleep | random | var | writeFile => exact absurd trivial unfit

end SansEffort.Python
