import SansEffort.Protocol.Calls

/-!
# The senders of a channel

Each channel counts the machines that hold a sender of it. Starting, spawning, completing and
killing keep the count exact. A call that fails undoes its spawns by the set of channels that its
children held, and so undoes once what several of them did.
-/

namespace SansEffort.Protocol

variable {k : Instance}

/-- How many machines hold a sender of `c`. -/
def holders (machines : List Machine) (c : String) : Nat :=
  machines.countP fun m => decide (c ∈ m.holds)

theorem countP_modify {α : Type*} (p : α → Bool) (l : List α) {i : Nat} {a : α} (f : α → α)
    (found : l[i]? = some a) :
    (l.modify i f).countP p + (if p a then 1 else 0) = l.countP p + if p (f a) then 1 else 0 := by
  induction l generalizing i with
  | nil => cases found
  | cons b rest ih =>
    cases i with
    | zero =>
      obtain rfl : b = a := Option.some.inj found
      simp only [List.modify_zero_cons, List.countP_cons]
      omega
    | succ i =>
      have := ih (i := i) found
      simp only [List.modify_succ_cons, List.countP_cons]
      omega

namespace World

variable {w w' : World} {h : Nat} {m : Machine}

/-- The children spawned by the call that hold a sender of `c`. -/
def expected (k : Instance) (w : World) (c : String) : Nat :=
  w.children.countP fun child => decide (c ∈ k.holds child.1)

/-- The senders of `c` that no machine, and no child to be registered, holds. -/
def surplus (k : Instance) (w : World) (c : String) : Int :=
  w.senders c - holders w.machines c - w.expected k c

/-- No machine holds a channel twice. -/
def Tidy (w : World) : Prop := ∀ m ∈ w.machines, m.holds.Nodup

theorem holders_update (found : w.machines[h]? = some m) (f : Machine → Machine) (c : String) :
    holders (w.update h f).machines c + (if c ∈ m.holds then 1 else 0) =
      holders w.machines c + if c ∈ (f m).holds then 1 else 0 := by
  have := countP_modify (fun m : Machine => decide (c ∈ m.holds)) w.machines f found
  simp only [decide_eq_true_eq] at this
  exact this

theorem mem_update {f : Machine → Machine} {m : Machine} (member : m ∈ (w.update h f).machines) :
    m ∈ w.machines ∨ ∃ m' ∈ w.machines, m = f m' := by
  obtain ⟨g, there⟩ := List.mem_iff_getElem?.mp member
  rw [getElem?_update] at there
  split at there
  · obtain ⟨m', found, rfl⟩ := Option.map_eq_some_iff.mp there
    exact .inr ⟨m', List.mem_of_getElem? found, rfl⟩
  · exact .inl (List.mem_of_getElem? there)

/-- An update that leaves what each machine holds. -/
theorem holders_same (w : World) (h : Nat) {f : Machine → Machine}
    (same : ∀ m, (f m).holds = m.holds) (c : String) :
    holders (w.update h f).machines c = holders w.machines c := by
  cases found : w.machines[h]? with
  | some m =>
    have := holders_update found f c
    rw [same] at this
    omega
  | none =>
    have short := List.getElem?_eq_none_iff.mp found
    show holders (w.machines.modify h f) c = _
    rw [List.modify_eq_self short]

theorem Tidy.update_same (tidy : w.Tidy) {f : Machine → Machine}
    (same : ∀ m, (f m).holds = m.holds) : (w.update h f).Tidy := by
  intro m member
  rcases mem_update member with before | ⟨m', before, rfl⟩
  · exact tidy m before
  · rw [same]
    exact tidy m' before

theorem Nudged.bare_all (nudged : w.Nudged w') :
    w'.machines.map Machine.bare = w.machines.map Machine.bare := by
  apply List.ext_getElem?
  intro g
  rw [List.getElem?_map, List.getElem?_map]
  exact nudged.bare g

theorem Nudged.holders (nudged : w.Nudged w') (c : String) :
    holders w'.machines c = holders w.machines c := by
  have counted : ∀ machines : List Machine, Protocol.holders machines c =
      (machines.map Machine.bare).countP fun m => decide (c ∈ m.holds) := by
    intro machines
    rw [List.countP_map]
    rfl
  rw [counted, counted, nudged.bare_all]

theorem Nudged.tidy (nudged : w.Nudged w') (tidy : w.Tidy) : w'.Tidy := by
  intro m member
  obtain ⟨g, there⟩ := List.mem_iff_getElem?.mp member
  obtain ⟨m', found, same, _⟩ := nudged.of_machine there
  rw [same]
  exact tidy m' (List.mem_of_getElem? found)

theorem Nudged.surplus (nudged : w.Nudged w') (same : w'.senders = w.senders) (c : String) :
    w'.surplus k c = w.surplus k c := by
  rw [World.surplus, World.surplus, nudged.holders, expected, expected, nudged.children, same]

/-- A machine lets go of all it holds. -/
theorem surplus_released (tidy : w.Tidy) (found : w.machines[h]? = some m) {f : Machine → Machine}
    (released : (f m).holds = []) {b : World}
    (machines : b.machines = (w.update h f).machines)
    (senders : b.senders = w.senders) (children : b.children = w.children) (c : String) :
    (b.dropSenders m.holds).surplus k c = w.surplus k c := by
  obtain ⟨nudged, dropped, _⟩ := dropSenders_spec b m.holds
  have count := holders_update found f c
  have once : m.holds.count c = if c ∈ m.holds then 1 else 0 := by
    split
    · next held => exact List.count_eq_one_of_mem (tidy m (List.mem_of_getElem? found)) held
    · next free => exact List.count_eq_zero_of_not_mem free
  rw [released, if_neg (List.not_mem_nil)] at count
  rw [surplus, surplus, nudged.holders, expected, expected, nudged.children, dropped, senders,
    children, machines, once]
  split
  · next held =>
    rw [if_pos held] at count
    omega
  · next free =>
    rw [if_neg free] at count
    omega

theorem Tidy.released (tidy : w.Tidy) {f : Machine → Machine} (released : ∀ m, (f m).holds = [])
    {b : World} (machines : b.machines = (w.update h f).machines)
    (chans : List String) : (b.dropSenders chans).Tidy := by
  apply (dropSenders_spec b chans).1.tidy
  intro m member
  rw [machines] at member
  rcases mem_update member with before | ⟨m', _, rfl⟩
  · exact tidy m before
  · rw [released]
    exact .nil

theorem foldl_spawned (chans : List String) (senders : String → Int) (c : String) :
    chans.foldl (fun s c => Function.update s c (s c + 1)) senders c = senders c + chans.count c := by
  induction chans generalizing senders with
  | nil => simp
  | cons d rest ih =>
    rw [List.foldl_cons, ih, List.count_cons]
    by_cases same : d = c
    · subst same
      simp
      omega
    · rw [Function.update_of_ne (Ne.symm same)]
      simp [same]

theorem surplus_spawn (w : World) (h : Nat) (p : String) (pinned : Bool) (c : String) :
    (w.spawn k h p pinned).surplus k c = w.surplus k c := by
  have once : (k.holds p).count c = if c ∈ k.holds p then 1 else 0 := by
    split
    · next held => exact List.count_eq_one_of_mem (k.holds_distinct p) held
    · next free => exact List.count_eq_zero_of_not_mem free
  have same := holders_same w h (f := fun m => { m with pc := m.pc + 1 }) (fun _ => rfl) c
  have more : (w.children ++ [(p, pinned)]).countP (fun child => decide (c ∈ k.holds child.1)) =
      w.expected k c + if c ∈ k.holds p then 1 else 0 := by
    rw [List.countP_append, List.countP_singleton]
    simp only [decide_eq_true_eq]
    rfl
  show ((k.holds p).foldl (fun s c => Function.update s c (s c + 1)) w.senders c : Int) -
    holders (w.update h fun m => { m with pc := m.pc + 1 }).machines c -
      (w.children ++ [(p, pinned)]).countP (fun child => decide (c ∈ k.holds child.1)) = _
  rw [foldl_spawned, same, more, once, surplus]
  split <;> omega

/-! ### A call keeps the count -/

/-- Machines still hold no channel twice, and if they do not the surplus of senders is unchanged. -/
structure Counts (k : Instance) (w w' : World) : Prop where
  tidy : w.Tidy → w'.Tidy
  surplus : w.Tidy → ∀ c, w'.surplus k c = w.surplus k c

theorem Counts.refl (w : World) : Counts k w w := ⟨id, fun _ _ => rfl⟩

theorem Counts.trans {w'' : World} (first : Counts k w w') (second : Counts k w' w'') :
    Counts k w w'' :=
  ⟨fun tidy => second.tidy (first.tidy tidy), fun tidy c =>
    (second.surplus (first.tidy tidy) c).trans (first.surplus tidy c)⟩

theorem counts_update {f : Machine → Machine} (machines : w'.machines = (w.update h f).machines)
    (same : ∀ m, (f m).holds = m.holds) (senders : w'.senders = w.senders)
    (children : w'.children = w.children) : Counts k w w' := by
  refine ⟨fun tidy => ?_, fun _ c => ?_⟩
  · unfold Tidy
    rw [machines]
    exact tidy.update_same same
  · rw [surplus, surplus, expected, expected, machines, holders_same w h same, senders, children]

theorem counts_wake (w : World) (c : String) : Counts k w (w.wakeWaiters c) := by
  obtain ⟨nudged, senders, _⟩ := wakeWaiters_spec w c
  exact ⟨nudged.tidy, fun _ => nudged.surplus senders⟩

theorem counts_take (w : World) (c : String) : Counts k w (w.take c) := by
  unfold take
  split
  · exact ⟨id, fun _ _ => rfl⟩
  · exact .refl w

theorem counts_finish (w : World) (h : Nat) : Counts k w (w.finish h) := by
  unfold finish
  cases found : w.machines[h]? with
  | none => exact .refl w
  | some m =>
    refine ⟨fun tidy => ?_, fun tidy => surplus_released tidy found rfl rfl rfl rfl⟩
    exact tidy.released (f := (·.over .complete)) (fun _ => rfl)
      (b := { w.update h (·.over .complete) with closed := w.closed ∪ m.asks }) rfl m.holds

theorem counts_exec (w : World) (h : Nat) : Counts k w (w.exec k h) := by
  cases found : w.machines[h]? with
  | none =>
    unfold exec
    rw [found]
    exact .refl w
  | some m =>
    obtain ⟨_, same⟩ | ⟨_, w', same, ran⟩ := exec_cases (k := k) found
    · rw [same]
      exact .refl w
    · rw [same]
      cases ran with
      | returns => exact counts_finish w h
      | sends c _ =>
        apply Counts.trans _ (counts_wake _ c)
        exact counts_update rfl (fun _ => rfl) rfl rfl
      | takes c _ => exact (counts_take w c).trans (counts_update rfl (fun _ => rfl) rfl rfl)
      | spawns p pinned _ =>
        exact ⟨fun tidy => tidy.update_same fun _ => rfl, fun _ => surplus_spawn w h p pinned⟩
      | waits | asks | races | panics => exact counts_update rfl (fun _ => rfl) rfl rfl

theorem counts_begin (w : World) (e : Event) : Counts k w (w.begin e) := by
  cases found : w.machines[e.target]? with
  | none =>
    rw [begin_none found]
    exact .refl w
  | some m =>
    obtain ⟨w', same, begun⟩ := begin_cases found
    rw [same]
    cases begun with
    | starts | looks | waits => exact counts_update rfl (fun _ => rfl) rfl rfl
    | wins h _ _ _ => exact (counts_take w m.waiting).trans (counts_update rfl (fun _ => rfl) rfl rfl)
    | ignores | discards => exact .refl w
    | answers h id taken _ either =>
      rcases either with rfl | rfl
      · exact counts_update rfl (fun _ => rfl) rfl rfl
      · exact (counts_take w _).trans (counts_update rfl (fun _ => rfl) rfl rfl)

theorem counts_attempt (w : World) (e : Event) : Counts k w (w.attempt k e) :=
  (counts_begin w e).trans (runToWait_keeps (Counts k (w.begin e))
    (fun _ counts => counts.trans (counts_exec _ _)) (.refl _))

/-! ### How a call ends -/

theorem nodup_unspawned (children : List (String × Bool)) (before : List String)
    (distinct : before.Nodup) :
    (children.foldl (fun s c => s ∪ k.holds c.1) before).Nodup ∧
      ∀ c, c ∈ children.foldl (fun s c => s ∪ k.holds c.1) before ↔
        c ∈ before ∨ ∃ child ∈ children, c ∈ k.holds child.1 := by
  induction children generalizing before with
  | nil => exact ⟨distinct, by simp⟩
  | cons child rest ih =>
    obtain ⟨nodup, member⟩ := ih (before ∪ k.holds child.1) (List.Nodup.union _ (k.holds_distinct _))
    refine ⟨nodup, fun c => ?_⟩
    rw [List.foldl_cons, member, List.mem_union_iff, List.exists_mem_cons_iff, or_assoc]

/-- The surplus of senders once a call has ended. -/
def left (w : World) (c : String) : Int := w.senders c - holders w.machines c

theorem left_register (w : World) (c : String) : (w.register k).left c = w.surplus k c := by
  have fresh : holders (w.machines ++ w.children.map fun child => fresh k child.1 child.2) c =
      holders w.machines c + w.expected k c := by
    unfold holders expected
    rw [List.countP_append, List.countP_map]
    rfl
  have kept : (w.register k).senders = w.senders := rfl
  rw [left, machines_register, fresh, kept, surplus]
  omega

/-- A call that fails gives back each channel of its children once. -/
theorem left_failCall (tidy : w.Tidy) (found : w.machines[h]? = some m) (c : String) :
    (w.failCall k h).left c =
      w.surplus k c + w.expected k c - if 0 < w.expected k c then 1 else 0 := by
  obtain ⟨distinct, member⟩ := nodup_unspawned (k := k) w.children [] .nil
  have released := surplus_released (k := k) tidy found (f := (·.over .gone)) rfl
    (b := w.update h (·.over .gone)) rfl rfl rfl c
  obtain ⟨alone, _, _⟩ := dropSenders_spec (w.update h (·.over .gone)) m.holds
  have children : ((w.update h (·.over .gone)).dropSenders m.holds).expected k c =
      w.expected k c := by
    unfold expected
    rw [alone.children]
    rfl
  have counted : 0 < w.expected k c ↔ c ∈ w.children.foldl (fun s c => s ∪ k.holds c.1) [] := by
    rw [member, expected, List.countP_pos_iff]
    simp
  unfold failCall
  rw [found]
  dsimp only
  generalize (w.update h (·.over .gone)).dropSenders m.holds = dropped at released children
  obtain ⟨nudged, senders, _⟩ := dropSenders_spec dropped
    (w.children.foldl (fun s c => s ∪ k.holds c.1) [])
  have once : (w.children.foldl (fun s c => s ∪ k.holds c.1) []).count c =
      if 0 < w.expected k c then 1 else 0 := by
    split
    · next held => exact List.count_eq_one_of_mem distinct (counted.mp held)
    · next free => exact List.count_eq_zero_of_not_mem fun held => free (counted.mpr held)
  rw [left, nudged.holders, senders, once, ← released, surplus, children]
  split <;> omega

theorem Tidy.register (tidy : w.Tidy) : (w.register k).Tidy := by
  intro m member
  rcases List.mem_append.mp member with before | new
  · exact tidy m before
  · obtain ⟨child, _, rfl⟩ := List.mem_map.mp new
    exact k.holds_distinct child.1

theorem Tidy.failCall (tidy : w.Tidy) (h : Nat) : (w.failCall k h).Tidy := by
  unfold World.failCall
  split
  · exact tidy
  · next m _ =>
    apply (dropSenders_spec _ _).1.tidy
    exact tidy.released (f := (·.over .gone)) (fun _ => rfl) (b := w.update h (·.over .gone)) rfl _

theorem left_own (w : World) (h worker : Nat) (m : Machine) (c : String) :
    (w.own h worker m).left c = w.left c := by
  unfold own
  split
  · have same := holders_same w h (f := fun m => { m with owner := worker }) (fun _ => rfl) c
    exact congrArg (fun n : Nat => w.senders c - (n : Int)) same
  · rfl

theorem Tidy.own (tidy : w.Tidy) (h worker : Nat) (m : Machine) : (w.own h worker m).Tidy := by
  unfold World.own
  split
  · exact tidy.update_same fun _ => rfl
  · exact tidy

/-- The children hold no channel together. -/
theorem apart_iff (w : World) :
    (w.children.flatMap fun child => k.holds child.1).Nodup ↔ ∀ c, w.expected k c ≤ 1 := by
  have counted : ∀ (children : List (String × Bool)) (c : String),
      (children.flatMap fun child => k.holds child.1).count c =
        children.countP fun child => decide (c ∈ k.holds child.1) := by
    intro children c
    induction children with
    | nil => rfl
    | cons child rest ih =>
      rw [List.flatMap_cons, List.count_append, ih, List.countP_cons, Nat.add_comm]
      congr 1
      by_cases held : c ∈ k.holds child.1
      · rw [List.count_eq_one_of_mem (k.holds_distinct _) held]
        simp [held]
      · rw [List.count_eq_zero_of_not_mem held]
        simp [held]
  rw [List.nodup_iff_count_le_one]
  exact forall_congr' fun c => by rw [counted, expected]

end World

/-! ### Runs -/

namespace Host

variable {s s' : Host}

/-- A call that fails has spawned no two children that hold a channel together. -/
def ChildrenApart (k : Instance) (s : Host) : Action → Prop
  | .call e worker => ∀ m, s.machines[e.target]? = some m → ¬ wrong m worker →
      (s.world.attempt k e).failed e.target →
      ((s.world.attempt k e).children.flatMap fun child => k.holds child.1).Nodup
  | _ => True

/-- The senders of `c` that no machine holds. -/
def left (s : Host) (c : String) : Int := s.world.left c

theorem left_eq_surplus (s : Host) (c : String) : s.left c = s.world.surplus k c := by
  show s.senders c - _ = s.senders c - _ - ((0 : Nat) : Int)
  omega

theorem called_left (tidy : s.world.Tidy) (e : Event) (worker : Nat) (m : Machine) :
    (s.called k e worker m).world.Tidy ∧ ∀ c, (s.called k e worker m).left c = s.left c +
      if (s.world.attempt k e).failed e.target then
        ((s.world.attempt k e).expected k c : Int) -
          if 0 < (s.world.attempt k e).expected k c then 1 else 0
      else 0 := by
  have attempted := World.counts_attempt (k := k) s.world e
  have tidy' := attempted.tidy tidy
  have before : ∀ c, (s.world.attempt k e).surplus k c = s.left c := by
    intro c
    rw [attempted.surplus tidy, left_eq_surplus]
  have after : ∀ c, (s.called k e worker m).left c =
      ((s.world.attempt k e).conclude k e.target).left c := fun c => World.left_own _ _ _ m c
  have concluded : (s.called k e worker m).world.Tidy =
      (((s.world.attempt k e).conclude k e.target).own e.target worker m).Tidy := rfl
  rw [concluded]
  simp only [after, World.conclude]
  split
  · next failed =>
    refine ⟨(tidy'.failCall _).own _ _ m, fun c => ?_⟩
    obtain ⟨m', there, _⟩ := (World.failed_iff _ _).mp failed
    rw [World.left_failCall tidy' there, before]
    omega
  · refine ⟨tidy'.register.own _ _ m, fun c => ?_⟩
    rw [World.left_register, before]
    simp

theorem called_left_iff (tidy : s.world.Tidy) {e : Event} {worker : Nat} {m : Machine}
    (found : s.machines[e.target]? = some m) (right : ¬ wrong m worker) :
    (∀ c, s.left c ≤ (s.called k e worker m).left c) ∧
      ((∀ c, (s.called k e worker m).left c = s.left c) ↔ s.ChildrenApart k (.call e worker)) := by
  obtain ⟨_, left⟩ := called_left (k := k) tidy e worker m
  refine ⟨fun c => ?_, ?_⟩
  · rw [left]
    split
    · split <;> omega
    · omega
  · simp only [left]
    constructor
    · intro exact other there _ failed
      apply (World.apart_iff _).mpr
      intro c
      have := exact c
      rw [if_pos failed] at this
      split at this <;> omega
    · intro apart c
      split
      · next failed =>
        have := (World.apart_iff _).mp (apart m found right failed) c
        split <;> omega
      · omega

theorem retire_keeps (tidy : s.world.Tidy) (h : Nat) (out : Output) :
    (∀ m ∈ retire s.machines h out, m.holds.Nodup) ∧
      ∀ c, s.senders c - (holders (retire s.machines h out) c : Int) = s.left c := by
  unfold retire
  dsimp only
  split
  · have same := World.holders_same s.world h (f := fun m => { m with status := .gone }) fun _ => rfl
    exact ⟨World.Tidy.update_same (h := h) tidy fun _ => rfl, fun c =>
      congrArg (fun n : Nat => s.senders c - (n : Int)) (same c)⟩
  · exact ⟨tidy, fun _ => rfl⟩

/-- One step never lowers what is left, and keeps it if a call that fails has spawned no two
children that hold a channel together. -/
theorem step_left (tidy : s.world.Tidy) {a : Action} (taken : s.step k a = some s') :
    s'.world.Tidy ∧ (∀ c, s.left c ≤ s'.left c) ∧
      ((∀ c, s'.left c = s.left c) ↔ s.ChildrenApart k a) := by
  have unchanged : s'.world.Tidy → (∀ c, s'.left c = s.left c) → s.ChildrenApart k a →
      s'.world.Tidy ∧ (∀ c, s.left c ≤ s'.left c) ∧
        ((∀ c, s'.left c = s.left c) ↔ s.ChildrenApart k a) := fun tidy' same apart =>
    ⟨tidy', fun c => (same c).ge, iff_of_true same apart⟩
  cases step_cases taken with
  | refused e worker m found _ lost =>
    apply unchanged tidy fun _ => rfl
    intro other there right
    rw [found] at there
    obtain rfl := Option.some.inj there
    exact absurd lost right
  | called e worker m found _ _ _ _ right =>
    exact ⟨(called_left tidy e worker m).1, called_left_iff tidy found right⟩
  | returned h out _ =>
    obtain ⟨tidy', same⟩ := retire_keeps tidy h out
    exact unchanged tidy' same trivial
  | woken | judged | spurred | done => exact unchanged tidy (fun _ => rfl) trivial
  | killed h m found _ _ _ =>
    apply unchanged _ _ trivial
    · exact tidy.released (f := (·.over .gone)) (fun _ => rfl)
        (b := s.world.update h (·.over .gone)) rfl m.holds
    · intro c
      have kept := World.surplus_released (k := k) tidy found (f := (·.over .gone)) rfl
        (b := s.world.update h (·.over .gone)) rfl rfl rfl c
      obtain ⟨nudged, _, _⟩ := World.dropSenders_spec (s.world.update h (·.over .gone)) m.holds
      rw [left_eq_surplus (k := k) s c, ← kept, World.surplus, World.expected, nudged.children]
      show _ = _ - _ - ((0 : Nat) : Int)
      rw [Int.natCast_zero, Int.sub_zero]
      rfl

theorem init_left : (init k).world.Tidy ∧ ∀ c, (init k).left c = 0 := by
  constructor
  · intro m member
    obtain rfl := List.mem_singleton.mp member
    exact k.holds_distinct k.root
  · intro c
    show (if c ∈ k.holds k.root then (1 : Int) else 0) -
      (List.countP (fun m : Machine => decide (c ∈ m.holds)) [fresh k k.root false] : Nat) = 0
    rw [List.countP_singleton]
    show (if c ∈ k.holds k.root then (1 : Int) else 0) -
      ((if decide (c ∈ k.holds k.root) = true then 1 else 0 : Nat) : Int) = 0
    simp only [decide_eq_true_eq]
    split <;> rfl

/-- What is left never falls on the way, and stays nothing just when no step miscounts. -/
theorem run_left {s s' : Host} {actions : List Action} (tidy : s.world.Tidy)
    (balanced : ∀ c, 0 ≤ s.left c) (ran : Transition.run (step k) s actions = some s') :
    s'.world.Tidy ∧ (∀ c, s.left c ≤ s'.left c) ∧
      ((∀ c, s'.left c = s.left c) ↔ Transition.Along (step k) (ChildrenApart k) s actions) := by
  induction actions generalizing s with
  | nil =>
    cases ran
    exact ⟨tidy, fun c => le_refl _, iff_of_true (fun _ => rfl) trivial⟩
  | cons a rest ih =>
    obtain ⟨next, taken, rest⟩ := Option.bind_eq_some_iff.mp ran
    obtain ⟨tidy', grew, exact⟩ := step_left tidy taken
    obtain ⟨tidy'', grew', exact'⟩ := ih tidy' (fun c => (balanced c).trans (grew c)) rest
    refine ⟨tidy'', fun c => (grew c).trans (grew' c), ?_⟩
    constructor
    · intro same
      have first : ∀ c, next.left c = s.left c := by
        intro c
        have := same c
        have := grew c
        have := grew' c
        omega
      refine ⟨exact.mp first, fun other stepped => ?_⟩
      rw [taken] at stepped
      obtain rfl := Option.some.inj stepped
      exact exact'.mp fun c => (same c).trans (first c).symm
    · rintro ⟨apart, later⟩ c
      exact (exact'.mpr (later next taken) c).trans (exact.mpr apart c)

end Host

/-- Senders are counted exactly in every state of a run just when no call of it fails that has
spawned two children which hold a channel together. -/
theorem senders_counted_iff (k : Instance) (actions : List Host.Action) (s : Host)
    (ran : Transition.run (Host.step k) (Host.init k) actions = some s) :
    (∀ c, s.senders c = holders s.machines c) ↔
      Transition.Along (Host.step k) (Host.ChildrenApart k) (Host.init k) actions := by
  obtain ⟨tidy, balanced⟩ := Host.init_left (k := k)
  obtain ⟨_, _, exact⟩ := Host.run_left tidy (fun c => (balanced c).ge) ran
  rw [← exact]
  apply forall_congr'
  intro c
  rw [balanced]
  exact sub_eq_zero.symm

/-- A machine spawns two children that hold the same sender, and panics. -/
def crasher : Instance where
  names := {"parent", "child"}
  programs p := if p = "parent" then [.spawn "child", .spawn "child", .panic] else []
  holds p := if p = "child" then ["c"] else []
  root := "parent"
  workers := 1
  heedsWoke := true
  dropsClosed := true
  routesPinned := true
  checksAllDone := true
  waitsForWoke := true
  spurious := 0
  kills := 0
  holds_distinct p := by
    split <;> simp
  root_named := by decide
  spawns_named p _ q spawned := by
    by_cases parent : p = "parent"
    · obtain rfl : q = "child" := by simpa [parent] using spawned
      decide
    · simp [parent] at spawned

theorem senders_counted_iff_crashed :
    ∃ s, Transition.run (Host.step crasher) (Host.init crasher) [.call (.resume 0) 0, .ret 0] = some s ∧
      ((∀ c, s.senders c = holders s.machines c) ↔
        Transition.Along (Host.step crasher) (Host.ChildrenApart crasher) (Host.init crasher)
          [.call (.resume 0) 0, .ret 0]) :=
  ⟨_, rfl, senders_counted_iff crasher _ _ rfl⟩

/-- The channel counts a sender that nobody holds, and never closes. -/
theorem senders_miscounted :
    ¬ ∀ (k : Instance) (actions : List Host.Action) (s : Host),
      Transition.run (Host.step k) (Host.init k) actions = some s →
        ∀ c, s.senders c = holders s.machines c := by
  intro counted
  have miscount := counted crasher [.call (.resume 0) 0] _ rfl "c"
  revert miscount
  decide

end SansEffort.Protocol
