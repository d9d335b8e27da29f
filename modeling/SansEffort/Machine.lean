import SansEffort.Driver
import SansEffort.Contract
import Mathlib.Data.List.Nodup

/-!
# Machines

A driver and the requests it has outstanding, keyed by id (`machine.rs`). Replies are checked
here, at run time, against what the host was shown.
-/

namespace SansEffort

structure Machine (σ E H : Type) where
  driver : Stepper σ E H
  pending : List (Nat × Pending)
  highestShown : Nat
  neverShown : List Nat

/-- One effect as a host sees it, and whether it awaits a reply. -/
structure Shown (V : Type) where
  view : V
  awaits : Bool
  deriving DecidableEq

namespace Machine

variable {σ E H V : Type}

def fromDriver (driver : Stepper σ E H) : Machine σ E H := ⟨driver, [], 0, []⟩

def isFinished (m : Machine σ E H) : Bool := m.driver.isFinished

def status (m : Machine σ E H) : Status := m.driver.status

/-- Keep the handle of a request about to be shown. -/
def remember (m : Machine σ E H) (p : Pending) : Machine σ E H :=
  { m with
    neverShown := m.neverShown ++
      List.range' (m.highestShown + 1) (p.id - (m.highestShown + 1))
    highestShown := max m.highestShown p.id
    pending := m.pending ++ [(p.id, p)] }

def showEffects (split : E → V × Option Pending) (m : Machine σ E H) :
    List E → List (Shown V) × Machine σ E H
  | [] => ([], m)
  | effect :: rest =>
    let (view, pending) := split effect
    let (shown, m) := (pending.elim m m.remember).showEffects split rest
    (⟨view, pending.isSome⟩ :: shown, m)

/-- Forget the handles of requests the routine dropped unanswered. -/
def forget (m : Machine σ E H) (closed : List Nat) : Machine σ E H :=
  { m with pending := closed.foldl (fun pending id => pending.filter (·.1 ≠ id)) m.pending }

/-- Split a batch into what the host sees and the handles kept. `closed` comes after: a request
polled and dropped in the same step is in both. -/
def showYield (split : E → V × Option Pending) (m : Machine σ E H) (step : Yield E) :
    Yield (Shown V) × Machine σ E H :=
  let (shown, m) := m.showEffects split step.effects
  (⟨shown, step.closed⟩, m.forget step.closed)

def take (m : Machine σ E H) (id : Nat) : Except Error (Pending × Machine σ E H) :=
  if m.isFinished then .error .finished
  else
    let place := m.pending.findIdx (·.1 == id)
    match m.pending[place]? with
    | some (_, p) => .ok (p, { m with pending := Slice.swapRemove m.pending place })
    | none =>
      if id ≠ 0 ∧ id ≤ m.highestShown ∧ id ∉ m.neverShown then .error (.stale id)
      else .error .badInput

/-- Deliver, or put the request back and report the value malformed. -/
def deliver (r : Routine σ E H) (split : E → V × Option Pending) (m : Machine σ E H) (id : Nat)
    (reply : ReplyHandle) (value : Value) :
    Option (Except Error (Yield (Shown V)) × Machine σ E H) :=
  (m.driver.tryReply r reply value).map fun
    | (.ok effects, driver) =>
      let (shown, m) := { m with driver }.showYield split effects
      (.ok shown, m)
    | (.error refused, driver) =>
      (.error (.malformed refused.error),
        { m with
          driver, pending := m.pending ++ [(id, value.kind.intoPending refused.reply)] })

/-- `none` is a panic: the routine's, or a handle of another driver's. -/
def replyShown (r : Routine σ E H) (split : E → V × Option Pending) (m : Machine σ E H) (id : Nat)
    (value : Value) : Option (Except Error (Yield (Shown V)) × Machine σ E H) :=
  match m.take id with
  | .error error => some (.error error, m)
  | .ok (p, m) =>
    match value.kind.fromPending p with
    | .ok reply => m.deliver r split id reply value
    | .error p =>
      some (.error (.wrongKind id p.kind value.kind), { m with pending := m.pending ++ [(id, p)] })

def resumeShown (r : Routine σ E H) (split : E → V × Option Pending) (m : Machine σ E H) :
    Option (Except Error (Yield (Shown V)) × Machine σ E H) :=
  if m.isFinished then some (.error .finished, m)
  else (m.driver.poll r).map fun (effects, driver) =>
    let (shown, m) := { m with driver }.showYield split effects
    (.ok shown, m)

/-! ### The table of handles -/

/-- The table holds the handles of the requests shown that are not gone, and `highestShown` and
`neverShown` tell which ids were shown. -/
structure Tabled (m : Machine σ E H) (shown : List Pending) (gone : Nat → Prop) : Prop where
  nodup : (m.pending.map Prod.fst).Nodup
  pending : ∀ id p, (id, p) ∈ m.pending ↔ p ∈ shown ∧ p.id = id ∧ ¬ gone id
  shown : ∀ id, id ∈ shown.map Pending.id ↔ id ≠ 0 ∧ id ≤ m.highestShown ∧ id ∉ m.neverShown
  never : ∀ id ∈ m.neverShown, id < m.highestShown

theorem tabled_new (driver : Stepper σ E H) (gone : Nat → Prop) :
    (fromDriver driver).Tabled [] gone :=
  ⟨.nil, by simp [fromDriver], by simp [fromDriver], by simp [fromDriver]⟩

theorem Tabled.congr {m m' : Machine σ E H} {shown : List Pending} {gone gone' : Nat → Prop}
    (tabled : m.Tabled shown gone) (pending : m'.pending.Perm m.pending)
    (highest : m'.highestShown = m.highestShown) (never : m'.neverShown = m.neverShown)
    (same : ∀ id, gone' id ↔ gone id) : m'.Tabled shown gone' := by
  refine ⟨(pending.map _).nodup_iff.mpr tabled.nodup, fun id p => ?_, ?_, ?_⟩
  · rw [pending.mem_iff, tabled.pending, same]
  · rw [highest, never]
    exact tabled.shown
  · rw [highest, never]
    exact tabled.never

theorem Tabled.highest_shown {m : Machine σ E H} {shown : List Pending} {gone : Nat → Prop}
    (tabled : m.Tabled shown gone) (positive : m.highestShown ≠ 0) :
    m.highestShown ∈ shown.map Pending.id :=
  (tabled.shown _).mpr ⟨positive, Nat.le_refl _, fun member => Nat.lt_irrefl _
    (tabled.never _ member)⟩

/-- Showing a request whose id is above all shown before. -/
theorem Tabled.remember {m : Machine σ E H} {shown : List Pending} {gone : Nat → Prop}
    (tabled : m.Tabled shown gone) (p : Pending) (positive : 0 < p.id)
    (above : ∀ id ∈ shown.map Pending.id, id < p.id) (here : ¬ gone p.id) :
    (m.remember p).Tabled (shown ++ [p]) gone := by
  have higher : m.highestShown < p.id := by
    by_cases zero : m.highestShown = 0
    · omega
    · exact above _ (tabled.highest_shown zero)
  have absent : p.id ∉ m.pending.map Prod.fst := by
    intro member
    obtain ⟨⟨id, q⟩, inside, same⟩ := List.mem_map.mp member
    obtain ⟨known, rfl, _⟩ := (tabled.pending id q).mp inside
    have := above q.id (List.mem_map_of_mem known)
    simp only at same
    omega
  refine ⟨?_, fun id q => ?_, fun id => ?_, fun id member => ?_⟩
  -- an id above every other is not in the table
  · show ((m.pending ++ [(p.id, p)]).map Prod.fst).Nodup
    rw [List.map_append, List.nodup_append]
    refine ⟨tabled.nodup, by simp, ?_⟩
    rintro id member _ single rfl
    obtain rfl : id = p.id := by simpa using single
    exact absent member
  · show (id, q) ∈ m.pending ++ [(p.id, p)] ↔ _
    rw [List.mem_append, List.mem_append, tabled.pending, List.mem_singleton, List.mem_singleton,
      Prod.mk.injEq]
    constructor
    · rintro (⟨known, same, there⟩ | ⟨rfl, rfl⟩)
      · exact ⟨.inl known, same, there⟩
      · exact ⟨.inr rfl, rfl, here⟩
    · rintro ⟨known | rfl, same, there⟩
      · exact .inl ⟨known, same, there⟩
      · exact .inr ⟨same.symm, rfl⟩
  · have before := tabled.shown id
    simp only [Machine.remember, List.map_append, List.map_cons, List.map_nil, List.mem_append,
      List.mem_singleton, List.mem_range'_1]
    -- the ids skipped on the way are never shown
    rw [before]
    constructor
    · rintro (⟨nonzero, low, unseen⟩ | rfl)
      · refine ⟨nonzero, by omega, ?_⟩
        rintro (seen | ⟨_, _⟩)
        · exact unseen seen
        · omega
      · refine ⟨by omega, by omega, ?_⟩
        rintro (seen | ⟨_, _⟩)
        · have := tabled.never _ seen
          omega
        · omega
    · rintro ⟨nonzero, low, unseen⟩
      by_cases old : id ≤ m.highestShown
      · exact .inl ⟨nonzero, old, fun seen => unseen (.inl seen)⟩
      · right
        by_contra other
        exact unseen (.inr ⟨by omega, by omega⟩)
  · simp only [Machine.remember, List.mem_append, List.mem_range'_1] at member ⊢
    rcases member with seen | ⟨_, _⟩
    · have := tabled.never _ seen
      omega
    · omega

/-- The handles a batch of effects carries. -/
def handles (split : E → V × Option Pending) (effects : List E) : List Pending :=
  effects.filterMap fun effect => (split effect).2

@[simp] theorem showEffects_driver (split : E → V × Option Pending) (m : Machine σ E H)
    (effects : List E) : (m.showEffects split effects).2.driver = m.driver := by
  induction effects generalizing m with
  | nil => rfl
  | cons effect rest ih =>
    rw [Machine.showEffects]
    obtain ⟨view, carried⟩ := split effect
    cases carried with
    | none => exact ih m
    | some p => exact ih (m.remember p)

@[simp] theorem showYield_driver (split : E → V × Option Pending) (m : Machine σ E H)
    (step : Yield E) : (m.showYield split step).2.driver = m.driver :=
  showEffects_driver split m step.effects

theorem take_driver {m m' : Machine σ E H} {id : Nat} {p : Pending}
    (taken : m.take id = .ok (p, m')) : m'.driver = m.driver := by
  unfold Machine.take at taken
  split at taken
  · cases taken
  · simp only at taken
    split at taken
    · cases taken
      rfl
    · split at taken <;> cases taken

theorem Tabled.showEffects {split : E → V × Option Pending} {gone : Nat → Prop} (effects : List E)
    {m : Machine σ E H} {shown : List Pending} (tabled : m.Tabled shown gone)
    (sorted : ((shown ++ handles split effects).map Pending.id).Pairwise (· < ·))
    (fresh : ∀ p ∈ handles split effects, 0 < p.id ∧ ¬ gone p.id) :
    (m.showEffects split effects).2.Tabled (shown ++ handles split effects) gone := by
  induction effects generalizing m shown with
  | nil => exact (List.append_nil shown).symm ▸ tabled
  | cons effect rest ih =>
    unfold Machine.showEffects
    cases carried : (split effect).2 with
    | none =>
      have same : handles split (effect :: rest) = handles split rest := by
        simp [handles, carried]
      rw [same] at sorted fresh ⊢
      simp only [carried, Option.elim]
      exact ih tabled sorted fresh
    | some p =>
      have more : handles split (effect :: rest) = p :: handles split rest := by
        simp [handles, carried]
      rw [more] at sorted fresh ⊢
      simp only [carried, Option.elim]
      obtain ⟨positive, here⟩ := fresh p List.mem_cons_self
      have above : ∀ id ∈ shown.map Pending.id, id < p.id := by
        rw [List.map_append, List.pairwise_append] at sorted
        exact fun id member => sorted.2.2 id member p.id (by simp)
      have next := tabled.remember p positive above here
      rw [List.append_cons] at sorted ⊢
      exact ih next sorted fun q member => fresh q (List.mem_cons_of_mem _ member)

private theorem mem_foldl_filter (closed : List Nat) (pending : List (Nat × Pending))
    (entry : Nat × Pending) :
    entry ∈ closed.foldl (fun pending id => pending.filter (·.1 ≠ id)) pending ↔
      entry ∈ pending ∧ entry.1 ∉ closed := by
  induction closed generalizing pending with
  | nil => simp
  | cons id closed ih =>
    rw [List.foldl_cons, ih, List.mem_filter, List.mem_cons, not_or, and_assoc]
    simp

private theorem foldl_filter_sublist (closed : List Nat) (pending : List (Nat × Pending)) :
    (closed.foldl (fun pending id => pending.filter (·.1 ≠ id)) pending).Sublist pending := by
  induction closed generalizing pending with
  | nil => exact .refl _
  | cons id closed ih => exact (ih _).trans List.filter_sublist

theorem Tabled.forget {m : Machine σ E H} {shown : List Pending} {gone : Nat → Prop}
    (tabled : m.Tabled shown gone) (closed : List Nat) :
    (m.forget closed).Tabled shown fun id => gone id ∨ id ∈ closed := by
  refine ⟨?_, fun id p => ?_, tabled.shown, tabled.never⟩
  · exact tabled.nodup.sublist ((foldl_filter_sublist closed m.pending).map _)
  · show (id, p) ∈ closed.foldl _ m.pending ↔ _
    rw [mem_foldl_filter, tabled.pending]
    simp only [not_or, and_assoc]

/-- A yield shows the requests it carries and takes out those it closes. -/
theorem Tabled.showYield {split : E → V × Option Pending} {m : Machine σ E H}
    {shown : List Pending} {gone : Nat → Prop} (tabled : m.Tabled shown gone) (step : Yield E)
    (sorted : ((shown ++ handles split step.effects).map Pending.id).Pairwise (· < ·))
    (fresh : ∀ p ∈ handles split step.effects, 0 < p.id ∧ ¬ gone p.id) :
    (m.showYield split step).2.Tabled (shown ++ handles split step.effects)
      fun id => gone id ∨ id ∈ step.closed :=
  (tabled.showEffects step.effects sorted fresh).forget step.closed

theorem take_finished (m : Machine σ E H) (finished : m.isFinished = true) (id : Nat) :
    m.take id = .error .finished := by
  unfold Machine.take
  exact if_pos finished

theorem take_spec (m : Machine σ E H) (unfinished : m.isFinished = false) (id : Nat) :
    (∃ p m', m.take id = .ok (p, m') ∧ ((id, p) :: m'.pending).Perm m.pending ∧
      m'.driver = m.driver ∧ m'.highestShown = m.highestShown ∧ m'.neverShown = m.neverShown) ∨
    ((∀ p, (id, p) ∉ m.pending) ∧ m.take id =
      if id ≠ 0 ∧ id ≤ m.highestShown ∧ id ∉ m.neverShown then .error (.stale id)
      else .error .badInput) := by
  unfold Machine.take
  rw [unfinished]
  simp only [Bool.false_eq_true, if_false]
  cases entry : m.pending[m.pending.findIdx (·.1 == id)]? with
  | some found =>
    obtain ⟨other, p⟩ := found
    obtain ⟨bound, element⟩ := List.getElem?_eq_some_iff.mp entry
    have same : other = id := by
      have := List.findIdx_getElem (w := bound)
      rw [element] at this
      simpa using this
    subst same
    exact .inl ⟨p, _, rfl, Slice.swapRemove_perm _ _ _ entry, rfl, rfl, rfl⟩
  | none =>
    refine .inr ⟨fun p member => ?_, rfl⟩
    have := List.findIdx_lt_length_of_exists
      (⟨(id, p), member, by simp⟩ : ∃ x ∈ m.pending, (x.1 == id) = true)
    rw [List.getElem?_eq_none_iff] at entry
    omega

/-- Taking a handle out: it is there, or it was and is gone, or it never was. -/
theorem Tabled.take_cases {m : Machine σ E H} {shown : List Pending} {gone : Nat → Prop}
    (tabled : m.Tabled shown gone) (unfinished : m.isFinished = false) (id : Nat) :
    (∃ p m', m.take id = .ok (p, m') ∧ p ∈ shown ∧ p.id = id ∧ ¬ gone id ∧
      ((id, p) :: m'.pending).Perm m.pending ∧ m'.driver = m.driver ∧
      m'.highestShown = m.highestShown ∧ m'.neverShown = m.neverShown) ∨
    (m.take id = .error (.stale id) ∧ id ∈ shown.map Pending.id ∧ gone id) ∨
    (m.take id = .error .badInput ∧ id ∉ shown.map Pending.id) := by
  rcases m.take_spec unfinished id with ⟨p, m', taken, removed, same⟩ | ⟨absent, taken⟩
  · obtain ⟨known, own, here⟩ := (tabled.pending id p).mp (removed.subset List.mem_cons_self)
    exact .inl ⟨p, m', taken, known, own, here, removed, same⟩
  · right
    by_cases issued : id ≠ 0 ∧ id ≤ m.highestShown ∧ id ∉ m.neverShown
    · left
      have known := (tabled.shown id).mpr issued
      refine ⟨taken.trans (if_pos issued), known, ?_⟩
      obtain ⟨p, member, same⟩ := List.mem_map.mp known
      by_contra here
      exact absent p ((tabled.pending id p).mpr ⟨member, same, here⟩)
    · exact .inr ⟨taken.trans (if_neg issued), fun known => issued ((tabled.shown id).mp known)⟩

/-- A handle taken out and not put back. -/
theorem Tabled.taken {m m' : Machine σ E H} {shown : List Pending} {gone gone' : Nat → Prop}
    (tabled : m.Tabled shown gone) {id : Nat} {p : Pending}
    (removed : ((id, p) :: m'.pending).Perm m.pending) (highest : m'.highestShown = m.highestShown)
    (never : m'.neverShown = m.neverShown) (now : ∀ other, gone' other ↔ other = id ∨ gone other) :
    m'.Tabled shown gone' := by
  have nodup := (removed.map Prod.fst).nodup_iff.mpr tabled.nodup
  obtain ⟨absent, rest⟩ := List.nodup_cons.mp nodup
  refine ⟨rest, fun other q => ?_, ?_, ?_⟩
  · have before := tabled.pending other q
    rw [← removed.mem_iff, List.mem_cons] at before
    rw [now, not_or]
    constructor
    · intro member
      obtain ⟨known, same, here⟩ := before.mp (.inr member)
      refine ⟨known, same, ?_, here⟩
      rintro rfl
      exact absent (List.mem_map.mpr ⟨_, member, rfl⟩)
    · rintro ⟨known, same, away, here⟩
      rcases before.mpr ⟨known, same, here⟩ with equal | member
      · cases equal
        exact absurd rfl away
      · exact member
  · rw [highest, never]
    exact tabled.shown
  · rw [highest, never]
    exact tabled.never

theorem showEffects_pending (split : E → V × Option Pending) (m : Machine σ E H)
    (effects : List E) : (m.showEffects split effects).2.pending =
      m.pending ++ (handles split effects).map fun p => (p.id, p) := by
  induction effects generalizing m with
  | nil => exact (List.append_nil _).symm
  | cons effect rest ih =>
    rw [Machine.showEffects]
    cases carried : split effect with
    | mk view pending =>
      cases pending with
      | none =>
        have same : handles split (effect :: rest) = handles split rest := by
          simp [handles, carried]
        rw [same]
        exact ih m
      | some p =>
        have more : handles split (effect :: rest) = p :: handles split rest := by
          simp [handles, carried]
        rw [more, List.map_cons, List.append_cons]
        exact ih (m.remember p)

/-- A yield adds the handles it carries and no others. -/
theorem showYield_pending (split : E → V × Option Pending) (m : Machine σ E H) (step : Yield E) :
    (m.showYield split step).2.pending.Sublist
      (m.pending ++ (handles split step.effects).map fun p => (p.id, p)) := by
  rw [← showEffects_pending]
  exact foldl_filter_sublist step.closed _

/-! ### Machines alike -/

/-- The same machine, but for the order of its table. -/
structure Alike (m m' : Machine σ E H) : Prop where
  driver : m'.driver = m.driver
  pending : m'.pending.Perm m.pending
  highest : m'.highestShown = m.highestShown
  never : m'.neverShown = m.neverShown

theorem Alike.refl (m : Machine σ E H) : Alike m m := ⟨rfl, .refl _, rfl, rfl⟩

theorem Alike.symm {m m' : Machine σ E H} (alike : Alike m m') : Alike m' m :=
  ⟨alike.driver.symm, alike.pending.symm, alike.highest.symm, alike.never.symm⟩

theorem Alike.trans {a b c : Machine σ E H} (first : Alike a b) (second : Alike b c) : Alike a c :=
  ⟨second.driver.trans first.driver, second.pending.trans first.pending,
    second.highest.trans first.highest, second.never.trans first.never⟩

theorem Alike.isFinished {m m' : Machine σ E H} (alike : Alike m m') :
    m'.isFinished = m.isFinished := by
  unfold Machine.isFinished
  rw [alike.driver]

theorem Alike.remember {m m' : Machine σ E H} (alike : Alike m m') (p : Pending) :
    Alike (m.remember p) (m'.remember p) := by
  refine ⟨alike.driver, alike.pending.append_right _, ?_, ?_⟩
  · show max m'.highestShown p.id = max m.highestShown p.id
    rw [alike.highest]
  · show m'.neverShown ++ List.range' (m'.highestShown + 1) _ = _
    rw [alike.highest, alike.never]
    rfl

theorem Alike.showEffects (split : E → V × Option Pending) {m m' : Machine σ E H}
    (alike : Alike m m') (effects : List E) :
    (m'.showEffects split effects).1 = (m.showEffects split effects).1 ∧
      Alike (m.showEffects split effects).2 (m'.showEffects split effects).2 := by
  induction effects generalizing m m' with
  | nil => exact ⟨rfl, alike⟩
  | cons effect rest ih =>
    rw [Machine.showEffects, Machine.showEffects]
    obtain ⟨view, carried⟩ := split effect
    cases carried with
    | none =>
      obtain ⟨same, alike⟩ := ih alike
      exact ⟨congrArg (_ :: ·) same, alike⟩
    | some p =>
      obtain ⟨same, alike⟩ := ih (alike.remember p)
      exact ⟨congrArg (_ :: ·) same, alike⟩

private theorem foldl_filter_perm (closed : List Nat) {pending pending' : List (Nat × Pending)}
    (perm : pending'.Perm pending) :
    (closed.foldl (fun pending id => pending.filter (·.1 ≠ id)) pending').Perm
      (closed.foldl (fun pending id => pending.filter (·.1 ≠ id)) pending) := by
  induction closed generalizing pending pending' with
  | nil => exact perm
  | cons id closed ih => exact ih (perm.filter _)

theorem Alike.showYield {split : E → V × Option Pending} {m m' : Machine σ E H}
    (alike : Alike m m') (step : Yield E) :
    (m'.showYield split step).1 = (m.showYield split step).1 ∧
      Alike (m.showYield split step).2 (m'.showYield split step).2 := by
  obtain ⟨same, alike⟩ := alike.showEffects split step.effects
  refine ⟨congrArg (Yield.mk · step.closed) same, alike.driver, ?_, alike.highest, alike.never⟩
  exact foldl_filter_perm step.closed alike.pending

/-- Machines alike find the same handle, if a table has one entry for each id. -/
theorem Alike.take {m m' : Machine σ E H} (alike : Alike m m')
    (distinct : (m.pending.map Prod.fst).Nodup) (id : Nat) :
    (∃ p n n', m.take id = .ok (p, n) ∧ m'.take id = .ok (p, n') ∧ Alike n n' ∧
      ((id, p) :: n.pending).Perm m.pending) ∨
    ∃ error, m.take id = .error error ∧ m'.take id = .error error := by
  cases finished : m.isFinished with
  | true =>
    right
    exact ⟨.finished, m.take_finished finished id,
      m'.take_finished (alike.isFinished.trans finished) id⟩
  | false =>
    have finished' := alike.isFinished.trans finished
    rcases m.take_spec finished id with ⟨p, n, taken, removed, driver, highest, never⟩ |
      ⟨absent, taken⟩
    · have there : (id, p) ∈ m'.pending :=
        alike.pending.symm.subset (removed.subset List.mem_cons_self)
      rcases m'.take_spec finished' id with ⟨q, n', taken', removed', driver', highest', never'⟩ |
        ⟨absent', _⟩
      · have whole := removed'.trans (alike.pending.trans removed.symm)
        have same : q = p := by
          have inside : (id, q) ∈ m.pending :=
            removed.subset (whole.subset List.mem_cons_self)
          have := List.inj_on_of_nodup_map distinct inside (removed.subset List.mem_cons_self) rfl
          exact (Prod.mk.inj this).2
        subst same
        refine .inl ⟨q, n, n', taken, taken', ⟨?_, whole.cons_inv, ?_, ?_⟩, removed⟩
        · rw [driver', alike.driver, driver]
        · rw [highest', alike.highest, highest]
        · rw [never', alike.never, never]
      · exact absurd there (absent' p)
    · have absent' : ∀ p, (id, p) ∉ m'.pending := fun p there =>
        absent p (alike.pending.subset there)
      rcases m'.take_spec finished' id with ⟨q, _, _, removed', _⟩ | ⟨_, taken'⟩
      · exact absurd (removed'.subset List.mem_cons_self) (absent' q)
      · rw [alike.highest, alike.never] at taken'
        right
        by_cases issued : id ≠ 0 ∧ id ≤ m.highestShown ∧ id ∉ m.neverShown
        · exact ⟨.stale id, taken.trans (if_pos issued), taken'.trans (if_pos issued)⟩
        · exact ⟨.badInput, taken.trans (if_neg issued), taken'.trans (if_neg issued)⟩

/-! ### Refusals restore the machine -/

/-- A refused reply was not delivered, and its handle is back in the table. -/
theorem replyShown_refused (r : Routine σ E H) (split : E → V × Option Pending)
    {m m' : Machine σ E H} (kept : m.driver.outbox.Kept) {id : Nat} {value : Value} {error : Error}
    (refused : m.replyShown r split id value = some (.error error, m')) : Alike m m' := by
  cases finished : m.isFinished with
  -- a finished machine has no such request
  | true =>
    unfold Machine.replyShown at refused
    rw [m.take_finished finished id] at refused
    cases refused
    exact .refl m
  | false =>
    unfold Machine.replyShown at refused
    rcases m.take_spec finished id with ⟨p, n, taken, removed, driver, highest, never⟩ |
      ⟨_, taken⟩
    · rw [taken] at refused
      -- the handle taken is put back last, where it was in the table before
      have back : ∀ q, q = p → (n.pending ++ [(id, q)]).Perm m.pending := by
        rintro q rfl
        exact List.perm_append_comm.trans removed
      simp only at refused
      cases unwrapped : value.kind.fromPending p with
      -- the value is of another kind
      | error q =>
        rw [unwrapped] at refused
        cases refused
        have same : q = p := by
          cases kind : value.kind <;> cases p <;> rw [kind] at unwrapped <;> cases unwrapped <;> rfl
        exact ⟨driver, back q same, highest, never⟩
      | ok reply =>
        rw [unwrapped] at refused
        obtain ⟨⟨outcome, after⟩, tried, same⟩ := Option.map_eq_some_iff.mp refused
        cases outcome with
        | ok yielded => cases same
        | error given =>
          -- the stepper refuses it, and hands it back
          obtain ⟨handle, unchanged⟩ := Stepper.tryReply_refused r (driver ▸ kept) tried
          cases same
          have wrapped : value.kind.intoPending given.reply = p := by
            rw [handle]
            cases kind : value.kind <;> cases p <;> rw [kind] at unwrapped <;> cases unwrapped <;>
              rfl
          exact ⟨unchanged.trans driver, back _ wrapped, highest, never⟩
    · rw [taken] at refused
      split at refused
      · cases refused
        exact .refl m
      · next same =>
        split at same <;> cases same

theorem resumeShown_refused (r : Routine σ E H) (split : E → V × Option Pending)
    {m m' : Machine σ E H} {error : Error}
    (refused : m.resumeShown r split = some (.error error, m')) : m' = m := by
  unfold Machine.resumeShown at refused
  split at refused
  · cases refused
    rfl
  · obtain ⟨_, _, same⟩ := Option.map_eq_some_iff.mp refused
    cases same

end Machine

end SansEffort
