import SansEffort.Process

/-!
# The upkeep of the maps

A pinned machine goes from `parked` to `pinned` and then to its thread's own table, with its
constructor between the two; a free, a panic and a call made by the code that runs each undo part
of that. In which runs the maps and the threads' tables come to agree again. Where the destructor of
a panic's payload panics, nothing is undone: the machine stays, with its lock poisoned.
-/

namespace SansEffort

/-- The machine is no longer in any map, and its call is about to return. -/
def Layer.ends (who : Who) : Layer → Bool
  | .refused _ w => w = who
  | .removed _ w => w = who
  | .leaving w exit => (exit = .panicked || exit = .poisoned) && w = who
  | .freeing w => w = who
  | _ => false

namespace Process

variable {T : Type}

/-- The machine was freed, or a call on it panicked. -/
def Gone (p : Process T) (who : Who) : Prop :=
  .freed who ∈ p.history ∨ .failed who ∈ p.history ∨ Stacks.Somewhere (Layer.ends who) p.stack

/-- No map has the machine. -/
structure Absent (p : Process T) (who : Who) : Prop where
  machines : p.machines who.handle ≠ some who
  parked : p.parked who.handle ≠ some who
  locals : ∀ t, p.locals t who.handle ≠ some who
  pinned : p.issued who.handle = who → p.pinned who.handle = none

/-- A thread that has to do with the last machine of a handle, one that is pinned, owns it. -/
def Started (p : Process T) (t : T) (who : Who) : Prop :=
  p.issued who.handle = who → who.pinned = true →
    p.parked who.handle = none ∧ (p.pinned who.handle = none ∨ p.pinned who.handle = some t)

/-- Each started machine is in its thread's table or about to be, and in no other. -/
structure Kept (p : Process T) : Prop where
  locals : ∀ t handle who, p.locals t handle = some who →
    p.pinned handle = some t ∧ who = p.issued handle
  pinned : ∀ handle t, p.pinned handle = some t → (p.issued handle).pinned = true ∧
    (p.locals t handle = some (p.issued handle) ∨ .building (p.issued handle) ∈ p.stack t)
  building : ∀ t who, .building who ∈ p.stack t → ∀ u, p.locals u who.handle ≠ some who
  started : ∀ t, ∀ layer ∈ p.stack t, ∀ who, layer.entry = some who → p.Started t who
  gone : ∀ who, p.Gone who → p.Absent who

theorem kept_new : (new : Process T).Kept := by
  constructor
  · intro t handle who there
    cases there
  · intro handle t there
    cases there
  · intro t who member
    cases member
  · intro t layer member
    cases member
  · rintro who (member | member | ⟨_, _, member, _⟩)
    all_goals cases member

variable {p after : Process T}

theorem Gone.known (stacked : p.Stacked) {who : Who} (gone : p.Gone who) : p.Known who := by
  rcases gone with member | member | ⟨t, layer, member, ends⟩
  · exact stacked.history _ member
  · exact stacked.history _ member
  · have fits := stacked.layers t layer member
    cases layer <;> simp only [Layer.ends, Bool.and_eq_true, decide_eq_true_eq,
      Bool.false_eq_true] at ends
    case refused handle w => exact ends ▸ fits.2.2
    case removed handle w => exact ends ▸ fits.2.2
    case leaving w exit => exact ends.2 ▸ fits.2
    case freeing w => exact ends ▸ fits

/-- Entries taken out. -/
theorem Absent.fewer {who : Who} (absent : p.Absent who)
    (machines : ∀ handle w, after.machines handle = some w → p.machines handle = some w)
    (parked : ∀ handle w, after.parked handle = some w → p.parked handle = some w)
    (locals : ∀ t handle w, after.locals t handle = some w → p.locals t handle = some w)
    (pinned : ∀ handle, p.pinned handle = none → after.pinned handle = none)
    (issued : after.issued = p.issued) : after.Absent who := by
  constructor
  · intro there
    exact absent.machines (machines _ _ there)
  · intro there
    exact absent.parked (parked _ _ there)
  · intro t there
    exact absent.locals t (locals _ _ _ there)
  · intro own
    rw [issued] at own
    exact pinned _ (absent.pinned own)

/-- A machine that migrates is in `machines` or in no map. -/
theorem Kept.migrates (kept : p.Kept) (placed : p.Placed) {who : Who}
    (migrating : who.pinned = false) : p.parked who.handle ≠ some who ∧ (∀ t, p.locals t who.handle ≠ some who) ∧
      (p.issued who.handle = who → p.pinned who.handle = none) := by
  refine ⟨fun there => ?_, fun t there => ?_, fun last => ?_⟩
  · have kind := (placed.parked _ _ there).2
    simp [migrating] at kind
  · have kind := (placed.locals t _ _ there).2.1
    simp [migrating] at kind
  · by_contra owned
    obtain ⟨t, mine⟩ := Option.ne_none_iff_exists'.mp owned
    have kind := (kept.pinned _ t mine).1
    rw [last, migrating] at kind
    cases kind

section

variable [DecidableEq T]

/-- Every step is tidy but these: a constructor returns a machine that was freed meanwhile; a pinned
machine's constructor or call panics when its handle has been issued again; or a call takes a poisoned
lock, and its machine is in the table. -/
def tidy (p : Process T) : T × Deed → Bool
  | (t, .built) =>
    match p.stack t with
    | .building who :: _ => p.pinned who.handle = some t && p.issued who.handle = who
    | _ => true
  | (t, .buildPanicked) =>
    match p.stack t with
    | .building who :: _ => p.issued who.handle = who
    | _ => true
  | (t, .remove) =>
    match p.stack t with
    | .caught handle who :: _ => !who.pinned || p.issued handle = who
    | _ => true
  | (t, .tryLock) =>
    match p.stack t with
    | .found handle who :: _ =>
      p.locked who || who.pinned || !p.poisoned who || p.machines handle ≠ some who
    | _ => true
  | _ => true

/-- The maps stay as they are, and the thread's stack loses or gains nothing that matters. -/
theorem Kept.idle {t : T} {layers : List Layer} (kept : p.Kept)
    (maps : after.machines = p.machines ∧ after.parked = p.parked ∧ after.pinned = p.pinned ∧
      after.locals = p.locals ∧ after.issued = p.issued)
    (stack : after.stack = Function.update p.stack t layers)
    (building : ∀ who, .building who ∈ layers ↔ .building who ∈ p.stack t)
    (entries : ∀ layer ∈ layers, ∀ who, layer.entry = some who →
      (∃ other ∈ p.stack t, other.entry = some who) ∨ p.Started t who)
    (gone : ∀ who, after.Gone who → p.Gone who ∨ p.Absent who) : after.Kept := by
  obtain ⟨machines, parked, pinned, locals, issued⟩ := maps
  -- only the stack of `t` changes, and no constructor in it
  have built : ∀ u who, .building who ∈ after.stack u ↔ .building who ∈ p.stack u := by
    intro u who
    rw [stack]
    by_cases own : u = t
    · subst own
      rw [Function.update_self]
      exact building who
    · rw [Function.update_of_ne own]
  constructor
  case locals =>
    rw [locals, pinned, issued]
    exact kept.locals
  case pinned =>
    intro handle u there
    rw [pinned] at there
    rw [issued, locals, built]
    exact kept.pinned handle u there
  case building =>
    intro u who member v
    rw [built] at member
    rw [locals]
    exact kept.building u who member v
  case started =>
    intro u layer member who entry
    rw [Started, issued, parked, pinned]
    rw [stack] at member
    by_cases own : u = t
    · subst own
      rw [Function.update_self] at member
      rcases entries layer member who entry with ⟨other, before, same⟩ | started
      · exact kept.started u other before who same
      · exact started
    · rw [Function.update_of_ne own] at member
      exact kept.started u layer member who entry
  case gone =>
    intro who ended
    have absent : p.Absent who := (gone who ended).elim (kept.gone who) id
    apply absent.fewer
    · simp [machines]
    · simp [parked]
    · simp [locals]
    · simp [pinned]
    · exact issued

/-- What is gone after a step was gone before it, or is what the step ends. -/
theorem gone_cases {t : T} {layers : List Layer} (New : Who → Prop)
    (stack : after.stack = Function.update p.stack t layers)
    (told : ∀ who, .freed who ∈ after.history ∨ .failed who ∈ after.history →
      p.Gone who ∨ New who)
    (ends : ∀ layer ∈ layers, ∀ who, layer.ends who = true → layer ∈ p.stack t ∨ p.Gone who ∨ New who)
    {who : Who} (gone : after.Gone who) : p.Gone who ∨ New who := by
  rcases gone with member | member | ⟨u, layer, member, ended⟩
  · exact told who (.inl member)
  · exact told who (.inr member)
  · rw [stack] at member
    by_cases own : u = t
    · subst own
      rw [Function.update_self] at member
      rcases ends layer member who ended with before | cases
      · exact .inl (.inr (.inr ⟨u, layer, before, ended⟩))
      · exact cases
    · rw [Function.update_of_ne own] at member
      exact .inl (.inr (.inr ⟨u, layer, member, ended⟩))

/-- A thread replaces its innermost layer by one for the same machine, or by none. -/
theorem Kept.turns {t : T} {layer : Layer} {rest layers : List Layer} (kept : p.Kept)
    (maps : after.machines = p.machines ∧ after.parked = p.parked ∧ after.pinned = p.pinned ∧
      after.locals = p.locals ∧ after.issued = p.issued)
    (top : p.stack t = layer :: rest) (stack : after.stack = Function.update p.stack t layers)
    (building : ∀ who, layer ≠ .building who)
    (shape : layers = rest ∨ ∃ other, layers = other :: rest ∧ (∀ who, other ≠ .building who) ∧
      (∀ who, other.entry = some who → layer.entry = some who ∨ p.Started t who) ∧
      ∀ who, other.ends who = true → layer.ends who = true ∨ p.Absent who)
    (told : ∀ who, .freed who ∈ after.history ∨ .failed who ∈ after.history →
      (.freed who ∈ p.history ∨ .failed who ∈ p.history) ∨ layer.ends who = true) :
    after.Kept := by
  -- the layer that goes counted its machine as gone already
  have ended : ∀ who, layer.ends who = true → p.Gone who :=
    fun who ends => .inr (.inr ⟨t, layer, by simp [top], ends⟩)
  apply kept.idle maps stack
  · intro who
    rcases shape with rfl | ⟨other, rfl, fine, _⟩
    · simp [top, (building who).symm]
    · simp [top, (building who).symm, (fine who).symm]
  · intro l member who entry
    rcases shape with rfl | ⟨other, rfl, _, same, _⟩
    · exact .inl ⟨l, by simp [top, member], entry⟩
    · rcases List.mem_cons.mp member with rfl | member
      · rcases same who entry with before | started
        · exact .inl ⟨layer, by simp [top], before⟩
        · exact .inr started
      · exact .inl ⟨l, by simp [top, member], entry⟩
  · intro who gone
    -- what is told now, or ended by the new layer, was gone with the old one
    refine gone_cases p.Absent stack ?_ ?_ gone
    · intro w member
      rcases told w member with (freed | failed) | ends
      · exact .inl (.inl freed)
      · exact .inl (.inr (.inl failed))
      · exact .inl (ended w ends)
    · intro l member w ends
      rcases shape with rfl | ⟨other, rfl, _, _, same⟩
      · exact .inl (by simp [top, member])
      · rcases List.mem_cons.mp member with rfl | member
        · exact .inr ((same w ends).imp_left (ended w))
        · exact .inl (by simp [top, member])

theorem Kept.push (kept : p.Kept) (t : T) (handle : Nat) :
    (p.put t (.finding handle :: p.stack t)).Kept := by
  refine kept.idle ⟨rfl, rfl, rfl, rfl, rfl⟩ rfl ?_ ?_ ?_
  · intro who
    simp
  · intro layer member who entry
    rcases List.mem_cons.mp member with rfl | member
    · cases entry
    · exact .inl ⟨layer, member, entry⟩
  · intro who gone
    refine gone_cases p.Absent rfl ?_ ?_ gone
    · intro w member
      exact .inl (member.elim .inl (.inr ∘ .inl))
    · intro layer member w ends
      rcases List.mem_cons.mp member with rfl | member
      · cases ends
      · exact .inl member

/-- A found machine is started, where it is pinned. -/
theorem Placed.found_started (placed : p.Placed) {t : T} {handle : Nat} {who : Who}
    (found : p.find t handle = .ok who) : p.Started t who := by
  obtain ⟨rfl, _, there | ⟨_, pinned⟩⟩ := placed.find found
  · intro _ kind
    have migrating := (placed.machines _ _ there).2
    simp [migrating] at kind
  · intro _ _
    refine ⟨?_, .inr pinned⟩
    by_contra parked
    have unpinned := placed.exclusive.parked who.handle (Option.isSome_iff_ne_none.mpr parked)
    simp [Process.table, pinned] at unpinned

theorem Kept.create (kept : p.Kept) (stacked : p.Stacked) {t : T} {pinned : Bool}
    (created : p.create t pinned = some after) : after.Kept := by
  obtain ⟨fresh, next, reissue, unused, rfl⟩ := create_spec created
  obtain ⟨noMachine, notParked, notPinned⟩ := unused_maps unused
  constructor
  -- every other handle is as it was, and the maps had nothing under the fresh one
  case locals =>
    intro u handle who there
    obtain ⟨owned, last⟩ := kept.locals u handle who there
    have other : handle ≠ fresh := by
      rintro rfl
      simp [notPinned] at owned
    exact ⟨owned, by simpa [Function.update_of_ne other] using last⟩
  case pinned =>
    intro handle u there
    have other : handle ≠ fresh := by
      rintro rfl
      simp [notPinned] at there
    simpa [Function.update_of_ne other] using kept.pinned handle u there
  case building => exact kept.building
  case started =>
    intro u layer member who entry own kind
    -- a call in progress is for a machine known before, so not for the new one
    have known : p.Known who := by
      apply known_of_entry stacked member entry
    have other : who.handle ≠ fresh := by
      intro same
      simp only [same, Function.update_self] at own
      exact known_earlier known own.symm
    simp only [Function.update_of_ne other] at own
    obtain ⟨parked, owned⟩ := kept.started u layer member who entry own kind
    refine ⟨?_, owned⟩
    cases pinned <;> simpa [Function.update_of_ne other] using parked
  case gone =>
    intro who gone
    have before : p.Gone who := gone
    have known := before.known stacked
    have absent := kept.gone who before
    by_cases own : who.handle = fresh
    -- whoever was under the handle before is of an earlier turn
    · have newer : ∀ pinned, ¬ (⟨fresh, (p.issued fresh).turn + 1, pinned⟩ : Who) = who :=
        fun pinned same => known_earlier known same.symm
      constructor
      · intro there
        cases pinned
        · simp [own] at there
          exact newer _ there
        · exact absent.machines there
      · intro there
        cases pinned
        · exact absent.parked there
        · simp [own] at there
          exact newer _ there
      · exact absent.locals
      · intro last
        simp only [own, Function.update_self] at last
        exact absurd last (newer _)
    · constructor
      · intro there
        apply absent.machines
        cases pinned <;> simpa [Function.update_of_ne own] using there
      · intro there
        apply absent.parked
        cases pinned <;> simpa [Function.update_of_ne own] using there
      · exact absent.locals
      · intro last
        simp only [Function.update_of_ne own] at last
        exact absent.pinned last

/-- A parked machine is started: its handle is the thread's. -/
theorem Kept.start (kept : p.Kept) (placed : p.Placed) {t : T} {handle : Nat} {who : Who}
    (there : p.parked handle = some who) :
    ({ p with
      parked := Function.update p.parked handle none
      pinned := Function.update p.pinned handle (some t) }.put t
      (.building who :: p.stack t)).Kept := by
  obtain ⟨last, kind⟩ := placed.parked handle who there
  obtain ⟨own, _⟩ := placed.parked_known there
  have notPinned : p.pinned handle = none := by
    have unpinned := placed.exclusive.parked handle (by simp [Process.table, there])
    simpa [Process.table] using unpinned
  constructor
  case locals =>
    intro u h w local'
    obtain ⟨owned, current⟩ := kept.locals u h w local'
    have other : h ≠ handle := by
      rintro rfl
      simp [notPinned] at owned
    exact ⟨by simpa [Process.put, Function.update_of_ne other] using owned, current⟩
  case pinned =>
    intro h u owned
    by_cases here : h = handle
    · subst here
      simp only [Process.put, Function.update_self, Option.some.injEq] at owned
      subst owned
      refine ⟨last ▸ kind, .inr ?_⟩
      simp [Process.put, last]
    · simp only [Process.put, Function.update_of_ne here] at owned
      obtain ⟨pinned, tabled | building⟩ := kept.pinned h u owned
      · exact ⟨pinned, .inl tabled⟩
      · refine ⟨pinned, .inr ?_⟩
        by_cases thread : u = t
        · subst thread
          simp [Process.put, building]
        · simpa [Process.put, Function.update_of_ne thread] using building
  case building =>
    intro u w member v
    have untabled : p.locals v who.handle ≠ some who := by
      intro tabled
      have owned := (kept.locals v _ _ tabled).1
      rw [own, notPinned] at owned
      cases owned
    by_cases thread : u = t
    · subst thread
      simp only [Process.put, Function.update_self, List.mem_cons, Layer.building.injEq] at member
      rcases member with rfl | member
      · exact untabled
      · exact kept.building u w member v
    · simp only [Process.put, Function.update_of_ne thread] at member
      exact kept.building u w member v
  case started =>
    intro u layer member w entry current pinned
    have before : layer ∈ p.stack u ∨ u = t ∧ layer = .building who := by
      by_cases thread : u = t
      · subst thread
        simp only [Process.put, Function.update_self, List.mem_cons] at member
        exact member.elim (fun new => .inr ⟨rfl, new⟩) .inl
      · simp only [Process.put, Function.update_of_ne thread] at member
        exact .inl member
    rcases before with old | ⟨rfl, rfl⟩
    · obtain ⟨parked, owned⟩ := kept.started u layer old w entry current pinned
      have other : w.handle ≠ handle := by
        intro same
        rw [same, there] at parked
        cases parked
      simpa [Process.put, Function.update_of_ne other] using And.intro parked owned
    · cases entry
      simp [Process.put, own]
  case gone =>
    intro w gone
    have before : p.Gone w := by
      have cases : p.Gone w ∨ False := by
        refine gone_cases (fun _ => False) rfl (fun _ member => .inl ?_) ?_ gone
        · exact member.elim .inl (.inr ∘ .inl)
        · intro layer member x ends
          rcases List.mem_cons.mp member with rfl | member
          · cases ends
          · exact .inl member
      exact cases.elim id False.elim
    have absent := kept.gone w before
    constructor
    · exact absent.machines
    · intro parked
      exact absent.parked (Thread.of_update_none parked)
    · exact absent.locals
    · intro current
      have other : w.handle ≠ handle := by
        intro same
        -- it would be the parked machine itself
        have itself : w = who := by rw [last, ← same]; exact current.symm
        rw [itself] at absent
        exact absent.parked (by rw [own]; exact there)
      simpa [Process.put, Function.update_of_ne other] using absent.pinned current

theorem mem_pushed {t u : T} {layer new : Layer}
    (member : layer ∈ Function.update p.stack t (new :: p.stack t) u) :
    layer ∈ p.stack u ∨ u = t ∧ layer = new := by
  by_cases thread : u = t
  · subst thread
    rw [Function.update_self] at member
    exact (List.mem_cons.mp member).elim (fun new => .inr ⟨rfl, new⟩) .inl
  · rw [Function.update_of_ne thread] at member
    exact .inl member

theorem building_pushed {t u : T} {new : Layer} {who : Who} (member : .building who ∈ p.stack u) :
    .building who ∈ Function.update p.stack t (new :: p.stack t) u := by
  by_cases thread : u = t
  · subst thread
    simp [member]
  · simpa [Function.update_of_ne thread] using member

/-- What is gone once a machine is freed was gone before, or is that machine. -/
theorem gone_freed {t : T} {freed who : Who} (gone : after.Gone who)
    (history : after.history = p.history)
    (stack : after.stack = Function.update p.stack t (.freeing freed :: p.stack t)) :
    p.Gone who ∨ who = freed := by
  refine gone_cases (· = freed) stack ?_ ?_ gone
  · intro w member
    rw [history] at member
    exact .inl (member.elim .inl (.inr ∘ .inl))
  · intro layer member w ends
    rcases List.mem_cons.mp member with rfl | member
    · exact .inr (.inr (by simpa [Layer.ends, eq_comm] using ends))
    · exact .inl member

/-- A machine of the table or a parked one is freed: no thread has anything under its handle. -/
theorem Kept.freeTabled (kept : p.Kept) (placed : p.Placed) (t : T) {handle : Nat}
    (there : (p.machines handle).isSome ∨ (p.parked handle).isSome) :
    ({ p with
      machines := Function.update p.machines handle none
      parked := Function.update p.parked handle none }.put t
      (.freeing (p.issued handle) :: p.stack t)).Kept := by
  have own := placed.issued handle
  -- a handle is in one map at most, so it is in no thread's own
  have notPinned : p.pinned handle = none := by
    have unpinned : p.table.pinned handle = false := by
      rcases there with there | there
      · exact (placed.exclusive.machines handle there).2
      · exact placed.exclusive.parked handle there
    simpa [Process.table] using unpinned
  constructor
  case locals => exact kept.locals
  case pinned =>
    intro h u owned
    obtain ⟨pinned, tabled | built⟩ := kept.pinned h u owned
    · exact ⟨pinned, .inl tabled⟩
    · exact ⟨pinned, .inr (building_pushed built)⟩
  case building =>
    intro u who member v
    rcases mem_pushed member with old | ⟨_, new⟩
    · exact kept.building u who old v
    · cases new
  case started =>
    intro u layer member who entry current kind
    rcases mem_pushed member with old | ⟨rfl, rfl⟩
    · obtain ⟨parked, owned⟩ := kept.started u layer old who entry current kind
      refine ⟨?_, owned⟩
      -- what an update to `none` keeps was not there
      by_contra present
      obtain ⟨w, present⟩ := Option.ne_none_iff_exists'.mp present
      rw [Thread.of_update_none present] at parked
      cases parked
    · cases entry
      rw [own] at current ⊢
      simp [Process.put, notPinned]
  case gone =>
    intro who ended
    -- the machine freed joins those gone, and each stays out of the maps
    rcases gone_freed (p := p) ended rfl rfl with before | rfl
    · exact (kept.gone who before).fewer (fun _ _ => Thread.of_update_none)
        (fun _ _ => Thread.of_update_none) (fun _ _ _ => id) (fun _ => id) rfl
    · constructor
      · simp [Process.put, own]
      · simp [Process.put, own]
      · intro u tabled
        rw [own] at tabled
        have owned := (kept.locals u handle _ tabled).1
        simp [notPinned] at owned
      · intro _
        rw [own]
        exact notPinned

/-- A machine is freed from the thread's own table. -/
theorem Kept.freeLocal (kept : p.Kept) (placed : p.Placed) {t : T} {handle : Nat}
    (noMachine : p.machines handle = none) (notParked : p.parked handle = none)
    (owned : p.pinned handle = some t) :
    ({ p with
      pinned := Function.update p.pinned handle none
      locals := Function.update p.locals t (Function.update (p.locals t) handle none) }.put t
      (.freeing (p.issued handle) :: p.stack t)).Kept := by
  have own := placed.issued handle
  constructor
  case locals =>
    intro u h who tabled
    obtain ⟨mine, current⟩ := kept.locals u h who (of_update_locals tabled)
    -- this handle is now in no thread's table
    have other : h ≠ handle := by
      rintro rfl
      obtain rfl : u = t := Option.some.inj (mine.symm.trans owned)
      simp [Process.put] at tabled
    exact ⟨by simpa [Process.put, Function.update_of_ne other] using mine, current⟩
  case pinned =>
    intro h u mine
    have other : h ≠ handle := by
      rintro rfl
      simp [Process.put] at mine
    obtain ⟨pinned, tabled | built⟩ := kept.pinned h u (of_update_pinned mine)
    · refine ⟨pinned, .inl ?_⟩
      -- another thread's table is as it was, and so is this one's under other handles
      by_cases thread : u = t
      · subst thread
        simpa [Process.put, Function.update_of_ne other] using tabled
      · simpa [Process.put, Function.update_of_ne thread] using tabled
    · exact ⟨pinned, .inr (building_pushed built)⟩
  case building =>
    intro u who member v tabled
    rcases mem_pushed member with old | ⟨_, new⟩
    · exact kept.building u who old v (of_update_locals tabled)
    · cases new
  case started =>
    intro u layer member who entry current kind
    rcases mem_pushed member with old | ⟨rfl, rfl⟩
    · obtain ⟨parked, mine⟩ := kept.started u layer old who entry current kind
      refine ⟨parked, ?_⟩
      by_cases here : who.handle = handle
      · simp [Process.put, here]
      · simpa [Process.put, Function.update_of_ne here] using mine
    · cases entry
      rw [own] at current ⊢
      exact ⟨notParked, .inl (by simp [Process.put])⟩
  case gone =>
    intro who ended
    -- it was in its own thread's table only, by `locals`
    rcases gone_freed (p := p) ended rfl rfl with before | rfl
    · exact (kept.gone who before).fewer (fun _ _ => id) (fun _ _ => id)
        (fun _ _ _ => of_update_locals) (fun h unowned => by
          by_cases here : h = handle
          · simp [Process.put, here]
          · simpa [Process.put, Function.update_of_ne here] using unowned) rfl
    · constructor
      · simp [Process.put, own, noMachine]
      · simp [Process.put, own, notParked]
      · intro u tabled
        rw [own] at tabled
        have mine := (kept.locals u handle _ (of_update_locals tabled)).1
        obtain rfl : u = t := Option.some.inj (mine.symm.trans owned)
        simp [Process.put] at tabled
      · intro _
        simp [Process.put, own]

theorem Kept.free (kept : p.Kept) (placed : p.Placed) (t : T) (handle : Nat) :
    (p.free t handle).Kept := by
  rcases p.free_cases t handle with same | ⟨there, same⟩ | ⟨noMachine, notParked, owned, same⟩
  · rwa [same]
  · exact same ▸ kept.freeTabled placed t there
  · exact same ▸ kept.freeLocal placed noMachine notParked owned

/-- Below the constructor that runs, no other builds the same machine. -/
theorem Stacked.built_once (stacked : p.Stacked) {t : T} {who : Who} {rest : List Layer}
    (top : p.stack t = .building who :: rest) {layer : Layer} {layers : List Layer}
    (shape : layers = rest ∨ layers = layer :: rest ∧ layer.builds who = false) :
    ¬ Stacks.Somewhere (Layer.builds who) (Function.update p.stack t layers) := by
  have had : (p.stack t).countP (Layer.builds who) = rest.countP (Layer.builds who) + 1 := by
    simp [top, Layer.builds]
  have once := (stacked.builds who).once t
  apply (stacked.builds who).last
  · omega
  · rcases shape with rfl | ⟨rfl, other⟩
    · omega
    · rw [List.countP_cons, other]
      simp only [Bool.false_eq_true, if_false]
      omega

/-- A layer of a thread that replaced its innermost one. -/
theorem mem_replaced {t u : T} {layer old : Layer} {rest layers : List Layer}
    (top : p.stack t = old :: rest) (shape : ∀ l ∈ layers, l = layer ∨ l ∈ rest) {l : Layer}
    (member : l ∈ Function.update p.stack t layers u) : l ∈ p.stack u ∨ u = t ∧ l = layer := by
  by_cases thread : u = t
  · subst thread
    rw [Function.update_self] at member
    rcases shape l member with new | old
    · exact .inr ⟨rfl, new⟩
    · exact .inl (by simp [top, old])
  · rw [Function.update_of_ne thread] at member
    exact .inl member

/-- The layers under the innermost one stay. -/
theorem building_replaced {t u : T} {old : Layer} {rest layers : List Layer} {who : Who}
    (top : p.stack t = old :: rest) (shape : ∀ l ∈ rest, l ∈ layers)
    (other : old ≠ .building who) (member : .building who ∈ p.stack u) :
    .building who ∈ Function.update p.stack t layers u := by
  by_cases thread : u = t
  · subst thread
    rw [top] at member
    rw [Function.update_self]
    rcases List.mem_cons.mp member with same | member
    · exact absurd same.symm other
    · exact shape _ member
  · rwa [Function.update_of_ne thread]

/-- A constructor returns a machine that has not been freed: it goes to its thread's table. -/
theorem Kept.built (kept : p.Kept) (placed : p.Placed) (stacked : p.Stacked) {t : T} {who : Who}
    {rest : List Layer} (top : p.stack t = .building who :: rest)
    (owned : p.pinned who.handle = some t) (last : p.issued who.handle = who) :
    ({ p with
      locals := Function.update p.locals t
        (Function.update (p.locals t) who.handle (some who)) }.put t
      (.finding who.handle :: rest)).Kept := by
  -- nobody else is building the machine
  have unbuilt := stacked.built_once top (.inr ⟨rfl, rfl⟩ : (.finding who.handle :: rest = rest) ∨
    .finding who.handle :: rest = .finding who.handle :: rest ∧ _)
  have shape : ∀ l ∈ Layer.finding who.handle :: rest, l = .finding who.handle ∨ l ∈ rest :=
    fun l => List.mem_cons.mp
  -- the tables hold what they held, and the machine
  have tabled : ∀ {u h w}, Function.update p.locals t
      (Function.update (p.locals t) who.handle (some who)) u h = some w →
      p.locals u h = some w ∨ u = t ∧ h = who.handle ∧ w = who := by
    intro u h w there
    by_cases thread : u = t
    · subst thread
      rw [Function.update_self] at there
      rcases Thread.at_update there with before | ⟨rfl, rfl⟩
      · exact .inl before
      · exact .inr ⟨rfl, rfl, rfl⟩
    · rw [Function.update_of_ne thread] at there
      exact .inl there
  constructor
  case locals =>
    intro u h w there
    rcases tabled there with before | ⟨rfl, rfl, rfl⟩
    · exact kept.locals u h w before
    · exact ⟨owned, last.symm⟩
  case pinned =>
    intro h u mine
    obtain ⟨pinned, there⟩ := kept.pinned h u mine
    refine ⟨pinned, ?_⟩
    by_cases here : h = who.handle
    · subst here
      -- it was being built, and now it is in the table
      obtain rfl : u = t := Option.some.inj (mine.symm.trans owned)
      left
      simp [Process.put, last]
    · rcases there with there | building
      · left
        by_cases thread : u = t
        · subst thread
          simpa [Process.put, Function.update_of_ne here] using there
        · simpa [Process.put, Function.update_of_ne thread] using there
      · right
        apply building_replaced top (fun l => List.mem_cons_of_mem _) _ building
        intro same
        apply here
        rw [Layer.building.inj same, placed.issued]
  case building =>
    intro u w member v there
    rcases tabled there with before | ⟨_, _, rfl⟩
    · rcases mem_replaced top shape member with old | ⟨_, new⟩
      · exact kept.building u w old v before
      · cases new
    · exact unbuilt ⟨u, .building w, member, by simp [Layer.builds]⟩
  case started =>
    intro u layer member w entry
    rcases mem_replaced top shape member with old | ⟨_, rfl⟩
    · exact kept.started u layer old w entry
    · cases entry
  case gone =>
    intro w gone
    have before : p.Gone w := by
      -- the layer on top ends nothing
      have cases : p.Gone w ∨ False := by
        refine gone_cases (fun _ => False) rfl (fun _ member => .inl ?_) ?_ gone
        · exact member.elim .inl (.inr ∘ .inl)
        · intro layer member x ends
          rcases List.mem_cons.mp member with rfl | member
          · cases ends
          · exact .inl (by simp [top, member])
      exact cases.elim id False.elim
    have absent := kept.gone w before
    refine ⟨absent.machines, absent.parked, ?_, absent.pinned⟩
    intro u there
    rcases tabled there with old | ⟨rfl, _, rfl⟩
    · exact absent.locals u old
    · -- it would be freed
      have freed := absent.pinned last
      simp [owned] at freed

/-- A constructor panics, its handle not issued again: the machine is in no map. -/
theorem Kept.buildPanics (kept : p.Kept) (placed : p.Placed) (stacked : p.Stacked) {t : T} {who : Who}
    {rest : List Layer} (top : p.stack t = .building who :: rest)
    (last : p.issued who.handle = who) :
    ({ p with pinned := Function.update p.pinned who.handle none }.put t
      (.leaving who .panicked :: rest)).Kept := by
  have fits := stacked.layers t (.building who) (by simp [top])
  have untabled := kept.building t who (by simp [top])
  have started := kept.started t (.building who) (by simp [top]) who rfl last fits.1
  have shape : ∀ l ∈ Layer.leaving who .panicked :: rest, l = .leaving who .panicked ∨ l ∈ rest :=
    fun l => List.mem_cons.mp
  constructor
  case locals =>
    intro u h w there
    obtain ⟨mine, current⟩ := kept.locals u h w there
    -- its handle is not pinned any more, and it was in no table
    have other : h ≠ who.handle := by
      rintro rfl
      rw [last] at current
      exact untabled u (current ▸ there)
    exact ⟨by simpa [Process.put, Function.update_of_ne other] using mine, current⟩
  case pinned =>
    intro h u mine
    have other : h ≠ who.handle := by
      rintro rfl
      simp [Process.put] at mine
    obtain ⟨pinned, there⟩ := kept.pinned h u (of_update_pinned mine)
    refine ⟨pinned, there.imp_right fun building => ?_⟩
    apply building_replaced top (fun l => List.mem_cons_of_mem _) _ building
    intro same
    apply other
    rw [Layer.building.inj same, placed.issued]
  case building =>
    intro u w member
    rcases mem_replaced top shape member with old | ⟨_, new⟩
    · exact kept.building u w old
    · cases new
  case started =>
    intro u layer member w entry current kind
    rcases mem_replaced top shape member with old | ⟨rfl, rfl⟩
    · obtain ⟨parked, mine⟩ := kept.started u layer old w entry current kind
      refine ⟨parked, ?_⟩
      by_cases here : w.handle = who.handle
      · simp [Process.put, here]
      · simpa [Process.put, Function.update_of_ne here] using mine
    · cases entry
      exact ⟨started.1, .inl (by simp [Process.put])⟩
  case gone =>
    intro w gone
    -- its call is about to fail, and so it is gone from now on
    have before : p.Gone w ∨ w = who := by
      refine gone_cases (· = who) rfl ?_ ?_ gone
      · intro x member
        exact .inl (member.elim .inl (.inr ∘ .inl))
      · intro layer member x ends
        rcases List.mem_cons.mp member with rfl | member
        · exact .inr (.inr (by simpa [Layer.ends, eq_comm] using ends))
        · exact .inl (by simp [top, member])
    rcases before with before | rfl
    · refine (kept.gone w before).fewer (fun _ _ => id) (fun _ _ => id) (fun _ _ _ => id) ?_ rfl
      intro h unowned
      by_cases here : h = who.handle
      · simp [Process.put, here]
      · simpa [Process.put, Function.update_of_ne here] using unowned
    · constructor
      · intro there
        -- a machine of `machines` is not pinned, and this one is
        have migrating := (placed.machines _ _ there).2
        simp [fits.1] at migrating
      · intro there
        have notParked := started.1
        rw [show p.parked w.handle = some w from there] at notParked
        cases notParked
      · exact untabled
      · intro _
        simp [Process.put]

/-- A panicked machine is removed, pinned and its handle not issued again. -/
theorem Kept.removePinned (kept : p.Kept) (placed : p.Placed) (stacked : p.Stacked) {t : T}
    {handle : Nat} {who : Who} {rest : List Layer} (top : p.stack t = .caught handle who :: rest)
    (pinned : who.pinned = true) (last : p.issued handle = who) :
    (({ p with
      locked := Function.update p.locked who false
      pinned := Function.update p.pinned handle none
      locals := Function.update p.locals t (Function.update (p.locals t) handle none) }.put t
      (.leaving who .panicked :: rest)).happen (.unlocked who)).Kept := by
  obtain ⟨rfl, _⟩ := stacked.layers t (.caught handle who) (by simp [top])
  obtain ⟨notParked, owner⟩ :=
    kept.started t (.caught who.handle who) (by simp [top]) who rfl last pinned
  have shape : ∀ l ∈ Layer.leaving who .panicked :: rest, l = .leaving who .panicked ∨ l ∈ rest :=
    fun l => List.mem_cons.mp
  -- no other thread has anything under the handle
  have untabled : ∀ {u w}, Function.update p.locals t
      (Function.update (p.locals t) who.handle none) u who.handle ≠ some w := by
    intro u w there
    by_cases thread : u = t
    · subst thread
      simp at there
    · have mine := (kept.locals u _ _ (of_update_locals there)).1
      rcases owner with unowned | owned
      · simp [unowned] at mine
      · exact thread (Option.some.inj (mine.symm.trans owned))
  constructor
  case locals =>
    intro u h w there
    obtain ⟨mine, current⟩ := kept.locals u h w (of_update_locals there)
    have other : h ≠ who.handle := by
      rintro rfl
      exact untabled there
    exact ⟨by simpa [Process.put, Process.happen, Function.update_of_ne other] using mine, current⟩
  case pinned =>
    intro h u mine
    have other : h ≠ who.handle := by
      rintro rfl
      simp [Process.put, Process.happen] at mine
    obtain ⟨kind, there⟩ := kept.pinned h u (of_update_pinned mine)
    refine ⟨kind, there.imp (fun there => ?_) fun building => ?_⟩
    · by_cases thread : u = t
      · subst thread
        simpa [Process.put, Process.happen, Function.update_of_ne other] using there
      · simpa [Process.put, Process.happen, Function.update_of_ne thread] using there
    · exact building_replaced top (fun l => List.mem_cons_of_mem _) (by simp) building
  case building =>
    intro u w member v there
    rcases mem_replaced top shape member with old | ⟨_, new⟩
    · exact kept.building u w old v (of_update_locals there)
    · cases new
  case started =>
    intro u layer member w entry current kind
    rcases mem_replaced top shape member with old | ⟨rfl, rfl⟩
    · obtain ⟨parked, mine⟩ := kept.started u layer old w entry current kind
      refine ⟨parked, ?_⟩
      by_cases here : w.handle = who.handle
      · simp [Process.put, Process.happen, here]
      · simpa [Process.put, Process.happen, Function.update_of_ne here] using mine
    · cases entry
      exact ⟨notParked, .inl (by simp [Process.put, Process.happen])⟩
  case gone =>
    intro w gone
    have before : p.Gone w ∨ w = who := by
      refine gone_cases (· = who) rfl ?_ ?_ gone
      · intro x member
        exact .inl (member.elim (fun freed => .inl (by simpa using freed))
          fun failed => .inr (.inl (by simpa using failed)))
      · intro layer member x ends
        rcases List.mem_cons.mp member with rfl | member
        · exact .inr (.inr (by simpa [Layer.ends, eq_comm] using ends))
        · exact .inl (by simp [top, member])
    rcases before with before | rfl
    · refine (kept.gone w before).fewer (fun _ _ => id) (fun _ _ => id)
        (fun _ _ _ => of_update_locals) ?_ rfl
      intro h unowned
      by_cases here : h = who.handle
      · simp [Process.put, Process.happen, here]
      · simpa [Process.put, Process.happen, Function.update_of_ne here] using unowned
    · constructor
      · intro there
        have migrating := (placed.machines _ _ there).2
        simp [pinned] at migrating
      · intro there
        rw [show p.parked w.handle = some w from there] at notParked
        cases notParked
      · intro u
        exact untabled
      · intro _
        simp [Process.put, Process.happen]

theorem Kept.removeMigrating (kept : p.Kept) (placed : p.Placed) (stacked : p.Stacked) {t : T}
    {handle : Nat} {who : Who} {rest : List Layer} (top : p.stack t = .caught handle who :: rest)
    (migrating : who.pinned = false) :
    ({ p with machines := Function.update p.machines handle none }.put t
      (.removed handle who :: rest)).Kept := by
  -- the call that caught the panic is under the machine's own handle
  obtain ⟨rfl, _⟩ := stacked.layers t (.caught handle who) (by simp [top])
  have shape : ∀ l ∈ Layer.removed who.handle who :: rest, l = .removed who.handle who ∨ l ∈ rest :=
    fun l => List.mem_cons.mp
  constructor
  case locals => exact kept.locals
  case pinned =>
    intro h u mine
    obtain ⟨kind, there⟩ := kept.pinned h u mine
    refine ⟨kind, there.imp_right fun building => ?_⟩
    exact building_replaced top (fun l => List.mem_cons_of_mem _) (by simp) building
  case building =>
    intro u w member
    rcases mem_replaced top shape member with old | ⟨_, new⟩
    · exact kept.building u w old
    · cases new
  case started =>
    intro u layer member w entry current kind
    rcases mem_replaced top shape member with old | ⟨rfl, rfl⟩
    · exact kept.started u layer old w entry current kind
    · cases entry
      simp [migrating] at kind
  case gone =>
    intro w gone
    -- the layer `removed` ends it
    have before : p.Gone w ∨ w = who := by
      refine gone_cases (· = who) rfl ?_ ?_ gone
      · intro x member
        exact .inl (member.elim .inl (.inr ∘ .inl))
      · intro layer member x ends
        rcases List.mem_cons.mp member with rfl | member
        · exact .inr (.inr (by simpa [Layer.ends, eq_comm] using ends))
        · exact .inl (by simp [top, member])
    rcases before with before | rfl
    · exact (kept.gone w before).fewer (fun _ _ => Thread.of_update_none) (fun _ _ => id)
        (fun _ _ _ => id) (fun _ => id) rfl
    · obtain ⟨notParked, untabled, unowned⟩ := kept.migrates placed migrating
      exact ⟨by simp [Process.put], notParked, untabled, unowned⟩

theorem Kept.step (kept : p.Kept) (placed : p.Placed) (stacked : p.Stacked) {t : T} {deed : Deed}
    (tidy : p.tidy (t, deed) = true) (stepped : p.step (t, deed) = some after) : after.Kept := by
  cases step_cases stepped with
  | new _ _ created => exact kept.create stacked created
  | newPinned _ _ created => exact kept.create stacked created
  | starts handle who _ there => exact kept.start placed there
  | resumes handle | replies handle => exact kept.push t handle
  | frees handle => exact kept.free placed t handle
  | reissue =>
    refine kept.idle ⟨rfl, rfl, rfl, rfl, rfl⟩ (Function.update_eq_self t p.stack).symm
      (fun _ => Iff.rfl) (fun layer member who entry => .inl ⟨layer, member, entry⟩) fun _ => .inl
  | built who rest top =>
    -- tidy: it was not freed, and its handle not issued again, while it was built
    simp only [Process.tidy, top, Bool.and_eq_true, decide_eq_true_eq] at tidy
    exact kept.built placed stacked top tidy.1 tidy.2
  | buildPanicked who rest top =>
    simp only [Process.tidy, top, decide_eq_true_eq] at tidy
    exact kept.buildPanics placed stacked top tidy
  | finds handle who rest top found =>
    refine kept.turns ⟨rfl, rfl, rfl, rfl, rfl⟩ top rfl (by simp)
      (.inr ⟨_, rfl, by simp, ?_, by simp [Layer.ends]⟩) fun _ => .inl
    rintro w ⟨⟩
    exact .inr (placed.found_started found)
  | busy handle who rest top =>
    exact kept.turns ⟨rfl, rfl, rfl, rfl, rfl⟩ top rfl (by simp)
      (.inr ⟨_, rfl, by simp, fun _ => .inl, by simp [Layer.ends]⟩) fun _ => .inl
  | refuses handle who rest top free migrating poisoned =>
    -- tidy: it was freed meanwhile
    obtain ⟨own, _⟩ := stacked.layers t (.found handle who) (by simp [top])
    simp only [Process.tidy, top, free, migrating, poisoned, Bool.or_self, Bool.not_true,
      Bool.false_or, decide_eq_true_eq] at tidy
    obtain ⟨notParked, untabled, unowned⟩ := kept.migrates placed migrating
    refine kept.turns ⟨rfl, rfl, rfl, rfl, rfl⟩ top rfl (by simp)
      (.inr ⟨_, rfl, by simp, fun _ => .inl, fun w ends => .inr ?_⟩) fun _ => .inl
    obtain rfl : who = w := by simpa [Layer.ends] using ends
    exact ⟨by rwa [own], notParked, untabled, unowned⟩
  | locks handle who rest top =>
    exact kept.turns ⟨rfl, rfl, rfl, rfl, rfl⟩ top rfl (by simp)
      (.inr ⟨_, rfl, by simp, fun _ => .inl, by simp [Layer.ends]⟩)
      fun _ member => .inl (by simpa using member)
  | finishes handle who rest top =>
    exact kept.turns ⟨rfl, rfl, rfl, rfl, rfl⟩ top rfl (by simp)
      (.inr ⟨_, rfl, by simp, fun _ => .inl, by simp [Layer.ends]⟩) fun _ => .inl
  | panics handle who rest top =>
    exact kept.turns ⟨rfl, rfl, rfl, rfl, rfl⟩ top rfl (by simp)
      (.inr ⟨_, rfl, by simp, fun _ => .inl, by simp [Layer.ends]⟩)
      fun _ member => .inl (by simpa using member)
  | removesPinned handle who rest top pinned =>
    simp only [Process.tidy, top, pinned, Bool.not_true, Bool.false_or, decide_eq_true_eq] at tidy
    exact kept.removePinned placed stacked top pinned tidy
  | removes handle who rest top migrating => exact kept.removeMigrating placed stacked top migrating
  -- locks are of no account here
  | unlocks handle who rest top =>
    refine kept.turns ⟨rfl, rfl, rfl, rfl, rfl⟩ top rfl (by simp)
      (.inr ⟨_, rfl, by simp, fun _ => .inl, ?_⟩) fun _ member => .inl (by simpa using member)
    intro w ends
    exact .inl (by simpa [Layer.ends] using ends)
  | releases handle who rest top =>
    refine kept.turns ⟨rfl, rfl, rfl, rfl, rfl⟩ top rfl (by simp)
      (.inr ⟨_, rfl, by simp, fun _ => .inl, ?_⟩) fun _ => .inl
    intro w ends
    exact .inl (by simpa [Layer.ends] using ends)
  | payloadPanicked poisons handle who rest top =>
    exact kept.turns ⟨rfl, rfl, rfl, rfl, rfl⟩ top rfl (by simp)
      (.inr ⟨_, rfl, by simp, fun _ => .inl, by simp [Layer.ends]⟩)
      fun _ member => .inl (by simpa using member)
  | fails who exit rest top exits =>
    refine kept.turns ⟨rfl, rfl, rfl, rfl, rfl⟩ top rfl (by simp) (.inl rfl) fun w member => ?_
    rcases member with freed | failed
    · exact .inl (.inl (by simpa using freed))
    · rcases List.mem_cons.mp failed with same | failed
      · cases same
        exact .inr (by simpa [Layer.ends] using exits)
      · exact .inl (.inr failed)
  | freed who rest top =>
    refine kept.turns ⟨rfl, rfl, rfl, rfl, rfl⟩ top rfl (by simp) (.inl rfl) fun w member => ?_
    rcases member with freed | failed
    · rcases List.mem_cons.mp freed with same | freed
      · cases same
        exact .inr (by simp [Layer.ends])
      · exact .inl (.inl freed)
    · exact .inl (.inr (by simpa using failed))
  -- a layer is gone, and nothing is told
  | misses _ _ _ top | returns _ _ top | unwinds _ _ _ top | freeUnwinds _ _ top =>
    exact kept.turns ⟨rfl, rfl, rfl, rfl, rfl⟩ top rfl (by simp) (.inl rfl) fun _ => .inl

/-- A map, a thread's table or a thread in the middle of a call has the machine. -/
def Held (p : Process T) (who : Who) : Prop :=
  (∃ handle, p.machines handle = some who ∨ p.parked handle = some who ∨
    ∃ t, p.locals t handle = some who) ∨ ∃ t, ∃ layer ∈ p.stack t, layer.entry = some who

/-- In a tidy run each handle is in one map at most, a thread that is in no call has in its table
what `pinned` says, and a machine that was freed or whose call panicked is in no map, and held by
nothing but calls. -/
theorem maps_stay_consistent (acts : List (T × Deed)) (p : Process T)
    (ran : Transition.run step new acts = some p)
    (met : Transition.Along step (fun p act => p.tidy act = true) new acts) :
    p.table.Exclusive ∧
    (∀ t, p.stack t = [] → ∀ handle,
      (p.locals t handle).isSome = true ↔ p.pinned handle = some t) ∧
    ∀ who, .freed who ∈ p.history ∨ .failed who ∈ p.history →
      (p.issued who.handle = who → p.table.inUse who.handle = false) ∧
      ((∀ t, ∀ layer ∈ p.stack t, layer.entry ≠ some who) → ¬ p.Held who) := by
  -- where machines are, what calls are under way, and what each thread keeps go together
  have inv : p.Placed ∧ p.Stacked ∧ p.Kept := by
    refine Transition.run_invariant_along (fun p act => p.tidy act = true)
      (fun p => p.Placed ∧ p.Stacked ∧ p.Kept) ?_ ⟨placed_new, stacked_new, kept_new⟩ met ran
    rintro p ⟨t, deed⟩ after ⟨placed, stacked, kept⟩ tidy stepped
    exact ⟨placed.step stacked stepped, stacked.step placed stepped,
      kept.step placed stacked tidy stepped⟩
  obtain ⟨placed, stacked, kept⟩ := inv
  refine ⟨placed.exclusive, fun t empty handle => ?_, fun who ended => ?_⟩
  · constructor
    · intro there
      obtain ⟨who, tabled⟩ := Option.isSome_iff_exists.mp there
      exact (kept.locals t handle who tabled).1
    · intro mine
      obtain ⟨_, tabled | building⟩ := kept.pinned handle t mine
      · rw [tabled]
        rfl
      -- a thread in no call builds nothing
      · simp [empty] at building
  · have gone : p.Gone who := ended.elim .inl (.inr ∘ .inl)
    have absent := kept.gone who gone
    constructor
    · intro last
      -- the last machine of a handle is what any map has under it
      rw [Table.inUse_eq_false]
      refine ⟨?_, ?_, by simp [Process.table, absent.pinned last]⟩
      · by_contra present
        obtain ⟨w, there⟩ := Option.ne_none_iff_exists'.mp present
        have same := (placed.machines _ w there).1
        rw [last] at same
        exact absent.machines (same ▸ there)
      · by_contra present
        obtain ⟨w, there⟩ := Option.ne_none_iff_exists'.mp present
        have same := (placed.parked _ w there).1
        rw [last] at same
        exact absent.parked (same ▸ there)
    -- held by a map, or by a call
    · rintro idle (⟨handle, there | there | ⟨t, there⟩⟩ | ⟨t, layer, member, entry⟩)
      · have own : who.handle = handle := by
          rw [(placed.machines handle who there).1, placed.issued]
        exact absent.machines (own ▸ there)
      · exact absent.parked ((placed.parked_known there).1 ▸ there)
      · exact absent.locals t ((placed.locals t handle who there).1 ▸ there)
      · exact idle t layer member entry

end

/-- A pinned machine frees itself while it is polled. -/
theorem maps_stay_consistent_freed : ∃ p : Process Bool,
    Transition.run step new [(false, .newPinned), (true, .resume 1), (true, .built), (true, .find),
      (true, .tryLock), (true, .free 1), (true, .left), (true, .finish), (true, .left)] = some p ∧
    p.table.inUse 1 = false ∧ ¬ p.Held ⟨1, 1, true⟩ := by
  have met : Transition.Along step (fun (p : Process Bool) act => p.tidy act = true) new
      [(false, .newPinned), (true, .resume 1), (true, .built), (true, .find), (true, .tryLock),
        (true, .free 1), (true, .left), (true, .finish), (true, .left)] :=
    Transition.along_of_check (fun _ _ => id) rfl
  have seen : (Transition.run step (new : Process Bool) [(false, .newPinned), (true, .resume 1),
      (true, .built), (true, .find), (true, .tryLock), (true, .free 1), (true, .left),
      (true, .finish), (true, .left)]).map
        (fun p => (p.issued 1, p.history, p.stack false, p.stack true)) =
      some (⟨1, 1, true⟩, [.freed ⟨1, 1, true⟩, .began ⟨1, 1, true⟩], [], []) := rfl
  obtain ⟨p, ran, same⟩ := Option.map_eq_some_iff.mp seen
  obtain ⟨last, history, one, other⟩ : p.issued 1 = ⟨1, 1, true⟩ ∧ _ ∧ p.stack false = [] ∧
      p.stack true = [] := by
    simpa only [Prod.mk.injEq] using same
  obtain ⟨_, _, gone⟩ := maps_stay_consistent _ p ran met
  obtain ⟨unused, dropped⟩ := gone ⟨1, 1, true⟩ (.inl (by rw [history]; decide))
  refine ⟨p, ran, unused last, dropped fun t layer member => ?_⟩
  cases t
  · rw [one] at member
    cases member
  · rw [other] at member
    cases member

/-- A constructor frees its own handle and returns: `free` and `resume` have returned, the machine
stays in its thread's table, and no handle leads to it. And where a payload's destructor panics, the
next call returns `Panicked`, and the machine stays in the table. -/
theorem orphan_left :
    (∃ p : Process Bool,
      Transition.run step new [(false, .newPinned), (true, .resume 1), (true, .free 1), (true, .left),
        (true, .built), (true, .find)] = some p ∧
      (∀ t, p.stack t = []) ∧ .freed ⟨1, 1, true⟩ ∈ p.history ∧ p.Held ⟨1, 1, true⟩ ∧
      ¬ ((p.locals true 1).isSome = true ↔ p.pinned 1 = some true)) ∧
    ∃ p : Process Bool,
      Transition.run step new [(false, .new), (false, .resume 1), (false, .find), (false, .tryLock),
        (false, .panics), (false, .payloadPanicked true), (false, .unwinds), (false, .resume 1),
        (false, .find), (false, .tryLock), (false, .unlock), (false, .left)] = some p ∧
      (∀ t, p.stack t = []) ∧ .failed ⟨1, 1, false⟩ ∈ p.history ∧
      p.machines 1 = some ⟨1, 1, false⟩ := by
  constructor
  · refine ⟨_, rfl, ?_, by decide, .inl ⟨1, .inr (.inr ⟨true, rfl⟩)⟩, by decide⟩
    intro t
    cases t <;> rfl
  · refine ⟨_, rfl, ?_, by decide, rfl⟩
    intro t
    cases t <;> rfl

end Process

end SansEffort
