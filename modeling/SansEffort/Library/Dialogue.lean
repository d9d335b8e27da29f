import Mathlib.Data.List.Basic
import Mathlib.Logic.Function.Iterate

/-!
# Dialogues

Programs that speak to whoever runs them: they tell messages, ask requests, and go on with the
replies. A loop says a dialogue in each of its turns, until one ends it. A listener that answers
each request where it is asked runs a loop one thing at a time. What a loop says up to its next
request, or to its end, is a stretch, and every run of it is a row of stretches.
-/

structure Interface where
  Message : Type
  Request : Type
  Reply : Request → Type

inductive Dialogue (I : Interface) (α : Type)
  | done (result : α)
  | tell (message : I.Message) (next : Dialogue I α)
  | ask (request : I.Request) (next : I.Reply request → Dialogue I α)

/-- What hears messages and answers requests, with `W` what they change. -/
structure Listener (I : Interface) (W : Type) where
  tell : I.Message → W → W
  ask : (request : I.Request) → W → I.Reply request × W

namespace Dialogue

variable {I : Interface} {α β S W : Type}

def bind : Dialogue I α → (α → Dialogue I β) → Dialogue I β
  | done result, k => k result
  | tell message next, k => tell message (next.bind k)
  | ask request next, k => ask request fun reply => (next reply).bind k

instance : Monad (Dialogue I) where
  pure := done
  bind := bind

def say (message : I.Message) : Dialogue I Unit := tell message (done ())

def request (r : I.Request) : Dialogue I (I.Reply r) := ask r done

/-- The whole of a dialogue, answered as it is said. -/
def run (h : Listener I W) : Dialogue I α → W → α × W
  | done result, w => (result, w)
  | tell message next, w => next.run h (h.tell message w)
  | ask request next, w => (next (h.ask request w).1).run h (h.ask request w).2

section

variable (h : Listener I W)

@[simp] theorem run_pure (result : α) (w : W) : (pure result : Dialogue I α).run h w = (result, w) :=
  rfl

@[simp] theorem run_say (message : I.Message) (w : W) :
    (say message).run h w = ((), h.tell message w) := rfl

@[simp] theorem run_request (r : I.Request) (w : W) : (request r).run h w = h.ask r w := rfl

@[simp] theorem run_bind (d : Dialogue I α) (k : α → Dialogue I β) (w : W) :
    (d >>= k).run h w = (k (d.run h w).1).run h (d.run h w).2 := by
  show (d.bind k).run h w = _
  induction d generalizing w with
  | done result => rfl
  | tell message next ih => exact ih (h.tell message w)
  | ask request next ih => exact ih (h.ask request w).1 (h.ask request w).2

end

/-! ### Loops -/

/-- A loop: what it says in a turn that starts at `s`, and where its next turn starts, if there is
one. -/
abbrev Loop (I : Interface) (S : Type) := S → Dialogue I (Option S)

/-- Where a loop is: what is left of its turn, and the listener's world. -/
structure Point (I : Interface) (S W : Type) where
  rest : Dialogue I (Option S)
  world : W

variable (h : Listener I W) (step : Loop I S)

/-- One thing told or asked, or a turn begun. A loop that has ended stays. -/
def Point.advance (p : Point I S W) : Point I S W :=
  match p.rest with
  | done none => p
  | done (some s) => ⟨step s, p.world⟩
  | tell message next => ⟨next, h.tell message p.world⟩
  | ask request next => ⟨next (h.ask request p.world).1, (h.ask request p.world).2⟩

/-- The point after `n` advances. -/
def Point.after (n : Nat) (p : Point I S W) : Point I S W := (Point.advance h step)^[n] p

/-- The loop run to its end, in at most `turns` turns. -/
def Loop.run : Nat → S → W → Option W
  | 0, _, _ => none
  | turns + 1, s, w =>
    match (step s).run h w with
    | (none, w) => some w
    | (some s, w) => Loop.run turns s w

/-- Where a stretch stops. -/
inductive Stop (I : Interface) (S : Type)
  | asks (request : I.Request) (next : I.Reply request → Dialogue I (Option S))
  | ends

/-- What is left of the turn where a stretch stops. -/
def Stop.rest : Stop I S → Dialogue I (Option S)
  | asks request next => .ask request next
  | ends => .done none

/-- A stretch with a message in front of it. -/
def told (message : I.Message) (stretch : List I.Message × Stop I S) : List I.Message × Stop I S :=
  (message :: stretch.1, stretch.2)

/-- A stretch of a turn, and what follows it if the turn ends before it asks. -/
def upTo (after : Option S → Option (List I.Message × Stop I S)) :
    Dialogue I (Option S) → Option (List I.Message × Stop I S)
  | done flow => after flow
  | tell message next => (upTo after next).map (told message)
  | ask request next => some ([], .asks request next)

/-- The stretch that a loop says next, if it begins at most `turns` turns on the way. -/
def stretch : Nat → Dialogue I (Option S) → Option (List I.Message × Stop I S)
  | 0 => upTo fun
    | none => some ([], .ends)
    | some _ => none
  | turns + 1 => upTo fun
    | none => some ([], .ends)
    | some s => stretch turns (step s)

/-- What a loop says before it asks or ends. -/
inductive Stretch : Dialogue I (Option S) → List I.Message → Stop I S → Prop
  | ends : Stretch (done none) [] .ends
  | asks (request : I.Request) (next : I.Reply request → Dialogue I (Option S)) :
      Stretch (ask request next) [] (.asks request next)
  | again {s : S} {messages : List I.Message} {stop : Stop I S}
      (rest : Stretch (step s) messages stop) : Stretch (done (some s)) messages stop
  | tell {message : I.Message} {next : Dialogue I (Option S)} {messages : List I.Message}
      {stop : Stop I S} (rest : Stretch next messages stop) :
      Stretch (tell message next) (message :: messages) stop

variable {h : Listener I W} {step : Loop I S}

theorem stretch_sound {turns : Nat} {d : Dialogue I (Option S)} {messages : List I.Message}
    {stop : Stop I S} (said : stretch step turns d = some (messages, stop)) :
    Stretch step d messages stop := by
  -- a stretch of the turn, and then one of the turns after it
  have inside : ∀ {after : Option S → Option (List I.Message × Stop I S)},
      (∀ flow messages stop, after flow = some (messages, stop) →
        Stretch step (done flow) messages stop) →
      ∀ d messages stop, upTo after d = some (messages, stop) → Stretch step d messages stop := by
    intro after follows d
    induction d with
    | done flow => exact follows flow
    | tell message next ih =>
      intro messages stop said
      obtain ⟨⟨later, _⟩, rest, same⟩ := Option.map_eq_some_iff.mp said
      cases same
      exact .tell (ih _ _ rest)
    | ask request next _ =>
      intro messages stop said
      cases said
      exact .asks request next
  induction turns generalizing d messages stop with
  | zero =>
    refine inside ?_ d messages stop said
    intro flow messages stop same
    cases flow with
    | none =>
      cases same
      exact .ends
    | some s => cases same
  | succ turns ih =>
    refine inside ?_ d messages stop said
    intro flow messages stop same
    cases flow with
    | none =>
      cases same
      exact .ends
    | some s => exact .again (ih same)

/-! ### A run as a row of stretches -/

theorem Point.after_succ (n : Nat) (p : Point I S W) :
    p.after h step (n + 1) = (p.after h step n).advance h step :=
  Function.iterate_succ_apply' _ _ _

theorem Point.after_add (n m : Nat) (p : Point I S W) :
    p.after h step (n + m) = (p.after h step m).after h step n :=
  Function.iterate_add_apply _ _ _ _

/-- A loop whose next stretch begins with a message comes to tell it. -/
theorem Stretch.next_told {d : Dialogue I (Option S)} {message : I.Message}
    {messages : List I.Message} {stop : Stop I S} (said : Stretch step d (message :: messages) stop)
    (w : W) : ∃ n next, Point.after h step n ⟨d, w⟩ = ⟨next, h.tell message w⟩ ∧
      Stretch step next messages stop := by
  generalize whole : message :: messages = all at said
  induction said with
  | ends | asks => cases whole
  | again _ ih =>
    obtain ⟨n, next, reached, rest⟩ := ih whole
    exact ⟨n + 1, next, reached, rest⟩
  | tell rest =>
    cases whole
    exact ⟨1, _, rfl, rest⟩

/-- A loop whose next stretch is empty comes to where the stretch stops. -/
theorem Stretch.stops {d : Dialogue I (Option S)} {stop : Stop I S}
    (said : Stretch step d [] stop) (w : W) :
    ∃ n, Point.after h step n ⟨d, w⟩ = ⟨stop.rest, w⟩ := by
  generalize silent : [] = all at said
  induction said with
  | ends => exact ⟨0, rfl⟩
  | asks => exact ⟨0, rfl⟩
  | again _ ih =>
    obtain ⟨n, reached⟩ := ih silent
    exact ⟨n + 1, reached⟩
  | tell => cases silent

/-- The loop comes to tell each message of a stretch, whatever the listener. -/
theorem Stretch.tells {d : Dialogue I (Option S)} {messages : List I.Message} {stop : Stop I S}
    (said : Stretch step d messages stop) (w : W) {message : I.Message} (member : message ∈ messages) :
    ∃ n next w', Point.after h step n ⟨d, w⟩ = ⟨.tell message next, w'⟩ := by
  induction said generalizing w with
  | ends | asks => simp at member
  | again _ ih =>
    obtain ⟨n, next, w', reached⟩ := ih w member
    exact ⟨n + 1, next, w', reached⟩
  | @tell first next messages stop rest ih =>
    rcases List.mem_cons.mp member with rfl | later
    · exact ⟨0, next, w, rfl⟩
    · obtain ⟨n, next, w', reached⟩ := ih (h.tell first w) later
      exact ⟨n + 1, next, w', reached⟩

/-- The loop comes to where its stretch stops. -/
theorem Stretch.comes {d : Dialogue I (Option S)} {messages : List I.Message} {stop : Stop I S}
    (said : Stretch step d messages stop) (w : W) :
    ∃ n w', Point.after h step n ⟨d, w⟩ = ⟨stop.rest, w'⟩ := by
  induction said generalizing w with
  | ends => exact ⟨0, w, rfl⟩
  | asks => exact ⟨0, w, rfl⟩
  | again _ ih =>
    obtain ⟨n, w', reached⟩ := ih w
    exact ⟨n + 1, w', reached⟩
  | @tell first next messages stop rest ih =>
    obtain ⟨n, w', reached⟩ := ih (h.tell first w)
    exact ⟨n + 1, w', reached⟩

/-- A run served a stretch at a time: the messages not told yet, and where they stop. -/
structure Served (I : Interface) (S W : Type) where
  messages : List I.Message
  stop : Stop I S
  world : W

/-- One turn of service: the next message is heard, or the request is answered and the next stretch
made. -/
def Served.turn (h : Listener I W) (step : Loop I S) (turns : Nat) (q : Served I S W) :
    Option (Served I S W) :=
  match q.messages, q.stop with
  | message :: rest, stop => some ⟨rest, stop, h.tell message q.world⟩
  | [], .asks request next =>
    let (reply, world) := h.ask request q.world
    (stretch step turns (next reply)).map fun (messages, stop) => ⟨messages, stop, world⟩
  | [], .ends => some q

def Served.ended (q : Served I S W) : Prop := q.messages = [] ∧ q.stop = .ends

/-- The loop stands at the start of the stretch that is being served. -/
structure Served.At (step : Loop I S) (q : Served I S W) (p : Point I S W) : Prop where
  stretch : Stretch step p.rest q.messages q.stop
  world : p.world = q.world

theorem Served.At.turn {q next : Served I S W} {p : Point I S W} {turns : Nat} (at_ : q.At step p)
    (served : q.turn h step turns = some next) : ∃ n, next.At step (p.after h step n) := by
  obtain ⟨messages, stop, _⟩ := q
  obtain ⟨d, w⟩ := p
  obtain ⟨said, same⟩ := at_
  obtain rfl : w = _ := same
  cases messages with
  | cons message rest =>
    cases served
    obtain ⟨n, next, reached, said⟩ := said.next_told (h := h) w
    exact ⟨n, by rw [reached]; exact said, by rw [reached]⟩
  | nil =>
    obtain ⟨n, reached⟩ := said.stops (h := h) w
    cases stop with
    | asks request more =>
      obtain ⟨⟨messages, stop⟩, stretched, rfl⟩ := Option.map_eq_some_iff.mp served
      refine ⟨n + 1, ?_, ?_⟩
      · rw [Point.after_succ, reached]
        exact stretch_sound stretched
      · rw [Point.after_succ, reached]
        rfl
    | ends =>
      cases served
      exact ⟨n, by rw [reached]; exact .ends, by rw [reached]⟩

/-- A run that has served everything has come to the loop's end. -/
theorem Served.At.of_ended {q : Served I S W} {p : Point I S W} (at_ : q.At step p)
    (ended : q.ended) : ∃ n, p.after h step n = ⟨.done none, q.world⟩ := by
  obtain ⟨messages, stop, w⟩ := q
  obtain ⟨d, u⟩ := p
  obtain ⟨said, same⟩ := at_
  obtain ⟨rfl, rfl⟩ : messages = [] ∧ stop = .ends := ended
  obtain rfl : u = w := same
  exact said.stops u

/-- A run that has come to a request has come to where the loop asks it. -/
theorem Served.At.asks {request : I.Request} {next : I.Reply request → Dialogue I (Option S)}
    {w : W} {p : Point I S W} (at_ : Served.At step ⟨[], .asks request next, w⟩ p) :
    ∃ n, p.after h step n = ⟨.ask request next, w⟩ := by
  obtain ⟨d, u⟩ := p
  obtain ⟨said, same⟩ := at_
  obtain rfl : u = w := same
  exact said.stops u

theorem Served.At.ended {q : Served I S W} {p : Point I S W} (at_ : q.At step p)
    (gone : p.rest = .done none) : q.ended := by
  have said := at_.stretch
  rw [gone] at said
  unfold Served.ended
  generalize q.messages = messages at said
  generalize q.stop = stop at said
  cases said
  exact ⟨rfl, rfl⟩

/-- The run after a number of turns. -/
def Served.after (h : Listener I W) (step : Loop I S) (turns : Nat) :
    Nat → Served I S W → Option (Served I S W)
  | 0, q => some q
  | n + 1, q => (q.after h step turns n).bind (·.turn h step turns)

theorem Served.At.after {q next : Served I S W} {p : Point I S W} {turns k : Nat}
    (at_ : q.At step p) (served : q.after h step turns k = some next) :
    ∃ n, next.At step (p.after h step n) := by
  induction k generalizing next with
  | zero =>
    cases served
    exact ⟨0, at_⟩
  | succ k ih =>
    obtain ⟨middle, before, last⟩ := Option.bind_eq_some_iff.mp served
    obtain ⟨n, here⟩ := ih before
    obtain ⟨m, there⟩ := here.turn last
    exact ⟨m + n, by rwa [Point.after_add]⟩

/-- From its start and after each answer the loop comes to a request or to its end within `turns`
turns begun, whatever it tells on the way. -/
structure Patient (h : Listener I W) (step : Loop I S) (turns : Nat) (p : Point I S W) : Prop where
  first : (stretch step turns p.rest).isSome = true
  later : ∀ n request next, (p.after h step n).rest = .ask request next →
    (stretch step turns (next (h.ask request (p.after h step n).world).1)).isSome = true

section

variable {turns : Nat} {start : Point I S W} {q : Served I S W}

theorem Patient.turn (patient : Patient h step turns start) {n : Nat}
    (at_ : q.At step (start.after h step n)) : ∃ next, q.turn h step turns = some next := by
  obtain ⟨messages, stop, w⟩ := q
  cases messages with
  | cons message rest => exact ⟨_, rfl⟩
  | nil =>
    cases stop with
    | ends => exact ⟨_, rfl⟩
    | asks request next =>
      -- the loop comes to that request, where it is patient
      obtain ⟨m, reached⟩ := at_.asks (h := h)
      have there : start.after h step (m + n) = ⟨.ask request next, w⟩ := by
        rw [Point.after_add, reached]
      have comes := patient.later (m + n) request next (by rw [there])
      rw [there] at comes
      obtain ⟨made, stretched⟩ := Option.isSome_iff_exists.mp comes
      exact ⟨_, Option.map_eq_some_iff.mpr ⟨made, stretched, rfl⟩⟩

/-- A patient loop can be served for any number of turns. -/
theorem Patient.after (patient : Patient h step turns start) (at_ : q.At step start) (k : Nat) :
    ∃ next, q.after h step turns k = some next := by
  induction k with
  | zero => exact ⟨q, rfl⟩
  | succ k ih =>
    obtain ⟨middle, served⟩ := ih
    obtain ⟨n, here⟩ := at_.after served
    obtain ⟨next, last⟩ := patient.turn here
    exact ⟨next, Option.bind_eq_some_iff.mpr ⟨middle, served, last⟩⟩

/-- Service brings a patient loop to every point that it reaches by itself, in at most as many
turns. -/
theorem Patient.reaches (patient : Patient h step turns start) (at_ : q.At step start) (n : Nat) :
    ∃ k next, k ≤ n ∧ q.after h step turns k = some next ∧ next.At step (start.after h step n) := by
  induction n with
  | zero => exact ⟨0, q, Nat.le_refl 0, rfl, at_⟩
  | succ n ih =>
    obtain ⟨k, middle, few, served, here⟩ := ih
    obtain ⟨next, last⟩ := patient.turn here
    have further : q.after h step turns (k + 1) = some next :=
      Option.bind_eq_some_iff.mpr ⟨middle, served, last⟩
    rw [Point.after_succ]
    generalize start.after h step n = p at here ⊢
    obtain ⟨messages, stop, w⟩ := middle
    obtain ⟨d, u⟩ := p
    obtain ⟨said, same⟩ := here
    obtain rfl : u = w := same
    -- what is told or asked takes a turn, and the rest takes none
    cases said with
    | ends => exact ⟨k, _, by omega, served, .ends, rfl⟩
    | again rest => exact ⟨k, _, by omega, served, rest, rfl⟩
    | tell rest =>
      cases last
      exact ⟨k + 1, _, by omega, further, rest, rfl⟩
    | asks request more =>
      obtain ⟨⟨messages, stop⟩, stretched, rfl⟩ := Option.map_eq_some_iff.mp last
      exact ⟨k + 1, _, by omega, further, stretch_sound stretched, rfl⟩

end

/-- The stretch of a turn exists if the stretch that follows the turn does. -/
theorem upTo_isSome {after : Option S → Option (List I.Message × Stop I S)}
    (follows : ∀ flow, (after flow).isSome = true) (d : Dialogue I (Option S)) :
    (upTo after d).isSome = true := by
  induction d with
  | done flow => exact follows flow
  | tell message next ih =>
    simp only [upTo, Option.isSome_map]
    exact ih
  | ask request next _ => rfl

/-- A loop that asks in every turn, or ends in it, is patient. -/
theorem Patient.of_asking (asks : ∀ s, (stretch step 0 (step s)).isSome = true)
    (p : Point I S W) : Patient h step 1 p := by
  have made : ∀ d, (stretch step 1 d).isSome = true := by
    intro d
    refine upTo_isSome (fun flow => ?_) d
    cases flow with
    | none => rfl
    | some s => exact asks s
  exact ⟨made p.rest, fun _ _ _ _ => made _⟩

/-! ### Loops that end -/

/-- The number of messages and requests in a dialogue. -/
def length (h : Listener I W) : Dialogue I α → W → Nat
  | done _, _ => 0
  | tell message next, w => next.length h (h.tell message w) + 1
  | ask request next, w => (next (h.ask request w).1).length h (h.ask request w).2 + 1

/-- A turn is over after as many advances as it is long. -/
theorem Point.after_turn (d : Dialogue I (Option S)) (w : W) :
    Point.after h step (d.length h w) ⟨d, w⟩ = ⟨.done (d.run h w).1, (d.run h w).2⟩ := by
  induction d generalizing w with
  | done flow => rfl
  | tell message next ih => exact ih (h.tell message w)
  | ask request next ih => exact ih (h.ask request w).1 (h.ask request w).2

/-- A run that ends comes to its end, within as many advances as its turns are long. -/
theorem Point.after_run {turns : Nat} {s : S} {w w' : W}
    (ran : Loop.run h step turns s w = some w') :
    ∃ n, Point.after h step n ⟨step s, w⟩ = ⟨.done none, w'⟩ ∧
      ∀ most, (∀ s w, (step s).length h w ≤ most) → n ≤ turns * (most + 1) := by
  induction turns generalizing s w with
  | zero => cases ran
  | succ turns ih =>
    have reached : Point.after h step ((step s).length h w) ⟨step s, w⟩ = _ :=
      Point.after_turn (step s) w
    unfold Loop.run at ran
    rcases turn : (step s).run h w with ⟨flow, middle⟩
    rw [turn] at ran reached
    cases flow with
    | none =>
      cases ran
      refine ⟨_, reached, fun most within => ?_⟩
      have first := within s w
      rw [Nat.succ_mul]
      omega
    | some s' =>
      obtain ⟨n, later, few⟩ := ih ran
      refine ⟨n + 1 + (step s).length h w, ?_, fun most within => ?_⟩
      · rw [Point.after_add, reached]
        exact later
      · have first := within s w
        have rest := few most within
        rw [Nat.succ_mul]
        omega

theorem Loop.run_of_after {n : Nat} {d : Dialogue I (Option S)} {w w' : W}
    (gone : Point.after h step n ⟨d, w⟩ = ⟨.done none, w'⟩) :
    match d.run h w with
    | (none, last) => last = w'
    | (some s, middle) => ∃ turns, Loop.run h step turns s middle = some w' := by
  induction n generalizing d w with
  | zero =>
    cases gone
    rfl
  | succ n ih =>
    cases d with
    | done flow =>
      cases flow with
      | none => exact ih gone
      | some s =>
        have rest := ih (d := step s) gone
        rcases turn : (step s).run h w with ⟨flow, middle⟩
        rw [turn] at rest
        cases flow with
        | none =>
          obtain rfl : middle = w' := rest
          exact ⟨1, by simp [Loop.run, turn]⟩
        | some s' =>
          obtain ⟨turns, ran⟩ := rest
          exact ⟨turns + 1, by simp [Loop.run, turn, ran]⟩
    | tell message next => exact ih (d := next) gone
    | ask request next => exact ih (d := next (h.ask request w).1) gone

/-- A loop can be run to its end just where some number of advances brings it there. -/
theorem Loop.run_iff {s : S} {w w' : W} :
    (∃ turns, Loop.run h step turns s w = some w') ↔
      ∃ n, Point.after h step n ⟨step s, w⟩ = ⟨.done none, w'⟩ := by
  constructor
  · rintro ⟨turns, ran⟩
    obtain ⟨n, gone, _⟩ := Point.after_run ran
    exact ⟨n, gone⟩
  · rintro ⟨n, gone⟩
    exact Loop.run_of_after (n := n + 1) (d := .done (some s)) gone

/-! ### What holds on the way -/

/-- The property holds at every point that is left of a turn. -/
def Throughout (h : Listener I W) (P : Point I S W → Prop) : Dialogue I (Option S) → W → Prop
  | done flow, w => P ⟨done flow, w⟩
  | tell message next, w => P ⟨tell message next, w⟩ ∧ Throughout h P next (h.tell message w)
  | ask request next, w =>
    P ⟨ask request next, w⟩ ∧ Throughout h P (next (h.ask request w).1) (h.ask request w).2

section

variable {P : Point I S W → Prop}

theorem Throughout.here {d : Dialogue I (Option S)} {w : W} (all : Throughout h P d w) : P ⟨d, w⟩ := by
  cases d with
  | done flow => exact all
  | tell message next => exact all.1
  | ask request next => exact all.1

/-- Let a property hold throughout each turn that starts in `Inv`, and let each such turn end where
the next starts in `Inv`. Then the property holds at every point of a loop that starts in `Inv`. -/
theorem Loop.always {Inv : S → W → Prop} (holds : ∀ s w, Inv s w → Throughout h P (step s) w)
    (keeps : ∀ s w s' w', Inv s w → (step s).run h w = (some s', w') → Inv s' w') {s : S} {w : W}
    (inv : Inv s w) (n : Nat) : P (Point.after h step n ⟨step s, w⟩) := by
  have all : ∀ n, Throughout h P (Point.after h step n ⟨step s, w⟩).rest
      (Point.after h step n ⟨step s, w⟩).world ∧
      ∀ s' w', (Point.after h step n ⟨step s, w⟩).rest.run h (Point.after h step n ⟨step s, w⟩).world =
        (some s', w') → Inv s' w' := by
    intro n
    induction n with
    | zero => exact ⟨holds s w inv, fun s' w' => keeps s w s' w' inv⟩
    | succ n ih =>
      rw [Point.after_succ]
      generalize Point.after h step n ⟨step s, w⟩ = p at ih
      obtain ⟨d, u⟩ := p
      obtain ⟨here, next⟩ := ih
      cases d with
      | done flow =>
        cases flow with
        | none => exact ⟨here, next⟩
        | some s' =>
          have again := next s' u rfl
          exact ⟨holds s' u again, fun s'' w'' => keeps s' u s'' w'' again⟩
      | tell message d => exact ⟨here.2, next⟩
      | ask request d => exact ⟨here.2, next⟩
  exact (all n).1.here

end

end Dialogue
