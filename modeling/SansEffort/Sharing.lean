import SansEffort.Verdict

/-!
# Shared outboxes

A clone of an outbox can be used from any thread, between calls and during them, and a request
future can be moved away and dropped there. A drain takes every id closed so far, but only the
effects that are ready to leave, and a reply can find its slot gone before the host has been
told. Short of these two, closed ids keep their discipline whoever uses the outbox.
-/

namespace SansEffort

variable {σ E H V : Type}

namespace Hosted

/-- No drain found a request dropped unanswered behind an ask that is still being built. -/
def ClearDrains : List (Event E) → Prop
  | [] => True
  | .drained _ :: log => Unhindered log ∧ ClearDrains log
  | _ :: log => ClearDrains log

theorem ClearDrains.of_cons {event : Event E} {log : List (Event E)}
    (clear : ClearDrains (event :: log)) : ClearDrains log := by
  cases event
  case drained => exact clear.2
  all_goals exact clear

theorem ClearDrains.of_suffix {log older : List (Event E)} (clear : ClearDrains log)
    (suffix : older <:+ log) : ClearDrains older := by
  obtain ⟨front, rfl⟩ := suffix
  induction front with
  | nil => exact clear
  | cons event front ih => exact ih clear.of_cons

/-- The host does not reply to a request of whose end it has yet to be told. -/
def PromptAct (split : E → V × Option Pending) (s : Hosted σ E H V) : HostAct Call E → Prop
  | .call (.reply id value) => s.Prompt split id value
  | _ => True

/-- What an id listed as closed means to the host. -/
structure Disciplined (split : E → V × Option Pending) (s : Hosted σ E H V) : Prop where
  shown : ∀ id ∈ closedIds s.heard, id ∈ shownIds split s.outbox.log
  unanswered : ∀ id ∈ closedIds s.heard, id ∉ (accepted s.heard).map Prod.fst
  forgotten : ∀ id ∈ closedIds s.heard, id ∉ s.machine.pending.map Prod.fst

theorem Orderly.disciplined {split : E → V × Option Pending} {driver : Nat} {s : Hosted σ E H V}
    (orderly : Orderly split driver s) : s.Disciplined split := by
  have valid := orderly.kept.valid
  refine ⟨fun id closed => ?_, fun id closed answered => ?_, fun id closed kept => ?_⟩ <;>
    rw [orderly.closed] at closed
  · exact orderly.known id (.inr closed)
  · rw [orderly.accepted] at answered
    have replied := (valid.replied_iff id).mpr answered
    rw [valid.listed_abandoned id closed] at replied
    cases replied
  · obtain ⟨⟨_, p⟩, member, rfl⟩ := List.mem_map.mp kept
    exact ((orderly.table.pending _ p).mp member).2.2 (.inr closed)

theorem Run.orderly {r : Routine σ E H} {split : E → V × Option Pending} {driver : Nat}
    {waker : Waker} {make : Prog E σ} {acts : List (HostAct Call E)} {s : Hosted σ E H V}
    (ran : Run r split driver waker make acts s) (lawful : Lawful split driver s.outbox.log)
    (clear : ClearDrains s.outbox.log)
    (prompt : Transition.Along (Hosted.step r split) (PromptAct split)
      (new driver waker make : Hosted σ E H V) acts) : Orderly split driver s := by
  -- both laws are of the whole history, so each step assumes them of what there is after it
  have inv : s.outbox.Kept ∧ (Lawful split driver s.outbox.log → ClearDrains s.outbox.log →
      Orderly split driver s) := by
    refine Transition.run_invariant_along (PromptAct split)
      (fun s : Hosted σ E H V => s.outbox.Kept ∧ (Lawful split driver s.outbox.log →
        ClearDrains s.outbox.log → Orderly split driver s)) ?_ ?_ prompt ran
    · intro s a next ⟨kept, orderly⟩ prompt stepped
      obtain ⟨kept', suffix⟩ := step_later r split kept stepped
      refine ⟨kept', fun lawful clear => ?_⟩
      refine (orderly (lawful.of_suffix suffix) (clear.of_suffix suffix)).step ?_ stepped lawful
        fun y older whole => (whole ▸ clear : ClearDrains (.drained y :: older)).1
      rintro id value rfl
      exact prompt
    · have sound := sound_new (H := H) split driver waker make
      exact ⟨sound.kept, fun _ _ => sound.toOrderly⟩
  exact inv.2 lawful clear

/-- Whatever a routine's outbox is put through, by any threads during the calls and between
them: if every drain is clear and every reply prompt, then in each state reached an id listed
as closed has been shown, was not answered, and has left the machine's table. -/
theorem closed_ids_disciplined (r : Routine σ E H) (split : E → V × Option Pending) (driver : Nat)
    (waker : Waker) (make : Prog E σ) (acts : List (HostAct Call E)) (s : Hosted σ E H V)
    (ran : Run r split driver waker make acts s) (lawful : Lawful split driver s.outbox.log)
    (clear : ClearDrains s.outbox.log)
    (prompt : Transition.Along (Hosted.step r split) (PromptAct split)
      (new driver waker make : Hosted σ E H V) acts) : s.Disciplined split :=
  (ran.orderly lawful clear prompt).disciplined

end Hosted

/-! ### A routine that only waits, while others use its outbox -/

namespace Waiter

open Echo (Effect View)

def program : Program Unit Effect where
  poll _ _ := .ret (some (.pending, ()))
  drop _ := .ret (some ())
  wake _ _ := some ()

def asks (id : Nat) : HostAct Call Effect :=
  .other (.openRequest id (.ask ⟨1, id⟩) (anyAnswer .str))

abbrev RunsTo (acts : List (HostAct Call Effect)) (s : Hosted Unit Effect Unit View) : Prop :=
  Hosted.Run program.routine Effect.split 1 0 (.ret ()) acts s

/-- A second ask is built, asked and dropped while a first is being built, and the host resumes
the machine before the first is. -/
def overtaken : List (HostAct Call Effect) :=
  [.other .mint, .other .mint, asks 2, .other (.close 2), .call .resume]

/-- A request is dropped between two calls, and the host replies to it. -/
def crossed : List (HostAct Call Effect) :=
  [.other .mint, asks 1, .call .resume, .other (.close 1), .call (.reply 1 (.str "hi")),
    .call .resume]

/-- A request shown, dropped between two calls, and closed in the second. -/
theorem closed_ids_disciplined_dropped :
    ∃ s : Hosted Unit Effect Unit View,
      RunsTo [.other .mint, asks 1, .call .resume, .other (.close 1), .call .resume] s ∧
      closedIds s.heard = [1] ∧ s.Disciplined Effect.split := by
  refine ⟨_, rfl, rfl, ?_⟩
  exact Hosted.closed_ids_disciplined program.routine Effect.split 1 0 (.ret ())
    [.other .mint, asks 1, .call .resume, .other (.close 1), .call .resume] _ rfl
    (Echo.lawful_of_all rfl) ⟨by decide, by decide, trivial⟩
    ⟨trivial, fun _ _ => ⟨trivial, fun _ _ => ⟨trivial, fun _ _ => ⟨trivial, fun _ _ =>
      ⟨trivial, fun _ _ => trivial⟩⟩⟩⟩⟩

/-- Closed before it is shown and kept in the table for good, or closed although answered. -/
theorem closed_out_of_turn :
    (∃ s : Hosted Unit Effect Unit View, RunsTo overtaken s ∧
      Lawful Effect.split 1 s.outbox.log ∧
      2 ∈ closedIds s.heard ∧ 2 ∉ shownIds Effect.split s.outbox.log) ∧
    (∃ s : Hosted Unit Effect Unit View, RunsTo (overtaken ++ [asks 1, .call .resume]) s ∧
      Lawful Effect.split 1 s.outbox.log ∧
      2 ∈ closedIds s.heard ∧ 2 ∈ s.machine.pending.map Prod.fst) ∧
    (∃ s : Hosted Unit Effect Unit View, RunsTo crossed s ∧
      Lawful Effect.split 1 s.outbox.log ∧
      1 ∈ closedIds s.heard ∧ 1 ∈ (accepted s.heard).map Prod.fst) := by
  refine ⟨⟨_, rfl, ?_, ?_, ?_⟩, ⟨_, rfl, ?_, ?_, ?_⟩, ⟨_, rfl, ?_, ?_, ?_⟩⟩
  · exact Echo.lawful_of_all rfl
  · decide
  · decide
  · exact Echo.lawful_of_all rfl
  · decide
  · decide
  · exact Echo.lawful_of_all rfl
  · decide
  · decide

end Waiter

end SansEffort
