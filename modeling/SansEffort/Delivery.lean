import SansEffort.Verdict

/-!
# Replies reach their futures

Each accepted reply is what the future of its request resolves to, once and unchanged, and a
request ends in one of two ways the host can see: answered, or listed as closed.
-/

namespace SansEffort

variable {σ E H V : Type}

/-- Every request future made was dropped later: none was leaked. -/
def NoLeaks (log : List (Event E)) : Prop :=
  ∀ newer older id e a, log = newer ++ .opened id e a :: older → .dropped id ∈ newer

theorem Life.drop_content (l : Life) : l.drop.content = none := by
  cases l <;> rfl

theorem Life.content_collect {l : Life} (ended : l.content = none) : l.collect = l :=
  (Life.value_of_content_none ended).2.2.2

/-- Once opened a request is never opened again, and once dropped its slot is gone for good. -/
theorem Valid.dropped_ended {newer older : List (Event E)} {id : Nat} {e : E} {a : Answer}
    (valid : Valid (newer ++ .opened id e a :: older)) :
    life id (newer ++ .opened id e a :: older) ≠ .unopened ∧
      (.dropped id ∈ newer → (life id (newer ++ .opened id e a :: older)).content = none) := by
  induction newer with
  | nil => exact ⟨by simp [life, Life.step], fun dropped => by cases dropped⟩
  | cons event newer ih =>
    cases valid with
    | cons valid allowed =>
      obtain ⟨opened, ended⟩ := ih valid
      rw [List.cons_append, life]
      obtain ⟨e', b, rfl, step⟩ | ⟨v, rfl, step⟩ | ⟨v, rfl, step⟩ | ⟨rfl, step⟩ | ⟨step, other⟩ :=
        Life.step_cases id (life id (newer ++ .opened id e a :: older)) event
      · exact absurd (valid.not_building_of_opened id allowed) opened
      · obtain ⟨b, alive, _⟩ := allowed
        rw [step]
        refine ⟨by simpa using opened, fun dropped => ?_⟩
        rcases List.mem_cons.mp dropped with same | earlier
        · cases same
        · have dead := (Life.value_of_content_none (ended earlier)).2.1
          cases dead.symm.trans alive
      · rw [step]
        refine ⟨by simpa using opened, fun dropped => ?_⟩
        rcases List.mem_cons.mp dropped with same | earlier
        · cases same
        · rw [Life.content_collect (ended earlier)]
          exact ended earlier
      · rw [step]
        exact ⟨by simpa using opened, fun _ => Life.drop_content _⟩
      · rw [step]
        refine ⟨opened, fun dropped => ?_⟩
        rcases List.mem_cons.mp dropped with rfl | earlier
        · exact absurd rfl other
        · exact ended earlier

namespace Hosted

/-- A request shown ends answered or listed as closed, once its future has been dropped. -/
theorem Sound.ended {split : E → V × Option Pending} {driver : Nat} {s : Hosted σ E H V}
    (sound : Sound split driver s) (lawful : Lawful split driver s.outbox.log)
    (dropped : NoLeaks s.outbox.log) (id : Nat) (shown : id ∈ shownIds split s.outbox.log) :
    gone s.outbox.log id := by
  obtain ⟨p, member, rfl⟩ := List.mem_map.mp shown
  by_contra here
  obtain ⟨a, opened, waits, _⟩ := sound.waits lawful member here
  obtain ⟨e, there⟩ := (mem_openings_iff _ _ _).mp opened
  obtain ⟨newer, older, whole⟩ := List.append_of_mem there
  have valid := sound.kept.valid
  have ended := (whole ▸ valid : Valid (newer ++ .opened p.id e a :: older)).dropped_ended.2
    (dropped newer older p.id e a whole)
  rw [← whole, show s.machine.driver.shared.outbox.log = s.outbox.log from rfl, waits] at ended
  cases ended

end Hosted

namespace Echo

end Echo

end SansEffort
