import SansEffort.Protocol.Accounts

/-!
# Replies

Each request outstanding has a reply ready at the host, or is asked in an output on its way there.
And the other way: a reply that the host has ready is for a request outstanding, or for one whose
closing is on its way. A call that fails breaks the second: what it closed, its output does not
tell.
-/

namespace SansEffort.Protocol

variable {k : Instance}

/-- The requests of a machine during a call, with `ready` the replies the host has for it, and
`owed` those it will still have. -/
structure Ledger (ready owed : Nat → Prop) (a : Account) : Prop where
  live : ∀ id, ready id → id ∈ a.machine.asks ∨ id ∈ a.closed
  asked : ∀ id ∈ a.asked, id ∈ a.machine.asks ∨ id ∈ a.closed
  closed : ∀ id ∈ a.closed, id ∉ a.machine.asks ∧ id < a.machine.nextId
  below : ∀ id ∈ a.machine.asks, id < a.machine.nextId
  paid : ∀ id ∈ a.machine.asks, owed id ∨ id ∈ a.asked

namespace Ledger

variable {ready owed : Nat → Prop} {m : Machine}

/-- The event that begins the call is used up, and is the reply it answers with. -/
theorem enter (sound : m.Sound k) {e : Event} {a : Account}
    (live : ∀ id, ready id → id ∈ m.asks ∧ e ≠ .reply e.target id)
    (paid : ∀ id ∈ m.asks, e ≠ .reply e.target id → owed id) (entry : Entry m ∅ ∅ e a) :
    Ledger ready owed a := by
  have below : ∀ id ∈ m.asks, id < m.nextId := fun id asked => (sound.asks_of_waits asked).2.2.2
  -- nothing but the machine's requests matters, and those have not changed
  have same : ∀ m' : Machine, m'.asks = m.asks → m'.nextId = m.nextId →
      (∀ id ∈ m.asks, e ≠ .reply e.target id) → Ledger ready owed ⟨m', ∅, ∅⟩ := by
    intro m' asks nextId unanswered
    refine ⟨fun id ready => .inl ?_, by simp, by simp, fun id asked => ?_, fun id asked => .inl ?_⟩
    · rw [asks]
      exact (live id ready).1
    · rw [asks] at asked
      rw [nextId]
      exact below id asked
    · rw [asks] at asked
      exact paid id asked (unanswered id asked)
  cases entry with
  | started | looked | kept => exact same _ rfl rfl (by simp)
  | discarded h i absent =>
    refine same _ rfl rfl fun id asked answered => absent ?_
    exact (Event.reply.inj answered).2 ▸ asked
  | won h status racing =>
    obtain ⟨_, id, _, low, asks, direct | this⟩ := sound.asking status
    · exact absurd direct racing
    refine ⟨fun id' ready => ?_, by simp, fun id' closed => ?_, fun id' asked => ?_,
      fun id' asked => .inl ?_⟩
    · by_cases here : id' = m.racing
      · exact .inr (by simp [here])
      · exact .inl (Finset.mem_sdiff.mpr ⟨(live id' ready).1, by simpa using here⟩)
    · obtain rfl : id' = m.racing := by simpa using closed
      refine ⟨fun asked => (Finset.mem_sdiff.mp asked).2 (Finset.mem_singleton_self _), ?_⟩
      rw [this]
      exact low
    · exact below id' (Finset.mem_sdiff.mp asked).1
    · exact paid id' (Finset.mem_sdiff.mp asked).1 (by simp)
  | answered h i _ =>
    refine ⟨fun id' ready => .inl ?_, by simp, by simp, fun id' asked => ?_, fun id' asked => .inl ?_⟩
    · obtain ⟨asked, other⟩ := live id' ready
      refine Finset.mem_sdiff.mpr ⟨asked, fun here => other ?_⟩
      rw [Finset.mem_singleton.mp here]
      rfl
    · exact below id' (Finset.mem_sdiff.mp asked).1
    · obtain ⟨asked, other⟩ := Finset.mem_sdiff.mp asked
      refine paid id' asked fun answered => other ?_
      rw [(Event.reply.inj answered).2]
      exact Finset.mem_singleton_self _

theorem turn {closed asked : Finset Nat} {a : Account} (ledger : Ledger ready owed ⟨m.bare, closed, asked⟩)
    (turn : Turn k m closed asked a) : Ledger ready owed a := by
  cases turn with
  | returned =>
    refine ⟨fun id ready => .inr ?_, fun id recorded => .inr ?_, fun id shut => ⟨by simp, ?_⟩,
      by simp, by simp⟩
    · exact Finset.mem_union.mpr (ledger.live id ready).symm
    · exact Finset.mem_union.mpr (ledger.asked id recorded).symm
    · rcases Finset.mem_union.mp shut with before | now
      · exact (ledger.closed id before).2
      · exact ledger.below id now
  | passed _ => exact ⟨ledger.live, ledger.asked, ledger.closed, ledger.below, ledger.paid⟩
  | idled _ => exact ⟨ledger.live, ledger.asked, ledger.closed, ledger.below, ledger.paid⟩
  | panicked => exact ⟨ledger.live, ledger.asked, ledger.closed, ledger.below, ledger.paid⟩
  | awaited c racing =>
    have grown : ∀ {id : Nat}, id ∈ m.asks → id ∈ m.asks ∪ {m.nextId} :=
      fun asked => Finset.mem_union_left _ asked
    refine ⟨fun id ready => (ledger.live id ready).imp_left grown, fun id recorded => ?_,
      fun id shut => ?_, fun id asked => ?_, fun id asked => ?_⟩
    · rcases Finset.mem_union.mp recorded with before | now
      · exact (ledger.asked id before).imp_left grown
      · exact .inl (Finset.mem_union_right _ now)
    · obtain ⟨absent, low⟩ := ledger.closed id shut
      refine ⟨fun asked => ?_, Nat.lt_succ_of_lt low⟩
      rcases Finset.mem_union.mp asked with before | now
      · exact absent before
      · rw [Finset.mem_singleton.mp now] at low
        exact Nat.lt_irrefl _ low
    · rcases Finset.mem_union.mp asked with before | now
      · exact Nat.lt_succ_of_lt (ledger.below id before)
      · rw [Finset.mem_singleton.mp now]
        exact Nat.lt_succ_self _
    · rcases Finset.mem_union.mp asked with before | now
      · exact (ledger.paid id before).imp_right (Finset.mem_union_left _)
      · exact .inr (Finset.mem_union_right _ now)

theorem of_same {a b : Account} (ledger : Ledger ready owed a)
    (asks : b.machine.asks = a.machine.asks) (nextId : b.machine.nextId = a.machine.nextId)
    (closed : b.closed = a.closed) (asked : b.asked = a.asked) : Ledger ready owed b := by
  obtain ⟨live, recorded, shut, below, paid⟩ := ledger
  rw [← asks, ← closed] at live
  rw [← asks, ← closed, ← asked] at recorded
  rw [← asks, ← nextId, ← closed] at shut
  rw [← asks, ← nextId] at below
  rw [← asks, ← asked] at paid
  exact ⟨live, recorded, shut, below, paid⟩

end Ledger

namespace Host

variable {s s' : Host}

/-- Each request outstanding will have its reply, and the outputs on their way close none of those
and ask no other. -/
structure Owing (s : Host) : Prop where
  owed : ∀ g m id, s.machines[g]? = some m → id ∈ m.asks →
    .reply g id ∈ s.pending ∨ ∃ out, s.inFlight.lookup g = some out ∧ id ∈ askedIn out.effects
  closed : ∀ g m out id, s.machines[g]? = some m → s.inFlight.lookup g = some out →
    id ∈ out.closed → id ∉ m.asks
  asked : ∀ g m out id, s.machines[g]? = some m → s.inFlight.lookup g = some out →
    id ∈ askedIn out.effects → id ∈ m.asks ∨ id ∈ out.closed

/-- Each reply ready is for a request outstanding, or for one whose closing is on its way. -/
def Live (s : Host) : Prop :=
  ∀ g id, .reply g id ∈ s.pending → ∃ m, s.machines[g]? = some m ∧
    (id ∈ m.asks ∨ ∃ out, s.inFlight.lookup g = some out ∧ id ∈ out.closed)

/-- The machine that was called, and the output that is on its way. -/
theorem called_ledger (sound : s.Sound k) (owing : s.Owing) {e : Event} (worker : Nat) {m : Machine}
    (found : s.machines[e.target]? = some m) (free : e.target ∉ s.inFlight.keys)
    (ready : Nat → Prop) (live : ∀ id, ready id → id ∈ m.asks ∧ e ≠ .reply e.target id) :
    ∃ m' out, (s.called k e worker m).machines[e.target]? = some m' ∧
      (s.called k e worker m).inFlight.lookup e.target = some out ∧
      ((s.world.attempt k e).failed e.target ∧ m'.asks = ∅ ∧ askedIn out.effects = ∅ ∧
          out.closed = ∅ ∨
        ¬ (s.world.attempt k e).failed e.target ∧
          Ledger ready (fun id => .reply e.target id ∈ s.pending.erase e)
            ⟨m', out.closed, askedIn out.effects⟩) := by
  have self := sound.world.machines m (List.mem_of_getElem? found)
  obtain ⟨a, ran, ledger⟩ := World.attempt_account (k := k) (w := s.world) found
    (Ledger ready fun id => .reply e.target id ∈ s.pending.erase e)
    (fun a entry => Ledger.enter self live (fun id asked other => by
      obtain pending | ⟨out, flying, _⟩ := owing.owed e.target m id found asked
      · exact Finset.mem_erase.mpr ⟨Ne.symm other, pending⟩
      · cases (not_mem_keys.mp free).symm.trans flying) entry)
    (fun n closed asked a _ ledger turn => ledger.turn turn)
  obtain ⟨m', there, _, ⟨failed, _, _, asks⟩ | ⟨ended, _, closed, asked, same⟩⟩ :=
    World.owned_self (k := k) worker m ran
  · refine ⟨m', _, there, Finmap.lookup_insert _, .inl ⟨failed, asks, ?_, ?_⟩⟩
    · rw [output_effects, if_pos failed]
      rfl
    · rw [output_closed, if_pos failed]
  · refine ⟨m', _, there, Finmap.lookup_insert _, .inr ⟨ended, ledger.of_same ?_ ?_ ?_ ?_⟩⟩
    · have same := congrArg Machine.asks same
      exact same
    · have same := congrArg Machine.nextId same
      exact same
    · dsimp only
      rw [output_closed, if_neg ended]
      exact closed
    · dsimp only
      rw [output_effects, if_neg ended]
      exact asked

/-- The machine of a call in flight, or of a reply, keeps its requests through the others' steps. -/
theorem asks_of_bare {m m' : Machine} (same : m'.bare = m.bare) : m'.asks = m.asks := by
  have := congrArg Machine.asks same
  exact this

theorem called_owing (sound : s.Sound k) (owing : s.Owing) {e : Event} (worker : Nat) {m : Machine}
    (found : s.machines[e.target]? = some m) (free : e.target ∉ s.inFlight.keys) :
    (s.called k e worker m).Owing := by
  obtain ⟨m', out, self, flying, ends⟩ := called_ledger sound owing worker found free
    (fun _ => False) (fun _ no => no.elim)
  refine ⟨fun g n id there asked => ?_, fun g n o id there flying' shut => ?_,
    fun g n o id there flying' recorded => ?_⟩
  -- what is owed: by the machine called, by another, by a new one
  · obtain rfl | ⟨away, before, there', bare⟩ | ⟨_, _, child, _, _, bare⟩ := of_called there
    · obtain rfl := Option.some.inj (self.symm.trans there)
      rcases ends with ⟨_, asks, _, _⟩ | ⟨_, ledger⟩
      · rw [asks] at asked
        simp at asked
      · exact (ledger.paid id asked).imp_right fun recorded => ⟨out, flying, recorded⟩
    · rw [asks_of_bare bare] at asked
      rcases owing.owed g before id there' asked with pending | ⟨o, flying', recorded⟩
      · refine .inl (Finset.mem_erase.mpr ⟨?_, pending⟩)
        rintro rfl
        exact away rfl
      · exact .inr ⟨o, (called_flying k worker m free flying').2, recorded⟩
    · have asks := congrArg Machine.asks bare
      rw [show n.asks = ∅ from asks] at asked
      simp at asked
  -- what its output closes it does not ask for
  · obtain ⟨rfl, _⟩ | ⟨away, before⟩ := of_insert flying'
    · obtain rfl := Option.some.inj (self.symm.trans there)
      obtain rfl := Option.some.inj (flying.symm.trans flying')
      rcases ends with ⟨_, asks, _, _⟩ | ⟨_, ledger⟩
      · simp [asks]
      · exact (ledger.closed id shut).1
    · obtain ⟨old, at_g, _⟩ := sound.told g o before
      obtain ⟨n', there', bare⟩ := called_other (k := k) worker m away at_g
      obtain rfl := Option.some.inj (there.symm.trans there')
      rw [asks_of_bare bare]
      exact owing.closed g old o id at_g before shut
  · obtain ⟨rfl, _⟩ | ⟨away, before⟩ := of_insert flying'
    · obtain rfl := Option.some.inj (self.symm.trans there)
      obtain rfl := Option.some.inj (flying.symm.trans flying')
      rcases ends with ⟨_, _, unasked, _⟩ | ⟨_, ledger⟩
      · rw [unasked] at recorded
        simp at recorded
      · exact ledger.asked id recorded
    · obtain ⟨old, at_g, _⟩ := sound.told g o before
      obtain ⟨n', there', bare⟩ := called_other (k := k) worker m away at_g
      obtain rfl := Option.some.inj (there.symm.trans there')
      rw [asks_of_bare bare]
      exact owing.asked g old o id at_g before recorded

/-- Freeing a machine takes no request from it. -/
theorem asks_of_retire {h g : Nat} {out : Output} {m' : Machine}
    (there : (retire s.machines h out)[g]? = some m') :
    ∃ m, s.machines[g]? = some m ∧ m'.asks = m.asks := by
  obtain ⟨m, found, same⟩ := machine_of_retire there
  exact ⟨m, found, by rw [same]⟩

theorem mem_returned_reply (correct : k.Correct) {h g id : Nat} {out : Output} :
    .reply g id ∈ (s.returned k h out).pending ↔
      (.reply g id ∈ s.pending ∨ g = h ∧ id ∈ askedIn out.effects) ∧ ¬ (g = h ∧ id ∈ out.closed) := by
  show _ ∈ (_ ∪ _ ∪ _ ∪ _ ∪ _) \ _ ↔ _
  rw [correct.dropsClosed, correct.waitsForWoke]
  simp only [Finset.mem_sdiff, Finset.mem_union]
  split <;> simp <;> grind

theorem step_owing (correct : k.Correct) (sound : s.Sound k) (owing : s.Owing) {a : Action}
    (taken : s.step k a = some s') : s'.Owing := by
  cases step_cases taken with
  | refused e worker m found unrouted _ => cases correct.routesPinned.symm.trans unrouted
  | called e worker m found _ _ _ free _ => exact called_owing sound owing worker found free
  | returned h out found =>
    refine ⟨fun g m' id there asked => ?_, fun g m' o id there flying shut => ?_,
      fun g m' o id there flying recorded => ?_⟩
    all_goals obtain ⟨m, before, asks⟩ := asks_of_retire there
    · rw [asks] at asked
      rw [mem_returned_reply correct]
      have kept : ¬ (g = h ∧ id ∈ out.closed) := by
        rintro ⟨rfl, shut⟩
        exact owing.closed g m out id before found shut asked
      rcases owing.owed g m id before asked with pending | ⟨o, flying, recorded⟩
      · exact .inl ⟨.inl pending, kept⟩
      · by_cases here : g = h
        · subst here
          obtain rfl := Option.some.inj (found.symm.trans flying)
          exact .inl ⟨.inr ⟨rfl, recorded⟩, kept⟩
        · exact .inr ⟨o, (Finmap.lookup_erase_ne here).trans flying, recorded⟩
    · rw [asks]
      exact owing.closed g m o id before (of_erase flying).2 shut
    · rw [asks]
      exact owing.asked g m o id before (of_erase flying).2 recorded
  | woken _ pending inFlight _ =>
    refine ⟨fun g m id there asked => ?_, owing.closed, owing.asked⟩
    rcases owing.owed g m id there asked with reply | ⟨o, flying, _⟩
    · rw [pending] at reply
      simp at reply
    · cases (lookup_none_of_empty inFlight g).symm.trans flying
  | judged => exact ⟨owing.owed, owing.closed, owing.asked⟩
  | spurred h m _ _ _ _ _ =>
    refine ⟨fun g m id there asked => ?_, owing.closed, owing.asked⟩
    exact (owing.owed g m id there asked).imp_left (Finset.mem_union_left _)
  | killed h m found _ free _ =>
    -- the machine that is gone has no requests, and no call in flight
    have away : ∀ {g : Nat} {o : Output}, s.inFlight.lookup g = some o → g ≠ h := by
      rintro g o flying rfl
      cases (not_mem_keys.mp free).symm.trans flying
    refine ⟨fun g m' id there asked => ?_, fun g m' o id there flying shut => ?_,
      fun g m' o id there flying recorded => ?_⟩
    all_goals obtain ⟨here, _, unasked⟩ | ⟨other, before, there', bare⟩ := of_killed there
    · rw [unasked] at asked
      simp at asked
    · rw [asks_of_bare bare] at asked
      exact (owing.owed g before id there' asked).imp_left fun pending =>
        Finset.mem_filter.mpr ⟨pending, other⟩
    · exact absurd here (away flying)
    · rw [asks_of_bare bare]
      exact owing.closed g before o id there' flying shut
    · exact absurd here (away flying)
    · rw [asks_of_bare bare]
      exact owing.asked g before o id there' flying recorded
  | done _ => exact owing

theorem owing_init (k : Instance) : (init k).Owing := by
  refine ⟨fun g m id there asked => ?_, by simp [init], by simp [init]⟩
  obtain ⟨low, rfl⟩ := List.getElem?_eq_some_iff.mp there
  have low : g < 1 := low
  obtain rfl : g = 0 := by omega
  exact absurd asked (Finset.notMem_empty id)

/-! ### No reply is stale -/

/-- A call that fails leaves no reply ready for its machine. -/
def RepliesSpent (k : Instance) (s : Host) : Action → Prop
  | .call e _ => (s.world.attempt k e).failed e.target →
      ∀ id, .reply e.target id ∈ s.pending → e = .reply e.target id
  | _ => True

theorem called_live (sound : s.Sound k) (owing : s.Owing) (live : s.Live) {e : Event} (worker : Nat)
    {m : Machine} (found : s.machines[e.target]? = some m) (free : e.target ∉ s.inFlight.keys)
    (spent : s.RepliesSpent k (.call e worker)) : (s.called k e worker m).Live := by
  have own : ∀ id, .reply e.target id ∈ s.pending.erase e → id ∈ m.asks ∧ e ≠ .reply e.target id := by
    intro id pending
    obtain ⟨other, pending⟩ := Finset.mem_erase.mp pending
    obtain ⟨m', there, asked | ⟨o, flying, _⟩⟩ := live _ id pending
    · obtain rfl := Option.some.inj (found.symm.trans there)
      exact ⟨asked, Ne.symm other⟩
    · cases (not_mem_keys.mp free).symm.trans flying
  obtain ⟨m', out, self, flying, ends⟩ := called_ledger sound owing worker found free
    (fun id => .reply e.target id ∈ s.pending.erase e) own
  intro g id pending
  have pending : .reply g id ∈ s.pending.erase e := pending
  by_cases here : g = e.target
  · subst here
    rcases ends with ⟨failed, _⟩ | ⟨_, ledger⟩
    · obtain ⟨other, pending⟩ := Finset.mem_erase.mp pending
      exact absurd (spent failed id pending).symm other
    · exact ⟨m', self, (ledger.live id pending).imp_right fun shut => ⟨out, flying, shut⟩⟩
  · obtain ⟨before, there, known⟩ := live g id (Finset.mem_erase.mp pending).2
    obtain ⟨after, there', bare⟩ := called_other (k := k) worker m here there
    refine ⟨after, there', ?_⟩
    rw [asks_of_bare bare]
    rcases known with asked | ⟨o, flying', shut⟩
    · exact .inl asked
    · exact .inr ⟨o, (called_flying k worker m free flying').2, shut⟩

theorem step_live (correct : k.Correct) (sound : s.Sound k) (owing : s.Owing) (live : s.Live)
    {a : Action} (spent : s.RepliesSpent k a) (taken : s.step k a = some s') : s'.Live := by
  cases step_cases taken with
  | refused e worker m found unrouted _ => cases correct.routesPinned.symm.trans unrouted
  | called e worker m found _ _ _ free _ =>
    exact called_live sound owing live worker found free spent
  | returned h out found =>
    intro g id pending
    obtain ⟨known, undropped⟩ := (mem_returned_reply correct).mp pending
    -- what was closed is dropped, so a request of this machine is outstanding
    have asks : ∀ m, s.machines[g]? = some m →
        ∃ m', (retire s.machines h out)[g]? = some m' ∧ m'.asks = m.asks := by
      intro m there
      have bound : g < (retire s.machines h out).length := by
        rw [length_retire]
        exact (List.getElem?_eq_some_iff.mp there).1
      obtain ⟨before, there', same⟩ := asks_of_retire (List.getElem?_eq_getElem bound)
      obtain rfl := Option.some.inj (there.symm.trans there')
      exact ⟨_, List.getElem?_eq_getElem bound, same⟩
    have outstanding : ∃ m, s.machines[g]? = some m ∧
        (id ∈ m.asks ∨ ∃ o, (s.inFlight.erase h).lookup g = some o ∧ id ∈ o.closed) := by
      rcases known with pending | ⟨rfl, recorded⟩
      · obtain ⟨m, there, asked | ⟨o, flying, shut⟩⟩ := live g id pending
        · exact ⟨m, there, .inl asked⟩
        · by_cases here : g = h
          · subst here
            obtain rfl := Option.some.inj (found.symm.trans flying)
            exact absurd ⟨rfl, shut⟩ undropped
          · exact ⟨m, there, .inr ⟨o, (Finmap.lookup_erase_ne here).trans flying, shut⟩⟩
      · obtain ⟨m, there, _⟩ := sound.told g out found
        refine ⟨m, there, .inl ?_⟩
        exact (owing.asked g m out id there found recorded).resolve_right fun shut =>
          undropped ⟨rfl, shut⟩
    obtain ⟨m, there, known⟩ := outstanding
    obtain ⟨m', there', same⟩ := asks m there
    rw [← same] at known
    exact ⟨m', there', known⟩
  | woken _ _ _ _ =>
    intro g id pending
    obtain ⟨_, _, same⟩ := Finset.mem_image.mp pending
    cases same
  | judged => exact live
  | spurred h m _ _ _ _ _ =>
    intro g id pending
    refine live g id ((Finset.mem_union.mp pending).resolve_right ?_)
    simp
  | killed h m found _ free _ =>
    intro g id pending
    obtain ⟨pending, away⟩ := Finset.mem_filter.mp pending
    obtain ⟨before, there, known⟩ := live g id pending
    have only := (World.dropSenders_spec (s.world.update h (·.over .gone)) m.holds).1.only
      (World.only_update h s.world rfl)
    obtain ⟨after, found', bare⟩ := Option.map_eq_some_iff.mp
      ((only.bare g away).trans (World.bare_of there))
    refine ⟨after, found', ?_⟩
    rw [asks_of_bare bare]
    exact known
  | done _ => exact live

theorem live_init (k : Instance) : (init k).Live := by
  intro g id pending
  cases Finset.mem_singleton.mp pending

theorem step_noStaleReply (correct : k.Correct) (live : s.Live) (fair : s.noStaleReply) {a : Action}
    (taken : s.step k a = some s') : s'.noStaleReply := by
  cases step_cases taken with
  | refused e worker m found unrouted _ => cases correct.routesPinned.symm.trans unrouted
  | called e worker m found pending _ _ free _ =>
    have right : ¬ isStale m e := by
      cases e with
      | resume h => exact id
      | reply h i =>
        obtain ⟨m', there, asked | ⟨o, flying, _⟩⟩ := live h i pending
        · obtain rfl := Option.some.inj (found.symm.trans there)
          exact not_not.mpr asked
        · cases (not_mem_keys.mp free).symm.trans flying
    have same : (s.called k e worker m).stale = if isStale m e then s.stale + 1 else s.stale := rfl
    rw [noStaleReply, same, if_neg right]
    exact fair
  | returned | woken | judged | spurred | killed | done => exact fair

/-- The host and the library agree on the requests outstanding. -/
structure Settling (k : Instance) (s : Host) : Prop where
  sound : s.Sound k
  owing : s.Owing
  live : s.Live
  fair : s.noStaleReply

end Host

/-- In every run in which no call that fails leaves a reply ready for its machine, no reply is
stale. -/
theorem no_reply_is_stale (k : Instance) (correct : k.Correct) (actions : List Host.Action)
    (s : Host) (ran : Transition.run (Host.step k) (Host.init k) actions = some s)
    (spent : Transition.Along (Host.step k) (Host.RepliesSpent k) (Host.init k) actions) :
    s.noStaleReply := by
  have settling := Transition.run_invariant_along (Host.RepliesSpent k) (Host.Settling k)
    (fun _ _ _ before spent taken => ⟨before.sound.step taken,
      Host.step_owing correct before.sound before.owing taken,
      Host.step_live correct before.sound before.owing before.live spent taken,
      Host.step_noStaleReply correct before.live before.fair taken⟩)
    ⟨Host.sound_init k, Host.owing_init k, Host.live_init k, rfl⟩ spent ran
  exact settling.fair

/-- A race is won by a message, and the routine panics in the same call. -/
def panicker : Instance where
  names := {"parent", "sender"}
  programs p := if p = "parent" then [.spawn "sender", .race "answer", .panic] else [.send "answer"]
  holds p := if p = "sender" then ["answer"] else []
  root := "parent"
  workers := 1
  heedsWoke := true
  dropsClosed := true
  routesPinned := true
  checksAllDone := true
  waitsForWoke := true
  spurious := 0
  kills := 0
  holds_distinct p := by
    split <;> simp
  root_named := by decide
  spawns_named p _ q spawned := by
    by_cases parent : p = "parent"
    · obtain rfl : q = "sender" := by simpa [parent] using spawned
      decide
    · simp [parent] at spawned

theorem no_reply_is_stale_race :
    ∃ s, Transition.run (Host.step panicker) (Host.init panicker)
        [.call (.resume 0) 0, .ret 0] = some s ∧ s.noStaleReply := by
  refine ⟨_, rfl, no_reply_is_stale panicker ⟨rfl, rfl, rfl, rfl, rfl⟩
    [.call (.resume 0) 0, .ret 0] _ rfl ⟨fun failed => ?_, fun next _ => ⟨trivial, fun _ _ => trivial⟩⟩⟩
  exact absurd failed (by decide)

/-- The reply to the race's request is sent to the machine that has panicked. -/
theorem reply_after_a_panic_is_stale :
    ¬ ∀ (k : Instance), k.Correct → k.Short → 1 ≤ k.workers → ∀ (actions : List Host.Action)
      (s : Host), Transition.run (Host.step k) (Host.init k) actions = some s → s.noStaleReply := by
  intro kept
  have short : panicker.Short := by
    intro p _
    show (if p = "parent" then _ else _ : List Instr).length ≤ 7
    split <;> simp
  have fair := kept panicker ⟨rfl, rfl, rfl, rfl, rfl⟩ short (le_refl _)
    [.call (.resume 0) 0, .ret 0, .call (.resume 1) 0, .ret 1, .call (.resume 0) 0, .ret 0,
      .call (.reply 0 1) 0] _ rfl
  unfold Host.noStaleReply at fair
  revert fair
  decide

end SansEffort.Protocol
