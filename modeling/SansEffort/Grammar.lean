import SansEffort.Layout
import SansEffort.Refusal

/-!
# The grammar of a reply record

A reply record is a kind, an id, and what the kind says follows, with nothing after it
(`encoded/input.rs`). A record is understood whole or refused before the machine sees it.
-/

namespace SansEffort

open Reading

variable {σ E H V : Type}

namespace Input

/-- The one layout of a record. -/
inductive Laid : Input → Bytes → Prop
  | str (id : UInt64) (s : String) (short : (utf8 s).length < 2 ^ 32) :
      Laid (.str id s) (1 :: (toLeBytes 8 id.toNat ++ (toLeBytes 4 (utf8 s).length ++ utf8 s)))
  | u64 (id v : UInt64) : Laid (.u64 id v) (2 :: (toLeBytes 8 id.toNat ++ toLeBytes 8 v.toNat))
  | unit (id : UInt64) : Laid (.unit id) (3 :: toLeBytes 8 id.toNat)
  | bytes (id : UInt64) (v : Bytes) (short : v.length < 2 ^ 32) :
      Laid (.bytes id v) (4 :: (toLeBytes 8 id.toNat ++ (toLeBytes 4 v.length ++ v)))

theorem reads_read (b : Bytes) (input : Input) (rest : Bytes) :
    Reads read b input rest ↔ rest = [] ∧ input.Laid b := by
  unfold read
  simp only [reads_bind, reads_u8]
  constructor
  · rintro ⟨tag, _, rfl, fields⟩
    -- one branch for each kind there is
    split at fields
    · next kind =>
      simp only [reads_bind, reads_u64, reads_str, reads_pure, reads_finish, payload_eq_some]
        at fields
      obtain ⟨id, _, rfl, s, _, ⟨_, ⟨short, rfl⟩, rfl⟩, _, _, ⟨rfl, rfl⟩, _, _, ⟨rfl, rfl⟩, rfl, rfl⟩ :=
        fields
      rw [kind, List.append_nil]
      exact ⟨rfl, .str id s short⟩
    · split at fields
      · next kind =>
        simp only [reads_bind, reads_u64, reads_pure, reads_finish] at fields
        obtain ⟨id, _, rfl, v, _, rfl, _, _, ⟨rfl, rfl⟩, _, _, ⟨rfl, rfl⟩, rfl, rfl⟩ := fields
        rw [kind, List.append_nil]
        exact ⟨rfl, .u64 id v⟩
      · split at fields
        · next kind =>
          simp only [reads_bind, reads_u64, reads_pure, reads_finish] at fields
          obtain ⟨id, _, rfl, _, _, ⟨rfl, rfl⟩, _, _, ⟨rfl, rfl⟩, rfl, rfl⟩ := fields
          rw [kind, List.append_nil]
          exact ⟨rfl, .unit id⟩
        · split at fields
          · next kind =>
            simp only [reads_bind, reads_u64, reads_bytes, reads_pure, reads_finish,
              payload_eq_some] at fields
            obtain ⟨id, _, rfl, v, _, ⟨_, ⟨short, rfl⟩, rfl⟩, _, _, ⟨rfl, rfl⟩, _, _, ⟨rfl, rfl⟩, rfl,
              rfl⟩ := fields
            rw [kind, List.append_nil]
            exact ⟨rfl, .bytes id v short⟩
          · simp at fields
  · rintro ⟨rfl, laid⟩
    cases laid with
    | str id s short =>
      simp [payload_of_lt short]
    | u64 id v => simp
    | unit id => simp
    | bytes id v short =>
      simp [payload_of_lt short]

theorem decode_eq_ok (b : Bytes) (input : Input) : decode b = .ok input ↔ input.Laid b := by
  unfold decode
  cases ran : read.run b with
  | error e =>
    constructor
    · intro h
      cases h
    · intro laid
      have accepted : read.run b = _ := (reads_read b input []).mpr ⟨rfl, laid⟩
      rw [ran] at accepted
      cases accepted
  | ok taken =>
    obtain ⟨other, rest⟩ := taken
    obtain ⟨rfl, own⟩ := (reads_read b other rest).mp ran
    constructor
    · intro h
      cases h
      exact own
    · intro laid
      have accepted : read.run b = _ := (reads_read b input []).mpr ⟨rfl, laid⟩
      rw [ran] at accepted
      cases accepted
      rfl

end Input

/-- A record is accepted just where the grammar has it. Any other is malformed to every machine,
whatever its state, and leaves it as it was. -/
theorem Encoded.records_follow_the_grammar (r : Routine σ E H) (split : E → V × Option Pending)
    (view : V → Writer → Option Writer) (b : Bytes) :
    (∀ input, Input.decode b = .ok input ↔ input.Laid b) ∧
    ((∀ input, ¬ Input.Laid input b) → ∃ error, Input.decode b = .error error ∧
      ∀ m : Machine σ E H, Encoded.reply r split view m b = some (.error (.malformed error), m)) := by
  refine ⟨Input.decode_eq_ok b, fun unlaid => ?_⟩
  cases decoded : Input.decode b with
  | ok input => exact absurd ((Input.decode_eq_ok b input).mp decoded) (unlaid input)
  | error error =>
    refine ⟨error, rfl, fun m => ?_⟩
    unfold Encoded.reply
    rw [decoded]

theorem Echo.records_follow_the_grammar_unknown :
    ∃ error, Input.decode [9, 1] = .error error ∧ ∀ m : Machine Echo.State Echo.Effect Unit,
      Encoded.reply program.routine Effect.split View.write m [9, 1] =
        some (.error (.malformed error), m) := by
  apply (Encoded.records_follow_the_grammar program.routine Effect.split View.write [9, 1]).2
  intro input laid
  cases laid

end SansEffort
