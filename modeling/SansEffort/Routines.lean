import SansEffort.Alone

/-!
# The demo's routines

Routines written against their contexts alone (`demo/routines`), and what a host that drives them
from Python writes for them: the same, whatever its world holds, as they were written to say.
-/

namespace SansEffort

open Boundary Dialogue Python

/-! ### What they do through their contexts -/

section

/-- A routine's code over a context with every ability. -/
abbrev Async := Dialogue everything.interface

/-- `Ctx::ask`. -/
def asking (r : Boundary.Request) : Async r.reply.Carrier := .ask r .done

def writeLine (line : String) : Async Unit := say ⟨line⟩

def readLine : Async (Except ReadLineError String) := asking (.readLine ⟨⟩)

def lookup (name : String) : Async String := asking (.lookup ⟨name⟩)

def count : Async UInt64 := asking (.count ⟨⟩)

def sleep (duration : Duration) : Async Unit := asking (.sleep ⟨duration⟩)

def now : Async UnixTime := asking (.now ⟨⟩)

def randomBytes (len : UInt32) : Async Bytes := asking (.random ⟨len⟩)

def var (name : String) : Async (Option String) := asking (.var ⟨name⟩)

def readFile (path : String) : Async (Except FsError Bytes) := asking (.readFile ⟨path⟩)

def writeFile (path : String) (bytes : Bytes) : Async (Except FsError Unit) :=
  asking (.writeFile ⟨path, bytes⟩)

end

/-! ### How long lines are -/

theorem utf8_append (a b : String) : utf8 (a ++ b) = utf8 a ++ utf8 b := by
  simp [utf8, String.toByteArray_append]

/-- ASCII, and all on one line. -/
def Plain (s : String) : Prop := ∀ c ∈ s.toList, c.toNat < 128 ∧ c.toNat ≠ 10

theorem Plain.append {a b : String} (first : Plain a) (second : Plain b) : Plain (a ++ b) := by
  intro c member
  rw [String.toList_append] at member
  exact (List.mem_append.mp member).elim (first c) (second c)

theorem utf8_plain {s : String} (plain : Plain s) :
    (utf8 s).length = s.length ∧ 10 ∉ utf8 s := by
  obtain ⟨chars, rfl⟩ : ∃ chars, s = String.ofList chars := ⟨s.toList, by simp⟩
  induction chars with
  | nil => simp [utf8]
  | cons c rest ih =>
    have split : String.ofList (c :: rest) = String.ofList [c] ++ String.ofList rest := by
      rw [← String.ofList_append]
      rfl
    obtain ⟨small, other⟩ := plain c (by simp)
    obtain ⟨length, line⟩ := ih fun c member => plain c (by simp at member ⊢; exact .inr member)
    have one : c.utf8Size = 1 := Char.utf8Size_eq_one_iff.mpr (by
      rw [UInt32.le_iff_toNat_le]
      exact Nat.le_of_lt_succ small)
    have own : utf8 (String.ofList [c]) = [c.val.toUInt8] := by
      simp [utf8, List.utf8Encode, String.utf8EncodeChar_eq_singleton one]
    have not_line : c.val.toUInt8 ≠ 10 := by
      intro same
      have value := congrArg UInt8.toNat same
      rw [UInt32.toNat_toUInt8] at value
      have own : c.val.toNat = c.toNat := rfl
      simp at value
      omega
    rw [split, utf8_append, own]
    refine ⟨?_, ?_⟩
    · simp at length ⊢
      omega
    · simp only [List.cons_append, List.nil_append, List.mem_cons, not_or]
      exact ⟨not_line.symm, line⟩

theorem plain_number (n : Nat) : Plain (toString n) := by
  intro c member
  have digit : c ∈ Nat.toDigits 10 n := by
    rw [← Nat.toList_repr]
    exact member
  have own := Nat.isDigit_of_mem_toDigits (b := 10) (by decide) (by decide) digit
  simp only [Char.isDigit, Bool.and_eq_true, decide_eq_true_eq, ge_iff_le, UInt32.le_iff_toNat_le] at own
  obtain ⟨low, high⟩ := own
  have value : c.val.toNat = c.toNat := rfl
  have zero : '0'.val.toNat = 48 := rfl
  have nine : '9'.val.toNat = 57 := rfl
  omega

theorem length_utf8_number {n k : Nat} (positive : 0 < k) (small : n < 10 ^ k) :
    (utf8 (toString n)).length ≤ k := by
  rw [(utf8_plain (plain_number n)).1]
  exact (Nat.length_repr_le_iff positive).mpr small

/-! ### Over a host's world -/

section

variable (w : World)

@[simp] theorem run_writeLine (line : String) :
    (writeLine line).run World.context w = ((), { w with written := w.written ++ [line] }) := rfl

@[simp] theorem run_readLine : readLine.run World.context w =
    (w.lines.head?.elim (.error .closed) .ok, { w with lines := w.lines.tail }) := rfl

@[simp] theorem run_lookup (name : String) :
    (lookup name).run World.context w = ((GREETINGS.lookup name).getD "Greetings", w) := rfl

@[simp] theorem run_count : count.run World.context w =
    (UInt64.ofNat (w.greeted + 1), { w with greeted := w.greeted + 1 }) := rfl

@[simp] theorem run_sleep (duration : Duration) : (sleep duration).run World.context w =
    ((), { w with now := w.now + (SleepEffect.mk duration).millis.toNat }) := rfl

@[simp] theorem run_now : now.run World.context w =
    (⟨.fromNanos (UInt64.ofNat w.nanos)⟩, { w with readings := w.readings + 1 }) := rfl

@[simp] theorem run_randomBytes (len : UInt32) : (randomBytes len).run World.context w =
    (w.bytes len.toNat, { w with nextByte := (w.nextByte + len.toNat) % 256 }) := rfl

@[simp] theorem run_var (name : String) :
    (var name).run World.context w = (ENVIRONMENT.lookup name, w) := rfl

@[simp] theorem run_readFile (path : String) : (readFile path).run World.context w =
    ((w.files path).elim (.error .notFound) .ok, w) := rfl

@[simp] theorem run_writeFile (path : String) (bytes : Bytes) :
    (writeFile path bytes).run World.context w =
      (.ok (), { w with files := Function.update w.files path (some bytes) }) := rfl

/-! What crosses, in what is said next and after it. -/

variable {α : Type}

abbrev AllCross {S : Type} (d : Async (Option S)) (w : World) : Prop :=
  Throughout World.context Crosses d w

variable {S : Type}

theorem allCross_pure (flow : Option S) : AllCross (pure flow) w := trivial

theorem allCross_writeLine (line : String) (k : Unit → Async (Option S)) :
    AllCross (writeLine line >>= k) w ↔ (utf8 line).length + 5 < 2 ^ 32 ∧
      AllCross (k ()) { w with written := w.written ++ [line] } := Iff.rfl

theorem allCross_asking (request : Boundary.Request) (k : request.reply.Carrier → Async (Option S)) :
    AllCross (asking request >>= k) w ↔ (Short request ∧ Fits w request) ∧
      AllCross (k (World.context.ask request w).1) (World.context.ask request w).2 := Iff.rfl

end

/-- How long a routine pauses when it pauses. -/
def PAUSE : Duration := .fromMillis 50

/-! ### The greeter -/

namespace Greeter

def goodbye : Async (Option Unit) := do
  writeLine "Bye."
  return none

/-- Prompt, read a name, look up a greeting, pause, greet, count, until the name is `quit` or the
input ends. -/
def step : Loop everything.interface Unit := fun _ => do
  writeLine "Who are you?"
  match ← readLine with
  | .ok name =>
    if name ≠ "quit" then
      let greeting ← lookup name
      sleep PAUSE
      writeLine (greeting ++ ", " ++ name ++ "!")
      let n ← count
      writeLine ("(greeted " ++ toString n.toNat ++ " so far)")
      return some ()
    else goodbye
  | .error _ => goodbye

/-- The greetings of the names, after `n` earlier ones. -/
def greetings : Nat → List String → List String
  | _, [] => []
  | n, name :: rest =>
    ["Who are you?", (GREETINGS.lookup name).getD "Greetings" ++ ", " ++ name ++ "!",
      "(greeted " ++ toString (n + 1) ++ " so far)"] ++ greetings (n + 1) rest

/-- The transcript expected for a script. -/
def expected (script : List String) : List String :=
  greetings 0 (script.takeWhile (· ≠ "quit")) ++ ["Who are you?", "Bye."]

theorem asks (s : Unit) : (stretch step 0 (step s)).isSome = true := by rfl

/-- What a round does with a name other than `quit`. -/
theorem run_round {name : String} (goes : name ≠ "quit") {rest : List String} {w : World}
    (heard : w.lines = name :: rest) (few : w.greeted + 1 < 2 ^ 64) :
    (step ()).run World.context w = (some (), { w with
      lines := rest
      written := w.written ++ greetings w.greeted [name]
      greeted := w.greeted + 1
      now := w.now + PAUSE.asMillis }) := by
  have counted : (w.greeted + 1) % 18446744073709551616 = w.greeted + 1 := Nat.mod_eq_of_lt few
  have paused : (SleepEffect.mk PAUSE).millis.toNat = PAUSE.asMillis := by rfl
  simp [step, heard, goes, counted, paused, greetings]

/-- The loop ends on every script, and leaves the expected transcript. -/
theorem run_ends (w : World) (few : w.greeted + w.lines.length < 2 ^ 64) :
    ∃ w', Loop.run World.context step (w.lines.length + 1) () w = some w' ∧
      w'.written = w.written ++ greetings w.greeted (w.lines.takeWhile (· ≠ "quit")) ++
        ["Who are you?", "Bye."] := by
  obtain ⟨lines, written, greeted, files, readings, nextByte, now⟩ := w
  induction lines generalizing written greeted now with
  | nil =>
    refine ⟨_, rfl, ?_⟩
    simp [World.context, greetings]
  | cons name rest ih =>
    by_cases quit : name = "quit"
    · subst quit
      refine ⟨_, rfl, ?_⟩
      simp [World.context, greetings]
    · simp only [List.length_cons] at few
      have turn := run_round quit (w := ⟨name :: rest, written, greeted, files, readings, nextByte, now⟩)
        rfl (by show greeted + 1 < 2 ^ 64; omega)
      obtain ⟨w', ran, wrote⟩ := ih (written ++ greetings greeted [name]) (greeted + 1)
        (now + PAUSE.asMillis) (by show greeted + 1 + rest.length < 2 ^ 64; omega)
      refine ⟨w', ?_, ?_⟩
      · show Loop.run World.context step (rest.length + 1 + 1) () _ = _
        unfold Loop.run
        rw [turn]
        exact ran
      · rw [wrote, List.takeWhile_cons_of_pos (by simpa using quit)]
        simp [greetings]

/-- The lines of the script are short enough to cross, and not too many. -/
def Crossing (w : World) : Prop :=
  (∀ line ∈ w.lines, (utf8 line).length + 128 < 2 ^ 32) ∧ w.greeted + w.lines.length < 2 ^ 64

theorem goodbye_crosses (w : World) : AllCross goodbye w :=
  (allCross_writeLine w _ _).mpr ⟨by decide, trivial⟩

theorem round_crosses {w : World} (crossing : Crossing w) : AllCross (step ()) w := by
  obtain ⟨lines, written, greeted, files, readings, nextByte, now⟩ := w
  obtain ⟨short, few⟩ := crossing
  refine (allCross_writeLine _ _ _).mpr ⟨by decide, ?_⟩
  cases lines with
  | nil =>
    refine (allCross_asking _ _ _).mpr ⟨⟨trivial, ?_⟩, goodbye_crosses _⟩
    intro line same
    cases same
  | cons name rest =>
    have own := short name List.mem_cons_self
    refine (allCross_asking _ _ _).mpr ⟨⟨trivial, ?_⟩, ?_⟩
    · intro line same
      cases same
      show (utf8 name).length + 5 < 2 ^ 32
      omega
    show AllCross (if name ≠ "quit" then _ else goodbye) _
    by_cases quit : name = "quit"
    · rw [if_neg (not_not.mpr quit)]
      exact goodbye_crosses _
    · rw [if_pos quit]
      have greeting := greeting_short name
      have counted : greeted + 1 < 2 ^ 64 := by
        simp only [List.length_cons] at few
        omega
      refine (allCross_asking _ _ _).mpr ⟨⟨?_, trivial⟩, ?_⟩
      · show (utf8 name).length + 13 < 2 ^ 32
        omega
      refine (allCross_asking _ _ _).mpr ⟨⟨trivial, trivial⟩, ?_⟩
      refine (allCross_writeLine _ _ _).mpr ⟨?_, ?_⟩
      · show (utf8 ((GREETINGS.lookup name).getD "Greetings" ++ ", " ++ name ++ "!")).length + 5 < 2 ^ 32
        have comma : (utf8 ", ").length = 2 := by decide
        have mark : (utf8 "!").length = 1 := by decide
        simp only [utf8_append, List.length_append, comma, mark]
        omega
      refine (allCross_asking _ _ _).mpr ⟨⟨trivial, counted⟩, ?_⟩
      refine (allCross_writeLine _ _ _).mpr ⟨?_, trivial⟩
      have bounded := (UInt64.ofNat (greeted + 1)).toNat_lt
      have number : (utf8 (toString (UInt64.ofNat (greeted + 1)).toNat)).length ≤ 20 :=
        length_utf8_number (by decide) (by omega)
      have front : (utf8 "(greeted ").length = 9 := by decide
      have back : (utf8 " so far)").length = 8 := by decide
      show (utf8 ("(greeted " ++ toString (UInt64.ofNat (greeted + 1)).toNat ++ " so far)")).length + 5 <
        2 ^ 32
      simp only [utf8_append, List.length_append, front, back]
      omega

/-- A round keeps what the next round needs to cross. -/
theorem round_keeps {w w' : World} {s s' : Unit} (crossing : Crossing w)
    (turn : (step s).run World.context w = (some s', w')) : Crossing w' := by
  obtain ⟨short, few⟩ := crossing
  obtain ⟨lines, written, greeted, files, readings, nextByte, now⟩ := w
  cases lines with
  | nil => cases congrArg Prod.fst turn
  | cons name rest =>
    by_cases quit : name = "quit"
    · subst quit
      cases congrArg Prod.fst turn
    · simp only [List.length_cons] at few
      rw [run_round quit rfl (by show greeted + 1 < 2 ^ 64; omega)] at turn
      cases turn
      refine ⟨fun line member => short line (List.mem_cons_of_mem _ member), ?_⟩
      show greeted + 1 + rest.length < 2 ^ 64
      omega

/-- A round tells and asks at most seven things. -/
theorem round_within (s : Unit) (w : World) : (step s).length World.context w ≤ 7 := by
  obtain ⟨lines, written, greeted, files, readings, nextByte, now⟩ := w
  cases lines with
  | nil => exact (by decide : 3 ≤ 7)
  | cons name rest =>
    by_cases quit : name = "quit"
    · subst quit
      exact (by decide : 3 ≤ 7)
    · show (if name ≠ "quit" then _ else goodbye : Async (Option Unit)).length World.context _ + 2 ≤ 7
      rw [if_pos quit]
      exact Nat.le_refl 7

/-- Driven from Python on a machine of its own, the greeter writes the expected transcript and ends,
on every script whose lines are short enough to cross and not too many. -/
theorem writes_expected (C H : Type) {R : Type} (root driver : Nat) (waker : Waker) (rng : Rng R)
    {script : List String} (short : ∀ line ∈ script, (utf8 line).length + 128 < 2 ^ 32)
    (few : 8 * (script.length + 1) + 1 < 2 ^ 64) :
    ∃ t, ∀ rounds, drive (lone C H step 1 root) rng root script none (newborn C H driver waker ())
        rounds =
      if rounds < t then none else some (.ok (expected script)) := by
  have crossing : Crossing (.new script) := ⟨short, by show 0 + script.length < 2 ^ 64; omega⟩
  obtain ⟨w, ran, wrote⟩ := run_ends (.new script) crossing.2
  obtain ⟨n, ends, within⟩ := Point.after_run ran
  have near : n ≤ (script.length + 1) * (7 + 1) := within 7 round_within
  have holds : ∀ (s : Unit) w, Crossing w → AllCross (step s) w := fun _ _ => round_crosses
  have crosses : ∀ n, Crosses (Point.after World.context step n ⟨step (), .new script⟩) :=
    Loop.always holds (fun _ _ _ _ => round_keeps) crossing
  obtain ⟨t, driven⟩ := drive_ends (C := C) (H := H) root driver waker rng
    (.of_asking asks _) crosses ends (by omega)
  refine ⟨t, fun rounds => ?_⟩
  rw [driven rounds, wrote]
  rfl

/-- A script with one name before `quit`. -/
theorem writes_expected_quit :
    let rng : Rng Unit := ⟨fun r => (false, r), fun _ r => (0, r), fun _ _ nonempty => nonempty⟩
    ∃ t, ∀ rounds, drive (lone Empty Unit step 1 7) rng 7 ["alice", "quit", "bob"] none
        (newborn Empty Unit 1 0 ()) rounds =
      if rounds < t then none
      else some (.ok ["Who are you?", "Hello, alice!", "(greeted 1 so far)", "Who are you?", "Bye."]) :=
  writes_expected Empty Unit 7 1 0 _ (by decide) (by decide)

end Greeter

end SansEffort
