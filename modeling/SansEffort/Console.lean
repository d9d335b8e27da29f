import SansEffort.Effects
import SansEffort.Library.Transition

/-!
# Lines of input

`TokioInput` (`sans-effort-tokio/src/console.rs`): lines from a stream that arrives in pieces, for
readers that may be dropped between any two polls. What a dropped reader had taken from the
stream stays in the buffer for the next. What the code relies on of tokio, a reader and its
`read_until`, is a parameter.
-/

namespace SansEffort.Tokio

/-! ### The code -/

def newline : UInt8 := 10

def carriageReturn : UInt8 := 13

/-- What a poll of a `read_until` leaves: its outcome, once there is one (the value of an error
does not matter), and the buffer, the reader and the call. -/
structure Polled (R F : Type) where
  outcome : Option (Except Unit Nat)
  buffer : Bytes
  reader : R
  call : F

/-- A type of readers and a type of calls of `read_until`. -/
structure AsyncBufRead (R F : Type) where
  /-- A call that has not been polled, and the byte it reads up to. -/
  readUntil : UInt8 → F
  poll : F → R → Bytes → Polled R F

/-- The reader, and the line in progress: `partial` in the source. -/
structure Input (R : Type) where
  reader : R
  progress : Bytes

/-- A line without its ending, if it is UTF-8. -/
def line (bytes : Bytes) : Except ReadLineError String :=
  let bytes :=
    if bytes.getLast? = some newline then
      let bytes := bytes.dropLast
      if bytes.getLast? = some carriageReturn then bytes.dropLast else bytes
    else bytes
  match Reader.fromUtf8 bytes with
  | some text => .ok text
  | none => .error .failed

variable {R F : Type}

/-- A poll of the `read_line` that holds the lock: what it returns, or else its call. -/
def Input.readLine (tokio : AsyncBufRead R F) (input : Input R) (call : F) :
    Input R × (Except ReadLineError String ⊕ F) :=
  let polled := tokio.poll call input.reader input.progress
  match polled.outcome with
  | none => (⟨polled.reader, polled.buffer⟩, .inr polled.call)
  | some (.ok n) =>
    if n = 0 ∧ polled.buffer = [] then (⟨polled.reader, polled.buffer⟩, .inl (.error .closed))
    else (⟨polled.reader, []⟩, .inl (line polled.buffer))
  | some (.error _) => (⟨polled.reader, []⟩, .inl (.error .failed))

/-- An input and its readers. At most one of them holds the lock; the others wait for it and
touch nothing. -/
structure TokioInput (R F : Type) where
  input : Input R
  holder : Option F
  /-- What the reads that completed returned, the first of them first. -/
  results : List (Except ReadLineError String)

namespace TokioInput

def new (reader : R) : TokioInput R F := ⟨⟨reader, []⟩, none, []⟩

inductive Act (R : Type)
  /-- A reader gets the lock. -/
  | lock
  /-- The reader that holds it is polled. -/
  | poll
  /-- The reader that holds it is dropped. -/
  | drop
  /-- More of the stream arrives. -/
  | arrive (reader : R)

/-- `rest` is what of the stream has not been taken from a reader, whether it has arrived or not:
arriving does not change it. -/
def step (tokio : AsyncBufRead R F) (rest : R → Bytes) (s : TokioInput R F) :
    Act R → Option (TokioInput R F)
  | .lock =>
    match s.holder with
    | none => some { s with holder := some (tokio.readUntil newline) }
    | some _ => none
  | .poll =>
    match s.holder with
    | none => none
    | some call =>
      match s.input.readLine tokio call with
      | (input, .inr call) => some { s with input, holder := some call }
      | (input, .inl result) => some ⟨input, none, s.results ++ [result]⟩
  | .drop => if s.holder.isSome then some { s with holder := none } else none
  | .arrive reader =>
    if rest reader = rest s.input.reader then some { s with input := { s.input with reader } }
    else none

end TokioInput

/-! ### What tokio promises -/

/-- What a poll of a call that reads up to `delimiter`, and has read `n` bytes, may find. -/
structure Polled.Sound (polled : Polled R F) (rest : R → Bytes) (reads : UInt8 → Nat → F → Prop)
    (delimiter : UInt8) (n : Nat) (before taken : Bytes) : Prop where
  appended : polled.buffer = before ++ taken
  pending : polled.outcome = none →
    delimiter ∉ taken ∧ reads delimiter (n + taken.length) polled.call
  ready : ∀ count, polled.outcome = some (.ok count) → count = n + taken.length ∧
    ((∃ front, taken = front ++ [delimiter] ∧ delimiter ∉ front) ∨
      delimiter ∉ taken ∧ rest polled.reader = [])
  noError : ∀ error, polled.outcome ≠ some (.error error)

/-- `read_until` appends what it takes from the stream, up to and including the delimiter or to
the end of the stream, and returns how much that was. -/
structure AsyncBufRead.Documented (tokio : AsyncBufRead R F) (rest : R → Bytes)
    (reads : UInt8 → Nat → F → Prop) : Prop where
  fresh : ∀ delimiter, reads delimiter 0 (tokio.readUntil delimiter)
  poll : ∀ {delimiter n call} reader buffer, reads delimiter n call →
    ∃ taken, rest reader = taken ++ rest (tokio.poll call reader buffer).reader ∧
      (tokio.poll call reader buffer).Sound rest reads delimiter n buffer taken

/-! ### The lines of a stream -/

/-- The stream split after each newline; what follows the last of them is a line if there is
any of it. -/
def lines : Bytes → List Bytes
  | [] => []
  | byte :: rest =>
    if byte = newline then [byte] :: lines rest
    else
      match lines rest with
      | [] => [[byte]]
      | first :: more => (byte :: first) :: more

/-- The line without its `\n` or `\r\n`. -/
def stripped (bytes : Bytes) : Bytes :=
  match bytes.reverse with
  | 10 :: 13 :: front => front.reverse
  | 10 :: front => front.reverse
  | _ => bytes

/-- What the read of a line is to return. -/
def verdict (bytes : Bytes) : Except ReadLineError String :=
  match Reader.fromUtf8 (stripped bytes) with
  | some text => .ok text
  | none => .error .failed

/-- What the `i`-th read to complete is to return. -/
def expected (stream : Bytes) (i : Nat) : Except ReadLineError String :=
  match (lines stream)[i]? with
  | some bytes => verdict bytes
  | none => .error .closed

theorem lines_cons_of_ne {byte : UInt8} (ordinary : byte ≠ newline) (rest : Bytes) :
    lines (byte :: rest) =
      (byte :: (lines rest).headD []) :: (lines rest).tail := by
  rw [lines, if_neg ordinary]
  cases lines rest <;> rfl

/-- The first line ends with the first newline. -/
theorem lines_through_newline {front : Bytes} (ordinary : newline ∉ front) (rest : Bytes) :
    lines (front ++ newline :: rest) = (front ++ [newline]) :: lines rest := by
  induction front with
  | nil => simp [lines]
  | cons byte front ih =>
    have first : byte ≠ newline := fun same => ordinary (by simp [same])
    have later : newline ∉ front := fun member => ordinary (by simp [member])
    rw [List.cons_append, lines_cons_of_ne first, ih later]
    rfl

theorem lines_without_newline {front : Bytes} (ordinary : newline ∉ front) (some' : front ≠ []) :
    lines front = [front] := by
  induction front with
  | nil => exact absurd rfl some'
  | cons byte front ih =>
    have first : byte ≠ newline := fun same => ordinary (by simp [same])
    have later : newline ∉ front := fun member => ordinary (by simp [member])
    rw [lines_cons_of_ne first]
    cases front with
    | nil => rfl
    | cons second front => rw [ih later (by simp)]; rfl

/-- The source takes the ending off one byte after the other. -/
theorem line_eq_verdict (bytes : Bytes) : line bytes = verdict bytes := by
  have same : (if bytes.getLast? = some newline then
      if bytes.dropLast.getLast? = some carriageReturn then bytes.dropLast.dropLast
      else bytes.dropLast
    else bytes) = stripped bytes := by
    obtain ⟨back, rfl⟩ : ∃ back : Bytes, bytes = back.reverse := ⟨bytes.reverse, by simp⟩
    unfold stripped newline carriageReturn
    simp only [List.getLast?_reverse, List.dropLast_reverse, List.reverse_reverse]
    cases back with
    | nil => simp
    | cons last back =>
      by_cases ended : last = 10
      · subst ended
        cases back with
        | nil => simp
        | cons second back =>
          by_cases returned : second = 13
          · subst returned
            simp
          · simp [returned]
      · simp [ended]
  unfold line verdict
  rw [← same]

@[simp] theorem expected_nil (i : Nat) : expected [] i = .error .closed := rfl

theorem expected_first {stream first rest : Bytes} (split : lines stream = first :: lines rest) :
    expected stream 0 = verdict first ∧ ∀ i, expected stream (i + 1) = expected rest i := by
  unfold expected
  rw [split]
  exact ⟨rfl, fun _ => rfl⟩

/-! ### Every read, dropped or not -/

/-- Between any two polls: the line in progress has not ended, and the reads still to complete
are owed what is in the buffer and what is left of the stream. -/
structure Owed (rest : R → Bytes) (reads : UInt8 → Nat → F → Prop) (stream : Bytes)
    (s : TokioInput R F) : Prop where
  unbroken : newline ∉ s.input.progress
  counted : ∀ call, s.holder = some call → ∃ n, reads newline n call ∧ n ≤ s.input.progress.length
  ahead : ∀ i, expected stream (s.results.length + i) =
    expected (s.input.progress ++ rest s.input.reader) i
  returned : s.results = (List.range s.results.length).map (expected stream)

section

variable {tokio : AsyncBufRead R F} {rest : R → Bytes} {reads : UInt8 → Nat → F → Prop}

/-- A poll that is not the last moves bytes from the stream to the buffer. The last one returns
the line they begin. -/
theorem Input.readLine_cases (docs : tokio.Documented rest reads) {input : Input R} {call : F}
    {n : Nat} (reading : reads newline n call) (few : n ≤ input.progress.length)
    (unbroken : newline ∉ input.progress) :
    (∃ after call' n', input.readLine tokio call = (after, .inr call') ∧
      after.progress ++ rest after.reader = input.progress ++ rest input.reader ∧
      newline ∉ after.progress ∧ reads newline n' call' ∧ n' ≤ after.progress.length) ∨
    ∃ after, input.readLine tokio call =
        (after, .inl (expected (input.progress ++ rest input.reader) 0)) ∧
      after.progress = [] ∧
      ∀ i, expected (input.progress ++ rest input.reader) (i + 1) =
        expected (rest after.reader) i := by
  -- what was in the buffer before is there still, and what came out of the stream is after it
  obtain ⟨taken, took, appended, pending, ready, noError⟩ :=
    docs.poll input.reader input.progress reading
  simp only [Input.readLine]
  cases outcome : (tokio.poll call input.reader input.progress).outcome with
  | none =>
    -- pending: all that was taken is kept in the buffer, for the next poll
    obtain ⟨ordinary, still⟩ := pending outcome
    refine .inl ⟨_, _, _, rfl, ?_, ?_, still, ?_⟩
    · rw [appended, took, List.append_assoc]
    · rw [appended, List.mem_append]
      exact fun either => either.elim unbroken ordinary
    · rw [appended, List.length_append]
      omega
  | some result =>
    cases result with
    | error error => exact absurd outcome (noError error)
    -- ready: `count` is what the buffer holds, and the line is read off it
    | ok count =>
      obtain ⟨counted, found⟩ := ready count outcome
      rw [took, ← List.append_assoc, ← appended]
      right
      generalize tokio.poll call input.reader input.progress = polled at appended found ⊢
      dsimp only
      by_cases nothing : polled.buffer = []
      · -- nothing was held and nothing is left
        obtain ⟨empty, rfl⟩ : input.progress = [] ∧ taken = [] := by simpa [nothing] using appended
        have ended : rest polled.reader = [] := by simpa using found
        have zero : count = 0 := by simpa [counted, empty] using few
        rw [if_pos ⟨zero, nothing⟩, nothing, ended]
        refine ⟨_, rfl, rfl, fun i => ?_⟩
        dsimp only
        rw [ended, List.nil_append, expected_nil, expected_nil]
      -- otherwise the buffer holds the first line of what there was, whole
      · have split : lines (polled.buffer ++ rest polled.reader) =
            polled.buffer :: lines (rest polled.reader) := by
          rcases found with ⟨front, rfl, ordinary⟩ | ⟨ordinary, ended⟩
          · have whole : newline ∉ input.progress ++ front := by
              rw [List.mem_append]
              exact fun either => either.elim unbroken ordinary
            have same := lines_through_newline whole (rest polled.reader)
            simpa [appended] using same
          · -- the end of the stream ends a line that was begun
            have whole : newline ∉ polled.buffer := by
              rw [appended, List.mem_append]
              exact fun either => either.elim unbroken ordinary
            rw [ended, List.append_nil, lines_without_newline whole nothing]
            rfl
        obtain ⟨first, later⟩ := expected_first split
        rw [if_neg fun both => nothing both.2, first, line_eq_verdict]
        exact ⟨_, rfl, rfl, later⟩

theorem Owed.poll (docs : tokio.Documented rest reads) {stream : Bytes} {s next : TokioInput R F}
    (owed : Owed rest reads stream s) (polled : s.step tokio rest .poll = some next) :
    Owed rest reads stream next := by
  simp only [TokioInput.step] at polled
  cases held : s.holder with
  | none => simp [held] at polled
  | some call =>
    obtain ⟨n, reading, few⟩ := owed.counted call held
    -- whatever call is held was begun on a buffer no longer than the one there is
    rw [held] at polled
    rcases Input.readLine_cases docs reading few owed.unbroken with
      ⟨after, call', n', read, same, unbroken, reading', few'⟩ | ⟨after, read, empty, later⟩
    -- still pending
    · simp only [read, Option.some.injEq] at polled
      subst polled
      refine ⟨unbroken, fun other is => ?_, fun i => ?_, owed.returned⟩
      · cases is
        exact ⟨n', reading', few'⟩
      · rw [same]
        exact owed.ahead i
    -- a line is returned, which is the next one the stream owed
    · simp only [read, Option.some.injEq] at polled
      subst polled
      have result : expected (s.input.progress ++ rest s.input.reader) 0 =
          expected stream s.results.length := (owed.ahead 0).symm
      refine ⟨by simp [empty], fun _ is => (by cases is), fun i => ?_, ?_⟩
      -- what is owed after it begins one line later
      · have next := owed.ahead (i + 1)
        rw [later] at next
        simp only [List.length_append, List.length_singleton, empty, List.nil_append]
        rw [← next]
        congr 1
        omega
      · simp only [List.length_append, List.length_singleton, List.range_succ, List.map_append,
          List.map_singleton]
        rw [← owed.returned, result]

theorem Owed.step (docs : tokio.Documented rest reads) {stream : Bytes} {s next : TokioInput R F}
    (act : TokioInput.Act R) (owed : Owed rest reads stream s)
    (stepped : s.step tokio rest act = some next) : Owed rest reads stream next := by
  cases act with
  | poll => exact owed.poll docs stepped
  | lock =>
    simp only [TokioInput.step] at stepped
    split at stepped
    · cases stepped
      refine ⟨owed.unbroken, fun call is => ?_, owed.ahead, owed.returned⟩
      cases is
      exact ⟨0, docs.fresh newline, Nat.zero_le _⟩
    · cases stepped
  | drop =>
    -- the buffer stays as the last poll left it
    simp only [TokioInput.step] at stepped
    split at stepped
    · cases stepped
      exact ⟨owed.unbroken, fun _ is => (by cases is), owed.ahead, owed.returned⟩
    · cases stepped
  | arrive reader =>
    simp only [TokioInput.step] at stepped
    split at stepped
    · next same =>
      cases stepped
      refine ⟨owed.unbroken, owed.counted, fun i => ?_, owed.returned⟩
      rw [same]
      exact owed.ahead i
    · cases stepped

/-- However the stream arrives and whichever reads are dropped on the way, those that complete
return its lines one after another, and after the last of them that the input is closed. -/
theorem dropped_reads_lose_nothing (docs : tokio.Documented rest reads) (reader : R)
    (acts : List (TokioInput.Act R)) (s : TokioInput R F)
    (ran : Transition.run (TokioInput.step tokio rest) (TokioInput.new reader) acts = some s) :
    s.results = (List.range s.results.length).map (expected (rest reader)) := by
  have fresh : Owed rest reads (rest reader) (TokioInput.new reader) :=
    ⟨by simp [TokioInput.new], fun _ is => (by cases is), fun i => by simp [TokioInput.new], rfl⟩
  exact (Transition.run_invariant (Owed rest reads (rest reader))
    (fun _ act _ owed stepped => owed.step docs act stepped) fresh ran).returned

end

/-! ### A reader -/

/-- A stream that arrives in pieces: what has arrived, and the pieces to come. -/
structure Arriving where
  arrived : Bytes
  later : List Bytes

def Arriving.rest (r : Arriving) : Bytes := r.arrived ++ r.later.flatten

structure ReadUntil where
  delimiter : UInt8
  read : Nat

/-- Takes what has arrived, no further than the delimiter. -/
def arriving : AsyncBufRead Arriving ReadUntil where
  readUntil delimiter := ⟨delimiter, 0⟩
  poll call r buffer :=
    if call.delimiter ∈ r.arrived then
      let taken := r.arrived.takeWhile (· != call.delimiter) ++ [call.delimiter]
      ⟨some (.ok (call.read + taken.length)), buffer ++ taken,
        ⟨(r.arrived.dropWhile (· != call.delimiter)).tail, r.later⟩, call⟩
    else
      let read := call.read + r.arrived.length
      ⟨if r.later = [] then some (.ok read) else none, buffer ++ r.arrived, ⟨[], r.later⟩,
        { call with read }⟩

theorem takeWhile_append_of_mem {delimiter : UInt8} {bytes : Bytes} (there : delimiter ∈ bytes) :
    bytes = bytes.takeWhile (· != delimiter) ++
      delimiter :: (bytes.dropWhile (· != delimiter)).tail := by
  induction bytes with
  | nil => cases there
  | cons byte bytes ih =>
    by_cases same : byte = delimiter
    · simp [same]
    · have later : delimiter ∈ bytes := by simpa [Ne.symm same] using there
      simpa [same] using ih later

theorem arriving_documented : arriving.Documented Arriving.rest
    fun delimiter n call => call.delimiter = delimiter ∧ call.read = n := by
  refine ⟨fun _ => ⟨rfl, rfl⟩, ?_⟩
  rintro delimiter n call r buffer ⟨rfl, rfl⟩
  -- the delimiter has come: the call is ready and takes up to it
  by_cases there : call.delimiter ∈ r.arrived
  · refine ⟨r.arrived.takeWhile (· != call.delimiter) ++ [call.delimiter], ?_, ?_⟩
    · have split := takeWhile_append_of_mem there
      simp only [arriving, if_pos there, Arriving.rest]
      rw [← List.append_assoc, List.append_assoc (r.arrived.takeWhile _), List.singleton_append,
        ← split]
    · simp only [arriving, if_pos there]
      refine ⟨rfl, fun pending => (by cases pending), fun count ready => ?_,
        fun _ failed => (by cases failed)⟩
      cases ready
      refine ⟨rfl, .inl ⟨_, rfl, fun member => ?_⟩⟩
      simpa using List.mem_takeWhile_imp member
  -- it has not: all that came is taken, and the call is ready only at the end of the stream
  · refine ⟨r.arrived, ?_, ?_⟩
    · simp [arriving, there, Arriving.rest]
    · simp only [arriving, if_neg there]
      by_cases ended : r.later = []
      · refine ⟨rfl, fun pending => ?_, fun count ready => ?_, fun _ failed => ?_⟩
        · simp [ended] at pending
        · simp only [if_pos ended, Option.some.injEq, Except.ok.injEq] at ready
          exact ⟨ready.symm, .inr ⟨there, by simp [Arriving.rest, ended]⟩⟩
        · simp [ended] at failed
      · refine ⟨rfl, fun _ => ⟨there, rfl, rfl⟩, fun count ready => ?_, fun _ failed => ?_⟩
        · simp [ended] at ready
        · simp [ended] at failed

/-- An ending cut in two, a line that is not UTF-8, a last line without an ending; two reads are
dropped. -/
theorem dropped_reads_lose_nothing_cut :
    Transition.run (TokioInput.step arriving Arriving.rest)
        (TokioInput.new ⟨[97, 13], [[10, 255, 10], [99]]⟩)
        [.lock, .poll, .drop, .arrive ⟨[10, 255, 10], [[99]]⟩, .lock, .poll, .lock, .poll, .lock,
          .poll, .drop, .arrive ⟨[99], []⟩, .lock, .poll, .lock, .poll] =
      some ⟨⟨⟨[], []⟩, []⟩, none, [.ok "a", .error .failed, .ok "c", .error .closed]⟩ ∧
    [.ok "a", .error .failed, .ok "c", .error .closed] =
      (List.range 4).map (expected [97, 13, 10, 255, 10, 99]) := by
  constructor
  · rfl
  · -- two reads saw part of the first and of the third line
    exact dropped_reads_lose_nothing arriving_documented ⟨[97, 13], [[10, 255, 10], [99]]⟩
      [.lock, .poll, .drop, .arrive ⟨[10, 255, 10], [[99]]⟩, .lock, .poll, .lock, .poll, .lock,
        .poll, .drop, .arrive ⟨[99], []⟩, .lock, .poll, .lock, .poll]
      ⟨⟨⟨[], []⟩, []⟩, none, [.ok "a", .error .failed, .ok "c", .error .closed]⟩ rfl

end SansEffort.Tokio
