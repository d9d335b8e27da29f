import SansEffort.Layout
import SansEffort.Record

/-!
# The file a recording is kept in

`Log` as bytes (`record.rs`): a count and the handles, a count and the events. A number of the
source's has a fixed width, which is a condition here; a log within it and not too long is read
back from its bytes, and a file is read only if it is some log's.
-/

namespace SansEffort.Record

open Reading

/-! ### Outcomes -/

/-- `u32::from_le_bytes(code.to_le_bytes())`. -/
def codeBits (code : Int) : Nat := (code % 2 ^ 32).toNat

/-- `i32::from_le_bytes(bits.to_le_bytes())`. -/
def codeOfBits (bits : Nat) : Int := if bits < 2 ^ 31 then bits else bits - 2 ^ 32

/-- A code is an `i32`. -/
def CodeFits (code : Int) : Prop := -2 ^ 31 ≤ code ∧ code < 2 ^ 31

theorem codeOfBits_codeBits {code : Int} (fits : CodeFits code) : codeOfBits (codeBits code) = code := by
  obtain ⟨low, high⟩ := fits
  unfold codeOfBits codeBits
  split <;> omega

theorem codeBits_lt (code : Int) : codeBits code < 2 ^ 32 := by
  unfold codeBits
  omega

theorem codeBits_codeOfBits {bits : Nat} (small : bits < 2 ^ 32) :
    CodeFits (codeOfBits bits) ∧ codeBits (codeOfBits bits) = bits := by
  unfold CodeFits codeOfBits codeBits
  split <;> omega

namespace Outcome

def encode (o : Outcome) (w : Writer) : Option Writer := (w.u32 (codeBits o.code)).bytes o.bytes

def decode : Reader Outcome := do
  let code ← codeOfBits <$> Reader.u32
  let bytes ← Reader.bytes
  return ⟨code, bytes⟩

/-- Each field is of its type. -/
def Fits (o : Outcome) : Prop := CodeFits o.code

/-- The bytes of an outcome; `none` where there are too many. -/
def layout (o : Outcome) : Option Bytes :=
  (payload o.bytes).map (toLeBytes 4 (codeBits o.code) ++ ·)

def Laid (o : Outcome) (b : Bytes) : Prop := o.Fits ∧ o.layout = some b

theorem appends_encode (o : Outcome) : Appends o.encode o.layout := by
  intro w
  refine (appends_bytes o.bytes (w.u32 (codeBits o.code))).trans ?_
  unfold layout
  cases payload o.bytes <;> simp [Writer.u32]

end Outcome

theorem Outcome.exact_decode : Exact Outcome.decode Outcome.Laid := by
  intro input o rest
  unfold Outcome.decode Outcome.Laid Outcome.layout Outcome.Fits
  simp only [reads_bind, reads_map, reads_u32, reads_bytes, reads_pure, Option.map_eq_some_iff]
  constructor
  · rintro ⟨_, _, ⟨bits, ⟨small, rfl⟩, rfl⟩, b, _, ⟨front, laid, rfl⟩, rfl, rfl⟩
    obtain ⟨fits, same⟩ := codeBits_codeOfBits small
    exact ⟨_, ⟨fits, front, laid, rfl⟩, by simp [same]⟩
  · rintro ⟨_, ⟨fits, front, laid, rfl⟩, rfl⟩
    refine ⟨o.code, front ++ rest, ⟨codeBits o.code, ⟨codeBits_lt o.code, by simp⟩, ?_⟩, o.bytes, rest,
      ⟨front, laid, rfl⟩, rfl, rfl⟩
    exact codeOfBits_codeBits fits

/-! ### Events -/

namespace Event

def encode (e : Event) (w : Writer) : Option Writer :=
  match e with
  | resume machine outcome => outcome.encode ((w.u8 1).u32 machine)
  | reply machine record outcome =>
    (((w.u8 2).u32 machine).bytes record).bind fun w => outcome.encode w
  | free machine outcome => outcome.encode ((w.u8 3).u32 machine)

def decode : Reader Event := do
  let tag ← Reader.u8
  if tag = 1 then
    let machine ← Reader.u32
    return resume machine (← Outcome.decode)
  else if tag = 2 then
    let machine ← Reader.u32
    let record ← Reader.bytes
    return reply machine record (← Outcome.decode)
  else if tag = 3 then
    let machine ← Reader.u32
    return free machine (← Outcome.decode)
  else throw (.unknownTag tag)

def Fits (e : Event) : Prop := e.machine < 2 ^ 32 ∧ e.outcome.Fits

def layout : Event → Option Bytes
  | resume machine outcome => outcome.layout.map (1 :: toLeBytes 4 machine ++ ·)
  | reply machine record outcome => do
    let front ← payload record
    let back ← outcome.layout
    some (2 :: toLeBytes 4 machine ++ (front ++ back))
  | free machine outcome => outcome.layout.map (3 :: toLeBytes 4 machine ++ ·)

def Laid (e : Event) (b : Bytes) : Prop := e.Fits ∧ e.layout = some b

/-- The reply record and the frames written are shorter than 4 GiB. -/
def Short : Event → Prop
  | resume _ outcome => outcome.bytes.length < 2 ^ 32
  | reply _ record outcome => record.length < 2 ^ 32 ∧ outcome.bytes.length < 2 ^ 32
  | free _ outcome => outcome.bytes.length < 2 ^ 32

theorem layout_isSome_iff (e : Event) : e.layout.isSome ↔ e.Short := by
  cases e with
  | resume machine outcome | free machine outcome => simp [layout, Short, Outcome.layout, payload]
  | reply machine record outcome =>
    simp only [layout, Short, Outcome.layout, payload]
    split <;> split <;> simp_all

theorem appends_encode (e : Event) : Appends e.encode e.layout := by
  intro w
  cases e with
  | resume machine outcome | free machine outcome =>
    refine (outcome.appends_encode _).trans ?_
    simp only [layout]
    cases outcome.layout <;> simp [Writer.u8, Writer.u32]
  | reply machine record outcome =>
    unfold encode layout
    have written := appends_bytes record ((w.u8 2).u32 machine)
    dsimp only at written ⊢
    rw [written]
    cases payload record with
    | none => rfl
    | some front =>
      rw [Option.map_some, Option.bind_some, outcome.appends_encode]
      cases outcome.layout <;> simp [Writer.u8, Writer.u32]

theorem exact_decode : Exact decode Laid := by
  intro input e rest
  unfold decode
  simp only [reads_bind, reads_u8]
  constructor
  · rintro ⟨tag, _, rfl, fields⟩
    -- the tag says which call it was
    split at fields
    · next kind =>
      simp only [reads_bind, reads_u32, reads_pure] at fields
      obtain ⟨machine, _, ⟨small, rfl⟩, outcome, _, read, rfl, rfl⟩ := fields
      obtain ⟨front, ⟨fits, laid⟩, rfl⟩ := (Outcome.exact_decode _ _ _).mp read
      exact ⟨1 :: toLeBytes 4 machine ++ front, ⟨⟨small, fits⟩, by simp [layout, laid]⟩, by simp [kind]⟩
    · split at fields
      · next kind =>
        simp only [reads_bind, reads_u32, reads_bytes, reads_pure] at fields
        obtain ⟨machine, _, ⟨small, rfl⟩, record, _, ⟨own, inside, rfl⟩, outcome, _, read, rfl, rfl⟩ :=
          fields
        obtain ⟨front, ⟨fits, laid⟩, rfl⟩ := (Outcome.exact_decode _ _ _).mp read
        exact ⟨2 :: toLeBytes 4 machine ++ (own ++ front),
          ⟨⟨small, fits⟩, by simp [layout, laid, inside]⟩, by simp [kind]⟩
      · split at fields
        · next kind =>
          simp only [reads_bind, reads_u32, reads_pure] at fields
          obtain ⟨machine, _, ⟨small, rfl⟩, outcome, _, read, rfl, rfl⟩ := fields
          obtain ⟨front, ⟨fits, laid⟩, rfl⟩ := (Outcome.exact_decode _ _ _).mp read
          exact ⟨3 :: toLeBytes 4 machine ++ front, ⟨⟨small, fits⟩, by simp [layout, laid]⟩,
            by simp [kind]⟩
        · simp at fields
  -- and what is laid out is read back
  · rintro ⟨_, ⟨⟨small, fits⟩, laid⟩, rfl⟩
    have outcome := fun front => (Outcome.exact_decode (front ++ rest) e.outcome rest).mpr
    cases e with
    | resume machine o =>
      obtain ⟨front, inside, rfl⟩ := Option.map_eq_some_iff.mp laid
      refine ⟨1, _, rfl, ?_⟩
      rw [if_pos rfl]
      simp only [reads_bind, reads_u32, reads_pure]
      exact ⟨machine, front ++ rest, ⟨small, by simp⟩, o, rest,
        outcome front ⟨front, ⟨fits, inside⟩, rfl⟩, rfl, rfl⟩
    | reply machine record o =>
      simp only [layout, Option.bind_eq_bind, Option.bind_eq_some_iff, Option.some.injEq] at laid
      obtain ⟨own, inside, front, after, rfl⟩ := laid
      refine ⟨2, _, rfl, ?_⟩
      rw [if_neg (by decide), if_pos rfl]
      simp only [reads_bind, reads_u32, reads_bytes, reads_pure]
      exact ⟨machine, own ++ (front ++ rest), ⟨small, by simp⟩, record, front ++ rest,
        ⟨own, inside, rfl⟩, o, rest, outcome front ⟨front, ⟨fits, after⟩, rfl⟩, rfl, rfl⟩
    | free machine o =>
      obtain ⟨front, inside, rfl⟩ := Option.map_eq_some_iff.mp laid
      refine ⟨3, _, rfl, ?_⟩
      rw [if_neg (by decide), if_neg (by decide), if_pos rfl]
      simp only [reads_bind, reads_u32, reads_pure]
      exact ⟨machine, front ++ rest, ⟨small, by simp⟩, o, rest,
        outcome front ⟨front, ⟨fits, inside⟩, rfl⟩, rfl, rfl⟩

end Event

/-! ### Logs -/

namespace Log

def encode (log : Log) (w : Writer) : Option Writer :=
  let w := w.u32 (min log.handles.length (2 ^ 32 - 1))
  let w := log.handles.foldl Writer.u64 w
  let w := w.u32 (min log.events.length (2 ^ 32 - 1))
  log.events.foldlM (fun w event => event.encode w) w

def readHandle : Reader Nat := UInt64.toNat <$> Reader.u64

def decode : Reader Log := do
  let count ← Reader.u32
  let handles ← repeated readHandle count
  let count ← Reader.u32
  let events ← repeated Event.decode count
  return ⟨handles, events⟩

def toBytes (log : Log) : Option Bytes := (log.encode Writer.new).map Writer.finish

def fromBytes : Bytes → Except DecodeError Log := decode.fromBytes

/-- The handles and events it tries to read from a file, the last one included if it cannot be. -/
def attempts (b : Bytes) : Nat :=
  match Reader.u32.run b with
  | .error _ => 0
  | .ok (count, rest) =>
    match collect readHandle count rest with
    | (handles, _, some _) => handles.length + 1
    | (handles, rest, none) =>
      match Reader.u32.run rest with
      | .error _ => handles.length
      | .ok (count, rest) =>
        match collect Event.decode count rest with
        | (events, _, some _) => handles.length + events.length + 1
        | (events, _, none) => handles.length + events.length

/-- A handle is a `u64`, and the fields of an event are of their types. -/
structure Fits (log : Log) : Prop where
  handles : ∀ handle ∈ log.handles, handle < 2 ^ 64
  events : ∀ event ∈ log.events, event.Fits

/-- The counts and the payloads fit their lengths. -/
structure Short (log : Log) : Prop where
  handles : log.handles.length < 2 ^ 32
  events : log.events.length < 2 ^ 32
  payloads : ∀ event ∈ log.events, event.Short

def HandleLaid (handle : Nat) (b : Bytes) : Prop := handle < 2 ^ 64 ∧ toLeBytes 8 handle = b

theorem exact_readHandle : Exact readHandle HandleLaid := by
  intro input handle rest
  unfold readHandle HandleLaid
  simp only [reads_map, reads_u64]
  constructor
  · rintro ⟨v, rfl, rfl⟩
    exact ⟨_, ⟨v.toNat_lt, rfl⟩, rfl⟩
  · rintro ⟨_, ⟨small, rfl⟩, rfl⟩
    refine ⟨UInt64.ofNat handle, ?_, UInt64.toNat_ofNat_of_lt' small⟩
    rw [UInt64.toNat_ofNat_of_lt' small]

/-- A count and a row, twice. -/
inductive Laid (log : Log) : Bytes → Prop
  | mk (handles events : Bytes) (first : Row HandleLaid log.handles handles)
      (second : Row Event.Laid log.events events) (few : log.handles.length < 2 ^ 32)
      (fewEvents : log.events.length < 2 ^ 32) :
      Laid log (toLeBytes 4 log.handles.length ++ (handles ++ (toLeBytes 4 log.events.length ++ events)))

theorem exact_decode : Exact decode Laid := by
  intro input log rest
  unfold decode
  simp only [reads_bind, reads_u32, reads_pure, exact_readHandle.repeated, Event.exact_decode.repeated]
  constructor
  · rintro ⟨_, _, ⟨few, rfl⟩, handles, _, ⟨rfl, front, first, rfl⟩, _, _, ⟨fewEvents, rfl⟩, events, _,
      ⟨rfl, back, second, rfl⟩, rfl, rfl⟩
    exact ⟨_, .mk front back first second few fewEvents, by simp⟩
  · rintro ⟨_, laid, rfl⟩
    obtain ⟨handles, events, first, second, few, fewEvents⟩ := laid
    refine ⟨_, _, ⟨few, ?_⟩, log.handles, _, ⟨rfl, handles, first, rfl⟩, _, _, ⟨fewEvents, rfl⟩,
      log.events, rest, ⟨rfl, events, second, rfl⟩, rfl, rfl⟩
    simp

theorem row_handles {handles : List Nat} (fits : ∀ handle ∈ handles, handle < 2 ^ 64) (w : Writer) :
    ∃ front, Row HandleLaid handles front ∧ handles.foldl Writer.u64 w = ⟨w.buffer ++ front⟩ := by
  induction handles generalizing w with
  | nil => exact ⟨[], .nil, by simp⟩
  | cons handle handles ih =>
    obtain ⟨front, row, rest⟩ := ih (fun h member => fits h (List.mem_cons_of_mem _ member))
      (w.u64 handle)
    refine ⟨toLeBytes 8 handle ++ front, .cons ⟨fits handle List.mem_cons_self, rfl⟩ row, ?_⟩
    rw [List.foldl_cons, rest]
    simp [Writer.u64]

theorem row_events {events : List Event} (fits : ∀ event ∈ events, event.Fits)
    (short : ∀ event ∈ events, event.Short) (w : Writer) :
    ∃ front, Row Event.Laid events front ∧
      events.foldlM (fun w (event : Event) => event.encode w) w = some ⟨w.buffer ++ front⟩ := by
  induction events generalizing w with
  | nil => exact ⟨[], .nil, by simp⟩
  | cons event events ih =>
    obtain ⟨own, laid⟩ := Option.isSome_iff_exists.mp
      (event.layout_isSome_iff.mpr (short event List.mem_cons_self))
    obtain ⟨front, row, rest⟩ := ih (fun e member => fits e (List.mem_cons_of_mem _ member))
      (fun e member => short e (List.mem_cons_of_mem _ member)) ⟨w.buffer ++ own⟩
    refine ⟨own ++ front, .cons ⟨fits event List.mem_cons_self, laid⟩ row, ?_⟩
    rw [List.foldlM_cons, event.appends_encode w, laid, Option.map_some, Option.bind_eq_bind,
      Option.bind_some, rest]
    simp

/-- A log that fits is written as it is laid out. -/
theorem laid_toBytes {log : Log} (fits : log.Fits) (short : log.Short) :
    ∃ b, log.toBytes = some b ∧ Laid log b := by
  have count : ∀ {n : Nat}, n < 2 ^ 32 → min n (2 ^ 32 - 1) = n := by
    intro n small
    omega
  obtain ⟨front, first, handles⟩ := row_handles fits.handles
    (Writer.new.u32 log.handles.length)
  obtain ⟨back, second, events⟩ := row_events fits.events short.payloads
    (Writer.u32 ⟨(Writer.new.u32 log.handles.length).buffer ++ front⟩ log.events.length)
  refine ⟨_, ?_, .mk front back first second short.handles short.events⟩
  unfold toBytes encode
  simp only [count short.handles, count short.events, handles, events, Option.map_some, Writer.finish]
  simp [Writer.u32, Writer.new]

/-- What is laid out fits. -/
theorem Laid.fits {log : Log} {b : Bytes} (laid : Laid log b) : log.Fits ∧ log.Short := by
  obtain ⟨handles, events, first, second, few, fewEvents⟩ := laid
  refine ⟨⟨fun handle member => ?_, fun event member => ?_⟩, few, fewEvents, fun event member => ?_⟩
  · obtain ⟨_, small, _⟩ := first.each handle member
    exact small
  · obtain ⟨_, fits, _⟩ := second.each event member
    exact fits
  · obtain ⟨_, _, own⟩ := second.each event member
    exact event.layout_isSome_iff.mp (by simp [own])

/-- A log is laid out in one way. -/
theorem Laid.unique {log : Log} {b c : Bytes} (left : Laid log b) (right : Laid log c) : b = c := by
  obtain ⟨handles, events, first, second, _, _⟩ := left
  obtain ⟨handles', events', first', second', _, _⟩ := right
  have sameHandles : handles = handles' := by
    apply Row.unique _ first first'
    rintro handle _ _ ⟨_, rfl⟩ ⟨_, rfl⟩
    rfl
  have sameEvents : events = events' := by
    apply Row.unique _ second second'
    intro event own own' laid laid'
    exact Option.some.inj (laid.2.symm.trans laid'.2)
  rw [sameHandles, sameEvents]

/-- However many elements a file says it has, no more are tried than it has bytes. -/
theorem attempts_le (b : Bytes) : attempts b ≤ b.length := by
  have handles : Consumes readHandle := exact_readHandle.consumes fun handle laid => by
    have length := congrArg List.length laid.2
    simp at length
  have events : Consumes Event.decode := Event.exact_decode.consumes fun event laid => by
    have nonempty := laid.2
    cases event <;> simp [Event.layout, Option.bind_eq_some_iff] at nonempty
  have counted : ∀ {input : Bytes} {count : Nat} {rest : Bytes},
      Reader.u32.run input = .ok (count, rest) → input.length = 4 + rest.length := by
    intro input count rest read
    obtain ⟨_, rfl⟩ := (reads_u32 input count rest).mp read
    simp
  unfold attempts
  split
  · simp
  · next count rest first =>
    have length := counted first
    have tried := handles.collect_length count rest
    split
    · next collected =>
      rw [collected] at tried
      simp at tried
      omega
    · next left collected =>
      rw [collected] at tried
      simp at tried
      split
      · omega
      · next count rest second =>
        have length' := counted second
        have tried' := events.collect_length count rest
        split
        all_goals
          next collected =>
          rw [collected] at tried'
          simp at tried'
          omega

/-- A log is read back from its file, and a file is only ever read as the log it is the file of,
in no more steps than it has bytes. -/
theorem log_file_is_exact :
    (∀ log : Log, log.Fits → log.Short → ∃ file, log.toBytes = some file ∧ fromBytes file = .ok log) ∧
    (∀ file log, fromBytes file = .ok log → log.toBytes = some file) ∧
    ∀ file, attempts file ≤ file.length := by
  have read := fun file log => (fromBytes_eq_ok decode file log).trans (exact_decode.all file log)
  refine ⟨fun log fits short => ?_, fun file log accepted => ?_, attempts_le⟩
  · obtain ⟨file, written, laid⟩ := laid_toBytes fits short
    exact ⟨file, written, (read file log).mpr laid⟩
  · have laid := (read file log).mp accepted
    obtain ⟨fits, short⟩ := laid.fits
    obtain ⟨own, written, laid'⟩ := laid_toBytes fits short
    rw [written, laid.unique laid']

/-- A machine that panicked, and was freed. -/
def panicked : Log := ⟨[1], [.reply 0 [9] ⟨-7, []⟩, .resume 0 ⟨-4, []⟩, .free 0 ⟨-5, []⟩]⟩

theorem log_file_is_exact_panicked :
    ∃ file, panicked.toBytes = some file ∧ fromBytes file = .ok panicked := by
  apply log_file_is_exact.1 panicked
  · exact ⟨by simp [panicked], by simp [panicked, Event.Fits, Event.machine, Event.outcome,
      Outcome.Fits, CodeFits]⟩
  · exact ⟨by simp [panicked], by simp [panicked], by simp [panicked, Event.Short]⟩

end Log

end SansEffort.Record
