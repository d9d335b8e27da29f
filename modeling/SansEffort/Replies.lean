import SansEffort.Drive

/-!
# What crosses

Everything a driven routine tells and asks crosses as bytes, twice: the host reads it, and the
machine reads what the host replies. Here the host's world is a context of its own, and what crosses
both ways carries what that context hears and answers.
-/

namespace SansEffort.Python

open Boundary Dialogue Reading

/-! ### The host's world as a context -/

/-- What the host does for each effect, without the bytes. A sleep moves the clock on. -/
def World.context : Listener everything.interface World where
  tell message w := { w with written := w.written ++ [message.line] }
  ask
    | .count _, w => (UInt64.ofNat (w.greeted + 1), { w with greeted := w.greeted + 1 })
    | .lookup request, w => ((GREETINGS.lookup request.name).getD "Greetings", w)
    | .readLine _, w =>
      (w.lines.head?.elim (Except.error ReadLineError.closed) .ok, { w with lines := w.lines.tail })
    | .sleep request, w => ((), { w with now := w.now + request.millis.toNat })
    | .now _, w => (⟨.fromNanos (UInt64.ofNat w.nanos)⟩, { w with readings := w.readings + 1 })
    | .random request, w =>
      (w.bytes request.len.toNat, { w with nextByte := (w.nextByte + request.len.toNat) % 256 })
    | .var request, w => (ENVIRONMENT.lookup request.name, w)
    | .readFile request, w => ((w.files request.path).elim (.error FsError.notFound) .ok, w)
    | .writeFile request, w =>
      (.ok (), { w with files := Function.update w.files request.path (some request.bytes) })

/-- A request's record fits a frame. -/
def Short : Boundary.Request → Prop
  | .lookup ⟨s⟩ | .var ⟨s⟩ | .readFile ⟨s⟩ => (utf8 s).length + 13 < 2 ^ 32
  | .writeFile request => (utf8 request.path).length + request.bytes.length + 17 < 2 ^ 32
  | _ => True

/-- The host's answer to it fits a reply record. -/
def Fits (w : World) : Boundary.Request → Prop
  | .count _ => w.greeted + 1 < 2 ^ 64
  | .readLine _ => ∀ line ∈ w.lines.head?, (utf8 line).length + 5 < 2 ^ 32
  | .now _ => w.nanos < 2 ^ 64
  | .readFile request => ∀ b ∈ w.files request.path, b.length + 5 < 2 ^ 32
  | _ => True

/-- What the routine says next is short enough to cross. -/
def Crosses {S : Type} (p : Point everything.interface S World) : Prop :=
  match p.rest with
  | .done _ => True
  | .tell message _ => (utf8 message.line).length + 5 < 2 ^ 32
  | .ask request _ => Short request ∧ Fits p.world request

/-! ### What crosses -/

theorem pack_of_lt {n v : Nat} (small : v < 256 ^ n) : pack n v = .ok (toLeBytes n v) := if_pos small

theorem packed_of_lt {b : Bytes} (short : b.length < 2 ^ 32) :
    packed b = .ok (toLeBytes 4 b.length ++ b) := by
  unfold packed
  rw [pack_of_lt short]
  rfl

/-- A record that the host makes for the request with this id, as the machine reads it. -/
def Replies (id : Nat) (value : Value) (record : Bytes) : Prop :=
  ∃ input, Input.decode record = .ok input ∧ input.id = id ∧ input.value = value

section

variable {id : Nat} (small : id < 2 ^ 64)
include small

theorem replyStr_replies {s : String} (short : (utf8 s).length < 2 ^ 32) :
    ∃ record, replyStr id s = .ok record ∧ Replies id (.str s) record := by
  have same : (UInt64.ofNat id).toNat = id := UInt64.toNat_ofNat_of_lt' small
  refine ⟨1 :: (toLeBytes 8 id ++ (toLeBytes 4 (utf8 s).length ++ utf8 s)), ?_, ?_⟩
  · unfold replyStr
    rw [pack_of_lt small, packed_of_lt short]
    rfl
  · refine ⟨.str (.ofNat id) s, (Input.decode_eq_ok _ _).mpr ?_, same, rfl⟩
    have laid := Input.Laid.str (.ofNat id) s short
    rwa [same] at laid

theorem replyU64_replies {v : Nat} (fits : v < 2 ^ 64) :
    ∃ record, replyU64 id v = .ok record ∧ Replies id (.u64 (.ofNat v)) record := by
  have same : (UInt64.ofNat id).toNat = id := UInt64.toNat_ofNat_of_lt' small
  have value : (UInt64.ofNat v).toNat = v := UInt64.toNat_ofNat_of_lt' fits
  refine ⟨2 :: (toLeBytes 8 id ++ toLeBytes 8 v), ?_, ?_⟩
  · unfold replyU64
    rw [pack_of_lt small, pack_of_lt fits]
    rfl
  · refine ⟨.u64 (.ofNat id) (.ofNat v), (Input.decode_eq_ok _ _).mpr ?_, same, rfl⟩
    have laid := Input.Laid.u64 (.ofNat id) (.ofNat v)
    rwa [same, value] at laid

theorem replyUnit_replies : ∃ record, replyUnit id = .ok record ∧ Replies id .unit record := by
  have same : (UInt64.ofNat id).toNat = id := UInt64.toNat_ofNat_of_lt' small
  refine ⟨3 :: toLeBytes 8 id, ?_, ?_⟩
  · unfold replyUnit
    rw [pack_of_lt small]
    rfl
  · refine ⟨.unit (.ofNat id), (Input.decode_eq_ok _ _).mpr ?_, same, rfl⟩
    have laid := Input.Laid.unit (.ofNat id)
    rwa [same] at laid

theorem replyBytes_replies {b : Bytes} (short : b.length < 2 ^ 32) :
    ∃ record, replyBytes id b = .ok record ∧ Replies id (.bytes b) record := by
  have same : (UInt64.ofNat id).toNat = id := UInt64.toNat_ofNat_of_lt' small
  refine ⟨4 :: (toLeBytes 8 id ++ (toLeBytes 4 b.length ++ b)), ?_, ?_⟩
  · unfold replyBytes
    rw [pack_of_lt small, packed_of_lt short]
    rfl
  · refine ⟨.bytes (.ofNat id) b, (Input.decode_eq_ok _ _).mpr ?_, same, rfl⟩
    have laid := Input.Laid.bytes (.ofNat id) b short
    rwa [same] at laid

end

/-! ### What the replies carry -/

theorem reads_result_ok {α β : Type} {ok : SansEffort.Reader α} {err : SansEffort.Reader β}
    {b : Bytes} {x : α} (read : Reads ok b x []) :
    (SansEffort.Reader.result ok err).fromBytes (0 :: b) = .ok (.ok x) := by
  refine (fromBytes_eq_ok _ _ _).mpr ?_
  unfold SansEffort.Reader.result
  simp only [reads_bind, reads_u8]
  exact ⟨0, b, rfl, by simpa using read⟩

theorem reads_result_error {α β : Type} {ok : SansEffort.Reader α} {err : SansEffort.Reader β}
    {b : Bytes} {x : β} (read : Reads err b x []) :
    (SansEffort.Reader.result ok err).fromBytes (1 :: b) = .ok (.error x) := by
  refine (fromBytes_eq_ok _ _ _).mpr ?_
  unfold SansEffort.Reader.result
  simp only [reads_bind, reads_u8]
  exact ⟨1, b, rfl, by simpa using read⟩

theorem result_carries {α β : Type} {ok : SansEffort.Reader α} {err : SansEffort.Reader β}
    {b : Bytes} {x : Except β α} (read : (SansEffort.Reader.result ok err).fromBytes b = .ok x) :
    (AnswerType.result ok err).Carries (.bytes b) x := by
  refine ⟨b, rfl, ?_, read⟩
  show ((SansEffort.Reader.result ok err).fromBytes b).map _ = _
  rw [read]
  rfl

theorem option_carries {α : Type} {inner : SansEffort.Reader α} {b : Bytes} {x : Option α}
    (read : (SansEffort.Reader.option inner).fromBytes b = .ok x) :
    (AnswerType.option inner).Carries (.bytes b) x := by
  refine ⟨b, rfl, ?_, read⟩
  show ((SansEffort.Reader.option inner).fromBytes b).map _ = _
  rw [read]
  rfl

/-- The record that the host makes for a request: it is read as a value that carries what the
context gives, and the host's world is the context's. -/
def Answers (w : World) (request : Boundary.Request) (id : Nat) : Prop :=
  ∃ record value, w.answer (request.view id) =
      .ok (record, (World.context.ask request w).2) ∧
    Replies id value record ∧ request.reply.Carries value (World.context.ask request w).1

/-- A value found in a table is short if all the table's values are. -/
theorem short_lookup (table : List (String × String))
    (short : ∀ pair ∈ table, (utf8 pair.2).length < 64) (key : String) :
    ∀ s ∈ table.lookup key, (utf8 s).length < 64 := by
  intro s found
  obtain ⟨front, back, rfl, _⟩ := List.lookup_eq_some_iff.mp found
  exact short (key, s) (by simp)

theorem greeting_short (name : String) :
    (utf8 ((GREETINGS.lookup name).getD "Greetings")).length < 64 := by
  have known := short_lookup GREETINGS (by decide) name
  cases found : GREETINGS.lookup name with
  | none => decide
  | some greeting => exact known greeting found

theorem answers {w : World} {request : Boundary.Request} {id : Nat} (small : id < 2 ^ 64)
    (fits : Fits w request) (awake : ∀ r, request ≠ .sleep r) : Answers w request id := by
  cases request with
  | count request =>
    obtain ⟨record, made, replies⟩ := replyU64_replies small fits
    refine ⟨record, _, ?_, replies, _, rfl, rfl, rfl⟩
    show (do return (← replyU64 id (w.greeted + 1), _)) = _
    rw [made]
    rfl
  | lookup request =>
    have short := greeting_short request.name
    obtain ⟨record, made, replies⟩ := replyStr_replies small
      (by omega : (utf8 ((GREETINGS.lookup request.name).getD "Greetings")).length < 2 ^ 32)
    refine ⟨record, _, ?_, replies, _, rfl, rfl, rfl⟩
    show (do return (← replyStr id _, w)) = _
    rw [made]
    rfl
  | readLine request =>
    obtain ⟨lines, written, greeted, files, readings, nextByte, now⟩ := w
    cases lines with
    | nil =>
      obtain ⟨record, made, replies⟩ := replyBytes_replies (b := [1, 0]) small (by decide)
      refine ⟨record, _, ?_, replies, result_carries (reads_result_error ?_)⟩
      · show (do return (← replyBytes id [1, 0], _)) = _
        rw [made]
        rfl
      · simp [Decode.decode]
    | cons line rest =>
      have short : (utf8 line).length + 5 < 2 ^ 32 := fits line rfl
      have inner : packed (utf8 line) = .ok _ := packed_of_lt (by omega)
      obtain ⟨record, made, replies⟩ := replyBytes_replies
        (b := 0 :: (toLeBytes 4 (utf8 line).length ++ utf8 line)) small (by simp; omega)
      refine ⟨record, _, ?_, replies, result_carries (reads_result_ok ?_)⟩
      · show (do return (← (do replyBytes id (0 :: (← packed (utf8 line)))), _)) = _
        rw [inner]
        show (do return (← replyBytes id _, _)) = _
        rw [made]
        rfl
      · exact (reads_str _ _ _).mpr ⟨_, payload_of_lt (by omega), (List.append_nil _).symm⟩
  | sleep request => exact absurd rfl (awake request)
  | now request =>
    obtain ⟨record, made, replies⟩ := replyU64_replies small fits
    refine ⟨record, _, ?_, replies, _, rfl, rfl, rfl⟩
    show (do return (← replyU64 id w.nanos, _)) = _
    rw [made]
    rfl
  | random request =>
    have short : (w.bytes request.len.toNat).length < 2 ^ 32 := by
      simpa [World.bytes] using request.len.toNat_lt
    obtain ⟨record, made, replies⟩ := replyBytes_replies small short
    refine ⟨record, _, ?_, replies, _, rfl, rfl, rfl⟩
    show (do return (← replyBytes id (w.bytes request.len.toNat), _)) = _
    rw [made]
    rfl
  | var request =>
    have known := short_lookup ENVIRONMENT (by decide) request.name
    cases found : ENVIRONMENT.lookup request.name with
    | none =>
      obtain ⟨record, made, replies⟩ := replyBytes_replies (b := [0]) small (by decide)
      refine ⟨record, _, ?_, replies, option_carries ?_⟩
      · show (do return (← replyBytes id (← someStr (ENVIRONMENT.lookup request.name)), w)) = _
        rw [found]
        show (do return (← replyBytes id [0], w)) = _
        rw [made]
        rfl
      · show _ = Except.ok (ENVIRONMENT.lookup request.name)
        rw [found]
        rfl
    | some s =>
      have short := known s found
      have inner : packed (utf8 s) = .ok _ := packed_of_lt (by omega)
      obtain ⟨record, made, replies⟩ := replyBytes_replies
        (b := 1 :: (toLeBytes 4 (utf8 s).length ++ utf8 s)) small (by simp; omega)
      refine ⟨record, _, ?_, replies, option_carries ?_⟩
      · show (do return (← replyBytes id (← someStr (ENVIRONMENT.lookup request.name)), w)) = _
        rw [found]
        show (do return (← replyBytes id (← (do return 1 :: (← packed (utf8 s)))), w)) = _
        rw [inner]
        show (do return (← replyBytes id _, w)) = _
        rw [made]
        rfl
      · show _ = Except.ok (ENVIRONMENT.lookup request.name)
        rw [found]
        refine (fromBytes_eq_ok _ _ _).mpr ?_
        unfold SansEffort.Reader.option
        simp only [reads_bind, reads_u8]
        exact ⟨1, _, rfl, by simp [payload_of_lt (show (utf8 s).length < 2 ^ 32 by omega)]⟩
  | readFile request =>
    cases found : w.files request.path with
    | none =>
      obtain ⟨record, made, replies⟩ := replyBytes_replies (b := [1, 0]) small (by decide)
      refine ⟨record, _, ?_, replies, result_carries ?_⟩
      · show (do return (← replyBytes id (← okBytes (w.files request.path)), w)) = _
        rw [found]
        show (do return (← replyBytes id [1, 0], w)) = _
        rw [made]
        rfl
      · show _ = Except.ok ((w.files request.path).elim _ _)
        rw [found]
        exact reads_result_error (by simp [Decode.decode])
    | some b =>
      have short : b.length + 5 < 2 ^ 32 := fits b found
      have inner : packed b = .ok _ := packed_of_lt (by omega)
      obtain ⟨record, made, replies⟩ := replyBytes_replies
        (b := 0 :: (toLeBytes 4 b.length ++ b)) small (by simp; omega)
      refine ⟨record, _, ?_, replies, result_carries ?_⟩
      · show (do return (← replyBytes id (← okBytes (w.files request.path)), w)) = _
        rw [found]
        show (do return (← replyBytes id (← (do return 0 :: (← packed b))), w)) = _
        rw [inner]
        show (do return (← replyBytes id _, w)) = _
        rw [made]
        rfl
      · show _ = Except.ok ((w.files request.path).elim _ _)
        rw [found]
        exact reads_result_ok
          ((reads_bytes _ _ _).mpr ⟨_, payload_of_lt (by omega), (List.append_nil _).symm⟩)
  | writeFile request =>
    obtain ⟨record, made, replies⟩ := replyBytes_replies (b := [0]) small (by decide)
    refine ⟨record, _, ?_, replies, result_carries (reads_result_ok ?_)⟩
    · show (do return (← replyBytes id [0], _)) = _
      rw [made]
      rfl
    · exact (reads_pure _ _ _ _).mpr ⟨rfl, rfl⟩

theorem answers_sleep (w : World) (request : SleepEffect) {id : Nat} (small : id < 2 ^ 64) :
    ∃ record value, replyUnit id = .ok record ∧ Replies id value record ∧
      (Boundary.Request.sleep request).reply.Carries value (World.context.ask (.sleep request) w).1 := by
  obtain ⟨record, made, replies⟩ := replyUnit_replies small
  exact ⟨record, _, made, replies, _, rfl, rfl, rfl⟩

/-! ### What a stretch puts out -/

theorem line_laid {line : String} (short : (utf8 line).length + 5 < 2 ^ 32) :
    ∃ b, (View.writeLine line).layout = some b ∧ b.length < 2 ^ 32 := by
  refine ⟨_, congrArg (Option.map _) (payload_of_lt (by omega)), ?_⟩
  simp
  omega

theorem view_laid {request : Boundary.Request} (short : Short request) (id : Nat) :
    ∃ b, (request.view id).layout = some b ∧ b.length < 2 ^ 32 := by
  cases request with
  | count | readLine | sleep | now | random => exact ⟨_, rfl, by simp⟩
  | lookup request | var request | readFile request =>
    have short : (utf8 _).length + 13 < 2 ^ 32 := short
    refine ⟨_, congrArg (Option.map _) (payload_of_lt (by omega)), ?_⟩
    simp
    omega
  | writeFile request =>
    have short : _ + _ + 17 < 2 ^ 32 := short
    have path : payload (utf8 request.path) = some _ := payload_of_lt (by omega)
    have bytes : payload request.bytes = some _ := payload_of_lt (by omega)
    refine ⟨_, by simp only [Boundary.Request.view, View.layout, path, bytes]; rfl, ?_⟩
    simp
    omega

/-- Views short enough to cross are written, and the host reads them back. -/
theorem views_read {step : Yield (Shown View)} {woken : List Nat}
    (each : ∀ shown ∈ step.effects, shown.view.number < 2 ^ 64 ∧
      ∃ b, shown.view.layout = some b ∧ b.length < 2 ^ 32)
    (closed : ∀ id ∈ step.closed, id < 2 ^ 64) (handles : ∀ handle ∈ woken, handle < 2 ^ 64) :
    ∃ data, encode View.encode step = some data ∧
      decode (data ++ wokeFrames woken) = .ok (said step woken) := by
  let own : View → Bytes := fun view => view.layout.getD []
  have laid : ∀ shown ∈ step.effects, shown.view.layout = some (own shown.view) ∧
      (own shown.view).length < 2 ^ 32 := by
    intro shown member
    obtain ⟨_, b, same, fits⟩ := each shown member
    simpa [own, same] using fits
  obtain ⟨data, _, written⟩ := encode_row View.encode own step
    (fun shown member => (laid shown member).1 ▸ shown.view.appends_encode)
    fun shown member => (laid shown member).2
  obtain ⟨output, row, means⟩ := output_means written (fun shown member => (each shown member).1)
    closed handles
  exact ⟨data, written, decode_row row ((kept_of_means means).symm ▸ means)⟩

section

variable {C S : Type}

/-- The views of a stretch. -/
def viewsOf (next : Nat) (messages : List WriteLineEffect) (stop : Stop everything.interface S) :
    List View :=
  (shownBy (full C) next messages stop).map (·.view)

/-- A stretch whose views can cross is written, and the host reads it back. -/
theorem stretch_output {next : Nat} (small : next < 2 ^ 64) {messages : List WriteLineEffect}
    {stop : Stop everything.interface S}
    (lines : ∀ message ∈ messages, (utf8 message.line).length + 5 < 2 ^ 32)
    (short : ∀ request more, stop = .asks request more → Short request) :
    ∃ data, encode View.encode ⟨shownBy (full C) next messages stop, []⟩ = some data ∧
      decode data = .ok ((viewsOf (C := C) next messages stop).map .of) := by
  let step : Yield (Shown View) := ⟨shownBy (full C) next messages stop, []⟩
  have each : ∀ shown ∈ step.effects, shown.view.number < 2 ^ 64 ∧
      ∃ b, shown.view.layout = some b ∧ b.length < 2 ^ 32 := by
    have told : ∀ shown ∈ messages.map fun message => (⟨(full C).showTold message, false⟩ : Shown View),
        shown.view.number < 2 ^ 64 ∧ ∃ b, shown.view.layout = some b ∧ b.length < 2 ^ 32 := by
      intro shown member
      obtain ⟨message, said, rfl⟩ := List.mem_map.mp member
      exact ⟨by simp [full, View.number], line_laid (lines message said)⟩
    cases stop with
    | ends => exact told
    | asks request more =>
      intro shown member
      rcases List.mem_append.mp member with before | last
      · exact told shown before
      · obtain rfl := List.mem_singleton.mp last
        refine ⟨?_, view_laid (short request more rfl) next⟩
        cases request <;> exact small
  have nothing : ∀ handle ∈ ([] : List Nat), handle < 2 ^ 64 := by simp
  obtain ⟨data, written, read⟩ := views_read each (by simp [step]) nothing
  refine ⟨data, written, ?_⟩
  rw [show data ++ wokeFrames [] = data from List.append_nil data] at read
  simpa [said, viewsOf, step, Function.comp_def] using read

end

end SansEffort.Python
