import SansEffort.Layout
import SansEffort.Refusal
import SansEffort.Thread

/-!
# Frames

The output of a call is a row of frames, each a kind and a payload with its length (`ABI.md`,
`encoded.rs`). A host that reads one frame after another until the output ends gets back what the
machine yielded and which machines woke, whatever the payloads hold.
-/

namespace SansEffort

open Reading

variable {V : Type}

abbrev FrameOf := UInt8 × Bytes

/-- A host reads a frame. -/
def frame : Reader FrameOf := do
  let kind ← Reader.u8
  let b ← Reader.bytes
  return (kind, b)

def frameLayout (f : FrameOf) : Option Bytes := (payload f.2).map (f.1 :: ·)

/-- A frame's layout. -/
def IsFrame (f : FrameOf) (b : Bytes) : Prop := frameLayout f = some b

theorem exact_frame : Exact frame IsFrame := by
  intro input f rest
  obtain ⟨kind, b⟩ := f
  unfold frame IsFrame frameLayout
  simp only [reads_bind, reads_u8, reads_bytes, reads_pure, Option.map_eq_some_iff]
  constructor
  · rintro ⟨_, _, rfl, _, _, ⟨front, laid, rfl⟩, same, rfl⟩
    cases same
    exact ⟨kind :: front, ⟨front, laid, rfl⟩, rfl⟩
  · rintro ⟨_, ⟨front, laid, rfl⟩, rfl⟩
    exact ⟨kind, front ++ rest, rfl, b, rest, ⟨front, laid, rfl⟩, rfl, rfl⟩

theorem isFrame_nonempty (f : FrameOf) : ¬ IsFrame f [] := by
  simp [IsFrame, frameLayout]

/-- A call's output, split as a host splits it. -/
def splitFrames (output : Bytes) : Option (List FrameOf) := untilEmpty frame output.length output

theorem splitFrames_of_row {fs : List FrameOf} {output : Bytes} (row : Row IsFrame fs output) :
    splitFrames output = some fs :=
  exact_frame.untilEmpty isFrame_nonempty row (Nat.le_refl _)

/-- The frames of a yield. -/
def yieldFrames (own : V → Bytes) (step : Yield (Shown V)) : List FrameOf :=
  step.effects.map (fun shown =>
    (if shown.awaits then Contract.frameAsk else Contract.frameTell, own shown.view)) ++
  step.closed.map fun id => (Contract.frameClosed, toLeBytes 8 id)

def wokeFramesOf (handles : List Nat) : List FrameOf :=
  handles.map fun handle => (Contract.frameWoke, toLeBytes 8 handle)

/-- Writing items one after another lays out their frames. -/
theorem foldlM_row {α : Type} {items : List α} {write : α → Writer → Option Writer}
    (toFrame : α → FrameOf)
    (writes : ∀ item ∈ items, Appends (write item) (frameLayout (toFrame item)))
    (short : ∀ item ∈ items, (toFrame item).2.length < 2 ^ 32) (w : Writer) :
    ∃ front, Row IsFrame (items.map toFrame) front ∧
      items.foldlM (fun w item => write item w) w = some ⟨w.buffer ++ front⟩ := by
  induction items generalizing w with
  | nil => exact ⟨[], .nil, by simp⟩
  | cons item items ih =>
    have fits := short item List.mem_cons_self
    obtain ⟨own, laid⟩ : ∃ own, frameLayout (toFrame item) = some own := by
      simp [frameLayout, payload_of_lt fits]
    have written := writes item List.mem_cons_self w
    rw [laid, Option.map_some] at written
    obtain ⟨front, more, rest⟩ := ih (fun i member => writes i (List.mem_cons_of_mem _ member))
      (fun i member => short i (List.mem_cons_of_mem _ member)) ⟨w.buffer ++ own⟩
    refine ⟨own ++ front, .cons laid more, ?_⟩
    rw [List.foldlM_cons, written, Option.bind_eq_bind, Option.bind_some, rest]
    simp

theorem appends_frame {kind : UInt8} {write : Writer → Option Writer} {inner : Bytes}
    (writes : Appends write (some inner)) :
    Appends (fun w => (w.u8 kind).nested write) (frameLayout (kind, inner)) := by
  intro w
  show (w.u8 kind).nested write = _
  refine (appends_nested writes (w.u8 kind)).trans ?_
  unfold frameLayout
  cases payload inner <;> simp [Writer.u8]

/-- Two routes, effects and closed ids, in one layout. -/
theorem encode_row (view : V → Writer → Option Writer) (own : V → Bytes)
    (step : Yield (Shown V))
    (writes : ∀ shown ∈ step.effects, Appends (view shown.view) (some (own shown.view)))
    (short : ∀ shown ∈ step.effects, (own shown.view).length < 2 ^ 32) :
    ∃ encoded, Row IsFrame (yieldFrames own step) encoded ∧ encode view step = some encoded := by
  obtain ⟨front, laid, written⟩ := foldlM_row
    (fun shown : Shown V =>
      (if shown.awaits then Contract.frameAsk else Contract.frameTell, own shown.view))
    (fun shown member => appends_frame (writes shown member)) short Writer.new
  have number : ∀ id, Appends (fun w => some (w.u64 id)) (some (toLeBytes 8 id)) := by
    intro id w
    simp [Writer.u64]
  obtain ⟨back, closed, rest⟩ := foldlM_row
    (fun id : Nat => (Contract.frameClosed, toLeBytes 8 id))
    (fun id (_ : id ∈ step.closed) => appends_frame (number id)) (by simp) ⟨front⟩
  refine ⟨front ++ back, laid.append closed, ?_⟩
  unfold encode
  simp only [Writer.new, List.nil_append] at written
  simp [Writer.new, written, rest, Writer.finish]

/-- A batch that was written was short enough: each record has a layout, which fits a frame. -/
theorem encode_short {view : V → Writer → Option Writer} {own : V → Option Bytes}
    (writes : ∀ v, Appends (view v) (own v)) {step : Yield (Shown V)} {encoded : Bytes}
    (written : encode view step = some encoded) :
    ∀ shown ∈ step.effects, ∃ b, own shown.view = some b ∧ b.length < 2 ^ 32 := by
  obtain ⟨w, effects, _⟩ := Option.bind_eq_some_iff.mp written
  have each : ∀ {effects : List (Shown V)} {w after : Writer},
      effects.foldlM (fun w shown =>
        (w.u8 (if shown.awaits then Contract.frameAsk else Contract.frameTell)).nested
          (view shown.view)) w = some after →
      ∀ shown ∈ effects, ∃ b, own shown.view = some b ∧ b.length < 2 ^ 32 := by
    intro effects
    induction effects with
    | nil => simp
    | cons first rest ih =>
      intro w after written shown member
      rw [List.foldlM_cons] at written
      obtain ⟨middle, one, more⟩ := Option.bind_eq_some_iff.mp written
      rcases List.mem_cons.mp member with rfl | later
      · have nested := ((writes shown.view).nested _).symm.trans one
        obtain ⟨front, laid, _⟩ := Option.map_eq_some_iff.mp nested
        obtain ⟨b, same, fits⟩ := Option.bind_eq_some_iff.mp laid
        exact ⟨b, same, ((payload_eq_some b front).mp fits).1⟩
      · exact ih more shown later
  exact each effects

theorem wokeFrames_row (handles : List Nat) : Row IsFrame (wokeFramesOf handles) (wokeFrames handles) := by
  induction handles with
  | nil => exact .nil
  | cons handle rest ih =>
    have first : IsFrame (Contract.frameWoke, toLeBytes 8 handle)
        (Contract.frameWoke :: (toLeBytes 4 8 ++ toLeBytes 8 handle)) := by
      simp [IsFrame, frameLayout, payload]
    exact .cons first ih

/-- The output of a call that returned splits into its effects in order, then the ids it closed,
then the machines woken during it. No payload can make it split otherwise. -/
theorem output_splits_back (view : V → Writer → Option Writer) (own : V → Bytes)
    (step : Yield (Shown V))
    (writes : ∀ shown ∈ step.effects, Appends (view shown.view) (some (own shown.view)))
    (short : ∀ shown ∈ step.effects, (own shown.view).length < 2 ^ 32) :
    ∃ encoded, encode view step = some encoded ∧
      ∀ (t : Thread) (called : Who) (c : PollCall) (status : Status) (outer : Option CallState),
        ∃ outcome woken, (t.report called c (.ok (encoded, status)) outer).history.head? =
            some (.returned called (.poll c) outcome woken) ∧
          woken = (t.call.map CallState.woken).getD [] ∧
          splitFrames outcome.bytes =
            some (yieldFrames own step ++ wokeFramesOf (woken.map (·.who.handle))) := by
  obtain ⟨encoded, laid, written⟩ := encode_row view own step writes short
  refine ⟨encoded, written, fun t called c status outer => ?_⟩
  refine ⟨_, (t.call.map CallState.woken).getD [], rfl, rfl, ?_⟩
  exact splitFrames_of_row (laid.append (wokeFrames_row _))

/-- A payload that looks like a frame itself. -/
theorem output_splits_back_nested :
    ∃ encoded, encode (fun (b : Bytes) w => some ⟨w.buffer ++ b⟩)
      ⟨[⟨[1, 0, 0, 0, 0], true⟩], [7]⟩ = some encoded ∧
      splitFrames (encoded ++ wokeFrames [3]) =
        some [(2, [1, 0, 0, 0, 0]), (3, [7, 0, 0, 0, 0, 0, 0, 0]), (4, [3, 0, 0, 0, 0, 0, 0, 0])] := by
  obtain ⟨encoded, written, splits⟩ := output_splits_back
    (fun (b : Bytes) w => some ⟨w.buffer ++ b⟩) id ⟨[⟨[1, 0, 0, 0, 0], true⟩], [7]⟩
    (by intro shown _ w; rfl) (by simp)
  refine ⟨encoded, written, ?_⟩
  obtain ⟨_, _, returned, rfl, split⟩ := splits
    { Thread.new with call := some ⟨3, [⟨0, ⟨3, 1, false⟩⟩]⟩ } ⟨3, 1, false⟩ .resume .idle none
  cases returned
  exact split

end SansEffort
