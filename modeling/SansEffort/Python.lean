import SansEffort.Boundary
import SansEffort.Frames
import SansEffort.Grammar

/-!
# What a Python host reads

The demo's host that drives machines over the C ABI without a library
(`demo/driven/python/main.py`), and how it reads what a call put out. It takes exactly what the
machine yielded from it, and what a newer binding may have put between that is passed over.
-/

namespace SansEffort.Python

open Reading Boundary

/-- `struct.error`, `ValueError`, `UnicodeDecodeError`, `RuntimeError`, `UnboundLocalError`,
`KeyError` and `Stalled`, with what their texts name. -/
inductive Raised
  | unpack
  | short (wanted left : Nat)
  | unicode
  | unknown (frame : Nat) (tag : UInt8)
  | unexpected (frame : Nat) (kind : Tag) (left : Nat)
  | failed (code : Int)
  | unbound
  | key
  | stalled (machines : Nat)

/-- What is left of the data. -/
abbrev Reader := Parser UInt8 Raised

namespace Reader

/-- `_take`, for a format of `n` bytes. -/
def take (n : Nat) : Reader Bytes := do
  let left ← get
  if n ≤ left.length then
    set (left.drop n)
    return left.take n
  else throw .unpack

def u8 : Reader UInt8 := (·.headD 0) <$> take 1

def u32 : Reader Nat := fromLeBytes <$> take 4

def u64 : Reader Nat := fromLeBytes <$> take 8

def bytes : Reader Bytes := do
  let n ← u32
  let left ← get
  let b := left.take n
  if b.length = n then
    set (left.drop n)
    return b
  else throw (.short n b.length)

def str : Reader String := do
  let b ← bytes
  match SansEffort.Reader.fromUtf8 b with
  | some s => return s
  | none => throw .unicode

end Reader

/-- `frames`, with at most so many. -/
def framesIn : Nat → Bytes → Except Raised (List FrameOf)
  | _, [] => .ok []
  | 0, _ => .ok []
  | tries + 1, data => do
    let (kind, data) ← Reader.u8.run data
    let (payload, data) ← Reader.bytes.run data
    let more ← framesIn tries data
    return (kind, payload) :: more

/-- Each takes a byte at least. -/
def frames (data : Bytes) : Except Raised (List FrameOf) := framesIn data.length data

/-- The greeter's tag table. -/
def TAGS : List (UInt8 × Tag) :=
  [(1, .count), (2, .lookup), (3, .readLine), (4, .sleep), (5, .writeLine), (6, .spawned),
    (7, .spawnedPinned), (8, .now), (9, .random), (10, .var), (11, .readFile), (12, .writeFile)]

/-- What a frame says. -/
inductive Effect
  | of (view : View)
  | closed (id : Nat)
  | woke (handle : Nat)
  deriving DecidableEq

/-- The fields of a record of that kind. -/
def fields : Tag → Reader View
  | .count => do return .count (← Reader.u64)
  | .lookup => do return .lookup (← Reader.str) (← Reader.u64)
  | .readLine => do return .readLine (← Reader.u64)
  | .sleep => do return .sleep (.ofNat (← Reader.u64)) (← Reader.u64)
  | .writeLine => do return .writeLine (← Reader.str)
  | .spawned => do return .spawned (← Reader.u64)
  | .spawnedPinned => do return .spawnedPinned (← Reader.u64)
  | .now => do return .now (← Reader.u64)
  | .random => do return .random (.ofNat (← Reader.u32)) (← Reader.u64)
  | .var => do return .var (← Reader.str) (← Reader.u64)
  | .readFile => do return .readFile (← Reader.str) (← Reader.u64)
  | .writeFile => do return .writeFile (← Reader.str) (← Reader.bytes) (← Reader.u64)

/-- The payload of the `n`th frame. `none` is skipped. -/
def effect (n : Nat) (frame : UInt8) : Reader (Option Effect) := do
  if frame = Contract.frameClosed then return some (.closed (← Reader.u64))
  else if frame = Contract.frameWoke then return some (.woke (← Reader.u64))
  else if frame = Contract.frameTell ∨ frame = Contract.frameAsk then
    let tag ← Reader.u8
    match TAGS.lookup tag with
    -- a tell that this host does not know has nothing to answer
    | none => if frame = Contract.frameTell then return none else throw (.unknown n tag)
    | some kind =>
      let view ← fields kind
      let left ← get
      if left.isEmpty then return some (.of view) else throw (.unexpected n kind left.length)
  else return none

/-- The frames from the `n`th on, one after another. -/
def effects : Nat → List FrameOf → Except Raised (List Effect)
  | _, [] => .ok []
  | n, frame :: rest => do
    let (e, _) ← (effect n frame.1).run frame.2
    let more ← effects (n + 1) rest
    return e.toList ++ more

def decode (data : Bytes) : Except Raised (List Effect) := do effects 0 (← frames data)

/-! ### The readers -/

namespace Reader

@[simp] theorem reads_take (n : Nat) (input front rest : Bytes) :
    Reads (take n) input front rest ↔ front.length = n ∧ input = front ++ rest := by
  have taken : (take n).run input =
      if n ≤ input.length then .ok (input.take n, input.drop n) else .error .unpack := by
    show (if n ≤ input.length then _ else _ : Reader Bytes) input = _
    split <;> rfl
  unfold Reads
  rw [taken]
  constructor
  · intro read
    split at read
    · next enough =>
      cases read
      exact ⟨List.length_take_of_le enough, (List.take_append_drop n input).symm⟩
    · cases read
  · rintro ⟨rfl, rfl⟩
    simp

/-- A number's bytes, and the number. -/
theorem reads_number (n : Nat) (input : Bytes) (v : Nat) (rest : Bytes) :
    Reads (fromLeBytes <$> take n) input v rest ↔ v < 256 ^ n ∧ input = toLeBytes n v ++ rest := by
  simp only [reads_map, reads_take]
  constructor
  · rintro ⟨front, ⟨rfl, rfl⟩, rfl⟩
    exact ⟨fromLeBytes_lt front, by rw [toLeBytes_fromLeBytes]⟩
  · rintro ⟨small, rfl⟩
    exact ⟨toLeBytes n v, ⟨length_toLeBytes n v, rfl⟩, fromLeBytes_of_lt small⟩

@[simp] theorem reads_u8 (input : Bytes) (b : UInt8) (rest : Bytes) :
    Reads u8 input b rest ↔ input = b :: rest := by
  unfold u8
  simp only [reads_map, reads_take]
  constructor
  · rintro ⟨front, ⟨length, rfl⟩, rfl⟩
    obtain ⟨byte, rfl⟩ := List.length_eq_one_iff.mp length
    rfl
  · rintro rfl
    exact ⟨[b], ⟨rfl, rfl⟩, rfl⟩

@[simp] theorem reads_u32 (input : Bytes) (v : Nat) (rest : Bytes) :
    Reads u32 input v rest ↔ v < 2 ^ 32 ∧ input = toLeBytes 4 v ++ rest := reads_number 4 input v rest

@[simp] theorem reads_u64 (input : Bytes) (v : Nat) (rest : Bytes) :
    Reads u64 input v rest ↔ v < 2 ^ 64 ∧ input = toLeBytes 8 v ++ rest := reads_number 8 input v rest

@[simp] theorem reads_bytes (input b rest : Bytes) :
    Reads bytes input b rest ↔ ∃ front, payload b = some front ∧ input = front ++ rest := by
  have taken : ∀ n (left : Bytes), Reads (do
      let left ← get
      let b := left.take n
      if b.length = n then
        set (left.drop n)
        return b
      else throw (.short n b.length) : Reader Bytes) left b rest ↔
        b.length = n ∧ left = b ++ rest := by
    intro n left
    show (if (left.take n).length = n then _ else _ : Reader Bytes) left = _ ↔ _
    split
    · next enough =>
      constructor
      · intro read
        cases read
        exact ⟨enough, (List.take_append_drop n left).symm⟩
      · rintro ⟨rfl, rfl⟩
        show Except.ok ((b ++ rest).take b.length, (b ++ rest).drop b.length) = _
        simp
    · next less =>
      constructor
      · intro read
        cases read
      · rintro ⟨rfl, rfl⟩
        simp at less
  unfold bytes
  simp only [reads_bind, reads_u32, taken, payload_eq_some]
  constructor
  · rintro ⟨_, _, ⟨small, rfl⟩, rfl, rfl⟩
    exact ⟨_, ⟨small, rfl⟩, by simp⟩
  · rintro ⟨_, ⟨small, rfl⟩, rfl⟩
    exact ⟨b.length, b ++ rest, ⟨small, by simp⟩, rfl, rfl⟩

@[simp] theorem reads_str (input : Bytes) (s : String) (rest : Bytes) :
    Reads str input s rest ↔ ∃ front, payload (utf8 s) = some front ∧ input = front ++ rest := by
  unfold str
  simp only [reads_bind, reads_bytes]
  constructor
  · rintro ⟨b, middle, taken, read⟩
    split at read
    · next s' same =>
      obtain ⟨rfl, rfl⟩ := (reads_pure _ _ _ _).mp read
      rw [(fromUtf8_eq_some b s').mp same]
      exact taken
    · simp at read
  · intro taken
    refine ⟨utf8 s, rest, taken, ?_⟩
    rw [(fromUtf8_eq_some (utf8 s) s).mpr rfl]
    simp

@[simp] theorem reads_get (input left rest : Bytes) :
    Reads (get : Reader Bytes) input left rest ↔ left = input ∧ rest = input := by
  constructor
  · intro read
    cases read
    exact ⟨rfl, rfl⟩
  · rintro ⟨rfl, rfl⟩
    rfl

end Reader

/-! ### It reads what was written -/

@[simp] theorem lookup_byte (kind : Tag) : TAGS.lookup kind.byte = some kind := by
  cases kind <;> rfl

/-- A record is its kind's tag, and the fields that are read for that kind. -/
theorem reads_fields {view : View} {own : Bytes} (small : view.number < 2 ^ 64)
    (laid : view.layout = some own) : ∃ (kind : Tag) (body : Bytes), own = kind.byte :: body ∧
      Reads (fields kind) body view [] := by
  cases view with
  | count id =>
    cases laid
    exact ⟨.count, _, rfl, by simpa [fields, View.number] using small⟩
  | lookup name id =>
    obtain ⟨front, written, rfl⟩ := Option.map_eq_some_iff.mp laid
    exact ⟨.lookup, _, rfl, by simpa [fields, View.number, written] using small⟩
  | readLine id =>
    cases laid
    exact ⟨.readLine, _, rfl, by simpa [fields, View.number] using small⟩
  | sleep millis id =>
    cases laid
    refine ⟨.sleep, _, rfl, ?_⟩
    simp only [fields, reads_bind, Reader.reads_u64, reads_pure]
    exact ⟨_, _, ⟨millis.toNat_lt, rfl⟩, id, [], ⟨small, (List.append_nil _).symm⟩, by simp, rfl⟩
  | writeLine text =>
    obtain ⟨front, written, rfl⟩ := Option.map_eq_some_iff.mp laid
    exact ⟨.writeLine, _, rfl, by simp [fields, written]⟩
  | now id =>
    cases laid
    exact ⟨.now, _, rfl, by simpa [fields, View.number] using small⟩
  | random len id =>
    cases laid
    refine ⟨.random, _, rfl, ?_⟩
    simp only [fields, reads_bind, Reader.reads_u32, Reader.reads_u64, reads_pure]
    exact ⟨_, _, ⟨len.toNat_lt, rfl⟩, id, [], ⟨small, (List.append_nil _).symm⟩, by simp, rfl⟩
  | var name id =>
    obtain ⟨front, written, rfl⟩ := Option.map_eq_some_iff.mp laid
    exact ⟨.var, _, rfl, by simpa [fields, View.number, written] using small⟩
  | readFile path id =>
    obtain ⟨front, written, rfl⟩ := Option.map_eq_some_iff.mp laid
    exact ⟨.readFile, _, rfl, by simpa [fields, View.number, written] using small⟩
  | writeFile path bytes id =>
    obtain ⟨front, written, more⟩ := Option.bind_eq_some_iff.mp laid
    obtain ⟨back, written', rfl⟩ := Option.map_eq_some_iff.mp more
    exact ⟨.writeFile, _, rfl, by simpa [fields, View.number, written, written'] using small⟩
  | spawned handle =>
    cases laid
    exact ⟨.spawned, _, rfl, by simpa [fields, View.number] using small⟩
  | spawnedPinned handle =>
    cases laid
    exact ⟨.spawnedPinned, _, rfl, by simpa [fields, View.number] using small⟩

/-- The bytes of a record are read as that effect, whichever of its frames they are in. -/
theorem reads_effect {view : View} {own : Bytes} (small : view.number < 2 ^ 64)
    (laid : view.layout = some own) (n : Nat) {frame : UInt8}
    (known : frame = Contract.frameTell ∨ frame = Contract.frameAsk) :
    Reads (effect n frame) own (some (.of view)) [] := by
  have other : frame ≠ Contract.frameClosed ∧ frame ≠ Contract.frameWoke := by
    rcases known with rfl | rfl <;> decide
  obtain ⟨kind, body, rfl, read⟩ := reads_fields small laid
  unfold effect
  rw [if_neg other.1, if_neg other.2, if_pos known]
  simp only [reads_bind, Reader.reads_u8]
  refine ⟨kind.byte, body, rfl, ?_⟩
  simp only [lookup_byte, reads_bind, Reader.reads_get]
  exact ⟨view, [], read, [], [], ⟨rfl, rfl⟩, by simp⟩

/-- A frame that a newer binding may put in: of a kind that this host does not know, or a tell with
a tag that it does not know. -/
def reserved (frame : FrameOf) : Bool :=
  frame.1 ∉ [Contract.frameTell, Contract.frameAsk, Contract.frameClosed, Contract.frameWoke] ∨
    frame.1 = Contract.frameTell ∧ frame.2.head?.map (TAGS.lookup ·) = some none

/-- A frame that means `e`, wherever it is in the output. -/
def Means (frame : FrameOf) (e : Effect) : Prop :=
  ∀ n, ∃ rest, Reads (effect n frame.1) frame.2 (some e) rest

theorem skips_reserved {frame : FrameOf} (skipped : reserved frame = true) (n : Nat) :
    ∃ rest, Reads (effect n frame.1) frame.2 none rest := by
  obtain ⟨kind, data⟩ := frame
  unfold effect
  rcases of_decide_eq_true skipped with unknown | ⟨tell, unknown⟩
  · simp only [List.mem_cons, List.not_mem_nil, or_false, not_or] at unknown
    obtain ⟨tell, ask, closed, woke⟩ := unknown
    rw [if_neg closed, if_neg woke, if_neg (by simp [tell, ask])]
    exact ⟨data, by simp⟩
  · obtain rfl : kind = _ := tell
    cases data with
    | nil => simp at unknown
    | cons tag rest =>
      refine ⟨rest, ?_⟩
      have unlisted : TAGS.lookup tag = none := by simpa using unknown
      have other : Contract.frameTell ≠ Contract.frameClosed ∧
          Contract.frameTell ≠ Contract.frameWoke := by decide
      rw [if_neg other.1, if_neg other.2, if_pos (.inl rfl)]
      simp only [reads_bind, Reader.reads_u8]
      exact ⟨tag, rest, rfl, by simp [unlisted]⟩

theorem means_of {view : View} {own : Bytes} (small : view.number < 2 ^ 64)
    (laid : view.layout = some own) {frame : UInt8}
    (known : frame = Contract.frameTell ∨ frame = Contract.frameAsk) :
    Means (frame, own) (.of view) :=
  fun n => ⟨[], reads_effect small laid n known⟩

theorem means_closed {id : Nat} (small : id < 2 ^ 64) :
    Means (Contract.frameClosed, toLeBytes 8 id) (.closed id) := by
  intro n
  refine ⟨[], ?_⟩
  unfold effect
  rw [if_pos rfl]
  simpa using small

theorem means_woke {handle : Nat} (small : handle < 2 ^ 64) :
    Means (Contract.frameWoke, toLeBytes 8 handle) (.woke handle) := by
  intro n
  refine ⟨[], ?_⟩
  have other : Contract.frameWoke ≠ Contract.frameClosed := by decide
  unfold effect
  rw [if_neg other, if_pos rfl]
  simpa using small

/-- The frames are all there before the first of them is looked into. -/
theorem frames_of_row {split : List FrameOf} {data : Bytes} (row : Row IsFrame split data) :
    frames data = .ok split := by
  have within : ∀ tries, data.length ≤ tries → framesIn tries data = .ok split := by
    induction row with
    | nil =>
      intro tries _
      cases tries <;> rfl
    | @cons frame more front back first later ih =>
      obtain ⟨kind, b⟩ := frame
      obtain ⟨own, laid, rfl⟩ := Option.map_eq_some_iff.mp (show frameLayout _ = _ from first)
      intro tries enough
      cases tries with
      | zero => simp at enough
      | succ tries =>
        have left : back.length ≤ tries := by
          simp at enough
          omega
        have tag : Reader.u8.run (kind :: (own ++ back)) = .ok (kind, own ++ back) :=
          (Reader.reads_u8 _ _ _).mpr rfl
        have body : Reader.bytes.run (own ++ back) = .ok (b, back) :=
          (Reader.reads_bytes _ _ _).mpr ⟨own, laid, rfl⟩
        show framesIn (tries + 1) (kind :: (own ++ back)) = _
        unfold framesIn
        simp only [tag, body, ih tries left, bind, Except.bind]
        rfl
  exact within data.length (Nat.le_refl _)

/-- Output that is in frames means what they mean, whatever reserved frames are between them. -/
theorem decode_row {split : List FrameOf} {data : Bytes} {meant : List Effect}
    (row : Row IsFrame split data)
    (means : List.Forall₂ Means (split.filter (!reserved ·)) meant) : decode data = .ok meant := by
  have from_ : ∀ n, effects n split = .ok meant := by
    clear row
    induction split generalizing meant with
    | nil =>
      cases means
      exact fun _ => rfl
    | cons frame split ih =>
      intro n
      unfold effects
      by_cases skipped : reserved frame = true
      · obtain ⟨rest, read⟩ := skips_reserved skipped n
        rw [List.filter_cons_of_neg (by simpa using skipped)] at means
        rw [show (effect n frame.1).run frame.2 = _ from read]
        simp only [bind, Except.bind, ih means (n + 1)]
        rfl
      · rw [List.filter_cons_of_pos (by simpa using skipped)] at means
        cases means with
        | cons first later =>
          obtain ⟨rest, read⟩ := first n
          rw [show (effect n frame.1).run frame.2 = _ from read]
          simp only [bind, Except.bind, ih later (n + 1)]
          rfl
  unfold decode
  rw [frames_of_row row]
  exact from_ 0

theorem Means.not_reserved {frame : FrameOf} {e : Effect} (means : Means frame e) :
    reserved frame = false := by
  by_contra skipped
  obtain ⟨_, read⟩ := means 0
  obtain ⟨_, read'⟩ := skips_reserved (by simpa using skipped) 0
  cases (read.unique read').1

/-- What a call says, in the order it says it. -/
def said (step : Yield (Shown View)) (woken : List Nat) : List Effect :=
  step.effects.map (.of ·.view) ++ step.closed.map .closed ++ woken.map .woke

/-- The frames of a call's output, and what each means. -/
theorem output_means {step : Yield (Shown View)} {encoded : Bytes} {woken : List Nat}
    (written : encode View.encode step = some encoded)
    (views : ∀ shown ∈ step.effects, shown.view.number < 2 ^ 64)
    (closed : ∀ id ∈ step.closed, id < 2 ^ 64) (handles : ∀ handle ∈ woken, handle < 2 ^ 64) :
    ∃ output, Row IsFrame output (encoded ++ wokeFrames woken) ∧
      List.Forall₂ Means output (said step woken) := by
  let own : View → Bytes := fun view => view.layout.getD []
  have laid : ∀ shown ∈ step.effects, shown.view.layout = some (own shown.view) ∧
      (own shown.view).length < 2 ^ 32 := by
    intro shown member
    obtain ⟨b, same, fits⟩ := encode_short View.appends_encode written shown member
    simpa [own, same] using fits
  obtain ⟨b, row, same⟩ := encode_row View.encode own step
    (fun shown member => (laid shown member).1 ▸ shown.view.appends_encode)
    fun shown member => (laid shown member).2
  cases written.symm.trans same
  refine ⟨_, row.append (wokeFrames_row woken), List.rel_append (List.rel_append ?_ ?_) ?_⟩
  · rw [List.forall₂_map_left_iff, List.forall₂_map_right_iff, List.forall₂_same]
    intro shown member
    exact means_of (views shown member) (laid shown member).1 (by split <;> simp)
  · rw [List.forall₂_map_left_iff, List.forall₂_map_right_iff, List.forall₂_same]
    exact fun id member => means_closed (closed id member)
  · rw [wokeFramesOf, List.forall₂_map_left_iff, List.forall₂_map_right_iff, List.forall₂_same]
    exact fun handle member => means_woke (handles handle member)

/-- The host passes over none of them. -/
theorem kept_of_means {output : List FrameOf} {meant : List Effect}
    (means : List.Forall₂ Means output meant) : output.filter (!reserved ·) = output := by
  induction means with
  | nil => rfl
  | cons first _ ih =>
    rw [List.filter_cons_of_pos (by simp [first.not_reserved]), ih]

/-- Whatever a call yielded that could be written, and whoever it woke, the host reads just that in
its output, in order; and still does where a newer binding has put frames of its own in between. -/
theorem decode_reads_back {step : Yield (Shown View)} {encoded : Bytes} {woken : List Nat}
    (written : encode View.encode step = some encoded)
    (views : ∀ shown ∈ step.effects, shown.view.number < 2 ^ 64)
    (closed : ∀ id ∈ step.closed, id < 2 ^ 64) (handles : ∀ handle ∈ woken, handle < 2 ^ 64) :
    decode (encoded ++ wokeFrames woken) = .ok (said step woken) ∧
    ∀ split data, Row IsFrame split data →
      Row IsFrame (split.filter (!reserved ·)) (encoded ++ wokeFrames woken) →
      decode data = .ok (said step woken) := by
  obtain ⟨output, whole, means⟩ := output_means written views closed handles
  refine ⟨decode_row whole ((kept_of_means means).symm ▸ means), fun split data row own => ?_⟩
  -- what is left of the frames is split off in one way only
  have same : split.filter (!reserved ·) = output :=
    Option.some.inj ((splitFrames_of_row own).symm.trans (splitFrames_of_row whole))
  exact decode_row row (same ▸ means)

/-- A greeting told, a name asked for, an id closed and a machine woken; and between them, a frame
of a kind to come and a tell that this host has no word for. -/
theorem decode_reads_back_interleaved :
    decode ([1, 7, 0, 0, 0, 5, 2, 0, 0, 0, 72, 105] ++ [9, 1, 0, 0, 0, 0] ++
        [2, 9, 0, 0, 0, 3, 7, 0, 0, 0, 0, 0, 0, 0] ++ [1, 1, 0, 0, 0, 99] ++
        [3, 8, 0, 0, 0, 4, 0, 0, 0, 0, 0, 0, 0] ++ [4, 8, 0, 0, 0, 3, 0, 0, 0, 0, 0, 0, 0]) =
      .ok [.of (.writeLine "Hi"), .of (.readLine 7), .closed 4, .woke 3] := by
  let split : List FrameOf := [(1, [5, 2, 0, 0, 0, 72, 105]), (9, [0]),
    (2, [3, 7, 0, 0, 0, 0, 0, 0, 0]), (1, [99]), (3, [4, 0, 0, 0, 0, 0, 0, 0]),
    (4, [3, 0, 0, 0, 0, 0, 0, 0])]
  have written : encode View.encode ⟨[⟨.writeLine "Hi", false⟩, ⟨.readLine 7, true⟩], [4]⟩ =
      some ([1, 7, 0, 0, 0, 5, 2, 0, 0, 0, 72, 105] ++ [2, 9, 0, 0, 0, 3, 7, 0, 0, 0, 0, 0, 0, 0] ++
        [3, 8, 0, 0, 0, 4, 0, 0, 0, 0, 0, 0, 0]) := by rfl
  have rows : ∀ {split : List FrameOf} {fronts : List Bytes}, List.Forall₂ IsFrame split fronts →
      Row IsFrame split fronts.flatten := by
    intro split fronts each
    induction each with
    | nil => exact .nil
    | cons first later ih => exact .cons first ih
  have row : Row IsFrame split _ := rows (.cons rfl (.cons rfl (.cons rfl (.cons rfl (.cons rfl
    (.cons rfl .nil))))))
  have kept : Row IsFrame (split.filter (!reserved ·)) _ :=
    rows (.cons rfl (.cons rfl (.cons rfl (.cons rfl .nil))))
  have handles : ∀ handle ∈ [3], handle < 2 ^ 64 := by decide
  exact (decode_reads_back written (by decide) (by decide) handles).2 split _ row kept

end SansEffort.Python
