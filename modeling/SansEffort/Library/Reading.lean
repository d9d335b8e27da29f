import Mathlib.Data.List.Basic

/-!
# Exact readers

A reader takes a value from the front of a list of tokens and leaves the rest. A layout says
which tokens stand for a value, and a value may have none. A reader is exact for a layout when it
takes each value from its own tokens and from nothing else: it then undoes whatever writes that
layout, and no two inputs read alike.
-/

namespace Reading

variable {B ε α β : Type}

abbrev Parser (B ε : Type) := StateT (List B) (Except ε)

/-- The reader takes `x` from the front of `input`, and leaves `rest`. -/
def Reads (p : Parser B ε α) (input : List B) (x : α) (rest : List B) : Prop :=
  p.run input = .ok (x, rest)

def Exact (p : Parser B ε α) (laid : α → List B → Prop) : Prop :=
  ∀ input x rest, Reads p input x rest ↔ ∃ front, laid x front ∧ input = front ++ rest

/-! ### What readers put together read -/

@[simp] theorem reads_pure (x y : α) (input rest : List B) :
    Reads (pure x : Parser B ε α) input y rest ↔ x = y ∧ input = rest := by
  rw [Reads, StateT.run_pure]
  simp [pure, Except.pure]

@[simp] theorem reads_throw (e : ε) (input : List B) (x : α) (rest : List B) :
    ¬ Reads (throw e : Parser B ε α) input x rest := by
  intro h
  cases h

@[simp] theorem reads_bind (p : Parser B ε α) (q : α → Parser B ε β) (input : List B) (y : β)
    (rest : List B) :
    Reads (p >>= q) input y rest ↔ ∃ x middle, Reads p input x middle ∧ Reads (q x) middle y rest := by
  unfold Reads
  rw [StateT.run_bind]
  cases first : p.run input with
  | error e => simp [bind, Except.bind]
  | ok taken =>
    obtain ⟨x, middle⟩ := taken
    simp [bind, Except.bind]

@[simp] theorem reads_map (f : α → β) (p : Parser B ε α) (input : List B) (y : β) (rest : List B) :
    Reads (f <$> p) input y rest ↔ ∃ x, Reads p input x rest ∧ f x = y := by
  rw [← bind_pure_comp, reads_bind]
  simp

/-- A reader takes at most one value from an input. -/
theorem Reads.unique {p : Parser B ε α} {input rest rest' : List B} {x y : α}
    (first : Reads p input x rest) (second : Reads p input y rest') : x = y ∧ rest = rest' := by
  have same := first.symm.trans second
  simpa using same

/-! ### Exactness -/

section

variable {p : Parser B ε α} {laid : α → List B → Prop}

/-- What is laid out is read back, with anything after it. -/
theorem Exact.reads (exact : Exact p laid) {x : α} {front : List B} (own : laid x front)
    (rest : List B) : Reads p (front ++ rest) x rest :=
  (exact _ _ _).mpr ⟨front, own, rfl⟩

/-- The reader read to the end of the input. -/
theorem Exact.all (exact : Exact p laid) (input : List B) (x : α) :
    Reads p input x [] ↔ laid x input := by
  rw [exact]
  constructor
  · rintro ⟨front, own, rfl⟩
    rw [List.append_nil]
    exact own
  · intro own
    exact ⟨input, own, (List.append_nil input).symm⟩

end

/-! ### Inputs cut off -/

/-- The reader goes by what it takes alone: it takes the same whatever follows, and given less it
fails with such an error. -/
def Measured (p : Parser B ε α) (short : ε → Prop) : Prop :=
  ∀ input x rest, Reads p input x rest → ∃ front, input = front ++ rest ∧
    (∀ other, Reads p (front ++ other) x other) ∧
    ∀ part, part <+: front → part ≠ front → ∃ e, short e ∧ p.run part = .error e

/-- A prefix of two lists together ends within the first, or else goes on into the second. -/
theorem cut_append {part front back : List B} (cut : part <+: front ++ back) :
    (part <+: front ∧ part ≠ front) ∨ ∃ later, part = front ++ later ∧ later <+: back := by
  rcases List.prefix_or_prefix_of_prefix cut (List.prefix_append front back) with within | beyond
  · by_cases whole : part = front
    · exact .inr ⟨[], by simp [whole], List.nil_prefix⟩
    · exact .inl ⟨within, whole⟩
  · obtain ⟨later, rfl⟩ := beyond
    exact .inr ⟨later, rfl, (List.prefix_append_right_inj front).mp cut⟩

namespace Measured

variable {p : Parser B ε α} {q : α → Parser B ε β} {short : ε → Prop}

theorem pure (x : α) : Measured (Pure.pure x : Parser B ε α) short := by
  intro input y rest read
  obtain ⟨rfl, rfl⟩ := (reads_pure x y input rest).mp read
  refine ⟨[], rfl, fun other => (reads_pure x x other other).mpr ⟨rfl, rfl⟩, ?_⟩
  -- nothing is taken, so there is no less to give
  intro part cut proper
  exact absurd (List.prefix_nil.mp cut) proper

theorem throw (e : ε) : Measured (MonadExcept.throw e : Parser B ε α) short := by
  intro input x rest read
  exact absurd read (reads_throw e input x rest)

/-- The cut falls in what the first reader takes, or else in what the second does. -/
theorem bind (first : Measured p short) (second : ∀ x, Measured (q x) short) :
    Measured (p >>= q) short := by
  intro input y rest read
  obtain ⟨x, middle, taken, more⟩ := (reads_bind p q input y rest).mp read
  obtain ⟨front, rfl, same, cutFirst⟩ := first input x middle taken
  obtain ⟨back, rfl, same', cutSecond⟩ := second x middle y rest more
  refine ⟨front ++ back, by rw [List.append_assoc], fun other => ?_, fun part cut proper => ?_⟩
  · rw [reads_bind, List.append_assoc]
    exact ⟨x, back ++ other, same (back ++ other), same' other⟩
  · rw [StateT.run_bind]
    rcases cut_append cut with ⟨inside, less⟩ | ⟨later, rfl, inside⟩
    · obtain ⟨e, bad, failed⟩ := cutFirst part inside less
      exact ⟨e, bad, by rw [failed]; rfl⟩
    · have less : later ≠ back := by
        rintro rfl
        exact proper rfl
      obtain ⟨e, bad, failed⟩ := cutSecond later inside less
      have whole : p.run (front ++ later) = .ok (x, later) := same later
      exact ⟨e, bad, by rw [whole]; exact failed⟩

theorem map (f : α → β) (first : Measured p short) : Measured (f <$> p) short := by
  rw [← bind_pure_comp]
  exact first.bind fun x => Measured.pure (f x)

end Measured

/-! ### Repetition -/

/-- The values taken one after another, `count` of them or until one cannot be: these, what is
left, and why it stopped short. -/
def collect (p : Parser B ε α) : Nat → List B → List α × List B × Option ε
  | 0, input => ([], input, none)
  | count + 1, input =>
    match p.run input with
    | .error e => ([], input, some e)
    | .ok (x, rest) =>
      let (xs, left, stop) := collect p count rest
      (x :: xs, left, stop)

/-- `count` values, or the first failure. -/
def repeated (p : Parser B ε α) (count : Nat) : Parser B ε (List α) := fun input =>
  match collect p count input with
  | (xs, rest, none) => .ok (xs, rest)
  | (_, _, some e) => .error e

/-- Some values laid out one after another. -/
inductive Row (laid : α → List B → Prop) : List α → List B → Prop
  | nil : Row laid [] []
  | cons {x : α} {xs : List α} {front back : List B} (first : laid x front)
      (more : Row laid xs back) : Row laid (x :: xs) (front ++ back)

theorem Row.append {laid : α → List B → Prop} {xs ys : List α} {front back : List B}
    (first : Row laid xs front) (second : Row laid ys back) : Row laid (xs ++ ys) (front ++ back) := by
  induction first with
  | nil => exact second
  | cons own more ih =>
    rw [List.append_assoc]
    exact .cons own ih

/-- A row is laid out in one way if each value is. -/
theorem Row.unique {laid : α → List B → Prop}
    (one : ∀ x front other, laid x front → laid x other → front = other) {xs : List α}
    {front other : List B} (first : Row laid xs front) (second : Row laid xs other) :
    front = other := by
  induction first generalizing other with
  | nil =>
    cases second
    rfl
  | cons own more ih =>
    cases second with
    | cons own' more' => rw [one _ _ _ own own', ih more']

theorem Row.each {laid : α → List B → Prop} {xs : List α} {front : List B} (row : Row laid xs front) :
    ∀ x ∈ xs, ∃ own, laid x own := by
  induction row with
  | nil => simp
  | @cons x xs front back own more ih =>
    intro y member
    rcases List.mem_cons.mp member with rfl | later
    · exact ⟨front, own⟩
    · exact ih y later

theorem repeated_zero (p : Parser B ε α) : repeated p 0 = pure [] := rfl

theorem repeated_succ (p : Parser B ε α) (count : Nat) :
    repeated p (count + 1) = p >>= fun x => repeated p count >>= fun xs => pure (x :: xs) := by
  funext input
  show _ = StateT.run _ input
  simp only [StateT.run_bind, repeated, collect]
  cases first : p.run input with
  | error e => simp [bind, Except.bind]
  | ok taken =>
    obtain ⟨x, rest⟩ := taken
    rcases more : collect p count rest with ⟨xs, left, stop⟩
    cases stop with
    | none =>
      have later : (repeated p count).run rest = .ok (xs, left) := by
        simp [repeated, StateT.run, more]
      have ended : (pure (x :: xs, left) : Except ε _) = .ok (x :: xs, left) := rfl
      simp [bind, Except.bind, later, more, ended]
    | some e =>
      have later : (repeated p count).run rest = .error e := by simp [repeated, StateT.run, more]
      simp [bind, Except.bind, later, more]

theorem Exact.repeated {p : Parser B ε α} {laid : α → List B → Prop} (exact : Exact p laid)
    (count : Nat) (input : List B) (xs : List α) (rest : List B) :
    Reads (repeated p count) input xs rest ↔
      xs.length = count ∧ ∃ front, Row laid xs front ∧ input = front ++ rest := by
  induction count generalizing input xs rest with
  | zero =>
    rw [repeated_zero, reads_pure, List.length_eq_zero_iff]
    constructor
    · rintro ⟨rfl, rfl⟩
      exact ⟨rfl, [], .nil, rfl⟩
    · rintro ⟨rfl, front, row, rfl⟩
      cases row
      exact ⟨rfl, rfl⟩
  | succ count ih =>
    rw [repeated_succ]
    simp only [reads_bind, reads_pure, ih, exact input]
    constructor
    · rintro ⟨x, _, ⟨front, own, rfl⟩, xs, _, ⟨rfl, back, more, rfl⟩, rfl, rfl⟩
      exact ⟨rfl, front ++ back, .cons own more, by simp⟩
    · rintro ⟨length, _, row, rfl⟩
      cases row with
      | nil => cases length
      | @cons x xs front back own more =>
        refine ⟨x, back ++ rest, ⟨front, own, by simp⟩, xs, rest, ⟨?_, back, more, rfl⟩, rfl, rfl⟩
        simpa using length

/-- Each value read takes a token at least. -/
def Consumes (p : Parser B ε α) : Prop :=
  ∀ input x rest, Reads p input x rest → rest.length < input.length

theorem Exact.consumes {p : Parser B ε α} {laid : α → List B → Prop} (exact : Exact p laid)
    (nonempty : ∀ x, ¬ laid x []) : Consumes p := by
  intro input x rest read
  obtain ⟨front, own, rfl⟩ := (exact _ _ _).mp read
  cases front with
  | nil => exact absurd own (nonempty x)
  | cons token front =>
    rw [List.length_append, List.length_cons]
    omega

/-- However many values were asked for, no more are read than there are tokens. -/
theorem Consumes.collect_length {p : Parser B ε α} (consumes : Consumes p) (count : Nat)
    (input : List B) :
    (collect p count input).1.length + (collect p count input).2.1.length ≤ input.length := by
  induction count generalizing input with
  | zero => simp [collect]
  | succ count ih =>
    rw [collect]
    split
    · simp
    · next x rest taken =>
      have shorter := consumes input x rest taken
      have more := ih rest
      rcases collected : collect p count rest with ⟨xs, left, stop⟩
      rw [collected] at more
      simp at more ⊢
      omega

/-- Values taken until the input is at its end: `none` if one cannot be, or after `tries`. -/
def untilEmpty (p : Parser B ε α) : Nat → List B → Option (List α)
  | _, [] => some []
  | 0, _ :: _ => none
  | tries + 1, input@(_ :: _) =>
    match p.run input with
    | .error _ => none
    | .ok (x, rest) => (untilEmpty p tries rest).map (x :: ·)

/-- A row splits back into what it is a row of. -/
theorem Exact.untilEmpty {p : Parser B ε α} {laid : α → List B → Prop} (exact : Exact p laid)
    (nonempty : ∀ x, ¬ laid x []) {xs : List α} {input : List B} (row : Row laid xs input)
    {tries : Nat} (enough : input.length ≤ tries) : untilEmpty p tries input = some xs := by
  induction row generalizing tries with
  | nil => simp [Reading.untilEmpty]
  | @cons x xs front back own more ih =>
    cases front with
    | nil => exact absurd own (nonempty x)
    | cons token front =>
      have taken : p.run ((token :: front) ++ back) = .ok (x, back) := exact.reads own back
      cases tries with
      | zero => simp at enough
      | succ tries =>
        have left : back.length ≤ tries := by
          simp at enough
          omega
        simp only [List.cons_append] at taken ⊢
        simp [Reading.untilEmpty, taken, ih left]

end Reading
