import SansEffort.Routines

/-!
# The journal

A routine that uses the environment, files, the clock and randomness
(`demo/routines/src/journal.rs`), driven from Python. Its file ends with a line for each entry, and
each is announced with its number, however many there are.
-/

namespace SansEffort.Journal

open Boundary Dialogue Python

/-- The variable that names the journal file. -/
def JOURNAL_VAR : String := "JOURNAL"

/-- The file used when it is unset. -/
def DEFAULT_PATH : String := "journal.txt"

/-- Lowercase hex, two digits a byte. -/
def hex (bytes : Bytes) : String :=
  bytes.foldl (fun out b =>
    out ++ String.ofList [Nat.digitChar (b.toNat / 16), Nat.digitChar (b.toNat % 16)]) ""

/-- `Display for FsError`. -/
def display : FsError → String
  | .notFound => "not found"
  | .permissionDenied => "permission denied"
  | .other => "file operation failed"

/-- How many lines of a text are not empty. -/
def lineCount (text : Bytes) : Nat := ((text.splitOn 10).filter (!·.isEmpty)).length

/-- The rest of a step, once it has the file's text. -/
def append (remaining : UInt32) (path : String) (text : Bytes) : Async (Option UInt32) := do
  let at_ := (← now).sinceEpoch.asMillis
  let id := hex (← randomBytes 4)
  let entry := toString at_ ++ " " ++ id
  let text := text ++ utf8 entry ++ [10]
  match ← writeFile path text with
  | .error e =>
    writeLine ("cannot write " ++ path ++ ": " ++ display e)
    return none
  | .ok _ =>
    writeLine (path ++ ": entry " ++ toString (lineCount text) ++ ", " ++ entry)
    return some remaining

/-- The rest of a step, once it has tried to read the file. -/
def extend (remaining : UInt32) (path : String) : Except FsError Bytes → Async (Option UInt32)
  | .ok bytes => append remaining path bytes
  | .error .notFound => append remaining path []
  | .error e => do
    writeLine ("cannot read " ++ path ++ ": " ++ display e)
    return none

/-- One entry appended: `Journal::step`, with so many remaining. -/
def step : Loop everything.interface UInt32 := fun remaining =>
  if remaining = 0 then return none
  else do
    let remaining := remaining - 1
    let path := (← var JOURNAL_VAR).getD DEFAULT_PATH
    extend remaining path (← readFile path)

/-! ### What it should write -/

/-- The entry made at the `k`th reading of the clock, with the next four random bytes. -/
def entry (k : Nat) : String :=
  toString (EPOCH_MILLIS + 1000 * k) ++ " " ++
    hex ((List.range 4).map fun i => UInt8.ofNat ((4 * k + i) % 256))

/-- The file after `k` entries. -/
def text : Nat → Bytes
  | 0 => []
  | k + 1 => text k ++ utf8 (entry k) ++ [10]

/-- The line that announces the `k`th entry. -/
def announced (k : Nat) : String := "notes.txt: entry " ++ toString (k + 1) ++ ", " ++ entry k

theorem hex_plain (bytes : Bytes) :
    Plain (hex bytes) ∧ (hex bytes).length = 2 * bytes.length := by
  have digit : ∀ n < 16, (Nat.digitChar n).toNat < 128 ∧ (Nat.digitChar n).toNat ≠ 10 := by decide
  have all : ∀ out : String, Plain out →
      let whole := bytes.foldl (fun out b =>
        out ++ String.ofList [Nat.digitChar (b.toNat / 16), Nat.digitChar (b.toNat % 16)]) out
      Plain whole ∧ whole.length = out.length + 2 * bytes.length := by
    induction bytes with
    | nil => exact fun out plain => ⟨plain, rfl⟩
    | cons b rest ih =>
      intro out plain
      have small := b.toNat_lt
      have two : Plain (String.ofList [Nat.digitChar (b.toNat / 16), Nat.digitChar (b.toNat % 16)]) := by
        intro c member
        simp only [String.toList_ofList, List.mem_cons, List.not_mem_nil, or_false] at member
        rcases member with rfl | rfl
        · exact digit _ (by omega)
        · exact digit _ (by omega)
      obtain ⟨plain, length⟩ := ih _ (plain.append two)
      refine ⟨plain, length.trans ?_⟩
      simp
      omega
  obtain ⟨plain, length⟩ := all "" (by simp [Plain])
  exact ⟨plain, length.trans (Nat.zero_add _)⟩

theorem entry_plain (k : Nat) : Plain (entry k) :=
  ((plain_number _).append (by simp [Plain])).append (hex_plain _).1

theorem length_entry {k : Nat} (few : k < 2 ^ 32) : (utf8 (entry k)).length ≤ 22 := by
  have number : (utf8 (toString (EPOCH_MILLIS + 1000 * k))).length ≤ 13 :=
    length_utf8_number (by decide) (by simp only [EPOCH_MILLIS]; omega)
  have space : (utf8 " ").length = 1 := by decide
  obtain ⟨plain, length⟩ := hex_plain ((List.range 4).map fun i => UInt8.ofNat ((4 * k + i) % 256))
  have id := (utf8_plain plain).1
  rw [length] at id
  unfold entry
  simp only [utf8_append, List.length_append, space, id, List.length_map, List.length_range]
  omega

theorem length_text {k : Nat} (few : k ≤ 2 ^ 32) : (text k).length ≤ 23 * k := by
  induction k with
  | zero => simp [text]
  | succ k ih =>
    have before := ih (by omega)
    have own := length_entry (show k < 2 ^ 32 by omega)
    simp only [text, List.length_append, List.length_singleton]
    omega

/-- A text ends its last line, and each of its lines is an entry. -/
theorem split_text (k : Nat) :
    (text k).splitOn 10 = (List.range k).map (fun i => utf8 (entry i)) ++ [[]] := by
  have line : ∀ k, 10 ∉ utf8 (entry k) := fun k => (utf8_plain (entry_plain k)).2
  induction k with
  | zero => rfl
  | succ k ih =>
    have whole : text (k + 1) = (text k ++ utf8 (entry k)) ++ 10 :: [] := rfl
    rw [whole, List.splitOn_append_cons_self, List.range_succ, List.map_append]
    cases k with
    | zero => simp [text, List.splitOn_eq_singleton (line 0)]
    | succ j =>
      have before : text (j + 1) = (text j ++ utf8 (entry j)) ++ 10 :: [] := rfl
      rw [before, List.splitOn_append_cons_self] at ih
      have lines := List.append_cancel_right ih
      rw [before, List.append_assoc, List.cons_append, List.nil_append,
        List.splitOn_append_cons_self, List.splitOn_eq_singleton (line (j + 1)), lines]
      rfl

theorem lineCount_text (k : Nat) : lineCount (text k) = k := by
  have entries : ∀ b ∈ (List.range k).map (fun i => utf8 (entry i)), (!b.isEmpty) = true := by
    intro b member
    obtain ⟨i, _, rfl⟩ := List.mem_map.mp member
    have space : (utf8 " ").length = 1 := by decide
    have nonempty : (utf8 (entry i)).length ≠ 0 := by
      simp only [entry, utf8_append, List.length_append, space]
      omega
    simpa [List.isEmpty_iff] using nonempty
  unfold lineCount
  rw [split_text, List.filter_append, List.filter_eq_self.mpr entries]
  simp

/-! ### What it does write -/

/-- A world in which the journal has made `k` entries. -/
structure Kept (k : Nat) (w : World) : Prop where
  readings : w.readings = k
  nextByte : w.nextByte = 4 * k % 256
  file : (w.files "notes.txt").getD [] = text k

/-- A step makes an entry of what the file holds. -/
theorem step_appends {remaining : UInt32} (more : remaining ≠ 0) (w : World) :
    (step remaining).run World.context w =
      (append (remaining - 1) "notes.txt" ((w.files "notes.txt").getD [])).run World.context w := by
  have named : ENVIRONMENT.lookup JOURNAL_VAR = some "notes.txt" := rfl
  unfold step
  rw [if_neg more]
  simp only [run_bind, run_var, named, Option.getD_some, run_readFile]
  cases w.files "notes.txt" <;> rfl

/-- The clock's reading, in milliseconds again. -/
theorem asMillis_nanos {w : World} (fits : w.nanos < 2 ^ 64) :
    (Duration.fromNanos (UInt64.ofNat w.nanos)).asMillis = EPOCH_MILLIS + 1000 * w.readings := by
  have same : (UInt64.ofNat w.nanos).toNat = w.nanos := UInt64.toNat_ofNat_of_lt' fits
  have whole : w.nanos = (EPOCH_MILLIS + 1000 * w.readings) * 1000000 := rfl
  have unit : (1000000000 : UInt64).toNat = 1000000000 := rfl
  simp only [Duration.asMillis, Duration.fromNanos, UInt64.toNat_div, same, unit]
  rw [whole]
  omega

theorem bytes_kept {k : Nat} {w : World} (kept : Kept k w) :
    w.bytes 4 = (List.range 4).map fun i => UInt8.ofNat ((4 * k + i) % 256) := by
  unfold World.bytes
  refine List.map_congr_left fun i _ => ?_
  rw [kept.nextByte, Nat.mod_add_mod]

/-- The world after another entry. -/
def entered (k : Nat) (w : World) : World := { w with
  written := w.written ++ [announced k]
  files := Function.update w.files "notes.txt" (some (text (k + 1)))
  readings := w.readings + 1
  nextByte := (w.nextByte + 4) % 256 }

theorem append_run {k : Nat} {w : World} (kept : Kept k w) (few : k < 2 ^ 32) (remaining : UInt32) :
    (append remaining "notes.txt" (text k)).run World.context w =
      (some remaining, entered k w) := by
  have fits : w.nanos < 2 ^ 64 := by
    simp only [World.nanos, EPOCH_MILLIS, kept.readings]
    omega
  have stamped := asMillis_nanos fits
  rw [kept.readings] at stamped
  have random := bytes_kept kept
  have length : (4 : UInt32).toNat = 4 := rfl
  have made : toString (EPOCH_MILLIS + 1000 * k) ++ " " ++
      hex ((List.range 4).map fun i => UInt8.ofNat ((4 * k + i) % 256)) = entry k := rfl
  have whole : text k ++ utf8 (entry k) ++ [10] = text (k + 1) := rfl
  have same : World.bytes { w with readings := w.readings + 1 } 4 = w.bytes 4 := rfl
  simp only [append, run_bind, run_now, run_randomBytes, run_writeFile, run_writeLine, run_pure,
    stamped, length, same, random, made, whole, lineCount_text]
  rfl

theorem Kept.entered {k : Nat} {w : World} (kept : Kept k w) : Kept (k + 1) (entered k w) where
  readings := congrArg (· + 1) kept.readings
  nextByte := by
    show (w.nextByte + 4) % 256 = _
    rw [kept.nextByte]
    omega
  file := by simp [Journal.entered]

/-- A step, with entries left to make. -/
theorem step_run {k : Nat} {w : World} (kept : Kept k w) (few : k < 2 ^ 32) {remaining : UInt32}
    (more : remaining ≠ 0) :
    (step remaining).run World.context w = (some (remaining - 1), entered k w) := by
  rw [step_appends more, kept.file, append_run kept few]

theorem toNat_pred {remaining : UInt32} (more : remaining ≠ 0) :
    (remaining - 1).toNat = remaining.toNat - 1 := by
  have positive : remaining.toNat ≠ 0 := fun zero => more (UInt32.toNat_inj.mp zero)
  have one : (1 : UInt32) ≤ remaining := by
    rw [UInt32.le_iff_toNat_le]
    exact Nat.one_le_iff_ne_zero.mpr positive
  exact UInt32.toNat_sub_of_le _ _ one

/-- The loop makes all the entries that are left, and ends. -/
theorem run_ends {remaining : UInt32} {k : Nat} {w : World} (kept : Kept k w)
    (few : k + remaining.toNat < 2 ^ 32) :
    ∃ w', Loop.run World.context step (remaining.toNat + 1) remaining w = some w' ∧
      w'.written = w.written ++ (List.range' k remaining.toNat).map announced := by
  generalize left : remaining.toNat = n at few ⊢
  induction n generalizing remaining k w with
  | zero =>
    obtain rfl : remaining = 0 := UInt32.toNat_inj.mp left
    exact ⟨w, rfl, by simp⟩
  | succ n ih =>
    have more : remaining ≠ 0 := by
      rintro rfl
      cases left
    have fewer : (remaining - 1).toNat = n := by
      rw [toNat_pred more, left]
      rfl
    obtain ⟨w', ran, wrote⟩ := ih kept.entered fewer (by omega)
    refine ⟨w', ?_, ?_⟩
    · show Loop.run World.context step (n + 1 + 1) remaining w = _
      unfold Loop.run
      rw [step_run kept (by omega) more]
      exact ran
    · rw [wrote, List.range'_succ]
      simp [Journal.entered]

/-! ### Driven -/

/-- The condition for a step's requests to cross: the file will not grow too long. -/
def Crossing (remaining : UInt32) (w : World) : Prop :=
  ∃ k, Kept k w ∧ 23 * (k + remaining.toNat) + 26 < 2 ^ 32

theorem append_crosses {k : Nat} {w : World} (kept : Kept k w) (few : 23 * (k + 1) + 26 < 2 ^ 32)
    (remaining : UInt32) : AllCross (append remaining "notes.txt" (text k)) w := by
  have fits : w.nanos < 2 ^ 64 := by
    simp only [World.nanos, EPOCH_MILLIS, kept.readings]
    omega
  have made : toString (Duration.fromNanos (UInt64.ofNat w.nanos)).asMillis ++ " " ++
      hex (World.bytes { w with readings := w.readings + 1 } 4) = entry k := by
    rw [show World.bytes { w with readings := w.readings + 1 } 4 = w.bytes 4 from rfl,
      bytes_kept kept, asMillis_nanos fits, kept.readings]
    rfl
  have file := length_text (show k + 1 ≤ 2 ^ 32 by omega)
  refine (allCross_asking _ _ _).mpr ⟨⟨trivial, fits⟩, ?_⟩
  refine (allCross_asking _ _ _).mpr ⟨⟨trivial, trivial⟩, ?_⟩
  refine (allCross_asking _ _ _).mpr ⟨⟨?_, trivial⟩, ?_⟩
  · show (utf8 "notes.txt").length + (text k ++ utf8 (toString (Duration.fromNanos
      (UInt64.ofNat w.nanos)).asMillis ++ " " ++
        hex (World.bytes { w with readings := w.readings + 1 } 4)) ++ [10]).length + 17 < 2 ^ 32
    rw [made]
    have path : (utf8 "notes.txt").length = 9 := by decide
    have whole : text k ++ utf8 (entry k) ++ [10] = text (k + 1) := rfl
    rw [path, whole]
    omega
  refine (allCross_writeLine _ _ _).mpr ⟨?_, trivial⟩
  show (utf8 ("notes.txt" ++ ": entry " ++ toString (lineCount (text k ++ utf8 (toString
    (Duration.fromNanos (UInt64.ofNat w.nanos)).asMillis ++ " " ++
      hex (World.bytes { w with readings := w.readings + 1 } 4)) ++ [10])) ++ ", " ++ (toString
    (Duration.fromNanos (UInt64.ofNat w.nanos)).asMillis ++ " " ++
      hex (World.bytes { w with readings := w.readings + 1 } 4)))).length + 5 < 2 ^ 32
  rw [made, show text k ++ utf8 (entry k) ++ [10] = text (k + 1) from rfl, lineCount_text]
  have front : (utf8 ("notes.txt" ++ ": entry ")).length = 17 := by decide
  have middle : (utf8 ", ").length = 2 := by decide
  have number : (utf8 (toString (k + 1))).length ≤ 10 := length_utf8_number (by decide) (by omega)
  have own := length_entry (show k < 2 ^ 32 by omega)
  rw [utf8_append, utf8_append, utf8_append, List.length_append, List.length_append, List.length_append,
    front, middle]
  omega

theorem step_crosses {remaining : UInt32} {w : World} (crossing : Crossing remaining w) :
    AllCross (step remaining) w := by
  obtain ⟨k, kept, few⟩ := crossing
  unfold step
  split
  · exact allCross_pure w none
  · next more =>
    have left : remaining.toNat ≠ 0 := fun zero => more (UInt32.toNat_inj.mp zero)
    have next : AllCross (append (remaining - 1) "notes.txt" (text k)) w :=
      append_crosses kept (by omega) _
    have file := kept.file
    have short := length_text (show k ≤ 2 ^ 32 by omega)
    refine (allCross_asking _ _ _).mpr ⟨⟨?_, trivial⟩, ?_⟩
    · show (utf8 "JOURNAL").length + 13 < 2 ^ 32
      decide
    refine (allCross_asking _ _ _).mpr ⟨⟨?_, ?_⟩, ?_⟩
    · show (utf8 "notes.txt").length + 13 < 2 ^ 32
      decide
    · intro b there
      rw [show w.files "notes.txt" = some b from there] at file
      obtain rfl : b = text k := file
      omega
    · show AllCross (extend (remaining - 1) "notes.txt"
        ((w.files "notes.txt").elim (.error .notFound) .ok)) w
      cases there : w.files "notes.txt" with
      | none =>
        rw [there] at file
        rw [← show [] = text k from file] at next
        exact next
      | some b =>
        rw [there] at file
        rw [← show b = text k from file] at next
        exact next

theorem step_keeps {w w' : World} {remaining remaining' : UInt32} (crossing : Crossing remaining w)
    (turn : (step remaining).run World.context w = (some remaining', w')) :
    Crossing remaining' w' := by
  obtain ⟨k, kept, few⟩ := crossing
  by_cases finished : remaining = 0
  · subst finished
    cases congrArg Prod.fst turn
  · have left : remaining.toNat ≠ 0 := fun zero => finished (UInt32.toNat_inj.mp zero)
    rw [step_run kept (by omega) finished] at turn
    cases turn
    exact ⟨k + 1, kept.entered, by rw [toNat_pred finished]; omega⟩

/-- A step tells and asks at most six things. -/
theorem step_within (remaining : UInt32) (w : World) :
    (step remaining).length World.context w ≤ 6 := by
  unfold step
  split
  · exact Nat.zero_le 6
  · show (extend (remaining - 1) "notes.txt" ((w.files "notes.txt").elim (.error .notFound) .ok)).length
      World.context w + 2 ≤ 6
    cases w.files "notes.txt" <;> exact Nat.le_refl 6

/-- Driven from Python on a machine of its own, the journal announces each entry with its number,
and ends. There may be as many entries as the file has room for in a frame. -/
theorem writes_announced (C H : Type) {R : Type} (root driver : Nat) (waker : Waker) (rng : Rng R)
    (script : List String) {n : UInt32} (few : 23 * n.toNat + 26 < 2 ^ 32) :
    ∃ t, ∀ rounds, drive (lone C H step 1 root) rng root script none (newborn C H driver waker n)
        rounds =
      if rounds < t then none else some (.ok ((List.range n.toNat).map announced)) := by
  have kept : Kept 0 (.new script) := ⟨rfl, rfl, rfl⟩
  have crossing : Crossing n (.new script) := ⟨0, kept, by omega⟩
  obtain ⟨w, ran, wrote⟩ := run_ends kept (by omega : 0 + n.toNat < 2 ^ 32)
  obtain ⟨steps, ends, within⟩ := Point.after_run ran
  have near : steps ≤ (n.toNat + 1) * (6 + 1) := within 6 step_within
  have holds : ∀ remaining w, Crossing remaining w → AllCross (step remaining) w :=
    fun _ _ => step_crosses
  have crosses : ∀ k, Crosses (Point.after World.context step k ⟨step n, .new script⟩) :=
    Loop.always holds (fun _ _ _ _ => step_keeps) crossing
  have asks : ∀ remaining, (stretch step 0 (step remaining)).isSome = true := by
    intro remaining
    unfold step
    split <;> rfl
  obtain ⟨t, driven⟩ := drive_ends (C := C) (H := H) root driver waker rng
    (.of_asking asks _) crosses ends (by omega)
  refine ⟨t, fun rounds => ?_⟩
  rw [driven rounds, wrote, List.range_eq_range']
  rfl

/-- A journal of two entries. -/
theorem writes_announced_two :
    let rng : Rng Unit := ⟨fun r => (false, r), fun _ r => (0, r), fun _ _ nonempty => nonempty⟩
    ∃ t, ∀ rounds, drive (lone Empty Unit step 1 7) rng 7 [] none (newborn Empty Unit 1 0 2) rounds =
      if rounds < t then none
      else some (.ok ["notes.txt: entry 1, 1700000000000 00010203",
        "notes.txt: entry 2, 1700000001000 04050607"]) :=
  writes_announced Empty Unit 7 1 0 _ [] (by decide)

end SansEffort.Journal
