import SansEffort.Codable

/-!
# Input cut off, and input left over

What a decoder makes of an encoding that ends early, or that more bytes follow. A cut may fall
anywhere: inside a number, between a tag and its payload, or in the middle of a character. The
decoder asks for the bytes of a field before it looks at any of them, so it always notices the
end first.
-/

namespace SansEffort

open Reading

/-- The input ended early. -/
def DecodeError.IsTruncated (e : DecodeError) : Prop :=
  ∃ needed available, e = .truncated needed available

/-- Every field takes a definite part of the input, and is short of bytes with any less. -/
abbrev Cuttable {α : Type} (p : Reader α) : Prop := Measured p DecodeError.IsTruncated

namespace Reader

theorem cuttable_take (n : Nat) : Cuttable (take n) := by
  intro input x rest read
  obtain ⟨length, rfl⟩ := (reads_take n input x rest).mp read
  refine ⟨x, rfl, fun other => (reads_take n _ x other).mpr ⟨length, rfl⟩, ?_⟩
  intro part cut proper
  have fewer : part.length < n := by
    have most := cut.length_le
    have other : part.length ≠ x.length := fun same => proper (cut.eq_of_length same)
    omega
  refine ⟨.truncated n part.length, ⟨n, part.length, rfl⟩, ?_⟩
  show (if n ≤ part.length then _ else _ : Reader Bytes) part = _
  rw [if_neg (by omega)]
  rfl

theorem cuttable_u8 : Cuttable u8 := (cuttable_take 1).bind fun _ => .pure _

theorem cuttable_u32 : Cuttable u32 := (cuttable_take 4).bind fun _ => .pure _

theorem cuttable_u64 : Cuttable u64 := (cuttable_take 8).bind fun _ => .pure _

theorem cuttable_bytes : Cuttable bytes := cuttable_u32.bind cuttable_take

/-- A text is looked at only once all of its bytes are there. -/
theorem cuttable_str : Cuttable str := by
  apply cuttable_bytes.bind
  intro b
  cases fromUtf8 b with
  | some s => exact .pure s
  | none => exact .throw _

/-- What comes after a tag. -/
theorem cuttable_tag {α : Type} {zero one : Reader α} (first : Cuttable zero)
    (second : Cuttable one) :
    Cuttable (do
      let tag ← u8
      if tag = 0 then zero else if tag = 1 then one else throw (.unknownTag tag)) := by
  apply cuttable_u8.bind
  intro tag
  split
  · exact first
  · split
    · exact second
    · exact .throw _

variable {α : Type} {decode : Reader α}

theorem fromBytes_of_error {b : Bytes} {e : DecodeError} (failed : decode.run b = .error e) :
    decode.fromBytes b = .error e := by
  unfold fromBytes
  rw [StateT.run_bind, failed]
  rfl

theorem fromBytes_of_rest {b rest : Bytes} {x : α} (read : decode.run b = .ok (x, rest))
    (more : rest ≠ []) : decode.fromBytes b = .error (.trailingBytes rest.length) := by
  unfold fromBytes
  rw [StateT.run_bind, read]
  cases rest with
  | nil => exact absurd rfl more
  | cons byte rest => rfl

end Reader

namespace Codable

theorem cuttable_decode (t : Codable) : Cuttable t.decode := by
  induction t with
  | u8 => exact Reader.cuttable_u8
  | u32 => exact Reader.cuttable_u32.map _
  | u64 => exact Reader.cuttable_u64
  | unit => exact .pure ()
  | string => exact Reader.cuttable_str
  | bytes => exact Reader.cuttable_bytes
  | result ok err ihOk ihErr =>
    exact Reader.cuttable_tag (ihOk.map Except.ok) (ihErr.map Except.error)
  | option inner ih => exact Reader.cuttable_tag (.pure none) (ih.map some)

/-- An encoding that ends early is short of bytes and nothing else, wherever it ends; and bytes
after a whole one are counted. -/
theorem cut_off_input_is_truncated (t : Codable) (x : t.Carrier) (encoded : Bytes)
    (written : t.toBytes x = some encoded) :
    (∀ part, part <+: encoded → part ≠ encoded →
      ∃ needed available, t.fromBytes part = .error (.truncated needed available)) ∧
    ∀ more, more ≠ [] →
      t.fromBytes (encoded ++ more) = .error (.trailingBytes more.length) := by
  have read : Reads t.decode encoded x [] := by
    rw [(exact_decode t).all, ← toBytes_eq]
    exact written
  obtain ⟨front, same, goesOn, cut⟩ := cuttable_decode t encoded x [] read
  rw [List.append_nil] at same
  subst same
  refine ⟨fun part inside proper => ?_, fun more nonempty => ?_⟩
  · obtain ⟨_, ⟨needed, available, rfl⟩, failed⟩ := cut part inside proper
    exact ⟨needed, available, Reader.fromBytes_of_error failed⟩
  · exact Reader.fromBytes_of_rest (goesOn more) nonempty

/-- An accent cut in two. -/
theorem cut_off_input_is_truncated_inside_a_character :
    ∃ needed available, (option (result u64 string)).fromBytes [1, 1, 2, 0, 0, 0, 195] =
      .error (.truncated needed available) :=
  (cut_off_input_is_truncated (option (result u64 string)) (some (.error "é"))
    [1, 1, 2, 0, 0, 0, 195, 169] (by decide)).1 _ (by decide) (by decide)

end Codable

end SansEffort
