import ClassInspect.Bytes
import ClassInspect.Text.CodePoint

/-!
# UTF-8

Decoding of UTF-8 with exact errors. The first byte of a sequence tells how many
continuation bytes follow and which range the first of them must lie in (`lead?`). A failure
names the sequence's start, the number of bytes that were fine so far and the reason.

`Utf8.strict` rejects encoded surrogates; `Utf8.lenient` accepts a complete three-byte
surrogate as a lone one, and reports a broken one as `Utf8.strict` does.
-/

namespace ClassInspect.Utf8

/-- Why a sequence is not UTF-8. -/
inductive Reason where
  | invalidStart
  | invalidContinuation
  | unexpectedEnd
  deriving DecidableEq, Repr

/-- The wording of a reason. -/
def Reason.message : Reason → String
  | invalidStart => "invalid start byte"
  | invalidContinuation => "invalid continuation byte"
  | unexpectedEnd => "unexpected end of data"

/-- A part of a byte string that is not UTF-8: where it starts, its first byte, how many
bytes it has, and what is wrong with it. -/
structure Error where
  start : Nat
  first : UInt8
  length : Nat
  reason : Reason
  deriving DecidableEq, Repr

/-- The wording of an error. A single byte is shown, a longer part is given by its ends. -/
def Error.message (e : Error) : String :=
  let part :=
    if e.length = 1 then
      s!"byte 0x{String.ofList (Hex.pair e.first)} in position {e.start}"
    else s!"bytes in position {e.start}-{e.start + e.length - 1}"
  s!"'utf-8' codec can't decode {part}: {e.reason.message}"

/-- What the first byte of a sequence announces: its own share of the value, the number of
continuation bytes, and the range of the first of these. -/
structure Lead where
  share : Nat
  tails : Nat
  low : UInt8
  high : UInt8
  deriving DecidableEq, Repr

/-- The announcement of a first byte, if the byte can be one. -/
def lead? (b : UInt8) : Option Lead :=
  if b < 0x80 then some ⟨b.toNat, 0, 0x80, 0xBF⟩
  else if b < 0xC2 then none
  else if b < 0xE0 then some ⟨b.toNat % 32, 1, 0x80, 0xBF⟩
  else if b = 0xE0 then some ⟨0, 2, 0xA0, 0xBF⟩
  else if b = 0xED then some ⟨13, 2, 0x80, 0x9F⟩
  else if b < 0xF0 then some ⟨b.toNat % 16, 2, 0x80, 0xBF⟩
  else if b = 0xF0 then some ⟨0, 3, 0x90, 0xBF⟩
  else if b < 0xF4 then some ⟨b.toNat % 8, 3, 0x80, 0xBF⟩
  else if b = 0xF4 then some ⟨4, 3, 0x80, 0x8F⟩
  else none

/-- Adds `count` continuation bytes to a value, the first of them within the given range.
`seen` counts the bytes of the sequence so far, which are the bad part if it breaks off. -/
def tails : (count : Nat) → (low high : UInt8) → (value seen : Nat) → Bytes →
    Except (Nat × Reason) (Nat × Bytes)
  | 0, _, _, value, _, rest => .ok (value, rest)
  | _ + 1, _, _, _, seen, [] => .error (seen, .unexpectedEnd)
  | count + 1, low, high, value, seen, b :: rest =>
    if low ≤ b ∧ b ≤ high then
      tails count 0x80 0xBF (value * 64 + b.toNat % 64) (seen + 1) rest
    else .error (seen, .invalidContinuation)

/-- Reads one sequence, given its first byte and what follows. -/
abbrev Step := UInt8 → Bytes → Except (Nat × Reason) (CodePoint × Bytes)

/-- One sequence of UTF-8 proper. -/
def strict : Step := fun b rest ↦
  match lead? b with
  | none => .error (1, .invalidStart)
  | some lead =>
    match tails lead.tails lead.low lead.high lead.share 1 rest with
    | .ok (value, rest) => .ok (.ofNat value, rest)
    | .error bad => .error bad

/-- One sequence of UTF-8, or three bytes that encode a surrogate. -/
def lenient : Step := fun b rest ↦
  match rest with
  | b₁ :: b₂ :: rest' =>
    if b = 0xED ∧ 0xA0 ≤ b₁ ∧ b₁ ≤ 0xBF ∧ 0x80 ≤ b₂ ∧ b₂ ≤ 0xBF then
      .ok (.ofNat (0xD000 + b₁.toNat % 64 * 64 + b₂.toNat % 64), rest')
    else strict b rest
  | _ => strict b rest

/-- Continuation bytes are taken from the front. -/
theorem length_tails_le {count : Nat} {low high : UInt8} {value seen : Nat}
    {bytes rest : Bytes} {result : Nat}
    (h : tails count low high value seen bytes = .ok (result, rest)) :
    rest.length ≤ bytes.length := by
  induction count generalizing low high value seen bytes with
  | zero =>
    simp only [tails, Except.ok.injEq, Prod.mk.injEq] at h
    exact h.2 ▸ Nat.le_refl _
  | succ count ih =>
    cases bytes with
    | nil => simp [tails] at h
    | cons b bytes =>
      rw [tails] at h
      split at h
      · have := ih h
        simp only [List.length_cons]
        omega
      · simp at h

/-- A step of UTF-8 proper never gives back more than it was handed. -/
theorem length_strict_le {b : UInt8} {bytes rest : Bytes} {point : CodePoint}
    (h : strict b bytes = .ok (point, rest)) : rest.length ≤ bytes.length := by
  unfold strict at h
  split at h
  · simp at h
  · split at h
    · rename_i happened
      simp only [Except.ok.injEq, Prod.mk.injEq] at h
      rw [← h.2]
      exact length_tails_le happened
    · simp at h

/-- A step that also takes surrogates never gives back more than it was handed. -/
theorem length_lenient_le {b : UInt8} {bytes rest : Bytes} {point : CodePoint}
    (h : lenient b bytes = .ok (point, rest)) : rest.length ≤ bytes.length := by
  unfold lenient at h
  split at h
  · split at h
    · simp only [Except.ok.injEq, Prod.mk.injEq] at h
      rw [← h.2]
      simp only [List.length_cons]
      omega
    · exact length_strict_le h
  · exact length_strict_le h

/-- Whether encoded surrogates are accepted. -/
inductive Mode where
  | strict
  | lenient
  deriving DecidableEq, Repr

/-- One sequence in the given mode. -/
def step : Mode → Step
  | .strict => strict
  | .lenient => lenient

/-- Either step gives back at most what it was handed. -/
theorem length_step_le {mode : Mode} {b : UInt8} {bytes rest : Bytes} {point : CodePoint}
    (h : step mode b bytes = .ok (point, rest)) : rest.length ≤ bytes.length := by
  cases mode with
  | strict => exact length_strict_le h
  | lenient => exact length_lenient_le h

/-- Decodes sequence after sequence. `start` is the position of the next byte, and `done`
holds the code points so far, last one first. On failure the code points before the bad part
come with the error. -/
def decodeFrom (mode : Mode) (start : Nat) (done : Text) (bytes : Bytes) :
    Except (Error × Text) Text :=
  match bytes with
  | [] => .ok done.reverse
  | b :: rest =>
    match _h : step mode b rest with
    | .ok (point, rest') =>
      decodeFrom mode (start + (rest.length + 1 - rest'.length)) (point :: done) rest'
    | .error (length, reason) => .error (⟨start, b, length, reason⟩, done.reverse)
termination_by bytes.length
decreasing_by
  have := length_step_le _h
  simp only [List.length_cons]
  omega

/-- The text that a byte string encodes, or the first part that encodes nothing. -/
def decode (mode : Mode) (bytes : Bytes) : Except Error Text :=
  (decodeFrom mode 0 [] bytes).mapError Prod.fst

end ClassInspect.Utf8
