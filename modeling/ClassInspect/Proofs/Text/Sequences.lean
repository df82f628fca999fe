import ClassInspect.Proofs.Text.Utf8

/-!
# Sequences of bytes

Which byte strings decode, as a grammar on bytes that knows nothing of a decoder: a text is a row of
sequences, and which bytes make a sequence is decided by ranges (`Utf8.IsSequence`). Surrogates are
sequences like any other of three bytes. The strings of a class file have one more, the pair that
stands for zero (`ModifiedUtf8.IsSequence`).

A step of decoding takes one sequence and takes every sequence (`Utf8.isSequence_of_lenient`,
`Utf8.IsSequence.exists_lenient`), so decoding steps over any row of sequences in front
(`Utf8.ConsistsOf.decodeFrom_append`). That says where it stops: behind the longest row there is.
Making the zeros plain before that neither mends nor breaks a row
(`ModifiedUtf8.consistsOf_plainZeros_iff`), because what follows the first byte of a sequence is
never a zero.
-/

namespace ClassInspect

/-! ### The grammar -/

namespace Utf8

/-- One complete sequence of bytes. The first byte tells how many follow it, and for some first
bytes the second one has a narrower range than the others. -/
inductive IsSequence : Bytes → Prop
  | one {a : UInt8} (ha : a.toNat < 0x80) : IsSequence [a]
  | two {a b : UInt8} (ha : 0xC2 ≤ a.toNat ∧ a.toNat < 0xE0) (hb : IsTail b) : IsSequence [a, b]
  | three {a b c : UInt8} (ha : 0xE0 ≤ a.toNat ∧ a.toNat < 0xF0) (hb : IsTail b)
      (hlong : a = 0xE0 → 0xA0 ≤ b) (hc : IsTail c) : IsSequence [a, b, c]
  | four {a b c d : UInt8} (ha : 0xF0 ≤ a.toNat ∧ a.toNat < 0xF5) (hb : IsTail b)
      (hlong : a = 0xF0 → 0x90 ≤ b) (hsmall : a = 0xF4 → b ≤ 0x8F) (hc : IsTail c)
      (hd : IsTail d) : IsSequence [a, b, c, d]

/-- A row of byte strings of one kind. -/
inductive ConsistsOf (kind : Bytes → Prop) : Bytes → Prop
  | nil : ConsistsOf kind []
  | cons {first rest : Bytes} (hfirst : kind first) (hrest : ConsistsOf kind rest) :
      ConsistsOf kind (first ++ rest)

variable {a b : UInt8} {bytes front tail rest rest' : Bytes}

theorem IsSequence.ne_nil (h : IsSequence bytes) : bytes ≠ [] := by
  cases h <;> exact List.cons_ne_nil _ _

/-- Behind its first byte a sequence has continuation bytes only. -/
theorem IsSequence.isTail (h : IsSequence (a :: tail)) : ∀ b ∈ tail, IsTail b := by
  cases h with
  | one => simp
  | two _ hb => simpa using hb
  | three _ hb _ hc => simpa using ⟨hb, hc⟩
  | four _ hb _ _ hc hd => simpa using ⟨hb, hc, hd⟩

/-- A small first byte is the whole sequence. -/
theorem IsSequence.eq_nil (h : IsSequence (a :: tail)) (ha : a.toNat < 0x80) : tail = [] := by
  cases h with
  | one => rfl
  | two hfirst | three hfirst | four hfirst => omega

/-! ### One step -/

/-- Bytes that cannot be the first of a sequence. -/
theorem lead?_none (h : 0x80 ≤ b.toNat ∧ b.toNat < 0xC2 ∨ 0xF5 ≤ b.toNat) : lead? b = none := by
  have hne (d : UInt8) (hd : 0xC2 ≤ d.toNat ∧ d.toNat < 0xF5) : b ≠ d := by
    rintro rfl
    omega
  simp only [lead?, UInt8.lt_iff_toNat_lt, UInt8.reduceToNat]
  rw [if_neg (by omega)]
  rcases h with h | h
  · rw [if_pos h.2]
  · rw [if_neg (by omega), if_neg (by omega), if_neg (hne _ (by decide)),
      if_neg (hne _ (by decide)), if_neg (by omega), if_neg (hne _ (by decide)),
      if_neg (by omega), if_neg (hne _ (by decide))]

/-- The continuation bytes that a step took, one by one. -/
theorem exists_of_tails_succ {count value seen value' : Nat} {low high : UInt8}
    (h : tails (count + 1) low high value seen bytes = .ok (value', rest)) :
    ∃ b bytes', bytes = b :: bytes' ∧ (low ≤ b ∧ b ≤ high) ∧
      tails count 0x80 0xBF (value * 64 + b.toNat % 64) (seen + 1) bytes' = .ok (value', rest) := by
  cases bytes with
  | nil => cases h
  | cons b bytes =>
    by_cases hb : low ≤ b ∧ b ≤ high
    · rw [tails_cons hb] at h
      exact ⟨b, bytes, rfl, hb, h⟩
    · rw [tails, if_neg hb] at h
      cases h

theorem exists_lead_of_strict {point : CodePoint} (h : strict b rest = .ok (point, rest')) :
    ∃ lead value, lead? b = some lead ∧
      tails lead.tails lead.low lead.high lead.share 1 rest = .ok (value, rest') := by
  unfold strict at h
  split at h
  · cases h
  · rename_i lead hlead
    split at h
    · rename_i value after htails
      cases h
      exact ⟨lead, value, hlead, htails⟩
    · cases h

/-- A continuation byte within a narrower range is one. -/
theorem isTail_of_range {low high : UInt8} (h : low ≤ b ∧ b ≤ high) (hlow : 0x80 ≤ low.toNat)
    (hhigh : high.toNat < 0xC0) : IsTail b := by
  simp only [UInt8.le_iff_toNat_le] at h
  exact ⟨Nat.le_trans hlow h.1, Nat.lt_of_le_of_lt h.2 hhigh⟩

/-- What a step of UTF-8 proper takes is a sequence. -/
theorem isSequence_of_strict {point : CodePoint} (h : strict b rest = .ok (point, rest')) :
    ∃ tail, rest = tail ++ rest' ∧ IsSequence (b :: tail) := by
  obtain ⟨lead, value, hlead, htails⟩ := exists_lead_of_strict h
  by_cases hone : b.toNat < 0x80
  · rw [lead?_one hone] at hlead
    cases hlead
    cases htails
    exact ⟨[], rfl, .one hone⟩
  by_cases htwo : 0xC2 ≤ b.toNat ∧ b.toNat < 0xE0
  · rw [lead?_two htwo] at hlead
    cases hlead
    obtain ⟨c, rest, rfl, hc, htails⟩ := exists_of_tails_succ htails
    dsimp only at hc
    cases htails
    exact ⟨[c], rfl, .two htwo (isTail_of_range hc (by decide) (by decide))⟩
  by_cases hthree : 0xE0 ≤ b.toNat ∧ b.toNat < 0xF0
  · rw [lead?_three hthree] at hlead
    cases hlead
    obtain ⟨c, rest, rfl, hc, htails⟩ := exists_of_tails_succ htails
    dsimp only at hc
    obtain ⟨d, rest, rfl, hd, htails⟩ := exists_of_tails_succ htails
    cases htails
    refine ⟨[c, d], rfl, .three hthree (isTail_of_range hc ?_ ?_) (fun hb ↦ ?_)
      (isTail_of_range hd (by decide) (by decide))⟩
    · split <;> decide
    · split <;> decide
    · rw [if_pos hb] at hc
      exact hc.1
  by_cases hfour : 0xF0 ≤ b.toNat ∧ b.toNat < 0xF5
  · rw [lead?_four hfour] at hlead
    cases hlead
    obtain ⟨c, rest, rfl, hc, htails⟩ := exists_of_tails_succ htails
    dsimp only at hc
    obtain ⟨d, rest, rfl, hd, htails⟩ := exists_of_tails_succ htails
    obtain ⟨e, rest, rfl, he, htails⟩ := exists_of_tails_succ htails
    cases htails
    refine ⟨[c, d, e], rfl, .four hfour (isTail_of_range hc ?_ ?_) (fun hb ↦ ?_) (fun hb ↦ ?_)
      (isTail_of_range hd (by decide) (by decide)) (isTail_of_range he (by decide) (by decide))⟩
    · split <;> decide
    · split <;> decide
    · rw [if_pos hb] at hc
      exact hc.1
    · rw [if_pos hb] at hc
      exact hc.2
  · rw [lead?_none (by omega)] at hlead
    cases hlead

/-- What a step takes that lets surrogates pass is a sequence, too. -/
theorem isSequence_of_lenient {point : CodePoint} (h : lenient b rest = .ok (point, rest')) :
    ∃ tail, rest = tail ++ rest' ∧ IsSequence (b :: tail) := by
  unfold lenient at h
  split at h
  · rename_i c d after
    split at h
    · rename_i hsurrogate
      obtain ⟨rfl, hlow, hhigh, hd⟩ := hsurrogate
      cases h
      exact ⟨[c, d], rfl, .three (by decide) (isTail_of_range ⟨hlow, hhigh⟩ (by decide) (by decide))
        (fun hb ↦ absurd hb (by decide)) (isTail_of_range hd (by decide) (by decide))⟩
    · exact isSequence_of_strict h
  · exact isSequence_of_strict h

/-- A sequence is taken as a whole, whatever follows. -/
theorem IsSequence.exists_lenient (h : IsSequence (b :: tail)) :
    ∃ point, ∀ rest, lenient b (tail ++ rest) = .ok (point, rest) := by
  cases h with
  | one hb => exact ⟨_, lenient_one hb⟩
  | two hb hc => exact ⟨_, lenient_two hb hc⟩
  | three hb hc hlong hd => exact ⟨_, lenient_three hb hc hd hlong⟩
  | four hb hc hlong hsmall hd he =>
    have hne : b ≠ 0xED := by
      rintro rfl
      exact absurd hb (by decide)
    exact ⟨_, fun rest ↦ (lenient_of_ne hne _).trans (strict_four hb hc hd he hlong hsmall rest)⟩

/-- The bad part starts with the first byte of the step, and it does not reach beyond the data. -/
theorem length_of_tails_error {count value seen length : Nat} {low high : UInt8} {reason : Reason}
    (h : tails count low high value seen bytes = .error (length, reason)) :
    seen ≤ length ∧ length ≤ seen + bytes.length := by
  induction count generalizing low high value seen bytes with
  | zero => cases h
  | succ count ih =>
    cases bytes with
    | nil =>
      cases h
      exact ⟨Nat.le_refl _, Nat.le_refl _⟩
    | cons b bytes =>
      by_cases hb : low ≤ b ∧ b ≤ high
      · rw [tails_cons hb] at h
        have hrest := ih h
        rw [List.length_cons]
        omega
      · rw [tails, if_neg hb] at h
        cases h
        exact ⟨Nat.le_refl _, Nat.le_add_right _ _⟩

theorem length_of_lenient_error {length : Nat} {reason : Reason}
    (h : lenient b rest = .error (length, reason)) : 1 ≤ length ∧ length ≤ 1 + rest.length := by
  have hstrict : strict b rest = .error (length, reason) := by
    unfold lenient at h
    split at h
    · split at h
      · cases h
      · exact h
    · exact h
  unfold strict at hstrict
  split at hstrict
  · cases hstrict
    omega
  · split at hstrict
    · cases hstrict
    · rename_i bad htails
      cases hstrict
      exact length_of_tails_error htails

/-! ### Sequence after sequence -/

/-- Decoding steps over a row of sequences. -/
theorem ConsistsOf.decodeFrom_append (h : ConsistsOf IsSequence front) (start : Nat) (done : Text) :
    ∃ done', ∀ rest, decodeFrom .lenient start done (front ++ rest) =
      decodeFrom .lenient (start + front.length) done' rest := by
  induction h generalizing start done with
  | nil => exact ⟨done, fun rest ↦ rfl⟩
  | @cons first front hfirst _ ih =>
    obtain ⟨b, tail, rfl⟩ := List.exists_cons_of_ne_nil hfirst.ne_nil
    obtain ⟨point, hstep⟩ := hfirst.exists_lenient
    obtain ⟨done', hrest⟩ := ih (start + (b :: tail).length) (point :: done)
    refine ⟨done', fun rest ↦ ?_⟩
    rw [List.length_append, ← Nat.add_assoc, ← hrest, List.append_assoc, List.cons_append,
      decodeFrom]
    split
    · rename_i point' after hafter
      cases (hstep _).symm.trans hafter
      have hlength : start + ((tail ++ (front ++ rest)).length + 1 - (front ++ rest).length) =
          start + (b :: tail).length := by
        rw [List.length_append, List.length_cons]
        omega
      rw [hlength]
    · rename_i hafter
      cases (hstep _).symm.trans hafter

/-- Decoding takes a row of sequences and ends behind it, at the end of the data or in front of
bytes of which no step makes a sequence. -/
theorem exists_decodeFrom (start : Nat) (done : Text) (bytes : Bytes) :
    ∃ front back, bytes = front ++ back ∧ ConsistsOf IsSequence front ∧
      ((back = [] ∧ ∃ text, decodeFrom .lenient start done bytes = .ok text) ∨
        ∃ first rest length reason text, back = first :: rest ∧
          lenient first rest = .error (length, reason) ∧
          decodeFrom .lenient start done bytes =
            .error (⟨start + front.length, first, length, reason⟩, text)) := by
  fun_induction decodeFrom .lenient start done bytes with
  | case1 start done => exact ⟨[], [], rfl, .nil, .inl ⟨rfl, _, rfl⟩⟩
  | case2 start done b rest point rest' hstep ih =>
    obtain ⟨tail, rfl, hsequence⟩ := isSequence_of_lenient hstep
    obtain ⟨front, back, rfl, hfront, hends⟩ := ih
    refine ⟨b :: tail ++ front, back, by simp, .cons hsequence hfront, ?_⟩
    rcases hends with hends | ⟨first, rest, length, reason, text, hback, herror, hends⟩
    · exact .inl hends
    · refine .inr ⟨first, rest, length, reason, text, hback, herror, ?_⟩
      have hstart : start + ((tail ++ (front ++ back)).length + 1 - (front ++ back).length) +
          front.length = start + (b :: tail ++ front).length := by
        simp only [List.length_append, List.length_cons]
        omega
      rw [hends, hstart]
  | case3 start done b rest length reason hstep =>
    exact ⟨[], b :: rest, rfl, .nil, .inr ⟨b, rest, length, reason, _, rfl, hstep, rfl⟩⟩

/-- An error is located where the longest row of sequences in front of the data ends. The bad part
starts there and lies within the data. -/
structure Error.Locates (data : Bytes) (e : Error) : Prop where
  behind : ∃ front, front <+: data ∧ ConsistsOf IsSequence front ∧ front.length = e.start
  longest : ∀ front, front <+: data → ConsistsOf IsSequence front → front.length ≤ e.start
  first : data[e.start]? = some e.first
  length_pos : 1 ≤ e.length
  within : e.start + e.length ≤ data.length

/-- A row of sequences is decoded. -/
theorem ConsistsOf.exists_decode (h : ConsistsOf IsSequence bytes) :
    ∃ text, decode .lenient bytes = .ok text := by
  obtain ⟨done, hdone⟩ := h.decodeFrom_append 0 []
  have hnil := hdone []
  rw [List.append_nil, decodeFrom] at hnil
  exact ⟨done.reverse, by rw [decode, hnil]; rfl⟩

/-- Anything but a row of sequences is refused, behind the longest one. -/
theorem exists_decode_error (h : ¬ ConsistsOf IsSequence bytes) :
    ∃ e : Error, decode .lenient bytes = .error e ∧ e.Locates bytes := by
  obtain ⟨front, back, rfl, hfront, ⟨rfl, -⟩ | ⟨first, rest, length, reason, text, rfl, hstep,
    hends⟩⟩ := exists_decodeFrom 0 [] bytes
  · exact absurd ((List.append_nil front).symm ▸ hfront) h
  · have hlength := length_of_lenient_error hstep
    rw [Nat.zero_add] at hends
    refine ⟨_, by rw [decode, hends]; rfl, ⟨front, List.prefix_append _ _, hfront, rfl⟩, ?_, ?_,
      hlength.1, ?_⟩
    · rintro front' ⟨back', hdata⟩ hfront'
      -- Decoding steps over the other row as well, and what is reported stands behind it.
      obtain ⟨done', hdone'⟩ := hfront'.decodeFrom_append 0 []
      rw [← hdata, hdone', Nat.zero_add] at hends
      obtain ⟨more, -, -, -, ⟨-, text', hok⟩ | ⟨first', rest', length', reason', text', -, -,
        herror⟩⟩ := exists_decodeFrom front'.length done' back'
      · rw [hok] at hends
        cases hends
      · rw [herror] at hends
        have hstart : front'.length + more.length = front.length :=
          congrArg Error.start (congrArg Prod.fst (Except.error.inj hends))
        show front'.length ≤ front.length
        omega
    · show (front ++ first :: rest)[front.length]? = some first
      simp
    · show front.length + length ≤ (front ++ first :: rest).length
      rw [List.length_append, List.length_cons]
      omega

end Utf8

/-! ### Zeros in two bytes -/

namespace ModifiedUtf8

open Utf8 (ConsistsOf IsTail)

/-- One complete sequence of bytes, or the pair that stands for zero. -/
inductive IsSequence : Bytes → Prop
  | zero : IsSequence [0xC0, 0x80]
  | plain {bytes : Bytes} (h : Utf8.IsSequence bytes) : IsSequence bytes

/-- The byte that starts a written zero occurs in no other sequence. -/
theorem not_mem_of_isSequence {bytes : Bytes} (h : Utf8.IsSequence bytes) : 0xC0 ∉ bytes := by
  obtain ⟨a, tail, rfl⟩ := List.exists_cons_of_ne_nil h.ne_nil
  have hfirst : (0xC0 : UInt8) ≠ a := by
    rintro rfl
    cases h with
    | one ha | two ha | three ha | four ha => exact absurd ha (by decide)
  intro hmem
  rcases List.mem_cons.1 hmem with heq | hmem
  · exact hfirst heq
  · exact absurd (h.isTail _ hmem).2 (by decide)

/-- A byte that is there when the zeros are plain is a zero that was written in two bytes, or it was
there before. -/
theorem plainZeros_eq_cons {b : UInt8} {rest bytes : Bytes} (h : plainZeros bytes = b :: rest) :
    (b = 0 ∧ ∃ after, bytes = 0xC0 :: 0x80 :: after ∧ plainZeros after = rest) ∨
      ∃ after, bytes = b :: after ∧ plainZeros after = rest := by
  unfold plainZeros at h
  split at h
  · rename_i after
    obtain ⟨rfl, hrest⟩ := List.cons.inj h
    exact .inl ⟨rfl, after, rfl, hrest⟩
  · rename_i b' after _
    obtain ⟨rfl, hrest⟩ := List.cons.inj h
    exact .inr ⟨after, rfl, hrest⟩
  · cases h

/-- Continuation bytes were there before the zeros were made plain. -/
theorem exists_of_plainZeros_eq {tail rest bytes : Bytes} (htail : ∀ b ∈ tail, IsTail b)
    (h : plainZeros bytes = tail ++ rest) :
    ∃ rest', bytes = tail ++ rest' ∧ plainZeros rest' = rest := by
  induction tail generalizing bytes with
  | nil => exact ⟨bytes, rfl, h⟩
  | cons b tail ih =>
    rw [List.forall_mem_cons] at htail
    obtain ⟨rfl, -⟩ | ⟨after, rfl, hafter⟩ := plainZeros_eq_cons h
    · exact absurd htail.1.1 (by decide)
    · obtain ⟨rest', rfl, hrest'⟩ := ih htail.2 hafter
      exact ⟨rest', rfl, hrest'⟩

/-- Rows of sequences stay rows when the zeros are made plain, and nothing else becomes one. -/
theorem consistsOf_plainZeros_iff {bytes : Bytes} :
    ConsistsOf Utf8.IsSequence (plainZeros bytes) ↔ ConsistsOf IsSequence bytes := by
  constructor
  · intro h
    -- The row of the plain bytes leads through the bytes as they were.
    generalize hplain : plainZeros bytes = plain at h
    induction h generalizing bytes with
    | nil =>
      cases bytes with
      | nil => exact .nil
      | cons b bytes =>
        unfold plainZeros at hplain
        split at hplain
        · cases hplain
        · cases hplain
        · rename_i hempty
          cases hempty
    | @cons first rest hfirst _ ih =>
      obtain ⟨a, tail, rfl⟩ := List.exists_cons_of_ne_nil hfirst.ne_nil
      obtain ⟨rfl, after, rfl, hafter⟩ | ⟨after, rfl, hafter⟩ := plainZeros_eq_cons hplain
      · rw [hfirst.eq_nil (by decide)] at hafter
        exact .cons .zero (ih hafter)
      · obtain ⟨rest', rfl, hrest'⟩ := exists_of_plainZeros_eq hfirst.isTail hafter
        exact .cons (.plain hfirst) (ih hrest')
  · intro h
    induction h with
    | nil => exact .nil
    | @cons first rest hfirst _ ih =>
      cases hfirst with
      | zero =>
        have hzero : Utf8.IsSequence [0] := .one (by decide)
        exact .cons hzero ih
      | plain hfirst =>
        rw [plainZeros_append (not_mem_of_isSequence hfirst)]
        exact .cons hfirst ih

/-- The strings of class files are the rows of sequences. -/
theorem exists_decode_iff {bytes : Bytes} :
    (∃ text, decode bytes = .ok text) ↔ ConsistsOf IsSequence bytes := by
  rw [← consistsOf_plainZeros_iff]
  constructor
  · intro ⟨text, htext⟩
    by_contra hrow
    obtain ⟨e, he, -⟩ := Utf8.exists_decode_error hrow
    rw [decode_of_utf8_error he] at htext
    cases htext
  · intro hrow
    obtain ⟨text, htext⟩ := hrow.exists_decode
    exact exists_decode_of_utf8 htext

/-- All other byte strings are refused where the longest row of sequences ends, counted with the
zeros made plain. -/
theorem exists_decode_error {bytes : Bytes} (h : ¬ ConsistsOf IsSequence bytes) :
    ∃ e : Utf8.Error, decode bytes = .error (.bytes e) ∧ e.Locates (plainZeros bytes) := by
  obtain ⟨e, he, hlocates⟩ := Utf8.exists_decode_error (mt consistsOf_plainZeros_iff.1 h)
  exact ⟨e, decode_of_utf8_error he, hlocates⟩

end ModifiedUtf8

end ClassInspect
