import ClassInspect.Bytes

/-!
# Parts of byte strings

A part of a byte string is found by the place it stands at (`Bytes.StandsAt`), and other bytes can
be written over it (`Bytes.overwrite`).

Formats nest: a payload stands in an attribute, the attribute in a list, the list in a member, the
member in a file. `Bytes.Swaps` compares two byte strings that are the same but for one part, and
composes along such a nesting (`Swaps.trans`), each layer adding the distance at which it holds the
next. What is known of a layer is thereby said once, for the part that stands there and for every
part that could stand there instead.
-/

namespace ClassInspect.Bytes

variable {data data' part part' old new : Bytes} {place place' : Int}

/-- There are bytes enough from the place on, and they are those of the part. -/
def StandsAt (data : Bytes) (place : Int) (part : Bytes) : Prop :=
  0 ≤ place ∧ place + part.length ≤ data.length ∧
    (data.drop place.toNat).take part.length = part

/-- The byte string with the given bytes in place of as many from the place on. -/
def overwrite (data : Bytes) (place : Int) (bytes : Bytes) : Bytes :=
  data.take place.toNat ++ bytes ++ data.drop (place.toNat + bytes.length)

/-- The two byte strings are the same but for the part at the place, which is `old` in the first and
`new` in the second. -/
def Swaps (place : Int) (old new data data' : Bytes) : Prop :=
  ∃ front back, data = front ++ old ++ back ∧ data' = front ++ new ++ back ∧
    place = front.length

/-- A part that stands somewhere has bytes before it and behind it. -/
theorem standsAt_iff :
    StandsAt data place part ↔ ∃ front back, data = front ++ part ++ back ∧
      place = front.length := by
  constructor
  · rintro ⟨hplace, hlength, hpart⟩
    refine ⟨data.take place.toNat, (data.drop place.toNat).drop part.length, ?_, ?_⟩
    · have hrest := List.take_append_drop part.length (data.drop place.toNat)
      rw [hpart] at hrest
      rw [List.append_assoc, hrest, List.take_append_drop]
    · rw [List.length_take]
      omega
  · rintro ⟨front, back, rfl, rfl⟩
    refine ⟨Int.natCast_nonneg _, ?_, ?_⟩
    · simp only [List.length_append]
      omega
    · rw [Int.toNat_natCast, List.append_assoc, List.drop_left, List.take_left]

/-- A part of a part is a part. -/
theorem StandsAt.trans (h : StandsAt data place part) (hpart : StandsAt part place' part') :
    StandsAt data (place + place') part' := by
  obtain ⟨front, back, rfl, rfl⟩ := standsAt_iff.1 h
  obtain ⟨front', back', rfl, rfl⟩ := standsAt_iff.1 hpart
  exact standsAt_iff.2 ⟨front ++ front', back' ++ back, by simp, by simp⟩

/-- Bytes written over a part that stands between others leave these alone. -/
theorem overwrite_append (front back : Bytes) (hlength : new.length = old.length) :
    overwrite (front ++ old ++ back) front.length new = front ++ new ++ back := by
  have hdrop : (front ++ (old ++ back)).drop (front.length + new.length) = back := by
    rw [hlength, ← List.append_assoc, ← List.length_append, List.drop_left]
  rw [overwrite, Int.toNat_natCast, List.append_assoc front old, List.take_left, hdrop]

namespace Swaps

/-- What is swapped stands where it is swapped. -/
theorem standsAt (h : Swaps place old new data data') : StandsAt data place old := by
  obtain ⟨front, back, hdata, -, hplace⟩ := h
  exact standsAt_iff.2 ⟨front, back, hdata, hplace⟩

/-- Swapping a part for one of the same length is writing over it. -/
theorem eq_overwrite (h : Swaps place old new data data') (hlength : new.length = old.length) :
    data' = overwrite data place new := by
  obtain ⟨front, back, rfl, rfl, rfl⟩ := h
  exact (overwrite_append front back hlength).symm

theorem length_eq (h : Swaps place old new data data') (hlength : new.length = old.length) :
    data'.length = data.length := by
  obtain ⟨front, back, rfl, rfl, -⟩ := h
  simp only [List.length_append, hlength]

/-- A part of a part is swapped by swapping the part around it. -/
theorem trans (h : Swaps place part part' data data') (hpart : Swaps place' old new part part') :
    Swaps (place + place') old new data data' := by
  obtain ⟨front, back, rfl, rfl, rfl⟩ := h
  obtain ⟨front', back', rfl, rfl, rfl⟩ := hpart
  exact ⟨front ++ front', back' ++ back, by simp, by simp, by simp⟩

/-- The same with the place of the inner part counted from where the outer one is counted from. -/
theorem trans_sub (h : Swaps place part part' data data')
    (hpart : Swaps (place' - place) old new part part') : Swaps place' old new data data' := by
  have hswaps := h.trans hpart
  have hplace : place + (place' - place) = place' := by omega
  rwa [hplace] at hswaps

end Swaps

end ClassInspect.Bytes
