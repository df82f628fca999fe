import ClassInspect.Proofs.ClassFile.InvalidText
import ClassInspect.Proofs.Pool.Lookup

/-!
# The slots of a pool

The numbers by which constants are found count slots, not constants, so a long constant shifts all
numbers behind it by one. `Pool.LaidOut` says how the slots of a pool lie: as many as were
announced, with slot zero, and a slot is kept free exactly behind a long constant. The last slot
never holds one, since the slot behind it would be missing. A pool that ends so is refused
(`Pool.concludes_read_of_long`).

That every pool that was read lies so follows from its description. Each constant brings its own
slots, and what follows them starts behind a constant that is not long (`RawPool.laidOut_denote`).
-/

namespace ClassInspect

open Scan (Concludes)

/-! ### Sizes -/

/-- The number of bytes of a constant in a file. -/
def RawConstant.encodedSize : RawConstant → Nat
  | utf8 payload => 3 + payload.length
  | classRef _ | string _ | methodType _ | module _ | package _ => 3
  | methodHandle _ _ => 4
  | integer _ | float _ | fieldRef _ _ | methodRef _ _ | interfaceMethodRef _ _ | nameAndType _ _
  | dynamic _ _ | invokeDynamic _ _ => 5
  | long _ | double _ => 9

theorem RawConstant.length_write (constant : RawConstant) :
    constant.write.length = constant.encodedSize := by
  cases constant <;> simp [write, body, encodedSize, Bytes.ofInt]
  omega

/-- The number of bytes of constants in a row. -/
def RawPool.encodedSize : RawPool → Nat
  | [] => 0
  | constant :: pool => constant.encodedSize + encodedSize pool

theorem RawPool.length_flatMap_write (pool : RawPool) :
    (pool.flatMap RawConstant.write).length = pool.encodedSize := by
  induction pool with
  | nil => rfl
  | cons constant pool ih =>
    rw [List.flatMap_cons, List.length_append, constant.length_write, ih, encodedSize]

/-! ### Slots -/

/-- A number of eight bytes, which takes two slots. -/
def Constant.IsLong (constant : Constant) : Prop :=
  constant.tag = .long ∨ constant.tag = .double

theorem Constant.takesTwo_iff {constant : Constant} :
    constant.takesTwo = true ↔ constant.IsLong := by
  cases constant <;> simp [takesTwo, IsLong, tag]

namespace Pool

/-- What a slot holds, if there is a slot of that number. Slot zero holds nothing. -/
def slot? (pool : Pool) (index : Nat) : Option (Option Constant) :=
  (none :: pool.slots.toList)[index]?

/-- How the slots of a pool lie that was announced with a number of slots. -/
structure LaidOut (pool : Pool) (announced : Nat) : Prop where
  /-- There are as many slots as were announced. Slot zero is always there. -/
  count : pool.count = max announced 1
  zero : pool.slot? 0 = some none
  /-- A slot is kept free exactly behind a long constant. -/
  reserved_iff : ∀ index, index + 1 < pool.count →
    (pool.slot? (index + 1) = some none ↔
      ∃ constant, pool.slot? index = some (some constant) ∧ constant.IsLong)
  /-- The last slot does not hold a long constant. -/
  last : ∀ constant, pool.slot? (pool.count - 1) = some (some constant) → ¬ constant.IsLong
  /-- The constants are listed in the order of their slots. -/
  sorted : (pool.entries.map Prod.fst).Pairwise (· < ·)
  /-- A constant is listed if it stands in the slot of its number. -/
  mem_entries_iff : ∀ index constant,
    (index, constant) ∈ pool.entries ↔ pool.slot? index = some (some constant)

/-- A slot may follow another: it is kept free exactly if the other holds a long constant. -/
def Follows (before slot : Option Constant) : Prop :=
  slot = none ↔ ∃ constant, before = some constant ∧ constant.IsLong

/-- Slots that start behind something that is not a long constant, and do not end with one. -/
structure Follow (before : Option Constant) (slots : List (Option Constant)) : Prop where
  chain : List.IsChain Follows (before :: slots)
  last : ∀ constant, (before :: slots).getLast? = some (some constant) → ¬ constant.IsLong

theorem mem_entries_iff (pool : Pool) (index : Nat) (constant : Constant) :
    (index, constant) ∈ pool.entries ↔ pool.slot? index = some (some constant) := by
  have hentry : (index, constant) ∈ pool.entries ↔
      (some constant, index) ∈ pool.slots.toList.zipIdx 1 := by
    rw [entries, List.mem_filterMap]
    constructor
    · rintro ⟨⟨slot, number⟩, hmem, hslot⟩
      obtain ⟨found, rfl, hpair⟩ := Option.map_eq_some_iff.1 hslot
      cases hpair
      exact hmem
    · intro hmem
      exact ⟨(some constant, index), hmem, rfl⟩
  rw [hentry, List.mk_mem_zipIdx_iff_le_and_getElem?_sub, slot?]
  cases index with
  | zero => simp
  | succ index => simp

theorem sorted_entries (pool : Pool) : (pool.entries.map Prod.fst).Pairwise (· < ·) := by
  have hnumbers : (pool.slots.toList.zipIdx 1).Pairwise fun a b ↦ a.2 < b.2 := by
    rw [← List.pairwise_map, List.zipIdx_map_snd]
    exact List.pairwise_lt_range'
  rw [List.pairwise_map, entries, List.pairwise_filterMap]
  refine hnumbers.imp fun {a b} hlt entry hentry entry' hentry' ↦ ?_
  obtain ⟨constant, -, rfl⟩ := Option.map_eq_some_iff.1 hentry
  obtain ⟨constant', -, rfl⟩ := Option.map_eq_some_iff.1 hentry'
  exact hlt

/-- The constants that are listed are those in the slots, without the free ones. -/
theorem map_snd_entries (pool : Pool) :
    pool.entries.map Prod.snd = pool.slots.toList.filterMap id := by
  have hfirst : (pool.slots.toList.zipIdx 1).map Prod.fst = pool.slots.toList :=
    List.zipIdx_map_fst 1 _
  rw [entries, List.map_filterMap]
  nth_rewrite 2 [← hfirst]
  rw [List.filterMap_map]
  refine List.filterMap_congr fun entry _ ↦ ?_
  obtain ⟨_ | constant, index⟩ := entry
  · rfl
  · rfl

/-- The slots of a constant may follow anything but a long constant, and what may follow them may
follow its own kind of start. -/
theorem Follow.constant {before : Option Constant}
    (hbefore : ¬ ∃ constant, before = some constant ∧ constant.IsLong) (constant : Constant)
    {slots : List (Option Constant)}
    (h : Follow (if constant.takesTwo then none else some constant) slots) :
    Follow before (constant.slots.toList ++ slots) := by
  have hfirst : Follows before (some constant) :=
    iff_of_false (Option.some_ne_none constant) hbefore
  rcases htwo : constant.takesTwo with _ | _
  · rw [htwo] at h
    have hslots : constant.slots.toList ++ slots = some constant :: slots := by
      simp [Constant.slots, htwo]
    rw [hslots]
    refine ⟨List.isChain_cons_cons.2 ⟨hfirst, h.chain⟩, fun last hlast ↦ h.last last ?_⟩
    rwa [List.getLast?_cons_cons] at hlast
  · rw [htwo] at h
    have hslots : constant.slots.toList ++ slots = some constant :: none :: slots := by
      simp [Constant.slots, htwo]
    have hsecond : Follows (some constant) none :=
      iff_of_true rfl ⟨constant, rfl, Constant.takesTwo_iff.1 htwo⟩
    rw [hslots]
    refine ⟨List.isChain_cons_cons.2 ⟨hfirst, List.isChain_cons_cons.2 ⟨hsecond, h.chain⟩⟩,
      fun last hlast ↦ h.last last ?_⟩
    rwa [List.getLast?_cons_cons, List.getLast?_cons_cons] at hlast

/-- A pool whose slots follow slot zero lies as announced. -/
theorem Follow.laidOut {pool : Pool} (h : Follow none pool.slots.toList) {announced : Nat}
    (hcount : pool.count = max announced 1) : pool.LaidOut announced where
  count := hcount
  zero := rfl
  reserved_iff index hindex := by
    have hlength : (none :: pool.slots.toList).length = pool.count := by
      rw [List.length_cons, Array.length_toList, count]
    have hfollows := h.chain.getElem index (by rwa [hlength])
    rw [Follows] at hfollows
    rw [slot?, slot?, List.getElem?_eq_getElem (by rwa [hlength]),
      List.getElem?_eq_getElem (by omega), Option.some_inj, hfollows]
    simp only [Option.some_inj]
  last constant hconstant := by
    refine h.last constant ?_
    rw [List.getLast?_eq_getElem?, List.length_cons, Array.length_toList]
    exact hconstant
  sorted := pool.sorted_entries
  mem_entries_iff := pool.mem_entries_iff

end Pool

/-! ### Pools that were read -/

namespace RawPool

/-- The slots of constants may follow anything but a long constant. -/
theorem follow_denote (pool : RawPool) {before : Option Constant}
    (hbefore : ¬ ∃ constant, before = some constant ∧ constant.IsLong) :
    Pool.Follow before pool.denote.slots.toList := by
  induction pool generalizing before with
  | nil =>
    refine ⟨List.isChain_singleton before, fun constant hlast hlong ↦ ?_⟩
    exact hbefore ⟨constant, Option.some.inj hlast, hlong⟩
  | cons constant pool ih =>
    rw [denote_cons, Array.toList_append]
    refine Pool.Follow.constant hbefore constant.denote (ih ?_)
    rintro ⟨found, hfound, hlong⟩
    split at hfound
    · cases hfound
    · rename_i htwo
      obtain rfl := Option.some.inj hfound
      exact htwo (Constant.takesTwo_iff.2 hlong)

theorem count_denote (pool : RawPool) : pool.denote.count = pool.slots.length + 1 := by
  simp [Pool.count, denote]

theorem laidOut_denote (pool : RawPool) {announced : Nat}
    (hannounced : pool.slots.length + 1 = max announced 1) : pool.denote.LaidOut announced := by
  refine (pool.follow_denote ?_).laidOut (pool.count_denote.trans hannounced)
  rintro ⟨constant, hnone, -⟩
  cases hnone

/-- The constants that are listed are those of the description, in order. -/
theorem map_snd_entries_denote (pool : RawPool) :
    pool.denote.entries.map Prod.snd = pool.map RawConstant.denote := by
  rw [Pool.map_snd_entries]
  induction pool with
  | nil => rfl
  | cons constant pool ih =>
    have hslots : constant.denote.slots.toList.filterMap id = [constant.denote] := by
      rw [Constant.slots]
      split
      · rfl
      · rfl
    rw [denote_cons, Array.toList_append, List.filterMap_append, hslots, ih]
    rfl

end RawPool

namespace Pool

/-- A long constant in the last slot makes the slots fail. -/
theorem concludes_readSlots_of_long {constant : RawConstant} (hconstant : constant.WellFormed)
    (hlong : constant.denote.IsLong) (verbose : Bool) (pool : Pool) (m : Mark) :
    Concludes (readSlots verbose 1 pool) m constant.write
      (.error (.nowhere (.pool .lastTakesTwo))) := by
  have hentry : Concludes (readEntry verbose pool.count) m constant.write (.ok constant.denote) :=
    (decodes_readEntry verbose pool.count).concludes ⟨constant, hconstant, rfl, rfl⟩
  have hthrow (m : Mark) : Concludes (throw (.nowhere (.pool .lastTakesTwo)) : Scan Pool) m []
      (.error (.nowhere (.pool .lastTakesTwo))) := by
    intro s _ _
    simp
  rw [readSlots, ← List.append_nil constant.write]
  refine hentry.bind ?_
  rw [Constant.takesTwo_iff.2 hlong]
  exact hthrow _

/-- A pool whose last announced slot would hold a long constant is refused, whatever follows. -/
theorem concludes_read_of_long {constants : RawPool}
    (hconstants : ∀ constant ∈ constants, constant.WellFormed) {last : RawConstant}
    (hlast : last.WellFormed) (hlong : last.denote.IsLong) {announced : UInt16}
    (hannounced : announced.toNat = constants.slots.length + 2) (verbose : Bool) (m : Mark) :
    Concludes (read verbose) m
      (.ofU16 announced ++ (constants.flatMap RawConstant.write ++ last.write))
      (.error (.nowhere (.pool .lastTakesTwo))) := by
  have hnumber : Concludes Scan.u16 m (.ofU16 announced) (.ok announced.toNat) :=
    Scan.concludes_unsigned announced.toNat_lt m
  have hleft : announced.toNat - 1 = 1 + constants.slots.length := by omega
  refine hnumber.bind (Concludes.bind_error ?_ _)
  rw [hleft]
  exact concludes_readSlots_append hconstants fun pool ↦
    concludes_readSlots_of_long hlast hlong verbose pool _

/-- A pool that was read lies as announced, and the bytes read are the number and the constants. -/
theorem exists_laidOut {verbose : Bool} {s : Scan.State} {pool : Pool} {c : Cursor}
    (h : Scan.run (read verbose) s = (.ok pool, c)) :
    ∃ (announced : UInt16) (constants : RawPool),
      pool.LaidOut announced.toNat ∧
      (∀ constant ∈ constants, constant.WellFormed) ∧
      pool.entries.map Prod.snd = constants.map RawConstant.denote ∧
      Bytes.ofU16 announced ++ constants.flatMap RawConstant.write <+: s.cursor.rest ∧
      c = s.cursor.advance (2 + constants.encodedSize) := by
  obtain ⟨bytes, hahead, rfl, constants, hconstants, rfl, hbytes⟩ :=
    (reads_read verbose s pool c).1 h
  obtain ⟨announced, hannounced, rfl⟩ : ∃ announced : UInt16,
      constants.slots.length + 1 = max announced.toNat 1 ∧
        bytes = Bytes.ofU16 announced ++ constants.flatMap RawConstant.write := by
    obtain rfl | ⟨rfl, rfl⟩ := hbytes
    · have hnumber :
          (UInt16.ofNat (constants.slots.length + 1)).toNat = constants.slots.length + 1 :=
        UInt16.toNat_ofNat_of_lt' hconstants.count
      refine ⟨.ofNat (constants.slots.length + 1), ?_, ?_⟩
      · rw [hnumber, Nat.max_eq_left (Nat.le_add_left 1 _)]
      · rw [Bytes.ofU16, hnumber, RawPool.write]
    · exact ⟨0, rfl, rfl⟩
  refine ⟨announced, constants, constants.laidOut_denote hannounced, hconstants.constants,
    constants.map_snd_entries_denote, hahead, ?_⟩
  rw [List.length_append, Bytes.length_ofU16, RawPool.length_flatMap_write]

/-- In an accepted file, the slots are as many as the number in front of the constants says. -/
theorem count_of_parse {data : Bytes} {verbose : Bool} {file : ClassFile}
    (h : (ClassFile.parse data verbose).outcome.1 = .ok file) :
    file.pool.count = Bytes.toNat ((data.drop 8).take 2) := by
  obtain ⟨d, hd, rfl, hdenotes⟩ := (ClassFile.outcome_eq_ok_iff _ _ _).1 h
  have hfront : d.serialize.drop 8 = Bytes.ofNat 2 (d.constants.slots.length + 1) ++
      (d.constants.flatMap RawConstant.write ++ d.body) := by
    simp only [RawClass.serialize, RawClass.preamble, RawPool.write, List.append_assoc]
    rfl
  rw [hfront, List.take_left' (Bytes.length_ofNat 2 _), Bytes.toNat_ofNat hd.constants.count,
    hdenotes.pool, RawPool.count_denote]

/-- A pool that was read has the announced number of slots, a slot is kept free exactly behind a
long constant, and the reader is behind the number and the constants that the pool lists. In an
accepted file, the number stands at the ninth byte. A pool that would end with a long constant is
refused. -/
theorem read_lays_out_slots (verbose : Bool) :
    (∀ s pool c, Scan.run (read verbose) s = (.ok pool, c) →
      ∃ (announced : UInt16) (constants : RawPool),
        pool.LaidOut announced.toNat ∧
        (∀ constant ∈ constants, constant.WellFormed) ∧
        pool.entries.map Prod.snd = constants.map RawConstant.denote ∧
        Bytes.ofU16 announced ++ constants.flatMap RawConstant.write <+: s.cursor.rest ∧
        c = s.cursor.advance (2 + constants.encodedSize)) ∧
    (∀ data file, (ClassFile.parse data verbose).outcome.1 = .ok file →
      file.pool.count = Bytes.toNat ((data.drop 8).take 2)) ∧
    ∀ (constants : RawPool) (last : RawConstant) (announced : UInt16) (s : Scan.State),
      (∀ constant ∈ constants, constant.WellFormed) → last.WellFormed → last.denote.IsLong →
      announced.toNat = constants.slots.length + 2 →
      Bytes.ofU16 announced ++ (constants.flatMap RawConstant.write ++ last.write) <+:
        s.cursor.rest →
      ∃ fault, (Scan.run (read verbose) s).1 = .error fault ∧
        fault.formatError? = some ⟨.invalidPoolIndex,
          .lit "Last constant takes two slots, but the pool has only one left", none⟩ := by
  refine ⟨fun _ _ _ ↦ exists_laidOut, fun _ _ ↦ count_of_parse, ?_⟩
  intro constants last announced s hconstants hlast hlong hannounced hahead
  have hread := concludes_read_of_long hconstants hlast hlong hannounced verbose _ s rfl hahead
  exact ⟨_, congrArg Prod.fst hread, rfl⟩

/-- In the sample, the last of ten slots is kept free for the number before it. With one slot less
announced, the same bytes are refused. -/
theorem read_lays_out_slots_sample :
    (Scan.run (read false) (.start sampleBytes 0)).1 = .ok sample ∧
    sample.LaidOut 10 ∧ sample.slot? 9 = some none ∧
    ∃ fault, (Scan.run (read false) (.start (0 :: 9 :: sampleBytes.drop 2) 0)).1 = .error fault ∧
      fault.formatError? = some ⟨.invalidPoolIndex,
        .lit "Last constant takes two slots, but the pool has only one left", none⟩ := by
  have hread : (Scan.run (read false) (.start sampleBytes 0)).1 = .ok sample := by
    decide +kernel
  obtain ⟨hlaidOut, -, hlast⟩ := read_lays_out_slots false
  obtain ⟨announced, constants, hsample, -⟩ := hlaidOut _ _ _ (Prod.ext hread rfl)
  have hannounced : announced.toNat = 10 := by
    have hcount := hsample.count
    have hten : sample.count = 10 := rfl
    omega
  refine ⟨hread, hannounced ▸ hsample, rfl, ?_⟩
  refine hlast [.utf8 [0x41], .classRef 1, .utf8 [0x6D], .utf8 [0x28, 0x29, 0x56],
    .nameAndType 3 4, .methodRef 2 5, .methodHandle 6 6] (.long 1) 9 _ ?_ ?_ (.inl rfl) rfl ?_
  · simp only [List.forall_mem_cons, RawConstant.WellFormed]
    exact ⟨⟨by decide, .lit "A", by decide +kernel⟩, trivial,
      ⟨by decide, .lit "m", by decide +kernel⟩, ⟨by decide, .lit "()V", by decide +kernel⟩,
      trivial, trivial, by decide, by simp⟩
  · simp [RawConstant.WellFormed, Bytes.FitsSigned]
  · exact List.prefix_refl _

end Pool

end ClassInspect
