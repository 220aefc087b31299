import Neptune.Spec.HidItem

/-! What is put into a report and taken out of it again. -/

namespace Neptune

open Option BitVec

namespace Hid

open BitField
open NepHidItem

variable {nhi : NepHidItem} {buf buf' : Buf} {v w : LONG} {i j o p q size : ℕ} {signed : Bool}

theorem getLsbD_extend (signed : Bool) (buf : Buf) (q : ℕ) (hp : p < 32) :
    (extend signed (buf q)).getLsbD p =
      if p < 8 then bitAt buf (q * 8 + p) else signed && bitAt buf (q * 8 + 7) := by
  rw [bitAt_byte buf q (by decide : 7 < 8)]
  unfold extend
  by_cases hlow : p < 8
  · rw [if_pos hlow, bitAt_byte buf q hlow]
    cases signed
    · rw [if_neg Bool.false_ne_true, getLsbD_setWidth, decide_eq_true hp, Bool.true_and]
    · rw [if_pos rfl, getLsbD_signExtend, decide_eq_true hp, Bool.true_and, if_pos hlow]
  · rw [if_neg hlow]
    cases signed
    · rw [if_neg Bool.false_ne_true, getLsbD_setWidth, getLsbD_of_ge _ _ (by omega)]
      simp
    · rw [if_pos rfl, getLsbD_signExtend, decide_eq_true hp, Bool.true_and, if_neg hlow]
      simp [msb_eq_getLsbD_last, -getLsbD_eq_getElem]

theorem getLsbD_extractField (signed : Bool) (buf : Buf) (o : ℕ) (hsize : 1 ≤ size) (hp : p < 32) :
    (extractField buf signed size o).getLsbD p =
      if p < size then bitAt buf (o + p) else signed && bitAt buf (o + size - 1) := by
  unfold extractField
  cases signed
  · rw [if_neg Bool.false_ne_true, getLsbD_readDown _ _ _ _ hp]
    simp
  · simp only [if_true, Bool.true_and]
    have hfill : ∀ b : Bool, ∀ r < 32, (if b then (-1 : LONG) else 0).getLsbD r = b := by
      intro b r hr
      cases b
      · simp
      · simp only [if_true]
        rw [show (-1 : LONG) = allOnes 32 from rfl, getLsbD_allOnes, decide_eq_true hr]
    rw [show o + size - 1 = o + (size - 1) by omega, getLsbD_readDown _ _ _ _ hp, hfill _ _ (by omega)]
    -- the sign is read as the last bit of the field and by the loop no more
    by_cases hin : p < size - 1
    · rw [if_pos hin, if_pos (by omega)]
    · rw [if_neg hin]
      by_cases hlast : p < size
      · rw [if_pos hlast, show p = size - 1 by omega]
      · rw [if_neg hlast]

def fieldBit (buf : Buf) (signed : Bool) (size o p : ℕ) : Bool :=
  if p < size then bitAt buf (o + p) else signed && bitAt buf (o + size - 1)

theorem aligned_eq (h : nhi.byteAligned = true) : nhi.offset = (nhi.offset >>> 3) * 8 := by
  have hand := of_decide_eq_true h
  rw [and_seven] at hand
  omega

theorem getLsbD_shifted (k : ℕ) (v : LONG) (hp : p < 32) :
    (v <<< k).getLsbD p = if p < k then false else v.getLsbD (p - k) := by
  rw [getLsbD_shiftLeft, decide_eq_true hp, Bool.true_and]
  split
  · rename_i hlt
    rw [decide_eq_true hlt]
    rfl
  · rename_i hge
    rw [decide_eq_false hge]
    rfl

def NepHidItem.fieldStart (nhi : NepHidItem) (i : ℕ) : ℕ :=
  if nhi.byteAligned && nhi.size = 8 then nhi.byteAt i * 8 else nhi.offset + i * nhi.size

/-- The index of the bytes does not wrap. -/
theorem fieldStart_eq (h : nhi.offset >>> 3 + i < 2 ^ 16) :
    nhi.fieldStart i = nhi.offset + i * nhi.size := by
  unfold NepHidItem.fieldStart
  split
  · rename_i hbyte
    obtain ⟨haligned, hsize⟩ := Bool.and_eq_true_iff.mp hbyte
    have hoffset := aligned_eq haligned
    unfold byteAt
    rw [of_decide_eq_true hsize, uword_of_lt h]
    omega
  · rfl

theorem offset_byte_lt (h : nhi.offset < 2 ^ 16) : nhi.offset >>> 3 < 2 ^ 16 := by
  omega

theorem getLsbD_extractElement (hsize : 1 ≤ nhi.size) (hne : nhi.size ≠ 1) (buf : Buf) (i : ℕ)
    (hp : p < 32) : (nhi.extractElement buf i).getLsbD p =
      fieldBit buf nhi.isSigned nhi.size (nhi.fieldStart i) p := by
  unfold extractElement fieldBit NepHidItem.fieldStart
  by_cases hbyte : (nhi.byteAligned && decide (nhi.size = 8)) = true
  · rw [if_pos hbyte, if_pos hbyte, getLsbD_extend _ _ _ hp, of_decide_eq_true (Bool.and_eq_true_iff.mp hbyte).2]
    rfl
  · rw [if_neg hbyte, if_neg hbyte, if_neg hne, getLsbD_extractField _ _ _ hsize hp]

theorem extractVariable_eq (hsize : 1 ≤ nhi.size) (hoffset : nhi.offset < 2 ^ 16) (buf : Buf) :
    nhi.extractVariable buf = nhi.extractElement buf 0 := by
  by_cases hone : nhi.size = 1
  · unfold extractVariable extractElement
    simp [hone]
  apply eq_of_getLsbD_eq
  intro p hp
  rw [getLsbD_extractElement hsize hone buf 0 hp, fieldStart_eq (offset_byte_lt hoffset)]
  unfold extractVariable fieldBit
  simp only [Nat.zero_mul, Nat.add_zero]
  by_cases hbyte : (nhi.byteAligned && decide (nhi.size = 8)) = true
  · obtain ⟨haligned, hsize⟩ := Bool.and_eq_true_iff.mp hbyte
    rw [if_pos hbyte, getLsbD_extend _ _ _ hp, ← aligned_eq haligned, of_decide_eq_true hsize]
    rfl
  rw [if_neg hbyte, if_neg hone]
  by_cases hword : (nhi.byteAligned && decide (nhi.size = 16)) = true
  · obtain ⟨haligned, hsize⟩ := Bool.and_eq_true_iff.mp hword
    have hoffset := aligned_eq haligned
    rw [if_pos hword, getLsbD_or, getLsbD_shifted _ _ hp, getLsbD_extend _ _ _ hp,
      of_decide_eq_true hsize]
    by_cases h8 : p < 8
    · rw [if_pos h8, if_pos h8, if_pos (by omega), Bool.or_false, ← hoffset]
    · rw [if_neg h8, if_neg h8, getLsbD_extend _ _ _ (by omega)]
      by_cases h16 : p < 16
      · rw [if_pos (by omega), if_pos h16, Bool.false_and, Bool.false_or]
        congr 1
        omega
      · rw [if_neg (by omega), if_neg h16, Bool.false_and, Bool.false_or]
        congr 2
        omega
  rw [if_neg hword]
  by_cases hlong : (nhi.byteAligned && decide (nhi.size = 32)) = true
  · obtain ⟨haligned, hsize⟩ := Bool.and_eq_true_iff.mp hlong
    have hoffset := aligned_eq haligned
    rw [if_pos hlong, of_decide_eq_true hsize, if_pos hp]
    have hbytes : ∀ k, (extend false (buf ((nhi.offset >>> 3) + k)) <<< (k * 8)).getLsbD p =
        if k * 8 ≤ p ∧ p < k * 8 + 8 then bitAt buf (nhi.offset + p) else false := by
      intro k
      rw [getLsbD_shifted _ _ hp]
      by_cases hlow : p < k * 8
      · rw [if_pos hlow, if_neg (by omega)]
      · rw [if_neg hlow, getLsbD_extend _ _ _ (by omega)]
        by_cases hin : p - k * 8 < 8
        · rw [if_pos hin, if_pos (by omega)]
          congr 1
          omega
        · rw [if_neg hin, if_neg (by omega), Bool.false_and]
    have h0 := hbytes 0
    have h1 := hbytes 1
    have h2 := hbytes 2
    have h3 := hbytes 3
    simp only [Nat.zero_mul, Nat.add_zero, shiftLeft_zero] at h0
    simp only [getLsbD_or]
    rw [Nat.add_zero, h0, h1, h2, h3]
    rcases (by omega : p < 8 ∨ 8 ≤ p ∧ p < 16 ∨ 16 ≤ p ∧ p < 24 ∨ 24 ≤ p ∧ p < 32) with h | h | h | h
    all_goals
      repeat (first | rw [if_pos (by omega)] | rw [if_neg (by omega)])
      simp
  · rw [if_neg hlong, getLsbD_extractField _ _ _ hsize hp]

def Fits (isSigned : Bool) (size : ℕ) (v : LONG) : Prop :=
  if isSigned then -2 ^ (size - 1) ≤ v.toInt ∧ v.toInt < 2 ^ (size - 1) else v.toNat < 2 ^ size

instance (isSigned : Bool) (size : ℕ) (v : LONG) : Decidable (Fits isSigned size v) := by
  unfold Fits
  infer_instance

theorem Fits.signExtend (h : Fits true size v) (hsize : 1 ≤ size) (hle : size ≤ 32) :
    (v.setWidth size).signExtend 32 = v := by
  have hbounds : -2 ^ (size - 1) ≤ v.toInt ∧ v.toInt < 2 ^ (size - 1) := h
  apply eq_of_toInt_eq
  rw [toInt_signExtend_of_le hle, toInt_setWidth]
  have hdvd : ((2 ^ size : ℕ) : ℤ) ∣ ((2 ^ 32 : ℕ) : ℤ) :=
    Int.natCast_dvd_natCast.mpr (Nat.pow_dvd_pow 2 hle)
  have hmod : Int.bmod (v.toNat : ℤ) (2 ^ size) = Int.bmod v.toInt (2 ^ size) := by
    rw [toInt_eq_toNat_bmod, Int.bmod_bmod_of_dvd (Nat.pow_dvd_pow 2 hle)]
  rw [hmod]
  have hpow : (2 : ℤ) ^ size = 2 * 2 ^ (size - 1) := by
    rw [← Int.pow_succ', Nat.sub_add_cancel hsize]
  apply Int.bmod_eq_of_le
  all_goals
    push_cast
    omega

theorem Fits.getLsbD (h : Fits signed size v) (hsize : 1 ≤ size) (hle : size ≤ 32) (hp : p < 32)
    (hge : size ≤ p) : v.getLsbD p = (signed && v.getLsbD (size - 1)) := by
  cases signed
  · have hlt : v.toNat < 2 ^ size := h
    rw [Bool.false_and]
    exact Nat.testBit_lt_two_pow (hlt.trans_le (Nat.pow_le_pow_right (by decide) hge))
  · rw [Bool.true_and]
    conv_lhs => rw [← h.signExtend hsize hle]
    rw [getLsbD_signExtend, decide_eq_true hp, Bool.true_and, if_neg (by omega),
      msb_eq_getLsbD_last, getLsbD_setWidth, decide_eq_true (by omega), Bool.true_and]

def NepHidItem.values (nhi : NepHidItem) : List LONG :=
  if nhi.isVariable then [nhi.oldValue] else nhi.buffer

def NepHidItem.extract (nhi : NepHidItem) (buf : Buf) : List LONG :=
  if nhi.isVariable then [nhi.extractVariable buf] else nhi.extractArray buf

/-- The offset is a `UWORD`, and `nParseReport` makes no array of more than 65535 values. -/
structure Good (nhi : NepHidItem) : Prop where
  offset_lt : nhi.offset < 2 ^ 16
  count_le : nhi.count ≤ 65535
  size_pos : 1 ≤ nhi.size
  size_le : nhi.size ≤ 32
  values_ne : nhi.values ≠ []
  inRange : ∀ v ∈ nhi.values, nhi.inRange v = true
  fits : ∀ v ∈ nhi.values, Fits nhi.isSigned nhi.size v

def NepHidItem.place (nhi : NepHidItem) : Set ℕ :=
  Set.Ico nhi.offset (nhi.offset + nhi.size * max 1 nhi.count)

theorem inRange_clamp (h : nhi.inRange v = true) : nhi.clamp v = v := by
  obtain ⟨hmin, hmax⟩ := Bool.and_eq_true_iff.mp h
  unfold NepHidItem.clamp
  rw [sle_eq_not_slt, Bool.not_eq_true'] at hmin hmax
  rw [hmin, hmax]
  rfl

theorem nEncodeItemBuffer_eq (hgood : Good nhi) (buf : Buf) :
    nhi.nEncodeItemBuffer buf =
      if nhi.byteAligned && nhi.size = 8 then encodeBytes (nhi.offset >>> 3) buf nhi.values
      else if nhi.size = 1 then encodeFlags nhi.offset buf nhi.values
      else encodeFields nhi.size nhi.offset buf nhi.values := by
  have hrange := hgood.inRange
  unfold NepHidItem.values at hrange ⊢
  unfold NepHidItem.nEncodeItemBuffer
  by_cases hvar : nhi.isVariable = true
  · rw [if_pos hvar] at hrange
    simp only [if_pos hvar]
    unfold NepHidItem.encodeVariable
    rw [inRange_clamp (hrange _ List.mem_cons_self)]
    rfl
  · simp only [if_neg hvar]
    unfold NepHidItem.encodeArray
    rw [uword_of_lt (offset_byte_lt hgood.offset_lt)]

theorem length_values (hgood : Good nhi) : nhi.values.length = 1 ∧ nhi.isVariable = true ∨
    nhi.values.length = nhi.count ∧ 1 ≤ nhi.count ∧ nhi.isVariable = false := by
  have hne := hgood.values_ne
  unfold NepHidItem.values at hne ⊢
  cases hvar : nhi.isVariable with
  | true => exact .inl ⟨rfl, rfl⟩
  | false =>
    rw [hvar, if_neg Bool.false_ne_true] at hne
    exact .inr ⟨rfl, List.length_pos_iff.mpr hne, rfl⟩

theorem length_le (hgood : Good nhi) : nhi.values.length ≤ 2 ^ 16 := by
  have hle := hgood.count_le
  rcases length_values hgood with ⟨hlength, -⟩ | ⟨hlength, -⟩ <;> omega

theorem extract_eq (hgood : Good nhi) (buf : Buf) :
    nhi.extract buf = (List.range nhi.values.length).map (nhi.extractElement buf) := by
  unfold NepHidItem.extract
  rcases length_values hgood with ⟨hlength, hvar⟩ | ⟨hlength, -, hvar⟩
  · rw [if_pos hvar, hlength, extractVariable_eq hgood.size_pos hgood.offset_lt]
    rfl
  · rw [hlength, hvar]
    rfl

theorem uword_next (q j : ℕ) : uword (uword (q + 1) + j) = uword (q + (j + 1)) := by
  unfold uword
  omega

def bytesFrom (q n : ℕ) : Set ℕ := {b | ∃ j < n, b / 8 = uword (q + j)}

theorem stamps_encodeBytes (hq : q < 2 ^ 16) (vs : List LONG) :
    Stamps (bytesFrom q vs.length) fun buf => encodeBytes q buf vs := by
  induction vs generalizing q with
  | nil => exact Stamps.id _
  | cons v vs ih =>
    apply Stamps.comp ((Stamps.setByte q v).mono ?_) ((ih (uword_lt (q + 1))).mono ?_)
    · rintro b ⟨hge, hlt⟩
      refine ⟨0, Nat.succ_pos _, ?_⟩
      rw [Nat.add_zero, uword_of_lt hq]
      omega
    · rintro b ⟨j, hj, hb⟩
      exact ⟨j + 1, Nat.succ_lt_succ hj, hb.trans (uword_next q j)⟩

theorem stamps_encodeFlags (o : ℕ) (vs : List LONG) :
    Stamps (Set.Ico o (o + vs.length)) fun buf => encodeFlags o buf vs := by
  induction vs generalizing o with
  | nil => exact Stamps.id _
  | cons v vs ih =>
    apply Stamps.comp ((Stamps.setBit o _).mono ?_) ((ih (o + 1)).mono ?_)
    · apply Set.Ico_subset_Ico_right
      rw [List.length_cons]
      omega
    · rw [List.length_cons]
      apply Set.Ico_subset_Ico <;> omega

theorem stamps_encodeFields (hsize : size ≤ 32) (o : ℕ) (vs : List LONG) :
    Stamps (Set.Ico o (o + size)) fun buf => encodeFields size o buf vs := by
  induction vs with
  | nil => exact Stamps.id _
  | cons v vs ih => exact Stamps.comp (Stamps.writeDown hsize o v) ih

def Straight (nhi : NepHidItem) : Prop :=
  nhi.byteAligned = true → nhi.size = 8 → nhi.offset >>> 3 + nhi.values.length ≤ 2 ^ 16

instance (nhi : NepHidItem) : Decidable (Straight nhi) := by
  unfold Straight
  infer_instance

theorem stamps_nEncodeItemBuffer (hgood : Good nhi) (hstraight : Straight nhi) :
    Stamps nhi.place nhi.nEncodeItemBuffer := by
  have hcount : nhi.values.length ≤ max 1 nhi.count := by
    rcases length_values hgood with ⟨hlength, -⟩ | ⟨hlength, -, -⟩ <;> omega
  have hsub : ∀ n ≤ nhi.size * max 1 nhi.count, Set.Ico nhi.offset (nhi.offset + n) ⊆ nhi.place :=
    fun n hn => Set.Ico_subset_Ico_right (Nat.add_le_add_left hn _)
  rw [funext (nEncodeItemBuffer_eq hgood)]
  by_cases hbyte : (nhi.byteAligned && decide (nhi.size = 8)) = true
  · simp only [if_pos hbyte]
    obtain ⟨haligned, hsize⟩ := Bool.and_eq_true_iff.mp hbyte
    have hoffset := aligned_eq haligned
    rw [decide_eq_true_iff] at hsize
    have hinside := hstraight haligned hsize
    apply (stamps_encodeBytes (offset_byte_lt hgood.offset_lt) _).mono
    rintro b ⟨j, hj, hb⟩
    apply hsub (8 * nhi.values.length) (by rw [hsize]; omega)
    rw [uword_of_lt (by omega)] at hb
    exact ⟨by omega, by omega⟩
  simp only [if_neg hbyte]
  by_cases hone : nhi.size = 1
  · simp only [if_pos hone]
    apply (stamps_encodeFlags _ _).mono (hsub _ _)
    rw [hone]
    omega
  · simp only [if_neg hone]
    apply (stamps_encodeFields hgood.size_le _ _).mono (hsub _ _)
    exact Nat.le_mul_of_pos_right _ (by omega)

theorem bitAt_encodeBytes {vs : List LONG} (hat : vs[i]? = some v) (hlength : vs.length ≤ 2 ^ 16)
    (hp : p < 8) (hq : q < 2 ^ 16) (buf : Buf) :
    bitAt (encodeBytes q buf vs) (uword (q + i) * 8 + p) = v.getLsbD p := by
  induction vs generalizing q i buf with
  | nil => exact absurd hat (by simp)
  | cons w vs ih =>
    unfold encodeBytes
    rw [List.length_cons] at hlength
    cases i with
    | zero =>
      obtain rfl : w = v := some.inj hat
      -- the index comes back to the byte after 65536 values only
      have hnot : q * 8 + p ∉ bytesFrom (uword (q + 1)) vs.length := by
        rintro ⟨j, hj, hb⟩
        rw [uword_next] at hb
        unfold uword at hb
        omega
      rw [show uword (q + 0) = q from uword_of_lt hq, (stamps_encodeBytes (uword_lt _) vs).frame hnot, bitAt_setByte,
        if_pos (by omega)]
      congr 1
      omega
    | succ i =>
      have hrest := ih hat (by omega) (uword_lt (q + 1)) (Function.update buf q (lowByte w))
      rwa [uword_next] at hrest

theorem bitAt_encodeFlags {vs : List LONG} (hat : vs[i]? = some v) (o : ℕ) (buf : Buf) :
    bitAt (encodeFlags o buf vs) (o + i) = decide (v ≠ 0) := by
  induction vs generalizing o i buf with
  | nil => exact absurd hat (by simp)
  | cons w vs ih =>
    unfold encodeFlags
    cases i with
    | zero =>
      obtain rfl : w = v := some.inj hat
      rw [(stamps_encodeFlags (o + 1) vs).frame (by simp only [Set.mem_Ico]; omega), bitAt_setBit,
        if_pos (by omega)]
    | succ i => rw [← ih hat (o + 1), show o + (i + 1) = o + 1 + i by omega]

theorem bitAt_encodeFields {vs : List LONG} (hlast : vs.getLast? = some v) (hsize : size ≤ 32)
    (hp : p < size) (o : ℕ) (buf : Buf) :
    bitAt (encodeFields size o buf vs) (o + p) = v.getLsbD (size - 1 - p) := by
  induction vs generalizing buf with
  | nil => exact absurd hlast (by simp)
  | cons w vs ih =>
    unfold encodeFields
    cases vs with
    | nil =>
      obtain rfl : w = v := some.inj hlast
      unfold encodeFields
      rw [bitAt_writeDown hsize, if_pos (by omega)]
      congr 1
      omega
    | cons w' vs => exact ih (by rwa [List.getLast?_cons_cons] at hlast) _

theorem extractElement_iff (hgood : Good nhi) (hne : nhi.size ≠ 1) (hv : v ∈ nhi.values) (buf : Buf)
    (i : ℕ) : nhi.extractElement buf i = v ↔
      ∀ p < nhi.size, bitAt buf (nhi.fieldStart i + p) = v.getLsbD p := by
  have hsize := hgood.size_pos
  have hle := hgood.size_le
  have hbit := fun p => getLsbD_extractElement hsize hne buf i (p := p)
  unfold fieldBit at hbit
  constructor
  · rintro rfl p hp
    rw [hbit p (by omega), if_pos hp]
  · intro hall
    apply eq_of_getLsbD_eq
    intro p hp
    rw [hbit p hp]
    by_cases hin : p < nhi.size
    · rw [if_pos hin, hall p hin]
    · rw [if_neg hin, (hgood.fits v hv).getLsbD hsize hle hp (by omega), ← hall _ (by omega),
        Nat.add_sub_assoc hsize]

theorem bitValue_iff (h : Fits signed 1 v) : bitValue (decide (v ≠ 0)) = v ↔ v ≠ -1 := by
  constructor
  · rintro heq rfl
    exact absurd heq (by decide)
  · intro hne
    have hhigh := fun p hp => h.getLsbD (p := p) le_rfl (by decide) hp
    have hext : ∀ w : LONG, v.getLsbD 0 = w.getLsbD 0 →
        (∀ p, p < 32 → 1 ≤ p → (signed && v.getLsbD 0) = w.getLsbD p) → v = w := by
      intro w hlow hall
      apply eq_of_getLsbD_eq
      intro p hp
      by_cases hzero : p = 0
      · rw [hzero, hlow]
      · rw [hhigh p hp (by omega), ← hall p hp (by omega)]
    cases hbit : v.getLsbD 0 with
    | false =>
      have hv : v = 0 := by
        apply hext
        · rw [hbit]; rfl
        · intro p hp hge
          rw [hbit, Bool.and_false]
          exact getLsbD_zero.symm
      rw [hv]
      rfl
    | true =>
      cases signed with
      | true =>
        refine absurd (hext (-1) (by rw [hbit]; rfl) fun p hp hge => ?_) hne
        rw [hbit, show (-1 : LONG) = allOnes 32 from rfl, getLsbD_allOnes, decide_eq_true hp]
        rfl
      | false =>
        have hv : v = 1 := by
          apply hext
          · rw [hbit]; rfl
          · intro p hp hge
            rw [Bool.false_and, show (1 : LONG) = 1#32 from rfl, getLsbD_one,
              decide_eq_false (show ¬ p = 0 by omega), Bool.and_false]
        rw [hv]
        rfl

def RoundTrip (nhi : NepHidItem) (buf : Buf) : Prop :=
  nhi.extract (nhi.nEncodeItemBuffer buf) = nhi.values

/-- Whole bytes at whole places come out again, single bits if none is to be −1. Otherwise the first
value has to be the last one from its other end, and what follows has to be in the report already. -/
def Legible (nhi : NepHidItem) (buf : Buf) : Prop :=
  if nhi.byteAligned && nhi.size = 8 then True
  else if nhi.size = 1 then -1 ∉ nhi.values
  else
    (∀ v ∈ nhi.values[0]?, ∀ w ∈ nhi.values.getLast?,
      ∀ p < nhi.size, w.getLsbD (nhi.size - 1 - p) = v.getLsbD p) ∧
    ∀ i, ∀ v ∈ nhi.values[i + 1]?,
      ∀ p < nhi.size, bitAt buf (nhi.offset + (i + 1) * nhi.size + p) = v.getLsbD p

theorem map_range_eq {f : ℕ → LONG} {vs : List LONG} :
    (List.range vs.length).map f = vs ↔ ∀ i, ∀ v ∈ vs[i]?, f i = v := by
  constructor
  · intro heq i v hat
    obtain ⟨hi, hv⟩ := List.getElem?_eq_some_iff.mp hat
    rw [← hv]
    conv_rhs => rw [List.getElem_of_eq heq.symm hi]
    rw [List.getElem_map, List.getElem_range]
  · intro hall
    apply List.ext_getElem (by rw [List.length_map, List.length_range])
    intro i hi hi'
    rw [List.getElem_map, List.getElem_range]
    exact hall i _ (List.getElem?_eq_getElem hi')

theorem roundTrip_iff (hgood : Good nhi) (buf : Buf) : RoundTrip nhi buf ↔ Legible nhi buf := by
  have hmem : ∀ {i v}, v ∈ nhi.values[i]? → v ∈ nhi.values := fun hat => List.mem_of_getElem? hat
  unfold RoundTrip Legible
  rw [extract_eq hgood, map_range_eq, nEncodeItemBuffer_eq hgood]
  by_cases hbyte : (nhi.byteAligned && decide (nhi.size = 8)) = true
  · simp only [if_pos hbyte]
    obtain ⟨haligned, hsize⟩ := Bool.and_eq_true_iff.mp hbyte
    have hoffset := aligned_eq haligned
    rw [decide_eq_true_iff] at hsize
    rw [iff_true]
    intro i v hat
    rw [extractElement_iff hgood (by omega) (hmem hat)]
    intro p hp
    unfold NepHidItem.fieldStart
    rw [if_pos hbyte]
    exact bitAt_encodeBytes hat (length_le hgood) (by omega) (offset_byte_lt hgood.offset_lt) _
  simp only [if_neg hbyte]
  by_cases hone : nhi.size = 1
  · simp only [if_pos hone]
    have hflag : ∀ i, ∀ v ∈ nhi.values[i]?,
        (nhi.extractElement (encodeFlags nhi.offset buf nhi.values) i = v ↔ v ≠ -1) := by
      intro i v hat
      have hfits := hgood.fits v (hmem hat)
      rw [hone] at hfits
      unfold extractElement
      rw [if_neg hbyte, if_pos hone, bitAt_encodeFlags hat]
      exact bitValue_iff hfits
    constructor
    · intro hall hin
      obtain ⟨i, hat⟩ := List.mem_iff_getElem?.mp hin
      exact (hflag i _ hat).mp (hall i _ hat) rfl
    · intro hnone i v hat
      apply (hflag i v hat).mpr
      rintro rfl
      exact hnone (hmem hat)
  simp only [if_neg hone]
  have hplace : ∀ i, nhi.fieldStart i = nhi.offset + i * nhi.size := fun i => if_neg hbyte
  have hfirst : ∀ v ∈ nhi.values[0]?, ∀ w ∈ nhi.values.getLast?,
      (nhi.extractElement (encodeFields nhi.size nhi.offset buf nhi.values) 0 = v ↔
        ∀ p < nhi.size, w.getLsbD (nhi.size - 1 - p) = v.getLsbD p) := by
    intro v hat w hlast
    rw [extractElement_iff hgood hone (hmem hat), hplace, Nat.zero_mul, Nat.add_zero]
    apply forall₂_congr
    intro p hp
    rw [bitAt_encodeFields hlast hgood.size_le hp]
  have hnext : ∀ i, ∀ v ∈ nhi.values[i + 1]?,
      (nhi.extractElement (encodeFields nhi.size nhi.offset buf nhi.values) (i + 1) = v ↔
        ∀ p < nhi.size, bitAt buf (nhi.offset + (i + 1) * nhi.size + p) = v.getLsbD p) := by
    intro i v hat
    rw [extractElement_iff hgood hone (hmem hat), hplace]
    apply forall₂_congr
    intro p hp
    rw [(stamps_encodeFields hgood.size_le nhi.offset nhi.values).frame]
    rw [Set.mem_Ico, Nat.add_mul]
    omega
  constructor
  · intro hall
    exact ⟨fun v hat w hlast => (hfirst v hat w hlast).mp (hall 0 v hat),
      fun i v hat => (hnext i v hat).mp (hall (i + 1) v hat)⟩
  · rintro ⟨hzero, hsucc⟩ i v hat
    cases i with
    | zero =>
      obtain ⟨w, hlast⟩ := (⟨_, List.getLast?_eq_some_getLast hgood.values_ne⟩ : ∃ w, nhi.values.getLast? = some w)
      exact (hfirst v hat w hlast).mpr (hzero v hat w hlast)
    | succ i => exact (hnext i v hat).mpr (hsucc i v hat)

def Framed (nhi : NepHidItem) : Prop :=
  ∀ buf, ∀ i ∉ nhi.place, bitAt (nhi.nEncodeItemBuffer buf) i = bitAt buf i

theorem framed_iff (hgood : Good nhi) : Framed nhi ↔ Straight nhi := by
  constructor
  · intro hframe haligned hsize
    by_contra hlong
    have hoffset := aligned_eq haligned
    have hle := length_le hgood
    have hlt := offset_byte_lt hgood.offset_lt
    -- the value that goes into the first byte of the report
    have hwrap : uword (nhi.offset >>> 3 + (2 ^ 16 - nhi.offset >>> 3)) = 0 := by
      rw [Nat.add_sub_of_le hlt.le]
      rfl
    obtain ⟨v, hat⟩ : ∃ v, nhi.values[2 ^ 16 - nhi.offset >>> 3]? = some v := ⟨_, List.getElem?_eq_getElem (by omega)⟩
    have hfirst : (0 : ℕ) ∉ nhi.place := by
      rintro ⟨hge, -⟩
      rcases length_values hgood with ⟨hlength, -⟩ | ⟨hlength, -⟩ <;> omega
    have hwritten : ∀ buf, bitAt (nhi.nEncodeItemBuffer buf) 0 = v.getLsbD 0 := by
      intro buf
      rw [nEncodeItemBuffer_eq hgood, if_pos (by rw [haligned, hsize]; rfl)]
      have hbit := bitAt_encodeBytes hat hle (by decide : 0 < 8) hlt buf
      rwa [hwrap] at hbit
    have hzero := (hwritten fun _ => 0).symm.trans (hframe _ 0 hfirst)
    have hone := (hwritten fun _ => 1).symm.trans (hframe _ 0 hfirst)
    rw [hzero] at hone
    exact absurd hone (by decide)
  · intro hstraight buf i hi
    exact (stamps_nEncodeItemBuffer hgood hstraight).frame hi buf

def encodeItems (items : List NepHidItem) (buf : Buf) : Buf :=
  items.foldl (fun buf nhi => nhi.nEncodeItemBuffer buf) buf

theorem encode_perm {items items' : List NepHidItem} (hgood : ∀ nhi ∈ items, Good nhi)
    (hstraight : ∀ nhi ∈ items, Straight nhi)
    (hdisj : items.Pairwise fun nhi nhi' => Disjoint nhi.place nhi'.place) (hperm : items.Perm items')
    (buf : Buf) : encodeItems items buf = encodeItems items' buf := by
  apply hperm.foldl_eq'
  intro nhi hin nhi' hin' buf
  have : Std.Symm fun nhi nhi' : NepHidItem => Disjoint nhi.place nhi'.place := ⟨fun _ _ h => h.symm⟩
  by_cases heq : nhi = nhi'
  · rw [heq]
  · exact (stamps_nEncodeItemBuffer (hgood nhi hin) (hstraight nhi hin)).comm
      (stamps_nEncodeItemBuffer (hgood nhi' hin') (hstraight nhi' hin')) (hdisj.forall hin hin' heq) buf

/-- The values of an item come out again if, and only if, the item is legible. No other bit is touched,
and the items of a report may be put in in any order, if, and only if, none of them wraps. -/
theorem encode_inverse (items : List NepHidItem) (hgood : ∀ nhi ∈ items, Good nhi) :
    (∀ nhi ∈ items, ∀ buf, RoundTrip nhi buf ↔ Legible nhi buf) ∧
    ((∀ nhi ∈ items, Framed nhi) ∧
      ((items.Pairwise fun nhi nhi' => Disjoint nhi.place nhi'.place) → ∀ items', items.Perm items' →
        ∀ buf, encodeItems items buf = encodeItems items' buf) ↔ ∀ nhi ∈ items, Straight nhi) := by
  refine ⟨fun nhi hin buf => roundTrip_iff (hgood nhi hin) buf, fun h nhi hin => ?_, fun h => ⟨?_, ?_⟩⟩
  · exact (framed_iff (hgood nhi hin)).mp (h.1 nhi hin)
  · exact fun nhi hin => (framed_iff (hgood nhi hin)).mpr (h nhi hin)
  · exact fun hdisj items' hperm buf => encode_perm hgood h hdisj hperm buf

def fourBits : NepHidItem where
  isVariable := true
  offset := 4
  size := 4
  isSigned := false
  logicalMin := 0
  logicalMax := 15
  usage := 0x00010039
  usageMap := []
  oldValue := 1
  buffer := []
  oldBuffer := []

def keys : NepHidItem :=
  { fourBits with
    isVariable := false, offset := 16, size := 8, logicalMax := 255, usageMap := [0, 0, 0, 0, 0x00070004]
    buffer := [4, 0], oldBuffer := [0, 0] }

theorem fourBits_good : Good fourBits where
  offset_lt := by decide
  count_le := by decide
  size_pos := by decide
  size_le := by decide
  values_ne := by decide
  inRange := List.forall_mem_singleton.mpr (by decide)
  fits := List.forall_mem_singleton.mpr (by decide)

theorem keys_good : Good keys where
  offset_lt := by decide
  count_le := by decide
  size_pos := by decide
  size_le := by decide
  values_ne := by decide
  inRange := List.forall_mem_cons.mpr ⟨by decide, List.forall_mem_singleton.mpr (by decide)⟩
  fits := List.forall_mem_cons.mpr ⟨by decide, List.forall_mem_singleton.mpr (by decide)⟩

theorem keys_legible (buf : Buf) : Legible keys buf := trivial

theorem encode_inverse_keys :
    RoundTrip keys (fun _ => 0) ∧ Framed keys ∧
    ∀ buf, encodeItems [keys, fourBits] buf = encodeItems [fourBits, keys] buf := by
  have hgood : ∀ nhi ∈ [keys, fourBits], Good nhi :=
    List.forall_mem_cons.mpr ⟨keys_good, List.forall_mem_singleton.mpr fourBits_good⟩
  have hstraight : ∀ nhi ∈ [keys, fourBits], Straight nhi :=
    List.forall_mem_cons.mpr ⟨by decide, List.forall_mem_singleton.mpr (by decide)⟩
  obtain ⟨hround, hkept⟩ := encode_inverse [keys, fourBits] hgood
  obtain ⟨hframe, hperm⟩ := hkept.mpr hstraight
  refine ⟨(hround keys List.mem_cons_self _).mpr (keys_legible _), hframe keys List.mem_cons_self, ?_⟩
  apply hperm
  · apply List.pairwise_pair.mpr
    apply Set.disjoint_left.mpr
    rintro i ⟨hge, -⟩ ⟨-, hlt⟩
    change 16 ≤ i at hge
    change i < 8 at hlt
    omega
  · exact List.Perm.swap _ _ _

/-- A 1 goes out as 8. -/
theorem encode_reversed : Good fourBits ∧ ¬ RoundTrip fourBits (fun _ => 0) ∧
    fourBits.extract (fourBits.nEncodeItemBuffer fun _ => 0) = [8] := by
  refine ⟨fourBits_good, ?_, ?_⟩
  · unfold RoundTrip
    decide
  · decide

theorem legible_congr (hgood : Good nhi) (h : ∀ b ∈ nhi.place, bitAt buf b = bitAt buf' b) :
    Legible nhi buf ↔ Legible nhi buf' := by
  unfold Legible
  split
  · exact Iff.rfl
  split
  · exact Iff.rfl
  refine and_congr_right fun _ => forall_congr' fun i => forall₂_congr fun v hat => forall₂_congr fun p hp => ?_
  have hi : i + 1 < nhi.values.length := (List.getElem?_eq_some_iff.mp hat).1
  rw [h]
  rcases length_values hgood with ⟨hlength, -⟩ | ⟨hlength, hcount, -⟩
  · omega
  · have hend : (i + 1) * nhi.size + nhi.size ≤ nhi.size * max 1 nhi.count := by
      rw [← Nat.succ_mul, Nat.mul_comm, max_eq_right hcount]
      exact Nat.mul_le_mul_left _ (by omega)
    exact ⟨by omega, by omega⟩

def field (buf : Buf) : (size : ℕ) → ℕ → BitVec size
  | 0, _ => 0#0
  | size + 1, o => (field buf size (o + 1)).concat (bitAt buf o)

def fieldValue (buf : Buf) (signed : Bool) (size o : ℕ) : LONG :=
  if signed then (field buf size o).signExtend 32 else (field buf size o).setWidth 32

def NepHidItem.fieldValues (nhi : NepHidItem) (buf : Buf) : List LONG :=
  (List.range nhi.values.length).map fun i => fieldValue buf nhi.isSigned nhi.size (nhi.offset + i * nhi.size)

def NepHidItem.fieldBits (nhi : NepHidItem) : Set ℕ :=
  {b | ∃ i < nhi.values.length, nhi.offset + i * nhi.size ≤ b ∧ b < nhi.offset + (i + 1) * nhi.size}

theorem getLsbD_field (buf : Buf) (size o p : ℕ) :
    (field buf size o).getLsbD p = (decide (p < size) && bitAt buf (o + p)) := by
  induction size generalizing o p with
  | zero =>
    exact getLsbD_zero
  | succ size ih =>
    unfold field
    rw [getLsbD_concat]
    cases p with
    | zero => simp
    | succ p =>
      rw [if_neg (Nat.succ_ne_zero p), Nat.add_sub_cancel, ih, show o + 1 + p = o + (p + 1) by omega]
      congr 1
      exact decide_eq_decide.mpr (Nat.succ_lt_succ_iff).symm

theorem getLsbD_fieldValue (hsize : 1 ≤ size) (hp : p < 32) :
    (fieldValue buf signed size o).getLsbD p = fieldBit buf signed size o p := by
  unfold fieldValue fieldBit
  cases signed with
  | false =>
    rw [if_neg Bool.false_ne_true, getLsbD_setWidth, decide_eq_true hp, Bool.true_and, getLsbD_field]
    by_cases hin : p < size
    · rw [if_pos hin, decide_eq_true hin, Bool.true_and]
    · rw [if_neg hin, decide_eq_false hin, Bool.false_and, Bool.false_and]
  | true =>
    rw [if_pos rfl, getLsbD_signExtend, decide_eq_true hp, Bool.true_and, getLsbD_field,
      msb_eq_getLsbD_last, getLsbD_field, decide_eq_true (by omega : size - 1 < size), Bool.true_and,
      Bool.true_and, ← Nat.add_sub_assoc hsize]
    by_cases hin : p < size
    · rw [if_pos hin, if_pos hin, decide_eq_true hin, Bool.true_and]
    · rw [if_neg hin, if_neg hin]

theorem fieldValue_congr (h : ∀ p < size, bitAt buf (o + p) = bitAt buf' (o + p)) :
    fieldValue buf signed size o = fieldValue buf' signed size o := by
  have hfield : field buf size o = field buf' size o := by
    apply eq_of_getLsbD_eq
    intro p hp
    rw [getLsbD_field, getLsbD_field, h p hp]
  unfold fieldValue
  rw [hfield]

/-- What the source's types and `nParseReport` make sure of, and the sizes that a `LONG` holds. -/
structure Extractable (nhi : NepHidItem) : Prop where
  offset_lt : nhi.offset < 2 ^ 16
  size_pos : 1 ≤ nhi.size
  size_le : nhi.size ≤ 32
  count : nhi.isVariable = false → 1 ≤ nhi.count ∧ nhi.count ≤ 65535

theorem Extractable.length (h : Extractable nhi) :
    nhi.values.length = 1 ∧ nhi.isVariable = true ∨
      nhi.values.length = nhi.count ∧ 1 ≤ nhi.count ∧ nhi.count ≤ 65535 ∧ nhi.isVariable = false := by
  unfold NepHidItem.values
  cases hvar : nhi.isVariable with
  | true => exact .inl ⟨rfl, rfl⟩
  | false => exact .inr ⟨rfl, (h.count hvar).1, (h.count hvar).2, rfl⟩

theorem Extractable.extract_eq (h : Extractable nhi) (buf : Buf) :
    nhi.extract buf = (List.range nhi.values.length).map (nhi.extractElement buf) := by
  unfold NepHidItem.extract
  rcases h.length with ⟨hlength, hvar⟩ | ⟨hlength, -, -, hvar⟩
  · rw [if_pos hvar, hlength, extractVariable_eq h.size_pos h.offset_lt]
    rfl
  · rw [hlength, hvar]
    rfl

theorem fieldStart_straight (hstraight : Straight nhi) (hi : i < nhi.values.length) :
    nhi.fieldStart i = nhi.offset + i * nhi.size := by
  by_cases hbyte : (nhi.byteAligned && decide (nhi.size = 8)) = true
  · obtain ⟨haligned, hsize⟩ := Bool.and_eq_true_iff.mp hbyte
    have hinside := hstraight haligned (of_decide_eq_true hsize)
    exact fieldStart_eq (by omega)
  · exact if_neg hbyte

def SignedBit (nhi : NepHidItem) : Prop := nhi.size = 1 ∧ nhi.isSigned = true

instance (nhi : NepHidItem) : Decidable (SignedBit nhi) := by
  unfold SignedBit
  infer_instance

theorem extractElement_flag (hone : nhi.size = 1) (buf : Buf) (i : ℕ) :
    nhi.extractElement buf i = bitValue (bitAt buf (nhi.offset + i)) := by
  unfold extractElement
  simp [hone]

theorem extractElement_field (h : Extractable nhi) (hstraight : Straight nhi) (hbit : ¬ SignedBit nhi)
    (hi : i < nhi.values.length) (buf : Buf) :
    nhi.extractElement buf i = fieldValue buf nhi.isSigned nhi.size (nhi.offset + i * nhi.size) := by
  apply eq_of_getLsbD_eq
  intro p hp
  rw [getLsbD_fieldValue h.size_pos hp]
  by_cases hone : nhi.size = 1
  · have hsigned : nhi.isSigned = false := Bool.eq_false_of_not_eq_true fun hs => hbit ⟨hone, hs⟩
    rw [extractElement_flag hone, hsigned, hone, Nat.mul_one]
    unfold bitValue fieldBit
    rw [getLsbD_setWidth, decide_eq_true hp, Bool.true_and, getLsbD_ofBool, Bool.false_and]
    by_cases hzero : p = 0
    · simp [hzero]
    · rw [if_neg (by omega), decide_eq_false hzero, Bool.false_and]
  · rw [getLsbD_extractElement h.size_pos hone buf i hp, fieldStart_straight hstraight hi]

def Exact (nhi : NepHidItem) : Prop := ∀ buf, nhi.extract buf = nhi.fieldValues buf

def Unmoved (nhi : NepHidItem) : Prop :=
  ∀ buf buf', (∀ b ∈ nhi.fieldBits, bitAt buf b = bitAt buf' b) → nhi.extract buf = nhi.extract buf'

theorem Exact.unmoved (h : Exact nhi) : Unmoved nhi := by
  intro buf buf' hsame
  rw [h buf, h buf']
  apply List.map_congr_left
  intro i hi
  apply fieldValue_congr
  intro p hp
  refine hsame _ ⟨i, List.mem_range.mp hi, Nat.le_add_right _ _, ?_⟩
  rw [Nat.succ_mul]
  omega

section

variable (h : Extractable nhi) (hexact : Exact nhi)
include h hexact

theorem Exact.element (hi : i < nhi.values.length) (buf : Buf) :
    nhi.extractElement buf i = fieldValue buf nhi.isSigned nhi.size (nhi.offset + i * nhi.size) := by
  have hmap := (h.extract_eq buf).symm.trans (hexact buf)
  exact List.map_inj_left.mp hmap i (List.mem_range.mpr hi)

/-- The value whose index wraps is byte 0 of the report. -/
theorem straight_of_exact : Straight nhi := by
  intro haligned hsize
  by_contra hlong
  have hoffset := aligned_eq haligned
  have hlt := offset_byte_lt h.offset_lt
  have hi : 2 ^ 16 - nhi.offset >>> 3 < nhi.values.length := by omega
  have hone : nhi.size ≠ 1 := by omega
  have hwrap : nhi.fieldStart (2 ^ 16 - nhi.offset >>> 3) = 0 := by
    unfold NepHidItem.fieldStart byteAt
    rw [if_pos (by rw [haligned, hsize]; rfl), Nat.add_sub_of_le hlt.le]
    rfl
  have hfield : nhi.offset + (2 ^ 16 - nhi.offset >>> 3) * nhi.size = 2 ^ 16 * 8 := by
    rw [hsize]
    omega
  have helement := hexact.element h hi (Function.update (fun _ => 0) 0 1)
  have hlow := congrArg (fun v : LONG => v.getLsbD 0) helement
  rw [getLsbD_extractElement h.size_pos hone _ _ (by decide), hwrap, hfield,
    getLsbD_fieldValue h.size_pos (by decide)] at hlow
  unfold fieldBit at hlow
  have hpos : 0 < nhi.size := h.size_pos
  rw [if_pos hpos, if_pos hpos] at hlow
  exact absurd hlow (by decide)

theorem not_signedBit_of_exact : ¬ SignedBit nhi := by
  rintro ⟨hone, hsigned⟩
  have hi : 0 < nhi.values.length := by
    rcases h.length with ⟨hlength, -⟩ | ⟨hlength, hne, -⟩ <;> omega
  have hset : bitAt (fun _ => 255) nhi.offset = true := by
    have hand : nhi.offset &&& 7 < 8 := by
      rw [and_seven]
      omega
    have hall : ∀ r : Fin 8, (255 : UInt8).toBitVec.getLsbD r = true := by decide
    exact hall ⟨_, hand⟩
  have helement := hexact.element h hi fun _ => 255
  have hhigh := congrArg (fun v : LONG => v.getLsbD 1) helement
  rw [extractElement_flag hone, getLsbD_fieldValue h.size_pos (by decide), Nat.zero_mul, Nat.add_zero, hone,
    hsigned, hset] at hhigh
  unfold fieldBit at hhigh
  rw [if_neg (by decide), Nat.add_sub_cancel, hset] at hhigh
  exact absurd hhigh (by decide)

end

/-- The values are the fields, and nothing else has any influence on them, if, and only if, the item is
not a signed bit and the index of its bytes does not wrap. -/
theorem extract_exact (nhi : NepHidItem) (h : Extractable nhi) :
    Exact nhi ∧ Unmoved nhi ↔ ¬ SignedBit nhi ∧ Straight nhi := by
  constructor
  · rintro ⟨hexact, -⟩
    exact ⟨not_signedBit_of_exact h hexact, straight_of_exact h hexact⟩
  · rintro ⟨hbit, hstraight⟩
    have hexact : Exact nhi := by
      intro buf
      rw [h.extract_eq]
      apply List.map_congr_left
      intro i hi
      exact extractElement_field h hstraight hbit (List.mem_range.mp hi) buf
    exact ⟨hexact, hexact.unmoved⟩

def signedButton : NepHidItem :=
  { fourBits with size := 1, isSigned := true, logicalMin := -1, logicalMax := 0 }

theorem signedButton_extractable : Extractable signedButton where
  offset_lt := by decide
  size_pos := by decide
  size_le := by decide
  count := nofun

theorem extract_exact_keys : Extractable keys ∧ Exact keys ∧ Unmoved keys := by
  have h : Extractable keys :=
    { offset_lt := by decide, size_pos := by decide, size_le := by decide, count := fun _ => by decide }
  exact ⟨h, (extract_exact keys h).mpr ⟨by decide, by decide⟩⟩

/-- A set bit is 1, and −1 as the field has it. -/
theorem signed_bit_lost : Extractable signedButton ∧
    signedButton.extract (fun _ => 0x10) = [1] ∧ signedButton.fieldValues (fun _ => 0x10) = [-1] ∧
    ¬ Exact signedButton := by
  have hcode : signedButton.extract (fun _ => 0x10) = [1] := by decide
  have hfield : signedButton.fieldValues (fun _ => 0x10) = [-1] := by decide
  refine ⟨signedButton_extractable, hcode, hfield, fun hexact => ?_⟩
  have heq := hexact fun _ => 0x10
  exact absurd heq (by decide)

end Hid

end Neptune
