import Mathlib

/-! Fields of bits in a buffer of bytes, bit 0 of a byte first: single bits, whole bytes, and the loops
that write and read a field from its last bit to its first. -/

namespace BitField

open Function BitVec

abbrev Buf := ℕ → UInt8

/-- A word of 32 bits. -/
abbrev Word := BitVec 32

variable {buf buf' : Buf} {i j k n p : ℕ}

def bitAt (buf : Buf) (i : ℕ) : Bool := (buf (i >>> 3)).toBitVec.getLsbD (i &&& 7)

def setBit (buf : Buf) (i : ℕ) (b : Bool) : Buf :=
  let mask : UInt8 := 1 <<< UInt8.ofNat (i &&& 7)
  let cleared := buf (i >>> 3) &&& ~~~mask
  Function.update buf (i >>> 3) (if b then cleared ||| mask else cleared)

theorem and_seven (i : ℕ) : i &&& 7 = i % 8 := Nat.and_two_pow_sub_one_eq_mod i 3

theorem shiftRight_three (i : ℕ) : i >>> 3 = i / 8 := Nat.shiftRight_eq_div_pow i 3

theorem eq_of_place (hbyte : i >>> 3 = j >>> 3) (hbit : i &&& 7 = j &&& 7) : i = j := by
  rw [and_seven, and_seven] at hbit
  omega

theorem getLsbD_mask (hk : k < 8) (hj : j < 8) :
    ((1 : UInt8) <<< UInt8.ofNat k).toBitVec.getLsbD j = decide (j = k) := by
  have hall : ∀ k j : Fin 8,
      ((1 : UInt8) <<< UInt8.ofNat k.1).toBitVec.getLsbD j.1 = decide (j.1 = k.1) := by decide
  exact hall ⟨k, hk⟩ ⟨j, hj⟩

theorem bitAt_setBit (buf : Buf) (i j : ℕ) (b : Bool) :
    bitAt (setBit buf i b) j = if j = i then b else bitAt buf j := by
  have hj : j &&& 7 < 8 := by rw [and_seven]; omega
  have hi : i &&& 7 < 8 := by rw [and_seven]; omega
  have hmask := getLsbD_mask hi hj
  unfold bitAt setBit
  generalize (1 : UInt8) <<< UInt8.ofNat (i &&& 7) = mask at hmask ⊢
  by_cases hbyte : j >>> 3 = i >>> 3
  · simp only [hbyte, update_self]
    by_cases hbit : j &&& 7 = i &&& 7
    · rw [if_pos (eq_of_place hbyte hbit)]
      rw [decide_eq_true hbit] at hmask
      cases b <;> simp [-getLsbD_eq_getElem, hmask, hj]
    · rw [if_neg fun h : j = i => hbit (by rw [h])]
      rw [decide_eq_false hbit] at hmask
      cases b <;> simp [-getLsbD_eq_getElem, hmask, hj]
  · rw [if_neg fun h : j = i => hbyte (by rw [h]), update_of_ne hbyte]

theorem ext_bits (h : ∀ i, bitAt buf i = bitAt buf' i) : buf = buf' := by
  funext q
  apply UInt8.toBitVec_inj.mp
  apply eq_of_getLsbD_eq
  intro r hr
  have hbyte : (q * 8 + r) >>> 3 = q := by rw [shiftRight_three]; omega
  have hbit : (q * 8 + r) &&& 7 = r := by rw [and_seven]; omega
  have hi := h (q * 8 + r)
  unfold bitAt at hi
  rwa [hbyte, hbit] at hi

theorem bitAt_byte (buf : Buf) (q : ℕ) (hp : p < 8) :
    bitAt buf (q * 8 + p) = (buf q).toBitVec.getLsbD p := by
  have hbyte : (q * 8 + p) >>> 3 = q := by rw [shiftRight_three]; omega
  have hbit : (q * 8 + p) &&& 7 = p := by rw [and_seven]; omega
  unfold bitAt
  rw [hbyte, hbit]

def lowByte (v : Word) : UInt8 := ⟨v.setWidth 8⟩

theorem bitAt_setByte (buf : Buf) (q j : ℕ) (v : Word) :
    bitAt (update buf q (lowByte v)) j =
      if q * 8 ≤ j ∧ j < q * 8 + 8 then v.getLsbD (j - q * 8) else bitAt buf j := by
  unfold bitAt
  by_cases hbyte : j >>> 3 = q
  · rw [hbyte, update_self]
    rw [shiftRight_three] at hbyte
    have hbit : j &&& 7 = j - q * 8 := by rw [and_seven]; omega
    rw [if_pos (by omega), hbit]
    unfold lowByte
    rw [getLsbD_setWidth, decide_eq_true (show j - q * 8 < 8 by omega), Bool.true_and]
  · rw [update_of_ne hbyte]
    rw [shiftRight_three] at hbyte
    rw [if_neg (by omega)]

/-- `n` bits are written below bit `i`, the lowest bit of the word first. -/
def writeDown (n i : ℕ) (v : Word) (buf : Buf) : Buf :=
  match n with
  | 0 => buf
  | n + 1 => writeDown n (i - 1) (v.sshiftRight 1) (setBit buf (i - 1) (v.getLsbD 0))

/-- `n` bits are read below bit `i`, the highest bit of the word first. -/
def readDown (buf : Buf) (n i : ℕ) (v : Word) : Word :=
  match n with
  | 0 => v
  | n + 1 => readDown buf n (i - 1) ((v <<< 1) ||| (BitVec.ofBool (bitAt buf (i - 1))).setWidth 32)

theorem getLsbD_sshiftRight_one (v : Word) (hp : p + 1 < 32) :
    (v.sshiftRight 1).getLsbD p = v.getLsbD (p + 1) := by
  rw [getLsbD_sshiftRight]
  simp only [show 1 + p = p + 1 from Nat.add_comm 1 p, hp, if_true, show ¬ 32 ≤ p by omega, decide_false,
    Bool.not_false, Bool.true_and]

theorem bitAt_writeDown (hn : n ≤ 32) (i : ℕ) (v : Word) (buf : Buf) (j : ℕ) :
    bitAt (writeDown n (i + n) v buf) j =
      if i ≤ j ∧ j < i + n then v.getLsbD (i + n - 1 - j) else bitAt buf j := by
  induction n generalizing v buf with
  | zero => rw [if_neg (by omega)]; rfl
  | succ n ih =>
    unfold writeDown
    rw [show i + (n + 1) - 1 = i + n by omega, ih (by omega), bitAt_setBit]
    by_cases hin : i ≤ j ∧ j < i + n
    · rw [if_pos hin, if_pos (by omega), getLsbD_sshiftRight_one v (by omega)]
      congr 1
      omega
    · rw [if_neg hin]
      by_cases hlast : j = i + n
      · rw [if_pos hlast, if_pos (by omega), hlast, Nat.sub_self]
      · rw [if_neg hlast, if_neg (by omega)]

theorem getLsbD_shiftIn (v : Word) (b : Bool) (hp : p < 32) :
    ((v <<< 1) ||| (ofBool b).setWidth 32).getLsbD p = if p = 0 then b else v.getLsbD (p - 1) := by
  rw [getLsbD_or, getLsbD_shiftLeft, getLsbD_setWidth]
  cases p with
  | zero => cases b <;> rfl
  | succ p =>
    simp [-getLsbD_eq_getElem, hp]

theorem getLsbD_readDown (buf : Buf) (n i : ℕ) (v : Word) (hp : p < 32) :
    (readDown buf n (i + n) v).getLsbD p = if p < n then bitAt buf (i + p) else v.getLsbD (p - n) := by
  induction n generalizing v p with
  | zero => rfl
  | succ n ih =>
    unfold readDown
    rw [show i + (n + 1) - 1 = i + n by omega, ih _ hp]
    by_cases hin : p < n
    · rw [if_pos hin, if_pos (by omega)]
    · rw [if_neg hin, getLsbD_shiftIn v _ (by omega)]
      by_cases hlast : p = n
      · rw [if_pos (by omega), if_pos (by omega), hlast]
      · rw [if_neg (by omega), if_neg (by omega)]
        congr 1

/-- Each bit in `S` is left alone or comes out as `f` has it, whatever it was; the others are left
alone. -/
def Stamps (S : Set ℕ) (f : Buf → Buf) : Prop :=
  ∀ j, (∀ buf, bitAt (f buf) j = bitAt buf j) ∨ j ∈ S ∧ ∃ b, ∀ buf, bitAt (f buf) j = b

namespace Stamps

variable {S T : Set ℕ} {f g : Buf → Buf}

theorem id (S : Set ℕ) : Stamps S fun buf => buf := fun _ => .inl fun _ => rfl

theorem comp (hf : Stamps S f) (hg : Stamps S g) : Stamps S fun buf => g (f buf) := by
  intro j
  rcases hg j with hkeep | ⟨hin, b, hb⟩
  · rcases hf j with hkeep' | ⟨hin, b, hb⟩
    · exact .inl fun buf => (hkeep (f buf)).trans (hkeep' buf)
    · exact .inr ⟨hin, b, fun buf => (hkeep (f buf)).trans (hb buf)⟩
  · exact .inr ⟨hin, b, fun buf => hb (f buf)⟩

theorem mono (hf : Stamps S f) (hsub : S ⊆ T) : Stamps T f := by
  intro j
  rcases hf j with hkeep | ⟨hin, hb⟩
  · exact .inl hkeep
  · exact .inr ⟨hsub hin, hb⟩

theorem frame (hf : Stamps S f) (hj : j ∉ S) (buf : Buf) : bitAt (f buf) j = bitAt buf j := by
  rcases hf j with hkeep | ⟨hin, -⟩
  · exact hkeep buf
  · exact absurd hin hj

theorem comm (hf : Stamps S f) (hg : Stamps T g) (hdisj : Disjoint S T) (buf : Buf) :
    g (f buf) = f (g buf) := by
  apply ext_bits
  intro j
  rcases hf j with hkeep | ⟨hin, b, hb⟩
  · rw [hkeep]
    rcases hg j with hkeep' | ⟨-, b, hb⟩
    · rw [hkeep', hkeep', hkeep]
    · rw [hb, hb]
  · rw [hb, hg.frame (Set.disjoint_left.mp hdisj hin), hb]

theorem setBit (i : ℕ) (b : Bool) : Stamps (Set.Ico i (i + 1)) fun buf => setBit buf i b := by
  intro j
  by_cases heq : j = i
  · exact .inr ⟨⟨by omega, by omega⟩, b, fun buf => by rw [bitAt_setBit, if_pos heq]⟩
  · exact .inl fun buf => by rw [bitAt_setBit, if_neg heq]

theorem setByte (q : ℕ) (v : Word) :
    Stamps (Set.Ico (q * 8) (q * 8 + 8)) fun buf => update buf q (lowByte v) := by
  intro j
  by_cases hin : q * 8 ≤ j ∧ j < q * 8 + 8
  · exact .inr ⟨hin, _, fun buf => by rw [bitAt_setByte, if_pos hin]⟩
  · exact .inl fun buf => by rw [bitAt_setByte, if_neg hin]

theorem writeDown (hn : n ≤ 32) (i : ℕ) (v : Word) :
    Stamps (Set.Ico i (i + n)) fun buf => writeDown n (i + n) v buf := by
  intro j
  by_cases hin : i ≤ j ∧ j < i + n
  · exact .inr ⟨hin, _, fun buf => by rw [bitAt_writeDown hn, if_pos hin]⟩
  · exact .inl fun buf => by rw [bitAt_writeDown hn, if_neg hin]

end Stamps

end BitField
