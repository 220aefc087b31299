import Neptune.Spec.BlockIo

/-! The emulation of small blocks moves every byte of a request, up to the last piece: a direct piece
that is no multiple of the block size loses what is over. -/

namespace Neptune.BlockIo

open Bytes (copy)

variable {ω : Type*} {ncm : NepClassMS} {io : IOStdReq} {n : ℕ}

theorem decode_cmd10 {startblock : ℕ} (hlt : startblock < 2 ^ 32) (iswrite : Bool) (hi lo : UInt8) :
    decode (cmd10 iswrite startblock hi lo) =
      some ⟨iswrite, startblock, hi.toNat * 256 + lo.toNat⟩ := by
  have hlba : bytesAt (cmd10 iswrite startblock hi lo) 2 4 = startblock := by
    change Bytes.ofBE (Bytes.toBE 4 startblock) = startblock
    rw [Bytes.ofBE_toBE]
    exact Nat.mod_eq_of_lt (by omega)
  have hcount : bytesAt (cmd10 iswrite startblock hi lo) 7 2 = hi.toNat * 256 + lo.toNat := by
    change Bytes.ofBE [hi, lo] = _
    simp [Bytes.ofBE]
  have hdecode : decode (cmd10 iswrite startblock hi lo) =
      some ⟨iswrite, bytesAt (cmd10 iswrite startblock hi lo) 2 4,
        bytesAt (cmd10 iswrite startblock hi lo) 7 2⟩ := by
    cases iswrite <;> rfl
  rw [hdecode, hlba, hcount]

structure Sized (ncm : NepClassMS) : Prop where
  min : 9 ≤ ncm.blockShift
  max : ncm.blockShift ≤ 16
  maxTransfer : ncm.maxTransfer ≤ 7

theorem blockSize_pos (ncm : NepClassMS) : 0 < ncm.blockSize := Nat.two_pow_pos _

theorem Sized.dvd (h : Sized ncm) : ncm.blockSize ∣ ncm.maxtrans :=
  Nat.pow_dvd_pow 2 (h.max.trans (Nat.le_add_left _ _))

theorem maxtrans_pos (ncm : NepClassMS) : 0 < ncm.maxtrans := Nat.two_pow_pos _

theorem Sized.le (h : Sized ncm) : ncm.blockSize ≤ ncm.maxtrans :=
  Nat.le_of_dvd (maxtrans_pos ncm) h.dvd

theorem Sized.count_lt (h : Sized ncm) (hn : n ≤ ncm.maxtrans) :
    n / ncm.blockSize < 2 ^ 16 := by
  have hmax : ncm.maxtrans ≤ 2 ^ 23 :=
    Nat.pow_le_pow_right (by norm_num) (Nat.add_le_add_right h.maxTransfer 16)
  have hmin : 2 ^ 9 ≤ ncm.blockSize := Nat.pow_le_pow_right (by norm_num) h.min
  rw [Nat.div_lt_iff_lt_mul (blockSize_pos ncm)]
  calc n ≤ 2 ^ 23 := hn.trans hmax
    _ < 2 ^ 16 * 2 ^ 9 := by norm_num
    _ ≤ 2 ^ 16 * ncm.blockSize := Nat.mul_le_mul_left _ hmin

theorem count_bytes (ncm : NepClassMS) (hn : n / ncm.blockSize < 2 ^ 16) :
    (UInt8.ofNat (n >>> (ncm.blockShift + 8))).toNat * 256 +
      (UInt8.ofNat (n >>> ncm.blockShift)).toNat = n / ncm.blockSize := by
  unfold NepClassMS.blockSize at *
  rw [UInt8.toNat_ofNat', UInt8.toNat_ofNat', Nat.shiftRight_eq_div_pow, Nat.shiftRight_eq_div_pow,
    pow_add, ← Nat.div_div_eq_div_mul]
  generalize n / 2 ^ ncm.blockShift = count at *
  norm_num
  omega

def tail (ncm : NepClassMS) (l : ℕ) : ℕ :=
  let r := l % ncm.maxtrans
  if r < ncm.blockSize then 0 else r % ncm.blockSize

def head (ncm : NepClassMS) (insideblockoffset l : ℕ) : ℕ :=
  if insideblockoffset = 0 then 0 else min l (ncm.blockSize - insideblockoffset)

def lost (ncm : NepClassMS) (insideblockoffset l : ℕ) : ℕ :=
  tail ncm (l - head ncm insideblockoffset l)

theorem tail_le (ncm : NepClassMS) (l : ℕ) : tail ncm l ≤ l := by
  unfold tail
  simp only
  split
  · exact Nat.zero_le l
  · exact (Nat.mod_le _ _).trans (Nat.mod_le _ _)

theorem tail_eq_zero (hs : Sized ncm) (l : ℕ) :
    tail ncm l = 0 ↔ l % ncm.maxtrans < ncm.blockSize ∨ ncm.blockSize ∣ l := by
  unfold tail
  simp only
  rw [Nat.dvd_iff_mod_eq_zero, Nat.mod_mod_of_dvd l hs.dvd]
  split <;> rename_i hr
  · simp [hr]
  · simp [hr]

theorem tail_small (h : Sized ncm) (hn : n < ncm.blockSize) : tail ncm n = 0 := by
  unfold tail
  rw [Nat.mod_eq_of_lt (hn.trans_le h.le)]
  exact if_pos hn

theorem tail_last (hs : Sized ncm) (hn : n ≤ ncm.maxtrans) (hb : ncm.blockSize ≤ n) :
    tail ncm n = n % ncm.blockSize := by
  unfold tail
  rcases Nat.lt_or_eq_of_le hn with hlt | heq
  · simp only [Nat.mod_eq_of_lt hlt]
    exact if_neg (by omega)
  · simp only [heq, Nat.mod_self, blockSize_pos, if_true]
    exact (Nat.mod_eq_zero_of_dvd hs.dvd).symm

theorem tail_step (hn : ncm.maxtrans ≤ n) : tail ncm (n - ncm.maxtrans) = tail ncm n := by
  unfold tail
  rw [← Nat.mod_eq_sub_mod hn]

theorem lost_zero (ncm : NepClassMS) (n : ℕ) : lost ncm 0 n = tail ncm n := rfl

theorem lost_none (ncm : NepClassMS) (inside : ℕ) : lost ncm inside 0 = 0 := by
  unfold lost tail
  simp [blockSize_pos]

/-- The loop at `p` stands at the byte `base + p.dataoffset` of the medium, and the rest of the
request is inside of it. -/
structure Stands (ncm : NepClassMS) (base : ℕ) (p : Piece) : Prop where
  position : p.startblock * ncm.blockSize + p.insideblockoffset = base + p.dataoffset
  inside : p.insideblockoffset < ncm.blockSize
  range : base + p.dataoffset + p.datalen ≤ 2 ^ 32 * ncm.blockSize

/-- `moved k h`: just the first `k` bytes have gone. The branches of the loop move on. -/
structure Moving (ncm : NepClassMS) (base : ℕ) (bounce direct : Piece → Host ω → ℤ × Host ω)
    (moved : ℕ → Host ω → Prop) : Prop where
  bounce : ∀ p h, Stands ncm base p → p.insideblockoffset + p.datalen ≤ ncm.blockSize →
    p.datalen ≠ 0 → moved p.dataoffset h →
    (bounce p h).1 = 0 ∧ moved (p.dataoffset + p.datalen) (bounce p h).2
  direct : ∀ p h, Stands ncm base p → p.insideblockoffset = 0 → p.datalen ≤ ncm.maxtrans →
    p.datalen ≠ 0 → moved p.dataoffset h →
    (direct p h).1 = 0 ∧
      moved (p.dataoffset + p.datalen / ncm.blockSize * ncm.blockSize) (direct p h).2

variable {bounce direct : Piece → Host ω → ℤ × Host ω} {moved : ℕ → Host ω → Prop} {base : ℕ}

variable {d fuel inside l : ℕ} {alloc : Bool}

theorem emulLoop_done {p : Piece} {error : ℤ} {h : Host ω} (hf : 0 < fuel)
    (hp : p.datalen = 0) :
    emulLoop ncm bounce direct fuel p error h = some (error, p.dataoffset, h) := by
  obtain ⟨fuel, rfl⟩ := Nat.exists_eq_succ_of_ne_zero hf.ne'
  simp only [emulLoop, if_pos hp]

section

variable (bounce direct : Piece → Host ω → ℤ × Host ω) (fuel : ℕ) (error : ℤ) {p : Piece} {h : Host ω}
  (hp : p.datalen ≠ 0)
include hp

theorem emulLoop_through (hd : piece ncm p.insideblockoffset p.datalen = (true, d))
    (hb : (bounce { p with datalen := d } h).1 = 0) :
    emulLoop ncm bounce direct (fuel + 1) p error h =
      emulLoop ncm bounce direct fuel
        ⟨ulong (p.startblock + 1), 0, p.dataoffset + d, p.datalen - d⟩ 0
        (bounce { p with datalen := d } h).2 := by
  simp only [emulLoop, if_neg hp, hd, if_true, hb, ne_eq, not_true_eq_false, if_false]

theorem emulLoop_direct (hd : piece ncm p.insideblockoffset p.datalen = (false, d))
    (hb : (direct { p with datalen := d } h).1 = 0) :
    emulLoop ncm bounce direct (fuel + 1) p error h =
      emulLoop ncm bounce direct fuel
        ⟨ulong (p.startblock + ((p.insideblockoffset + d) >>> ncm.blockShift)),
          p.insideblockoffset, p.dataoffset + d, p.datalen - d⟩ 0
        (direct { p with datalen := d } h).2 := by
  simp only [emulLoop, if_neg hp, hd, Bool.false_eq_true, hb, ne_eq, not_true_eq_false, if_false]

end

theorem Stands.block_lt {p : Piece} (h : Stands ncm base p) (hp : p.datalen ≠ 0) :
    p.startblock < 2 ^ 32 := by
  have hpos := h.position
  have hrange := h.range
  by_contra hge
  have := Nat.mul_le_mul_right ncm.blockSize (Nat.le_of_not_lt hge)
  omega

theorem piece_through (hs : Sized ncm) (hi : inside < ncm.blockSize)
    (ht : inside ≠ 0 ∨ l < ncm.blockSize) :
    piece ncm inside l = (true, min l (ncm.blockSize - inside)) := by
  have hle := hs.le
  unfold piece
  simp only
  rw [if_pos (ht.imp_right fun hlt => by omega)]
  congr 1
  omega

theorem piece_direct (hs : Sized ncm) (hl : ncm.blockSize ≤ l) :
    piece ncm 0 l = (false, min l ncm.maxtrans) := by
  have hle := hs.le
  unfold piece
  rw [if_neg]
  rintro (h | h)
  · exact h rfl
  · omega

theorem lost_through (hs : Sized ncm)
    (ht : inside ≠ 0 ∨ l < ncm.blockSize) (hend : l ≤ ncm.blockSize - inside) :
    lost ncm inside l = 0 := by
  unfold lost head
  split
  · rename_i hzero
    exact tail_small hs (ht.resolve_left (not_not.mpr hzero))
  · rw [min_eq_left hend, Nat.sub_self]
    exact tail_small hs (blockSize_pos ncm)

theorem lost_head (hi : inside ≠ 0) (hl : ncm.blockSize - inside ≤ l) :
    lost ncm inside l = tail ncm (l - (ncm.blockSize - inside)) := by
  unfold lost head
  rw [if_neg hi, min_eq_right hl]

/-- The startblock of what is left does not wrap around. -/
theorem Stands.next {p : Piece} (h : Stands ncm base p) {k : ℕ}
    (hd : p.insideblockoffset + d = k * ncm.blockSize) (hl : d < p.datalen) :
    Stands ncm base ⟨ulong (p.startblock + k), 0, p.dataoffset + d, p.datalen - d⟩ := by
  have hpos := h.position
  have hrange := h.range
  have hsum : (p.startblock + k) * ncm.blockSize = base + (p.dataoffset + d) := by
    rw [Nat.add_mul]
    omega
  have hlt : p.startblock + k < 2 ^ 32 := by
    by_contra hge
    have := Nat.mul_le_mul_right ncm.blockSize (Nat.le_of_not_lt hge)
    omega
  have hulong : ulong (p.startblock + k) = p.startblock + k := Nat.mod_eq_of_lt hlt
  refine ⟨?_, blockSize_pos ncm, ?_⟩
  · simp only [hulong, hsum, Nat.add_zero]
  · simp only
    omega

/-- From `p` on the loop reports the whole request; what has not gone is the loss of its last
piece. -/
def Ends (ncm : NepClassMS) (bounce direct : Piece → Host ω → ℤ × Host ω)
    (moved : ℕ → Host ω → Prop) (fuel : ℕ) (p : Piece) (h : Host ω) : Prop :=
  ∃ h', emulLoop ncm bounce direct fuel p 0 h = some (0, p.dataoffset + p.datalen, h') ∧
    moved (p.dataoffset + p.datalen - lost ncm p.insideblockoffset p.datalen) h'

theorem ends_of_rest {b i : ℕ} {p : Piece} {h h₁ : Host ω} (hd : d ≤ p.datalen)
    (hloop : emulLoop ncm bounce direct (fuel + 1) p 0 h =
      emulLoop ncm bounce direct fuel ⟨b, i, p.dataoffset + d, p.datalen - d⟩ 0 h₁)
    (hlost : lost ncm p.insideblockoffset p.datalen = lost ncm i (p.datalen - d))
    (hrest : Ends ncm bounce direct moved fuel ⟨b, i, p.dataoffset + d, p.datalen - d⟩ h₁) :
    Ends ncm bounce direct moved (fuel + 1) p h := by
  obtain ⟨h', hend, hmoved⟩ := hrest
  have hsum : p.dataoffset + d + (p.datalen - d) = p.dataoffset + p.datalen := by omega
  simp only [hsum] at hend hmoved
  refine ⟨h', hloop.trans hend, ?_⟩
  rw [hlost]
  exact hmoved

theorem ends_last {b i k : ℕ} {p : Piece} {h h₁ : Host ω} (hf : 0 < fuel)
    (hloop : emulLoop ncm bounce direct (fuel + 1) p 0 h =
      emulLoop ncm bounce direct fuel ⟨b, i, p.dataoffset + p.datalen, 0⟩ 0 h₁)
    (hlost : k + lost ncm p.insideblockoffset p.datalen = p.dataoffset + p.datalen)
    (hmoved : moved k h₁) : Ends ncm bounce direct moved (fuel + 1) p h := by
  refine ⟨h₁, hloop.trans (emulLoop_done hf rfl), ?_⟩
  rw [← hlost, Nat.add_sub_cancel]
  exact hmoved

section

variable (hs : Sized ncm) (hm : Moving ncm base bounce direct moved)
  (ih : ∀ p h, p.datalen < fuel → Stands ncm base p → moved p.dataoffset h → Ends ncm bounce direct moved fuel p h)
  {p : Piece} {h : Host ω} (hf : p.datalen < fuel + 1) (hat : Stands ncm base p) (hmoved : moved p.dataoffset h)
  (hzero : p.datalen ≠ 0)
include hs hm ih hf hat hmoved hzero

theorem ends_through (ht : p.insideblockoffset ≠ 0 ∨ p.datalen < ncm.blockSize) :
    Ends ncm bounce direct moved (fuel + 1) p h := by
  have hin := hat.inside
  have hrange := hat.range
  have hd := piece_through hs hin ht
  by_cases hend : p.datalen ≤ ncm.blockSize - p.insideblockoffset
  · rw [min_eq_left hend] at hd
    obtain ⟨hok, hmoved'⟩ := hm.bounce p h hat (by omega) hzero hmoved
    have hloop := emulLoop_through bounce direct fuel 0 hzero hd hok
    rw [Nat.sub_self] at hloop
    apply ends_last (by omega) hloop _ hmoved'
    rw [lost_through hs ht hend, Nat.add_zero]
  · rw [min_eq_right (by omega)] at hd
    have hin0 : p.insideblockoffset ≠ 0 := by
      intro h0
      have := ht.resolve_left (not_not.mpr h0)
      omega
    have hstand : Stands ncm base { p with datalen := ncm.blockSize - p.insideblockoffset } :=
      ⟨hat.position, hin, by simp only; omega⟩
    obtain ⟨hok, hmoved'⟩ := hm.bounce _ h hstand (by simp only; omega) (by simp only; omega) hmoved
    have hloop := emulLoop_through bounce direct fuel 0 hzero hd hok
    apply ends_of_rest (by omega) hloop
    · rw [lost_head hin0 (by omega), lost_zero]
    · exact ih _ _ (by simp only; omega) (hat.next (by omega) (by omega)) hmoved'

theorem ends_direct (hinside : p.insideblockoffset = 0)
    (hbig : ncm.blockSize ≤ p.datalen) : Ends ncm bounce direct moved (fuel + 1) p h := by
  have hmt := maxtrans_pos ncm
  have hrange := hat.range
  have hd := piece_direct hs hbig
  rw [← hinside] at hd
  by_cases hend : p.datalen ≤ ncm.maxtrans
  · rw [min_eq_left hend] at hd
    obtain ⟨hok, hmoved'⟩ := hm.direct p h hat hinside hend hzero hmoved
    have hloop := emulLoop_direct bounce direct fuel 0 hzero hd hok
    rw [Nat.sub_self] at hloop
    apply ends_last (by omega) hloop _ hmoved'
    have hdiv := Nat.div_add_mod' p.datalen ncm.blockSize
    rw [hinside, lost_zero, tail_last hs hend hbig]
    omega
  · have hmin : min p.datalen ncm.maxtrans = ncm.maxtrans := min_eq_right (by omega)
    have hblocks : ncm.maxtrans / ncm.blockSize * ncm.blockSize = ncm.maxtrans :=
      Nat.div_mul_cancel hs.dvd
    have hshift : (p.insideblockoffset + ncm.maxtrans) >>> ncm.blockShift =
        ncm.maxtrans / ncm.blockSize := by
      rw [hinside, Nat.zero_add]
      exact Nat.shiftRight_eq_div_pow _ _
    have hstand : Stands ncm base { p with datalen := ncm.maxtrans } :=
      ⟨hat.position, hat.inside, by simp only; omega⟩
    rw [hmin] at hd
    obtain ⟨hok, hmoved'⟩ := hm.direct _ h hstand hinside le_rfl hmt.ne' hmoved
    simp only [hblocks, hinside] at hmoved'
    have hloop := emulLoop_direct bounce direct fuel 0 hzero hd hok
    rw [hshift, hinside] at hloop
    apply ends_of_rest (by omega) hloop
    · rw [hinside, lost_zero, lost_zero, tail_step (by omega)]
    · exact ih _ _ (by simp only; omega) (hat.next (by omega) (by omega)) hmoved'

end

theorem emulLoop_ends (hs : Sized ncm) (hm : Moving ncm base bounce direct moved) (fuel : ℕ)
    (p : Piece) (h : Host ω) (hf : p.datalen < fuel) (hat : Stands ncm base p)
    (hmoved : moved p.dataoffset h) : Ends ncm bounce direct moved fuel p h := by
  induction fuel generalizing p h with
  | zero => cases hf
  | succ fuel ih =>
    by_cases hzero : p.datalen = 0
    · refine ⟨h, ?_, ?_⟩
      · rw [emulLoop_done (Nat.succ_pos fuel) hzero, hzero, Nat.add_zero]
      · simpa [hzero, lost_none] using hmoved
    by_cases ht : p.insideblockoffset ≠ 0 ∨ p.datalen < ncm.blockSize
    · exact ends_through hs hm ih hf hat hmoved hzero ht
    · push Not at ht
      exact ends_direct hs hm ih hf hat hmoved hzero ht.1 ht.2

variable {world data : ℕ → UInt8} {p : Piece} {h : Host (ℕ → UInt8)}

section

variable (hlt : p.startblock < 2 ^ 32)
include hlt

theorem medium_oneBlock_read :
    medium ncm.blockSize (oneBlockCmd ncm p false) h =
      (0, { h with
        oneBlock := copy h.world (p.startblock * ncm.blockSize) h.oneBlock 0 ncm.blockSize }) := by
  unfold medium oneBlockCmd
  simp only [decode_cmd10 hlt, Host.buffer, Host.setBuffer]
  simp

theorem medium_oneBlock_write :
    medium ncm.blockSize (oneBlockCmd ncm p true) h =
      (0, { h with
        world := copy h.oneBlock 0 h.world (p.startblock * ncm.blockSize) ncm.blockSize }) := by
  unfold medium oneBlockCmd
  simp only [decode_cmd10 hlt, Host.buffer]
  simp

theorem medium_direct_read (hcount : p.datalen / ncm.blockSize < 2 ^ 16) :
    medium ncm.blockSize (directCmd ncm p false) h =
      (0, { h with
        ioData := copy h.world (p.startblock * ncm.blockSize) h.ioData p.dataoffset
          (p.datalen / ncm.blockSize * ncm.blockSize) }) := by
  unfold medium directCmd
  simp only [decode_cmd10 hlt, count_bytes ncm hcount, Host.buffer, Host.setBuffer]
  simp

theorem medium_direct_write (hcount : p.datalen / ncm.blockSize < 2 ^ 16) :
    medium ncm.blockSize (directCmd ncm p true) h =
      (0, { h with
        world := copy h.ioData p.dataoffset h.world (p.startblock * ncm.blockSize)
          (p.datalen / ncm.blockSize * ncm.blockSize) }) := by
  unfold medium directCmd
  simp only [decode_cmd10 hlt, count_bytes ncm hcount, Host.buffer]
  simp

end

def HasRead (base : ℕ) (world data : ℕ → UInt8) (k : ℕ) (h : Host (ℕ → UInt8)) : Prop :=
  h.world = world ∧ h.ioData = copy world base data 0 k

def HasWritten (base : ℕ) (world data : ℕ → UInt8) (k : ℕ) (h : Host (ℕ → UInt8)) : Prop :=
  h.ioData = data ∧ h.world = copy data 0 world base k

theorem copy_read_on {at₀ : ℕ} (hat : at₀ = base + p.dataoffset) :
    copy world at₀ (copy world base data 0 p.dataoffset) p.dataoffset n =
      copy world base data 0 (p.dataoffset + n) := by
  have := @Bytes.copy_append _ world data base 0 p.dataoffset n
  rwa [Nat.zero_add, ← hat] at this

theorem copy_write_on {at₀ : ℕ} (hat : at₀ = base + p.dataoffset) :
    copy data p.dataoffset (copy data 0 world base p.dataoffset) at₀ n =
      copy data 0 world base (p.dataoffset + n) := by
  have := @Bytes.copy_append _ data world 0 base p.dataoffset n
  rwa [Nat.zero_add, ← hat] at this

theorem read_moving (hs : Sized ncm) (base : ℕ) (world data : ℕ → UInt8) :
    Moving ncm base (readBounce ncm (medium ncm.blockSize))
      (fun p => medium ncm.blockSize (directCmd ncm p false)) (HasRead base world data) where
  bounce := by
    rintro p h hat hin hzero ⟨hworld, hdata⟩
    unfold readBounce
    rw [medium_oneBlock_read (hat.block_lt hzero)]
    simp only [ne_eq, not_true_eq_false, if_false, CopyMemQuick, true_and]
    refine ⟨hworld, ?_⟩
    simp only
    rw [Bytes.copy_through hin, hworld, hdata, copy_read_on hat.position]
  direct := by
    rintro p h hat hin hmax hzero ⟨hworld, hdata⟩
    have hpos := hat.position
    rw [hin, Nat.add_zero] at hpos
    rw [medium_direct_read (hat.block_lt hzero) (hs.count_lt hmax)]
    refine ⟨rfl, hworld, ?_⟩
    simp only
    rw [hworld, hdata, copy_read_on hpos]

theorem write_moving (hs : Sized ncm) (base : ℕ) (world data : ℕ → UInt8) :
    Moving ncm base (writeBounce ncm (medium ncm.blockSize))
      (fun p => medium ncm.blockSize (directCmd ncm p true)) (HasWritten base world data) where
  bounce := by
    rintro p h hat hin hzero ⟨hdata, hworld⟩
    unfold writeBounce
    rw [medium_oneBlock_read (hat.block_lt hzero)]
    simp only [ne_eq, not_true_eq_false, if_false, CopyMemQuick]
    rw [medium_oneBlock_write (hat.block_lt hzero)]
    refine ⟨rfl, hdata, ?_⟩
    simp only
    rw [Bytes.copy_patch hin, hworld, hdata, copy_write_on hat.position]
  direct := by
    rintro p h hat hin hmax hzero ⟨hdata, hworld⟩
    have hpos := hat.position
    rw [hin, Nat.add_zero] at hpos
    rw [medium_direct_write (hat.block_lt hzero) (hs.count_lt hmax)]
    refine ⟨rfl, hdata, ?_⟩
    simp only
    rw [hworld, hdata, copy_write_on hpos]

/-- The request is aligned, and inside of a medium of fewer than 2^32 blocks. -/
structure Fits (ncm : NepClassMS) (io : IOStdReq) : Prop where
  sized : Sized ncm
  length : io.length % 512 = 0
  offset : io.offset % 512 = 0
  inside : ∃ blocks < 2 ^ 32, io.position + io.length ≤ blocks * ncm.blockSize

section

variable (hs : Sized ncm)
include hs

theorem Sized.blockSize_dvd : ncm.blockSize ∣ 2 ^ 32 :=
  Nat.pow_dvd_pow 2 (hs.max.trans (by norm_num))

theorem offset_mod (io : IOStdReq) :
    io.offset % ncm.blockSize = io.position % ncm.blockSize := by
  obtain ⟨k, hk⟩ := hs.blockSize_dvd
  unfold IOStdReq.position
  rw [hk, Nat.mul_left_comm, Nat.mul_add_mod]

theorem Sized.split : 2 ^ 32 = ncm.blockSize * 2 ^ (32 - ncm.blockShift) := by
  have hmax := hs.max
  unfold NepClassMS.blockSize
  rw [← pow_add]
  congr 1
  omega

theorem position_div (io : IOStdReq) :
    io.position / ncm.blockSize =
      2 ^ (32 - ncm.blockShift) * io.actual + io.offset / ncm.blockSize := by
  unfold IOStdReq.position
  rw [hs.split, show io.actual * (ncm.blockSize * 2 ^ (32 - ncm.blockShift)) =
    ncm.blockSize * (2 ^ (32 - ncm.blockShift) * io.actual) by ring,
    Nat.mul_add_div (blockSize_pos ncm)]

theorem offset_div_lt (io : IOStdReq) :
    io.offset / ncm.blockSize < 2 ^ (32 - ncm.blockShift) := by
  rw [Nat.div_lt_iff_lt_mul (blockSize_pos ncm), Nat.mul_comm, ← hs.split]
  exact io.offset_lt

theorem startBlock_split (io : IOStdReq) :
    startBlock ncm io =
      2 ^ (32 - ncm.blockShift) * (io.actual % ncm.blockSize) + io.offset / ncm.blockSize := by
  have hhigh : ulong (io.actual <<< (32 - ncm.blockShift)) =
      2 ^ (32 - ncm.blockShift) * (io.actual % ncm.blockSize) := by
    unfold ulong
    rw [Nat.shiftLeft_eq, hs.split, Nat.mul_mod_mul_right, Nat.mul_comm]
  unfold startBlock
  rw [hhigh, Nat.shiftRight_eq_div_pow, Nat.or_comm]
  exact (Nat.two_pow_add_eq_or_of_lt (offset_div_lt hs io) _).symm

theorem startBlock_eq (hlt : io.position / ncm.blockSize < 2 ^ 32) :
    startBlock ncm io = io.position / ncm.blockSize := by
  rw [position_div hs] at hlt
  have hactual : io.actual < ncm.blockSize := by
    have hlt' : io.actual * 2 ^ (32 - ncm.blockShift) <
        ncm.blockSize * 2 ^ (32 - ncm.blockShift) := by
      rw [← hs.split, Nat.mul_comm]
      exact (Nat.le_add_right _ _).trans_lt hlt
    exact Nat.lt_of_mul_lt_mul_right hlt'
  rw [startBlock_split hs, position_div hs, Nat.mod_eq_of_lt hactual]

end

theorem Fits.stands (hf : Fits ncm io) :
    Stands ncm io.position ⟨startBlock ncm io, io.offset % ncm.blockSize, 0, io.length⟩ := by
  obtain ⟨blocks, hblocks, hinside⟩ := hf.inside
  have hlt : io.position / ncm.blockSize < 2 ^ 32 := by
    rw [Nat.div_lt_iff_lt_mul (blockSize_pos ncm)]
    calc io.position ≤ blocks * ncm.blockSize := by omega
      _ < 2 ^ 32 * ncm.blockSize := Nat.mul_lt_mul_of_pos_right hblocks (blockSize_pos ncm)
  have hrange : blocks * ncm.blockSize ≤ 2 ^ 32 * ncm.blockSize :=
    Nat.mul_le_mul_right _ hblocks.le
  refine ⟨?_, Nat.mod_lt _ (blockSize_pos ncm), ?_⟩
  · simp only [startBlock_eq hf.sized hlt, offset_mod hf.sized, Nat.div_add_mod', Nat.add_zero]
  · simp only
    omega

def emulLost (ncm : NepClassMS) (io : IOStdReq) : ℕ :=
  lost ncm (io.offset % ncm.blockSize) io.length

theorem emulLost_le (ncm : NepClassMS) (io : IOStdReq) : emulLost ncm io ≤ io.length :=
  (tail_le ncm _).trans (Nat.sub_le _ _)

theorem emulate_moves (hf : Fits ncm io) (hm : Moving ncm io.position bounce direct moved) (hone : hasOneBlock ncm alloc = true) {h : Host ω} (hmoved : moved 0 h) :
    ∃ o, emulate ncm alloc bounce direct io h = some o ∧ o.actual = io.length ∧
      moved (io.length - emulLost ncm io) o.host := by
  unfold emulate
  rw [if_neg (not_not.mpr hf.length), if_neg (not_not.mpr hf.offset), hone, if_neg (by decide)]
  by_cases hzero : io.length = 0
  · rw [emulLoop_done (Nat.succ_pos _) hzero]
    refine ⟨_, rfl, hzero.symm, ?_⟩
    rw [hzero, Nat.zero_sub]
    exact hmoved
  · obtain ⟨h', hloop, hall⟩ := emulLoop_ends hf.sized hm (io.length + 1) _ h (Nat.lt_succ_self _)
      hf.stands hmoved
    -- what `io_Error` was at the start is gone with the first piece
    have herror : ∀ e p, p.datalen ≠ 0 → emulLoop ncm bounce direct (io.length + 1) p e h =
        emulLoop ncm bounce direct (io.length + 1) p 0 h := by
      intro e p hp
      simp only [emulLoop, if_neg hp]
    rw [herror _ _ hzero, hloop]
    simp only [Nat.zero_add] at hall
    exact ⟨_, rfl, Nat.zero_add _, hall⟩

theorem emulate_refused (hf : Fits ncm io) (hone : hasOneBlock ncm alloc = false)
    (h : Host ω) : emulate ncm alloc bounce direct io h =
      some ⟨IOERR_BADADDRESS, io.error, io.actual, h⟩ := by
  unfold emulate
  rw [if_neg (not_not.mpr hf.length), if_neg (not_not.mpr hf.offset), hone, if_pos (by decide)]

/-- The emulation is exact for a request: all of it is read, and all of it is written. -/
structure Exact (ncm : NepClassMS) (alloc : Bool) (io : IOStdReq) : Prop where
  read : ∀ h, ∃ o, nRead64Emul ncm alloc (medium ncm.blockSize) io h = some o ∧
    o.actual = io.length ∧ o.host.world = h.world ∧
    o.host.ioData = copy h.world io.position h.ioData 0 io.length
  write : ∀ h, ∃ o, nWrite64Emul ncm alloc (medium ncm.blockSize) io h = some o ∧
    o.actual = io.length ∧ o.host.ioData = h.ioData ∧
    o.host.world = copy h.ioData 0 h.world io.position io.length

/-- There is a bounce block; from the first block that begins in the request on, what is over of a
multiple of the transfer limit is less than a block, or a number of blocks. -/
def Whole (ncm : NepClassMS) (alloc : Bool) (io : IOStdReq) : Prop :=
  if hasOneBlock ncm alloc then
    let rest := io.length - head ncm (io.offset % ncm.blockSize) io.length
    rest % ncm.maxtrans < ncm.blockSize ∨ ncm.blockSize ∣ rest
  else io.length = 0 ∧ io.actual = 0

theorem Whole.exact (hf : Fits ncm io) (hw : Whole ncm alloc io) :
    Exact ncm alloc io := by
  unfold Whole at hw
  split at hw
  · rename_i hone
    have hw : emulLost ncm io = 0 := (tail_eq_zero hf.sized _).mpr hw
    constructor
    · intro h
      obtain ⟨o, ho, hactual, hmoved⟩ := emulate_moves hf
        (read_moving hf.sized io.position h.world h.ioData) hone (h := h)
        ⟨rfl, Bytes.copy_zero.symm⟩
      rw [hw] at hmoved
      exact ⟨o, ho, hactual, hmoved⟩
    · intro h
      obtain ⟨o, ho, hactual, hmoved⟩ := emulate_moves hf
        (write_moving hf.sized io.position h.world h.ioData) hone (h := h)
        ⟨rfl, Bytes.copy_zero.symm⟩
      rw [hw] at hmoved
      exact ⟨o, ho, hactual, hmoved⟩
  · rename_i hone
    obtain ⟨hlength, hactual⟩ := hw
    have hnone := Bool.not_eq_true _ ▸ hone
    constructor <;> intro h
    · refine ⟨_, emulate_refused hf hnone h, hactual.trans hlength.symm, rfl, ?_⟩
      rw [hlength, Bytes.copy_zero]
    · refine ⟨_, emulate_refused hf hnone h, hactual.trans hlength.symm, rfl, ?_⟩
      rw [hlength, Bytes.copy_zero]

def zeroesOnOnes : Host (ℕ → UInt8) := ⟨fun _ => 0, fun _ => 0, fun _ => 1⟩

theorem copy_ones_inj {s m : ℕ} (h : copy (fun _ => (1 : UInt8)) s (fun _ => 0) 0 m =
    copy (fun _ => 1) s (fun _ => 0) 0 n) (hmn : m ≤ n) : m = n := by
  by_contra hne
  have hm := congrFun h m
  rw [Bytes.copy_out (Or.inr (by omega))] at hm
  have hn := @Bytes.copy_in _ (fun _ => (1 : UInt8)) (fun _ => 0) s 0 n m (by omega)
  rw [Nat.zero_add] at hn
  rw [hn] at hm
  exact absurd hm (by decide)

theorem Exact.whole (hf : Fits ncm io) (he : Exact ncm alloc io) :
    Whole ncm alloc io := by
  obtain ⟨o, ho, hactual, -, hdata⟩ := he.read zeroesOnOnes
  unfold Whole
  split
  · rename_i hone
    obtain ⟨o', ho', -, -, hmoved⟩ := emulate_moves hf
      (read_moving hf.sized io.position zeroesOnOnes.world zeroesOnOnes.ioData) hone
      (h := zeroesOnOnes) ⟨rfl, Bytes.copy_zero.symm⟩
    have hsame : o' = o := Option.some.inj (ho'.symm.trans ho)
    rw [hsame, hdata] at hmoved
    have hlost := copy_ones_inj hmoved.symm (Nat.sub_le _ _)
    have hle := emulLost_le ncm io
    rw [← tail_eq_zero hf.sized]
    exact (by omega : emulLost ncm io = 0)
  · rename_i hone
    have hnone := Bool.not_eq_true _ ▸ hone
    have hsame : _ = o := Option.some.inj ((emulate_refused hf hnone zeroesOnOnes).symm.trans ho)
    subst hsame
    have hlength : 0 = io.length := copy_ones_inj
      (Bytes.copy_zero.trans hdata) (Nat.zero_le _)
    exact ⟨hlength.symm, hactual.trans hlength.symm⟩

theorem emulation_exact (hf : Fits ncm io) (alloc : Bool) :
    Exact ncm alloc io ↔ Whole ncm alloc io :=
  ⟨fun h => h.whole hf, fun h => h.exact hf⟩

def kiloByte : NepClassMS := ⟨10, 0, none⟩

def readThree : IOStdReq :=
  ⟨1536, 0, 0, 0, by decide, by decide, by decide⟩

theorem readThree_fits : Fits kiloByte readThree where
  sized := ⟨by decide, by decide, by decide⟩
  length := by decide
  offset := by decide
  inside := ⟨2, by decide, by decide⟩

theorem emulation_exact_three :
    Exact kiloByte true readThree ↔ Whole kiloByte true readThree :=
  emulation_exact readThree_fits true

/-- The last 512 bytes are missing. -/
theorem emulation_cuts_tail :
    ¬ ∀ ncm alloc io, Fits ncm io → hasOneBlock ncm alloc = true → Exact ncm alloc io := by
  intro hall
  obtain ⟨o, ho, -, -, hdata⟩ :=
    (hall kiloByte true readThree readThree_fits (by decide)).read zeroesOnOnes
  have hrun : (nRead64Emul kiloByte true (medium kiloByte.blockSize) readThree zeroesOnOnes).map
      (fun o => o.host.ioData 1024) = some 0 := by
    decide +kernel
  rw [ho] at hrun
  have hzero : o.host.ioData 1024 = 0 := Option.some.inj hrun
  rw [hdata] at hzero
  exact absurd hzero (by decide)

/-- A read or a write, with its `io_Data`. -/
structure DataRequest where
  io : IOStdReq
  iswrite : Bool
  data : ℕ → UInt8

/-- A byte is as the last write of it has it; the latest request comes first. -/
def stored (world : ℕ → UInt8) : List DataRequest → ℕ → UInt8
  | [], b => world b
  | r :: rs, b =>
    if r.iswrite ∧ r.io.position ≤ b ∧ b < r.io.position + r.io.length then r.data (b - r.io.position)
    else stored world rs b

def emulRun (ncm : NepClassMS) (alloc : Bool) (rs : List DataRequest) (h : Host (ℕ → UInt8)) :
    Option (Host (ℕ → UInt8)) :=
  rs.foldrM (fun r h =>
    ((if r.iswrite then nWrite64Emul else nRead64Emul) ncm alloc (medium ncm.blockSize) r.io
      { h with ioData := r.data }).map (·.host)) h

/-- The requests of a run reach a store of bytes, and a read after them finds it. -/
theorem emulated_store (rs : List DataRequest) (hrs : ∀ r ∈ rs, Fits ncm r.io ∧ Whole ncm alloc r.io)
    (h : Host (ℕ → UInt8)) : ∃ h', emulRun ncm alloc rs h = some h' ∧ h'.world = stored h.world rs ∧
      ∀ io, Fits ncm io → Whole ncm alloc io → ∀ data, ∃ o,
        nRead64Emul ncm alloc (medium ncm.blockSize) io { h' with ioData := data } = some o ∧
        o.actual = io.length ∧ ∀ k < io.length, o.host.ioData k = stored h.world rs (io.position + k) := by
  suffices hrun : ∃ h', emulRun ncm alloc rs h = some h' ∧ h'.world = stored h.world rs by
    obtain ⟨h', hrun, hworld⟩ := hrun
    refine ⟨h', hrun, hworld, fun io hfits hwhole data => ?_⟩
    obtain ⟨o, ho, hactual, -, hdata⟩ := (hwhole.exact hfits).read { h' with ioData := data }
    refine ⟨o, ho, hactual, fun k hk => ?_⟩
    have hin := @Bytes.copy_in _ h'.world data io.position 0 io.length k hk
    rw [Nat.zero_add] at hin
    rw [hdata, hin, hworld]
  induction rs with
  | nil => exact ⟨h, rfl, rfl⟩
  | cons r rs ih =>
    obtain ⟨h', hrun, hworld⟩ := ih fun r hr => hrs r (List.mem_cons_of_mem _ hr)
    obtain ⟨hfits, hwhole⟩ := hrs r List.mem_cons_self
    have hexact := hwhole.exact hfits
    unfold emulRun at hrun ⊢
    rw [List.foldrM_cons, hrun]
    cases hkind : r.iswrite with
    | true =>
      obtain ⟨o, ho, -, -, hmoved⟩ := hexact.write { h' with ioData := r.data }
      refine ⟨o.host, by simp [ho], funext fun b => ?_⟩
      simp [hmoved, hworld, copy, stored, hkind]
    | false =>
      obtain ⟨o, ho, -, hkept, -⟩ := hexact.read { h' with ioData := r.data }
      refine ⟨o.host, by simp [ho], funext fun b => ?_⟩
      simp [hkept, hworld, stored, hkind]

def acrossBlocks : DataRequest := ⟨⟨1024, 512, 0, 0, by decide, by decide, by decide⟩, true, fun _ => 7⟩

theorem emulated_store_across : ∃ h', emulRun kiloByte true [acrossBlocks] zeroesOnOnes = some h' ∧
    h'.world 511 = 1 ∧ h'.world 512 = 7 := by
  have hfits : Fits kiloByte acrossBlocks.io :=
    ⟨⟨by decide, by decide, by decide⟩, by decide, by decide, 2, by decide, by decide⟩
  have hwhole : Whole kiloByte true acrossBlocks.io := .inl (by decide)
  have hall : ∀ r ∈ [acrossBlocks], Fits kiloByte r.io ∧ Whole kiloByte true r.io := by simp [hfits, hwhole]
  obtain ⟨h', hrun, hworld, -⟩ := emulated_store [acrossBlocks] hall zeroesOnOnes
  refine ⟨h', hrun, ?_⟩
  rw [hworld]
  exact ⟨by decide, by decide⟩

end Neptune.BlockIo
