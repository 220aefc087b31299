import Neptune.Spec.BlockReply
import Neptune.Proofs.EmulExact

/-! The transfers of the loop of `nRead64` and `nWrite64`: they name consecutive ranges of blocks,
that make up the request. -/

namespace Neptune.BlockIo

open List

variable {ω : Type*} {ncm : NepClassMS} {io : IOStdReq} {n : ℕ} {c : Cursor} {iswrite : Bool}

theorem decode_rw10 (iswrite : Bool) {startblock : ℕ} (hlt : startblock < 2 ^ 32)
    (hn : n / ncm.blockSize < 2 ^ 16) :
    decode ((nBuildRWCdb iswrite 0 startblock n ncm.blockShift).1.take 10) =
      some ⟨iswrite, startblock, n / ncm.blockSize⟩ := by
  rw [← count_bytes ncm hn, ← decode_cmd10 hlt]
  cases iswrite <;> rfl

theorem long_count_bytes (ncm : NepClassMS) (hn : n / ncm.blockSize < 2 ^ 16) :
    Bytes.ofBE [UInt8.ofNat (n >>> (ncm.blockShift + 24)), UInt8.ofNat (n >>> (ncm.blockShift + 16)),
      UInt8.ofNat (n >>> (ncm.blockShift + 8)), UInt8.ofNat (n >>> ncm.blockShift)] =
      n / ncm.blockSize := by
  unfold NepClassMS.blockSize at *
  simp only [Bytes.ofBE, foldl_cons, foldl_nil, UInt8.toNat_ofNat',
    Nat.shiftRight_eq_div_pow, pow_add, ← Nat.div_div_eq_div_mul]
  generalize n / 2 ^ ncm.blockShift = count at *
  norm_num
  omega

theorem decode_rw16 (iswrite : Bool) {high startblock : ℕ} (hhigh : high ≠ 0) (hh : high < 2 ^ 32)
    (hlt : startblock < 2 ^ 32) (hn : n / ncm.blockSize < 2 ^ 16) :
    decode ((nBuildRWCdb iswrite high startblock n ncm.blockShift).1.take 16) =
      some ⟨iswrite, high * 2 ^ 32 + startblock, n / ncm.blockSize⟩ := by
  have hlba : Bytes.ofBE (Bytes.toBE 4 high ++ Bytes.toBE 4 startblock) =
      high * 2 ^ 32 + startblock := by
    rw [Bytes.ofBE_append, Bytes.ofBE_toBE, Bytes.ofBE_toBE, Bytes.length_toBE]
    omega
  rw [← long_count_bytes ncm hn, ← hlba]
  unfold nBuildRWCdb
  rw [if_pos hhigh]
  cases iswrite <;> rfl

def Cursor.lba (c : Cursor) : ℕ := c.startblockhigh * 2 ^ 32 + c.startblock

/-- The cursor is at a block, whole blocks are left, and no address overflows. -/
structure OnBlocks (ncm : NepClassMS) (c : Cursor) : Prop where
  start : c.startblock < 2 ^ 32
  remain : ncm.blockSize ∣ c.dataremain
  fits : c.lba + c.dataremain / ncm.blockSize < 2 ^ 64

theorem OnBlocks.high_lt (h : OnBlocks ncm c) : c.startblockhigh < 2 ^ 32 := by
  have hfits := h.fits
  unfold Cursor.lba at hfits
  by_contra hge
  have := Nat.mul_le_mul_right (2 ^ 32) (Nat.le_of_not_lt hge)
  generalize c.dataremain / ncm.blockSize = left at hfits
  omega

def Cursor.datalen (ncm : NepClassMS) (c : Cursor) : ℕ := min c.dataremain ncm.maxtrans

theorem OnBlocks.datalen_dvd (hs : Sized ncm) (h : OnBlocks ncm c) :
    ncm.blockSize ∣ c.datalen ncm := by
  unfold Cursor.datalen
  rcases min_choice c.dataremain ncm.maxtrans with hmin | hmin <;> rw [hmin]
  · exact h.remain
  · exact hs.dvd

theorem datalen_lt (hs : Sized ncm) (c : Cursor) : c.datalen ncm / ncm.blockSize < 2 ^ 16 :=
  hs.count_lt (min_le_right _ _)

theorem decode_rwCmd (hs : Sized ncm) (h : OnBlocks ncm c) :
    decode (rwCmd ncm iswrite c (c.datalen ncm)).command =
      some ⟨iswrite, c.lba, c.datalen ncm / ncm.blockSize⟩ := by
  have hlt := datalen_lt hs c
  unfold rwCmd Cursor.lba
  simp only
  by_cases hhigh : c.startblockhigh = 0
  · have h10 : ∀ start n, (nBuildRWCdb iswrite 0 start n ncm.blockShift).2 = 10 := fun _ _ => rfl
    rw [hhigh, h10, decode_rw10 iswrite h.start hlt, Nat.zero_mul, Nat.zero_add]
  · have h16 : (nBuildRWCdb iswrite c.startblockhigh c.startblock (c.datalen ncm)
        ncm.blockShift).2 = 16 := by
      unfold nBuildRWCdb
      rw [if_pos hhigh]
    rw [h16, decode_rw16 iswrite hhigh h.high_lt h.start hlt]

theorem nextBlock_eq {high start k : ℕ} (hs : start < 2 ^ 32) (hn : n >>> ncm.blockShift = k)
    (hk : k < 2 ^ 16) (hfits : high * 2 ^ 32 + start + k < 2 ^ 64) :
    (nextBlock ncm high start n).1 * 2 ^ 32 + (nextBlock ncm high start n).2 =
      high * 2 ^ 32 + start + k ∧ (nextBlock ncm high start n).2 < 2 ^ 32 := by
  unfold nextBlock ulong
  simp only [hn]
  split <;> constructor <;> omega

theorem datalen_le (ncm : NepClassMS) (c : Cursor) : c.datalen ncm ≤ c.dataremain :=
  min_le_left _ _

theorem OnBlocks.blocks (hs : Sized ncm) (h : OnBlocks ncm c) :
    c.datalen ncm / ncm.blockSize + (c.dataremain - c.datalen ncm) / ncm.blockSize =
      c.dataremain / ncm.blockSize := by
  rw [← Nat.add_div_of_dvd_right (h.datalen_dvd hs), Nat.add_sub_of_le (datalen_le ncm c)]

theorem OnBlocks.next (hs : Sized ncm) (h : OnBlocks ncm c) :
    (c.advance ncm (c.datalen ncm)).lba = c.lba + c.datalen ncm / ncm.blockSize ∧
      OnBlocks ncm (c.advance ncm (c.datalen ncm)) := by
  have hblocks := h.blocks hs
  have hfits := h.fits
  have hk : c.datalen ncm >>> ncm.blockShift = c.datalen ncm / ncm.blockSize :=
    Nat.shiftRight_eq_div_pow _ _
  have hcount := datalen_lt hs c
  rw [← hblocks, ← Nat.add_assoc] at hfits
  obtain ⟨hlba, hlt⟩ := nextBlock_eq h.start hk hcount ((Nat.le_add_right _ _).trans_lt hfits)
  have hsum : (c.advance ncm (c.datalen ncm)).lba =
      c.lba + c.datalen ncm / ncm.blockSize := hlba
  refine ⟨hsum, hlt, Nat.dvd_sub h.remain (h.datalen_dvd hs), ?_⟩
  rw [hsum]
  exact hfits

/-- What is issued from the cursor on when every command succeeds. -/
inductive Transfers (ncm : NepClassMS) (iswrite : Bool) : Cursor → List SCSICmd → Prop
  | done {c : Cursor} (h : c.dataremain = 0) : Transfers ncm iswrite c []
  | next {c : Cursor} {cmds : List SCSICmd} (h : c.dataremain ≠ 0)
      (hrest : Transfers ncm iswrite (c.advance ncm (c.datalen ncm)) cmds) :
      Transfers ncm iswrite c (rwCmd ncm iswrite c (c.datalen ncm) :: cmds)

/-- Exactly the blocks from `lba` on: the ranges that the commands name are not empty, follow each
other and are as long as the data. -/
structure Covers (blockSize : ℕ) (iswrite : Bool) (lba count : ℕ) (cmds : List SCSICmd) : Prop where
  range : ∀ cmd ∈ cmds, ∃ r, decode cmd.command = some r ∧ r.iswrite = iswrite ∧ 0 < r.count ∧
    cmd.length = r.count * blockSize
  blocks : (cmds.filterMap fun cmd => decode cmd.command).flatMap
    (fun r => List.range' r.lba r.count) = List.range' lba count

theorem Transfers.covers (hs : Sized ncm) {cmds : List SCSICmd}
    (h : Transfers ncm iswrite c cmds) (hc : OnBlocks ncm c) :
    Covers ncm.blockSize iswrite c.lba (c.dataremain / ncm.blockSize) cmds := by
  induction h with
  | done hzero =>
    refine ⟨fun cmd hcmd => absurd hcmd not_mem_nil, ?_⟩
    rw [hzero, Nat.zero_div]
    rfl
  | @next c cmds hzero hrest ih =>
    obtain ⟨hlba, hnext⟩ := hc.next hs
    obtain ⟨hrange, hblocks⟩ := ih hnext
    have hdecode := @decode_rwCmd ncm c iswrite hs hc
    have hdvd := hc.datalen_dvd hs
    have hpos : 0 < c.datalen ncm := by
      have := maxtrans_pos ncm
      unfold Cursor.datalen
      omega
    constructor
    · intro cmd hcmd
      rcases mem_cons.mp hcmd with rfl | hcmd
      · refine ⟨_, hdecode, rfl, Nat.div_pos (Nat.le_of_dvd hpos hdvd) (blockSize_pos ncm), ?_⟩
        exact (Nat.div_mul_cancel hdvd).symm
      · exact hrange cmd hcmd
    · rw [filterMap_cons_some (f := fun cmd : SCSICmd => decode cmd.command) hdecode,
        flatMap_cons, hblocks, hlba]
      change range' _ _ ++ range' _ ((c.dataremain - c.datalen ncm) / ncm.blockSize) = _
      rw [range'_append_1, hc.blocks hs]

theorem aligned_iff : aligned ncm n = true ↔ ncm.blockSize ∣ n := by
  unfold aligned NepClassMS.blockSize
  rw [decide_eq_true_iff, Nat.shiftLeft_eq, Nat.shiftRight_eq_div_pow]
  exact ⟨fun h => Dvd.intro_left _ h, Nat.div_mul_cancel⟩

theorem startCursor_lba (hs : Sized ncm) (io : IOStdReq) :
    (startCursor ncm io).lba = io.position / ncm.blockSize ∧
      (startCursor ncm io).startblock < 2 ^ 32 := by
  have hdiv := Nat.div_add_mod io.actual ncm.blockSize
  have hhigh : io.actual >>> ncm.blockShift = io.actual / ncm.blockSize :=
    Nat.shiftRight_eq_div_pow _ _
  have hmod := Nat.mod_lt io.actual (blockSize_pos ncm)
  unfold startCursor Cursor.lba
  simp only
  rw [startBlock_split hs, hhigh, position_div hs]
  constructor
  · rw [hs.split]
    conv_rhs => rw [← hdiv]
    ring
  · have hlow := offset_div_lt hs io
    calc 2 ^ (32 - ncm.blockShift) * (io.actual % ncm.blockSize) + io.offset / ncm.blockSize
      _ < 2 ^ (32 - ncm.blockShift) * (io.actual % ncm.blockSize) + 2 ^ (32 - ncm.blockShift) :=
        Nat.add_lt_add_left hlow _
      _ = 2 ^ (32 - ncm.blockShift) * (io.actual % ncm.blockSize + 1) := by ring
      _ ≤ 2 ^ (32 - ncm.blockShift) * ncm.blockSize := Nat.mul_le_mul_left _ hmod
      _ = 2 ^ 32 := by rw [hs.split, Nat.mul_comm]

theorem startCursor_onBlocks (hs : Sized ncm) (hl : ncm.blockSize ∣ io.length) :
    OnBlocks ncm (startCursor ncm io) := by
  obtain ⟨hlba, hlt⟩ := startCursor_lba hs io
  refine ⟨hlt, hl, ?_⟩
  have hmin : 2 ^ 9 ≤ ncm.blockSize := Nat.pow_le_pow_right (by norm_num) hs.min
  have hposition : io.position / ncm.blockSize ≤ io.position / 2 ^ 9 :=
    Nat.div_le_div_left hmin (by norm_num)
  have hlength : io.length / ncm.blockSize ≤ io.length := Nat.div_le_self _ _
  have hactual := io.actual_lt
  have hoffset := io.offset_lt
  have hlen := io.length_lt
  rw [hlba]
  change _ + io.length / ncm.blockSize < _
  unfold IOStdReq.position at *
  omega

theorem Transfers.unique {cmds cmds' : List SCSICmd} (h : Transfers ncm iswrite c cmds)
    (h' : Transfers ncm iswrite c cmds') : cmds = cmds' := by
  induction h generalizing cmds' with
  | done hzero =>
    cases h' with
    | done => rfl
    | next hne => exact absurd hzero hne
  | next hne hrest ih =>
    cases h' with
    | done hzero => exact absurd hzero hne
    | next _ hrest' => rw [ih hrest']

def Succeeds (nScsiDirect : ScsiDirect ω) : Prop := ∀ cmd h, (nScsiDirect cmd h).1 = 0

section

variable {nScsiDirect : ScsiDirect ω} (hok : Succeeds nScsiDirect)
include hok

theorem recorded_eq (cmd : SCSICmd)
    (h : Host (ω × List SCSICmd)) :
    (recorded nScsiDirect cmd h).1 = 0 ∧
      (recorded nScsiDirect cmd h).2.world.2 = h.world.2 ++ [cmd] :=
  ⟨hok _ _, rfl⟩

theorem rwLoop_transfers (fuel : ℕ)
    (c : Cursor) (error : ℤ) (h : Host (ω × List SCSICmd)) (hf : c.dataremain < fuel) :
    ∃ cmds error' h', Transfers ncm iswrite c cmds ∧
      rwLoop ncm iswrite (recorded nScsiDirect) fuel c error h =
        some (error', c.dataoffset + c.dataremain, h') ∧ h'.world.2 = h.world.2 ++ cmds := by
  induction fuel generalizing c error h with
  | zero => cases hf
  | succ fuel ih =>
    by_cases hzero : c.dataremain = 0
    · refine ⟨[], error, h, .done hzero, ?_, (append_nil _).symm⟩
      rw [rwLoop, if_pos hzero, hzero, Nat.add_zero]
    · have hmt := maxtrans_pos ncm
      have hle := datalen_le ncm c
      have hpos : 0 < c.datalen ncm := by
        unfold Cursor.datalen
        omega
      obtain ⟨hres, hworld⟩ := recorded_eq hok (rwCmd ncm iswrite c (c.datalen ncm)) h
      obtain ⟨cmds, error', h', hrest, hloop, hcmds⟩ := ih (c.advance ncm (c.datalen ncm)) 0
        (recorded nScsiDirect (rwCmd ncm iswrite c (c.datalen ncm)) h).2 (by
          change c.dataremain - c.datalen ncm < fuel
          omega)
      refine ⟨_, error', h', .next hzero hrest, ?_, ?_⟩
      · have hstep : rwLoop ncm iswrite (recorded nScsiDirect) (fuel + 1) c error h =
            rwLoop ncm iswrite (recorded nScsiDirect) fuel (c.advance ncm (c.datalen ncm)) 0
              (recorded nScsiDirect (rwCmd ncm iswrite c (c.datalen ncm)) h).2 := by
          unfold Cursor.datalen at hres ⊢
          simp only [rwLoop, if_neg hzero, hres, ne_eq, not_true_eq_false, if_false]
        have hsum : c.dataoffset + c.datalen ncm + (c.dataremain - c.datalen ncm) =
            c.dataoffset + c.dataremain := by
          omega
        rw [hstep, hloop]
        change some (error', c.dataoffset + c.datalen ncm + (c.dataremain - c.datalen ncm), h') = _
        rw [hsum]
      · rw [hcmds, hworld, append_assoc]
        rfl

theorem nReadWrite64_transfers (hl : ncm.blockSize ∣ io.length) (ho : ncm.blockSize ∣ io.offset) (alloc emul : Bool)
    (h : Host (ω × List SCSICmd)) :
    ∃ cmds o, Transfers ncm iswrite (startCursor ncm io) cmds ∧
      nReadWrite64 ncm iswrite alloc emul (recorded nScsiDirect) io h = some o ∧
      o.actual = io.length ∧ o.host.world.2 = h.world.2 ++ cmds := by
  obtain ⟨cmds, error, h', htransfers, hloop, hcmds⟩ := @rwLoop_transfers ω ncm iswrite
    nScsiDirect hok (io.length + 1) (startCursor ncm io) io.error h (Nat.lt_succ_self _)
  refine ⟨cmds, ⟨error, error, io.length, h'⟩, htransfers, ?_, rfl, hcmds⟩
  have hlen : (startCursor ncm io).dataoffset + (startCursor ncm io).dataremain = io.length :=
    Nat.zero_add _
  unfold nReadWrite64
  rw [aligned_iff.mpr hl, aligned_iff.mpr ho, if_neg (by decide), hloop, hlen]
  rfl

end

end Neptune.BlockIo
