import Neptune.Proofs.EncapInverse
import Neptune.Spec.Lan78xx

/-! A transfer of a LAN78xx is taken apart into the frames that were put into it. Whatever comes in, the loop stays
inside of it. -/

namespace Neptune.Lan78xx

open List CdcEth

/-- A frame as it comes: behind a header that counts it with its CRC, up to the next multiple of 4. -/
structure Framed where
  rxCmdA : ℕ
  rest : List UInt8
  frame : List UInt8
  crc : List UInt8
  pad : List UInt8
  rxCmdA_lt : rxCmdA < 2 ^ 32
  rest_length : rest.length = 6
  crc_length : crc.length = 4
  counted : rxCmdA &&& rxCmdALenMask = frame.length + 4
  pad_length : pad.length < 4 ∧ (frame.length + 14 + pad.length) % 4 = 0

namespace Framed

variable (p : Framed)

def bytes : List UInt8 := Fields.bytes 4 p.rxCmdA ++ p.rest ++ (p.frame ++ (p.crc ++ p.pad))

def good : Bool := p.rxCmdA &&& rxCmdARed = 0 && etherHeaderLen ≤ p.frame.length

def rx : Rx := if p.good then ⟨[(p.frame, p.frame.length)], 0⟩ else .bad

theorem length_bytes : p.bytes.length = p.frame.length + 14 + p.pad.length := by
  unfold bytes
  simp only [length_append, Fields.length_bytes, p.rest_length, p.crc_length]
  omega

theorem long_bytes (pre post : List UInt8) : long (pre ++ (p.bytes ++ post)) pre.length = p.rxCmdA := by
  have hget := Fields.get_append pre (Fields.bytes 4 p.rxCmdA) (p.rest ++ (p.frame ++ (p.crc ++ p.pad)) ++ post)
  rw [Fields.length_bytes] at hget
  unfold long bytes
  simp only [append_assoc] at hget ⊢
  rw [hget]
  exact Fields.value_bytes_of_lt p.rxCmdA_lt

theorem get_bytes (pre post : List UInt8) :
    Fields.get (pre ++ (p.bytes ++ post)) (pre.length + rxCmdLen) p.frame.length = p.frame := by
  have hget := Fields.get_append (pre ++ (Fields.bytes 4 p.rxCmdA ++ p.rest)) p.frame (p.crc ++ p.pad ++ post)
  rw [length_append, length_append, Fields.length_bytes, p.rest_length] at hget
  unfold bytes rxCmdLen
  simpa only [append_assoc] using hget

theorem deliver_bytes (pre post : List UInt8) :
    (if p.rxCmdA &&& rxCmdARed ≠ 0 then Rx.bad
      else deliver (pre ++ (p.bytes ++ post)) (pre.length + rxCmdLen) (p.frame.length + 4 - etherCrcLen)) = p.rx := by
  rw [show p.frame.length + 4 - etherCrcLen = p.frame.length from Nat.add_sub_cancel ..]
  unfold deliver rx good
  rw [p.get_bytes]
  by_cases hred : p.rxCmdA &&& rxCmdARed = 0
  · by_cases hmin : etherHeaderLen ≤ p.frame.length <;> simp [hred, hmin]
  · simp [hred]

theorem rx_all (ps : List Framed) :
    (⟨ps.flatMap (·.rx.packets), (ps.map (·.rx.badData)).sum⟩ : Rx) =
      ⟨(ps.filter (·.good)).map fun p => (p.frame, p.frame.length), ps.countP (!·.good)⟩ := by
  induction ps with
  | nil => rfl
  | cons p ps ih =>
    obtain ⟨hpackets, hbad⟩ := Rx.mk.inj ih
    rw [flatMap_cons, map_cons, sum_cons, hpackets, hbad, filter_cons, countP_cons]
    unfold rx
    cases p.good <;> simp [Rx.bad, Nat.add_comm]

end Framed

theorem frameLen_le {lan7500 : Bool} {rxCmdA len : ℕ} (h : frameLen lan7500 rxCmdA = some len) :
    len ≤ rxCmdALenMask := by
  have hmask : rxCmdA &&& rxCmdALenMask ≤ rxCmdALenMask := Nat.and_le_right
  unfold frameLen at h
  grind

theorem rxLoop_framed (p : Framed) {pre : List UInt8} {totalLen : ℕ} (post : List UInt8) (fuel : ℕ)
    (hpre : pre.length % 4 = 0) (htotal : pre.length + p.bytes.length ≤ totalLen) (hlong : totalLen < 2 ^ 32) :
    rxLoop false (pre ++ (p.bytes ++ post)) totalLen (fuel + 1) pre.length =
      (rxLoop false (pre ++ (p.bytes ++ post)) totalLen fuel (pre.length + p.bytes.length)).map p.rx.append := by
  have hlength := p.length_bytes
  have hpad := p.pad_length
  have hend : ulong (pre.length + rxCmdLen + (p.frame.length + 4)) = pre.length + p.frame.length + 14 := by
    unfold rxCmdLen
    rw [ulong_eq (by omega)]
    omega
  have hnext : cdcethAlign (pre.length + p.frame.length + 14) 4 = pre.length + p.bytes.length :=
    (align_eq (by omega)).trans (by omega)
  rw [rxLoop, if_pos (by unfold rxCmdLen; rw [ulong_eq (by omega)]; omega)]
  dsimp only
  rw [p.long_bytes, show frameLen false p.rxCmdA = _ from congrArg some p.counted]
  dsimp only
  rw [p.deliver_bytes, hend, hnext, if_neg (by omega), if_neg (by omega)]

/-- What is passed on is what has been sent, in its order; of a frame with an error there is the count only. -/
theorem handleRxBuffer_split (ps : List Framed) (post : List UInt8)
    (hlong : (ps.map Framed.bytes).flatten.length < 2 ^ 32 - 10) :
    handleRxBuffer false ((ps.map Framed.bytes).flatten ++ post) (ps.map Framed.bytes).flatten.length =
      some ⟨(ps.filter (·.good)).map fun p => (p.frame, p.frame.length), ps.countP (!·.good)⟩ := by
  refine (loop_blocks Framed.bytes Framed.rx post (fun p _ pre post fuel hmem hpre hstop => ?_) (fun p _ => ?_)
    (fun _ fuel => ?_) [] _ (nil_append _) rfl (Nat.zero_add _) ?_).trans (congrArg some (Framed.rx_all ps))
  · rw [← hmem]
    exact rxLoop_framed p post fuel hpre hstop (by omega)
  · rw [p.length_bytes]
    exact p.pad_length.2
  · exact if_neg (by unfold rxCmdLen; rw [ulong_eq (by omega)]; omega)
  · exact Nat.lt_succ_of_le (length_le_blocks fun p _ => by rw [p.length_bytes]; omega)

/-- The least frame that is passed on. -/
def least : Framed :=
  ⟨18, replicate 6 0, replicate 14 0xff, replicate 4 0, [], by decide, rfl, rfl, rfl, by decide⟩

theorem handleRxBuffer_split_least :
    handleRxBuffer false (([least, least].map Framed.bytes).flatten ++ [1]) 56 =
      some ⟨[(replicate 14 0xff, 14), (replicate 14 0xff, 14)], 0⟩ :=
  handleRxBuffer_split [least, least] [1] (by decide)

theorem rxLoop_ends {lan7500 : Bool} {buf : List UInt8} (hlong : buf.length ≤ 2 ^ 31) (fuel offset : ℕ)
    (hfuel : buf.length < offset + fuel) (hpos : 0 < fuel) (hoffset : offset ≤ buf.length + 3) :
    Ends buf (rxLoop lan7500 buf buf.length fuel offset) := by
  induction fuel generalizing offset with
  | zero => exact absurd hpos (Nat.lt_irrefl 0)
  | succ fuel ih =>
    rw [rxLoop]
    unfold rxCmdLen etherCrcLen
    rw [ulong_eq (by omega)]
    split
    · dsimp only
      split
      · exact ends_none
      · next len hlen =>
        have hle : len ≤ 0x3fff := frameLen_le hlen
        rw [ulong_eq (show offset + 10 + len < 2 ^ 32 by omega)]
        split
        · exact ends_bad
        · rw [align_eq (by omega), if_neg (by omega)]
          refine Ends.append ?_ (ih _ (by omega) (by omega) (by omega))
          split
          · exact ends_bad
          · exact ends_deliver (by omega)
    · exact ends_none

end Neptune.Lan78xx
