import Neptune.Proofs.Transfers

/-! A tag of the UAS engine issues the transfers of the loop, in whatever order its pipes reply. -/

namespace Neptune.BlockIo

open Uas (UasTag Wire Reply)
open MSTask (Command)

variable {ω : Type*} {ncm : NepClassMS} {io : IOStdReq} {iswrite : Bool} {cmds : List SCSICmd}

section

variable (ncm : NepClassMS) (bt : BlockTag)

theorem nUasSubmitChunk_ut (w : Wire) :
    ((nUasSubmitChunk ncm bt w).1, (nUasSubmitChunk ncm bt w).2.1.ut,
      (nUasSubmitChunk ncm bt w).2.2) = Uas.nUasSubmitChunk ncm.maxtrans bt.ut w := rfl

theorem nUasAdvanceChunk_ut :
    ((nUasAdvanceChunk ncm bt).1, (nUasAdvanceChunk ncm bt).2.ut) =
      Uas.nUasAdvanceChunk bt.ut := by
  unfold nUasAdvanceChunk
  simp only
  split <;> rename_i hmore
  · rw [← hmore]
  · rw [← Bool.eq_false_iff.mpr hmore]

theorem chunkDone_ut (w : Wire) :
    ((chunkDone ncm bt w).1.ut, (chunkDone ncm bt w).2) = Uas.chunkDone ncm.maxtrans bt.ut w := by
  have hadvance := nUasAdvanceChunk_ut ncm bt
  unfold chunkDone Uas.chunkDone
  split
  · rfl
  split
  · rfl
  split
  · rfl
  · rw [← hadvance]
    simp only
    split
    · rw [← nUasSubmitChunk_ut]
      split <;> rfl
    · rfl

end

theorem nUasTagPipeDone_ut (ncm : NepClassMS) (is_status : Bool) (bt : BlockTag) (w : Wire) :
    ((nUasTagPipeDone ncm is_status bt w).1.ut, (nUasTagPipeDone ncm is_status bt w).2) =
      Uas.nUasTagPipeDone ncm.maxtrans is_status bt.ut w := by
  unfold nUasTagPipeDone Uas.nUasTagPipeDone
  have hend : ∀ (ut : UasTag) (w : Wire),
      ((if ut.outstanding ≠ 0 then ({ bt with ut := ut }, w)
        else chunkDone ncm { bt with ut := ut } w).1.ut,
        (if ut.outstanding ≠ 0 then ({ bt with ut := ut }, w)
          else chunkDone ncm { bt with ut := ut } w).2) =
      if ut.outstanding ≠ 0 then (ut, w) else Uas.chunkDone ncm.maxtrans ut w := by
    intro ut w
    by_cases hout : ut.outstanding ≠ 0
    · simp only [if_pos hout]
    · simp only [if_neg hout]
      exact chunkDone_ut ncm _ w
  exact hend _ _

def CommandsOk (w : Wire) : Prop := ∀ ioerr ∈ w.commands, ioerr = 0

theorem sendIu_ok {w : Wire} (hw : CommandsOk w) (iu : Uas.Iu) :
    (Uas.sendIu iu w).1 = 0 ∧ CommandsOk (Uas.sendIu iu w).2 ∧
      (Uas.sendIu iu w).2.answered = w.answered := by
  unfold Uas.sendIu
  split
  · rename_i hnil
    refine ⟨rfl, ?_, rfl⟩
    intro ioerr hmem
    change ioerr ∈ w.commands at hmem
    rw [hnil] at hmem
    exact absurd hmem List.not_mem_nil
  · rename_i ioerr commands hcons
    refine ⟨hw ioerr (hcons ▸ List.mem_cons_self), ?_, rfl⟩
    intro e hmem
    exact hw e (hcons ▸ List.mem_cons_of_mem ioerr hmem)

theorem cdbLength_rw (iswrite : Bool) (high start n shift : ℕ) :
    cdbLength ((nBuildRWCdb iswrite high start n shift).1.headD 0) =
      (nBuildRWCdb iswrite high start n shift).2 := by
  unfold nBuildRWCdb
  split <;> cases iswrite
  · exact (by decide : cdbLength SCSI_DA_READ_16 = 16)
  · exact (by decide : cdbLength SCSI_DA_WRITE_16 = 16)
  · exact (by decide : cdbLength SCSI_DA_READ_10 = 10)
  · exact (by decide : cdbLength SCSI_DA_WRITE_10 = 10)

theorem chunk_cmd (ncm : NepClassMS) (iswrite : Bool) (c : Cursor) (n : ℕ) :
    Chunk.cmd ⟨(nBuildRWCdb iswrite c.startblockhigh c.startblock n ncm.blockShift).1, c.dataoffset,
      n, !iswrite⟩ = rwCmd ncm iswrite c n := by
  unfold rwCmd Chunk.cmd
  simp only [cdbLength_rw]

def BlockTag.cursor (bt : BlockTag) : Cursor :=
  ⟨bt.startBlockHigh, bt.startBlock, bt.ut.offset, bt.ut.remain⟩

/-- The tag as its request begins, or as the next chunk is to be sent: the transfers of `cmds` are
those issued and those of the cursor. -/
structure Ready (ncm : NepClassMS) (ioreq length : ℕ) (iswrite : Bool) (cmds : List SCSICmd)
    (bt : BlockTag) : Prop where
  state : bt.ut.state = .running
  ioreq : bt.ut.ioreq = some ioreq
  isRead : bt.ut.isRead = !iswrite
  failed : bt.ut.failed = false
  length : bt.ut.offset + bt.ut.remain = length
  rest : ∃ rest, Transfers ncm iswrite bt.cursor rest ∧ bt.issued.map Chunk.cmd ++ rest = cmds

structure Sent (ncm : NepClassMS) (ioreq length : ℕ) (iswrite : Bool) (cmds : List SCSICmd)
    (bt : BlockTag) : Prop where
  state : bt.ut.state = .running
  ioreq : bt.ut.ioreq = some ioreq
  isRead : bt.ut.isRead = !iswrite
  failed : bt.ut.failed = false
  length : bt.ut.offset + bt.ut.remain = length
  chunkLen : bt.ut.chunkLen = bt.cursor.datalen ncm
  rest : ∃ rest, Transfers ncm iswrite (bt.cursor.advance ncm bt.ut.chunkLen) rest ∧
    bt.issued.map Chunk.cmd ++ rest = cmds

structure Waits (bt : BlockTag) (s d : Bool) : Prop where
  status : bt.ut.statusArmed = s
  data : bt.ut.dataArmed = d
  outstanding : bt.ut.outstanding = s.toNat + d.toNat

variable {ioreq length : ℕ} {bt : BlockTag} {w : Wire}

theorem submitChunk_sent (h : Ready ncm ioreq length iswrite cmds bt) (hleft : bt.ut.remain ≠ 0)
    (hw : CommandsOk w) :
    (nUasSubmitChunk ncm bt w).1 = 0 ∧
      Sent ncm ioreq length iswrite cmds (nUasSubmitChunk ncm bt w).2.1 ∧
      Waits (nUasSubmitChunk ncm bt w).2.1 true true ∧
      (nUasSubmitChunk ncm bt w).2.1.issued.length = bt.issued.length + 1 ∧
      CommandsOk (nUasSubmitChunk ncm bt w).2.2 ∧
      (nUasSubmitChunk ncm bt w).2.2.answered = w.answered := by
  obtain ⟨rest, hrest, hcmds⟩ := h.rest
  have hpos : min bt.ut.remain ncm.maxtrans ≠ 0 := by
    have := maxtrans_pos ncm
    omega
  obtain ⟨hsend, hok, hanswered⟩ := sendIu_ok hw
    (.command (Uas.armChunk bt.ut (min bt.ut.remain ncm.maxtrans)).tag)
  have hchunk := chunk_cmd ncm iswrite bt.cursor (bt.cursor.datalen ncm)
  unfold nUasSubmitChunk Uas.nUasSubmitChunk
  simp only [hsend, ne_eq, not_true_eq_false, if_false]
  refine ⟨trivial, ?_, ?_, ?_, hok, hanswered⟩
  · cases hrest with
    | done hzero => exact absurd hzero hleft
    | next hne hrest =>
      unfold Uas.armChunk
      simp only [if_pos hpos]
      refine ⟨h.state, h.ioreq, h.isRead, h.failed, h.length, rfl, _, hrest, ?_⟩
      rw [← hcmds, List.map_append, List.append_assoc]
      congr 1
      rw [← hchunk]
      simp only [h.isRead, Bool.not_not]
      rfl
  · unfold Uas.armChunk
    simp only [if_pos hpos]
    exact ⟨rfl, rfl, rfl⟩
  · rw [List.length_append]
    rfl

/-- The reply of a transfer that succeeds; that of the status pipe is a Sense IU with `GOOD`. -/
def Good (_ : BlockTag × Wire) (e : Bool × Reply) : Prop :=
  e.2.ioerr = 0 ∧ (e.1 = true → Uas.nUasIUId e.2 = Uas.UAS_IU_ID_SENSE ∧
    Uas.nUasParseStatus e.2 = Uas.SCSI_GOOD)

structure GoodStatus (ut : UasTag) : Prop where
  forgiven : Uas.nUasErrForgiven ut.status.ioerr = true
  sense : Uas.nUasIUId ut.status = Uas.UAS_IU_ID_SENSE
  good : Uas.nUasParseStatus ut.status = Uas.SCSI_GOOD
  seen : ut.statusSeen = true

variable {ut : UasTag} {t : BlockTag × Wire} {evs : List (Bool × Reply)}

theorem GoodStatus.isGood (h : GoodStatus ut) : Uas.nUasStatusGood ut = true := by
  unfold Uas.nUasStatusGood
  rw [h.forgiven, h.sense, h.good]
  rfl

def withStatus (ut : UasTag) (r : Reply) : UasTag :=
  { ut with statusArmed := false, statusBusy := false, status := r, statusSeen := true }

theorem forgiven_zero {r : Reply} (h : r.ioerr = 0) : Uas.nUasErrForgiven r.ioerr = true := by
  rw [h]
  rfl

section

variable {r : Reply} (h0 : r.ioerr = 0)
include h0

theorem withStatus_good
    (hsense : Uas.nUasIUId r = Uas.UAS_IU_ID_SENSE) (hgood : Uas.nUasParseStatus r = Uas.SCSI_GOOD) :
    GoodStatus (withStatus ut r) := ⟨forgiven_zero h0, hsense, hgood, rfl⟩

theorem statusDone_good (hsense : Uas.nUasIUId r = Uas.UAS_IU_ID_SENSE) (hgood : Uas.nUasParseStatus r = Uas.SCSI_GOOD)
    (w : Wire) :
    Uas.statusDone ut { w with replies := [r] } =
      (withStatus ut r, { w with
        replies := [], passed := w.passed ++ [.replied (.status ut.tag) r] }, 0) := by
  have hstatus := (@withStatus_good ut r h0 hsense hgood).isGood
  unfold Uas.statusDone Uas.psdWaitPipe Wire.pass
  simp only [h0, hsense, decide_true]
  have hgood' : Uas.nUasStatusGood { ut with
      statusArmed := false, statusBusy := false, status := r, statusSeen := true } = true := hstatus
  rw [hgood', Bool.not_true, Bool.and_false]
  rfl

theorem dataDone_good (w : Wire) :
    Uas.dataDone ut { w with replies := [r] } =
      ({ ut with dataArmed := false, dataBusy := false }, { w with
        replies := [], passed := w.passed ++ [.replied (.data ut.tag) r] }, 0) := by
  unfold Uas.dataDone Uas.psdWaitPipe Wire.pass
  simp only [h0, ite_self]

end

theorem pipeDone_done (is_status : Bool) {w w' : Wire} {k : ℕ}
    (h : (if is_status then Uas.statusDone bt.ut w else Uas.dataDone bt.ut w) = (ut, w', 0)) (hout : ut.outstanding = k) :
    nUasTagPipeDone ncm is_status bt w =
      if usub k 1 ≠ 0 then ({ bt with ut := { ut with outstanding := usub k 1 } }, w')
      else chunkDone ncm { bt with ut := { ut with outstanding := usub k 1 } } w' := by
  unfold nUasTagPipeDone
  rw [h, ← hout]
  rfl

theorem advanceChunk_last (h : bt.ut.remain - bt.ut.chunkLen = 0) :
    nUasAdvanceChunk ncm bt = (false, { bt with ut := { bt.ut with
      offset := bt.ut.offset + bt.ut.chunkLen, remain := bt.ut.remain - bt.ut.chunkLen } }) := by
  unfold nUasAdvanceChunk Uas.nUasAdvanceChunk
  simp [h]

structure Finished (ioreq length : ℕ) (cmds : List SCSICmd) (answered : List (ℕ × ℤ × ℕ))
    (bt : BlockTag) (w : Wire) : Prop where
  issued : bt.issued.map Chunk.cmd = cmds
  state : bt.ut.state = .free
  status : bt.ut.statusArmed = false
  data : bt.ut.dataArmed = false
  answered : w.answered = answered ++ [(ioreq, 0, length)]

def Going (ncm : NepClassMS) (ioreq length : ℕ) (iswrite : Bool) (cmds : List SCSICmd)
    (answered : List (ℕ × ℤ × ℕ)) (n : ℕ) (bt : BlockTag) (w : Wire) : Prop :=
  (∃ s d, (s || d) = true ∧ Sent ncm ioreq length iswrite cmds bt ∧ Waits bt s d ∧
    (s = false → GoodStatus bt.ut) ∧ CommandsOk w ∧ w.answered = answered ∧
    n + (s.toNat + d.toNat) = 2 * bt.issued.length) ∨
  (Finished ioreq length cmds answered bt w ∧ n = 2 * bt.issued.length)

theorem chunkDone_going {answered : List (ℕ × ℤ × ℕ)} {n : ℕ}
    (h : Sent ncm ioreq length iswrite cmds bt) (hwaits : Waits bt false false)
    (hstatus : GoodStatus bt.ut) (hw : CommandsOk w) (hanswered : w.answered = answered)
    (hn : n = 2 * bt.issued.length) :
    Going ncm ioreq length iswrite cmds answered n (chunkDone ncm bt w).1 (chunkDone ncm bt w).2 := by
  obtain ⟨rest, hrest, hcmds⟩ := h.rest
  have hle := datalen_le ncm bt.cursor
  have hchunk : bt.ut.chunkLen ≤ bt.ut.remain := h.chunkLen ▸ hle
  have hlen := h.length
  unfold chunkDone
  rw [if_neg (by rw [h.failed]; decide), if_neg (by rw [hstatus.sense]; decide),
    if_neg (by rw [hstatus.good]; decide)]
  by_cases hmore : bt.ut.remain - bt.ut.chunkLen = 0
  · -- the last one
    rw [advanceChunk_last hmore]
    simp only [Bool.false_eq_true, if_false]
    refine .inr ⟨?_, hn⟩
    have hnil : rest = [] := by
      cases hrest with
      | done => rfl
      | next hne => exact absurd hmore hne
    unfold nUasFinalizeTag Uas.nUasFinalizeTag
    simp only [hstatus.seen, Bool.not_true, Bool.and_false, h.ioreq]
    refine ⟨?_, rfl, hwaits.status, hwaits.data, ?_⟩
    · rw [← hcmds, hnil, List.append_nil]
    · have hall : bt.ut.offset + bt.ut.chunkLen = length := by omega
      rw [hanswered, hall]
  · have hadvance : (nUasAdvanceChunk ncm bt).1 = true ∧
        Ready ncm ioreq length iswrite cmds (nUasAdvanceChunk ncm bt).2 ∧
        (nUasAdvanceChunk ncm bt).2.ut.remain ≠ 0 ∧
        (nUasAdvanceChunk ncm bt).2.issued = bt.issued := by
      have hsum : bt.ut.offset + bt.ut.chunkLen + (bt.ut.remain - bt.ut.chunkLen) = length := by
        omega
      unfold nUasAdvanceChunk Uas.nUasAdvanceChunk
      simp only [ne_eq, hmore, not_false_eq_true, decide_true, if_true]
      exact ⟨trivial, ⟨h.state, h.ioreq, h.isRead, h.failed, hsum, rest, hrest, hcmds⟩, trivial,
        trivial⟩
    obtain ⟨htrue, hready, hleft, hissued⟩ := hadvance
    obtain ⟨hsend, hsent, hwaits', hcount, hok, hans⟩ := submitChunk_sent hready hleft hw
    simp only [htrue, if_true, hsend, ne_eq, not_true_eq_false, if_false]
    refine .inl ⟨true, true, rfl, hsent, hwaits', nofun, hok, hans.trans hanswered, ?_⟩
    rw [hcount, hissued, hn]
    rfl

variable {answered : List (ℕ × ℤ × ℕ)} {n : ℕ} {r : Reply}

theorem Sent.withStatus (h : Sent ncm ioreq length iswrite cmds bt) (r : Reply) (k : ℕ) :
    Sent ncm ioreq length iswrite cmds
      { bt with ut := { withStatus bt.ut r with outstanding := k } } :=
  ⟨h.state, h.ioreq, h.isRead, h.failed, h.length, h.chunkLen, h.rest⟩

theorem Sent.withData (h : Sent ncm ioreq length iswrite cmds bt) (k : ℕ) :
    Sent ncm ioreq length iswrite cmds
      { bt with ut := { bt.ut with dataArmed := false, dataBusy := false, outstanding := k } } :=
  ⟨h.state, h.ioreq, h.isRead, h.failed, h.length, h.chunkLen, h.rest⟩

theorem status_going {d : Bool} (hsent : Sent ncm ioreq length iswrite cmds bt)
    (hwaits : Waits bt true d) (hok : CommandsOk w) (hanswered : w.answered = answered)
    (hn : n + (1 + d.toNat) = 2 * bt.issued.length) (h0 : r.ioerr = 0)
    (hsense : Uas.nUasIUId r = Uas.UAS_IU_ID_SENSE) (hgood : Uas.nUasParseStatus r = Uas.SCSI_GOOD) :
    Going ncm ioreq length iswrite cmds answered (n + 1)
      (nUasTagPipeDone ncm true bt { w with replies := [r] }).1
      (nUasTagPipeDone ncm true bt { w with replies := [r] }).2 := by
  have hgs := @withStatus_good bt.ut r h0 hsense hgood
  rw [pipeDone_done true ((if_pos rfl).trans (statusDone_good h0 hsense hgood w)) hwaits.outstanding]
  cases d with
  | true =>
    have hout : usub (true.toNat + true.toNat) 1 = 1 := by decide
    rw [hout, if_pos (by decide)]
    exact .inl ⟨false, true, rfl, hsent.withStatus r 1, ⟨rfl, hwaits.data, rfl⟩,
      fun _ => ⟨hgs.forgiven, hgs.sense, hgs.good, hgs.seen⟩, hok, hanswered, hn⟩
  | false =>
    have hout : usub (true.toNat + false.toNat) 1 = 0 := by decide
    rw [hout, if_neg (by decide)]
    exact chunkDone_going (hsent.withStatus r 0) ⟨rfl, hwaits.data, rfl⟩
      ⟨hgs.forgiven, hgs.sense, hgs.good, hgs.seen⟩ hok hanswered hn

theorem data_going {s : Bool} (hsent : Sent ncm ioreq length iswrite cmds bt)
    (hwaits : Waits bt s true) (hstatus : s = false → GoodStatus bt.ut) (hok : CommandsOk w)
    (hanswered : w.answered = answered) (hn : n + (s.toNat + 1) = 2 * bt.issued.length)
    (h0 : r.ioerr = 0) :
    Going ncm ioreq length iswrite cmds answered (n + 1)
      (nUasTagPipeDone ncm false bt { w with replies := [r] }).1
      (nUasTagPipeDone ncm false bt { w with replies := [r] }).2 := by
  rw [pipeDone_done false ((if_neg Bool.false_ne_true).trans (dataDone_good h0 w)) hwaits.outstanding]
  cases s with
  | true =>
    have hout : usub (true.toNat + true.toNat) 1 = 1 := by decide
    rw [hout, if_pos (by decide)]
    exact .inl ⟨true, false, rfl, hsent.withData 1, ⟨hwaits.status, rfl, rfl⟩, nofun, hok,
      hanswered, hn⟩
  | false =>
    have hout : usub (false.toNat + true.toNat) 1 = 0 := by decide
    have hgs := hstatus rfl
    rw [hout, if_neg (by decide)]
    exact chunkDone_going (hsent.withData 0) ⟨hwaits.status, rfl, rfl⟩
      ⟨hgs.forgiven, hgs.sense, hgs.good, hgs.seen⟩ hok hanswered hn

theorem tagStep_going {e : Bool × Reply}
    (h : Going ncm ioreq length iswrite cmds answered n bt w) (hgood : Good (bt, w) e)
    (hstep : tagStep ncm (bt, w) e = some t) :
    Going ncm ioreq length iswrite cmds answered (n + 1) t.1 t.2 := by
  obtain ⟨is_status, r⟩ := e
  obtain ⟨h0, hiu⟩ := hgood
  unfold tagStep at hstep
  simp only [Option.ite_none_right_eq_some, Option.some.injEq] at hstep
  obtain ⟨harmed, rfl⟩ := hstep
  rcases h with ⟨s, d, -, hsent, hwaits, hstatus, hok, hanswered, hn⟩ | ⟨hfin, -⟩
  · cases is_status with
    | true =>
      obtain rfl : s = true := hwaits.status.symm.trans harmed
      exact status_going hsent hwaits hok hanswered hn h0 (hiu rfl).1 (hiu rfl).2
    | false =>
      obtain rfl : d = true := hwaits.data.symm.trans harmed
      exact data_going hsent hwaits hstatus hok hanswered hn h0
  · cases is_status with
    | true => exact absurd (hfin.status.symm.trans harmed) (by decide)
    | false => exact absurd (hfin.data.symm.trans harmed) (by decide)

def IOStdReq.meant (io : IOStdReq) (cmd : Command) : IOStdReq :=
  if cmd = .cmdRead ∨ cmd = .cmdWrite then io.short else io

def opened (ncm : NepClassMS) (ioreq : ℕ) (cmd : Command) (io : IOStdReq) (ut : UasTag) : BlockTag :=
  ⟨{ ut with ioreq := some ioreq, isRead := cmd.isRead, offset := 0, remain := (io.meant cmd).length,
             abortReq := false, failed := false, state := .running },
    (io.meant cmd).actual >>> ncm.blockShift, startBlock ncm (io.meant cmd), []⟩

theorem nUasSubmitTag_eq (ncm : NepClassMS) (ioreq : ℕ) (cmd : Command) (io : IOStdReq)
    (ut : UasTag) (w : Wire) :
    nUasSubmitTag ncm ioreq cmd io ut w =
      if (nUasSubmitChunk ncm (opened ncm ioreq cmd io ut) w).1 ≠ 0 then
        nUasFinalizeTag (nUasSubmitChunk ncm (opened ncm ioreq cmd io ut) w).2.1
          (nUasSubmitChunk ncm (opened ncm ioreq cmd io ut) w).2.2 Uas.HFERR_Phase
      else (nUasSubmitChunk ncm (opened ncm ioreq cmd io ut) w).2 := rfl

theorem meant_length (io : IOStdReq) (cmd : Command) : (io.meant cmd).length = io.length := by
  unfold IOStdReq.meant
  split <;> rfl

theorem meant_offset (io : IOStdReq) (cmd : Command) : (io.meant cmd).offset = io.offset := by
  unfold IOStdReq.meant
  split <;> rfl

theorem nUasSubmitTag_ut (ncm : NepClassMS) (ioreq : ℕ) (cmd : Command) (io : IOStdReq)
    (ut : UasTag) (w : Wire) :
    ((nUasSubmitTag ncm ioreq cmd io ut w).1.ut, (nUasSubmitTag ncm ioreq cmd io ut w).2) =
      Uas.nUasSubmitTag ncm.maxtrans ioreq io.length cmd.isRead ut w := by
  have hsubmit := nUasSubmitChunk_ut ncm (opened ncm ioreq cmd io ut) w
  rw [nUasSubmitTag_eq]
  unfold Uas.nUasSubmitTag
  rw [← meant_length io cmd]
  change _ = (if (Uas.nUasSubmitChunk ncm.maxtrans (opened ncm ioreq cmd io ut).ut w).1 ≠ 0 then _
    else _ : UasTag × Wire)
  rw [← hsubmit]
  simp only
  split <;> rfl

theorem submitTag_going (cmd : Command) (ut : UasTag) (hw : CommandsOk w) (hlen : io.length ≠ 0)
    (hcmds : Transfers ncm (!cmd.isRead) (startCursor ncm (io.meant cmd)) cmds) :
    Going ncm ioreq io.length (!cmd.isRead) cmds w.answered 0
      (nUasSubmitTag ncm ioreq cmd io ut w).1 (nUasSubmitTag ncm ioreq cmd io ut w).2 := by
  have hlength := meant_length io cmd
  have hready : Ready ncm ioreq io.length (!cmd.isRead) cmds (opened ncm ioreq cmd io ut) :=
    ⟨rfl, rfl, (Bool.not_not _).symm, rfl, (Nat.zero_add _).trans hlength, cmds, hcmds, rfl⟩
  have hleft : (opened ncm ioreq cmd io ut).ut.remain ≠ 0 :=
    fun hzero => hlen (hlength.symm.trans hzero)
  obtain ⟨hsend, hsent, hwaits, hcount, hok, hanswered⟩ := submitChunk_sent hready hleft hw
  rw [nUasSubmitTag_eq, if_neg (not_not.mpr hsend)]
  refine .inl ⟨true, true, rfl, hsent, hwaits, nofun, hok, hanswered, ?_⟩
  rfl

theorem tagRun_going {cmd : Command} (hw : CommandsOk w) (hlen : io.length ≠ 0)
    (hcmds : Transfers ncm (!cmd.isRead) (startCursor ncm (io.meant cmd)) cmds)
    (hrun : Runs.Run (tagStep ncm) Good (nUasSubmitTag ncm ioreq cmd io ut w) evs t) :
    Going ncm ioreq io.length (!cmd.isRead) cmds w.answered evs.length t.1 t.2 := by
  refine hrun.invariant_trace (fun evs t => Going ncm ioreq io.length (!cmd.isRead) cmds w.answered
    evs.length t.1 t.2) (submitTag_going cmd ut hw hlen hcmds) ?_
  intro evs t e u hgoing hgood hstep
  rw [List.length_append]
  exact tagStep_going hgoing hgood hstep

structure TagIssues (cmds : List SCSICmd) (done : List (ℕ × ℤ × ℕ)) (ncm : NepClassMS)
    (evs : List (Bool × Reply)) (t : BlockTag × Wire) : Prop where
  issued : t.1.issued.map Chunk.cmd <+: cmds
  bounded : evs.length ≤ 2 * cmds.length
  ends : (∀ e, Good t e → tagStep ncm t e = none) →
    t.1.issued.map Chunk.cmd = cmds ∧ t.2.answered = done

def goodReply : Reply := ⟨0, 16, [3, 0, 0, 0, 0, 0, 0]⟩

theorem goodReply_good (t : BlockTag × Wire) (is_status : Bool) : Good t (is_status, goodReply) :=
  ⟨rfl, fun _ => ⟨(by decide : Uas.nUasIUId goodReply = _),
    (by decide : Uas.nUasParseStatus goodReply = _)⟩⟩

theorem Going.issues
    (h : Going ncm ioreq length iswrite cmds answered evs.length t.1 t.2) :
    TagIssues cmds (answered ++ [(ioreq, 0, length)]) ncm evs t := by
  rcases h with ⟨s, d, hsd, hsent, hwaits, -, -, -, hn⟩ | ⟨hfin, hn⟩
  · obtain ⟨rest, -, hcmds⟩ := hsent.rest
    have hlen := congrArg List.length hcmds
    rw [List.length_append, List.length_map] at hlen
    refine ⟨⟨rest, hcmds⟩, by omega, ?_⟩
    -- one of the two pipes can reply
    intro hstuck
    have hnone := hstuck _ (goodReply_good t s)
    unfold tagStep at hnone
    cases s with
    | true => simp [hwaits.status] at hnone
    | false =>
      have hd : d = true := hsd
      simp [hwaits.data, hd] at hnone
  · refine ⟨hfin.issued ▸ List.prefix_rfl, ?_, fun _ => ⟨hfin.issued, hfin.answered⟩⟩
    rw [← hfin.issued, List.length_map, hn]

/-- Both paths issue the same transfers, and these are just the blocks of the request. -/
structure SameTransfers (ncm : NepClassMS) (cmd : Command) (io : IOStdReq) (cmds : List SCSICmd) :
    Prop where
  covers : Covers ncm.blockSize (!cmd.isRead) ((io.meant cmd).position / ncm.blockSize)
    (io.length / ncm.blockSize) cmds
  sync : ∀ (ω : Type) (nScsiDirect : ScsiDirect ω), Succeeds nScsiDirect → ∀ alloc emul h,
    ∃ o, blockArm ncm alloc emul (recorded nScsiDirect) cmd io h = some o ∧
      o.actual = io.length ∧ o.host.world.2 = h.world.2 ++ cmds
  tagged : ∀ queueDepth emul, nUasEligible ncm queueDepth emul cmd io = true →
    ∀ ioreq ut w, CommandsOk w → ∀ evs t,
      Runs.Run (tagStep ncm) Good (nUasSubmitTag ncm ioreq cmd io ut w) evs t →
        TagIssues cmds (w.answered ++ [(ioreq, 0, io.length)]) ncm evs t

theorem blockArm_eq (ncm : NepClassMS) (alloc emul : Bool) (nScsiDirect : ScsiDirect ω)
    (cmd : Command) (io : IOStdReq) (h : Host ω) :
    blockArm ncm alloc emul nScsiDirect cmd io h =
      nReadWrite64 ncm (!cmd.isRead) alloc emul nScsiDirect (io.meant cmd) h := by
  unfold blockArm
  change (if cmd.isRead then nRead64 ncm alloc emul nScsiDirect (io.meant cmd) h
    else nWrite64 ncm alloc emul nScsiDirect (io.meant cmd) h) = _
  cases cmd.isRead <;> rfl

theorem nUasEligible_length {queueDepth : ℕ} {emul : Bool} {cmd : Command}
    (h : nUasEligible ncm queueDepth emul cmd io = true) : io.length ≠ 0 := by
  unfold nUasEligible at h
  simp only [Bool.and_eq_true, decide_eq_true_iff] at h
  exact h.1.1.2

theorem paths_issue_same (hs : Sized ncm) (hl : ncm.blockSize ∣ io.length)
    (ho : ncm.blockSize ∣ io.offset) (cmd : Command) (_ : cmd.block = true) :
    ∃ cmds, SameTransfers ncm cmd io cmds := by
  have hlength := meant_length io cmd
  have hl' : ncm.blockSize ∣ (io.meant cmd).length := hlength ▸ hl
  have ho' : ncm.blockSize ∣ (io.meant cmd).offset := meant_offset io cmd ▸ ho
  have honBlocks := startCursor_onBlocks hs hl'
  -- the list is the one that any succeeding transport is handed
  obtain ⟨cmds, -, htransfers, -⟩ := @nReadWrite64_transfers Unit ncm (io.meant cmd) (!cmd.isRead)
    (fun _ h => (0, h)) (fun _ _ => rfl) hl' ho' true true ⟨fun _ => 0, fun _ => 0, ((), [])⟩
  refine ⟨cmds, ?_, ?_, ?_⟩
  · have hcovers := htransfers.covers hs honBlocks
    rw [(startCursor_lba hs _).1] at hcovers
    rw [← hlength]
    exact hcovers
  · intro ω nScsiDirect hok alloc emul h
    obtain ⟨cmds', o, htransfers', ho, hactual, hworld⟩ :=
      @nReadWrite64_transfers ω ncm (io.meant cmd) (!cmd.isRead) nScsiDirect hok hl' ho' alloc emul h
    rw [htransfers.unique htransfers']
    exact ⟨o, (blockArm_eq ncm alloc emul _ cmd io h).trans ho, hactual.trans hlength, hworld⟩
  · intro queueDepth emul heligible ioreq ut w hw evs t hrun
    exact (tagRun_going hw (nUasEligible_length heligible) htransfers hrun).issues

def acrossBoundary : IOStdReq :=
  ⟨131072, 4294901760, 511, 0, by norm_num, by norm_num, by norm_num⟩

theorem paths_issue_same_across :
    ∃ cmds, SameTransfers ⟨9, 0, none⟩ .tdRead64 acrossBoundary cmds :=
  paths_issue_same ⟨by decide, by decide, by decide⟩ ⟨256, by decide⟩ ⟨8388480, by decide⟩ .tdRead64
    rfl

end Neptune.BlockIo
