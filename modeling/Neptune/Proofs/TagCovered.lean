import Neptune.Proofs.SyncCovered
import Neptune.Proofs.UasLedger

/-! A block request on a tag of the UAS engine that is replied without an error: its chunks go
through the data, and both pipes of each have replied well. With that of the unit task, this is what
the success of a block request stands for. -/

namespace Neptune.BlockIo

open List Option

open Uas (UasTag Wire Reply TagInv)
open MSTask (Command)

variable {ncm : NepClassMS} {length : ℕ} {bt : BlockTag} {w : Wire} {t : TagRun} {r : Reply}

/-- Both pipes of the chunk have replied: a Sense IU with `GOOD`, and data with an error that is
forgiven at most. -/
structure ChunkDone (log : List (ℕ × Bool × Reply)) (k : ℕ) : Prop where
  status : ∃ s, (k, true, s) ∈ log ∧ Uas.nUasErrForgiven s.ioerr = true ∧
    Uas.nUasIUId s = Uas.UAS_IU_ID_SENSE ∧ Uas.nUasParseStatus s = Uas.SCSI_GOOD
  data : ∃ d, (k, false, d) ∈ log ∧ Uas.nUasErrForgiven d.ioerr = true

theorem ChunkDone.mono {log log' : List (ℕ × Bool × Reply)} {k : ℕ} (h : ChunkDone log k)
    (hsub : log ⊆ log') : ChunkDone log' k := by
  obtain ⟨⟨s, hs, hstatus⟩, d, hd, hdata⟩ := h
  exact ⟨⟨s, hsub hs, hstatus⟩, d, hsub hd, hdata⟩

/-- The chunks go through the data from an offset to an end, without a gap. -/
inductive ChunkParts : List Chunk → ℕ → ℕ → Prop
  | done {n : ℕ} : ChunkParts [] n n
  | next {c : Chunk} {cs : List Chunk} {offset n : ℕ} (hc : c.dataoffset = offset)
      (hrest : ChunkParts cs (offset + c.datalen) n) : ChunkParts (c :: cs) offset n

theorem ChunkParts.snoc {cs : List Chunk} {c : Chunk} {offset n : ℕ} (h : ChunkParts cs offset n)
    (hc : c.dataoffset = n) : ChunkParts (cs ++ [c]) offset (n + c.datalen) := by
  induction h with
  | done => exact .next hc .done
  | next hd _ ih => exact .next hd (ih hc)

def collect (is_status : Bool) (ut : UasTag) (r : Reply) : UasTag × ℤ :=
  if is_status then
    ({ ut with
      statusArmed := false, statusBusy := false, status := r
      statusSeen := if Uas.nUasErrForgiven r.ioerr then Uas.nUasIUId r = Uas.UAS_IU_ID_SENSE
        else ut.statusSeen }, r.ioerr)
  else
    ({ ut with dataArmed := false, dataBusy := false },
      if !ut.statusArmed && !Uas.nUasStatusGood { ut with dataArmed := false, dataBusy := false } then 0
      else r.ioerr)

def settle (is_status : Bool) (ut : UasTag) (r : Reply) : UasTag :=
  let (ut, ioerr) := collect is_status ut r
  { ut with
    outstanding := usub ut.outstanding 1, failed := ut.failed || !Uas.nUasErrForgiven ioerr }

theorem statusDone_collect (ut : UasTag) (r : Reply) (w : Wire) :
    ∃ w', w'.answered = w.answered ∧ Uas.statusDone ut { w with replies := [r] } =
      ((collect true ut r).1, w', (collect true ut r).2) := by
  unfold Uas.statusDone collect Uas.psdWaitPipe Wire.pass
  simp only [if_true]
  split
  · refine ⟨_, ?_, rfl⟩
    split <;> rfl
  · refine ⟨_, ?_, rfl⟩
    rfl

theorem marked (failed : Bool) (ut : UasTag) :
    (if failed && !ut.failed then { ut with failed := true } else ut) =
      { ut with failed := ut.failed || failed } := by
  cases failed <;> cases hfailed : ut.failed
  · change ut = { ut with failed := false }
    rw [← hfailed]
  · change ut = { ut with failed := true }
    rw [← hfailed]
  · rfl
  · change ut = { ut with failed := true }
    rw [← hfailed]

theorem pipeDone_settle (ncm : NepClassMS) (is_status : Bool) (bt : BlockTag) (r : Reply)
    (w : Wire) :
    ∃ w', w'.answered = w.answered ∧ nUasTagPipeDone ncm is_status bt { w with replies := [r] } =
      if (settle is_status bt.ut r).outstanding ≠ 0 then
        ({ bt with ut := settle is_status bt.ut r }, w')
      else chunkDone ncm { bt with ut := settle is_status bt.ut r } w' := by
  obtain ⟨w', hanswered, hdone⟩ : ∃ w', w'.answered = w.answered ∧
      (if is_status then Uas.statusDone bt.ut { w with replies := [r] }
        else Uas.dataDone bt.ut { w with replies := [r] }) =
        ((collect is_status bt.ut r).1, w', (collect is_status bt.ut r).2) := by
    cases is_status with
    | true => exact statusDone_collect bt.ut r w
    | false =>
      refine ⟨_, ?_, rfl⟩
      rfl
  unfold nUasTagPipeDone settle
  rw [hdone]
  generalize collect is_status bt.ut r = done
  obtain ⟨ut, ioerr⟩ := done
  simp only
  have hmark := marked (!Uas.nUasErrForgiven ioerr) { ut with outstanding := usub ut.outstanding 1 }
  simp only at hmark
  rw [hmark]
  refine ⟨_, ?_, rfl⟩
  split
  · exact Uas.signalAbort_answered.trans hanswered
  · exact hanswered

structure Sending (length : ℕ) (bt : BlockTag) (log : List (ℕ × Bool × Reply)) : Prop where
  sum : bt.ut.offset + bt.ut.remain = length
  chunk : bt.ut.chunkLen ≤ bt.ut.remain
  sent : ∃ cs c, bt.issued = cs ++ [c] ∧ ChunkParts cs 0 bt.ut.offset ∧
    c.dataoffset = bt.ut.offset ∧ c.datalen = bt.ut.chunkLen ∧ ∀ k < cs.length, ChunkDone log k
  status : bt.ut.statusArmed = false → (bt.issued.length - 1, true, bt.ut.status) ∈ log ∧
    Uas.nUasErrForgiven bt.ut.status.ioerr = true
  data : bt.ut.dataArmed = false → ∃ d, (bt.issued.length - 1, false, d) ∈ log ∧
    (Uas.nUasErrForgiven d.ioerr = true ∨
      (bt.ut.statusArmed = false ∧ Uas.nUasStatusGood bt.ut = false))

structure AllDone (length : ℕ) (bt : BlockTag) (log : List (ℕ × Bool × Reply)) : Prop where
  parts : ChunkParts bt.issued 0 length
  done : ∀ k < bt.issued.length, ChunkDone log k

/-- The request is not replied while the tag runs, and without an error only once all is done. -/
structure TagCovered (length : ℕ) (t : TagRun) : Prop where
  running : t.bt.ut.state = .running → t.wire.answered = []
  sending : t.bt.ut.state = .running → t.bt.ut.failed = false → Sending length t.bt t.log
  answered : ∀ e ∈ t.wire.answered, e.2.1 = 0 → e.2.2 = length ∧ AllDone length t.bt t.log

variable {log : List (ℕ × Bool × Reply)} {ioerr : ℤ}

theorem finalize_covered (hw : w.answered = [])
    (hok : ioerr = 0 → bt.ut.offset = length ∧ AllDone length bt log) :
    TagCovered length ⟨(nUasFinalizeTag bt w ioerr).1, (nUasFinalizeTag bt w ioerr).2, log⟩ := by
  have hidle := Uas.finalize_idle bt.ut w ioerr
  refine ⟨fun h => absurd h hidle, fun h => absurd h hidle, ?_⟩
  intro e he hzero
  change e ∈ (Uas.nUasFinalizeTag bt.ut w ioerr).2.answered at he
  unfold Uas.nUasFinalizeTag at he
  simp only at he
  split at he
  · rw [hw, nil_append] at he
    obtain rfl := mem_singleton.mp he
    obtain ⟨hoffset, hdone⟩ := hok hzero
    exact ⟨hoffset, hdone.parts, hdone.done⟩
  · rw [hw] at he
    exact absurd he not_mem_nil

theorem finalize_error (hw : w.answered = []) (herr : ioerr ≠ 0) :
    TagCovered length ⟨(nUasFinalizeTag bt w ioerr).1, (nUasFinalizeTag bt w ioerr).2, log⟩ :=
  finalize_covered hw fun hzero => absurd hzero herr

def submitted (ncm : NepClassMS) (bt : BlockTag) (w : Wire) : BlockTag × Wire :=
  if (nUasSubmitChunk ncm bt w).1 ≠ 0 then
    nUasFinalizeTag (nUasSubmitChunk ncm bt w).2.1 (nUasSubmitChunk ncm bt w).2.2 Uas.HFERR_Phase
  else (nUasSubmitChunk ncm bt w).2

structure Launched (ncm : NepClassMS) (bt bt' : BlockTag) (w w' : Wire) : Prop where
  issued : ∃ c, bt'.issued = bt.issued ++ [c] ∧ c.dataoffset = bt.ut.offset ∧
    c.datalen = bt'.ut.chunkLen
  chunk : bt'.ut.chunkLen ≤ bt.ut.remain
  offset : bt'.ut.offset = bt.ut.offset
  remain : bt'.ut.remain = bt.ut.remain
  armed : bt'.ut.statusArmed = true ∧ bt'.ut.dataArmed = true
  answered : w'.answered = w.answered

theorem submitChunk_failed (bt : BlockTag) (h : (nUasSubmitChunk ncm bt w).1 ≠ 0) :
    (nUasSubmitChunk ncm bt w).2.2.answered = w.answered := by
  revert h
  change (Uas.nUasSubmitChunk ncm.maxtrans bt.ut w).1 ≠ 0 →
    (Uas.nUasSubmitChunk ncm.maxtrans bt.ut w).2.2.answered = _
  exact fun _ => (Uas.submitChunk_keeps ncm.maxtrans bt.ut w).2

theorem submitChunk_launched (hleft : bt.ut.remain ≠ 0) (h : ¬ (nUasSubmitChunk ncm bt w).1 ≠ 0) :
    Launched ncm bt (nUasSubmitChunk ncm bt w).2.1 w (nUasSubmitChunk ncm bt w).2.2 := by
  have hmt := maxtrans_pos ncm
  have hpos : min bt.ut.remain ncm.maxtrans ≠ 0 := by omega
  revert h
  unfold nUasSubmitChunk Uas.nUasSubmitChunk
  simp only
  split
  · rename_i hsend
    exact fun h => absurd hsend h
  · intro _
    unfold Uas.armChunk
    simp only [if_pos hpos]
    exact ⟨⟨_, rfl, rfl, rfl⟩, min_le_left _ _, rfl, rfl, ⟨rfl, rfl⟩, Uas.sendIu_answered _⟩

theorem submitted_covered (hw : w.answered = []) (hleft : bt.ut.remain ≠ 0)
    (hsum : bt.ut.offset + bt.ut.remain = length) (hparts : ChunkParts bt.issued 0 bt.ut.offset)
    (hdone : ∀ k < bt.issued.length, ChunkDone log k) :
    TagCovered length ⟨(submitted ncm bt w).1, (submitted ncm bt w).2, log⟩ := by
  unfold submitted
  split
  · rename_i hfail
    exact finalize_error ((submitChunk_failed bt hfail).trans hw) phase_ne
  · rename_i hok
    have hl := submitChunk_launched hleft hok
    obtain ⟨c, hissued, hoffset, hlen⟩ := hl.issued
    refine ⟨fun _ => hl.answered.trans hw, fun _ _ => ⟨?_, ?_, ?_, ?_, ?_⟩, ?_⟩
    · rw [hl.offset, hl.remain]
      exact hsum
    · rw [hl.remain]
      exact hl.chunk
    · refine ⟨bt.issued, c, hissued, ?_, ?_, hlen, hdone⟩
      · rw [hl.offset]
        exact hparts
      · rw [hl.offset]
        exact hoffset
    · intro hquiet
      exact absurd (hquiet.symm.trans hl.armed.1) Bool.false_ne_true
    · intro hquiet
      exact absurd (hquiet.symm.trans hl.armed.2) Bool.false_ne_true
    · intro e he
      rw [hl.answered, hw] at he
      exact absurd he not_mem_nil

theorem Sending.chunkDone (h : Sending length bt log) (hq : Uas.Quiet bt.ut)
    (hsense : Uas.nUasIUId bt.ut.status = Uas.UAS_IU_ID_SENSE)
    (hgood : Uas.nUasParseStatus bt.ut.status = Uas.SCSI_GOOD) :
    ChunkParts bt.issued 0 (bt.ut.offset + bt.ut.chunkLen) ∧
      ∀ k < bt.issued.length, ChunkDone log k := by
  obtain ⟨cs, c, hissued, hparts, hoffset, hlen, hdone⟩ := h.sent
  obtain ⟨hstatus, hforgiven⟩ := h.status hq.1
  obtain ⟨d, hd, hdata⟩ := h.data hq.2
  have hstatusGood := statusGood_of hforgiven hsense hgood
  have hcount : bt.issued.length - 1 = cs.length := by
    rw [hissued, length_append]
    rfl
  rw [hcount] at hstatus hd
  constructor
  · rw [hissued, ← hlen]
    exact hparts.snoc hoffset
  · intro k hk
    by_cases hlast : k < cs.length
    · exact hdone k hlast
    · have hk' : k = cs.length := by omega
      rw [hk']
      refine ⟨⟨_, hstatus, hforgiven, hsense, hgood⟩, d, hd, ?_⟩
      rcases hdata with hdata | ⟨-, hbad⟩
      · exact hdata
      · exact absurd (hbad.symm.trans hstatusGood) Bool.false_ne_true

theorem chunkDone_covered (hw : w.answered = [])
    (hsend : bt.ut.failed = false → Sending length bt log) (hq : Uas.Quiet bt.ut) :
    TagCovered length ⟨(chunkDone ncm bt w).1, (chunkDone ncm bt w).2, log⟩ := by
  unfold chunkDone
  split
  · apply finalize_error hw
    split
    · exact (by decide : Uas.IOERR_ABORTED ≠ 0)
    · exact phase_ne
  rename_i hfailed
  split
  · exact finalize_error hw phase_ne
  rename_i hsense
  split
  · exact finalize_error hw badStatus_ne
  rename_i hgood
  have hs := hsend (Bool.eq_false_iff.mpr hfailed)
  obtain ⟨hparts, hdone⟩ := hs.chunkDone hq (not_not.mp hsense) (not_not.mp hgood)
  have hsum := hs.sum
  have hchunk := hs.chunk
  by_cases hmore : bt.ut.remain - bt.ut.chunkLen = 0
  · -- the last one
    rw [advanceChunk_last hmore]
    simp only [Bool.false_eq_true, if_false]
    have hall : bt.ut.offset + bt.ut.chunkLen = length := by omega
    apply finalize_covered hw
    exact fun _ => ⟨hall, hall ▸ hparts, hdone⟩
  · obtain ⟨bt', hadvance, hissued, hoffset, hremain⟩ : ∃ bt', nUasAdvanceChunk ncm bt = (true, bt') ∧
        bt'.issued = bt.issued ∧ bt'.ut.offset = bt.ut.offset + bt.ut.chunkLen ∧
        bt'.ut.remain = bt.ut.remain - bt.ut.chunkLen := by
      unfold nUasAdvanceChunk Uas.nUasAdvanceChunk
      simp only [ne_eq, hmore, not_false_eq_true, decide_true, if_true]
      exact ⟨_, rfl, rfl, rfl, rfl⟩
    rw [hadvance]
    simp only [if_true]
    apply submitted_covered hw
    · rw [hremain]
      exact hmore
    · rw [hoffset, hremain]
      omega
    · rw [hissued, hoffset]
      exact hparts
    · rw [hissued]
      exact hdone

variable {is_status : Bool} {t' : TagRun} {ut : UasTag}

theorem collect_collected (h : TagInv ut)
    (ha : (if is_status then ut.statusArmed else ut.dataArmed) = true) (r : Reply) :
    Uas.Collected ut (collect is_status ut r).1 := by
  cases is_status with
  | true =>
    obtain ⟨w', -, hdone⟩ := statusDone_collect ut r (wireOf [] [])
    have hcol := @Uas.statusDone_collected ut { wireOf [] [] with replies := [r] } h ha
    rw [hdone] at hcol
    exact hcol
  | false => exact @Uas.dataDone_collected ut (wireOf [] []) h ha

theorem settle_quiet (h : TagInv ut) (hr : ut.state = .running)
    (ha : (if is_status then ut.statusArmed else ut.dataArmed) = true)
    (hout : ¬ (settle is_status ut r).outstanding ≠ 0) : Uas.Quiet (settle is_status ut r) := by
  have hcol := collect_collected h ha r
  have hcount := hcol.counted h hr
  have hzero : Uas.armed (collect is_status ut r).1 = 0 := hcount.symm.trans (not_not.mp hout)
  exact Uas.quiet_of_armed hzero

theorem settle_sending (h : bt.ut.failed = false → Sending length bt log)
    (ha : (if is_status then bt.ut.statusArmed else bt.ut.dataArmed) = true)
    (hok : (settle is_status bt.ut r).failed = false) :
    Sending length { bt with ut := settle is_status bt.ut r }
      (log ++ [(bt.issued.length - 1, is_status, r)]) := by
  have hsub : log ⊆ log ++ [(bt.issued.length - 1, is_status, r)] := subset_append_left _ _
  have hnew : (bt.issued.length - 1, is_status, r) ∈ log ++ [(bt.issued.length - 1, is_status, r)] :=
    mem_append_right _ (mem_singleton_self _)
  have hsent : ∀ {ut : UasTag}, Sending length bt log → ut.offset = bt.ut.offset →
      ut.chunkLen = bt.ut.chunkLen → ∃ cs c, bt.issued = cs ++ [c] ∧ ChunkParts cs 0 ut.offset ∧
        c.dataoffset = ut.offset ∧ c.datalen = ut.chunkLen ∧
        ∀ k < cs.length, ChunkDone (log ++ [(bt.issued.length - 1, is_status, r)]) k := by
    intro ut hs hoffset hlen
    obtain ⟨cs, c, hissued, hparts, hc, hclen, hdone⟩ := hs.sent
    rw [hoffset, hlen]
    exact ⟨cs, c, hissued, hparts, hc, hclen, fun k hk => (hdone k hk).mono hsub⟩
  cases is_status with
  | true =>
    change (bt.ut.failed || !Uas.nUasErrForgiven r.ioerr) = false at hok
    rw [Bool.or_eq_false_iff, Bool.not_eq_false'] at hok
    have hs := h hok.1
    refine ⟨hs.sum, hs.chunk, hsent hs rfl rfl, fun _ => ⟨hnew, hok.2⟩, ?_⟩
    intro hdata
    obtain ⟨d, hd, hforgiven⟩ := hs.data hdata
    refine ⟨d, hsub hd, Or.inl ?_⟩
    rcases hforgiven with hforgiven | ⟨hquiet, -⟩
    · exact hforgiven
    · exact absurd (hquiet.symm.trans ha) Bool.false_ne_true
  | false =>
    change (bt.ut.failed || !Uas.nUasErrForgiven (if !bt.ut.statusArmed &&
      !Uas.nUasStatusGood bt.ut then 0 else r.ioerr)) = false at hok
    rw [Bool.or_eq_false_iff, Bool.not_eq_false'] at hok
    have hs := h hok.1
    refine ⟨hs.sum, hs.chunk, hsent hs rfl rfl, ?_, fun _ => ⟨r, hnew, ?_⟩⟩
    · intro hstatus
      obtain ⟨hmem, hforgiven⟩ := hs.status hstatus
      exact ⟨hsub hmem, hforgiven⟩
    · obtain ⟨-, hforgiven⟩ := hok
      split at hforgiven
      · rename_i hbad
        rw [Bool.and_eq_true, Bool.not_eq_true', Bool.not_eq_true'] at hbad
        exact Or.inr hbad
      · exact Or.inl hforgiven

theorem replied_covered (hi : TagInv t.bt.ut)
    (h : TagCovered length t) (hstep : tagEvent ncm t (.replied is_status r) = some t') :
    TagInv t'.bt.ut ∧ TagCovered length t' := by
  unfold tagEvent tagStep at hstep
  simp only [map_eq_some_iff, ite_none_right_eq_some, some.injEq] at hstep
  obtain ⟨p, ⟨harmed, rfl⟩, rfl⟩ := hstep
  have hr : t.bt.ut.state = .running := by
    by_contra hne
    have hquiet := hi.idle hne
    cases is_status with
    | true => exact absurd (hquiet.1.symm.trans harmed) Bool.false_ne_true
    | false => exact absurd (hquiet.2.symm.trans harmed) Bool.false_ne_true
  constructor
  · have hut := nUasTagPipeDone_ut ncm is_status t.bt { t.wire with replies := [r] }
    have hinv := (@Uas.pipeDone_inv t.bt.ut { t.wire with replies := [r] } ncm.maxtrans is_status hi hr
      harmed).1
    rw [← hut] at hinv
    exact hinv
  · obtain ⟨w', hanswered, hdone⟩ := pipeDone_settle ncm is_status t.bt r t.wire
    have hw : w'.answered = [] := hanswered.trans (h.running hr)
    have hsending := @settle_sending _ _ r _ _ (h.sending hr) harmed
    rw [hdone]
    split
    · refine ⟨fun _ => hw, fun _ => hsending, ?_⟩
      intro e he
      rw [hw] at he
      exact absurd he not_mem_nil
    · rename_i hout
      exact chunkDone_covered hw hsending (settle_quiet hi hr harmed hout)

theorem kill_covered (hi : TagInv t.bt.ut) (h : TagCovered length t)
    (hstep : tagEvent ncm t .kill = some t') : TagInv t'.bt.ut ∧ TagCovered length t' := by
  unfold tagEvent at hstep
  simp only [some.injEq] at hstep
  obtain rfl := hstep
  refine ⟨(@Uas.kill_inv t.bt.ut t.wire hi).1, ?_⟩
  unfold Uas.killTag
  split
  · rename_i hr
    have hw := (Uas.abortArmed_keeps t.bt.ut t.wire).2.trans (h.running hr)
    exact @finalize_error length
      { t.bt with ut := { (Uas.nUasTagAbortArmed t.bt.ut t.wire).1 with
        failed := true, cmdSent := false } } _ _ _ hw (by decide : Uas.IOERR_ABORTED ≠ 0)
  · exact h

theorem tagEvent_covered {e : TagEvent} (hi : TagInv t.bt.ut)
    (h : TagCovered length t) (hstep : tagEvent ncm t e = some t') :
    TagInv t'.bt.ut ∧ TagCovered length t' := by
  cases e with
  | replied is_status r => exact replied_covered hi h hstep
  | abortIo =>
    obtain rfl := some.inj hstep
    split
    · refine ⟨⟨hi.running, hi.counted, hi.idle, hi.status_busy, hi.data_busy⟩, h.running, ?_, ?_⟩
      · intro hr hf
        obtain ⟨hsum, hchunk, hsent, hstatus, hdata⟩ := h.sending hr hf
        exact ⟨hsum, hchunk, hsent, hstatus, hdata⟩
      · intro e he hzero
        obtain ⟨hlen, hparts, hdone⟩ := h.answered e he hzero
        exact ⟨hlen, hparts, hdone⟩
    · exact ⟨hi, h⟩
  | signalAbort =>
    obtain rfl := some.inj hstep
    split
    · have hw : (Uas.nUasTagSignalAbort t.bt.ut t.wire).answered = t.wire.answered :=
        Uas.signalAbort_answered
      refine ⟨hi, fun hr => hw.trans (h.running hr), h.sending, ?_⟩
      intro e he
      exact h.answered e (hw ▸ he)
    · exact ⟨hi, h⟩
  | kill => exact kill_covered hi h hstep

variable {cmd : Command} {io : IOStdReq}

theorem tagStart_covered (ncm : NepClassMS) (ioreq : ℕ) (ut : UasTag) (commands : List ℤ)
    (hlen : io.length ≠ 0) :
    TagInv (tagStart ncm ioreq cmd io ut commands).bt.ut ∧
      TagCovered io.length (tagStart ncm ioreq cmd io ut commands) := by
  have hlength := meant_length io cmd
  have hleft : (opened ncm ioreq cmd io ut).ut.remain ≠ 0 :=
    fun hzero => hlen (hlength.symm.trans hzero)
  have hmt := maxtrans_pos ncm
  constructor
  · have hinv := @Uas.submit_inv (opened ncm ioreq cmd io ut).ut (wireOf commands []) ncm.maxtrans rfl
      fun hzero => absurd hzero (by omega)
    have hut := nUasSubmitTag_ut ncm ioreq cmd io ut (wireOf commands [])
    have hsubmit := congrArg (fun r : UasTag × Wire => TagInv r.1) hut
    unfold nUasSubmitTag at hsubmit
    rw [← hlength] at hsubmit
    exact hsubmit.mpr hinv
  · have hstart : nUasSubmitTag ncm ioreq cmd io ut (wireOf commands []) =
        submitted ncm (opened ncm ioreq cmd io ut) (wireOf commands []) := nUasSubmitTag_eq _ _ _ _ _ _
    unfold tagStart
    rw [hstart]
    refine submitted_covered rfl hleft ?_ .done fun k hk => absurd hk (Nat.not_lt_zero k)
    exact (Nat.zero_add _).trans hlength

theorem tagRun_covered {ioreq : ℕ} {commands : List ℤ} {evs : List TagEvent}
    (hlen : io.length ≠ 0) (hrun : Runs.Run (tagEvent ncm) Runs.anyStep
      (tagStart ncm ioreq cmd io ut commands) evs t) :
    TagInv t.bt.ut ∧ TagCovered io.length t := by
  refine hrun.invariant (fun t => TagInv t.bt.ut ∧ TagCovered io.length t)
    (tagStart_covered ncm ioreq ut commands hlen) ?_
  intro t e u h _ hstep
  exact tagEvent_covered h.1 h.2 hstep

/-- On either path, and whatever the device does: a request that is replied without an error has the
length it asked for, and its transfers go through all of the data and have been carried out. -/
structure SuccessCovered (ncm : NepClassMS) (cmd : Command) (io : IOStdReq) : Prop where
  unitTask : ∀ (u : BlockUnit) alloc emul (h : Host Link), HasBounce ncm alloc io →
    h.world.log = [] → ∃ o, blockArm ncm alloc emul (nScsiDirect u) cmd io h = some o ∧
      (o.error = 0 → Covered u (!cmd.isRead) io.length o)
  tagged : ∀ queueDepth emul, nUasEligible ncm queueDepth emul cmd io = true →
    ∀ ioreq ut commands evs t, Runs.Run (tagEvent ncm) Runs.anyStep
      (tagStart ncm ioreq cmd io ut commands) evs t →
        ∀ e ∈ t.wire.answered, e.2.1 = 0 → e.2.2 = io.length ∧ AllDone io.length t.bt t.log

theorem success_covered (ncm : NepClassMS) (cmd : Command) (io : IOStdReq) :
    SuccessCovered ncm cmd io where
  unitTask := fun u _ emul _ hone hlog => blockArm_covered u cmd emul hone hlog
  tagged := by
    intro queueDepth emul heligible ioreq ut commands evs t hrun
    exact (tagRun_covered (nUasEligible_length heligible) hrun).2.answered

def bulkUnit : BlockUnit := ⟨.msc ⟨.bulk, ⟨2, 1, 2⟩, false, false, false⟩, false, 0⟩

def shortRead : Transport.Device := fun site =>
  match site with
  | .data => ⟨Transport.UHIOERR_RUNTPACKET, 100, [], ⟨0, 0, 0⟩, false, false⟩
  | .status => ⟨0, 13, [], ⟨Transport.cswSignature, 1, 0⟩, false, false⟩
  | _ => ⟨0, 31, [], ⟨0, 0, 0⟩, false, false⟩

def shortHost : Host Link :=
  ⟨fun _ => 0, fun _ => 0, Transport.st₀, fun _ => ⟨fun _ => shortRead, fun _ => ⟨false, ⟨none, [], []⟩,
    ⟨none, [], []⟩⟩⟩, []⟩

def oneBlock : IOStdReq := ⟨512, 0, 0, 0, by norm_num, Nat.one_le_two_pow, Nat.one_le_two_pow⟩

/-- Short data count as all of them: the transport ignores a runt. -/
theorem success_falls_short :
    ¬ ∀ (u : BlockUnit) (ncm : NepClassMS) (alloc emul : Bool) (cmd : Command) (io : IOStdReq)
      (h : Host Link) (o : Outcome Link), cmd.block = true → HasBounce ncm alloc io →
        h.world.log = [] → blockArm ncm alloc emul (nScsiDirect u) cmd io h = some o →
          o.error = 0 → Covered u (!cmd.isRead) io.length o ∧
            ∀ x ∈ o.host.world.log, x.actual u.tp = x.cmd.length := by
  intro hall
  have hrun : (blockArm ⟨9, 0, none⟩ true false (nScsiDirect bulkUnit) .cmdRead oneBlock shortHost).map
      (fun o => (o.error, o.host.world.log.map fun x => (x.actual bulkUnit.tp, x.cmd.length))) =
        some (0, [(100, 512)]) := by decide +kernel
  obtain ⟨o, ho, hmap⟩ := map_eq_some_iff.mp hrun
  obtain ⟨herror, hlog⟩ := Prod.mk.inj hmap
  obtain ⟨x, hx, hpair⟩ := map_eq_singleton_iff.mp hlog
  obtain ⟨hactual, hlength⟩ := Prod.mk.inj hpair
  have hmoved := hall bulkUnit ⟨9, 0, none⟩ true false .cmdRead oneBlock shortHost o rfl
    (Or.inl (by decide)) rfl ho herror
  have hshort := hmoved.2 x (hx ▸ mem_singleton_self x)
  rw [hactual, hlength] at hshort
  exact absurd hshort (by decide)

end Neptune.BlockIo
