import Neptune.Proofs.Exchange

/-! An attempt of the CBI transport, and when its success can be relied on. -/

namespace Neptune.Transport

open List

variable {ncm : NepClassMS} {cmd : SCSICmd} {dev : Device} {eps : Endpoints} {st : St}

def DataCame (ncm : NepClassMS) (cmd : SCSICmd) (dev : Device) : Prop :=
  cmd.length = 0 ∨ (ncm.tpType = .cbi ∧ (dev .data).late = true) ∨
    nIsOverflowErr (dev .data).ioerr = true ∨ (dev .data).ioerr = UHIOERR_STALL ∨
    (dev .data).ioerr = 0

/-- The status does not stall; where it is too short, what was in its place says failed. That is
`bValue` where there are no data, and a phase error otherwise. -/
def StatusCame (cmd : SCSICmd) (dev : Device) (bValue : UInt8) : Prop :=
  (dev .status).ioerr ≠ UHIOERR_STALL ∧
    ((dev .status).ioerr = 0 ∨ (dev .status).ioerr = UHIOERR_RUNTPACKET →
      (dev .status).bytes[1]? = none → cmd.length = 0 → bValue ≠ 0)

/-- An attempt whose success can be relied on: no command block that has stalled is accepted when it
is sent again (data and status are then left out), and the status of CBI comes. -/
def Straight (ncm : NepClassMS) (cmd : SCSICmd) (dev : Device) (st : St) : Prop :=
  (st.denyRequests || (dev .command).deny) = true ∨
    if (dev .command).ioerr = 0 then
      ncm.tpType = .cbi → DataCame ncm cmd dev → StatusCame cmd dev st.bValue
    else
      (dev .command).ioerr = UHIOERR_STALL → (dev .commandAgain).ioerr = 0 →
        ncm.tpType = .cb ∧ cmd.length = 0

variable {bValue : UInt8} {recover : St → List Clear × St}

theorem xfer_adds_unless {site : Site}
    (h : (dev site).ioerr ≠ UHIOERR_STALL) (hk : KeepsPhases recover) (pipe : Pipe) (tag : ℕ)
    (st : St) : Adds eps st (xfer dev pipe site tag recover st).2.2 := by
  refine ⟨_, xfer_phases hk dev pipe site tag st, ?_⟩
  intro p hp hstall
  obtain rfl := mem_singleton.mp hp
  exact absurd hstall h

theorem xfer_bValue
    (h : ∀ st, (recover st).2.bValue = st.bValue) (dev : Device) (pipe : Pipe) (site : Site)
    (tag : ℕ) (st : St) : (xfer dev pipe site tag recover st).2.2.bValue = st.bValue := by
  unfold xfer
  simp only
  split
  · exact h _
  · rfl

def dataStart (ncm : NepClassMS) (dev : Device) (st : St) : St :=
  let st := if ncm.clearEp then st.denied (dev .clearBefore) else st
  if ncm.tpType = .cbi then { st with bValue := USMF_CSW_PHASEERR } else st

theorem dataStart_phases (ncm : NepClassMS) (dev : Device) (st : St) :
    (dataStart ncm dev st).phases = st.phases := by
  unfold dataStart
  split <;> split <;> rfl

def recoverData (ncm : NepClassMS) (cmd : SCSICmd) (dev : Device) : St → List Clear × St :=
  if decide (ncm.tpType = .cbi) && (dev .data).late then leave else clearData ncm cmd dev .dataClear

theorem recoverData_keeps (ncm : NepClassMS) (cmd : SCSICmd) (dev : Device) :
    KeepsPhases (recoverData ncm cmd dev) := by
  unfold recoverData
  split
  · exact leave_keeps
  · exact clearData_keeps _ _ _ _

theorem cbiData_eq (hlen : cmd.length ≠ 0) (st : St) :
    (cbiData ncm cmd dev st).2 =
      { (xfer dev (dataPipe cmd) .data 0 (recoverData ncm cmd dev) (dataStart ncm dev st)).2.2 with
        actual := (dev .data).actual } := by
  unfold cbiData
  rw [if_neg hlen]
  rfl

theorem cbiData_adds (h : Bulks ncm eps) (cmd : SCSICmd) (dev : Device) (st : St) :
    Adds eps st (cbiData ncm cmd dev st).2 := by
  by_cases hlen : cmd.length = 0
  · unfold cbiData
    rw [if_pos hlen]
    exact .of_eq rfl
  · have hclears : Clears eps (dataPipe cmd) (recoverData ncm cmd dev) := by
      unfold recoverData
      split
      · exact leave_clears _ _
      · exact h.clearData cmd dev _
    rw [cbiData_eq hlen]
    refine .trans (.of_eq (dataStart_phases ncm dev st)) ?_
    exact (xfer_adds (recoverData_keeps ncm cmd dev) hclears dev .data 0 _).trans (.of_eq rfl)

theorem cbiData_tried (ncm : NepClassMS) (cmd : SCSICmd) (dev : Device) (st : St) :
    ∃ ps, Extends st ps (cbiData ncm cmd dev st).2 ∧ (cmd.length ≠ 0 → ∃ d ∈ ps, d.site = .data) ∧
      ∀ p ∈ ps, p.site = .data := by
  by_cases hlen : cmd.length = 0
  · refine ⟨[], ?_, fun h => absurd hlen h, fun p hp => absurd hp not_mem_nil⟩
    unfold cbiData
    rw [if_pos hlen]
    exact .nil rfl
  · rw [cbiData_eq hlen]
    refine ⟨_, .trans (.nil (dataStart_phases ncm dev st))
      (xfer_phases (recoverData_keeps ncm cmd dev) dev _ _ _ _),
      fun _ => ⟨_, mem_singleton_self _, rfl⟩, ?_⟩
    intro p hp
    obtain rfl := mem_singleton.mp hp
    rfl

theorem cbiData_err (hlen : cmd.length ≠ 0) (st : St) :
    (cbiData ncm cmd dev st).1 =
      if (decide (ncm.tpType = .cbi) && (dev .data).late) = true ∨
          nIsOverflowErr (dev .data).ioerr = true ∨ (dev .data).ioerr = UHIOERR_STALL then 0
      else (dev .data).ioerr := by
  unfold cbiData
  rw [if_neg hlen]
  rfl

theorem cbiData_came (ncm : NepClassMS) (cmd : SCSICmd) (dev : Device) (st : St) :
    (cbiData ncm cmd dev st).1 = 0 ↔ DataCame ncm cmd dev := by
  unfold DataCame
  by_cases hlen : cmd.length = 0
  · unfold cbiData
    simp only [hlen, if_true, true_or]
  · rw [cbiData_err hlen]
    simp only [Bool.and_eq_true, decide_eq_true_iff]
    split <;> tauto

def stale (cmd : SCSICmd) (bValue : UInt8) : UInt8 :=
  if cmd.length = 0 then bValue else USMF_CSW_PHASEERR

theorem cbiData_bValue (hcbi : ncm.tpType = .cbi) (st : St) :
    (cbiData ncm cmd dev st).2.bValue = stale cmd st.bValue := by
  unfold stale
  split
  · rename_i hlen
    unfold cbiData
    rw [if_pos hlen]
  · rename_i hlen
    have hkeeps : ∀ st, (recoverData ncm cmd dev st).2.bValue = st.bValue := by
      intro st
      unfold recoverData clearData
      split_ifs <;> rfl
    rw [cbiData_eq hlen]
    rw [xfer_bValue hkeeps]
    unfold dataStart
    rw [if_pos hcbi]

def Passed (dev : Device) (bValue : UInt8) : Prop :=
  ((dev .status).ioerr = 0 ∨ (dev .status).ioerr = UHIOERR_RUNTPACKET) ∧
    cbiValue (dev .status) bValue = USMF_CSW_PASS

theorem cbiFailed_fails (ncm : NepClassMS) (cmd : SCSICmd) (dev : Device) (st : St) :
    (cbiFailed ncm cmd dev st).1 ≠ 0 := by
  unfold cbiFailed
  simp only
  split_ifs <;> exact badStatus_fails

def statusXfer (ncm : NepClassMS) (dev : Device) (st : St) : St :=
  (xfer dev .interrupt .status 0 (clearing dev .statusClear ncm.nums.epIntNum true) st).2.2

theorem statusXfer_phases (ncm : NepClassMS) (dev : Device) (st : St) :
    ∃ p : Phase, p.site = .status ∧ p.reply = dev .status ∧
      Extends st [p] (statusXfer ncm dev st) :=
  ⟨_, rfl, rfl, xfer_phases (clearing_keeps dev _ _ _) dev _ _ _ _⟩

theorem statusXfer_bValue (ncm : NepClassMS) (dev : Device) (st : St) :
    (statusXfer ncm dev st).bValue = st.bValue := by
  apply xfer_bValue
  exact fun _ => rfl

theorem cbiStatus_eq (hcbi : ncm.tpType = .cbi) (st : St) :
    cbiStatus ncm cmd dev st =
      if (dev .status).ioerr = 0 ∨ (dev .status).ioerr = UHIOERR_RUNTPACKET then
        if cbiValue (dev .status) st.bValue ≠ 0 then
          cbiFailed ncm cmd dev { statusXfer ncm dev st with
            bValue := cbiValue (dev .status) st.bValue }
        else (0, .leave, { statusXfer ncm dev st with bValue := cbiValue (dev .status) st.bValue })
      else if (dev .status).ioerr = UHIOERR_STALL then (0, .leave, statusXfer ncm dev st)
      else (HFERR_Phase, .again, nBulkReset ncm dev 1 (statusXfer ncm dev st)) := by
  rw [← statusXfer_bValue ncm dev st]
  unfold cbiStatus
  rw [if_pos hcbi]
  rfl

theorem cbiStatus_zero (hcbi : ncm.tpType = .cbi) (st : St) :
    (cbiStatus ncm cmd dev st).1 = 0 ↔
      (dev .status).ioerr = UHIOERR_STALL ∨ Passed dev st.bValue := by
  unfold Passed
  rw [cbiStatus_eq hcbi]
  by_cases hcame : (dev .status).ioerr = 0 ∨ (dev .status).ioerr = UHIOERR_RUNTPACKET
  · have hne : (dev .status).ioerr ≠ UHIOERR_STALL := by
      rcases hcame with h | h <;> rw [h] <;> decide
    rw [if_pos hcame]
    split
    · rename_i hvalue
      simp only [cbiFailed_fails, hne, false_or, false_iff, not_and]
      exact fun _ => hvalue
    · rename_i hvalue
      simp only [true_iff]
      exact Or.inr ⟨hcame, not_not.mp hvalue⟩
  · rw [if_neg hcame]
    split
    · rename_i hstall
      simp only [hstall, true_or]
    · rename_i hstall
      simp only [phase_fails, hstall, hcame, false_and, or_self]

theorem cbiStatus_phases (hcbi : ncm.tpType = .cbi)
    (h : (cbiStatus ncm cmd dev st).1 = 0) :
    ∃ p : Phase, p.site = .status ∧ p.reply = dev .status ∧
      Extends st [p] (cbiStatus ncm cmd dev st).2.2 := by
  obtain ⟨p, hsite, hreply, hp⟩ := statusXfer_phases ncm dev st
  refine ⟨p, hsite, hreply, ?_⟩
  rw [cbiStatus_eq hcbi] at h ⊢
  split at h
  · split at h
    · exact absurd h (cbiFailed_fails _ _ _ _)
    · rename_i hcame hvalue
      rw [if_pos hcame, if_neg hvalue]
      exact hp
  · rename_i hcame
    split at h
    · rename_i hstall
      rw [if_neg hcame, if_pos hstall]
      exact hp
    · exact absurd h phase_fails

theorem cbiSensed_phases (actual : ℕ) (value : UInt8) (st : St) :
    (cbiSensed actual value st).2.phases = st.phases := by
  unfold cbiSensed
  split_ifs <;> rfl

theorem cbiSenseStatus_adds (eps : Endpoints) (ncm : NepClassMS) (dev : Device) (actual : ℕ)
    (st : St) : Adds eps st (cbiSenseStatus ncm dev actual st).2 := by
  have hstatus := xfer_adds leave_keeps (leave_clears eps .interrupt) dev .senseStatus 0 st
  unfold cbiSenseStatus
  simp only
  split
  · split
    · exact hstatus
    · exact hstatus.trans (.of_eq (cbiSensed_phases _ _ _))
  · exact .of_eq (cbiSensed_phases _ _ _)

theorem cbiSenseData_adds (h : Bulks ncm eps) (dev : Device) (st : St) :
    Adds eps st (cbiSenseData ncm dev st).2 := by
  have hdata := fun st => xfer_adds (clearing_keeps dev .senseDataClear _ _)
    (h.clearIn dev .senseDataClear) dev .senseData 0 st
  have hstart : Adds eps st (if ncm.clearEp then st.denied (dev .senseClearBefore) else st) := by
    split <;> exact .of_eq rfl
  refine hstart.trans ?_
  unfold cbiSenseData
  simp only
  generalize (if ncm.clearEp then st.denied (dev .senseClearBefore) else st) = st'
  split
  · exact (hdata st').trans (.of_eq rfl)
  · exact (hdata st').trans (.trans (.of_eq rfl) (cbiSenseStatus_adds eps _ _ _ _))

theorem nCBIRequestSense_adds (h : Bulks ncm eps) (dev : Device) (st : St) :
    Adds eps st (nCBIRequestSense ncm dev st).2 := by
  have hpreset : Adds eps st { st with
      senseData := fill [st.senseData 0, st.senseData 1, SK_ILLEGAL_REQUEST] st.senseData } :=
    .of_eq rfl
  have hcommand := hpreset.trans
    (xfer_adds leave_keeps (ep0_clears eps leave) dev .senseCommand 0 _)
  unfold nCBIRequestSense
  simp only
  split
  · exact hcommand
  · exact hcommand.trans (cbiSenseData_adds h dev _)

theorem cbiFailed_adds (h : Bulks ncm eps) (cmd : SCSICmd) (dev : Device) (st : St) :
    Adds eps st (cbiFailed ncm cmd dev st).2.2 := by
  have hsense := nCBIRequestSense_adds h dev st
  unfold cbiFailed
  simp only
  split
  · split
    · exact hsense.trans (.of_eq (nBulkReset_phases _ _ _ _))
    split
    · exact hsense.trans (.of_eq rfl)
    · exact hsense.trans (.of_eq rfl)
  · exact .of_eq rfl

theorem cbiStatus_adds (h : Bulks ncm eps) (cmd : SCSICmd)
    (hcame : ncm.tpType = .cbi → (dev .status).ioerr ≠ UHIOERR_STALL) :
    Adds eps st (cbiStatus ncm cmd dev st).2.2 := by
  by_cases hcbi : ncm.tpType = .cbi
  · have hxfer : Adds eps st (statusXfer ncm dev st) :=
      xfer_adds_unless (hcame hcbi) (clearing_keeps dev _ _ _) .interrupt 0 st
    rw [cbiStatus_eq hcbi]
    split
    · split
      · exact (hxfer.trans (.of_eq rfl)).trans (cbiFailed_adds h cmd dev _)
      · exact hxfer.trans (.of_eq rfl)
    split
    · exact hxfer
    · exact hxfer.trans (.of_eq (nBulkReset_phases _ _ _ _))
  · unfold cbiStatus
    rw [if_neg hcbi]
    exact .of_eq rfl

def recoverCommand (ncm : NepClassMS) (dev : Device) : St → List Clear × St := fun st =>
  if st.denyRequests then ([], st) else nBulkClear ncm dev 0 st

theorem recoverCommand_keeps (ncm : NepClassMS) (dev : Device) :
    KeepsPhases (recoverCommand ncm dev) := by
  intro st
  unfold recoverCommand
  split
  · rfl
  · exact nBulkClear_keeps _ _ _ _

def commanded (ncm : NepClassMS) (dev : Device) (st : St) : St :=
  (xfer dev .ep0 .command 0 (recoverCommand ncm dev) st).2.2

def commandedAgain (ncm : NepClassMS) (dev : Device) (st : St) : St :=
  (xfer dev .ep0 .commandAgain 0 leave (commanded ncm dev st)).2.2

theorem cbiAttempt_eq (ncm : NepClassMS) (cmd : SCSICmd) (dev : Device) (st : St) :
    cbiAttempt ncm cmd dev st =
      if (st.denyRequests || (dev .command).deny) = true then
        (HFERR_Phase, .leave, commanded ncm dev st)
      else if (dev .command).ioerr = 0 then
        if (cbiData ncm cmd dev (commanded ncm dev st)).1 ≠ 0 then
          (HFERR_Phase, .again, nBulkReset ncm dev 1 (cbiData ncm cmd dev (commanded ncm dev st)).2)
        else cbiStatus ncm cmd dev (cbiData ncm cmd dev (commanded ncm dev st)).2
      else if (dev .command).ioerr = UHIOERR_STALL then
        if (dev .commandAgain).ioerr = 0 then (0, .leave, commandedAgain ncm dev st)
        else cbiRefused ncm dev (dev .commandAgain).ioerr (commandedAgain ncm dev st)
      else cbiRefused ncm dev (dev .command).ioerr (commanded ncm dev st) := rfl

theorem cbiRefused_adds (eps : Endpoints) (ncm : NepClassMS) (dev : Device) (ioerr : ℤ) (st : St) :
    Adds eps st (cbiRefused ncm dev ioerr st).2.2 := by
  unfold cbiRefused
  split
  · exact .of_eq rfl
  · exact .of_eq (nBulkReset_phases _ _ _ _)

theorem cbiRefused_fails (ncm : NepClassMS) (dev : Device) (ioerr : ℤ) (st : St) :
    (cbiRefused ncm dev ioerr st).1 ≠ 0 := by
  unfold cbiRefused
  split <;> exact phase_fails

theorem cbiAttempt_adds (h : Bulks ncm eps) (hs : Straight ncm cmd dev st) :
    Adds eps st (cbiAttempt ncm cmd dev st).2.2 := by
  have hcommand : Adds eps st (commanded ncm dev st) :=
    xfer_adds (recoverCommand_keeps ncm dev) (ep0_clears eps _) dev .command 0 st
  have hagain : Adds eps st (commandedAgain ncm dev st) :=
    hcommand.trans (xfer_adds leave_keeps (ep0_clears eps leave) dev .commandAgain 0 _)
  rw [cbiAttempt_eq]
  split
  · exact hcommand
  rename_i hdeny
  split
  · rename_i hok
    have hdata := hcommand.trans (cbiData_adds h cmd dev (commanded ncm dev st))
    split
    · exact hdata.trans (.of_eq (nBulkReset_phases _ _ _ _))
    · rename_i hcame
      refine hdata.trans (cbiStatus_adds h cmd ?_)
      intro hcbi
      have hstraight := hs.resolve_left hdeny
      rw [if_pos hok] at hstraight
      exact (hstraight hcbi ((cbiData_came ncm cmd dev _).mp (not_not.mp hcame))).1
  split
  · split
    · exact hagain
    · exact hagain.trans (cbiRefused_adds _ _ _ _ _)
  · exact hcommand.trans (cbiRefused_adds _ _ _ _ _)

section

variable (ncm : NepClassMS) (dev : Device) (st : St)

theorem commanded_phases :
    ∃ c : Phase, c.site = .command ∧ c.reply = dev .command ∧ Extends st [c] (commanded ncm dev st) :=
  ⟨_, rfl, rfl, xfer_phases (recoverCommand_keeps ncm dev) dev _ _ _ _⟩

theorem commandedAgain_phases :
    ∃ c c' : Phase, c.reply = dev .command ∧ c'.site = .commandAgain ∧ c'.reply = dev .commandAgain ∧
      Extends st ([c] ++ [c']) (commandedAgain ncm dev st) := by
  obtain ⟨c, -, hreply, hc⟩ := commanded_phases ncm dev st
  exact ⟨c, _, hreply, rfl, rfl, hc.trans (xfer_phases leave_keeps dev _ _ _ _)⟩

theorem commanded_bValue :
    (commanded ncm dev st).bValue = st.bValue := by
  apply xfer_bValue
  intro st
  unfold recoverCommand nBulkClear
  simp only
  split_ifs <;> rfl

end

theorem StatusCame.real (h : StatusCame cmd dev bValue)
    (hp : Passed dev (stale cmd bValue)) : (dev .status).bytes[1]? = some USMF_CSW_PASS := by
  obtain ⟨hcame, hvalue⟩ := hp
  unfold cbiValue at hvalue
  rw [getD_eq_getElem?_getD] at hvalue
  cases hbyte : (dev .status).bytes[1]? with
  | some b =>
    rw [hbyte] at hvalue
    exact congrArg some hvalue
  | none =>
    rw [hbyte] at hvalue
    unfold stale at hvalue
    split at hvalue
    · rename_i hlen
      exact absurd hvalue (h.2 hcame hbyte hlen)
    · exact absurd (show USMF_CSW_PHASEERR = USMF_CSW_PASS from hvalue) (by decide)

theorem StatusCame.of_real (hstall : (dev .status).ioerr ≠ UHIOERR_STALL)
    (hbyte : (dev .status).bytes[1]? ≠ none) : StatusCame cmd dev bValue :=
  ⟨hstall, fun _ hnone => absurd hnone hbyte⟩

theorem StatusCame.passed (h : ¬ StatusCame cmd dev bValue)
    (hstall : (dev .status).ioerr ≠ UHIOERR_STALL) : Passed dev (stale cmd bValue) := by
  unfold StatusCame at h
  push Not at h
  obtain ⟨hcame, hbyte, hlen, hzero⟩ := h hstall
  refine ⟨hcame, ?_⟩
  unfold cbiValue stale
  rw [getD_eq_getElem?_getD, hbyte, if_pos hlen, hzero]
  rfl

theorem cbiAttempt_ok (htp : ncm.tpType ≠ .bulk) (hst : st.phases = [])
    (hs : Straight ncm cmd dev st) (h : (cbiAttempt ncm cmd dev st).1 = 0) :
    Completed ncm.tpType cmd (cbiAttempt ncm cmd dev st).2.2.phases := by
  rw [cbiAttempt_eq] at h ⊢
  split at h
  · exact absurd h phase_fails
  rename_i hdeny
  rw [if_neg hdeny]
  have hstraight := hs.resolve_left hdeny
  split at h
  · rename_i hok
    rw [if_pos hok] at hstraight ⊢
    split at h
    · exact absurd h phase_fails
    rename_i hdata
    rw [if_neg hdata]
    obtain ⟨c, hsite, hreply, hc⟩ := commanded_phases ncm dev st
    obtain ⟨ds, hds, htried, -⟩ := cbiData_tried ncm cmd dev (commanded ncm dev st)
    have hphases := hc.trans hds
    by_cases hcbi : ncm.tpType = .cbi
    · obtain ⟨p, hpsite, hpreply, hp⟩ := cbiStatus_phases hcbi h
      have hcame := hstraight hcbi ((cbiData_came ncm cmd dev _).mp (not_not.mp hdata))
      have hpassed := ((cbiStatus_zero hcbi _).mp h).resolve_left hcame.1
      rw [cbiData_bValue hcbi, commanded_bValue] at hpassed
      refine ⟨[], c, ds ++ [p], ?_, Or.inl hsite, hreply ▸ hok, ?_, ?_⟩
      · rw [hphases.trans hp, hst, append_assoc]
        rfl
      · intro hlen
        obtain ⟨d, hd, hdsite⟩ := htried hlen
        exact ⟨d, mem_append_left _ hd, hdsite⟩
      · rw [hcbi]
        refine ⟨p, mem_append_right _ (mem_singleton_self p), hpsite, ?_, ?_⟩
        · rw [hpreply]
          exact hpassed.1
        · rw [hpreply]
          exact hcame.real hpassed
    · have hcb : ncm.tpType = .cb := by
        cases htype : ncm.tpType with
        | bulk => exact absurd htype htp
        | cbi => exact absurd htype hcbi
        | cb => rfl
      refine ⟨[], c, ds, ?_, Or.inl hsite, hreply ▸ hok, htried, ?_⟩
      · unfold cbiStatus
        rw [if_neg hcbi]
        change (cbiData ncm cmd dev (commanded ncm dev st)).2.phases = _
        rw [hphases, hst]
        rfl
      · rw [hcb]
        trivial
  · rename_i hcommand
    rw [if_neg hcommand] at hstraight ⊢
    split at h
    · rename_i hstall
      rw [if_pos hstall]
      split at h
      · rename_i hagain
        rw [if_pos hagain]
        obtain ⟨hcb, hlen⟩ := hstraight hstall hagain
        obtain ⟨c, c', -, hsite, hreply, hc⟩ := commandedAgain_phases ncm dev st
        refine ⟨[c], c', [], ?_, Or.inr hsite, hreply ▸ hagain, fun hne => absurd hlen hne, ?_⟩
        · unfold Extends at hc
          rw [hc, hst]
          rfl
        · rw [hcb]
          trivial
      · exact absurd h (cbiRefused_fails _ _ _ _)
    · exact absurd h (cbiRefused_fails _ _ _ _)

section

variable (hdeny : ¬ (st.denyRequests || (dev .command).deny) = true) (hst : st.phases = [])
include hdeny hst

theorem cbiAttempt_unreal (hok : (dev .command).ioerr = 0) (hcbi : ncm.tpType = .cbi)
    (hdata : DataCame ncm cmd dev) (hcame : ¬ StatusCame cmd dev st.bValue) :
    (cbiAttempt ncm cmd dev st).1 = 0 ∧
      ¬ Completed ncm.tpType cmd (cbiAttempt ncm cmd dev st).2.2.phases := by
  have hd := (cbiData_came ncm cmd dev (commanded ncm dev st)).mpr hdata
  have hzero : (cbiStatus ncm cmd dev (cbiData ncm cmd dev (commanded ncm dev st)).2).1 = 0 := by
    rw [cbiStatus_zero hcbi, cbiData_bValue hcbi, commanded_bValue]
    by_cases hstall : (dev .status).ioerr = UHIOERR_STALL
    · exact Or.inl hstall
    · exact Or.inr (StatusCame.passed hcame hstall)
  rw [cbiAttempt_eq, if_neg hdeny, if_pos hok, if_neg (not_not.mpr hd)]
  refine ⟨hzero, ?_⟩
  obtain ⟨c, hsite, -, hc⟩ := commanded_phases ncm dev st
  obtain ⟨ds, hds, -, hdsite⟩ := cbiData_tried ncm cmd dev (commanded ncm dev st)
  obtain ⟨p, -, hreply, hp⟩ := cbiStatus_phases hcbi hzero
  rintro ⟨pre, c', post, hsplit, -, -, -, hpassed⟩
  rw [hcbi] at hpassed
  obtain ⟨s, hs, hssite, hsok, hbyte⟩ := hpassed
  have hmem : s ∈ [c] ++ ds ++ [p] := by
    have hall := (hc.trans hds).trans hp
    unfold Extends at hall
    rw [hst, nil_append] at hall
    rw [← hall, hsplit]
    exact mem_append_right _ (mem_cons_of_mem _ hs)
  simp only [mem_append, mem_singleton] at hmem
  rcases hmem with (rfl | hmem) | rfl
  · exact nomatch hsite.symm.trans hssite
  · exact nomatch (hdsite s hmem).symm.trans hssite
  · rw [hreply] at hsok hbyte
    have hstall : (dev .status).ioerr ≠ UHIOERR_STALL := by
      rcases hsok with h | h <;> rw [h] <;> decide
    exact hcame (StatusCame.of_real hstall (by rw [hbyte]; exact nofun))

theorem cbiAttempt_skips (htp : ncm.tpType ≠ .bulk) (hstall : (dev .command).ioerr = UHIOERR_STALL)
    (hagain : (dev .commandAgain).ioerr = 0) (hne : ¬ (ncm.tpType = .cb ∧ cmd.length = 0)) :
    (cbiAttempt ncm cmd dev st).1 = 0 ∧
      ¬ Completed ncm.tpType cmd (cbiAttempt ncm cmd dev st).2.2.phases := by
  have hcommand : (dev .command).ioerr ≠ 0 := by
    rw [hstall]
    decide
  rw [cbiAttempt_eq, if_neg hdeny, if_neg hcommand, if_pos hstall, if_pos hagain]
  refine ⟨rfl, ?_⟩
  obtain ⟨c, c', hreply, -, -, hc⟩ := commandedAgain_phases ncm dev st
  unfold Extends at hc
  rw [hst] at hc
  rintro ⟨pre, c'', post, hsplit, -, hacc, htried, hpassed⟩
  have hlist : [c, c'] = pre ++ c'' :: post := hc.symm.trans hsplit
  have hpost : post = [] := by
    cases pre with
    | nil =>
      obtain ⟨rfl, -⟩ := List.cons.inj hlist
      rw [hreply] at hacc
      exact absurd hacc hcommand
    | cons x pre =>
      have htail := (List.cons.inj hlist).2
      cases pre with
      | nil => exact (List.cons.inj htail).2.symm
      | cons y pre =>
        have hnil := (List.cons.inj htail).2
        simp at hnil
  subst hpost
  by_cases hlen : cmd.length = 0
  · cases htype : ncm.tpType with
    | bulk => exact htp htype
    | cb => exact hne ⟨htype, hlen⟩
    | cbi =>
      rw [htype] at hpassed
      obtain ⟨s, hs, -⟩ := hpassed
      exact absurd hs not_mem_nil
  · obtain ⟨d, hd, -⟩ := htried hlen
    exact absurd hd not_mem_nil

end

theorem cbiAttempt_bad (htp : ncm.tpType ≠ .bulk) (hst : st.phases = [])
    (hs : ¬ Straight ncm cmd dev st) :
    (cbiAttempt ncm cmd dev st).1 = 0 ∧
      ¬ Completed ncm.tpType cmd (cbiAttempt ncm cmd dev st).2.2.phases := by
  unfold Straight at hs
  rw [not_or] at hs
  obtain ⟨hdeny, hs⟩ := hs
  split at hs
  · rename_i hok
    push Not at hs
    obtain ⟨hcbi, hdata, hcame⟩ := hs
    exact cbiAttempt_unreal hdeny hst hok hcbi hdata hcame
  · simp only [Classical.not_imp] at hs
    obtain ⟨hstall, hagain, hne⟩ := hs
    exact cbiAttempt_skips hdeny hst htp hstall hagain hne

end Neptune.Transport
