import Neptune.Spec.Transport

/-! The phases of an attempt: each function adds phases, and every stall is answered by clearing the
halt of the endpoint that stalled, that of the status of CBI apart. -/

namespace Neptune

open List

namespace Transport

variable {ncm : NepClassMS} {cmd : SCSICmd} {dev : Device} {eps : Endpoints} {st st' : St}

/-- A stall that is recovered from: where halts are cleared and nothing cuts that short, that of the
endpoint is. A control pipe has none. -/
def Recovered (eps : Endpoints) (p : Phase) : Prop :=
  p.reply.ioerr = UHIOERR_STALL → p.clears ≠ [] →
    (∀ c ∈ p.clears, c.reply.ioerr ≠ UHIOERR_TIMEOUT ∧ c.reply.deny = false) →
      ∀ a, eps.address p.pipe = some a → ∃ c ∈ p.clears, (c.epnum, c.isIn) = a

def Extends (st : St) (ps : List Phase) (st' : St) : Prop := st'.phases = st.phases ++ ps

theorem Extends.nil (h : st'.phases = st.phases) : Extends st [] st' :=
  h.trans (append_nil _).symm

theorem Extends.trans {st'' : St} {ps ps' : List Phase} (h : Extends st ps st')
    (h' : Extends st' ps' st'') : Extends st (ps ++ ps') st'' := by
  unfold Extends at *
  rw [h', h, append_assoc]

def Adds (eps : Endpoints) (st st' : St) : Prop :=
  ∃ ps, Extends st ps st' ∧ ∀ p ∈ ps, Recovered eps p

theorem Adds.of_eq (h : st'.phases = st.phases) : Adds eps st st' :=
  ⟨[], .nil h, fun _ hp => absurd hp not_mem_nil⟩

theorem Adds.trans {st'' : St} (h : Adds eps st st') (h' : Adds eps st' st'') : Adds eps st st'' := by
  obtain ⟨ps, hps, hall⟩ := h
  obtain ⟨ps', hps', hall'⟩ := h'
  refine ⟨ps ++ ps', hps.trans hps', ?_⟩
  intro p hp
  rcases mem_append.mp hp with hp | hp
  · exact hall p hp
  · exact hall' p hp

def KeepsPhases (recover : St → List Clear × St) : Prop := ∀ st, (recover st).2.phases = st.phases

theorem leave_keeps : KeepsPhases leave := fun _ => rfl

theorem clearing_keeps (dev : Device) (site : Site) (epnum : ℕ) (isIn : Bool) :
    KeepsPhases (clearing dev site epnum isIn) := fun _ => rfl

theorem clearData_keeps (ncm : NepClassMS) (cmd : SCSICmd) (dev : Device) (site : Site) :
    KeepsPhases (clearData ncm cmd dev site) := by
  intro st
  unfold clearData
  split <;> rfl

section

variable (ncm : NepClassMS) (dev : Device) (ladder : ℕ)

theorem nBulkClear_keeps :
    KeepsPhases (nBulkClear ncm dev ladder) := by
  intro st
  unfold nBulkClear
  simp only
  split_ifs <;> rfl

theorem resetClears_phases (st : St) :
    (resetClears ncm dev ladder st).phases = st.phases := by
  unfold resetClears
  simp only
  split <;> rfl

theorem nBulkReset_phases (st : St) :
    (nBulkReset ncm dev ladder st).phases = st.phases := by
  unfold nBulkReset
  simp only
  split
  · rfl
  split
  · split_ifs
    all_goals first
      | rfl
      | exact resetClears_phases _ _ _ _
  all_goals
    split
    · rfl
    · exact resetClears_phases _ _ _ _

end

def phaseOf (dev : Device) (pipe : Pipe) (site : Site) (tag : ℕ)
    (recover : St → List Clear × St) (st : St) : Phase :=
  ⟨pipe, site, tag, dev site, (xfer dev pipe site tag recover st).2.1⟩

variable {pipe : Pipe} {recover : St → List Clear × St}

theorem xfer_phases (h : KeepsPhases recover) (dev : Device)
    (pipe : Pipe) (site : Site) (tag : ℕ) (st : St) :
    Extends st [phaseOf dev pipe site tag recover st] (xfer dev pipe site tag recover st).2.2 := by
  unfold phaseOf Extends xfer
  simp only
  split
  · rw [h]
    rfl
  · rfl

theorem xfer_clears {site : Site} {tag : ℕ}
    (h : (dev site).ioerr = UHIOERR_STALL) :
    (xfer dev pipe site tag recover st).2.1 = (recover (st.denied (dev site))).1 := by
  unfold xfer
  simp only [h, if_true]

def Clears (eps : Endpoints) (pipe : Pipe) (recover : St → List Clear × St) : Prop :=
  ∀ st, (recover st).1 ≠ [] →
    (∀ c ∈ (recover st).1, c.reply.ioerr ≠ UHIOERR_TIMEOUT ∧ c.reply.deny = false) →
      ∀ a, eps.address pipe = some a → ∃ c ∈ (recover st).1, (c.epnum, c.isIn) = a

theorem xfer_adds (hk : KeepsPhases recover)
    (hc : Clears eps pipe recover) (dev : Device) (site : Site) (tag : ℕ) (st : St) :
    Adds eps st (xfer dev pipe site tag recover st).2.2 := by
  refine ⟨_, xfer_phases hk dev pipe site tag st, ?_⟩
  intro p hp
  obtain rfl := mem_singleton.mp hp
  intro hstall
  have hclears := @xfer_clears dev st pipe recover site tag hstall
  unfold phaseOf
  simp only [hclears]
  exact hc _

theorem leave_clears (eps : Endpoints) (pipe : Pipe) : Clears eps pipe leave :=
  fun _ h => absurd rfl h

theorem ep0_clears (eps : Endpoints) (recover : St → List Clear × St) : Clears eps .ep0 recover :=
  fun _ _ _ _ ha => nomatch ha

theorem clearing_clears {epnum : ℕ} {isIn : Bool}
    (h : ∀ a, eps.address pipe = some a → (epnum, isIn) = a) (dev : Device) (site : Site) :
    Clears eps pipe (clearing dev site epnum isIn) :=
  fun _ _ _ a ha => ⟨_, mem_cons_self, h a ha⟩

structure Bulks (ncm : NepClassMS) (eps : Endpoints) : Prop where
  epIn : ncm.nums.epInNum = eps.bulkIn
  epOut : ncm.nums.epOutNum = eps.bulkOut

theorem bulks_of_epNums (h : epNums ncm.tpType eps = some ncm.nums) : Bulks ncm eps := by
  unfold epNums at h
  split at h
  · cases h
  · have hnums := Option.some.inj h
    exact ⟨by rw [← hnums], by rw [← hnums]⟩

theorem Bulks.clearIn (h : Bulks ncm eps) (dev : Device) (site : Site) :
    Clears eps .bulkIn (clearing dev site ncm.nums.epInNum true) := by
  apply clearing_clears
  intro a ha
  rw [h.epIn]
  exact Option.some.inj ha

theorem Bulks.clearData (h : Bulks ncm eps) (cmd : SCSICmd) (dev : Device) (site : Site) :
    Clears eps (dataPipe cmd) (clearData ncm cmd dev site) := by
  unfold dataPipe Transport.clearData
  cases cmd.isRead
  · apply clearing_clears
    intro a ha
    rw [h.epOut]
    exact Option.some.inj ha
  · exact h.clearIn dev site

theorem Bulks.bulkClear (h : Bulks ncm eps) (dev : Device) (ladder : ℕ) :
    Clears eps .bulkOut (nBulkClear ncm dev ladder) := by
  intro st hne hall a ha
  obtain rfl := Option.some.inj ha
  revert hne hall
  unfold nBulkClear
  simp only
  split
  · exact fun hne => absurd rfl hne
  rename_i hdeny
  split
  · rename_i htimeout
    exact fun _ hall => absurd htimeout (hall _ mem_cons_self).1
  split
  · rename_i hdenied
    intro _ hall
    have hfalse := (hall _ mem_cons_self).2
    unfold clearHalt St.denied at hdenied hfalse
    simp only [Bool.or_eq_true] at hdenied hfalse
    rcases hdenied with hd | hd
    · exact absurd hd hdeny
    · rw [hfalse] at hd
      exact absurd hd (by decide)
  · intro _ _
    refine ⟨_, mem_cons_of_mem _ mem_cons_self, ?_⟩
    rw [← h.epOut]
    rfl

variable {tag : ℕ}

section Bulk

variable {first again clear afterStall afterRunt : Site} {ladder : ℕ}

theorem bulkCommand_adds (h : Bulks ncm eps) (cmd : SCSICmd) (dev : Device) (first again : Site) (ladder : ℕ)
    (st : St) : Adds eps st (bulkCommand ncm cmd dev first again ladder st).2.2 := by
  have hfirst := fun tag st => xfer_adds (nBulkClear_keeps ncm dev ladder) (h.bulkClear dev ladder)
    dev first tag st
  unfold bulkCommand
  simp only
  split
  · refine .trans ?_ (xfer_adds leave_keeps (leave_clears eps .bulkOut) dev again _ _)
    exact .trans (.of_eq rfl) (hfirst _ _)
  · exact .trans (.of_eq rfl) (hfirst _ _)

theorem bulkCommand_ok (h : (bulkCommand ncm cmd dev first again ladder st).1 = 0) :
    ∃ pre c, (bulkCommand ncm cmd dev first again ladder st).2.2.phases = pre ++ [c] ∧
      (c.site = first ∨ c.site = again) ∧ c.reply.ioerr = 0 ∧
      c.tag = (bulkCommand ncm cmd dev first again ladder st).2.1 := by
  revert h
  unfold bulkCommand
  simp only
  split <;> intro hok
  · exact ⟨_, _, xfer_phases leave_keeps dev _ _ _ _, Or.inr rfl, hok, rfl⟩
  · exact ⟨_, _, xfer_phases (nBulkClear_keeps ncm dev ladder) dev _ _ _ _, Or.inl rfl, hok, rfl⟩

theorem bulkData_adds (h : Bulks ncm eps) (cmd : SCSICmd) (dev : Device) (tag : ℕ) (st : St) :
    Adds eps st (bulkData ncm cmd dev tag st).2.2 := by
  unfold bulkData
  split
  · exact .of_eq rfl
  · exact .trans (xfer_adds (clearData_keeps ncm cmd dev _) (h.clearData cmd dev _) dev .data tag st)
      (.of_eq rfl)

theorem bulkData_tried (ncm : NepClassMS) (cmd : SCSICmd) (dev : Device) (tag : ℕ) (st : St) :
    ∃ ps, Extends st ps (bulkData ncm cmd dev tag st).2.2 ∧
      (cmd.length ≠ 0 → ∃ d ∈ ps, d.site = .data) := by
  unfold bulkData
  split
  · rename_i hzero
    exact ⟨[], .nil rfl, fun h => absurd hzero h⟩
  · exact ⟨_, xfer_phases (clearData_keeps ncm cmd dev _) dev _ _ _ _,
      fun _ => ⟨_, mem_singleton_self _, rfl⟩⟩

theorem bulkStatus_adds (h : Bulks ncm eps) (dev : Device) (first clear afterStall afterRunt : Site) (tag : ℕ)
    (st : St) :
    Adds eps st (bulkStatus ncm dev first clear afterStall afterRunt tag st).2.2 := by
  have hfirst := xfer_adds (clearing_keeps dev clear _ _) (h.clearIn dev clear) dev first tag st
  have hleave := fun site st => xfer_adds leave_keeps (leave_clears eps .bulkIn) dev site tag st
  unfold bulkStatus
  simp only
  split <;> split
  · exact .trans (.trans hfirst (hleave _ _)) (hleave _ _)
  · exact .trans hfirst (hleave _ _)
  · exact .trans hfirst (hleave _ _)
  · exact hfirst

structure Came (tag : ℕ) (csw : Csw) (s : Phase) : Prop where
  came : s.reply.ioerr = 0 ∨ nIsOverflowErr s.reply.ioerr = true
  tag : s.tag = tag
  csw : s.reply.csw = csw

theorem came_of {r : Reply} {pipe : Pipe} {site : Site} {clears : List Clear}
    (h : (if nIsOverflowErr r.ioerr then 0 else r.ioerr) = 0) :
    Came tag r.csw ⟨pipe, site, tag, r, clears⟩ := by
  refine ⟨?_, rfl, rfl⟩
  split at h
  · exact Or.inr (by assumption)
  · exact Or.inl h

theorem bulkStatus_ok
    (h : (bulkStatus ncm dev first clear afterStall afterRunt tag st).1 = 0) :
    ∃ ps s, Extends st ps (bulkStatus ncm dev first clear afterStall afterRunt tag st).2.2 ∧
      s ∈ ps ∧ (s.site = first ∨ s.site = afterStall ∨ s.site = afterRunt) ∧
      Came tag (bulkStatus ncm dev first clear afterStall afterRunt tag st).2.1 s := by
  have hfirst := xfer_phases (clearing_keeps dev clear ncm.nums.epInNum true) dev .bulkIn first tag st
  have hleave := fun site st => xfer_phases leave_keeps dev .bulkIn site tag st
  have hlast : ∀ {ps : List Phase} {s : Phase}, s ∈ ps ++ [s] :=
    mem_append_right _ (mem_singleton_self _)
  revert h
  unfold bulkStatus
  simp only
  split <;> split <;> intro hok
  · exact ⟨_, _, (hfirst.trans (hleave _ _)).trans (hleave _ _), hlast, Or.inr (Or.inr rfl),
      came_of hok⟩
  · exact ⟨_, _, hfirst.trans (hleave _ _), hlast, Or.inr (Or.inl rfl), came_of hok⟩
  · exact ⟨_, _, hfirst.trans (hleave _ _), hlast, Or.inr (Or.inr rfl), came_of hok⟩
  · exact ⟨_, _, hfirst, mem_singleton_self _, Or.inl rfl, came_of hok⟩

theorem bulkSenseKey_phases (ncm : NepClassMS) (st : St) :
    (bulkSenseKey ncm st).2.phases = st.phases := by
  unfold bulkSenseKey
  simp only
  split_ifs <;> rfl

theorem cswStatus_phases (csw : Csw) (actual : ℕ) (data : List UInt8) (tag : ℕ) (st : St) :
    (cswStatus csw actual data tag st).2.phases = st.phases := by
  unfold cswStatus
  split <;> rfl

theorem cswStatus_pass {csw : Csw} {actual : ℕ} {data : List UInt8}
    (h : (cswStatus csw actual data tag st).1 = USMF_CSW_PASS) : csw.status = USMF_CSW_PASS := by
  unfold cswStatus at h
  split at h
  · exact absurd (show USMF_CSW_FAIL = USMF_CSW_PASS from h) (by decide)
  · exact h

theorem bulkSensed_adds (eps : Endpoints) (csw : Csw) (tag : ℕ) (st : St) :
    Adds eps st (bulkSensed ncm dev csw tag st).2.2 := by
  apply Adds.of_eq
  unfold bulkSensed
  simp only
  split
  · exact nBulkReset_phases _ _ _ _
  split
  · exact (nBulkReset_phases _ _ _ _).trans (cswStatus_phases _ _ _ _ _)
  split
  · exact cswStatus_phases _ _ _ _ _
  · exact (bulkSenseKey_phases _ _).trans (cswStatus_phases _ _ _ _ _)

section

variable (h : Bulks ncm eps)
include h

theorem bulkSenseData_adds (tag : ℕ) (st : St) :
    Adds eps st (bulkSenseData ncm dev tag st).2.2 := by
  have hdata := xfer_adds (clearing_keeps dev .senseDataClear _ _)
    (h.clearIn dev .senseDataClear) dev .senseData tag st
  have hsensed : ∀ r, Adds eps st ((xfer dev .bulkIn .senseData tag
      (clearing dev .senseDataClear ncm.nums.epInNum true) st).2.2.sensed r) :=
    fun _ => hdata.trans (.of_eq rfl)
  unfold bulkSenseData
  simp only
  split
  · exact (hsensed _).trans (.of_eq (nBulkReset_phases _ _ _ _))
  split
  · exact ((hsensed _).trans (bulkStatus_adds h dev _ _ _ _ _ _)).trans
      (.of_eq (nBulkReset_phases _ _ _ _))
  · exact ((hsensed _).trans (bulkStatus_adds h dev _ _ _ _ _ _)).trans (bulkSensed_adds _ _ _ _)

theorem bulkSense_adds (cmd : SCSICmd) (st : St) :
    Adds eps st (bulkSense ncm cmd dev st).2.2 := by
  refine (bulkCommand_adds h cmd dev .senseCommand .senseCommandAgain 2 st).trans ?_
  unfold bulkSense
  simp only
  split
  · exact .of_eq rfl
  · exact bulkSenseData_adds h _ _

theorem bulkFailed_adds (cmd : SCSICmd) (status : UInt8) (st : St) :
    Adds eps st (bulkFailed ncm cmd dev status st).2.2 := by
  have hreset : Adds eps st (if status = USMF_CSW_PHASEERR then nBulkReset ncm dev 1 st else st) := by
    split
    · exact .of_eq (nBulkReset_phases _ _ _ _)
    · exact .of_eq rfl
  refine hreset.trans ?_
  unfold bulkFailed
  generalize (if status = USMF_CSW_PHASEERR then nBulkReset ncm dev 1 st else st) = st'
  split
  · exact bulkSense_adds h cmd _
  · exact .of_eq rfl

theorem bulkPassed_adds (cmd : SCSICmd) (csw : Csw) (data : List UInt8)
    (tag : ℕ) (st : St) : Adds eps st (bulkPassed ncm cmd dev csw data tag st).2.2 := by
  unfold bulkPassed
  simp only
  split
  · exact .of_eq (nBulkReset_phases _ _ _ _)
  split
  · exact .of_eq (cswStatus_phases _ _ _ _ _)
  · exact .trans (.of_eq (cswStatus_phases _ _ _ _ _)) (bulkFailed_adds h cmd _ _)

theorem bulkStatusPhase_adds (cmd : SCSICmd) (data : List UInt8) (tag : ℕ)
    (st : St) : Adds eps st (bulkStatusPhase ncm cmd dev data tag st).2.2 := by
  refine (bulkStatus_adds h dev .status .statusClear .statusAfterStall .statusAfterRunt tag
    st).trans ?_
  unfold bulkStatusPhase
  simp only
  split
  · exact .of_eq rfl
  split
  · exact .of_eq (nBulkReset_phases _ _ _ _)
  · exact bulkPassed_adds h cmd _ _ _ _

theorem bulkDataPhase_adds (cmd : SCSICmd) (tag : ℕ) (st : St) :
    Adds eps st (bulkDataPhase ncm cmd dev tag st).2.2 := by
  refine (bulkData_adds h cmd dev tag st).trans ?_
  unfold bulkDataPhase
  simp only
  split
  · exact .of_eq (nBulkReset_phases _ _ _ _)
  · exact bulkStatusPhase_adds h cmd _ _ _

theorem bulkAttempt_adds (cmd : SCSICmd) (dev : Device) (st : St) :
    Adds eps st (bulkAttempt ncm cmd dev st).2.2 := by
  refine (bulkCommand_adds h cmd dev .command .commandAgain 0 st).trans ?_
  unfold bulkAttempt
  simp only
  split
  · exact .of_eq rfl
  split
  · split
    · exact .of_eq rfl
    · exact .of_eq (nBulkReset_phases _ _ _ _)
  · exact bulkDataPhase_adds h cmd _ _

end

theorem phase_fails : HFERR_Phase ≠ 0 := by decide

theorem badStatus_fails : HFERR_BadStatus ≠ 0 := by decide

theorem bulkSensed_fails (ncm : NepClassMS) (dev : Device) (csw : Csw) (tag : ℕ) (st : St) :
    (bulkSensed ncm dev csw tag st).1 ≠ 0 := by
  unfold bulkSensed
  simp only
  split
  · exact phase_fails
  split
  · exact badStatus_fails
  split
  · exact badStatus_fails
  · exact badStatus_fails

theorem bulkSense_fails (ncm : NepClassMS) (cmd : SCSICmd) (dev : Device) (st : St) :
    (bulkSense ncm cmd dev st).1 ≠ 0 := by
  unfold bulkSense
  simp only
  split
  · exact badStatus_fails
  unfold bulkSenseData
  simp only
  split
  · exact badStatus_fails
  split
  · exact badStatus_fails
  · exact bulkSensed_fails _ _ _ _ _

theorem bulkFailed_fails (ncm : NepClassMS) (cmd : SCSICmd) (dev : Device) (status : UInt8)
    (st : St) : (bulkFailed ncm cmd dev status st).1 ≠ 0 := by
  unfold bulkFailed
  generalize (if status = USMF_CSW_PHASEERR then nBulkReset ncm dev 1 st else st) = st'
  split
  · exact bulkSense_fails _ _ _ _
  · exact badStatus_fails

theorem bulkPassed_ok {csw : Csw} {data : List UInt8}
    (h : (bulkPassed ncm cmd dev csw data tag st).1 = 0) :
    csw.tag = tag ∧ csw.status = USMF_CSW_PASS ∧
      (bulkPassed ncm cmd dev csw data tag st).2.2.phases = st.phases := by
  revert h
  unfold bulkPassed
  simp only
  split
  · exact fun h => absurd h phase_fails
  rename_i hcsw
  split
  · rename_i hstatus
    intro _
    have htag : csw.tag = tag := by
      unfold badCsw at hcsw
      simp only [Bool.or_eq_true, decide_eq_true_iff, not_or, not_not] at hcsw
      exact hcsw.2
    exact ⟨htag, cswStatus_pass hstatus, cswStatus_phases _ _ _ _ _⟩
  · exact fun h => absurd h (bulkFailed_fails _ _ _ _ _)

end Bulk

def StatusPassed (tpType : TPType) (tag : ℕ) (ps : List Phase) : Prop :=
  match tpType with
  | .bulk => ∃ s ∈ ps, (s.site = .status ∨ s.site = .statusAfterStall ∨ s.site = .statusAfterRunt) ∧
      (s.reply.ioerr = 0 ∨ nIsOverflowErr s.reply.ioerr = true) ∧
      s.reply.csw.tag = tag ∧ s.reply.csw.status = USMF_CSW_PASS
  | .cbi => ∃ s ∈ ps, s.site = .status ∧ (s.reply.ioerr = 0 ∨ s.reply.ioerr = UHIOERR_RUNTPACKET) ∧
      s.reply.bytes[1]? = some USMF_CSW_PASS
  | .cb => True

/-- The command block has been accepted, the data have been tried after it, and a status of this
command says passed. -/
def Completed (tpType : TPType) (cmd : SCSICmd) (phases : List Phase) : Prop :=
  ∃ pre c post, phases = pre ++ c :: post ∧ (c.site = .command ∨ c.site = .commandAgain) ∧
    c.reply.ioerr = 0 ∧ (cmd.length ≠ 0 → ∃ d ∈ post, d.site = .data) ∧
    StatusPassed tpType c.tag post

theorem bulkStatusPhase_ok {data : List UInt8}
    (h : (bulkStatusPhase ncm cmd dev data tag st).1 = 0) :
    ∃ ps, Extends st ps (bulkStatusPhase ncm cmd dev data tag st).2.2 ∧ StatusPassed .bulk tag ps := by
  revert h
  unfold bulkStatusPhase
  simp only
  split
  · exact fun h => absurd h phase_fails
  split
  · exact fun h => absurd h phase_fails
  rename_i hstatus
  obtain ⟨ps, s, hps, hs, hsite, hcame⟩ := bulkStatus_ok (not_not.mp hstatus)
  intro hok
  obtain ⟨hcsw, hpass, hphases⟩ := bulkPassed_ok hok
  refine ⟨ps, hphases.trans hps, s, hs, hsite, hcame.came, ?_, ?_⟩
  · rw [hcame.csw, hcsw]
  · rw [hcame.csw, hpass]

theorem bulkDataPhase_ok (h : (bulkDataPhase ncm cmd dev tag st).1 = 0) :
    ∃ ps, Extends st ps (bulkDataPhase ncm cmd dev tag st).2.2 ∧
      (cmd.length ≠ 0 → ∃ d ∈ ps, d.site = .data) ∧ StatusPassed .bulk tag ps := by
  obtain ⟨ds, hds, htried⟩ := bulkData_tried ncm cmd dev tag st
  revert h
  unfold bulkDataPhase
  simp only
  split
  · exact fun h => absurd h phase_fails
  intro hok
  obtain ⟨ps, hps, s, hs, hpassed⟩ := bulkStatusPhase_ok hok
  refine ⟨ds ++ ps, hds.trans hps, ?_, s, mem_append_right _ hs, hpassed⟩
  intro hlen
  obtain ⟨d, hd, hdata⟩ := htried hlen
  exact ⟨d, mem_append_left _ hd, hdata⟩

theorem bulkAttempt_ok (h : (bulkAttempt ncm cmd dev st).1 = 0) :
    Completed .bulk cmd (bulkAttempt ncm cmd dev st).2.2.phases := by
  revert h
  unfold bulkAttempt
  simp only
  split
  · exact fun h => absurd h phase_fails
  split
  · split <;> exact fun h => absurd h phase_fails
  rename_i hcommand
  obtain ⟨pre, c, hc, hsite, hacc, htag⟩ := bulkCommand_ok (not_not.mp hcommand)
  intro hok
  obtain ⟨ps, hps, htried, hpassed⟩ := bulkDataPhase_ok hok
  refine ⟨pre, c, ps, ?_, hsite, hacc, htried, ?_⟩
  · rw [hps, hc, append_assoc]
    rfl
  · rw [htag]
    exact hpassed

end Transport

end Neptune
