import Neptune.Proofs.UasNeverStuck

/-! What the engine owes: the requests on its tags. Each is replied once, as its tag is retired, and
only a running tag carries one. -/

namespace Neptune.Uas

open List

variable {ut : UasTag} {w : Wire} {maxtrans id : ℕ}

def held (ut : UasTag) (id : ℕ) : ℕ := ut.ioreq.toList.count id

def paid (w : Wire) (id : ℕ) : ℕ := (w.answered.map Prod.fst).count id

structure Pays (ut : UasTag) (w : Wire) (r : UasTag × Wire) : Prop where
  owed : ∀ id, held r.1 id + paid r.2 id = held ut id + paid w id
  grows : ∀ id, paid w id ≤ paid r.2 id
  tidy : r.1.state ≠ .running → r.1.ioreq = none

@[simp] theorem wait_answered (pipe : Pipe) : (psdWaitPipe pipe w).2.answered = w.answered := by
  unfold psdWaitPipe
  split <;> rfl

@[simp] theorem abort_answered (pipe : Pipe) : (psdAbortPipe pipe w).answered = w.answered := rfl

@[simp] theorem sendIu_answered (iu : Iu) : (sendIu iu w).2.answered = w.answered := by
  unfold sendIu
  split <;> rfl

theorem Pays.from {ut' : UasTag} {w' : Wire} {r : UasTag × Wire} (h : Pays ut' w' r)
    (hi : ut'.ioreq = ut.ioreq) (hw : w'.answered = w.answered) : Pays ut w r where
  owed := by
    intro id
    rw [h.owed]
    unfold held paid
    rw [hi, hw]
  grows := by
    intro id
    have := h.grows id
    unfold paid at this ⊢
    rw [hw] at this
    exact this
  tidy := h.tidy

theorem Pays.refl (h : ut.state ≠ .running → ut.ioreq = none) : Pays ut w (ut, w) :=
  ⟨fun _ => rfl, fun _ => le_rfl, h⟩

theorem Pays.running (h : ut.state = .running) : Pays ut w (ut, w) :=
  .refl fun hne => absurd h hne

theorem finalize_pays (ioerr : ℤ) : Pays ut w (nUasFinalizeTag ut w ioerr) := by
  constructor
  · intro id
    simp only [nUasFinalizeTag, held, paid]
    cases ut.ioreq with
    | none => rfl
    | some ioreq => simp [count_append, add_comm]
  · intro id
    simp only [nUasFinalizeTag, paid]
    cases ut.ioreq with
    | none => exact le_rfl
    | some ioreq => simp [count_append]
  · exact fun _ => rfl

theorem abortArmed_keeps (ut : UasTag) (w : Wire) :
    (nUasTagAbortArmed ut w).1.ioreq = ut.ioreq ∧
      (nUasTagAbortArmed ut w).2.answered = w.answered := by
  unfold nUasTagAbortArmed
  cases hs : ut.statusArmed <;> cases hd : ut.dataArmed <;>
    simp [abortStatus, abortData, hs, hd]

theorem armChunk_ioreq (datalen : ℕ) : (armChunk ut datalen).ioreq = ut.ioreq := by
  simp only [armChunk]
  split <;> rfl

theorem submitChunk_keeps (maxtrans : ℕ) (ut : UasTag) (w : Wire) :
    (nUasSubmitChunk maxtrans ut w).2.1.ioreq = ut.ioreq ∧
      (nUasSubmitChunk maxtrans ut w).2.2.answered = w.answered := by
  simp only [nUasSubmitChunk]
  split
  · have h := abortArmed_keeps (armChunk ut (min ut.remain maxtrans))
      (sendIu (.command (armChunk ut (min ut.remain maxtrans)).tag) w).2
    exact ⟨h.1.trans (armChunk_ioreq _), h.2.trans (sendIu_answered _)⟩
  · exact ⟨armChunk_ioreq _, sendIu_answered _⟩

theorem submit_pays (hr : ut.state = .running) :
    Pays ut w (if (nUasSubmitChunk maxtrans ut w).1 ≠ 0 then
      nUasFinalizeTag (nUasSubmitChunk maxtrans ut w).2.1 (nUasSubmitChunk maxtrans ut w).2.2
        HFERR_Phase
      else (nUasSubmitChunk maxtrans ut w).2) := by
  have hk := submitChunk_keeps maxtrans ut w
  split
  · exact (finalize_pays _).from hk.1 hk.2
  · rename_i hsent
    refine (Pays.running ?_).from hk.1 hk.2
    simp only [nUasSubmitChunk] at hsent ⊢
    split at hsent
    · exact absurd (by assumption) hsent
    · rw [if_neg (by assumption)]
      simp only [armChunk]
      split <;> exact hr

theorem chunkDone_pays (hr : ut.state = .running) : Pays ut w (chunkDone maxtrans ut w) := by
  unfold chunkDone
  split
  · exact finalize_pays _
  split
  · exact finalize_pays _
  split
  · exact finalize_pays _
  have hr' : (nUasAdvanceChunk ut).2.state = .running := hr
  have hi : (nUasAdvanceChunk ut).2.ioreq = ut.ioreq := rfl
  generalize nUasAdvanceChunk ut = advanced at *
  obtain ⟨more, ut'⟩ := advanced
  cases more with
  | false => exact (finalize_pays _).from hi rfl
  | true => exact (submit_pays hr').from hi rfl

theorem signalAbort_answered : (nUasTagSignalAbort ut w).answered = w.answered := by
  simp only [nUasTagSignalAbort]
  split <;> split <;> rfl

theorem reaped_pays (hr : ut.state = .running) :
    Pays ut w (if ut.outstanding ≠ 0 then (ut, w) else chunkDone maxtrans ut w) := by
  split
  · exact .running hr
  · exact chunkDone_pays hr

theorem abortFlagged_pays (ht : ut.state ≠ .running → ut.ioreq = none) :
    Pays ut w (ut, if ut.state = .running ∧ ut.abortReq then nUasTagSignalAbort ut w else w) := by
  have hw : (if ut.state = .running ∧ ut.abortReq then nUasTagSignalAbort ut w else w).answered =
      w.answered := by
    split
    · exact signalAbort_answered
    · rfl
  exact ⟨fun id => by simp only [paid, hw], fun id => by simp only [paid, hw, le_refl], ht⟩

theorem statusDone_keeps (ut : UasTag) (w : Wire) : (statusDone ut w).1.ioreq = ut.ioreq ∧
    (statusDone ut w).2.1.answered = w.answered ∧ (statusDone ut w).1.state = ut.state := by
  simp only [statusDone]
  split
  · refine ⟨rfl, ?_, rfl⟩
    simp only
    split <;> simp
  · exact ⟨rfl, wait_answered _, rfl⟩

theorem pipeDone_pays (is_status : Bool) (hr : ut.state = .running) :
    Pays ut w (nUasTagPipeDone maxtrans is_status ut w) := by
  have hk : (if is_status then statusDone ut w else dataDone ut w).1.ioreq = ut.ioreq ∧
      (if is_status then statusDone ut w else dataDone ut w).2.1.answered = w.answered ∧
      (if is_status then statusDone ut w else dataDone ut w).1.state = ut.state := by
    cases is_status with
    | true => exact statusDone_keeps ut w
    | false => exact ⟨rfl, wait_answered _, rfl⟩
  unfold nUasTagPipeDone
  generalize (if is_status then statusDone ut w else dataDone ut w) = done at *
  obtain ⟨ut', w', ioerr⟩ := done
  obtain ⟨hi, hw, hstate⟩ := hk
  have hr' : ut'.state = .running := hstate.trans hr
  simp only at hi hw ⊢
  generalize (!nUasErrForgiven ioerr && !ut'.failed) = failed
  cases failed with
  | true =>
    refine Pays.from (@reaped_pays { ut' with outstanding := usub ut'.outstanding 1, failed := true }
      _ maxtrans hr') hi ?_
    exact signalAbort_answered.trans hw
  | false =>
    exact Pays.from (@reaped_pays { ut' with outstanding := usub ut'.outstanding 1 } w' maxtrans hr')
      hi hw

theorem kill_pays (ht : ut.state ≠ .running → ut.ioreq = none) : Pays ut w (killTag ut w) := by
  have hk := abortArmed_keeps ut w
  simp only [killTag]
  split
  · refine Pays.from (finalize_pays _) ?_ hk.2
    exact hk.1
  · exact .refl ht

theorem waitData_answered (dataLen : ℕ) : (waitData dataLen ut w).2.answered = w.answered := by
  simp only [waitData]
  split
  · rfl
  split <;> simp

theorem doCommand_pays (dataLen : ℕ) (hn : ut.ioreq = none) :
    Pays ut w (nUasDoCommand dataLen ut w).2 := by
  simp only [nUasDoCommand]
  split
  · refine Pays.from (finalize_pays 0) hn.symm ?_
    simp
  split
  · refine Pays.from (finalize_pays 0) hn.symm ?_
    exact (waitData_answered _).trans (by simp)
  split
  · refine Pays.from (finalize_pays 0) hn.symm ?_
    exact (waitData_answered _).trans (by simp)
  · refine Pays.from (finalize_pays 0) hn.symm ?_
    exact (waitData_answered _).trans (by simp)

theorem submitTag_pays {ioreq length : ℕ} {isRead : Bool} (hn : ut.ioreq = none) :
    (∀ id, held (nUasSubmitTag maxtrans ioreq length isRead ut w).1 id +
      paid (nUasSubmitTag maxtrans ioreq length isRead ut w).2 id =
        held ut id + paid w id + [ioreq].count id) ∧
    (∀ id, paid w id ≤ paid (nUasSubmitTag maxtrans ioreq length isRead ut w).2 id) ∧
    ((nUasSubmitTag maxtrans ioreq length isRead ut w).1.state ≠ .running →
      (nUasSubmitTag maxtrans ioreq length isRead ut w).1.ioreq = none) := by
  have h := @submit_pays
    { ut with ioreq := some ioreq, isRead := isRead, offset := 0, remain := length,
              abortReq := false, failed := false, state := .running } w maxtrans rfl
  refine ⟨fun id => (h.owed id).trans ?_, h.grows, h.tidy⟩
  simp only [held, hn, Option.toList_some, Option.toList_none, count_nil]
  omega

namespace Ncm

variable {s t u : Ncm} {tag : ℕ} {pipe : Pipe}

def Tidy (s : Ncm) : Prop := ∀ ut ∈ s.tags, ut.state ≠ .running → ut.ioreq = none

def owed (s : Ncm) (id : ℕ) : ℕ := (s.tags.filterMap UasTag.ioreq).count id

structure Ledger (s t : Ncm) : Prop where
  owed : ∀ id, t.owed id + paid t.wire id = s.owed id + paid s.wire id
  grows : ∀ id, paid s.wire id ≤ paid t.wire id
  tidy : t.Tidy
  deny : s.denyRequests = true → t.denyRequests = true

theorem Ledger.refl (h : s.Tidy) : Ledger s s := ⟨fun _ => rfl, fun _ => le_rfl, h, id⟩

theorem Ledger.trans (h : Ledger s t) (h' : Ledger t u) : Ledger s u where
  owed := fun id => (h'.owed id).trans (h.owed id)
  grows := fun id => (h.grows id).trans (h'.grows id)
  tidy := h'.tidy
  deny := fun h₀ => h'.deny (h.deny h₀)

theorem Ledger.map {g : UasTag → UasTag} (ht : s.Tidy)
    (hg : ∀ ut, (g ut).ioreq = ut.ioreq ∧ ((g ut).state = .running ↔ ut.state = .running))
    (htags : t.tags = s.tags.map g) (hw : t.wire.answered = s.wire.answered)
    (hd : t.denyRequests = s.denyRequests) : Ledger s t := by
  have hsame : t.tags.filterMap UasTag.ioreq = s.tags.filterMap UasTag.ioreq := by
    rw [htags, filterMap_map]
    exact filterMap_congr fun ut _ => (hg ut).1
  refine ⟨fun id => ?_, fun id => ?_, fun ut' hut' => ?_, hd.trans⟩
  · unfold Ncm.owed paid
    rw [hsame, hw]
  · unfold paid
    rw [hw]
  · rw [htags] at hut'
    obtain ⟨ut, hut, rfl⟩ := mem_map.mp hut'
    rw [(hg ut).1, Ne, (hg ut).2]
    exact ht ut hut

theorem Ledger.congr (ht : s.Tidy) (htags : t.tags = s.tags)
    (hw : t.wire.answered = s.wire.answered) (hd : t.denyRequests = s.denyRequests) :
    Ledger s t :=
  .map ht (fun _ => ⟨rfl, Iff.rfl⟩) (htags.trans (map_id _).symm) hw hd

theorem owed_eq_sum (tags : List UasTag) (id : ℕ) :
    (tags.filterMap UasTag.ioreq).count id = (tags.map (held · id)).sum := by
  induction tags with
  | nil => rfl
  | cons ut tags ih =>
    cases hi : ut.ioreq with
    | none => simp [hi, held, ih]
    | some ioreq => simp [hi, held, ih, count_cons, add_comm]

variable {ut : UasTag} {f : UasTag → Wire → UasTag × Wire}

theorem onTag_owed (hi : TagsInv s.tags) (hut : ut ∈ s.tags)
    (f : UasTag → Wire → UasTag × Wire) (id : ℕ) :
    (s.onTag ut.tag f).owed id + held ut id = s.owed id + held (f ut s.wire).1 id := by
  unfold owed
  rw [onTag_tags hi, owed_eq_sum, owed_eq_sum]
  exact Keyed.sum_modify hi.numbers hut

theorem onTag_tidy (hi : TagsInv s.tags) (ht : s.Tidy)
    (hf : ∀ ut ∈ s.tags, ut.tag = tag → (f ut s.wire).1.state ≠ .running →
      (f ut s.wire).1.ioreq = none) : (s.onTag tag f).Tidy := by
  intro ut' hut'
  rw [onTag_tags hi, Keyed.mem_modify] at hut'
  obtain ⟨ut, hut, rfl⟩ := hut'
  split
  · exact hf ut hut (by assumption)
  · exact ht ut hut

theorem onTag_deny :
    (s.onTag tag f).denyRequests = s.denyRequests := by
  unfold onTag
  split <;> rfl

theorem onTag_ledger (hi : TagsInv s.tags) (ht : s.Tidy)
    (hf : ∀ ut ∈ s.tags, ut.tag = tag → Pays ut s.wire (f ut s.wire)) :
    Ledger s (s.onTag tag f) := by
  have htidy : (s.onTag tag f).Tidy :=
    onTag_tidy hi ht fun ut hut htag => (hf ut hut htag).tidy
  by_cases hex : ∃ ut ∈ s.tags, ut.tag = tag
  · obtain ⟨ut, hut, rfl⟩ := hex
    have hp := hf ut hut rfl
    have hw : (s.onTag ut.tag f).wire = (f ut s.wire).2 := onTag_wire hi hut
    refine ⟨fun id => ?_, fun id => ?_, htidy, onTag_deny.trans⟩
    · have howed := onTag_owed hi hut f id
      have hpays := hp.owed id
      rw [hw]
      omega
    · rw [hw]
      exact hp.grows id
  · rw [onTag_none fun ut hut htag => hex ⟨ut, hut, htag⟩]
    exact .refl ht

theorem devAbortIo_ledger (ht : s.Tidy) (ioreqs : List ℕ) : Ledger s (s.devAbortIo ioreqs) := by
  refine .map ht (fun ut => ?_) rfl rfl rfl
  split <;> exact ⟨rfl, Iff.rfl⟩

theorem psdCheckPipe_ledger (ht : s.Tidy) : Ledger s s.psdCheckPipe.2 := by
  unfold psdCheckPipe
  split
  · exact .refl ht
  · have hl := devAbortIo_ledger ht (by assumption : Check).abortIo
    exact ⟨hl.owed, hl.grows, hl.tidy, hl.deny⟩

theorem nUasProcessAborts_ledger (hi : s.Inv) (ht : s.Tidy) : Ledger s s.nUasProcessAborts := by
  unfold nUasProcessAborts
  refine (foldlRecOn (motive := fun (t : Ncm) => t.Inv ∧ Ledger s t) _ _
    ⟨hi, .refl ht⟩ ?_).2
  rintro t ⟨hi, hl⟩ tag -
  refine ⟨onTag_inv hi (fun ut _ _ hi => ⟨hi, rfl⟩) fun ut _ _ _ _ => rfl, hl.trans ?_⟩
  exact onTag_ledger hi.tags hl.tidy fun ut hut _ => abortFlagged_pays (hl.tidy ut hut)

theorem reapPipe_ledger (hi : s.Inv) (ht : s.Tidy) (is_status : Bool) (tag : ℕ) :
    Ledger s (s.reapPipe is_status tag).1 := by
  obtain hs | hs | ⟨-, hs, harmed⟩ := reapPipe_cases s is_status tag <;> rw [hs]
  · exact .refl ht
  · exact psdCheckPipe_ledger ht
  · have hl := psdCheckPipe_ledger ht
    dsimp only
    refine hl.trans (onTag_ledger (psdCheckPipe_inv hi).tags hl.tidy fun ut hut htag => ?_)
    exact pipeDone_pays is_status (harmed hi ut hut htag).1

theorem reapPass_ledger (hi : s.Inv) (ht : s.Tidy) : Ledger s s.reapPass.1 := by
  unfold reapPass
  refine (foldlRecOn (motive := fun (p : Ncm × Bool) => p.1.Inv ∧ Ledger s p.1) _ _
    ⟨hi, .refl ht⟩ ?_).2
  rintro p ⟨hi, hl⟩ tag -
  have hi' := reapPipe_inv hi true tag
  have hl' := hl.trans (reapPipe_ledger hi hl.tidy true tag)
  exact ⟨reapPipe_inv hi' false tag, hl'.trans (reapPipe_ledger hi' hl'.tidy false tag)⟩

theorem nUasReapTags_ledger (fuel : ℕ) (hi : s.Inv) (ht : s.Tidy)
    (hs : s.nUasReapTags fuel = some t) : Ledger s t := by
  induction fuel generalizing s with
  | zero => cases hs
  | succ fuel ih =>
    have hp := reapPass_inv hi
    have hl := reapPass_ledger hi ht
    simp only [nUasReapTags] at hs
    split at hs
    · exact hl.trans (ih hp hl.tidy hs)
    · cases hs
      exact hl

theorem nUasKillAllTags_ledger (hi : TagsInv s.tags) (ht : s.Tidy) :
    Ledger s s.nUasKillAllTags := by
  unfold nUasKillAllTags
  refine (foldlRecOn (motive := fun (t : Ncm) => TagsInv t.tags ∧ Ledger s t) _ _
    ⟨hi, .refl ht⟩ ?_).2
  rintro t ⟨hi, hl⟩ tag -
  refine ⟨onTag_tagsInv hi fun ut _ _ hi => ⟨(kill_inv hi).1, (kill_inv hi).2.1⟩, hl.trans ?_⟩
  exact onTag_ledger hi hl.tidy fun ut hut _ => kill_pays (hl.tidy ut hut)

theorem owed_zero (h : ∀ ut ∈ s.tags, ut.ioreq = none) (id : ℕ) : s.owed id = 0 := by
  have hnone : s.tags.filterMap UasTag.ioreq = [] := filterMap_eq_nil_iff.mpr h
  unfold owed
  rw [hnone]
  rfl

theorem Ledger.of_none (hw : t.wire.answered = s.wire.answered)
    (hs : ∀ ut ∈ s.tags, ut.ioreq = none) (ht : ∀ ut ∈ t.tags, ut.ioreq = none)
    (hd : s.denyRequests = true → t.denyRequests = true) : Ledger s t where
  owed := by
    intro id
    unfold paid
    rw [owed_zero hs, owed_zero ht, hw]
  grows := by
    intro id
    unfold paid
    rw [hw]
  tidy := fun ut hut _ => ht ut hut
  deny := hd

theorem nUasInitTags_ioreq (s : Ncm) (st : Streams) :
    ∀ ut ∈ (s.nUasInitTags st).1.tags, ut.ioreq = none := by
  unfold nUasInitTags
  simp only
  split
  · intro ut hut
    obtain ⟨tag, -, rfl⟩ := mem_map.mp hut
    rfl
  · exact fun ut hut => absurd hut not_mem_nil

theorem nUasInitTags_deny (s : Ncm) (st : Streams) :
    (s.nUasInitTags st).1.denyRequests = s.denyRequests := by
  unfold nUasInitTags
  simp only
  split <;> rfl

theorem resetDevice_ledger (hn : ∀ ut ∈ s.tags, ut.ioreq = none) : Ledger s s.resetDevice := by
  have hsame : s.psdResetDevice.2.tags = s.tags ∧ s.psdResetDevice.2.wire = s.wire ∧
      s.psdResetDevice.2.denyRequests = s.denyRequests := by
    unfold psdResetDevice
    split <;> exact ⟨rfl, rfl, rfl⟩
  unfold resetDevice
  generalize s.psdResetDevice = reset at *
  obtain ⟨_ | st, s'⟩ := reset
  · obtain ⟨htags, hwire, hdeny⟩ := hsame
    have hanswered : s'.wire.answered = s.wire.answered := congrArg Wire.answered hwire
    refine .of_none hanswered hn (fun ut' hut' => ?_) hdeny.trans
    obtain ⟨ut, hut, rfl⟩ := mem_map.mp hut'
    have hnone := hn ut (htags ▸ hut)
    split <;> exact hnone
  · obtain ⟨-, hwire, hdeny⟩ := hsame
    have hnone := nUasInitTags_ioreq { s' with wire := s'.wire.pass (.reset true) } st
    have hw := nUasInitTags_wire { s' with wire := s'.wire.pass (.reset true) } st
    have hd := nUasInitTags_deny { s' with wire := s'.wire.pass (.reset true) } st
    have hanswered : s'.wire.answered = s.wire.answered := congrArg Wire.answered hwire
    simp only
    generalize { s' with wire := s'.wire.pass (.reset true) }.nUasInitTags st = rebuilt at *
    have hw' : rebuilt.1.wire.answered = s.wire.answered :=
      (congrArg Wire.answered hw).trans hanswered
    split
    · exact .of_none hw' hn hnone (hd.trans hdeny).trans
    · exact .of_none hw' hn hnone fun _ => rfl

theorem setBusy_ledger (ht : s.Tidy) (pipe : Pipe) (busy : Bool) :
    Ledger s (s.setBusy pipe busy) := by
  cases pipe with
  | status tag | data tag =>
    refine .map ht (fun ut => ?_) rfl rfl rfl
    split <;> exact ⟨rfl, Iff.rfl⟩
  | tm => exact .congr ht rfl rfl rfl

theorem nUasAbortAndWait_ledger (ht : s.Tidy) (pipe : Pipe) :
    Ledger s (s.nUasAbortAndWait pipe) := by
  have hb := setBusy_ledger ht pipe false
  refine hb.trans (.congr hb.tidy rfl ?_ rfl)
  rw [setBusy_wire]
  exact (wait_answered pipe).trans (abort_answered pipe)

theorem killReset_ledger (hi : TagsInv s.tags) (ht : s.Tidy) :
    Ledger s s.nUasKillAllTags.resetDevice := by
  have hl := nUasKillAllTags_ledger hi ht
  obtain ⟨-, -, hrun⟩ := nUasKillAllTags_spec hi
  exact hl.trans (resetDevice_ledger fun ut hut => hl.tidy ut hut (hrun ut hut))

theorem nUasEscalateReset_ledger (hi : TagsInv s.tags) (ht : s.Tidy)
    (hl : ∀ pipe, s.tmArmed = some pipe → s.Lent pipe) : Ledger s s.nUasEscalateReset := by
  have hkill : ∀ s' : Ncm, TagsInv s'.tags → Ledger s s' →
      Ledger s ({ s' with tmTargetTag := 0 } : Ncm).nUasKillAllTags.resetDevice := by
    intro s' hi' hl'
    have h := @killReset_ledger { s' with tmTargetTag := 0 } hi' hl'.tidy
    exact hl'.trans ⟨h.owed, h.grows, h.tidy, h.deny⟩
  unfold nUasEscalateReset
  cases ha : s.tmArmed with
  | none => exact hkill s hi (.refl ht)
  | some pipe =>
    have hw := nUasAbortAndWait_ledger ht pipe
    refine hkill { s.nUasAbortAndWait pipe with tmArmed := none } ?_ ⟨hw.owed, hw.grows, hw.tidy, hw.deny⟩
    exact nUasAbortAndWait_tags hi (hl pipe ha)

theorem sendTMF_ledger (hi : TagsInv s.tags) (ht : s.Tidy) (ha : s.tmArmed = none)
    (hl : s.Lent pipe) (owntag target : ℕ) : Ledger s (s.sendTMF pipe owntag target) := by
  have hb := setBusy_ledger ht pipe true
  have hi' := setBusy_tags hi hl true
  have hl' := setBusy_lent hl true
  have harmed := (@setBusy_tmArmed s pipe true).trans ha
  have hs : Ledger s { s.setBusy pipe true with
      wire := (sendIu (.abortTask owntag target) (s.setBusy pipe true).wire).2 } :=
    hb.trans (.congr hb.tidy rfl (sendIu_answered _) rfl)
  simp only [sendTMF]
  split
  · have hw := nUasAbortAndWait_ledger hs.tidy pipe
    refine (hs.trans hw).trans (nUasEscalateReset_ledger ?_ hw.tidy fun pipe' hp => ?_)
    · refine nUasAbortAndWait_tags ?_ ?_
      · exact hi'
      · cases pipe <;> exact hl'
    · have hp' : (s.setBusy pipe true).tmArmed = some pipe' := by
        cases pipe <;> exact hp
      rw [harmed] at hp'
      cases hp'
  · exact ⟨hs.owed, hs.grows, hs.tidy, hs.deny⟩

theorem nUasIssueTMF_ledger (hi : s.Inv) (ht : s.Tidy) : Ledger s s.nUasIssueTMF := by
  unfold nUasIssueTMF
  cases ha : s.tmArmed with
  | some pipe => exact .refl ht
  | none =>
    cases hq : s.nUasQuarantinedTag with
    | none => exact .refl ht
    | some target =>
      simp only
      split
      · exact sendTMF_ledger hi.tags ht ha tm_lent _ _
      split
      · exact .refl ht
      · rename_i hothers
        split
        · exact nUasEscalateReset_ledger hi.tags ht hi.lent
        · rename_i lend _ hlend
          exact sendTMF_ledger hi.tags ht ha (lend_lent hothers hlend) _ _

theorem nUasReapTMF_ledger (hi : s.Inv) (ht : s.Tidy) : Ledger s s.nUasReapTMF := by
  unfold nUasReapTMF
  split
  · exact .refl ht
  · rename_i pipe ha
    have hc := psdCheckPipe_inv hi
    have hl := psdCheckPipe_ledger ht
    have harmed := psdCheckPipe_tmArmed.trans ha
    generalize s.psdCheckPipe = checked at *
    obtain ⟨replied, s'⟩ := checked
    simp only at hc hl harmed ⊢
    split
    · exact hl
    · have htags := setBusy_tags hc.tags (hc.lent pipe harmed) false
      have hb := setBusy_ledger hl.tidy pipe false
      have hw : Ledger s { s'.setBusy pipe false with
          tmArmed := none, wire := (psdWaitPipe pipe s'.wire).2 } := by
        refine (hl.trans hb).trans (.congr hb.tidy rfl ?_ rfl)
        rw [setBusy_wire]
        exact wait_answered pipe
      split
      · exact hw.trans (nUasEscalateReset_ledger htags hw.tidy nofun)
      split
      · exact hw.trans (nUasEscalateReset_ledger htags hw.tidy nofun)
      · refine hw.trans (.map hw.tidy (fun ut => ?_) rfl rfl rfl)
        split
        · rename_i hq
          refine ⟨rfl, ?_⟩
          rw [hq.2]
          exact ⟨nofun, nofun⟩
        · exact ⟨rfl, Iff.rfl⟩

theorem command_ledger (hi : s.Inv) (ht : s.Tidy) (hut : s.nUasFreeTag = some ut)
    (dataLen : ℕ) : Ledger s (s.onTag ut.tag fun ut w => (nUasDoCommand dataLen ut w).2) := by
  obtain ⟨hmem, hfree, -⟩ := freeTag_spec hut
  refine onTag_ledger hi.tags ht fun ut' hut' htag => ?_
  obtain rfl := Keyed.eq_of_key hi.tags.numbers hut' hmem htag
  apply doCommand_pays
  apply ht _ hut'
  rw [hfree]
  exact nofun

theorem submit_ledger (hi : s.Inv) (ht : s.Tidy) (hut : s.nUasFreeTag = some ut)
    (ioreq length : ℕ) (isRead : Bool) :
    let t := s.onTag ut.tag (nUasSubmitTag s.maxTrans ioreq length isRead)
    (∀ id, t.owed id + paid t.wire id = s.owed id + paid s.wire id + [ioreq].count id) ∧
      (∀ id, paid s.wire id ≤ paid t.wire id) ∧ t.Tidy := by
  obtain ⟨hmem, hfree, -⟩ := freeTag_spec hut
  have hnone : ut.ioreq = none := by
    apply ht _ hmem
    rw [hfree]
    exact nofun
  obtain ⟨howed, hgrows, htidy⟩ := @submitTag_pays ut s.wire s.maxTrans ioreq length isRead hnone
  have hw : (s.onTag ut.tag (nUasSubmitTag s.maxTrans ioreq length isRead)).wire =
      (nUasSubmitTag s.maxTrans ioreq length isRead ut s.wire).2 := onTag_wire hi.tags hmem
  refine ⟨fun id => ?_, fun id => ?_, onTag_tidy hi.tags ht fun ut' hut' htag => ?_⟩
  · have h := onTag_owed hi.tags hmem (nUasSubmitTag s.maxTrans ioreq length isRead) id
    have h' := howed id
    rw [hw]
    omega
  · rw [hw]
    exact hgrows id
  · obtain rfl := Keyed.eq_of_key hi.tags.numbers hut' hmem htag
    exact htidy

theorem step_ledger (hi : s.Inv) (ht : s.Tidy) {e : Event} (hs : s.step e = some t)
    (he : ∀ ioreq length isRead, e ≠ .submit ioreq length isRead) : Ledger s t := by
  cases e with
  | submit ioreq length isRead => exact absurd rfl (he ioreq length isRead)
  | command dataLen =>
    obtain ⟨ut, hut, rfl⟩ := Option.map_eq_some_iff.mp hs
    exact command_ledger hi ht hut dataLen
  | abortIo ioreq =>
    cases hs
    exact devAbortIo_ledger ht _
  | processAborts =>
    cases hs
    exact nUasProcessAborts_ledger hi ht
  | reapTags fuel => exact nUasReapTags_ledger fuel hi ht hs
  | reapTMF =>
    cases hs
    exact nUasReapTMF_ledger hi ht
  | issueTMF =>
    cases hs
    exact nUasIssueTMF_ledger hi ht

end Ncm

end Neptune.Uas
