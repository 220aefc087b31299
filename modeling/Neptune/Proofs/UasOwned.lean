import Neptune.Proofs.UasNeverStuck

/-! What the device owns of a tag: its flags and its state say so after whatever it does, and it
sends a command only where the device owns nothing of it. -/

namespace Neptune.Uas

open List

variable {passed tr : List Passed} {tag : ℕ} {d : Device} {p : Passed}

theorem owns_snoc : owns (passed ++ [p]) = (owns passed).after p := by
  simp [owns, foldl_append]

variable {t : ℕ} {pipe : Pipe} {w₁ : Wire} {r : Reply}

theorem sense_owned (h : t ∈ (d.sense pipe r).owned) :
    t ∈ d.owned := by
  unfold Device.sense at h
  split at h
  · split at h
    · exact (mem_filter.mp h).1
    · exact h
  · exact h
  · exact h

theorem response_owned (h : t ∈ (d.response pipe r).owned) :
    t ∈ d.owned := by
  unfold Device.response at h
  split at h
  · split at h
    · exact (mem_filter.mp h).1
    · exact h
  · exact h

theorem replied_owned
    (h : t ∈ (d.after (.replied pipe r)).owned) : t ∈ d.owned :=
  sense_owned (response_owned h)

theorem after_degraded (h : d.degraded = true) : (d.after p).degraded = true := by
  cases p with
  | iu iu ioerr =>
    cases iu <;> simp only [Device.after] <;> split <;> exact h
  | replied pipe r =>
    have hs : (d.sense pipe r).degraded = true := by
      unfold Device.sense
      split
      · split <;> exact h
      · exact h
      · exact h
    simp only [Device.after, Device.response]
    split
    · split <;> exact hs
    · exact hs
  | reset done => cases done <;> first | exact h | rfl

theorem noReuse_nil : NoReuse [] := by
  intro before iu ioerr after h
  cases before <;> cases h

theorem NoReuse.snoc (h : NoReuse passed)
    (hp : ∀ iu ioerr, p = .iu iu ioerr → iu.tag ∈ (owns passed).owned →
      (owns passed).degraded = true) : NoReuse (passed ++ [p]) := by
  intro before iu ioerr after he hmem
  rcases append_eq_append_iff.mp he with ⟨rest, rfl, hrest⟩ | ⟨rest, rfl, hrest⟩
  · cases rest with
    | nil =>
      obtain ⟨rfl, -⟩ := cons_eq_cons.mp hrest
      rw [append_nil] at hmem ⊢
      exact hp iu ioerr rfl hmem
    | cons q rest =>
      obtain ⟨-, hnil⟩ := cons_eq_cons.mp hrest
      simp at hnil
  · cases rest with
    | nil =>
      rw [nil_append] at hrest
      obtain ⟨rfl, -⟩ := cons_eq_cons.mp hrest
      rw [append_nil] at hp
      exact hp iu ioerr rfl hmem
    | cons q rest =>
      obtain ⟨rfl, rfl⟩ := cons_eq_cons.mp hrest
      exact h before iu ioerr rest rfl hmem

variable {ut ut' : UasTag} {w w' : Wire} {maxtrans : ℕ}

def Degraded (w : Wire) : Prop := (owns w.passed).degraded = true

def owned (w : Wire) : List ℕ := (owns w.passed).owned

/-- The other tags, and a task management function on another tag, do not notice. -/
structure Frame (tag : ℕ) (w w' : Wire) : Prop where
  degraded : Degraded w → Degraded w'
  owned : ∀ t ≠ tag, t ∈ owned w' → t ∈ owned w
  tmf : ∀ own target, own ≠ tag → (owns w.passed).tmf = some (own, target) →
    (owns w'.passed).tmf = some (own, target)

theorem Frame.refl (tag : ℕ) (w : Wire) : Frame tag w w := ⟨id, fun _ _ => id, fun _ _ _ => id⟩

theorem Frame.of_passed (h : w'.passed = w.passed) : Frame tag w w' := by
  constructor
  · unfold Degraded
    rw [h]
    exact id
  · unfold Uas.owned
    rw [h]
    exact fun _ _ => id
  · rw [h]
    exact fun _ _ _ => id

theorem Frame.trans {w₂ w₃ : Wire} (h₁ : Frame tag w₁ w₂) (h₂ : Frame tag w₂ w₃) :
    Frame tag w₁ w₃ where
  degraded := fun h => h₂.degraded (h₁.degraded h)
  owned := fun t ht h => h₁.owned t ht (h₂.owned t ht h)
  tmf := fun own target ho h => h₂.tmf own target ho (h₁.tmf own target ho h)

/-- The device has the command of a running tag that has not seen a Sense IU, or of one in
quarantine. -/
def Owning (ut : UasTag) : Prop := ut.state ≠ .free ∧ ut.cmdSent = true ∧ ut.statusSeen = false

structure Knows (ut : UasTag) (w : Wire) : Prop where
  noReuse : NoReuse w.passed
  owning : Degraded w ∨ (ut.tag ∈ owned w → Owning ut)

structure Clear (tag : ℕ) (w : Wire) : Prop where
  noReuse : NoReuse w.passed
  clear : Degraded w ∨ tag ∉ owned w

theorem Clear.knows (h : Clear tag w) (ht : ut.tag = tag) : Knows ut w :=
  ⟨h.noReuse, h.clear.imp_right fun hn hm => absurd (ht ▸ hm) hn⟩

theorem Knows.clear (h : Knows ut w) (ho : ¬ Owning ut) : Clear ut.tag w :=
  ⟨h.noReuse, h.owning.imp_right fun hk hm => ho (hk hm)⟩

theorem psdWaitPipe_passed (pipe : Pipe) (w : Wire) :
    (psdWaitPipe pipe w).2.passed = w.passed ++ [.replied pipe (psdWaitPipe pipe w).1] := by
  unfold psdWaitPipe
  split <;> rfl

structure Calm (w w' : Wire) : Prop where
  noReuse : NoReuse w.passed → NoReuse w'.passed
  degraded : Degraded w → Degraded w'
  owned : ∀ t ∈ owned w', t ∈ owned w

theorem Calm.refl (w : Wire) : Calm w w := ⟨id, id, fun _ => id⟩

theorem Calm.trans {w₂ w₃ : Wire} (h₁ : Calm w₁ w₂) (h₂ : Calm w₂ w₃) : Calm w₁ w₃ where
  noReuse := fun h => h₂.noReuse (h₁.noReuse h)
  degraded := fun h => h₂.degraded (h₁.degraded h)
  owned := fun t h => h₁.owned t (h₂.owned t h)

theorem Calm.of_passed (h : w'.passed = w.passed) : Calm w w' := by
  constructor
  · rw [h]
    exact id
  · unfold Degraded
    rw [h]
    exact id
  · unfold Uas.owned
    rw [h]
    exact fun _ => id

theorem wait_calm (pipe : Pipe) (w : Wire) : Calm w (psdWaitPipe pipe w).2 := by
  constructor
  · intro h
    rw [psdWaitPipe_passed]
    exact h.snoc nofun
  · unfold Degraded
    rw [psdWaitPipe_passed, owns_snoc]
    exact after_degraded
  · unfold owned
    rw [psdWaitPipe_passed, owns_snoc]
    exact fun _ => replied_owned

theorem abort_calm (pipe pipe' : Pipe) (w : Wire) :
    Calm w (psdWaitPipe pipe (psdAbortPipe pipe' w)).2 := by
  have habort : Calm w (psdAbortPipe pipe' w) := .of_passed rfl
  exact habort.trans (wait_calm pipe _)

theorem Calm.clear (hw : Calm w w') (h : Clear tag w) : Clear tag w' where
  noReuse := hw.noReuse h.noReuse
  clear := h.clear.imp hw.degraded fun hn hm => hn (hw.owned _ hm)

theorem Calm.knows (hw : Calm w w') (h : Knows ut w) : Knows ut w' where
  noReuse := hw.noReuse h.noReuse
  owning := h.owning.imp hw.degraded fun hk hm => hk (hw.owned _ hm)

theorem wait_sense (hr : nUasErrForgiven (psdWaitPipe (.status tag) w).1.ioerr = true)
    (hs : nUasIUId (psdWaitPipe (.status tag) w).1 = UAS_IU_ID_SENSE) :
    tag ∉ owned (psdWaitPipe (.status tag) w).2 := by
  unfold owned
  rw [psdWaitPipe_passed, owns_snoc]
  intro hm
  have hsense := response_owned hm
  simp only [Device.sense, hr, hs, decide_true, Bool.and_self, if_pos, Device.lets] at hsense
  simpa using (mem_filter.mp hsense).2

theorem sense_tmf (pipe : Pipe) (r : Reply) : (d.sense pipe r).tmf = d.tmf := by
  unfold Device.sense
  split
  · split <;> rfl
  · rfl
  · rfl

theorem wait_response {own target : ℕ}
    (ht : (owns w.passed).tmf = some (own, target)) (hp : pipe = .tm ∨ pipe = .status own)
    (hr : nUasErrForgiven (psdWaitPipe pipe w).1.ioerr = true)
    (ha : Ncm.tmfAnswered (psdWaitPipe pipe w).1 own = true) :
    target ∉ owned (psdWaitPipe pipe w).2 := by
  unfold owned
  rw [psdWaitPipe_passed, owns_snoc]
  simp only [Device.after, Device.response, sense_tmf, ht]
  rw [if_pos ⟨hp, hr, ha⟩]
  simp [Device.lets]

theorem wait_frame (hp : pipe = .status tag ∨ pipe = .data tag) :
    Frame tag w (psdWaitPipe pipe w).2 where
  degraded := (wait_calm pipe w).degraded
  owned := fun t _ => (wait_calm pipe w).owned t
  tmf := by
    intro own target ho ht
    rw [psdWaitPipe_passed, owns_snoc]
    simp only [Device.after, Device.response, sense_tmf, ht]
    rw [if_neg]
    · rw [sense_tmf, ht]
    · rintro ⟨rfl | rfl, -⟩
      · rcases hp with hp | hp <;> cases hp
      · rcases hp with hp | hp <;> cases hp
        exact ho rfl

theorem sendIu_passed (iu : Iu) (w : Wire) :
    (sendIu iu w).2.passed = w.passed ++ [.iu iu (sendIu iu w).1] := by
  unfold sendIu
  split <;> rfl

theorem command_frame (tag : ℕ) (w : Wire) : Frame tag w (sendIu (.command tag) w).2 := by
  constructor
  · unfold Degraded
    rw [sendIu_passed, owns_snoc]
    exact after_degraded
  · intro t ht hm
    unfold owned at hm
    rw [sendIu_passed, owns_snoc] at hm
    simp only [Device.after] at hm
    split at hm
    · exact (mem_cons.mp hm).resolve_left ht
    · exact hm
  · intro own target _ ht
    rw [sendIu_passed, owns_snoc]
    simp only [Device.after]
    split <;> exact ht

theorem iu_noReuse {iu : Iu} (h : Clear iu.tag w) : NoReuse (sendIu iu w).2.passed := by
  rw [sendIu_passed]
  refine h.noReuse.snoc fun iu' ioerr he hm => ?_
  cases he
  exact h.clear.resolve_right fun hn => hn hm

theorem command_failed (h : Clear tag w) (he : (sendIu (.command tag) w).1 ≠ 0) :
    Clear tag (sendIu (.command tag) w).2 := by
  refine ⟨@iu_noReuse w (.command tag) h, h.clear.imp (command_frame tag w).degraded ?_⟩
  intro hn
  unfold owned
  rw [sendIu_passed, owns_snoc]
  simp only [Device.after, if_neg he]
  exact hn

def Seen (ut : UasTag) : Prop :=
  ut.state = .running → ut.statusArmed = false → ut.failed = false →
    nUasIUId ut.status = UAS_IU_ID_SENSE → ut.statusSeen = true

theorem Seen.of_idle (h : ut.state ≠ .running) : Seen ut := fun hr => absurd hr h

structure Sound (tag : ℕ) (w : Wire) (r : UasTag × Wire) : Prop where
  frame : Frame tag w r.2
  knows : Knows r.1 r.2
  seen : Seen r.1

theorem Sound.from {r : UasTag × Wire} (hf : Frame tag w w₁) (h : Sound tag w₁ r) :
    Sound tag w r := ⟨hf.trans h.frame, h.knows, h.seen⟩

theorem abort_frame (pipe' : Pipe) (hp : pipe = .status tag ∨ pipe = .data tag) :
    Frame tag w (psdWaitPipe pipe (psdAbortPipe pipe' w)).2 := by
  have habort : Frame tag w (psdAbortPipe pipe' w) := .of_passed rfl
  exact habort.trans (wait_frame hp)

theorem abortArmed_calm (ut : UasTag) (w : Wire) : Calm w (nUasTagAbortArmed ut w).2 := by
  have hs : Calm w (if ut.statusArmed then abortStatus ut w else (ut, w)).2 := by
    split
    · exact abort_calm _ _ w
    · exact .refl w
  unfold nUasTagAbortArmed
  generalize (if ut.statusArmed then abortStatus ut w else (ut, w)) = aborted at *
  obtain ⟨ut', w'⟩ := aborted
  simp only
  split
  · exact hs.trans (abort_calm _ _ w')
  · exact hs

theorem abortArmed_frame : Frame ut.tag w (nUasTagAbortArmed ut w).2 := by
  have hs : Frame ut.tag w (if ut.statusArmed then abortStatus ut w else (ut, w)).2 ∧
      (if ut.statusArmed then abortStatus ut w else (ut, w)).1.tag = ut.tag := by
    split
    · exact ⟨abort_frame _ (.inl rfl), rfl⟩
    · exact ⟨.refl _ _, rfl⟩
  unfold nUasTagAbortArmed
  generalize (if ut.statusArmed then abortStatus ut w else (ut, w)) = aborted at *
  obtain ⟨ut', w'⟩ := aborted
  simp only
  split
  · exact hs.1.trans (abort_frame _ (.inr (by rw [← hs.2])))
  · exact hs.1

theorem finalize_passed (ioerr : ℤ) : (nUasFinalizeTag ut w ioerr).2.passed = w.passed := by
  simp only [nUasFinalizeTag]
  split <;> rfl

theorem finalize_knows (ioerr : ℤ) (h : Knows ut w) :
    Knows (nUasFinalizeTag ut w ioerr).1 (nUasFinalizeTag ut w ioerr).2 := by
  constructor
  · rw [finalize_passed]
    exact h.noReuse
  · unfold Degraded owned
    rw [finalize_passed]
    refine h.owning.imp_right fun hk hm => ?_
    obtain ⟨-, hsent, hseen⟩ := hk hm
    refine ⟨?_, hsent, hseen⟩
    simp [nUasFinalizeTag, hsent, hseen]

theorem finalize_frame (ioerr : ℤ) : Frame tag w (nUasFinalizeTag ut w ioerr).2 :=
  .of_passed (finalize_passed ioerr)

theorem finalize_sound (ioerr : ℤ) (h : Knows ut w) : Sound tag w (nUasFinalizeTag ut w ioerr) :=
  ⟨finalize_frame ioerr, finalize_knows ioerr h, .of_idle (finalize_idle ut w ioerr)⟩

theorem armChunk_tag (datalen : ℕ) : (armChunk ut datalen).tag = ut.tag := by
  simp only [armChunk]
  split <;> rfl

theorem armChunk_armed (datalen : ℕ) : (armChunk ut datalen).statusArmed = true := by
  simp only [armChunk]
  split <;> rfl

theorem armChunk_state (datalen : ℕ) : (armChunk ut datalen).state = ut.state := by
  simp only [armChunk]
  split <;> rfl

theorem submitChunk_frame : Frame ut.tag w (nUasSubmitChunk maxtrans ut w).2.2 := by
  have hcmd := command_frame (armChunk ut (min ut.remain maxtrans)).tag w
  have habort := fun w' => @abortArmed_frame (armChunk ut (min ut.remain maxtrans)) w'
  simp only [nUasSubmitChunk]
  rw [armChunk_tag] at *
  split
  · exact hcmd.trans (habort _)
  · exact hcmd

theorem submitChunk_knows (hr : ut.state = .running) (h : Clear ut.tag w) :
    Knows (nUasSubmitChunk maxtrans ut w).2.1 (nUasSubmitChunk maxtrans ut w).2.2 := by
  simp only [nUasSubmitChunk]
  split
  · rename_i herr
    rw [armChunk_tag] at *
    refine ((abortArmed_calm _ _).clear (command_failed h herr)).knows ?_
    exact abortArmed_tag.trans (armChunk_tag _)
  · refine ⟨@iu_noReuse w (.command _) ?_, .inr fun _ => ⟨?_, rfl, rfl⟩⟩
    · rw [Iu.tag, armChunk_tag]
      exact h
    · rw [armChunk_state, hr]
      rintro ⟨⟩

theorem submit_sound (hr : ut.state = .running) (h : Clear ut.tag w) :
    Sound ut.tag w (if (nUasSubmitChunk maxtrans ut w).1 ≠ 0 then
      nUasFinalizeTag (nUasSubmitChunk maxtrans ut w).2.1 (nUasSubmitChunk maxtrans ut w).2.2
        HFERR_Phase
      else (nUasSubmitChunk maxtrans ut w).2) := by
  have hf := @submitChunk_frame ut w maxtrans
  have hk := @submitChunk_knows ut w maxtrans hr h
  split
  · exact .from hf (finalize_sound _ hk)
  · rename_i hsent
    refine ⟨hf, hk, fun _ hna => ?_⟩
    -- the status pipe of the new chunk is armed
    simp only [nUasSubmitChunk] at hsent hna
    split at hsent
    · exact absurd (by assumption) hsent
    · rw [if_neg (by assumption), armChunk_armed] at hna
      cases hna

theorem chunkDone_sound (hr : ut.state = .running) (ha : ut.statusArmed = false) (hs : Seen ut)
    (h : Knows ut w) : Sound ut.tag w (chunkDone maxtrans ut w) := by
  unfold chunkDone
  split
  · exact finalize_sound _ h
  rename_i hfailed
  split
  · exact finalize_sound _ h
  rename_i hsense
  split
  · exact finalize_sound _ h
  have hseen : ut.statusSeen = true := by
    apply hs hr ha
    · exact Bool.eq_false_of_not_eq_true hfailed
    · exact not_not.mp hsense
  have hc : Clear ut.tag w := by
    apply h.clear
    rintro ⟨-, -, hns⟩
    rw [hseen] at hns
    cases hns
  have hr' : (nUasAdvanceChunk ut).2.state = .running := hr
  have ht : (nUasAdvanceChunk ut).2.tag = ut.tag := rfl
  rw [← ht] at hc ⊢
  generalize nUasAdvanceChunk ut = advanced at *
  obtain ⟨more, ut⟩ := advanced
  cases more with
  | false => exact finalize_sound _ (hc.knows rfl)
  | true => exact submit_sound hr' hc

structure Reaped (ut : UasTag) (w : Wire) (done : UasTag × Wire × ℤ) : Prop where
  tag : done.1.tag = ut.tag
  state : done.1.state = ut.state
  frame : Frame ut.tag w done.2.1
  knows : Knows done.1 done.2.1
  seen : done.1.statusArmed = false → done.1.failed = false → nUasErrForgiven done.2.2 = true →
    nUasIUId done.1.status = UAS_IU_ID_SENSE → done.1.statusSeen = true

theorem statusDone_reaped (h : Knows ut w) : Reaped ut w (statusDone ut w) := by
  have hf := wait_frame (w := w) (.inl rfl : Pipe.status ut.tag = .status ut.tag ∨ _)
  have hk := (wait_calm (.status ut.tag) w).knows h
  have hsense := @wait_sense ut.tag w
  simp only [statusDone]
  generalize psdWaitPipe (.status ut.tag) w = waited at *
  obtain ⟨r, w'⟩ := waited
  simp only at hf hk hsense ⊢
  split
  · rename_i hgood
    have hknow : Degraded w' ∨ (ut.tag ∈ owned w' → ut.state ≠ .free ∧ ut.cmdSent = true ∧
        decide (nUasIUId r = UAS_IU_ID_SENSE) = false) := by
      refine hk.owning.imp_right fun ho hm => ?_
      obtain ⟨hstate, hsent, -⟩ := ho hm
      exact ⟨hstate, hsent, decide_eq_false fun hs => hsense hgood hs hm⟩
    refine ⟨rfl, rfl, ?_, ?_, fun _ _ _ hs => decide_eq_true hs⟩
    · refine hf.trans (.of_passed ?_)
      simp only
      split <;> rfl
    · simp only
      split
      · exact ⟨hk.noReuse, hknow⟩
      · exact ⟨hk.noReuse, hknow⟩
  · rename_i hbad
    exact ⟨rfl, rfl, hf, ⟨hk.noReuse, hk.owning⟩, fun _ _ hgood => absurd hgood hbad⟩

theorem dataDone_reaped (hr : ut.state = .running) (hs : Seen ut) (h : Knows ut w) :
    Reaped ut w (dataDone ut w) := by
  have hf := wait_frame (w := w) (.inr rfl : Pipe.data ut.tag = .status ut.tag ∨ _)
  have hk := (wait_calm (.data ut.tag) w).knows h
  exact ⟨rfl, rfl, hf, ⟨hk.noReuse, hk.owning⟩, fun ha hfail _ => hs hr ha hfail⟩

theorem signalAbort_passed : (nUasTagSignalAbort ut w).passed = w.passed := by
  simp only [nUasTagSignalAbort]
  split <;> split <;> rfl

theorem reaped_sound (hr : ut.state = .running) (hout : ut.outstanding = armed ut) (hs : Seen ut)
    (h : Knows ut w) :
    Sound ut.tag w (if ut.outstanding ≠ 0 then (ut, w) else chunkDone maxtrans ut w) := by
  split
  · exact ⟨.refl _ _, h, hs⟩
  · have hq : Quiet ut := quiet_of_armed (by omega)
    exact chunkDone_sound hr hq.1 hs h

theorem pipeDone_sound {is_status : Bool} (hi : TagInv ut) (hr : ut.state = .running)
    (ha : (if is_status then ut.statusArmed else ut.dataArmed) = true) (hs : Seen ut)
    (h : Knows ut w) : Sound ut.tag w (nUasTagPipeDone maxtrans is_status ut w) := by
  have hcol : Collected ut (if is_status then statusDone ut w else dataDone ut w).1 := by
    cases is_status with
    | true => exact statusDone_collected hi ha
    | false => exact dataDone_collected hi ha
  have hreap : Reaped ut w (if is_status then statusDone ut w else dataDone ut w) := by
    cases is_status with
    | true => exact statusDone_reaped h
    | false => exact dataDone_reaped hr hs h
  unfold nUasTagPipeDone
  generalize (if is_status then statusDone ut w else dataDone ut w) = done at *
  obtain ⟨ut', w', ioerr⟩ := done
  have hcount := hcol.outstanding.trans (hi.counted hr)
  have hout : usub ut'.outstanding 1 = armed ut' := by
    have harmed := hcol.armed
    have hle := armed_le ut
    simp only at harmed hcount
    rw [usub_of_le (by omega) (by omega)]
    omega
  have hr' : ut'.state = .running := hcol.state.trans hr
  have hseen := hreap.seen
  have hknow := hreap.knows
  apply Sound.from hreap.frame
  rw [← hreap.tag]
  simp only at hseen hknow ⊢
  by_cases hfail : (!nUasErrForgiven ioerr && !ut'.failed) = true
  · simp only [hfail, if_true]
    have hfailed := @reaped_sound
      { ut' with outstanding := usub ut'.outstanding 1, failed := true }
      (nUasTagSignalAbort { ut' with outstanding := usub ut'.outstanding 1, failed := true } w')
      maxtrans hr' hout (fun _ _ hf => Bool.noConfusion hf)
    refine .from (.of_passed signalAbort_passed) (hfailed ⟨?_, ?_⟩)
    · rw [signalAbort_passed]
      exact hknow.noReuse
    · unfold Degraded owned
      rw [signalAbort_passed]
      exact hknow.owning
  · rw [Bool.not_eq_true] at hfail
    simp only [hfail, Bool.false_eq_true, if_false]
    refine @reaped_sound { ut' with outstanding := usub ut'.outstanding 1 } w' maxtrans hr' hout
      (fun _ ha hf => ?_) ⟨hknow.noReuse, hknow.owning⟩
    apply hseen ha hf
    simpa [show ut'.failed = false from hf] using hfail

theorem kill_calm (ut : UasTag) (w : Wire) : Calm w (killTag ut w).2 := by
  simp only [killTag]
  split
  · exact (abortArmed_calm ut w).trans (.of_passed (finalize_passed _))
  · exact .refl w

theorem submitTag_sound {ioreq length : ℕ} {isRead : Bool} (h : Clear ut.tag w) :
    Sound ut.tag w (nUasSubmitTag maxtrans ioreq length isRead ut w) :=
  @submit_sound { ut with ioreq := some ioreq, isRead := isRead, offset := 0, remain := length,
                          abortReq := false, failed := false, state := .running } w maxtrans rfl h

theorem waitData_frame (dataLen : ℕ) : Frame ut.tag w (waitData dataLen ut w).2 := by
  simp only [waitData]
  split
  · exact .refl _ _
  split
  · exact wait_frame (.inr rfl)
  · exact abort_frame _ (.inr rfl)

theorem waitData_calm (dataLen : ℕ) (ut : UasTag) (w : Wire) :
    Calm w (waitData dataLen ut w).2 := by
  simp only [waitData]
  split
  · exact .refl w
  split
  · exact wait_calm _ w
  · exact abort_calm _ _ w

theorem doCommand_sound {dataLen : ℕ} (h : Clear ut.tag w) :
    Sound ut.tag w (nUasDoCommand dataLen ut w).2 := by
  have hcmd := command_frame ut.tag w
  have ht : (claim ut).tag = ut.tag := rfl
  simp only [nUasDoCommand, ht]
  split
  · rename_i herr
    have hc := (abort_calm (.status ut.tag) (.status ut.tag) _).clear (command_failed h herr)
    refine .from (hcmd.trans (abort_frame _ (.inl rfl))) (finalize_sound 0 ?_)
    exact hc.knows rfl
  · -- the device has the command until the status pipe brings a Sense IU
    have hw := wait_frame (w := (sendIu (.command ut.tag) w).2)
      (.inl rfl : Pipe.status ut.tag = .status ut.tag ∨ _)
    have hn := (wait_calm (.status ut.tag) _).noReuse (@iu_noReuse w (.command ut.tag) h)
    have hsense := @wait_sense ut.tag (sendIu (.command ut.tag) w).2
    generalize psdWaitPipe (.status ut.tag) (sendIu (.command ut.tag) w).2 = waited at *
    obtain ⟨r, w'⟩ := waited
    simp only at hw hn hsense ⊢
    have hf : ∀ ut' : UasTag, ut'.tag = ut.tag →
        Frame ut.tag (sendIu (.command ut.tag) w).2 (waitData dataLen ut' w').2 := by
      intro ut' ht'
      rw [← ht'] at hw ⊢
      exact hw.trans (waitData_frame dataLen)
    split
    · refine .from ?_ (finalize_sound 0 ⟨(waitData_calm _ _ _).noReuse hn, ?_⟩)
      · exact hcmd.trans (hf _ rfl)
      · exact .inr fun _ => ⟨by rintro ⟨⟩, rfl, rfl⟩
    split
    · refine .from ?_ (finalize_sound 0 ⟨(waitData_calm _ _ _).noReuse hn, ?_⟩)
      · exact hcmd.trans (hf _ rfl)
      · exact .inr fun _ => ⟨by rintro ⟨⟩, rfl, rfl⟩
    · rename_i hgood hid
      refine .from ?_ (finalize_sound 0 ⟨(waitData_calm _ _ _).noReuse hn, ?_⟩)
      · exact hcmd.trans (hf _ rfl)
      · refine .inr fun hm => absurd ((waitData_calm _ _ _).owned _ hm) (hsense ?_ (not_not.mp hid))
        simpa using hgood

end Neptune.Uas
