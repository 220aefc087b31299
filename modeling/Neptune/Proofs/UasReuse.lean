import Neptune.Proofs.UasOwned

/-! The engine sends no IU with a tag that the device still owns: a tag whose command the device has
is running or in quarantine, and its flags say so, until a reset fails. -/

namespace Neptune.Uas

open List Keyed

namespace Ncm

variable {s t : Ncm} {tag : ℕ} {pipe : Pipe}

/-- While no reset has failed: the tags the device owns know, and it has the ABORT TASK that is
armed, on a tag of its own or one that is lent. -/
structure Settled (s : Ncm) : Prop where
  owned : ∀ t ∈ owned s.wire, ∃ ut ∈ s.tags, ut.tag = t ∧ Owning ut
  tmTag : s.tmTag ∉ s.numbers
  tmf : ∀ pipe, s.tmArmed = some pipe →
    (owns s.wire.passed).tmf = some (s.tmOwnTag, s.tmTargetTag)
  tmOwn : ∀ pipe, s.tmArmed = some pipe →
    pipe = .status s.tmOwnTag ∨ pipe = .tm ∧ s.tmOwnTag ∉ s.numbers

structure Accounts (s : Ncm) : Prop where
  noReuse : NoReuse s.wire.passed
  seen : ∀ ut ∈ s.tags, Seen ut
  settled : Degraded s.wire ∨ s.Settled

variable {ut : UasTag}

theorem Accounts.knows (h : s.Accounts) (hi : s.Inv) (hut : ut ∈ s.tags) :
    Knows ut s.wire where
  noReuse := h.noReuse
  owning := by
    refine h.settled.imp_right fun hs hm => ?_
    obtain ⟨ut', hut', htag, ho⟩ := hs.owned _ hm
    obtain rfl := eq_of_key hi.tags.numbers hut' hut htag
    exact ho

theorem Accounts.clear (h : s.Accounts) (hi : s.Inv) (hut : ut ∈ s.tags)
    (hf : ut.state = .free) : Clear ut.tag s.wire :=
  (h.knows hi hut).clear fun ho => ho.1 hf

variable {f : UasTag → Wire → UasTag × Wire}

theorem onTag_accounts (h : s.Accounts) (hi : s.Inv) (hut : ut ∈ s.tags)
    (hl : s.tmArmed ≠ some (.status ut.tag)) (htag : ∀ w, (f ut w).1.tag = ut.tag)
    (hf : Sound ut.tag s.wire (f ut s.wire)) : (s.onTag ut.tag f).Accounts := by
  have hw : (s.onTag ut.tag f).wire = (f ut s.wire).2 := onTag_wire hi.tags hut
  have htags := @onTag_tags ut.tag s f hi.tags
  obtain ⟨htm, harmed, hown, htarget⟩ := @onTag_keeps ut.tag s f
  have hnum : (s.onTag ut.tag f).numbers = s.numbers := by
    refine onTag_numbers hi.tags fun ut' hut' ht => ?_
    obtain rfl := eq_of_key hi.tags.numbers hut' hut ht
    exact htag _
  constructor
  · rw [hw]
    exact hf.knows.noReuse
  · intro ut' hut'
    rw [htags, mem_modify] at hut'
    obtain ⟨ut₁, hut₁, rfl⟩ := hut'
    split
    · rename_i ht
      obtain rfl := eq_of_key hi.tags.numbers hut₁ hut ht
      exact hf.seen
    · exact h.seen _ hut₁
  · rw [hw]
    rcases h.settled with hd | hs
    · exact .inl (hf.frame.degraded hd)
    refine hf.knows.owning.imp_right fun hk => ⟨fun t ht => ?_, ?_, fun pipe hp => ?_, ?_⟩
    · rw [hw] at ht
      by_cases hown : t = ut.tag
      · rw [hown] at ht ⊢
        refine ⟨(f ut s.wire).1, ?_, htag _, hk (by rw [htag]; exact ht)⟩
        rw [htags, mem_modify]
        exact ⟨ut, hut, (if_pos rfl).symm⟩
      · obtain ⟨ut', hut', rfl, ho⟩ := hs.owned _ (hf.frame.owned t hown ht)
        refine ⟨ut', ?_, rfl, ho⟩
        rw [htags, mem_modify]
        exact ⟨ut', hut', (if_neg hown).symm⟩
    · rw [htm, hnum]
      exact hs.tmTag
    · rw [harmed] at hp
      rw [hw, hown, htarget]
      refine hf.frame.tmf _ _ ?_ (hs.tmf _ hp)
      intro he
      rcases hs.tmOwn _ hp with rfl | ⟨-, hnot⟩
      · exact hl (he ▸ hp)
      · exact hnot (he ▸ mem_map_of_mem hut)
    · rw [harmed, hown, hnum]
      exact hs.tmOwn

theorem onTag_calm (hf : ∀ ut w, Calm w (f ut w).2) : Calm s.wire (s.onTag tag f).wire := by
  unfold onTag
  split
  · exact hf _ _
  · exact .refl _

theorem Accounts.map {g : UasTag → UasTag} (h : s.Accounts) (hw : t.wire.passed = s.wire.passed)
    (ht : t.tags = s.tags.map g) (htm : t.tmTag = s.tmTag) (ha : t.tmArmed = s.tmArmed)
    (ho : t.tmOwnTag = s.tmOwnTag) (htarget : t.tmTargetTag = s.tmTargetTag)
    (hg : ∀ ut, (g ut).tag = ut.tag ∧ (Seen ut → Seen (g ut)) ∧ (Owning ut → Owning (g ut))) :
    t.Accounts := by
  have hnum : t.numbers = s.numbers := by
    unfold numbers
    rw [ht, map_map]
    exact map_congr_left fun ut _ => (hg ut).1
  constructor
  · rw [hw]
    exact h.noReuse
  · intro ut' hut'
    rw [ht] at hut'
    obtain ⟨ut, hut, rfl⟩ := mem_map.mp hut'
    exact (hg ut).2.1 (h.seen ut hut)
  · unfold Degraded
    rw [hw]
    refine h.settled.imp_right fun hs => ⟨fun tag hm => ?_, ?_, ?_, ?_⟩
    · unfold owned at hm
      rw [hw] at hm
      obtain ⟨ut, hut, htag, hown⟩ := hs.owned _ hm
      refine ⟨g ut, ?_, (hg ut).1.trans htag, (hg ut).2.2 hown⟩
      rw [ht]
      exact mem_map_of_mem hut
    · rw [htm, hnum]
      exact hs.tmTag
    · rw [ha, hw, ho, htarget]
      exact hs.tmf
    · rw [ha, ho, hnum]
      exact hs.tmOwn

theorem devAbortIo_accounts (h : s.Accounts) (ioreqs : List ℕ) :
    (s.devAbortIo ioreqs).Accounts := by
  refine h.map rfl rfl rfl rfl rfl rfl fun ut => ?_
  split
  · exact ⟨rfl, id, id⟩
  · exact ⟨rfl, id, id⟩

theorem psdCheckPipe_accounts (h : s.Accounts) : s.psdCheckPipe.2.Accounts := by
  unfold psdCheckPipe
  split
  · exact h
  · have h' := devAbortIo_accounts h (by assumption : Check).abortIo
    exact ⟨h'.noReuse, h'.seen, h'.settled.imp_right fun hs => ⟨hs.1, hs.2, hs.3, hs.4⟩⟩

theorem onTag_passed (hf : ∀ ut w, (f ut w).2.passed = w.passed) :
    (s.onTag tag f).wire.passed = s.wire.passed := by
  unfold onTag
  split
  · exact hf _ _
  · rfl

theorem nUasProcessAborts_accounts (hi : s.Inv) (h : s.Accounts) :
    s.nUasProcessAborts.Accounts := by
  unfold nUasProcessAborts
  refine (foldlRecOn (motive := fun (s : Ncm) => s.Inv ∧ s.Accounts) _ _ ⟨hi, h⟩ ?_).2
  rintro s ⟨hi, h⟩ tag -
  constructor
  · exact onTag_inv hi (fun ut _ _ hi => ⟨hi, rfl⟩) fun ut _ _ _ _ => rfl
  · obtain ⟨htm, ha, ho, htarget⟩ := @onTag_keeps tag s fun ut w =>
      (ut, if ut.state = .running ∧ ut.abortReq then nUasTagSignalAbort ut w else w)
    refine h.map (onTag_passed fun ut w => ?_) (onTag_tags hi.tags) htm ha ho htarget fun ut => ?_
    · simp only
      split
      · exact signalAbort_passed
      · rfl
    · split <;> exact ⟨rfl, id, id⟩

theorem nUasKillAllTags_calm : Calm s.wire s.nUasKillAllTags.wire := by
  refine foldlRecOn (motive := fun (t : Ncm) => Calm s.wire t.wire) _ _ (.refl s.wire) ?_
  exact fun s' h tag _ => h.trans (onTag_calm kill_calm)

theorem initTags_tmTag {queueDepth qd tmTag : ℕ} {st : Streams}
    (h : initTags queueDepth st = some (qd, tmTag)) : tmTag ∉ range' 1 qd := by
  simp only [initTags] at h
  split at h
  · cases h
  split at h
  · cases h
  split at h
  · cases h
  obtain ⟨rfl, rfl⟩ := Prod.mk.inj (Option.some.inj h)
  intro hm
  rw [mem_range'_1] at hm
  split at hm <;> omega

theorem nUasInitTags_tmTag (s : Ncm) (st : Streams) :
    (s.nUasInitTags st).1.tmTag ∉ (s.nUasInitTags st).1.numbers := by
  unfold nUasInitTags numbers
  simp only
  split
  · rename_i qd tmTag hi
    have hid : ((range' 1 qd).map freshTag).map UasTag.tag = range' 1 qd := by
      rw [map_map]
      exact map_id _
    rw [hid]
    exact initTags_tmTag hi
  · exact not_mem_nil

def Reset (s : Ncm) : Prop :=
  NoReuse s.wire.passed ∧ (Degraded s.wire ∨ owned s.wire = [] ∧ s.tmTag ∉ s.numbers)

theorem resetDevice_reset (h : NoReuse s.wire.passed) : s.resetDevice.Reset := by
  have hsame : s.psdResetDevice.2.wire = s.wire := by
    unfold psdResetDevice
    split <;> rfl
  unfold resetDevice
  generalize s.psdResetDevice = reset at *
  obtain ⟨_ | st, s'⟩ := reset
  · refine ⟨?_, .inl ?_⟩
    · rw [← hsame] at h
      exact h.snoc nofun
    · unfold Degraded
      simp only [Wire.pass]
      rw [owns_snoc]
      rfl
  · simp only at hsame
    have hw : ({ s' with wire := s'.wire.pass (.reset true) }.nUasInitTags st).1.wire =
        s'.wire.pass (.reset true) := nUasInitTags_wire _ st
    have htm := nUasInitTags_tmTag { s' with wire := s'.wire.pass (.reset true) } st
    have hn : NoReuse (s'.wire.pass (.reset true)).passed := by
      rw [← hsame] at h
      exact h.snoc nofun
    have hnone : owned (s'.wire.pass (.reset true)) = [] := by
      unfold owned
      simp only [Wire.pass]
      rw [owns_snoc]
      rfl
    simp only
    generalize { s' with wire := s'.wire.pass (.reset true) }.nUasInitTags st = rebuilt at *
    rw [← hw] at hn hnone
    split
    · exact ⟨hn, .inr ⟨hnone, htm⟩⟩
    · exact ⟨hn, .inr ⟨hnone, htm⟩⟩

theorem nUasEscalateReset_reset (h : NoReuse s.wire.passed) : s.nUasEscalateReset.Reset := by
  unfold nUasEscalateReset
  apply resetDevice_reset
  apply nUasKillAllTags_calm.noReuse
  cases s.tmArmed with
  | none => exact h
  | some pipe => exact (abort_calm pipe pipe s.wire).noReuse h

theorem Drained.accounts (h : s.Drained) (hr : s.Reset) : s.Accounts where
  noReuse := hr.1
  seen := fun ut hut => .of_idle (by rw [h.free ut hut]; exact nofun)
  settled := by
    refine hr.2.imp_right fun ⟨hnone, htm⟩ =>
      ⟨fun t ht => ?_, htm, fun pipe hp => ?_, fun pipe hp => ?_⟩
    · rw [hnone] at ht
      cases ht
    · rw [h.unarmed] at hp
      cases hp
    · rw [h.unarmed] at hp
      cases hp

theorem nUasEscalateReset_accounts (h : TagsInv s.tags)
    (hl : ∀ pipe, s.tmArmed = some pipe → s.Lent pipe) (hn : NoReuse s.wire.passed) :
    s.nUasEscalateReset.Accounts :=
  (nUasEscalateReset_drained h hl).accounts (nUasEscalateReset_reset hn)

theorem reapPipe_accounts (hi : s.Inv) (h : s.Accounts) (is_status : Bool) (tag : ℕ) :
    (s.reapPipe is_status tag).1.Accounts := by
  obtain hs | hs | ⟨-, hs, harmed⟩ := reapPipe_cases s is_status tag <;> rw [hs]
  · exact h
  · exact psdCheckPipe_accounts h
  · have hc := psdCheckPipe_inv hi
    have ha := psdCheckPipe_accounts h
    by_cases hex : ∃ ut ∈ s.psdCheckPipe.2.tags, ut.tag = tag
    · obtain ⟨ut, hut, rfl⟩ := hex
      have harmed := harmed hi ut hut rfl
      have hi' := hc.tags.tag _ hut
      dsimp only
      refine onTag_accounts ha hc hut (fun hp => ?_) ?_ ?_
      · -- what is lent does not run
        obtain ⟨ut₁, hut₁, htag₁, hfree⟩ := hc.lent _ hp
        obtain rfl := eq_of_key hc.tags.numbers hut₁ hut htag₁
        rw [harmed.1] at hfree
        cases hfree
      · exact fun w => (pipeDone_inv hi' harmed.1 harmed.2).2
      · exact pipeDone_sound hi' harmed.1 harmed.2 (ha.seen _ hut) (ha.knows hc hut)
    · rw [onTag_none fun ut hut ht => hex ⟨ut, hut, ht⟩]
      exact ha

theorem reapPass_accounts (hi : s.Inv) (h : s.Accounts) : s.reapPass.1.Accounts := by
  unfold reapPass
  refine (foldlRecOn (motive := fun (p : Ncm × Bool) => p.1.Inv ∧ p.1.Accounts) _ _
    ⟨hi, h⟩ ?_).2
  rintro p ⟨hi, h⟩ tag -
  have hi' := reapPipe_inv hi true tag
  exact ⟨reapPipe_inv hi' false tag, reapPipe_accounts hi' (reapPipe_accounts hi h true tag) false tag⟩

theorem nUasReapTags_accounts (fuel : ℕ) (hi : s.Inv) (h : s.Accounts)
    (hs : s.nUasReapTags fuel = some t) : t.Accounts := by
  induction fuel generalizing s with
  | zero => cases hs
  | succ fuel ih =>
    have hp := reapPass_inv hi
    have ha := reapPass_accounts hi h
    simp only [nUasReapTags] at hs
    split at hs
    · exact ih hp ha hs
    · cases hs
      exact ha

theorem setBusy_accounts (h : s.Accounts) (pipe : Pipe) (busy : Bool) :
    (s.setBusy pipe busy).Accounts := by
  cases pipe with
  | status tag | data tag =>
    refine h.map rfl rfl rfl rfl rfl rfl fun ut => ?_
    split <;> exact ⟨rfl, id, id⟩
  | tm => exact h.map rfl (map_id _).symm rfl rfl rfl rfl fun ut => ⟨rfl, id, id⟩

theorem setBusy_keeps (busy : Bool) : (s.setBusy pipe busy).tmTag = s.tmTag ∧
    (s.setBusy pipe busy).tmOwnTag = s.tmOwnTag ∧
    (s.setBusy pipe busy).tmTargetTag = s.tmTargetTag := by
  cases pipe <;> exact ⟨rfl, rfl, rfl⟩

theorem setBusy_numbers (busy : Bool) : (s.setBusy pipe busy).numbers = s.numbers := by
  cases pipe with
  | status tag => exact map_modify fun _ _ _ => rfl
  | data tag => exact map_modify fun _ _ _ => rfl
  | tm => rfl

theorem sendTMF_accounts (hi : s.Inv) (h : s.Accounts) (ha : s.tmArmed = none) (hl : s.Lent pipe)
    {owntag target : ℕ} (hc : Clear owntag s.wire)
    (hown : ¬ Degraded s.wire → pipe = .status owntag ∨ pipe = .tm ∧ owntag ∉ s.numbers) :
    (s.sendTMF pipe owntag target).Accounts := by
  have hn := @iu_noReuse s.wire (.abortTask owntag target) hc
  have h' := setBusy_accounts h pipe true
  have ht' := setBusy_tags hi.tags hl true
  have hl' := setBusy_lent hl true
  have harmed := (@setBusy_tmArmed s pipe true).trans ha
  have hpassed := sendIu_passed (.abortTask owntag target) s.wire
  have hnum : (s.setBusy pipe true).numbers = s.numbers := setBusy_numbers true
  simp only [sendTMF, setBusy_wire]
  split
  · refine nUasEscalateReset_accounts (nUasAbortAndWait_tags ?_ ?_) (fun pipe' hp => ?_) ?_
    · exact ht'
    · cases pipe <;> exact hl'
    · have hp' : (s.setBusy pipe true).tmArmed = some pipe' := by
        cases pipe <;> exact hp
      rw [harmed] at hp'
      cases hp'
    · exact (abort_calm pipe pipe _).noReuse hn
  · rename_i herr
    have hd : owns (sendIu (.abortTask owntag target) s.wire).2.passed =
        { owns s.wire.passed with tmf := some (owntag, target) } := by
      rw [hpassed, owns_snoc]
      simp only [Device.after, if_pos (not_not.mp herr)]
    have hsettled := h'.settled
    unfold Degraded at hsettled
    rw [setBusy_wire] at hsettled
    refine ⟨hn, h'.seen, ?_⟩
    unfold Degraded
    simp only [hd]
    by_cases hdeg : (owns s.wire.passed).degraded = true
    · exact .inl hdeg
    refine .inr ⟨fun t ht => ?_, ?_, fun pipe' _ => ?_, fun pipe' hp => ?_⟩
    · unfold owned at ht
      simp only [hd] at ht
      have hs := hsettled.resolve_left hdeg
      apply hs.owned t
      rw [setBusy_wire]
      exact ht
    · exact (hsettled.resolve_left hdeg).tmTag
    · simp only [hd]
    · obtain rfl := Option.some.inj hp
      have hown' := hown hdeg
      rw [← hnum] at hown'
      exact hown'

theorem Accounts.clear_tm (h : s.Accounts) : Clear s.tmTag s.wire := by
  refine ⟨h.noReuse, h.settled.imp_right fun hs hm => ?_⟩
  obtain ⟨ut, hut, htag, -⟩ := hs.owned _ hm
  exact hs.tmTag (htag ▸ mem_map_of_mem hut)

theorem nUasIssueTMF_accounts (hi : s.Inv) (h : s.Accounts) : s.nUasIssueTMF.Accounts := by
  unfold nUasIssueTMF
  cases ha : s.tmArmed with
  | some pipe => exact h
  | none =>
    cases hq : s.nUasQuarantinedTag with
    | none => exact h
    | some target =>
      simp only
      split
      · refine sendTMF_accounts hi h ha tm_lent h.clear_tm fun hd => ?_
        exact .inr ⟨rfl, (h.settled.resolve_left hd).tmTag⟩
      split
      · exact h
      · rename_i hothers
        split
        · exact nUasEscalateReset_accounts hi.tags hi.lent h.noReuse
        · rename_i lend _ hlend
          have hmem : lend ∈ s.tags.filter fun ut => ut.tag ≠ target.tag := by
            rw [hlend]
            exact mem_cons_self
          have hut := (mem_filter.mp hmem).1
          have hfree : lend.state = .free := by
            by_contra hne
            exact hothers (any_eq_true.mpr ⟨lend, hmem, decide_eq_true hne⟩)
          have hlent : s.Lent (.status lend.tag) := ⟨lend, hut, rfl, hfree⟩
          refine sendTMF_accounts hi h ha hlent ?_ fun _ => .inl rfl
          exact h.clear hi hut hfree

theorem nUasReapTMF_accounts (hi : s.Inv) (h : s.Accounts) : s.nUasReapTMF.Accounts := by
  unfold nUasReapTMF
  split
  · exact h
  · rename_i pipe ha
    have hc := psdCheckPipe_inv hi
    have hacc := psdCheckPipe_accounts h
    have harmed := psdCheckPipe_tmArmed.trans ha
    generalize s.psdCheckPipe = checked at *
    obtain ⟨replied, s'⟩ := checked
    simp only at hc hacc harmed ⊢
    split
    · exact hacc
    · have htags := setBusy_tags hc.tags (hc.lent pipe harmed) false
      have hbusy := setBusy_accounts hacc pipe false
      have hcalm := wait_calm pipe s'.wire
      split
      · exact nUasEscalateReset_accounts htags nofun (hcalm.noReuse hacc.noReuse)
      split
      · exact nUasEscalateReset_accounts htags nofun (hcalm.noReuse hacc.noReuse)
      · rename_i hgood hanswered
        obtain ⟨htm, hown, htarget⟩ := @setBusy_keeps s' pipe false
        have hgone : ¬ Degraded s'.wire → s'.tmTargetTag ∉ owned (psdWaitPipe pipe s'.wire).2 := by
          intro hd
          have hs := hacc.settled.resolve_left hd
          refine wait_response (hs.tmf _ harmed) ?_ ?_ ?_
          · exact (hs.tmOwn _ harmed).symm.imp_left And.left
          · simpa using hgood
          · rw [hown] at hanswered
            simpa using hanswered
        have hnum : ∀ g : UasTag → UasTag, (∀ ut, (g ut).tag = ut.tag) →
            ((s'.setBusy pipe false).tags.map g).map UasTag.tag = s'.numbers := by
          intro g hg
          rw [map_map, ← @setBusy_numbers s' pipe false]
          exact map_congr_left fun ut _ => hg ut
        refine ⟨hcalm.noReuse hacc.noReuse, fun ut' hut' => ?_, ?_⟩
        · obtain ⟨ut, hut, rfl⟩ := mem_map.mp hut'
          split
          · exact .of_idle nofun
          · exact hbusy.seen ut hut
        · by_cases hd : Degraded s'.wire
          · exact .inl (hcalm.degraded hd)
          have hs := hbusy.settled.resolve_left (by rw [setBusy_wire]; exact hd)
          refine .inr ⟨fun t ht => ?_, ?_, nofun, nofun⟩
          · have ht' := hcalm.owned t ht
            rw [← @setBusy_wire s' pipe false] at ht'
            obtain ⟨ut, hut, rfl, ho⟩ := hs.owned t ht'
            refine ⟨ut, mem_map.mpr ⟨ut, hut, if_neg ?_⟩, rfl, ho⟩
            rintro ⟨he, -⟩
            rw [htarget] at he
            exact hgone hd (he ▸ ht)
          · have htmTag := hs.tmTag
            rw [setBusy_numbers] at htmTag
            unfold numbers
            rw [hnum]
            · exact htmTag
            · intro ut
              split <;> rfl

theorem nUasInitTags_accounts (s' : Ncm) (st : Streams) (h : s'.wire.passed = []) :
    (s'.nUasInitTags st).1.Accounts := by
  refine (nUasInitTags_drained s' st).accounts ⟨?_, .inr ⟨?_, nUasInitTags_tmTag s' st⟩⟩
  · rw [nUasInitTags_wire, h]
    exact noReuse_nil
  · unfold owned
    rw [nUasInitTags_wire, h]
    rfl

theorem onFreeTag_accounts (hi : s.Inv) (h : s.Accounts)
    (hut : s.nUasFreeTag = some ut)
    (htag : ∀ w, (f ut w).1.tag = ut.tag)
    (hf : ∀ w, Clear ut.tag w → Sound ut.tag w (f ut w)) : (s.onTag ut.tag f).Accounts := by
  obtain ⟨hmem, hfree, hlent⟩ := freeTag_spec hut
  exact onTag_accounts h hi hmem hlent htag (hf _ (h.clear hi hmem hfree))

theorem step_accounts {e : Event} (hi : s.Inv) (h : s.Accounts) (hs : s.step e = some t) :
    t.Accounts := by
  cases e with
  | submit ioreq length isRead =>
    obtain ⟨ut, hut, rfl⟩ := Option.map_eq_some_iff.mp hs
    exact onFreeTag_accounts hi h hut (fun _ => submit_tag) fun _ => submitTag_sound
  | command dataLen =>
    obtain ⟨ut, hut, rfl⟩ := Option.map_eq_some_iff.mp hs
    refine onFreeTag_accounts hi h hut (fun w => ?_) fun _ => doCommand_sound
    exact (doCommand_inv dataLen ut w).2
  | abortIo ioreq =>
    cases hs
    exact devAbortIo_accounts h _
  | processAborts =>
    cases hs
    exact nUasProcessAborts_accounts hi h
  | reapTags fuel => exact nUasReapTags_accounts fuel hi h hs
  | reapTMF =>
    cases hs
    exact nUasReapTMF_accounts hi h
  | issueTMF =>
    cases hs
    exact nUasIssueTMF_accounts hi h

end Ncm

open Ncm in
/-- In a run of the engine from its set-up no IU goes out with a tag that the device still owns a
command of, unless a reset has failed before. -/
theorem uas_no_reuse (s' : Ncm) (st : Streams) (evs : List Event) (s : Ncm)
    (h : s'.wire.passed = [])
    (hr : Runs.Run step Runs.anyStep (s'.nUasInitTags st).1 evs s) : NoReuse s.wire.passed := by
  have hinv : s.Inv ∧ s.Accounts := by
    refine hr.invariant (fun s => s.Inv ∧ s.Accounts) ?_ ?_
    · exact ⟨(nUasInitTags_drained s' st).inv, nUasInitTags_accounts s' st h⟩
    · exact fun _ _ _ h _ hs => ⟨step_inv h.1 hs, step_accounts h.1 h.2 hs⟩
  exact hinv.2.noReuse

/-- Both reads come back with a timeout and go to quarantine; an ABORT TASK goes out. -/
theorem uas_no_reuse_reads :
    let evs : List Ncm.Event := twoReads ++ [.reapTags 5, .issueTMF]
    NoReuse ((Runs.exec Ncm.step (unit.nUasInitTags (streams true)).1 evs).get
      (by decide)).wire.passed :=
  uas_no_reuse unit (streams true) _ _ rfl (Runs.Run.get (by decide))

end Neptune.Uas
