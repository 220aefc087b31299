import Neptune.Proofs.UasEngineInv

/-! The engine pump leaves a transfer outstanding whenever a tag is not free, exactly where it has not
come to issue the ABORT TASK in borrow mode with two tags in quarantine and none running. What a
running tag counts is what it has armed. -/

namespace Neptune.Uas

open Option List

namespace Ncm

variable {s t : Ncm} {pipe : Pipe} {tag : ℕ}

theorem setBusy_lent (hl : s.Lent pipe) (busy : Bool) : (s.setBusy pipe busy).Lent pipe := by
  cases pipe with
  | status tag =>
    obtain ⟨ut, hut, rfl, hfree⟩ := hl
    refine ⟨{ ut with statusBusy := busy }, ?_, rfl, hfree⟩
    exact Keyed.mem_modify.mpr ⟨ut, hut, (if_pos rfl).symm⟩
  | data tag => exact absurd hl id
  | tm => trivial

theorem setBusy_busy (hl : s.Lent pipe) : (s.setBusy pipe true).Busy pipe := by
  cases pipe with
  | status tag =>
    obtain ⟨ut, hut, rfl, -⟩ := hl
    refine ⟨{ ut with statusBusy := true }, ?_, rfl, rfl⟩
    exact Keyed.mem_modify.mpr ⟨ut, hut, (if_pos rfl).symm⟩
  | data tag => exact absurd hl id
  | tm => exact rfl

theorem setBusy_tmArmed (busy : Bool) : (s.setBusy pipe busy).tmArmed = s.tmArmed := by
  cases pipe <;> rfl

theorem tm_lent : s.Lent .tm := trivial

theorem nUasEscalateReset_unarmed (h : TagsInv s.tags) (ha : s.tmArmed = none) :
    s.nUasEscalateReset.Drained := by
  refine nUasEscalateReset_drained h fun pipe hp => ?_
  rw [ha] at hp
  cases hp

theorem sendTMF_spec (h : TagsInv s.tags) (ha : s.tmArmed = none) (hl : s.Lent pipe)
    (owntag target : ℕ) :
    (s.sendTMF pipe owntag target).Drained ∨
      (s.sendTMF pipe owntag target).Inv ∧ (s.sendTMF pipe owntag target).tmArmed = some pipe := by
  have h₁ := setBusy_tags h hl true
  have hl₁ := setBusy_lent hl true
  simp only [sendTMF]
  split
  · left
    refine nUasEscalateReset_drained ?_ fun pipe' hp => ?_
    · refine nUasAbortAndWait_tags ?_ ?_
      · exact h₁
      · cases pipe <;> exact hl₁
    · -- nothing was armed
      have : (s.setBusy pipe true).tmArmed = some pipe' := by
        cases pipe <;> exact hp
      rw [setBusy_tmArmed, ha] at this
      cases this
  · right
    refine ⟨⟨h₁, fun pipe' hp => ?_, fun pipe' hp => ?_⟩, rfl⟩
    · obtain rfl := some.inj hp
      cases pipe <;> exact hl₁
    · obtain rfl := some.inj hp
      have hb := setBusy_busy hl
      cases pipe <;> exact hb

variable {target ut : UasTag}

theorem quarantined_mem (h : s.nUasQuarantinedTag = some target) :
    target ∈ s.tags ∧ target.state = .quarantine :=
  ⟨mem_of_find?_eq_some h, by simpa using find?_some h⟩

def HoldsOff (s : Ncm) (target : UasTag) : Prop :=
  ∃ ut ∈ s.tags, ut.tag ≠ target.tag ∧ ut.state ≠ .free

theorem lend_lent {lend : UasTag} {rest : List UasTag}
    (hothers : ¬ ((s.tags.filter fun ut => ut.tag ≠ target.tag).any fun ut => ut.state ≠ .free) =
      true)
    (hlend : (s.tags.filter fun ut => ut.tag ≠ target.tag) = lend :: rest) :
    s.Lent (.status lend.tag) := by
  have hmem : lend ∈ s.tags.filter fun ut => ut.tag ≠ target.tag := by
    rw [hlend]
    exact mem_cons_self
  refine ⟨lend, (mem_filter.mp hmem).1, rfl, ?_⟩
  by_contra hne
  exact hothers (any_eq_true.mpr ⟨lend, hmem, decide_eq_true hne⟩)

theorem nUasIssueTMF_cases (h : s.Inv) :
    (s.nUasIssueTMF = s ∧ (s.tmArmed ≠ none ∨ s.nUasQuarantinedTag = none ∨
      s.tmTag = 0 ∧ ∃ target, s.nUasQuarantinedTag = some target ∧ s.HoldsOff target)) ∨
    ((s.tmTag ≠ 0 ∨ ∃ target, s.nUasQuarantinedTag = some target ∧ ¬ s.HoldsOff target) ∧
      (s.nUasIssueTMF.Drained ∨ s.nUasIssueTMF.Inv ∧ s.nUasIssueTMF.tmArmed ≠ none)) := by
  unfold nUasIssueTMF
  cases ha : s.tmArmed with
  | some pipe => exact .inl ⟨rfl, .inl nofun⟩
  | none =>
    cases hq : s.nUasQuarantinedTag with
    | none => exact .inl ⟨rfl, .inr (.inl rfl)⟩
    | some target =>
      simp only
      split
      · -- the dedicated stream
        rename_i htm
        refine .inr ⟨.inl htm, (sendTMF_spec h.tags ha tm_lent _ _).imp_right fun hs => ⟨hs.1, ?_⟩⟩
        rw [hs.2]
        exact nofun
      · rename_i htm
        split
        · rename_i hothers
          obtain ⟨ut, hut, hne⟩ := any_eq_true.mp hothers
          obtain ⟨hut, htag⟩ := mem_filter.mp hut
          exact .inl ⟨rfl, .inr (.inr ⟨not_not.mp htm, target, rfl, ut, hut, of_decide_eq_true htag,
            of_decide_eq_true hne⟩)⟩
        · rename_i hothers
          have hfree : ¬ s.HoldsOff target := by
            rintro ⟨ut, hut, htag, hne⟩
            refine hothers (any_eq_true.mpr ⟨ut, mem_filter.mpr ⟨hut, ?_⟩, ?_⟩)
            · exact decide_eq_true htag
            · exact decide_eq_true hne
          refine .inr ⟨.inr ⟨target, rfl, hfree⟩, ?_⟩
          split
          · exact .inl (nUasEscalateReset_drained h.tags h.lent)
          · rename_i lend _ hlend
            refine (sendTMF_spec h.tags ha (lend_lent hothers hlend) _ _).imp_right fun hs => ⟨hs.1, ?_⟩
            rw [hs.2]
            exact nofun

theorem nUasIssueTMF_inv (h : s.Inv) : s.nUasIssueTMF.Inv := by
  rcases nUasIssueTMF_cases h with ⟨hs, -⟩ | ⟨-, hd | ⟨hi, -⟩⟩
  · rw [hs]
    exact h
  · exact hd.inv
  · exact hi

theorem nUasReapTMF_inv (h : s.Inv) : s.nUasReapTMF.Inv := by
  unfold nUasReapTMF
  split
  · exact h
  · rename_i pipe ha
    have hc := psdCheckPipe_inv h
    have harmed := psdCheckPipe_tmArmed.trans ha
    generalize s.psdCheckPipe = checked at *
    obtain ⟨replied, s'⟩ := checked
    simp only at hc harmed ⊢
    split
    · exact hc
    · have h' := setBusy_tags hc.tags (hc.lent pipe harmed) false
      split
      · apply Drained.inv
        apply nUasEscalateReset_unarmed
        · exact h'
        · rfl
      split
      · apply Drained.inv
        apply nUasEscalateReset_unarmed
        · exact h'
        · rfl
      · refine .of_unarmed (h'.map fun ut _ hi => ?_) rfl
        split
        · rename_i hq
          exact ⟨release_inv hi hq.2, rfl⟩
        · exact ⟨hi, rfl⟩

instance (s : Ncm) (pipe : Pipe) : Decidable (s.Busy pipe) :=
  match pipe with
  | .status tag => inferInstanceAs (Decidable (∃ ut ∈ s.tags, ut.tag = tag ∧ ut.statusBusy = true))
  | .data tag => inferInstanceAs (Decidable (∃ ut ∈ s.tags, ut.tag = tag ∧ ut.dataBusy = true))
  | .tm => inferInstanceAs (Decidable (s.tmBusy = true))

def Outstanding (s : Ncm) : Prop :=
  (∃ ut ∈ s.tags, ut.state = .running ∧
    (ut.statusArmed = true ∧ ut.statusBusy = true ∨ ut.dataArmed = true ∧ ut.dataBusy = true)) ∨
  ∃ pipe ∈ s.tmArmed, s.Busy pipe

instance (s : Ncm) : Decidable s.Outstanding := inferInstanceAs (Decidable (_ ∨ _))

def Waits (s : Ncm) : Prop :=
  (∃ ut ∈ s.tags, ut.state ≠ .free) ∨ s.tags ≠ [] ∧ s.nUasFreeTag = none

def Signalled (s : Ncm) : Prop := s.Waits → s.Outstanding

/-- The engine does not come to borrow a tag with several in quarantine and none running. -/
def Lendable (s : Ncm) : Prop :=
  s.tmArmed ≠ none ∨ s.tmTag ≠ 0 ∨ (∃ ut ∈ s.tags, ut.state = .running) ∨
    ∀ a ∈ s.tags, ∀ b ∈ s.tags, a.state = .quarantine → b.state = .quarantine → a = b

instance (s : Ncm) : Decidable s.Lendable := inferInstanceAs (Decidable (_ ∨ _))

theorem Inv.outstanding_of_armed (h : s.Inv) (ha : s.tmArmed ≠ none) : s.Outstanding := by
  obtain ⟨pipe, hp⟩ := ne_none_iff_exists'.mp ha
  exact .inr ⟨pipe, hp, h.busy pipe hp⟩

theorem Inv.outstanding_of_running (h : s.Inv) (hut : ut ∈ s.tags)
    (hr : ut.state = .running) : s.Outstanding := by
  have hi := h.tags.tag ut hut
  refine .inl ⟨ut, hut, hr, ?_⟩
  have harmed := hi.running hr
  cases hs : ut.statusArmed with
  | true => exact .inl ⟨rfl, hi.status_busy hs⟩
  | false =>
    cases hd : ut.dataArmed with
    | true => exact .inr ⟨rfl, hi.data_busy hd⟩
    | false => simp [armed, hs, hd] at harmed

theorem Inv.outstanding_of_claim (h : s.Inv) (hne : s.tags ≠ []) (hf : s.nUasFreeTag = none)
    (hfree : ∀ ut ∈ s.tags, ut.state = .free) : s.Outstanding := by
  refine h.outstanding_of_armed fun ha => ?_
  obtain ⟨ut, hut⟩ := exists_mem_of_ne_nil _ hne
  have := find?_eq_none.mp hf ut hut
  simp [hfree ut hut, ha] at this

theorem Drained.signalled (h : s.Drained) : s.Signalled := by
  rintro (⟨ut, hut, hne⟩ | ⟨hne, hf⟩)
  · exact absurd (h.free ut hut) hne
  · exact h.inv.outstanding_of_claim hne hf h.free

theorem Inv.signalled_of_unquarantined (h : s.Inv) (hq : s.nUasQuarantinedTag = none) :
    s.Signalled := by
  have hrun : ∀ ut ∈ s.tags, ut.state ≠ .free → ut.state = .running := by
    intro ut hut hne
    have := find?_eq_none.mp hq ut hut
    cases hs : ut.state with
    | free => exact absurd hs hne
    | running => rfl
    | quarantine => simp [hs] at this
  rintro (⟨ut, hut, hne⟩ | ⟨hne, hf⟩)
  · exact h.outstanding_of_running hut (hrun ut hut hne)
  · by_cases hall : ∀ ut ∈ s.tags, ut.state = .free
    · exact h.outstanding_of_claim hne hf hall
    · push Not at hall
      obtain ⟨ut, hut, hfree⟩ := hall
      exact h.outstanding_of_running hut (hrun ut hut hfree)

theorem lendable_of_unquarantined (hq : s.nUasQuarantinedTag = none) : s.Lendable := by
  refine .inr (.inr (.inr fun a ha b _ hqa _ => ?_))
  have := find?_eq_none.mp hq a ha
  simp [hqa] at this

theorem Inv.lendable_of_free (h : s.Inv)
    (hq : s.nUasQuarantinedTag = some target) (ho : ¬ s.HoldsOff target) : s.Lendable := by
  have honly : ∀ a ∈ s.tags, a.state = .quarantine → a = target := by
    intro a ha hqa
    refine Keyed.eq_of_key h.tags.numbers ha (quarantined_mem hq).1 ?_
    by_contra hne
    exact ho ⟨a, ha, hne, by rw [hqa]; exact nofun⟩
  exact .inr (.inr (.inr fun a ha b hb hqa hqb => (honly a ha hqa).trans (honly b hb hqb).symm))

theorem Inv.holdsOff_iff (h : s.Inv) (ha : s.tmArmed = none) (htm : s.tmTag = 0)
    (hq : s.nUasQuarantinedTag = some target) (ho : s.HoldsOff target) :
    s.Signalled ↔ s.Lendable := by
  obtain ⟨htarget, hquar⟩ := quarantined_mem hq
  constructor
  · intro hs
    have hwait : s.Waits := .inl ⟨target, htarget, by rw [hquar]; exact nofun⟩
    obtain ⟨ut, hut, hr, -⟩ | ⟨pipe, hp, -⟩ := hs hwait
    · exact .inr (.inr (.inl ⟨ut, hut, hr⟩))
    · rw [ha] at hp
      cases hp
  · rintro (hne | hne | ⟨ut, hut, hr⟩ | honly)
    · exact absurd ha hne
    · exact absurd htm hne
    · exact fun _ => h.outstanding_of_running hut hr
    · obtain ⟨ut, hut, htag, hne⟩ := ho
      intro _
      cases hstate : ut.state with
      | free => exact absurd hstate hne
      | running => exact h.outstanding_of_running hut hstate
      | quarantine => exact absurd (congrArg UasTag.tag (honly ut hut target htarget hstate hquar)) htag

theorem nUasIssueTMF_signalled (h : s.Inv) : s.nUasIssueTMF.Signalled ↔ s.Lendable := by
  rcases nUasIssueTMF_cases h with ⟨hs, hstays⟩ | ⟨hlend, hdone⟩
  · rw [hs]
    by_cases ha : s.tmArmed = none
    · rcases hstays with hne | hq | ⟨htm, target, hq, ho⟩
      · exact absurd ha hne
      · exact iff_of_true (h.signalled_of_unquarantined hq) (lendable_of_unquarantined hq)
      · exact h.holdsOff_iff ha htm hq ho
    · exact iff_of_true (fun _ => h.outstanding_of_armed ha) (.inl ha)
  · refine iff_of_true ?_ ?_
    · rcases hdone with hd | ⟨hi, ha⟩
      · exact hd.signalled
      · exact fun _ => hi.outstanding_of_armed ha
    · rcases hlend with htm | ⟨target, hq, ho⟩
      · exact .inr (.inl htm)
      · exact h.lendable_of_free hq ho

def Counted (s : Ncm) : Prop :=
  ∀ ut ∈ s.tags, ut.state = .running → ut.outstanding = armed ut

theorem Inv.counted (h : s.Inv) : s.Counted := fun ut hut => (h.tags.tag ut hut).counted

theorem freeTag_spec (h : s.nUasFreeTag = some ut) :
    ut ∈ s.tags ∧ ut.state = .free ∧ s.tmArmed ≠ some (.status ut.tag) := by
  have := find?_some h
  simp only [Bool.and_eq_true, decide_eq_true_eq] at this
  exact ⟨mem_of_find?_eq_some h, this⟩

theorem onFreeTag_inv (h : s.Inv) (hut : s.nUasFreeTag = some ut)
    {f : UasTag → Wire → UasTag × Wire}
    (hf : ∀ ut w, TagInv ut → ut.state = .free → TagInv (f ut w).1 ∧ (f ut w).1.tag = ut.tag) :
    (s.onTag ut.tag f).Inv := by
  obtain ⟨hmem, hfree, hlent⟩ := freeTag_spec hut
  refine onTag_inv h (fun ut' hut' htag hi => ?_) fun ut' hut' htag hp _ => ?_
  · obtain rfl := Keyed.eq_of_key h.tags.numbers hut' hmem htag
    exact hf _ _ hi hfree
  · rw [htag] at hp
    exact absurd hp hlent

theorem step_inv {e : Event} (h : s.Inv) (hs : s.step e = some t) : t.Inv := by
  cases e with
  | submit ioreq length isRead =>
    obtain ⟨ut, hut, rfl⟩ := map_eq_some_iff.mp hs
    exact onFreeTag_inv h hut fun ut w hi hf => submitTag_inv hi hf
  | command dataLen =>
    obtain ⟨ut, hut, rfl⟩ := map_eq_some_iff.mp hs
    exact onFreeTag_inv h hut fun ut w _ _ => doCommand_inv dataLen ut w
  | abortIo ioreq =>
    cases hs
    exact devAbortIo_inv h _
  | processAborts =>
    cases hs
    exact nUasProcessAborts_inv h
  | reapTags fuel => exact nUasReapTags_inv fuel h hs
  | reapTMF =>
    cases hs
    exact nUasReapTMF_inv h
  | issueTMF =>
    cases hs
    exact nUasIssueTMF_inv h

theorem psdCheckPipe_checks :
    s.psdCheckPipe.2.checks.length ≤ s.checks.length ∧
      (s.psdCheckPipe.1 = true → s.psdCheckPipe.2.checks.length < s.checks.length) := by
  unfold psdCheckPipe
  split
  · exact ⟨le_rfl, nofun⟩
  · rename_i c checks hs
    rw [hs]
    exact ⟨Nat.le_succ _, fun _ => Nat.lt_succ_self _⟩

theorem reapPipe_checks (s : Ncm) (is_status : Bool) (tag : ℕ) :
    (s.reapPipe is_status tag).1.checks.length ≤ s.checks.length ∧
      ((s.reapPipe is_status tag).2 = true →
        (s.reapPipe is_status tag).1.checks.length < s.checks.length) := by
  obtain ⟨hle, hlt⟩ := @psdCheckPipe_checks s
  obtain hs | hs | ⟨hreplied, hs, -⟩ := reapPipe_cases s is_status tag <;> rw [hs]
  · exact ⟨le_rfl, nofun⟩
  · exact ⟨hle, nofun⟩
  · rw [onTag_checks]
    exact ⟨hle, fun _ => hlt hreplied⟩

theorem reapPass_checks (s : Ncm) :
    s.reapPass.1.checks.length ≤ s.checks.length ∧
      (s.reapPass.2 = true → s.reapPass.1.checks.length < s.checks.length) := by
  unfold reapPass
  refine foldlRecOn (motive := fun (p : Ncm × Bool) => p.1.checks.length ≤ s.checks.length ∧
    (p.2 = true → p.1.checks.length < s.checks.length)) _ _ ⟨le_rfl, nofun⟩ fun p hp tag _ => ?_
  have hstatus := reapPipe_checks p.1 true tag
  have hdata := reapPipe_checks (p.1.reapPipe true tag).1 false tag
  refine ⟨hdata.1.trans (hstatus.1.trans hp.1), fun hprogress => ?_⟩
  simp only [Bool.or_eq_true] at hprogress
  rcases hprogress with (h | h) | h
  · exact lt_of_le_of_lt (hdata.1.trans hstatus.1) (hp.2 h)
  · exact lt_of_le_of_lt hdata.1 (lt_of_lt_of_le (hstatus.2 h) hp.1)
  · exact lt_of_lt_of_le (hdata.2 h) (hstatus.1.trans hp.1)

theorem nUasReapTags_isSome (s : Ncm) (fuel : ℕ) (hf : s.checks.length < fuel) :
    (s.nUasReapTags fuel).isSome := by
  induction fuel generalizing s with
  | zero => cases hf
  | succ fuel ih =>
    simp only [nUasReapTags]
    split
    · rename_i hprogress
      have hlt := (reapPass_checks s).2 hprogress
      exact ih _ (lt_of_lt_of_le hlt (Nat.le_of_lt_succ hf))
    · rfl

def toIssueTMF (fuel : ℕ) (s : Ncm) : Option Ncm :=
  (s.nUasProcessAborts.nUasReapTags fuel).map fun s => if s.tags = [] then s else s.nUasReapTMF

theorem nUasIssueTMF_noTags (h : s.tags = []) : s.nUasIssueTMF = s := by
  have hq : s.nUasQuarantinedTag = none := by
    unfold nUasQuarantinedTag
    rw [h]
    rfl
  unfold nUasIssueTMF
  rw [hq]
  split <;> first | rfl | contradiction

theorem nUasPumpEngine_eq (fuel : ℕ) (s : Ncm) :
    s.nUasPumpEngine fuel = (s.toIssueTMF fuel).map nUasIssueTMF := by
  unfold nUasPumpEngine toIssueTMF
  rw [Option.map_map]
  congr 1
  funext s
  unfold nUasProcessQuarantine
  by_cases h : s.tags = []
  · simp only [Function.comp, if_pos h, nUasIssueTMF_noTags h]
  · simp only [Function.comp, if_neg h]

theorem nUasPumpEngine_isSome (s : Ncm) : ∃ fuel, (s.nUasPumpEngine fuel).isSome := by
  refine ⟨s.nUasProcessAborts.checks.length + 1, ?_⟩
  unfold nUasPumpEngine
  rw [isSome_map]
  exact nUasReapTags_isSome _ _ (Nat.lt_succ_self _)

theorem toIssueTMF_inv {fuel : ℕ} (h : s.Inv) (hs : s.toIssueTMF fuel = some t) : t.Inv := by
  obtain ⟨s', hs', rfl⟩ := map_eq_some_iff.mp hs
  have h' := nUasReapTags_inv fuel (nUasProcessAborts_inv h) hs'
  split
  · exact h'
  · exact nUasReapTMF_inv h'

theorem run_inv {ok : Ncm → Event → Prop} {s' : Ncm} {st : Streams} {evs : List Event}
    (hr : Runs.Run step ok (s'.nUasInitTags st).1 evs t) : t.Inv :=
  hr.invariant Inv (nUasInitTags_drained s' st).inv fun _ _ _ h _ hs => step_inv h hs

end Ncm

open Ncm in
/-- In a run of the engine from its set-up the ABORT TASK leaves something to wait for, each time
the pump comes to it, exactly if each time it is lendable. What holds of the events of a run holds
of a pump from any state of it. -/
theorem uas_never_stuck (s' : Ncm) (st : Streams) (evs : List Event) :
    (Runs.Always step (fun _ e t => e = .issueTMF → t.Signalled) (s'.nUasInitTags st).1 evs ↔
      Runs.Always step (fun s e _ => e = .issueTMF → s.Lendable) (s'.nUasInitTags st).1 evs) ∧
    ∀ s, Runs.Run step Runs.anyStep (s'.nUasInitTags st).1 evs s →
      s.Counted ∧ (∃ fuel, (s.nUasPumpEngine fuel).isSome) ∧
      ∀ fuel t, s.nUasPumpEngine fuel = some t →
        t.Counted ∧ ∃ u, s.toIssueTMF fuel = some u ∧ (t.Signalled ↔ u.Lendable) := by
  refine ⟨?_, fun s hr => ?_⟩
  · refine Runs.Always.congr_invariant (fun _ _ _ => step_inv) (fun s e t h hs => ?_)
      (nUasInitTags_drained s' st).inv evs
    refine forall_congr' fun he => ?_
    rw [he] at hs
    obtain rfl := some.inj hs
    exact nUasIssueTMF_signalled h
  · have h := run_inv hr
    refine ⟨h.counted, nUasPumpEngine_isSome s, fun fuel t ht => ?_⟩
    rw [nUasPumpEngine_eq] at ht
    obtain ⟨u, hu, rfl⟩ := map_eq_some_iff.mp ht
    have hi := toIssueTMF_inv h hu
    exact ⟨(nUasIssueTMF_inv hi).counted, u, hu, nUasIssueTMF_signalled hi⟩

def streams (tmPipe : Bool) : Streams := ⟨2, 2, 3, tmPipe, 3, true, 2, 2, 3⟩

def unit : Ncm where
  tags := []
  tmTag := 0
  tmOwnTag := 0
  tmTargetTag := 0
  tmArmed := none
  tmBusy := false
  denyRequests := false
  queueDepth := 2
  maxTrans := 131072
  wire := ⟨List.replicate 4 ⟨10, 0, []⟩, [], [], [], []⟩
  checks := List.replicate 4 ⟨true, []⟩
  resets := []

def twoReads : List Ncm.Event := [.submit 1 512 true, .submit 2 512 true]

/-- With a stream for task management the pump after two failed reads leaves the ABORT TASK out. -/
theorem uas_never_stuck_stream :
    let s := (Runs.exec Ncm.step (unit.nUasInitTags (streams true)).1 twoReads).get (by decide)
    ∃ u, s.toIssueTMF 5 = some u ∧ (((s.nUasPumpEngine 5).get (by decide)).Signalled ↔ u.Lendable) :=
  (((uas_never_stuck unit (streams true) twoReads).2 _ (Runs.Run.get (by decide))).2.2 5 _
    (some_get (by decide)).symm).2

/-- In borrow mode nothing is left to signal the task that both of them wait for. -/
theorem uas_stuck_borrowing :
    ∃ s t, Runs.Run Ncm.step Runs.anyStep (unit.nUasInitTags (streams false)).1 twoReads s ∧
      s.nUasPumpEngine 5 = some t ∧ (∃ ut ∈ t.tags, ut.state ≠ .free) ∧ ¬ t.Outstanding :=
  ⟨_, _, .get (by decide), (some_get (by decide)).symm, by decide, by decide⟩

end Neptune.Uas
