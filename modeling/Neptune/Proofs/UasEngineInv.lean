import Neptune.Spec.UasEngine

/-! One tag of the engine: while it runs it counts the pipes it has armed, and these are busy. -/

namespace Neptune

open List Keyed

namespace Uas

variable {ut : UasTag} {w : Wire} {maxtrans : ℕ}

def armed (ut : UasTag) : ℕ := ut.statusArmed.toNat + ut.dataArmed.toNat

def Quiet (ut : UasTag) : Prop := ut.statusArmed = false ∧ ut.dataArmed = false

structure TagInv (ut : UasTag) : Prop where
  running : ut.state = .running → 0 < armed ut
  counted : ut.state = .running → ut.outstanding = armed ut
  idle : ut.state ≠ .running → Quiet ut
  status_busy : ut.statusArmed = true → ut.statusBusy = true
  data_busy : ut.dataArmed = true → ut.dataBusy = true

theorem TagInv.of_idle (hs : ut.state ≠ .running) (hq : Quiet ut) : TagInv ut where
  running := fun h => absurd h hs
  counted := fun h => absurd h hs
  idle := fun _ => hq
  status_busy := fun h => by rw [hq.1] at h; cases h
  data_busy := fun h => by rw [hq.2] at h; cases h

theorem finalize_idle (ut : UasTag) (w : Wire) (ioerr : ℤ) :
    (nUasFinalizeTag ut w ioerr).1.state ≠ .running := by
  simp only [nUasFinalizeTag]
  split <;> exact nofun

theorem finalize_inv {ioerr : ℤ} (hq : Quiet ut) : TagInv (nUasFinalizeTag ut w ioerr).1 :=
  .of_idle (finalize_idle ut w ioerr) hq

@[simp] theorem finalize_tag (ioerr : ℤ) : (nUasFinalizeTag ut w ioerr).1.tag = ut.tag := rfl

theorem abortArmed_quiet (ut : UasTag) (w : Wire) : Quiet (nUasTagAbortArmed ut w).1 := by
  unfold nUasTagAbortArmed
  cases hs : ut.statusArmed <;> cases hd : ut.dataArmed <;>
    simp [Quiet, abortStatus, abortData, hs, hd]

@[simp] theorem abortArmed_tag : (nUasTagAbortArmed ut w).1.tag = ut.tag := by
  unfold nUasTagAbortArmed
  cases hs : ut.statusArmed <;> cases hd : ut.dataArmed <;> simp [abortStatus, abortData, hs, hd]

theorem submitChunk_spec (hr : ut.state = .running)
    (hq : min ut.remain maxtrans = 0 → ut.dataArmed = false) :
    ((nUasSubmitChunk maxtrans ut w).1 ≠ 0 → Quiet (nUasSubmitChunk maxtrans ut w).2.1) ∧
      ((nUasSubmitChunk maxtrans ut w).1 = 0 → TagInv (nUasSubmitChunk maxtrans ut w).2.1) := by
  simp only [nUasSubmitChunk]
  split
  · exact ⟨fun _ => abortArmed_quiet _ _, fun h => absurd h (by assumption)⟩
  · refine ⟨fun h => absurd rfl h, fun _ => ?_⟩
    by_cases hd : min ut.remain maxtrans = 0
    · constructor <;> simp [armChunk, armed, hd, hr, hq hd]
    · constructor <;> simp [armChunk, armed, hd, hr, uword]

@[simp] theorem submitChunk_tag : (nUasSubmitChunk maxtrans ut w).2.1.tag = ut.tag := by
  simp only [nUasSubmitChunk]
  split
  · rw [abortArmed_tag]
    simp only [armChunk]
    split <;> rfl
  · simp only [armChunk]
    split <;> rfl

theorem submit_inv (hr : ut.state = .running)
    (hq : min ut.remain maxtrans = 0 → ut.dataArmed = false) :
    TagInv (if (nUasSubmitChunk maxtrans ut w).1 ≠ 0 then
      nUasFinalizeTag (nUasSubmitChunk maxtrans ut w).2.1 (nUasSubmitChunk maxtrans ut w).2.2
        HFERR_Phase
      else (nUasSubmitChunk maxtrans ut w).2).1 := by
  obtain ⟨hfailed, hsent⟩ := @submitChunk_spec ut w maxtrans hr hq
  split
  · exact finalize_inv (hfailed (by assumption))
  · exact hsent (not_not.mp (by assumption))

theorem submit_tag :
    (if (nUasSubmitChunk maxtrans ut w).1 ≠ 0 then
      nUasFinalizeTag (nUasSubmitChunk maxtrans ut w).2.1 (nUasSubmitChunk maxtrans ut w).2.2
        HFERR_Phase
      else (nUasSubmitChunk maxtrans ut w).2).1.tag = ut.tag := by
  split <;> simp

theorem chunkDone_inv (hr : ut.state = .running) (hq : Quiet ut) :
    TagInv (chunkDone maxtrans ut w).1 := by
  unfold chunkDone
  split
  · exact finalize_inv hq
  split
  · exact finalize_inv hq
  split
  · exact finalize_inv hq
  have hr' : (nUasAdvanceChunk ut).2.state = .running := hr
  have hq' : Quiet (nUasAdvanceChunk ut).2 := hq
  generalize nUasAdvanceChunk ut = advanced at *
  obtain ⟨more, ut⟩ := advanced
  cases more with
  | false => exact finalize_inv hq'
  | true => exact submit_inv hr' fun _ => hq'.2

theorem chunkDone_tag : (chunkDone maxtrans ut w).1.tag = ut.tag := by
  unfold chunkDone
  split
  · rfl
  split
  · rfl
  split
  · rfl
  have ht : (nUasAdvanceChunk ut).2.tag = ut.tag := rfl
  rw [← ht]
  generalize nUasAdvanceChunk ut = advanced
  obtain ⟨more, ut⟩ := advanced
  cases more with
  | false => rfl
  | true => exact submit_tag

/-- What is left of a running tag after one of its pipes has been collected. -/
structure Collected (ut ut' : UasTag) : Prop where
  tag : ut'.tag = ut.tag
  state : ut'.state = ut.state
  outstanding : ut'.outstanding = ut.outstanding
  armed : armed ut = armed ut' + 1
  status_busy : ut'.statusArmed = true → ut'.statusBusy = true
  data_busy : ut'.dataArmed = true → ut'.dataBusy = true

theorem statusDone_collected (h : TagInv ut) (ha : ut.statusArmed = true) :
    Collected ut (statusDone ut w).1 := by
  simp only [statusDone]
  split
  · constructor <;> simp [armed, ha]
    · omega
    · exact h.data_busy
  · constructor <;> simp [armed, ha]
    · omega
    · exact h.data_busy

theorem dataDone_collected (h : TagInv ut) (ha : ut.dataArmed = true) :
    Collected ut (dataDone ut w).1 := by
  constructor <;> simp [dataDone, armed, ha]
  exact h.status_busy

theorem armed_le (ut : UasTag) : armed ut ≤ 2 := by
  have hs := Bool.toNat_le ut.statusArmed
  have hd := Bool.toNat_le ut.dataArmed
  unfold armed
  omega

theorem quiet_of_armed (h : armed ut = 0) : Quiet ut := by
  unfold armed at h
  constructor
  · cases hs : ut.statusArmed <;> simp [hs] at h ⊢
  · cases hd : ut.dataArmed <;> simp [hd] at h ⊢

theorem Collected.counted {ut' : UasTag} (hcol : Collected ut ut') (h : TagInv ut)
    (hr : ut.state = .running) : usub ut'.outstanding 1 = Uas.armed ut' := by
  have harmed := hcol.armed
  have hle := armed_le ut
  have hcount := hcol.outstanding.trans (h.counted hr)
  rw [usub_of_le (by omega) (by omega)]
  omega

theorem collected_inv (hr : ut.state = .running) (hout : ut.outstanding = armed ut)
    (hs : ut.statusArmed = true → ut.statusBusy = true)
    (hd : ut.dataArmed = true → ut.dataBusy = true) :
    TagInv (if ut.outstanding ≠ 0 then (ut, w) else chunkDone maxtrans ut w).1 ∧
      (if ut.outstanding ≠ 0 then (ut, w) else chunkDone maxtrans ut w).1.tag = ut.tag := by
  split
  · refine ⟨⟨fun _ => ?_, fun _ => hout, fun h => absurd hr h, hs, hd⟩, rfl⟩
    simp only
    omega
  · exact ⟨chunkDone_inv hr (quiet_of_armed (by omega)), chunkDone_tag⟩

theorem pipeDone_inv {is_status : Bool} (h : TagInv ut) (hr : ut.state = .running)
    (ha : (if is_status then ut.statusArmed else ut.dataArmed) = true) :
    TagInv (nUasTagPipeDone maxtrans is_status ut w).1 ∧
      (nUasTagPipeDone maxtrans is_status ut w).1.tag = ut.tag := by
  have hcol : Collected ut (if is_status then statusDone ut w else dataDone ut w).1 := by
    cases is_status with
    | true => exact statusDone_collected h ha
    | false => exact dataDone_collected h ha
  unfold nUasTagPipeDone
  generalize (if is_status then statusDone ut w else dataDone ut w) = done at *
  obtain ⟨ut', w', ioerr⟩ := done
  have hout := hcol.counted h hr
  have hr' : ut'.state = .running := hcol.state.trans hr
  rw [← hcol.tag]
  simp only
  generalize (!nUasErrForgiven ioerr && !ut'.failed) = failed
  cases failed with
  | true | false => exact collected_inv hr' hout hcol.status_busy hcol.data_busy

theorem kill_inv (h : TagInv ut) :
    TagInv (killTag ut w).1 ∧ (killTag ut w).1.tag = ut.tag ∧
      (killTag ut w).1.state ≠ .running ∧ (ut.state ≠ .running → (killTag ut w).1 = ut) := by
  unfold killTag
  split
  · rename_i hr
    have hq := abortArmed_quiet ut w
    exact ⟨finalize_inv hq, abortArmed_tag, finalize_idle _ _ _, fun hne => absurd hr hne⟩
  · rename_i hr
    exact ⟨h, rfl, hr, fun _ => rfl⟩

theorem submitTag_inv {ioreq length : ℕ} {isRead : Bool} (h : TagInv ut) (hf : ut.state = .free) :
    TagInv (nUasSubmitTag maxtrans ioreq length isRead ut w).1 ∧
      (nUasSubmitTag maxtrans ioreq length isRead ut w).1.tag = ut.tag := by
  have hq : Quiet ut := h.idle (by rw [hf]; exact nofun)
  exact ⟨submit_inv rfl fun _ => hq.2, submit_tag⟩

theorem doCommand_inv (dataLen : ℕ) (ut : UasTag) (w : Wire) :
    TagInv (nUasDoCommand dataLen ut w).2.1 ∧ (nUasDoCommand dataLen ut w).2.1.tag = ut.tag := by
  simp only [nUasDoCommand]
  split
  · exact ⟨.of_idle (finalize_idle _ _ 0) ⟨rfl, rfl⟩, rfl⟩
  split
  · exact ⟨.of_idle (finalize_idle _ _ 0) ⟨rfl, rfl⟩, rfl⟩
  split
  · exact ⟨.of_idle (finalize_idle _ _ 0) ⟨rfl, rfl⟩, rfl⟩
  · exact ⟨.of_idle (finalize_idle _ _ 0) ⟨rfl, rfl⟩, rfl⟩

structure TagsInv (tags : List UasTag) : Prop where
  numbers : (tags.map UasTag.tag).Nodup
  tag : ∀ ut ∈ tags, TagInv ut

variable {tags : List UasTag} {tag : ℕ}

variable {g : UasTag → UasTag}

theorem TagsInv.map (h : TagsInv tags)
    (hg : ∀ ut ∈ tags, TagInv ut → TagInv (g ut) ∧ (g ut).tag = ut.tag) : TagsInv (tags.map g) := by
  constructor
  · have hsame : (tags.map g).map UasTag.tag = tags.map UasTag.tag := by
      rw [map_map]
      exact map_congr_left fun ut hut => (hg ut hut (h.tag ut hut)).2
    rw [hsame]
    exact h.numbers
  · intro ut' hut'
    obtain ⟨ut, hut, rfl⟩ := mem_map.mp hut'
    exact (hg ut hut (h.tag ut hut)).1

theorem TagsInv.modify (h : TagsInv tags)
    (hg : ∀ ut ∈ tags, ut.tag = tag → TagInv ut → TagInv (g ut) ∧ (g ut).tag = ut.tag) :
    TagsInv (modify UasTag.tag tag g tags) := by
  refine h.map fun ut hut hi => ?_
  split
  · exact hg ut hut (by assumption) hi
  · exact ⟨hi, rfl⟩

theorem noTags_inv : TagsInv [] where
  numbers := nodup_nil
  tag := fun _ hut => absurd hut not_mem_nil

theorem freshTag_inv (tag : ℕ) : TagInv (freshTag tag) := .of_idle nofun ⟨rfl, rfl⟩

theorem freshTags_inv (qd : ℕ) : TagsInv ((range' 1 qd).map freshTag) := by
  constructor
  · rw [map_map]
    exact List.Nodup.map (fun _ _ h => h) nodup_range'
  · intro ut hut
    obtain ⟨tag, -, rfl⟩ := mem_map.mp hut
    exact freshTag_inv tag

namespace Ncm

variable {s t : Ncm} {pipe : Pipe}

def Lent (s : Ncm) : Pipe → Prop
  | .status tag => ∃ ut ∈ s.tags, ut.tag = tag ∧ ut.state = .free
  | .data _ => False
  | .tm => True

def Busy (s : Ncm) : Pipe → Prop
  | .status tag => ∃ ut ∈ s.tags, ut.tag = tag ∧ ut.statusBusy = true
  | .data tag => ∃ ut ∈ s.tags, ut.tag = tag ∧ ut.dataBusy = true
  | .tm => s.tmBusy = true

structure Inv (s : Ncm) : Prop where
  tags : TagsInv s.tags
  lent : ∀ pipe, s.tmArmed = some pipe → s.Lent pipe
  busy : ∀ pipe, s.tmArmed = some pipe → s.Busy pipe

theorem Inv.of_unarmed (h : TagsInv s.tags) (ha : s.tmArmed = none) : s.Inv where
  tags := h
  lent := fun _ hp => by rw [ha] at hp; cases hp
  busy := fun _ hp => by rw [ha] at hp; cases hp

theorem Inv.of_tags (h : s.Inv) (ht : TagsInv t.tags) (ha : t.tmArmed = s.tmArmed)
    (hb : t.tmBusy = s.tmBusy)
    (hl : ∀ ut ∈ s.tags, s.tmArmed = some (.status ut.tag) → ut.state = .free →
      ∃ ut' ∈ t.tags, ut'.tag = ut.tag ∧ ut'.state = .free ∧ ut'.statusBusy = ut.statusBusy) :
    t.Inv := by
  refine ⟨ht, fun pipe hp => ?_, fun pipe hp => ?_⟩
  · rw [ha] at hp
    cases pipe with
    | status tag =>
      obtain ⟨ut, hut, rfl, hfree⟩ := h.lent _ hp
      obtain ⟨ut', hut', htag, hfree', -⟩ := hl ut hut hp hfree
      exact ⟨ut', hut', htag, hfree'⟩
    | data tag => exact h.lent _ hp
    | tm => trivial
  · rw [ha] at hp
    cases pipe with
    | status tag =>
      obtain ⟨ut, hut, rfl, hfree⟩ := h.lent _ hp
      obtain ⟨ut₁, hut₁, htag₁, hbusy⟩ := h.busy _ hp
      obtain rfl := eq_of_key h.tags.numbers hut hut₁ htag₁.symm
      obtain ⟨ut', hut', htag, -, hbusy'⟩ := hl ut hut hp hfree
      exact ⟨ut', hut', htag, hbusy'.trans hbusy⟩
    | data tag => exact absurd (h.lent _ hp) id
    | tm => exact hb.trans (h.busy _ hp)

variable {f : UasTag → Wire → UasTag × Wire}

@[simp] theorem onTag_tmArmed : (s.onTag tag f).tmArmed = s.tmArmed := by
  unfold onTag
  split <;> rfl

@[simp] theorem onTag_tmBusy : (s.onTag tag f).tmBusy = s.tmBusy := by
  unfold onTag
  split <;> rfl

@[simp] theorem onTag_checks : (s.onTag tag f).checks = s.checks := by
  unfold onTag
  split <;> rfl

theorem onTag_tags (h : TagsInv s.tags) :
    (s.onTag tag f).tags =
      modify UasTag.tag tag (fun ut => (f ut s.wire).1) s.tags := by
  unfold onTag
  split
  · rename_i ut hf
    obtain ⟨hut, htag⟩ := (find_key_iff h.numbers).mp hf
    refine map_congr_left fun ut' hut' => ?_
    split
    · rename_i htag'
      obtain rfl := eq_of_key h.numbers hut hut' (htag.trans htag'.symm)
      rfl
    · rfl
  · rename_i hf
    refine (map_id' s.tags).symm.trans (map_congr_left fun ut hut => ?_)
    rw [if_neg]
    intro htag
    simpa [htag] using find?_eq_none.mp hf ut hut

theorem onTag_keeps : (s.onTag tag f).tmTag = s.tmTag ∧ (s.onTag tag f).tmArmed = s.tmArmed ∧
    (s.onTag tag f).tmOwnTag = s.tmOwnTag ∧ (s.onTag tag f).tmTargetTag = s.tmTargetTag := by
  unfold onTag
  split <;> exact ⟨rfl, rfl, rfl, rfl⟩

variable {ut ut' : UasTag}

theorem onTag_wire (h : TagsInv s.tags) (hut : ut ∈ s.tags) :
    (s.onTag ut.tag f).wire = (f ut s.wire).2 := by
  unfold onTag
  rw [find_key h.numbers hut]

theorem onTag_none (hn : ∀ ut ∈ s.tags, ut.tag ≠ tag) : s.onTag tag f = s := by
  unfold onTag
  have : s.tags.find? (fun ut => ut.tag = tag) = none :=
    find?_eq_none.mpr fun ut hut => by simpa using hn ut hut
  rw [this]

theorem onTag_numbers (h : TagsInv s.tags)
    (hf : ∀ ut ∈ s.tags, ut.tag = tag → (f ut s.wire).1.tag = ut.tag) :
    (s.onTag tag f).numbers = s.numbers := by
  unfold numbers
  rw [onTag_tags h]
  exact map_modify hf

theorem onTag_tagsInv (h : TagsInv s.tags)
    (hf : ∀ ut ∈ s.tags, ut.tag = tag → TagInv ut →
      TagInv (f ut s.wire).1 ∧ (f ut s.wire).1.tag = ut.tag) : TagsInv (s.onTag tag f).tags := by
  rw [onTag_tags h]
  exact h.modify hf

theorem onTag_inv (h : s.Inv)
    (hf : ∀ ut ∈ s.tags, ut.tag = tag → TagInv ut →
      TagInv (f ut s.wire).1 ∧ (f ut s.wire).1.tag = ut.tag)
    (hl : ∀ ut ∈ s.tags, ut.tag = tag → s.tmArmed = some (.status ut.tag) → ut.state = .free →
      (f ut s.wire).1 = ut) : (s.onTag tag f).Inv := by
  refine h.of_tags (onTag_tagsInv h.tags hf) onTag_tmArmed onTag_tmBusy fun ut hut hp hfree => ?_
  refine ⟨ut, ?_, rfl, hfree, rfl⟩
  rw [onTag_tags h.tags, mem_modify]
  refine ⟨ut, hut, ?_⟩
  split
  · exact (hl ut hut (by assumption) hp hfree).symm
  · rfl

theorem devAbortIo_inv (h : s.Inv) (ioreqs : List ℕ) : (s.devAbortIo ioreqs).Inv := by
  refine h.of_tags (h.tags.map fun ut _ hi => ?_) rfl rfl fun ut hut _ hfree => ?_
  · split
    · exact ⟨⟨hi.running, hi.counted, hi.idle, hi.status_busy, hi.data_busy⟩, rfl⟩
    · exact ⟨hi, rfl⟩
  · refine ⟨_, mem_map_of_mem hut, ?_⟩
    simp [hfree]

theorem psdCheckPipe_inv (h : s.Inv) : s.psdCheckPipe.2.Inv := by
  unfold psdCheckPipe
  split
  · exact h
  · have h' := devAbortIo_inv h (by assumption : Check).abortIo
    exact ⟨h'.tags, h'.lent, h'.busy⟩

theorem psdCheckPipe_tmArmed : s.psdCheckPipe.2.tmArmed = s.tmArmed := by
  unfold psdCheckPipe
  split <;> rfl

theorem nUasProcessAborts_inv (h : s.Inv) : s.nUasProcessAborts.Inv := by
  refine foldlRecOn _ _ h fun s h tag _ => onTag_inv h ?_ ?_
  · exact fun ut _ _ hi => ⟨hi, rfl⟩
  · exact fun ut _ _ _ _ => rfl

theorem devAbortIo_find (ioreqs : List ℕ) (h : ut' ∈ (s.devAbortIo ioreqs).tags) :
    ∃ ut ∈ s.tags, ut'.tag = ut.tag ∧ ut'.state = ut.state ∧
      ut'.statusArmed = ut.statusArmed ∧ ut'.dataArmed = ut.dataArmed := by
  obtain ⟨ut, hut, rfl⟩ := mem_map.mp h
  refine ⟨ut, hut, ?_⟩
  split <;> exact ⟨rfl, rfl, rfl, rfl⟩

theorem psdCheckPipe_find (h : ut' ∈ s.psdCheckPipe.2.tags) :
    ∃ ut ∈ s.tags, ut'.tag = ut.tag ∧ ut'.state = ut.state ∧
      ut'.statusArmed = ut.statusArmed ∧ ut'.dataArmed = ut.dataArmed := by
  unfold psdCheckPipe at h
  split at h
  · exact ⟨ut', h, rfl, rfl, rfl, rfl⟩
  · exact devAbortIo_find _ h

def Armed (is_status : Bool) (ut : UasTag) : Prop :=
  ut.state = .running ∧ (if is_status then ut.statusArmed else ut.dataArmed) = true

theorem pipeDone_onTag_inv (h : s.Inv) (is_status : Bool)
    (ha : ∀ ut ∈ s.tags, ut.tag = tag → Armed is_status ut) :
    (s.onTag tag (nUasTagPipeDone s.maxTrans is_status)).Inv := by
  refine onTag_inv h (fun ut hut htag hi => ?_) fun ut hut htag _ hfree => ?_
  · exact pipeDone_inv hi (ha ut hut htag).1 (ha ut hut htag).2
  · rw [(ha ut hut htag).1] at hfree
    cases hfree

theorem psdCheckPipe_keeps (h : s.Inv) (hut : ut ∈ s.tags) {is_status : Bool}
    (ha : Armed is_status ut) (hut' : ut' ∈ s.psdCheckPipe.2.tags)
    (ht : ut'.tag = ut.tag) : Armed is_status ut' := by
  obtain ⟨ut₀, hut₀, h₁, h₂, h₃, h₄⟩ := psdCheckPipe_find hut'
  obtain rfl := eq_of_key h.tags.numbers hut hut₀ (ht.symm.trans h₁)
  unfold Armed
  rw [h₂, h₃, h₄]
  exact ha

/-- All that the reaping of one pipe can do. -/
theorem reapPipe_cases (s : Ncm) (is_status : Bool) (tag : ℕ) :
    s.reapPipe is_status tag = (s, false) ∨ s.reapPipe is_status tag = (s.psdCheckPipe.2, false) ∨
    s.psdCheckPipe.1 = true ∧
      s.reapPipe is_status tag =
        (s.psdCheckPipe.2.onTag tag (nUasTagPipeDone s.psdCheckPipe.2.maxTrans is_status), true) ∧
      (s.Inv → ∀ ut ∈ s.psdCheckPipe.2.tags, ut.tag = tag → Armed is_status ut) := by
  unfold reapPipe
  cases hf : s.tags.find? fun ut => ut.tag = tag with
  | none => exact .inl rfl
  | some ut =>
    simp only
    by_cases hr : ut.state = .running ∧ (if is_status then ut.statusArmed else ut.dataArmed) = true
    · rw [if_pos hr]
      cases s.psdCheckPipe.1 with
      | false => exact .inr (.inl rfl)
      | true =>
        refine .inr (.inr ⟨rfl, rfl, fun hi ut' hut' htag' => ?_⟩)
        obtain ⟨hut, htag⟩ := (find_key_iff hi.tags.numbers).mp hf
        exact psdCheckPipe_keeps hi hut hr hut' (htag'.trans htag.symm)
    · rw [if_neg hr]
      exact .inl rfl

theorem reapPipe_inv (h : s.Inv) (is_status : Bool) (tag : ℕ) :
    (s.reapPipe is_status tag).1.Inv := by
  obtain hs | hs | ⟨-, hs, harmed⟩ := reapPipe_cases s is_status tag <;> rw [hs]
  · exact h
  · exact psdCheckPipe_inv h
  · exact pipeDone_onTag_inv (psdCheckPipe_inv h) is_status (harmed h)

theorem reapPass_inv (h : s.Inv) : s.reapPass.1.Inv := by
  refine foldlRecOn (motive := fun (p : Ncm × Bool) => p.1.Inv) _ _ h fun p hp tag _ => ?_
  exact reapPipe_inv (reapPipe_inv hp true tag) false tag

theorem nUasReapTags_inv (fuel : ℕ) (h : s.Inv) (hs : s.nUasReapTags fuel = some t) : t.Inv := by
  induction fuel generalizing s with
  | zero => cases hs
  | succ fuel ih =>
    have hp := reapPass_inv h
    simp only [nUasReapTags] at hs
    split at hs
    · exact ih hp hs
    · cases hs
      exact hp

theorem killTag_running (h : TagsInv s.tags)
    (hut : ut ∈ (s.onTag tag killTag).tags) (hr : ut.state = .running) :
    ut ∈ s.tags ∧ ut.tag ≠ tag := by
  rw [onTag_tags h, mem_modify] at hut
  obtain ⟨ut', hut', rfl⟩ := hut
  split at hr
  · exact absurd hr (kill_inv (h.tag ut' hut')).2.2.1
  · rename_i hne
    rw [if_neg hne]
    exact ⟨hut', hne⟩

theorem killTags_spec (numbers : List ℕ) (s : Ncm) (h : TagsInv s.tags) :
    TagsInv (numbers.foldl (fun s tag => s.onTag tag killTag) s).tags ∧
      (numbers.foldl (fun s tag => s.onTag tag killTag) s).tmArmed = s.tmArmed ∧
      ∀ ut ∈ (numbers.foldl (fun s tag => s.onTag tag killTag) s).tags, ut.state = .running →
        ut ∈ s.tags ∧ ut.tag ∉ numbers := by
  induction numbers generalizing s with
  | nil => exact ⟨h, rfl, fun ut hut _ => ⟨hut, not_mem_nil⟩⟩
  | cons tag numbers ih =>
    have h₁ : TagsInv (s.onTag tag killTag).tags :=
      onTag_tagsInv h fun ut _ _ hi => ⟨(kill_inv hi).1, (kill_inv hi).2.1⟩
    obtain ⟨hinv, harmed, hrun⟩ := ih _ h₁
    refine ⟨hinv, harmed.trans onTag_tmArmed, fun ut hut hr => ?_⟩
    obtain ⟨hut₁, hnot⟩ := hrun ut hut hr
    obtain ⟨hut₀, hne⟩ := killTag_running h hut₁ hr
    exact ⟨hut₀, not_mem_cons_of_ne_of_not_mem hne hnot⟩

theorem nUasKillAllTags_spec (h : TagsInv s.tags) :
    TagsInv s.nUasKillAllTags.tags ∧ s.nUasKillAllTags.tmArmed = s.tmArmed ∧
      ∀ ut ∈ s.nUasKillAllTags.tags, ut.state ≠ .running := by
  obtain ⟨hinv, harmed, hrun⟩ := killTags_spec s.numbers s h
  refine ⟨hinv, harmed, fun ut hut hr => ?_⟩
  obtain ⟨hut₀, hnot⟩ := hrun ut hut hr
  exact hnot (mem_map_of_mem hut₀)

theorem setBusy_tags (h : TagsInv s.tags) (hl : s.Lent pipe) (busy : Bool) :
    TagsInv (s.setBusy pipe busy).tags := by
  cases pipe with
  | status tag =>
    obtain ⟨ut, hut, rfl, hfree⟩ := hl
    refine h.modify fun ut' hut' htag' hi => ?_
    obtain rfl := eq_of_key h.numbers hut' hut htag'
    have hidle : ut'.state ≠ .running := by
      rw [hfree]
      exact nofun
    exact ⟨.of_idle hidle (hi.idle hidle), rfl⟩
  | data tag => exact absurd hl id
  | tm => exact h

theorem setBusy_wire (busy : Bool) : (s.setBusy pipe busy).wire = s.wire := by
  cases pipe <;> rfl

theorem nUasAbortAndWait_tags (h : TagsInv s.tags) (hl : s.Lent pipe) :
    TagsInv (s.nUasAbortAndWait pipe).tags := setBusy_tags h hl false

theorem release_inv (h : TagInv ut) (hs : ut.state = .quarantine) :
    TagInv (nUasReleaseTag ut) :=
  .of_idle nofun (h.idle (by rw [hs]; exact nofun))

structure Drained (s : Ncm) : Prop where
  tags : TagsInv s.tags
  unarmed : s.tmArmed = none
  free : ∀ ut ∈ s.tags, ut.state = .free

theorem Drained.inv (h : s.Drained) : s.Inv := .of_unarmed h.tags h.unarmed

theorem nUasInitTags_drained (s : Ncm) (st : Streams) : (s.nUasInitTags st).1.Drained := by
  unfold nUasInitTags
  simp only
  split
  · refine ⟨freshTags_inv _, rfl, fun ut hut => ?_⟩
    obtain ⟨tag, -, rfl⟩ := mem_map.mp hut
    rfl
  · exact ⟨noTags_inv, rfl, fun ut hut => absurd hut not_mem_nil⟩

theorem nUasInitTags_wire (s : Ncm) (st : Streams) : (s.nUasInitTags st).1.wire = s.wire := by
  unfold nUasInitTags
  simp only
  split <;> rfl

theorem resetDevice_drained (h : TagsInv s.tags) (ha : s.tmArmed = none)
    (hr : ∀ ut ∈ s.tags, ut.state ≠ .running) : s.resetDevice.Drained := by
  have hsame : s.psdResetDevice.2.tags = s.tags ∧ s.psdResetDevice.2.tmArmed = s.tmArmed := by
    unfold psdResetDevice
    split <;> exact ⟨rfl, rfl⟩
  unfold resetDevice
  generalize s.psdResetDevice = reset at *
  obtain ⟨_ | st, s'⟩ := reset
  · constructor
    · rw [← hsame.1] at h
      refine h.map fun ut _ hi => ?_
      split
      · exact ⟨release_inv hi (by assumption), rfl⟩
      · exact ⟨hi, rfl⟩
    · exact hsame.2.trans ha
    · intro ut' hut'
      obtain ⟨ut, hut, rfl⟩ := mem_map.mp hut'
      rw [hsame.1] at hut
      split
      · rfl
      · cases hs : ut.state <;> simp_all
  · have hd := nUasInitTags_drained { s' with wire := s'.wire.pass (.reset true) } st
    simp only
    split
    · exact hd
    · exact ⟨hd.tags, hd.unarmed, hd.free⟩

theorem nUasEscalateReset_drained (h : TagsInv s.tags)
    (hl : ∀ pipe, s.tmArmed = some pipe → s.Lent pipe) : s.nUasEscalateReset.Drained := by
  have hkill : ∀ s' : Ncm, TagsInv s'.tags → s'.tmArmed = none →
      s'.nUasKillAllTags.resetDevice.Drained := by
    intro s' h' ha'
    obtain ⟨hinv, harmed, hrun⟩ := nUasKillAllTags_spec h'
    exact resetDevice_drained hinv (harmed.trans ha') hrun
  unfold nUasEscalateReset
  cases ha : s.tmArmed with
  | none => exact hkill _ h ha
  | some pipe => exact hkill _ (nUasAbortAndWait_tags h (hl pipe ha)) rfl

end Ncm

end Uas

end Neptune
