import Neptune.Spec.PatchFlags
import Neptune.Lib.Run

/-! A learned flag is kept as long as the LUN that stores the record has learned all the others too. -/

namespace Neptune.PatchFlags

open Runs NepMSBase Option Function BitVec

variable {η κ : Type} {overlay : κ → κ → κ} {nh : NepMSBase η κ} {ncm : NepClassMS η κ}
  {s t : Learning η κ} {pic : DevCfg κ} {mem : StoreMem} {a b flag : ULONG} {i : ℕ} {enable : Bool} {d : η}

def Covers (b a : ULONG) : Prop := a &&& b = a

instance (b a : ULONG) : Decidable (Covers b a) := by
  unfold Covers
  infer_instance

theorem covers_iff : Covers b a ↔ ∀ p < 32, a.getLsbD p = true → b.getLsbD p = true := by
  unfold Covers
  constructor
  · intro h p _ ha
    rw [← h, getLsbD_and, Bool.and_eq_true] at ha
    exact ha.2
  · intro h
    apply eq_of_getLsbD_eq
    intro p hp
    rw [getLsbD_and]
    cases ha : a.getLsbD p with
    | false => rfl
    | true => rw [h p hp ha, Bool.and_true]

theorem covers_zero : Covers b 0 := zero_and

theorem zero_covers : Covers 0 a ↔ a = 0 := by
  unfold Covers
  rw [show a &&& (0 : ULONG) = 0 from and_zero]
  exact eq_comm

theorem Covers.or (h : Covers b a) (c : ULONG) : Covers (b ||| c) a := by
  rw [covers_iff] at h ⊢
  intro p hp ha
  rw [getLsbD_or, h p hp ha, Bool.true_or]

def changed (pf flag : ULONG) (enable : Bool) : ULONG := if enable then pf ||| flag else pf &&& ~~~flag

/-- The flags after the change have all that is learned then, if and only if they had the rest of it
before. -/
theorem covers_remember (pf learned flag : ULONG) (enable : Bool) :
    Covers (changed pf flag enable) (remember learned flag enable) ↔ Covers pf (learned &&& ~~~flag) := by
  simp only [covers_iff, remember, changed]
  apply forall₂_congr
  intro p hp
  cases enable <;>
    simp only [Bool.false_eq_true, if_false, if_true, getLsbD_and, getLsbD_or, getLsbD_not,
      decide_eq_true hp, Bool.true_and] <;>
    cases pf.getLsbD p <;> cases learned.getLsbD p <;> cases flag.getLsbD p <;> decide

def stored (nh : NepMSBase η κ) (d : η) : ULONG := ((nh.cfg d).bind (·.cdc)).getD 0

def written (nh : NepMSBase η κ) (d : η) (mem : StoreMem) : Bool := mem.device && (mem.form || (nh.cfg d).isSome)

theorem cdc_foldl (luns : List (NepClassMS η κ)) (pic : DevCfg κ) (mem : StoreMem) :
    (luns.foldl (fun pic cncm => pic.addUnit mem cncm) pic).cdc = pic.cdc := by
  induction luns generalizing pic with
  | nil => rfl
  | cons lun luns ih => exact ih _

def Remembered (s : Learning η κ) : Prop := ∀ d, Covers (stored s.nh d) (s.learned d)

def Rebound (overlay : κ → κ → κ) (s : Learning η κ) : Prop :=
  ∀ ncm ∈ s.nh.units, ncm.guiTask = false → ∀ mem : LoadMem, mem.library = true → mem.device = true →
    Covers (s.nh.nLoadBindingConfig overlay mem ncm).patchFlags (s.learned ncm.id)

theorem Remembered.rebound (h : Remembered s) (overlay : κ → κ → κ) : Rebound overlay s := by
  intro ncm _ hgui mem hlibrary hdevice
  have hcovers := h ncm.id
  unfold stored at hcovers
  unfold nLoadBindingConfig
  simp only [hgui, hlibrary, hdevice, Bool.false_eq_true, if_false, if_true, Bool.not_true]
  apply Covers.or
  cases hcdc : (s.nh.cfg ncm.id).bind (·.cdc) with
  | none =>
    rw [hcdc] at hcovers
    rw [zero_covers.mp hcovers]
    exact covers_zero
  | some flags =>
    rw [hcdc] at hcovers
    dsimp only
    split <;> exact hcovers

/-- What a step may come upon. A LUN that stores the record has to have all that is learned in its own
copy, but for the flag that it changes; and if there is no memory for the record, nothing may be learned. -/
def Keeps (s : Learning η κ) : Event κ → Prop
  | .configChanged _ _ _ => True
  | .applyFallback i flag enable mem =>
    ∀ ncm, s.nh.units[i]? = some ncm → (ncm.nTryFallback flag enable).1 = true →
      if written s.nh ncm.id mem then Covers ncm.patchFlags (s.learned ncm.id &&& ~~~flag)
      else remember (s.learned ncm.id) flag enable = 0

theorem nTryFallback_cases (ncm : NepClassMS η κ) (flag : ULONG) (enable : Bool) :
    (ncm.nTryFallback flag enable).1 = false ∨
      ∃ ncm', ncm.nTryFallback flag enable = (true, ncm') ∧ ncm'.id = ncm.id ∧
        ncm'.patchFlags = changed ncm.patchFlags flag enable := by
  unfold NepClassMS.nTryFallback
  dsimp only
  by_cases hsame : (if enable then ncm.patchFlags &&& flag ≠ 0 else ncm.patchFlags &&& flag = 0)
  · exact .inl (by rw [if_pos hsame])
  rw [if_neg hsame]
  by_cases hrefused : ncm.patchFlags &&& PFF_NO_FALLBACK ≠ 0
  · exact .inl (by rw [if_pos hrefused])
  · rw [if_neg hrefused]
    exact .inr ⟨_, rfl, rfl, rfl⟩

variable [DecidableEq η]

theorem stored_nStoreConfig (hi : nh.units[i]? = some ncm) (hread : nh.cfgRead = true) (mem : StoreMem) :
    stored (nh.nStoreConfig i mem).1 ncm.id = if written nh ncm.id mem then ncm.patchFlags else 0 := by
  unfold nStoreConfig written
  rw [hi]
  simp only [hread, Bool.not_true, Bool.false_eq_true, if_false]
  cases hcfg : nh.cfg ncm.id with
  | none =>
    cases mem.form with
    | false => simp [stored, hcfg]
    | true => cases hdevice : mem.device <;> simp [stored, cdc_foldl, DevCfg.addDevice, hdevice]
  | some pic => cases hdevice : mem.device <;> simp [stored, cdc_foldl, DevCfg.addDevice, hdevice]

theorem stored_other (hi : nh.units[i]? = some ncm) (hd : d ≠ ncm.id) (mem : StoreMem) :
    stored (nh.nStoreConfig i mem).1 d = stored nh d := by
  unfold nStoreConfig
  rw [hi]
  dsimp only
  split
  · rfl
  split
  · rfl
  · simp [stored, hd]

theorem cfgRead_nStoreConfig (nh : NepMSBase η κ) (i : ℕ) (mem : StoreMem) :
    (nh.nStoreConfig i mem).1.cfgRead = nh.cfgRead := by
  unfold nStoreConfig
  split
  · rfl
  split
  · rfl
  split <;> rfl

theorem cfgRead_step {e : Event κ} (hread : s.nh.cfgRead = true) (hstep : step overlay s e = some t) :
    t.nh.cfgRead = true := by
  cases e with
  | configChanged patchFlags cuc mem =>
    obtain rfl := some.inj hstep
    exact hread
  | applyFallback i flag enable mem =>
    obtain ⟨ncm, hi, rfl⟩ := map_eq_some_iff.mp hstep
    unfold nApplyFallback
    rw [hi]
    dsimp only
    split
    · exact hread
    · exact (cfgRead_nStoreConfig _ i mem).trans hread

theorem remembered_store (h : Remembered s) (hcfg : nh.cfg = s.nh.cfg) (hi : nh.units[i]? = some ncm)
    (hid : ncm.id = d) (hread : nh.cfgRead = true) (mem : StoreMem) (l : ULONG) :
    Remembered ⟨(nh.nStoreConfig i mem).1, update s.learned d l⟩ ↔
      Covers (if written s.nh d mem then ncm.patchFlags else 0) l := by
  subst hid
  have hfine : written nh ncm.id mem = written s.nh ncm.id mem := by
    unfold written
    rw [hcfg]
  have hstored := stored_nStoreConfig hi hread mem
  rw [hfine] at hstored
  unfold Remembered
  dsimp only
  constructor
  · intro hall
    have hd := hall ncm.id
    rwa [update_self, hstored] at hd
  · intro hcovers d
    by_cases hd : d = ncm.id
    · rw [hd, update_self, hstored]
      exact hcovers
    · rw [update_of_ne hd, stored_other hi hd]
      unfold stored
      rw [hcfg]
      exact h d

/-- A step keeps the records complete if and only if it comes upon what it has to. -/
theorem step_remembered {e : Event κ} (hread : s.nh.cfgRead = true) (h : Remembered s)
    (hstep : step overlay s e = some t) : Remembered t ↔ Keeps s e := by
  cases e with
  | configChanged patchFlags cuc mem =>
    obtain rfl := some.inj hstep
    exact iff_of_true h trivial
  | applyFallback i flag enable mem =>
    obtain ⟨ncm, hi, rfl⟩ := map_eq_some_iff.mp hstep
    unfold Keeps nApplyFallback
    simp only [hi, some.injEq, forall_eq']
    rcases nTryFallback_cases ncm flag enable with hno | ⟨ncm', hyes, hid, hflags⟩
    · rw [hno]
      exact iff_of_true h nofun
    rw [hyes]
    dsimp only
    simp only [Bool.not_true, Bool.false_eq_true, if_false, if_true, true_implies]
    have hset : (s.nh.units.set i ncm')[i]? = some ncm' :=
      List.getElem?_set_self (List.getElem?_eq_some_iff.mp hi).1
    rw [remembered_store h (by rfl) (by exact hset) hid (by exact hread)]
    cases written s.nh ncm.id mem with
    | true =>
      rw [if_pos rfl, if_pos rfl, hflags]
      exact covers_remember _ _ _ _
    | false =>
      rw [if_neg Bool.false_ne_true, if_neg Bool.false_ne_true]
      exact zero_covers

/-- Along a run the record of each device has every flag that was learned and not taken back since, so that
each LUN starts with them, if, and only if, each LUN that stores the record has learned them all. -/
theorem quirks_kept (overlay : κ → κ → κ) (s : Learning η κ) (evs : List (Event κ))
    (hread : s.nh.cfgRead = true) (hnew : ∀ d, s.learned d = 0) :
    Always (step overlay) (fun _ _ t => Remembered t ∧ Rebound overlay t) s evs ↔
      Always (step overlay) (fun s e _ => Keeps s e) s evs := by
  have hstart : Remembered s := by
    intro d
    rw [hnew d]
    exact covers_zero
  have hinv : ∀ (s : Learning η κ) e t, s.nh.cfgRead = true ∧ Remembered s → step overlay s e = some t →
      (t.nh.cfgRead = true ∧ Remembered t ↔ Keeps s e) := by
    rintro s e t ⟨hread, h⟩ hstep
    exact (and_iff_right (cfgRead_step hread hstep)).trans (step_remembered hread h hstep)
  have hread' : ∀ (s : Learning η κ) e t, s.nh.cfgRead = true → step overlay s e = some t → t.nh.cfgRead = true :=
    fun _ _ _ => cfgRead_step
  rw [← Always.invariant_iff hinv ⟨hread, hstart⟩]
  apply Always.congr_invariant hread' _ hread
  intro s e t hread hstep
  exact ⟨fun h => ⟨hread' s e t hread hstep, h.1⟩, fun h => ⟨h.2, h.2.rebound overlay⟩⟩

def lun (n : ℕ) : NepClassMS Unit Unit where
  id := ()
  unitLUN := n
  unitLUN0 := 0
  vendorID := 0
  prodID := 0
  tpType := .bulk
  guiTask := false
  usingDefaultCfg := true
  patchFlags := 0
  cuc := ()
  fallbackAdvised := 0

def twoLuns : Learning Unit Unit where
  nh := { units := [lun 0, lun 1], patchFlags := 0, cuc := (), cfg := fun _ => none, cfgRead := true }
  learned := fun _ => 0

def learns (i : ℕ) (flag : ULONG) : Event Unit := .applyFallback i flag true ⟨true, true, fun _ => true⟩

def reload : Event Unit := .configChanged 0 () fun _ => ⟨true, true, true⟩

/-- The record is what LUN 1 knows: what LUN 0 learned is forgotten. -/
theorem quirk_forgotten :
    ((exec (step fun _ cuc => cuc) twoLuns [learns 0 PFF_SIMPLE_SCSI, learns 1 PFF_NO_RESET]).map fun t =>
      (stored t.nh (), t.learned ())) = some (PFF_NO_RESET, PFF_SIMPLE_SCSI ||| PFF_NO_RESET) ∧
    ¬ Always (step fun _ cuc => cuc) (fun _ _ t => Remembered t ∧ Rebound (fun _ cuc => cuc) t) twoLuns
      [learns 0 PFF_SIMPLE_SCSI, learns 1 PFF_NO_RESET] := by
  refine ⟨by decide, fun h => ?_⟩
  obtain ⟨-, h⟩ := h _ rfl
  obtain ⟨⟨hall, -⟩, -⟩ := h _ rfl
  exact absurd (hall ()) (by decide)

/-- With the record read again in between both are kept. -/
theorem quirks_kept_reload :
    Always (step fun _ cuc => cuc) (fun _ _ t => Remembered t ∧ Rebound (fun _ cuc => cuc) t) twoLuns
      [learns 0 PFF_SIMPLE_SCSI, reload, learns 1 PFF_NO_RESET] := by
  apply (quirks_kept (fun _ cuc => cuc) twoLuns _ rfl fun _ => rfl).mpr
  intro t ht
  cases ht
  refine ⟨?_, fun t ht => ?_⟩
  · intro ncm hncm _
    cases hncm
    exact if_pos rfl ▸ covers_zero
  cases ht
  refine ⟨trivial, fun t ht => ?_⟩
  cases ht
  refine ⟨?_, trivial⟩
  intro ncm hncm _
  cases hncm
  decide

end Neptune.PatchFlags
