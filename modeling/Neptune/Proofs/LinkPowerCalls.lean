import Neptune.Spec.LinkPower

/-! What an arm and a disarm do to a device: the bits an arm adds, those a disarm takes, and that a state set on the
wire has its bit. -/

namespace Neptune

open Option Finset

namespace LinkPower

variable {pd pd' pd'' : PsdDevice} {linkPowerMgmt : Bool} {bit : Pdlpmf} {request : Request}

/-! They change the record of what is armed, and nothing else of the device. -/

def Touched (pd pd' : PsdDevice) : Prop := pd' = { pd with lpmArmed := pd'.lpmArmed, issued := pd'.issued }

theorem Touched.refl (pd : PsdDevice) : Touched pd pd := rfl

section

variable (h : Touched pd pd')
include h

theorem Touched.trans (h' : Touched pd' pd'') : Touched pd pd'' := by
  rw [h] at h'
  exact h'

theorem Touched.wanted :
    pLinkPowerWanted linkPowerMgmt pd' = pLinkPowerWanted linkPowerMgmt pd := by
  rw [h]
  rfl

theorem Touched.hub : pd'.hub = pd.hub := by
  rw [h]

theorem Touched.handle : pd'.handle = pd.handle := by
  rw [h]

end

def onWire (hub : Bool) : Pdlpmf → Prop
  | .policy => False
  | .portU1 | .portU2 => hub = true
  | _ => True

def Kept (pd : PsdDevice) : Prop :=
  ∀ bit, live bit pd.issued = true → bit ∈ pd.lpmArmed ∧ onWire pd.hub bit

theorem live_cons {ok : Bool} {before : List Issued} (h : live bit (⟨request, ok⟩ :: before) = true) :
    request.clears bit = false ∧ (request.sets bit = true ∧ ok = true ∨ live bit before = true) := by
  simpa [live] using h

theorem Kept.attempt (h : Kept pd) (ok : Bool) (hsets : ∀ b, request.sets b = true → b = bit)
    (hwire : onWire pd.hub bit) :
    Kept (if ok then (pd.issue request ok).set bit else pd.issue request ok) := by
  intro b hb
  cases ok with
  | true =>
    obtain ⟨-, ⟨hset, -⟩ | hlive⟩ := live_cons hb
    · cases hsets b hset
      exact ⟨mem_insert_self _ _, hwire⟩
    · exact ⟨mem_insert_of_mem (h b hlive).1, (h b hlive).2⟩
  | false =>
    obtain ⟨-, ⟨-, hok⟩ | hlive⟩ := live_cons hb
    · cases hok
    · exact h b hlive

theorem Kept.issue (h : Kept pd) (ok : Bool) (hsets : ∀ b, request.sets b = false) : Kept (pd.issue request ok) := by
  intro b hb
  obtain ⟨-, ⟨hset, -⟩ | hlive⟩ := live_cons hb
  · rw [hsets b] at hset
    cases hset
  · exact h b hlive

theorem Kept.set (h : Kept pd) (bit : Pdlpmf) : Kept (pd.set bit) :=
  fun b hb => ⟨mem_insert_of_mem (h b hb).1, (h b hb).2⟩

theorem Kept.taken (h : Kept pd) (ok : Bool) (hclears : request.clears bit = true)
    (hsets : ∀ b, request.sets b = false) : Kept ((pd.issue request ok).clear bit) := by
  intro b hb
  obtain ⟨hnot, ⟨hset, -⟩ | hlive⟩ := live_cons hb
  · rw [hsets b] at hset
    cases hset
  · have hne : b ≠ bit := by
      rintro rfl
      rw [hclears] at hnot
      cases hnot
    exact ⟨mem_erase.mpr ⟨hne, (h b hlive).1⟩, (h b hlive).2⟩

theorem Kept.drop (h : Kept pd) (hdead : live bit pd.issued ≠ true) : Kept (pd.clear bit) := by
  intro b hb
  have hne : b ≠ bit := by
    rintro rfl
    exact hdead hb
  exact ⟨mem_erase.mpr ⟨hne, (h b hb).1⟩, (h b hb).2⟩

structure Arms (pd pd' : PsdDevice) : Prop where
  touched : Touched pd pd'
  grows : pd.lpmArmed ⊆ pd'.lpmArmed
  kept : Kept pd → Kept pd'

theorem Arms.refl (pd : PsdDevice) : Arms pd pd := ⟨rfl, subset_rfl, id⟩

theorem Arms.trans (h : Arms pd pd') (h' : Arms pd' pd'') : Arms pd pd'' :=
  ⟨h.touched.trans h'.touched, h.grows.trans h'.grows, fun hk => h'.kept (h.kept hk)⟩

theorem Arms.set (pd : PsdDevice) (bit : Pdlpmf) : Arms pd (pd.set bit) :=
  ⟨rfl, subset_insert _ _, fun h => h.set bit⟩

theorem Arms.issue (ok : Bool) (hsets : ∀ b, request.sets b = false) : Arms pd (pd.issue request ok) :=
  ⟨rfl, subset_rfl, fun h => h.issue ok hsets⟩

theorem Arms.attempt (ok : Bool) (hsets : ∀ b, request.sets b = true → b = bit) (hwire : onWire pd.hub bit) :
    Arms pd (if ok then (pd.issue request ok).set bit else pd.issue request ok) := by
  refine ⟨?_, ?_, fun h => h.attempt ok hsets hwire⟩
  · cases ok <;> exact rfl
  · cases ok with
    | true => exact subset_insert _ _
    | false => exact subset_rfl

theorem armPort_arms (hbit : ∀ hub, hub = true → onWire hub bit) (timeout : ℕ) (out : PortOutcome) (pd : PsdDevice) :
    Arms pd (armPort bit timeout out pd) := by
  unfold armPort pSetHubPortTimeout
  split
  · exact .refl pd
  · by_cases hhub : pd.hub
    · rw [if_pos hhub]
      cases hres : out.result with
      | none => exact .refl pd
      | some ok =>
        refine .attempt ok (fun b hb => ?_) (hbit pd.hub hhub)
        exact (of_decide_eq_true hb).1
    · rw [if_neg hhub, if_pos rfl]
      exact .set pd bit

theorem armFeature_arms (bit : Pdlpmf) (hbit : ∀ hub, onWire hub bit) (asked ok : Bool) (pd : PsdDevice) :
    Arms pd (armFeature bit asked ok pd) := by
  unfold armFeature
  split
  · refine .attempt ok (fun b' hb => ?_) (hbit pd.hub)
    exact of_decide_eq_true hb
  · exact .refl pd

theorem sendSel_arms (slo : LinkPowerOut) (ok : Bool) (pd : PsdDevice) : Arms pd (sendSel slo ok pd) := by
  unfold sendSel
  split
  · exact .issue ok fun _ => rfl
  · exact .refl pd

theorem armWire_arms (slo : LinkPowerOut) (out : Outcome) (pd : PsdDevice) : Arms pd (armWire slo out pd) := by
  unfold armWire
  refine .trans ?_ (armFeature_arms .ltm (fun _ => trivial) _ _ _)
  refine .trans ?_ (armFeature_arms .u2Dev (fun _ => trivial) _ _ _)
  refine .trans ?_ (armFeature_arms .u1Dev (fun _ => trivial) _ _ _)
  refine .trans ?_ (armPort_arms (fun _ => id) _ _ _)
  refine .trans ?_ (armPort_arms (fun _ => id) _ _ _)
  exact sendSel_arms _ _ _

section

variable (pd : PsdDevice) (out : Outcome)

theorem pLinkPowerArm_arms : Arms (pd.set .policy) (pLinkPowerArm pd out) := by
  have hsets : ∀ b, (Request.setLinkPower pd.linkPowerBlock).sets b = true → b = .ctxOp :=
    fun b hb => (of_decide_eq_true hb).1
  unfold pLinkPowerArm
  dsimp only
  split
  · exact .refl _
  · split
    · exact .refl _
    · cases out.op with
      | none => exact .attempt false hsets trivial
      | some slo =>
        refine .trans ?_ (armWire_arms slo out _)
        exact .attempt true hsets trivial

theorem pLinkPowerArm_policy : .policy ∈ (pLinkPowerArm pd out).lpmArmed :=
  (pLinkPowerArm_arms pd out).grows (mem_insert_self _ _)

theorem pLinkPowerArm_touched : Touched pd (pLinkPowerArm pd out) :=
  (Arms.set pd .policy).touched.trans (pLinkPowerArm_arms pd out).touched

end

def Extends (pd pd' : PsdDevice) : Prop := ∃ new, pd'.issued = new ++ pd.issued

theorem Extends.refl (pd : PsdDevice) : Extends pd pd := ⟨[], rfl⟩

theorem Extends.trans (h : Extends pd pd') (h' : Extends pd' pd'') : Extends pd pd'' := by
  obtain ⟨new, hnew⟩ := h
  obtain ⟨newer, hnewer⟩ := h'
  exact ⟨newer ++ new, by rw [hnewer, hnew, List.append_assoc]⟩

structure Drops (bit : Pdlpmf) (pd pd' : PsdDevice) : Prop where
  touched : Touched pd pd'
  armed : pd'.lpmArmed = pd.lpmArmed.erase bit
  issued : Extends pd pd'

theorem Drops.absent (h : bit ∉ pd.lpmArmed) : Drops bit pd pd :=
  ⟨rfl, (erase_eq_of_notMem h).symm, .refl pd⟩

theorem pLinkPowerClearDevFeature_drops (bit : Pdlpmf) (ok : Bool) (pd : PsdDevice) :
    Drops bit pd (pLinkPowerClearDevFeature bit ok pd) := by
  unfold pLinkPowerClearDevFeature
  split
  · exact ⟨rfl, rfl, [_], rfl⟩
  · next habsent => exact .absent habsent

theorem disarmPort_drops (bit : Pdlpmf) (out : PortOutcome) (pd : PsdDevice) :
    Drops bit pd (disarmPort bit out pd) := by
  unfold disarmPort pSetHubPortTimeout
  split
  · split
    · split
      · exact ⟨rfl, rfl, .refl pd⟩
      · exact ⟨rfl, rfl, [_], rfl⟩
    · exact ⟨rfl, rfl, .refl pd⟩
  · next habsent => exact .absent habsent

def disarmWire (pd : PsdDevice) (out : Outcome) : PsdDevice :=
  disarmPort .portU2 out.portU2 <|
    disarmPort .portU1 out.portU1 <|
      pLinkPowerClearDevFeature .ltm out.ltm <|
        pLinkPowerClearDevFeature .u2Dev out.u2Dev <|
          pLinkPowerClearDevFeature .u1Dev out.u1Dev pd

theorem pLinkPowerDisarm_eq (pd : PsdDevice) (out : Outcome) :
    pLinkPowerDisarm pd out = (disarmCtx out.op.isSome (disarmWire pd out)).clear .policy := rfl

def disarmDev (pd : PsdDevice) (out : Outcome) : PsdDevice :=
  pLinkPowerClearDevFeature .ltm out.ltm <|
    pLinkPowerClearDevFeature .u2Dev out.u2Dev <|
      pLinkPowerClearDevFeature .u1Dev out.u1Dev pd

section

variable (pd : PsdDevice) (out : Outcome)

theorem disarmWire_eq :
    disarmWire pd out = disarmPort .portU2 out.portU2 (disarmPort .portU1 out.portU1 (disarmDev pd out)) := rfl

theorem disarmDev_spec :
    Touched pd (disarmDev pd out) ∧ Extends pd (disarmDev pd out) ∧
      (disarmDev pd out).lpmArmed = ((pd.lpmArmed.erase .u1Dev).erase .u2Dev).erase .ltm := by
  have h1 := pLinkPowerClearDevFeature_drops .u1Dev out.u1Dev pd
  have h2 := pLinkPowerClearDevFeature_drops .u2Dev out.u2Dev (pLinkPowerClearDevFeature .u1Dev out.u1Dev pd)
  have h3 := pLinkPowerClearDevFeature_drops .ltm out.ltm
    (pLinkPowerClearDevFeature .u2Dev out.u2Dev (pLinkPowerClearDevFeature .u1Dev out.u1Dev pd))
  refine ⟨(h1.touched.trans h2.touched).trans h3.touched, (h1.issued.trans h2.issued).trans h3.issued, ?_⟩
  rw [disarmDev, h3.armed, h2.armed, h1.armed]

theorem disarmWire_spec :
    Touched pd (disarmWire pd out) ∧ Extends pd (disarmWire pd out) ∧
      ∀ b, b ∈ (disarmWire pd out).lpmArmed ↔ b ∈ pd.lpmArmed ∧ (b = .policy ∨ b = .ctxOp) := by
  obtain ⟨htouched, hissued, harmed⟩ := disarmDev_spec pd out
  have h4 := disarmPort_drops .portU1 out.portU1 (disarmDev pd out)
  have h5 := disarmPort_drops .portU2 out.portU2 (disarmPort .portU1 out.portU1 (disarmDev pd out))
  rw [disarmWire_eq]
  refine ⟨(htouched.trans h4.touched).trans h5.touched, (hissued.trans h4.issued).trans h5.issued, fun b => ?_⟩
  rw [h5.armed, h4.armed, harmed]
  cases b <;> simp [mem_erase]

end

theorem disarmCtx_spec (ok : Bool) (pd : PsdDevice) :
    Touched pd (disarmCtx ok pd) ∧ Extends pd (disarmCtx ok pd) ∧
      ∀ b, b ∈ (disarmCtx ok pd).lpmArmed ↔ b ∈ pd.lpmArmed ∧ (b = .ctxOp → ok = false) := by
  unfold disarmCtx
  split
  · next hctx =>
    split
    · next hok =>
      subst hok
      refine ⟨rfl, ⟨[_], rfl⟩, fun b => ?_⟩
      simp [PsdDevice.clear, PsdDevice.issue, and_comm]
    · next hok =>
      have hfail : ok = false := Bool.eq_false_iff.mpr hok
      refine ⟨rfl, ⟨[_], rfl⟩, fun b => ?_⟩
      simp [PsdDevice.issue, hfail]
  · next habsent =>
    refine ⟨.refl pd, .refl pd, fun b => ⟨fun hb => ⟨hb, ?_⟩, fun hb => hb.1⟩⟩
    rintro rfl
    exact absurd hb habsent

theorem pLinkPowerDisarm_armed (pd : PsdDevice) (out : Outcome) :
    bit ∈ (pLinkPowerDisarm pd out).lpmArmed ↔ bit = .ctxOp ∧ .ctxOp ∈ pd.lpmArmed ∧ out.op = none := by
  have hwire := (disarmWire_spec pd out).2.2 bit
  have hctx := (disarmCtx_spec out.op.isSome (disarmWire pd out)).2.2 bit
  rw [pLinkPowerDisarm_eq, PsdDevice.clear, mem_erase, hctx, hwire, isSome_eq_false_iff,
    isNone_iff_eq_none]
  constructor
  · rintro ⟨hne, ⟨hmem, hor⟩, hfail⟩
    obtain rfl := hor.resolve_left hne
    exact ⟨rfl, hmem, hfail rfl⟩
  · rintro ⟨rfl, hmem, hfail⟩
    exact ⟨nofun, ⟨hmem, .inr rfl⟩, fun _ => hfail⟩

theorem pLinkPowerDisarm_policy (pd : PsdDevice) (out : Outcome) :
    .policy ∉ (pLinkPowerDisarm pd out).lpmArmed := by
  rw [pLinkPowerDisarm_armed]
  rintro ⟨hbit, -⟩
  cases hbit

theorem Touched.clear (pd : PsdDevice) (bit : Pdlpmf) : Touched pd (pd.clear bit) := rfl

theorem Extends.clear (h : Extends pd pd') (bit : Pdlpmf) : Extends pd (pd'.clear bit) := h

theorem pLinkPowerDisarm_touched (pd : PsdDevice) (out : Outcome) : Touched pd (pLinkPowerDisarm pd out) := by
  exact ((disarmWire_spec pd out).1.trans (disarmCtx_spec _ _).1).trans (.clear _ _)

theorem pLinkPowerDisarm_extends (pd : PsdDevice) (out : Outcome) : Extends pd (pLinkPowerDisarm pd out) := by
  exact ((disarmWire_spec pd out).2.1.trans (disarmCtx_spec _ _).2.1).clear _

variable {devices after : List PsdDevice} {out : ApplyOutcome}
  {outs : ℕ → ApplyOutcome} {n : ℕ}

theorem needsWork_iff : needsWork linkPowerMgmt pd = true ↔
    pd.eligible = true ∧ pLinkPowerWanted linkPowerMgmt pd ≠ pd.applied := by
  rw [needsWork, Bool.and_eq_true, decide_eq_true_iff]

theorem pLinkPowerApply_done (hport : out.port = true) (hpipe : out.pipe = true) :
    needsWork linkPowerMgmt (pLinkPowerApply linkPowerMgmt pd out) = false := by
  rw [Bool.eq_false_iff]
  intro hneeds
  refine (needsWork_iff.mp hneeds).2 ?_
  unfold pLinkPowerApply
  split
  · assumption
  · rw [if_pos ⟨hport, hpipe⟩]
    by_cases hwanted : pLinkPowerWanted linkPowerMgmt pd
    · rw [if_pos hwanted, (pLinkPowerArm_touched pd out.ops).wanted, hwanted]
      exact (decide_eq_true (pLinkPowerArm_policy pd out.ops)).symm
    · rw [if_neg hwanted, (pLinkPowerDisarm_touched pd out.ops).wanted, Bool.eq_false_iff.mpr hwanted]
      exact (decide_eq_false (pLinkPowerDisarm_policy pd out.ops)).symm

theorem pLinkPowerApply_unserved (h : ¬(out.port = true ∧ out.pipe = true)) :
    pLinkPowerApply linkPowerMgmt pd out = pd := by
  rw [pLinkPowerApply, if_neg h, ite_self]

theorem sweepPass_spec (h : sweepPass linkPowerMgmt out devices = some after) :
    ∃ before pd rest, devices = before ++ pd :: rest ∧ (∀ d ∈ before, needsWork linkPowerMgmt d = false) ∧
      needsWork linkPowerMgmt pd = true ∧ after = before ++ pLinkPowerApply linkPowerMgmt pd out :: rest := by
  induction devices generalizing after with
  | nil => cases h
  | cons pd devices ih =>
    rw [sweepPass] at h
    split at h
    · next hneeds => exact ⟨[], pd, devices, rfl, List.forall_mem_nil _, hneeds, (some.inj h).symm⟩
    · next hnot =>
      obtain ⟨rest, hrest, rfl⟩ := map_eq_some_iff.mp h
      obtain ⟨before, d, tail, rfl, hbefore, hneeds, rfl⟩ := ih hrest
      refine ⟨pd :: before, d, tail, rfl, ?_, hneeds, rfl⟩
      exact List.forall_mem_cons.mpr ⟨Bool.eq_false_iff.mpr hnot, hbefore⟩

theorem sweepPass_none : sweepPass linkPowerMgmt out devices = none ↔ toDo linkPowerMgmt devices = 0 := by
  induction devices with
  | nil => exact ⟨fun _ => rfl, fun _ => rfl⟩
  | cons pd devices ih =>
    rw [sweepPass, toDo, List.countP_cons]
    split
    · exact ⟨nofun, nofun⟩
    · rw [map_eq_none_iff, ih, toDo, Nat.add_zero]

theorem toDo_append (before : List PsdDevice) (pd : PsdDevice) (rest : List PsdDevice) :
    toDo linkPowerMgmt (before ++ pd :: rest) =
      toDo linkPowerMgmt before + (if needsWork linkPowerMgmt pd then 1 else 0) + toDo linkPowerMgmt rest := by
  simp only [toDo, List.countP_append, List.countP_cons]
  omega

theorem sweepPass_served (h : sweepPass linkPowerMgmt out devices = some after) (hport : out.port = true)
    (hpipe : out.pipe = true) : toDo linkPowerMgmt devices = toDo linkPowerMgmt after + 1 := by
  obtain ⟨before, pd, rest, rfl, -, hneeds, rfl⟩ := sweepPass_spec h
  rw [toDo_append, toDo_append, hneeds, pLinkPowerApply_done hport hpipe, if_pos rfl, if_neg nofun]
  omega

theorem sweepPass_unserved (h : sweepPass linkPowerMgmt out devices = some after)
    (hnot : ¬(out.port = true ∧ out.pipe = true)) : after = devices := by
  obtain ⟨before, pd, rest, rfl, -, -, rfl⟩ := sweepPass_spec h
  rw [pLinkPowerApply_unserved hnot]

theorem pLinkPowerSweep_succ (h : pLinkPowerSweep linkPowerMgmt outs devices n = some after) :
    pLinkPowerSweep linkPowerMgmt outs devices (n + 1) = sweepPass linkPowerMgmt (outs n) after := by
  rw [pLinkPowerSweep, h, bind_some]

theorem sweep_served (h : ∀ k < n, (outs k).port = true ∧ (outs k).pipe = true)
    (hn : n ≤ toDo linkPowerMgmt devices) :
    ∃ after, pLinkPowerSweep linkPowerMgmt outs devices n = some after ∧
      toDo linkPowerMgmt devices = toDo linkPowerMgmt after + n := by
  induction n with
  | zero => exact ⟨devices, rfl, rfl⟩
  | succ n ih =>
    obtain ⟨before, hbefore, hcount⟩ := ih (fun k hk => h k (hk.trans n.lt_succ_self)) (Nat.le_of_succ_le hn)
    cases hpass : sweepPass linkPowerMgmt (outs n) before with
    | none =>
      have hnone := sweepPass_none.mp hpass
      omega
    | some after =>
      obtain ⟨hport, hpipe⟩ := h n n.lt_succ_self
      have hless := sweepPass_served hpass hport hpipe
      exact ⟨after, (pLinkPowerSweep_succ hbefore).trans hpass, by omega⟩

theorem sweep_bound (h : ∀ k < toDo linkPowerMgmt devices, (outs k).port = true ∧ (outs k).pipe = true)
    (hn : pLinkPowerSweep linkPowerMgmt outs devices n = some after) : n ≤ toDo linkPowerMgmt devices := by
  by_contra hlt
  have hend : pLinkPowerSweep linkPowerMgmt outs devices (toDo linkPowerMgmt devices + 1) = none := by
    obtain ⟨last, hlast, hcount⟩ := sweep_served h le_rfl
    rw [pLinkPowerSweep_succ hlast]
    exact sweepPass_none.mpr (by omega)
  have hnone : ∀ k, pLinkPowerSweep linkPowerMgmt outs devices (toDo linkPowerMgmt devices + 1 + k) = none := by
    intro k
    induction k with
    | zero => exact hend
    | succ k ih => rw [← Nat.add_assoc, pLinkPowerSweep, ih, bind_none]
  have := hnone (n - (toDo linkPowerMgmt devices + 1))
  rw [Nat.add_sub_cancel' (by omega), hn] at this
  cases this

theorem sweep_terminates (linkPowerMgmt : Bool) (outs : ℕ → ApplyOutcome) (devices : List PsdDevice) :
    Terminates linkPowerMgmt outs devices ↔
      ∀ n < toDo linkPowerMgmt devices, (outs n).port = true ∧ (outs n).pipe = true := by
  constructor
  · intro h n
    induction n using Nat.strong_induction_on with
    | _ n ih =>
      intro hn
      obtain ⟨before, hbefore, hcount⟩ := sweep_served (fun k hk => ih k hk (hk.trans hn)) hn.le
      by_contra hnot
      cases hpass : sweepPass linkPowerMgmt (outs n) before with
      | none =>
        have hnone := sweepPass_none.mp hpass
        omega
      | some after =>
        have hless := h.decreases n before after hbefore ((pLinkPowerSweep_succ hbefore).trans hpass)
        rw [sweepPass_unserved hpass hnot] at hless
        exact absurd hless (lt_irrefl _)
  · intro h
    refine ⟨⟨toDo linkPowerMgmt devices + 1, ?_⟩, fun n before after hbefore hafter => ?_⟩
    · by_contra hsome
      obtain ⟨after, hafter⟩ := Option.ne_none_iff_exists'.mp hsome
      have := sweep_bound h hafter
      omega
    · obtain ⟨hport, hpipe⟩ := h n (sweep_bound h hafter)
      rw [pLinkPowerSweep_succ hbefore] at hafter
      have := sweepPass_served hafter hport hpipe
      omega

def idleDevice : PsdDevice where
  hub := true
  hubPort := 1
  contextBackend := true
  setLinkPowerCmd := true
  resetDeviceCmd := true
  handle := 1
  usb30U1ExitLat := 10
  usb30U2ExitLat := 100
  usb30LtmCapable := false
  usb20LpmCapable := false
  usb20BeslCapable := false
  usb20BeslBaseline := none
  usb20BeslDeep := none
  linkPowerOverride := .default
  currentConfig := true
  connected := true
  suspended := false
  dead := false
  delExpunge := false
  lpmArmed := ∅
  issued := []

def refusedOps : Outcome := ⟨none, false, false, false, false, ⟨false, false, false⟩, ⟨false, false, false⟩⟩

theorem sweep_spins :
    (∀ n, pLinkPowerSweep true (fun _ => ⟨false, false, refusedOps⟩) [idleDevice] n = some [idleDevice]) ∧
    ¬∀ linkPowerMgmt outs devices, Terminates linkPowerMgmt outs devices := by
  have hspins : ∀ n, pLinkPowerSweep true (fun _ => ⟨false, false, refusedOps⟩) [idleDevice] n = some [idleDevice] := by
    intro n
    induction n with
    | zero => rfl
    | succ n ih => rw [pLinkPowerSweep_succ ih]; decide
  refine ⟨hspins, fun hall => ?_⟩
  obtain ⟨n, hn⟩ := (hall true (fun _ => ⟨false, false, refusedOps⟩) [idleDevice]).ends
  rw [hspins n] at hn
  cases hn

end LinkPower

end Neptune
