import Neptune.Proofs.LinkPowerCalls

/-! In a run whose disarms find everything they take, a state set on the wire keeps its bit until its clear has been
issued, a disarm leaves nothing, and while the controller's state stands against the policy the next sweep sends the
withheld block again. The sweep looks at `PDLPMF_POLICY`, which a disarm drops even where `PDLPMF_CTXOP` stays. -/

namespace Neptune.LinkPower

open List Option

open Runs

variable {pd pd' : PsdDevice} {ps t : PsdBase} {linkPowerMgmt : Bool} {bit : Pdlpmf}

/-- The controller's state is only there while the policy is applied. -/
structure Inv (pd : PsdDevice) : Prop where
  kept : Kept pd
  ctx : .ctxOp ∈ pd.lpmArmed → .policy ∈ pd.lpmArmed

theorem Inv.arm (h : Inv pd) (out : Outcome) : Inv (pLinkPowerArm pd out) :=
  ⟨(pLinkPowerArm_arms pd out).kept (h.kept.set .policy), fun _ => pLinkPowerArm_policy pd out⟩

theorem Kept.clearDevFeature (h : Kept pd) (bit : Pdlpmf) (ok : Bool) :
    Kept (pLinkPowerClearDevFeature bit ok pd) := by
  unfold pLinkPowerClearDevFeature
  split
  · exact h.taken ok (decide_eq_true rfl) fun _ => rfl
  · exact h

theorem portTimeoutOf_zero (port : ℕ) : portTimeoutOf (((0 * 256) ||| (port % 256)) % 2 ^ 16) = 0 := by
  rw [Nat.zero_mul, Nat.zero_or, portTimeoutOf]
  omega

theorem Kept.disarmPort (h : Kept pd) (bit : Pdlpmf) (hbit : onWire pd.hub bit → pd.hub = true) {out : PortOutcome}
    (hsent : bit ∈ pd.lpmArmed → pd.hub = true → out.result.isSome = true) :
    Kept (disarmPort bit out pd) := by
  unfold LinkPower.disarmPort pSetHubPortTimeout
  split
  · next hmem =>
    by_cases hhub : pd.hub
    · rw [if_pos hhub]
      obtain ⟨ok, hok⟩ := isSome_iff_exists.mp (hsent hmem hhub)
      rw [hok]
      refine h.taken ok ?_ fun b => ?_
      · exact decide_eq_true ⟨rfl, portTimeoutOf_zero _⟩
      · exact decide_eq_false fun hset => hset.2 (portTimeoutOf_zero _)
    · rw [if_neg hhub]
      exact h.drop fun hlive => hhub (hbit (h bit hlive).2)
  · exact h

theorem Kept.disarmCtx (h : Kept pd) (ok : Bool) : Kept (disarmCtx ok pd) := by
  have hsets : ∀ b, (Request.setLinkPower { deviceHandle := pd.handle }).sets b = false :=
    fun b => decide_eq_false fun hset => hset.2 rfl
  unfold LinkPower.disarmCtx
  split
  · split
    · refine h.taken ok ?_ hsets
      exact decide_eq_true ⟨rfl, rfl⟩
    · exact h.issue ok hsets
  · exact h

theorem Kept.disarmDev (h : Kept pd) (out : Outcome) : Kept (disarmDev pd out) :=
  ((h.clearDevFeature .u1Dev out.u1Dev).clearDevFeature .u2Dev out.u2Dev).clearDevFeature .ltm out.ltm

theorem Kept.disarmWire (h : Kept pd) {out : Outcome} (hc : Complete pd out) : Kept (disarmWire pd out) := by
  obtain ⟨htouched, -, harmed⟩ := disarmDev_spec pd out
  have hmem : ∀ b ∈ (LinkPower.disarmDev pd out).lpmArmed, b ∈ pd.lpmArmed := by
    intro b hb
    rw [harmed] at hb
    exact Finset.mem_of_mem_erase (Finset.mem_of_mem_erase (Finset.mem_of_mem_erase hb))
  have h4 := disarmPort_drops .portU1 out.portU1 (LinkPower.disarmDev pd out)
  have hport := (h.disarmDev out).disarmPort .portU1 id fun hb hh => hc.portU1 (hmem _ hb) (htouched.hub ▸ hh)
  rw [disarmWire_eq]
  refine hport.disarmPort .portU2 id fun hb hh => ?_
  rw [h4.armed] at hb
  rw [h4.touched.hub, htouched.hub] at hh
  exact hc.portU2 (hmem _ (Finset.mem_of_mem_erase hb)) hh

theorem Kept.dropPolicy (h : Kept pd) : Kept (pd.clear .policy) := h.drop fun hlive => (h .policy hlive).2

theorem Inv.idle (hkept : Kept pd) (hctx : .ctxOp ∉ pd.lpmArmed) : Inv pd :=
  ⟨hkept, fun hmem => absurd hmem hctx⟩

theorem Complete.ctx {out : Outcome} (hc : Complete pd out) : .ctxOp ∉ (pLinkPowerDisarm pd out).lpmArmed := by
  rw [pLinkPowerDisarm_armed]
  rintro ⟨-, hmem, hnone⟩
  have hsome := hc.op hmem
  rw [hnone] at hsome
  cases hsome

theorem Inv.disarm (h : Inv pd) {out : Outcome} (hc : Complete pd out) : Inv (pLinkPowerDisarm pd out) := by
  refine .idle ?_ hc.ctx
  exact ((h.kept.disarmWire hc).disarmCtx out.op.isSome).dropPolicy

variable {i : ℕ} {out : ApplyOutcome} {devices : List PsdDevice}

theorem Inv.apply (h : Inv pd)
    (hc : pLinkPowerWanted linkPowerMgmt pd = false → out.port = true ∧ out.pipe = true → Complete pd out.ops) :
    Inv (pLinkPowerApply linkPowerMgmt pd out) := by
  unfold pLinkPowerApply
  split
  · exact h
  · split
    · next hserved =>
      split
      · exact h.arm out.ops
      · next hwanted => exact h.disarm (hc (Bool.eq_false_iff.mpr hwanted) hserved)
    · exact h

theorem Inv.configure (h : Inv pd) (out : ConfigOutcome) : Inv (psdSetDeviceConfig linkPowerMgmt pd out).1 := by
  have hfound : Inv { pd with currentConfig := out.found } := ⟨h.kept, h.ctx⟩
  unfold psdSetDeviceConfig
  split
  · split
    · exact hfound.arm out.ops
    · exact hfound
  · exact h

theorem Inv.reset (h : Inv pd) (out : ResetOutcome) : Inv (psdResetDevice linkPowerMgmt pd out).1 := by
  unfold psdResetDevice
  split
  · exact h.configure out.config
  · exact h

theorem pLinkPowerDisarm_tornDown (h : .ctxOp ∈ pd.lpmArmed) (out : Outcome) :
    TornDown pd (pLinkPowerDisarm pd out) := by
  obtain ⟨htouched, ⟨new, hnew⟩, hmem⟩ := disarmWire_spec pd out
  have hctx : .ctxOp ∈ (disarmWire pd out).lpmArmed := (hmem .ctxOp).mpr ⟨h, .inr rfl⟩
  have hsent : (disarmCtx out.op.isSome (disarmWire pd out)).issued =
      ⟨.setLinkPower { deviceHandle := (disarmWire pd out).handle }, out.op.isSome⟩ :: (disarmWire pd out).issued := by
    rw [disarmCtx, if_pos hctx]
    split <;> rfl
  rw [pLinkPowerDisarm_eq]
  refine ⟨⟨.setLinkPower { deviceHandle := pd.handle }, out.op.isSome⟩ :: new, ?_, _, mem_cons_self, rfl⟩
  rw [PsdDevice.clear, hsent, htouched.handle, hnew, cons_append]

theorem TornDown.extends (h : TornDown pd pd') {pd'' : PsdDevice} (h' : Extends pd' pd'') : TornDown pd pd'' := by
  obtain ⟨new, hnew, i, hi, hreq⟩ := h
  obtain ⟨newer, hnewer⟩ := h'
  refine ⟨newer ++ new, ?_, i, mem_append_right _ hi, hreq⟩
  rw [hnewer, hnew, append_assoc]

def Swept (pd pd' : PsdDevice) : Prop := Touched pd pd' ∧ (pd' = pd ∨ TornDown pd pd')

theorem Swept.apply (h : Swept pd pd') (hwanted : pLinkPowerWanted linkPowerMgmt pd = false)
    (hctx : .ctxOp ∈ pd.lpmArmed) (out : ApplyOutcome) : Swept pd (pLinkPowerApply linkPowerMgmt pd' out) := by
  unfold pLinkPowerApply
  split
  · exact h
  · split
    · rw [h.1.wanted, hwanted, if_neg nofun]
      refine ⟨h.1.trans (pLinkPowerDisarm_touched pd' out.ops), .inr ?_⟩
      rcases h.2 with rfl | htorn
      · exact pLinkPowerDisarm_tornDown hctx out.ops
      · exact htorn.extends (pLinkPowerDisarm_extends pd' out.ops)
    · exact h

theorem sweepPass_at {after : List PsdDevice}
    (h : sweepPass linkPowerMgmt out devices = some after) (hi : devices[i]? = some pd) :
    ∃ pd', after[i]? = some pd' ∧ (pd' = pd ∨ pd' = pLinkPowerApply linkPowerMgmt pd out) := by
  induction devices generalizing after i with
  | nil => cases h
  | cons d devices ih =>
    rw [sweepPass] at h
    split at h
    · obtain rfl := some.inj h
      cases i with
      | zero =>
        obtain rfl := some.inj hi
        exact ⟨_, rfl, .inr rfl⟩
      | succ i => exact ⟨pd, hi, .inl rfl⟩
    · obtain ⟨rest, hrest, rfl⟩ := map_eq_some_iff.mp h
      cases i with
      | zero => exact ⟨pd, hi, .inl rfl⟩
      | succ i =>
        obtain ⟨pd', hpd', hor⟩ := ih hrest hi
        exact ⟨pd', hpd', hor⟩

theorem Inv.retried (h : Inv pd) (hi : devices[i]? = some pd) :
    Retried linkPowerMgmt devices i pd := by
  intro heligible hwanted hctx outs n after hn hlast
  have hswept : ∃ pd', after[i]? = some pd' ∧ Swept pd pd' := by
    clear hlast
    induction n generalizing after with
    | zero =>
      obtain rfl := some.inj hn
      exact ⟨pd, hi, .refl pd, .inl rfl⟩
    | succ n ih =>
      obtain ⟨before, hbefore, hpass⟩ := bind_eq_some_iff.mp hn
      obtain ⟨d, hd, hswept⟩ := ih before hbefore
      obtain ⟨d', hd', rfl | rfl⟩ := sweepPass_at hpass hd
      · exact ⟨d', hd', hswept⟩
      · exact ⟨_, hd', hswept.apply hwanted hctx (outs n)⟩
  obtain ⟨pd', hpd', htouched, rfl | htorn⟩ := hswept
  · have hneeds : needsWork linkPowerMgmt pd' = true := by
      refine needsWork_iff.mpr ⟨heligible, ?_⟩
      rw [hwanted, PsdDevice.applied, decide_eq_true (h.ctx hctx)]
      exact Bool.false_ne_true
    have hnone := countP_eq_zero.mp (sweepPass_none.mp hlast) pd' (mem_of_getElem? hpd')
    exact absurd hneeds hnone
  · exact ⟨pd', hpd', htorn⟩

def Held (ps : PsdBase) : Prop := ∀ pd ∈ ps.devices, Inv pd

theorem Held.set {linkPowerReq : Bool} (h : Held ps) (hinv : Inv pd) :
    Held { ps with linkPowerReq := linkPowerReq, devices := ps.devices.set i pd } := by
  intro d hd
  rcases mem_or_eq_of_mem_set hd with hd | rfl
  · exact h d hd
  · exact hinv

theorem Held.restart (h : Held ps)
    (hok : Undisturbed ps (.restart out)) (hpass : sweepPass ps.linkPowerMgmt out ps.devices = some devices) :
    ∀ pd ∈ devices, Inv pd := by
  obtain ⟨before, pd, rest, hdevices, hbefore, hneeds, rfl⟩ := sweepPass_spec hpass
  have hfirst : ps.devices.find? (needsWork ps.linkPowerMgmt) = some pd := by
    rw [hdevices, List.find?_append, List.find?_eq_none.mpr fun d hd => Bool.eq_false_iff.mp (hbefore d hd),
      none_or, List.find?_cons_of_pos hneeds]
  have hall : ∀ d ∈ before ++ pd :: rest, Inv d := hdevices ▸ h
  intro d hd
  rcases mem_append.mp hd with hd | hd
  · exact hall d (mem_append_left _ hd)
  · rcases mem_cons.mp hd with rfl | hd
    · exact (hall pd (by simp)).apply (hok pd hfirst)
    · exact hall d (mem_append_right _ (mem_cons_of_mem _ hd))

theorem Held.step {e : Event} (h : Held ps) (hok : Undisturbed ps e) (ht : step ps e = some t) : Held t := by
  cases e with
  | attach pd =>
    obtain ⟨⟨harmed, hissued⟩, rfl⟩ := of_guard ht
    intro d hd
    rcases mem_append.mp hd with hd | hd
    · exact h d hd
    · obtain rfl := mem_singleton.mp hd
      refine ⟨fun b hb => ?_, fun hctx => ?_⟩
      · rw [hissued] at hb
        cases hb
      · rw [harmed] at hctx
        exact absurd hctx (Finset.notMem_empty _)
  | detach i =>
    obtain rfl := some.inj ht
    exact fun d hd => h d (mem_of_mem_eraseIdx hd)
  | change i new =>
    simp only [LinkPower.step] at ht
    split at ht
    · cases ht
    · next pd hi =>
      obtain ⟨⟨harmed, hissued, hhub⟩, rfl⟩ := of_guard ht
      have hold := h pd (mem_of_getElem? hi)
      refine Held.set h ⟨?_, ?_⟩
      · have hkept := hold.kept
        rwa [Kept, ← harmed, ← hissued, ← hhub] at hkept
      · rw [harmed]
        exact hold.ctx
  | policy linkPowerMgmt =>
    obtain rfl := some.inj ht
    exact h
  | setDeviceConfig i out =>
    obtain ⟨pd, hi, rfl⟩ := map_eq_some_iff.mp ht
    exact h.set ((h pd (mem_of_getElem? hi)).configure out)
  | resetDevice i out =>
    obtain ⟨pd, hi, rfl⟩ := map_eq_some_iff.mp ht
    exact h.set ((h pd (mem_of_getElem? hi)).reset out)
  | sweep =>
    obtain rfl := some.inj ht
    exact h
  | restart out =>
    obtain ⟨devices, hpass, rfl⟩ := map_eq_some_iff.mp ht
    exact h.restart hok hpass

theorem held_start (linkPowerMgmt : Bool) : Held (start linkPowerMgmt) := fun _ hd => absurd hd not_mem_nil

theorem armed_taken_back {evs : List Event} (h : Run step Undisturbed (start linkPowerMgmt) evs ps) :
    TakenBack ps := by
  have hheld : Held ps := h.invariant Held (held_start linkPowerMgmt) fun _ _ _ hi hok => hi.step hok
  refine ⟨fun pd hpd b hb => ((hheld pd hpd).kept b hb).1, fun pd _ out b => ?_, fun i pd hi => ?_⟩
  · rw [pLinkPowerDisarm_armed]
    rintro ⟨hctx, -, hnone⟩
    exact ⟨hctx, hnone⟩
  · exact (hheld pd (mem_of_getElem? hi)).retried hi

def granted : PortOutcome := ⟨true, true, true⟩

def bothStates : LinkPowerOut where
  u1Timeout := 16
  u2Timeout := 32
  u1Sel := 20
  u1Pel := 10
  u2Sel := 200
  u2Pel := 100
  setSel := true
  u1Init := true
  u2Init := true
  ltm := false

def grantedOps : Outcome := ⟨some bothStates, true, true, true, true, granted, granted⟩

def armEvents : List Event :=
  [.attach { idleDevice with currentConfig := false }, .setDeviceConfig 0 ⟨true, true, true, grantedOps⟩,
    .policy false, .sweep]

def failedOps : Outcome := { grantedOps with op := none }

def unsentOps : Outcome := { grantedOps with portU1 := ⟨false, false, false⟩ }

def disarmEvents (ops : Outcome) : List Event := armEvents ++ [.restart ⟨true, true, ops⟩]

instance (pd : PsdDevice) (out : Outcome) : Decidable (Complete pd out) :=
  decidable_of_iff ((.ctxOp ∈ pd.lpmArmed → out.op.isSome = true) ∧
      (.portU1 ∈ pd.lpmArmed → pd.hub = true → out.portU1.result.isSome = true) ∧
      (.portU2 ∈ pd.lpmArmed → pd.hub = true → out.portU2.result.isSome = true))
    ⟨fun h => ⟨h.1, h.2.1, h.2.2⟩, fun h => ⟨h.op, h.portU1, h.portU2⟩⟩

instance : (ps : PsdBase) → (e : Event) → Decidable (Undisturbed ps e)
  | ps, .restart out =>
    inferInstanceAs (Decidable (∀ pd ∈ ps.devices.find? (needsWork ps.linkPowerMgmt),
      pLinkPowerWanted ps.linkPowerMgmt pd = false → out.port = true ∧ out.pipe = true → Complete pd out.ops))
  | _, .attach _ | _, .detach _ | _, .change _ _ | _, .policy _ | _, .setDeviceConfig _ _ | _, .resetDevice _ _
  | _, .sweep => .isTrue trivial

theorem armed_taken_back_once :
    ∃ ps, Run step Undisturbed (start true) (disarmEvents grantedOps) ps ∧ TakenBack ps ∧
      ∃ pd, ps.devices = [pd] ∧ pd.lpmArmed = ∅ ∧ pd.issued.length = 11 := by
  have hrun : Run step Undisturbed (start true) (disarmEvents grantedOps) _ :=
    Run.get_meets (by decide) (by decide)
  exact ⟨_, hrun, armed_taken_back hrun, _, rfl, by decide, by decide⟩

theorem not_tornDown_self (pd : PsdDevice) : ¬TornDown pd pd := by
  rintro ⟨new, hnew, i, hi, -⟩
  rw [self_eq_append_left.mp hnew] at hi
  exact absurd hi not_mem_nil

/-- After the failed block no sweep looks at the device; without the hub's pipe the timeout stays and its bit goes. -/
theorem armed_not_taken_back :
    (∃ ps pd, Run step anyStep (start true) (disarmEvents failedOps) ps ∧ ps.devices = [pd] ∧
      pd.eligible = true ∧ pLinkPowerWanted ps.linkPowerMgmt pd = false ∧ pd.lpmArmed = {.ctxOp} ∧
      ∀ out, sweepPass ps.linkPowerMgmt out ps.devices = none) ∧
    (∃ ps pd, Run step anyStep (start true) (disarmEvents unsentOps) ps ∧ ps.devices = [pd] ∧
      live .portU1 pd.issued = true ∧ pd.lpmArmed = ∅) ∧
    ¬∀ linkPowerMgmt evs ps, Run step anyStep (start linkPowerMgmt) evs ps → TakenBack ps := by
  have hrun : Run step anyStep (start true) (disarmEvents failedOps) _ := Run.get (by decide)
  have hends : ∀ out, sweepPass false out
      ((exec step (start true) (disarmEvents failedOps)).get (by decide)).devices = none :=
    fun out => sweepPass_none.mpr (by decide)
  refine ⟨⟨_, _, hrun, rfl, by decide, by decide, by decide, hends⟩,
    ⟨_, _, Run.get (by decide), rfl, by decide, by decide⟩, fun hall => ?_⟩
  obtain ⟨pd', hpd', htorn⟩ := (hall true _ _ hrun).retried 0 _ rfl (by decide) (by decide) (by decide)
    (fun _ => ⟨true, true, failedOps⟩) 0 _ rfl (hends _)
  cases hpd'
  exact not_tornDown_self _ htorn

end Neptune.LinkPower
