import Neptune.Spec.Suspend

/-! A suspend of a device goes through whole or is undone whole, exactly where what has quiesced the
endpoint rings can be followed by what restarts them: the device has a handle and there is memory for
the op. -/

namespace Neptune.Suspend

open List

variable {env : Env} {s s' : Sys} {pd : PsdDevice} {binding : ℕ}

def Call.isResume : Call → Bool
  | .attemptResume _ _ | .hubResume | .setSuspend false => true
  | _ => false

def Call.ofBinding : Call → Bool
  | .attemptSuspend _ _ | .release _ => true
  | _ => false

def Call.rings : Call → Option Bool
  | .setSuspend suspend => some suspend
  | _ => none

def lastSetSuspend (calls : List Call) : Option Bool := (calls.filterMap Call.rings).getLast?

/-- Each binding that has answered a suspend has afterwards been asked to resume, or released. -/
def Undone (calls : List Call) : Prop :=
  ∀ before after binding answer, calls = before ++ .attemptSuspend binding answer :: after →
    (∃ answer, .attemptResume binding answer ∈ after) ∨ .release binding ∈ after

variable {asked calls : List Call}

theorem undone_append {undoing : List Call}
    (hr : ∀ binding answer, .attemptSuspend binding answer ∈ asked →
      ∃ answer, .attemptResume binding answer ∈ undoing)
    (hn : ∀ binding answer, .attemptSuspend binding answer ∉ undoing) :
    Undone (asked ++ undoing) := by
  intro before after binding answer h
  rcases append_eq_append_iff.mp h with ⟨rest, -, hrest⟩ | ⟨rest, hasked, hrest⟩
  · -- the suspend would be among what undoes
    refine absurd ?_ (hn binding answer)
    rw [hrest]
    exact mem_append_right _ mem_cons_self
  · cases rest with
    | nil =>
      refine absurd ?_ (hn binding answer)
      rw [nil_append] at hrest
      rw [← hrest]
      exact mem_cons_self
    | cons c rest =>
      obtain ⟨rfl, rfl⟩ := cons_eq_cons.mp hrest
      obtain ⟨answer', hresume⟩ := hr binding answer (by
        rw [hasked]
        exact mem_append_right _ mem_cons_self)
      exact .inl ⟨answer', mem_append_right _ hresume⟩

structure Same (s s' : Sys) : Prop where
  suspended : s'.pd.suspended = s.pd.suspended
  handle : s'.pd.handle = s.pd.handle
  contextBackend : s'.pd.contextBackend = s.pd.contextBackend
  setSuspendCmd : s'.pd.setSuspendCmd = s.pd.setSuspendCmd

theorem Same.rfl : Same s s := ⟨.refl _, .refl _, .refl _, .refl _⟩

def Bound.held (b : Bound) (binding : ℕ) : Prop := b.binding = some binding ∧ b.cls ≠ none

def HeldDev (pd : PsdDevice) (binding : ℕ) : Prop := pd.appBinding = false ∧ pd.bound.held binding

def Env.agrees (env : Env) (force : Bool) (b : Bound) : Bool :=
  match b.binding, b.cls with
  | some binding, some cls =>
    match env.verdict force binding cls with
    | .asked answer => answer
    | .refused => false
    | .released | .passedOver => true
  | _, _ => true

def Env.devAgrees (env : Env) (force : Bool) (pd : PsdDevice) : Bool :=
  if pd.bound.binding.isSome && pd.appBinding then force else env.agrees force pd.bound

def Env.allAgree (env : Env) (pd : PsdDevice) : Bool :=
  env.devAgrees (env.force pd) pd &&
    pd.currentConfig.all fun pc => pc.interfaces.all (env.agrees (env.force pd))

theorem releaseDev_spec (s : Sys) : ∃ calls, s.psdReleaseDevBinding.calls = s.calls ++ calls ∧
    (∀ c ∈ calls, ∃ binding, c = .release binding) ∧ Same s s.psdReleaseDevBinding ∧
    s.psdReleaseDevBinding.pd.currentConfig = s.pd.currentConfig := by
  unfold Sys.psdReleaseDevBinding
  split
  · exact ⟨[], by simp, nofun, .rfl, rfl⟩
  · rename_i binding _
    split
    · exact ⟨[.release binding], rfl, by simp, ⟨rfl, rfl, rfl, rfl⟩, rfl⟩
    · split
      · exact ⟨[.release binding], rfl, by simp, ⟨rfl, rfl, rfl, rfl⟩, rfl⟩
      · exact ⟨[], by simp, nofun, ⟨rfl, rfl, rfl, rfl⟩, rfl⟩

/-- What the walk over the device binding, or over interfaces, has called. -/
structure Asked (calls : List Call) (held : ℕ → Prop) : Prop where
  ofBinding : ∀ c ∈ calls, c.ofBinding
  held : ∀ binding answer, .attemptSuspend binding answer ∈ calls → held binding

theorem Asked.of_released {held : ℕ → Prop}
    (h : ∀ c ∈ calls, ∃ binding, c = .release binding) : Asked calls held := by
  constructor
  · intro c hc
    obtain ⟨binding, rfl⟩ := h c hc
    rfl
  · intro binding answer hc
    obtain ⟨_, hr⟩ := h _ hc
    cases hr

theorem suspendDev_spec (env : Env) (force : Bool) (s : Sys) :
    (suspendDevBinding env force s).1 = env.devAgrees force s.pd ∧
    ∃ calls, (suspendDevBinding env force s).2.calls = s.calls ++ calls ∧
      Asked calls (HeldDev (suspendDevBinding env force s).2.pd) ∧
      Same s (suspendDevBinding env force s).2 ∧
      (suspendDevBinding env force s).2.pd.currentConfig = s.pd.currentConfig := by
  have hnone : ∀ held, Asked [] held := fun _ => .of_released nofun
  unfold suspendDevBinding Env.devAgrees
  cases hb : s.pd.bound.binding with
  | none => exact ⟨by simp [Env.agrees, hb], [], by simp, hnone _, .rfl, rfl⟩
  | some binding =>
    cases happ : s.pd.appBinding with
    | true =>
      cases force with
      | false => exact ⟨rfl, [], by simp, hnone _, .rfl, rfl⟩
      | true =>
        have hcls : s.psdReleaseDevBinding.pd.bound.cls = none := by
          simp [Sys.psdReleaseDevBinding, hb, happ]
        obtain ⟨calls, hcalls, hrel, hsame, hcfg⟩ := releaseDev_spec s
        simp only [Bool.not_true, Bool.and_false, Bool.false_eq_true, if_false, if_true, hcls]
        exact ⟨rfl, calls, hcalls, .of_released hrel, hsame, hcfg⟩
    | false =>
      simp only [Bool.false_and, Bool.false_eq_true, if_false, Bool.and_false]
      cases hc : s.pd.bound.cls with
      | none => exact ⟨by simp [Env.agrees, hb, hc], [], by simp, hnone _, .rfl, rfl⟩
      | some cls =>
        simp only [Env.agrees, hb, hc]
        cases env.verdict force binding cls with
        | asked answer =>
          refine ⟨rfl, [.attemptSuspend binding answer], rfl, ⟨by simp [Call.ofBinding], ?_⟩,
            ⟨rfl, rfl, rfl, rfl⟩, rfl⟩
          intro binding' answer' hmem
          obtain ⟨rfl, rfl⟩ := Call.attemptSuspend.inj (mem_singleton.mp hmem)
          exact ⟨happ, hb, by simp [Sys.call, hc]⟩
        | refused => exact ⟨rfl, [], by simp, hnone _, .rfl, rfl⟩
        | released =>
          obtain ⟨calls, hcalls, hrel, hsame, hcfg⟩ := releaseDev_spec s
          exact ⟨rfl, calls, hcalls, .of_released hrel, hsame, hcfg⟩
        | passedOver => exact ⟨rfl, [], by simp, hnone _, .rfl, rfl⟩

def HeldBy (pifs : List Bound) (binding : ℕ) : Prop := ∃ pif ∈ pifs, pif.held binding

theorem Asked.cons {pifs : List Bound} (h : Asked calls (HeldBy pifs))
    (pif : Bound) : Asked calls (HeldBy (pif :: pifs)) where
  ofBinding := h.ofBinding
  held := fun binding answer hc =>
    (h.held binding answer hc).imp fun _ hp => ⟨mem_cons_of_mem _ hp.1, hp.2⟩

theorem suspendInterfaces_spec (env : Env) (force : Bool) (pifs : List Bound) :
    (suspendInterfaces env force pifs).1 = pifs.all (env.agrees force) ∧
      Asked (suspendInterfaces env force pifs).2.2
        (HeldBy (suspendInterfaces env force pifs).2.1) := by
  induction pifs with
  | nil => exact ⟨rfl, .of_released nofun⟩
  | cons pif pifs ih =>
    obtain ⟨hres, hasked⟩ := ih
    unfold suspendInterfaces
    rw [all_cons]
    split
    · rename_i binding cls hb hc
      have hheld : pif.held binding := ⟨hb, by simp [hc]⟩
      simp only [Env.agrees, hb, hc]
      cases env.verdict force binding cls with
      | asked answer =>
        cases answer with
        | false =>
          refine ⟨rfl, by simp [Call.ofBinding], fun binding' answer' hmem => ?_⟩
          obtain ⟨rfl, -⟩ := Call.attemptSuspend.inj (mem_singleton.mp hmem)
          exact ⟨pif, mem_cons_self, hheld⟩
        | true =>
          refine ⟨by simpa [Env.agrees] using hres, ?_, fun binding' answer' hmem => ?_⟩
          · intro c hc
            rcases mem_cons.mp hc with rfl | hc
            · rfl
            · exact hasked.ofBinding c hc
          · rcases mem_cons.mp hmem with he | hmem
            · obtain ⟨rfl, -⟩ := Call.attemptSuspend.inj he
              exact ⟨pif, mem_cons_self, hheld⟩
            · exact (hasked.cons pif).held binding' answer' hmem
      | refused => exact ⟨rfl, .of_released nofun⟩
      | released =>
        refine ⟨by simpa [Env.agrees] using hres, ?_, fun binding' answer' hmem => ?_⟩
        · intro c hc
          rcases mem_cons.mp hc with rfl | hc
          · rfl
          · exact hasked.ofBinding c hc
        · rcases mem_cons.mp hmem with he | hmem
          · cases he
          · exact (hasked.cons _).held binding' answer' hmem
      | passedOver => exact ⟨by simpa [Env.agrees] using hres, hasked.cons pif⟩
    · rename_i hno
      refine ⟨?_, hasked.cons pif⟩
      have : env.agrees force pif = true := by
        unfold Env.agrees
        split
        · rename_i binding cls hb hc
          exact absurd hc (hno binding cls hb)
        · rfl
      simpa [this] using hres

def Held (pd : PsdDevice) (binding : ℕ) : Prop :=
  HeldDev pd binding ∨ ∃ pc, pd.currentConfig = some pc ∧ HeldBy pc.interfaces binding

theorem Asked.mono {held held' : ℕ → Prop} (h : Asked calls held)
    (hi : ∀ binding, held binding → held' binding) : Asked calls held' :=
  ⟨h.ofBinding, fun binding answer hc => hi binding (h.held binding answer hc)⟩

theorem Asked.append {calls' : List Call} {held : ℕ → Prop} (h : Asked calls held)
    (h' : Asked calls' held) : Asked (calls ++ calls') held where
  ofBinding := fun c hc => (mem_append.mp hc).elim (h.ofBinding c) (h'.ofBinding c)
  held := fun binding answer hc =>
    (mem_append.mp hc).elim (h.held binding answer) (h'.held binding answer)

theorem suspendBindings_spec (env : Env) (s : Sys) :
    (psdSuspendBindings env s).1 = env.allAgree s.pd ∧
    ∃ calls, (psdSuspendBindings env s).2.calls = s.calls ++ calls ∧
      Asked calls (Held (psdSuspendBindings env s).2.pd) ∧
      Same s (psdSuspendBindings env s).2 := by
  obtain ⟨hres, calls, hcalls, hasked, hsame, hcfg⟩ := suspendDev_spec env (env.force s.pd) s
  simp only [psdSuspendBindings, Env.allAgree]
  rw [← hres, ← hcfg]
  generalize suspendDevBinding env (env.force s.pd) s = dev at *
  obtain ⟨res, s'⟩ := dev
  cases res with
  | false => exact ⟨rfl, calls, hcalls, hasked.mono fun _ => .inl, hsame⟩
  | true =>
    simp only [Bool.not_true, Bool.false_eq_true, if_false, Bool.true_and]
    cases hpc : s'.pd.currentConfig with
    | none => exact ⟨rfl, calls, hcalls, hasked.mono fun _ => .inl, hsame⟩
    | some pc =>
      obtain ⟨hresIf, haskedIf⟩ := suspendInterfaces_spec env (env.force s.pd) pc.interfaces
      simp only at hcalls hasked ⊢
      generalize suspendInterfaces env (env.force s.pd) pc.interfaces = walk at *
      obtain ⟨resIf, left, callsIf⟩ := walk
      refine ⟨by simpa using hresIf, calls ++ callsIf, ?_, ?_, ?_⟩
      · rw [hcalls, append_assoc]
      · exact .append (hasked.mono fun _ => .inl) (haskedIf.mono fun _ h => .inr ⟨_, rfl, h⟩)
      · exact ⟨hsame.suspended, hsame.handle, hsame.contextBackend, hsame.setSuspendCmd⟩

def Call.neutral : Call → Bool
  | .attemptSuspend _ _ | .setSuspend _ => false
  | _ => true

theorem resumeInterface_neutral (env : Env) (pif : Bound) :
    ∀ c ∈ (resumeInterface env pif).2.2, c.neutral := by
  unfold resumeInterface
  split
  · split <;> simp [Call.neutral]
  · simp

theorem resumeInterface_asks (env : Env) {pif : Bound} (h : pif.held binding) :
    ∃ answer, .attemptResume binding answer ∈ (resumeInterface env pif).2.2 := by
  obtain ⟨cls, hc⟩ := Option.ne_none_iff_exists'.mp h.2
  simp only [resumeInterface, h.1, hc]
  split
  · exact ⟨true, mem_cons_self⟩
  · exact ⟨false, mem_cons_self⟩

theorem resumeInterfaces_neutral (env : Env) (pifs : List Bound) :
    ∀ c ∈ (resumeInterfaces env pifs).2.2, c.neutral := by
  intro c hc
  obtain ⟨r, hr, hc⟩ := mem_flatMap.mp hc
  obtain ⟨pif, -, rfl⟩ := List.mem_map.mp hr
  exact resumeInterface_neutral env pif c hc

theorem resumeInterfaces_asks (env : Env) {pifs : List Bound} (h : HeldBy pifs binding) :
    ∃ answer, .attemptResume binding answer ∈ (resumeInterfaces env pifs).2.2 := by
  obtain ⟨pif, hp, hheld⟩ := h
  obtain ⟨answer, ha⟩ := resumeInterface_asks env hheld
  exact ⟨answer, mem_flatMap.mpr ⟨_, List.mem_map_of_mem hp, ha⟩⟩

def Env.restarts (env : Env) (pd : PsdDevice) : Bool :=
  pd.contextBackend && pd.setSuspendCmd && pd.handle ≠ 0 && env.restart ≠ .noMemory

theorem resumeDev_spec (env : Env) (s : Sys) :
    ∃ calls, (resumeDevBinding env s).2.calls = s.calls ++ calls ∧
      (∀ c ∈ calls, c.neutral) ∧
      (∀ binding, HeldDev s.pd binding → ∃ answer, .attemptResume binding answer ∈ calls) ∧
      (resumeDevBinding env s).2.pd.suspended = s.pd.suspended ∧
      (resumeDevBinding env s).2.pd.currentConfig = s.pd.currentConfig := by
  unfold resumeDevBinding
  split
  · rename_i b cls hb hc
    have hask : ∀ (calls : List Call) binding, HeldDev s.pd binding →
        ∃ answer, .attemptResume binding answer ∈
          Call.attemptResume b (env.resumes b) :: calls := by
      intro calls binding hheld
      obtain rfl := Option.some.inj (hb.symm.trans hheld.2.1)
      exact ⟨_, mem_cons_self⟩
    split
    · rename_i happ
      refine ⟨[], by simp, nofun, fun binding hheld => ?_, rfl, rfl⟩
      rw [hheld.1] at happ
      cases happ
    · split
      · exact ⟨[.attemptResume b (env.resumes b)], rfl, by simp [Call.neutral], hask [], rfl, rfl⟩
      · obtain ⟨calls, hcalls, hrel, hsame, hcfg⟩ :=
          releaseDev_spec (s.call (.attemptResume b (env.resumes b)))
        refine ⟨.attemptResume b (env.resumes b) :: calls, ?_, fun c hmem => ?_, hask calls,
          hsame.suspended, hcfg⟩
        · rw [hcalls]
          simp [Sys.call]
        · rcases mem_cons.mp hmem with rfl | hmem
          · rfl
          · obtain ⟨binding, rfl⟩ := hrel c hmem
            rfl
  · rename_i hno
    refine ⟨[], by simp, nofun, fun binding hheld => ?_, rfl, rfl⟩
    obtain ⟨cls, hc⟩ := Option.ne_none_iff_exists'.mp hheld.2.2
    exact absurd hc (hno binding cls hheld.2.1)

/-- Calls that undo a suspend: everything held is asked, and the rings restart. -/
structure Undoes (env : Env) (pd : PsdDevice) (calls : List Call) : Prop where
  rings : calls.filterMap Call.rings = if env.restarts pd then [false] else []
  nothing : ∀ binding answer, .attemptSuspend binding answer ∉ calls
  asks : ∀ binding, Held pd binding → ∃ answer, .attemptResume binding answer ∈ calls

theorem restartRings_spec (env : Env) (s : Sys) :
    ∃ calls, restartRings env s = { s with calls := s.calls ++ calls } ∧
      calls.filterMap Call.rings = (if env.restarts s.pd then [false] else []) ∧
      ∀ binding answer, .attemptSuspend binding answer ∉ calls := by
  unfold restartRings Env.restarts
  cases hcan : s.pd.contextBackend && s.pd.setSuspendCmd && s.pd.handle ≠ 0 with
  | false => exact ⟨[], by simp, rfl, nofun⟩
  | true =>
    cases hop : env.restart with
    | noMemory => exact ⟨[], by simp [ctxSetSuspend], rfl, nofun⟩
    | reply ioerr => exact ⟨[.setSuspend false], rfl, rfl, by simp⟩

theorem askLinkPower_spec (env : Env) (s : Sys) :
    ∃ req, askLinkPower env s = { s with linkPowerReq := req } := by
  unfold askLinkPower
  split
  · exact ⟨true, rfl⟩
  · exact ⟨s.linkPowerReq, rfl⟩

theorem filterMap_neutral (h : ∀ c ∈ calls, c.neutral) :
    calls.filterMap Call.rings = [] := by
  refine filterMap_eq_nil_iff.mpr fun c hc => ?_
  have := h c hc
  cases c <;> first | rfl | cases this

theorem Undoes.of_neutral {restart : List Call}
    (hr : restart.filterMap Call.rings = if env.restarts pd then [false] else [])
    (hno : ∀ binding answer, .attemptSuspend binding answer ∉ restart)
    (hn : ∀ c ∈ calls, c.neutral)
    (ha : ∀ binding, Held pd binding → ∃ answer, .attemptResume binding answer ∈ calls) :
    Undoes env pd (restart ++ calls) where
  rings := by rw [filterMap_append, filterMap_neutral hn, append_nil, hr]
  nothing := by
    intro binding answer hc
    rcases mem_append.mp hc with hc | hc
    · exact hno binding answer hc
    · cases hn _ hc
  asks := fun binding hheld =>
    (ha binding hheld).imp fun _ hc => mem_append_right _ hc

theorem rescan_spec (s : Sys) (rescan : Bool) :
    ∃ calls, (if rescan then s.call .classScan else s) = { s with calls := s.calls ++ calls } ∧
      ∀ c ∈ calls, c.neutral := by
  cases rescan with
  | true => exact ⟨[.classScan], rfl, by simp [Call.neutral]⟩
  | false => exact ⟨[], by simp, nofun⟩

theorem resumeIf_spec (env : Env) (s : Sys) :
    ∃ calls, (resumeIfBindings env s).2.calls = s.calls ++ calls ∧ (∀ c ∈ calls, c.neutral) ∧
      (∀ pc binding, s.pd.currentConfig = some pc → HeldBy pc.interfaces binding →
        ∃ answer, .attemptResume binding answer ∈ calls) ∧
      (resumeIfBindings env s).2.pd.suspended = s.pd.suspended := by
  unfold resumeIfBindings
  cases hpc : s.pd.currentConfig with
  | none => exact ⟨[], by simp, nofun, nofun, rfl⟩
  | some pc =>
    refine ⟨_, rfl, resumeInterfaces_neutral env pc.interfaces, fun pc' binding hp hheld => ?_, rfl⟩
    obtain rfl := Option.some.inj hp
    exact resumeInterfaces_asks env hheld

theorem resumeBound_spec (env : Env) (s : Sys) :
    ∃ calls, (resumeBound env s).calls = s.calls ++ calls ∧ (∀ c ∈ calls, c.neutral) ∧
      (∀ binding, Held s.pd binding → ∃ answer, .attemptResume binding answer ∈ calls) ∧
      (resumeBound env s).pd.suspended = s.pd.suspended := by
  obtain ⟨dev, hdev, hneutral, hasks, hsusp, hcfg⟩ := resumeDev_spec env s
  obtain ⟨calls, hcalls, hneutralIf, hasksIf, hsuspIf⟩ :=
    resumeIf_spec env (resumeDevBinding env s).2
  obtain ⟨scan, hscan, hneutralScan⟩ :=
    rescan_spec (resumeIfBindings env (resumeDevBinding env s).2).2
      ((resumeDevBinding env s).1 || (resumeIfBindings env (resumeDevBinding env s).2).1)
  simp only [resumeBound]
  rw [hscan]
  refine ⟨dev ++ (calls ++ scan), ?_, fun c hc => ?_, ?_, hsuspIf.trans hsusp⟩
  · simp only [hcalls, hdev, append_assoc]
  · rcases mem_append.mp hc with hc | hc
    · exact hneutral c hc
    · exact (mem_append.mp hc).elim (hneutralIf c) (hneutralScan c)
  · rintro binding (hheld | ⟨pc, hp, hheld⟩)
    · exact (hasks binding hheld).imp fun _ => mem_append_left _
    · refine (hasksIf pc binding (hcfg.trans hp) hheld).imp fun _ hc => ?_
      exact mem_append_right _ (mem_append_left _ hc)

theorem resumeBindings_spec (env : Env) (s : Sys) :
    ∃ calls, (psdResumeBindings env s).calls = s.calls ++ calls ∧ Undoes env s.pd calls ∧
      (psdResumeBindings env s).pd.suspended = s.pd.suspended := by
  obtain ⟨restart, hrestart, hrings, hno⟩ := restartRings_spec env s
  obtain ⟨req, hreq⟩ := askLinkPower_spec env { s with calls := s.calls ++ restart }
  obtain ⟨calls, hcalls, hneutral, hasks, hsusp⟩ :=
    resumeBound_spec env ⟨s.pd, req, s.calls ++ restart⟩
  rw [psdResumeBindings, hrestart, hreq]
  refine ⟨restart ++ calls, ?_, .of_neutral hrings hno hneutral hasks, hsusp⟩
  rw [hcalls, append_assoc]

def Env.quiesces (env : Env) (pd : PsdDevice) : Bool :=
  pd.contextBackend && env.quiesce ≠ .noMemory

def Env.parks (env : Env) : Bool :=
  match env.hub with
  | some hubs => hubs.park.hasClass && env.hubSuspend.result
  | none => true

def Env.completes (env : Env) (pd : PsdDevice) : Bool :=
  (!pd.contextBackend || env.quiesce = .reply 0) && env.parks

def Call.ofDevice : Call → Bool
  | .setSuspend true | .hubSuspend => true
  | _ => false

structure Lowered (env : Env) (s s' : Sys) (calls : List Call) : Prop where
  adds : s'.calls = s.calls ++ calls
  ofDevice : ∀ c ∈ calls, c.ofDevice
  held : ∀ binding, Held s.pd binding → Held s'.pd binding
  restarts : env.restarts s'.pd = env.restarts s.pd

theorem pArmRemoteWakeup_spec (env : Env) (s : Sys) :
    Lowered env s (pArmRemoteWakeup env s) [] ∧
      (pArmRemoteWakeup env s).pd.contextBackend = s.pd.contextBackend ∧
      (pArmRemoteWakeup env s).pd.suspended = s.pd.suspended := by
  unfold pArmRemoteWakeup
  cases hpc : s.pd.currentConfig with
  | none => exact ⟨⟨by simp, nofun, fun _ h => h, rfl⟩, rfl, rfl⟩
  | some pc =>
    simp only
    split
    · refine ⟨⟨by simp, nofun, fun binding hheld => ?_, rfl⟩, rfl, rfl⟩
      refine hheld.imp id fun ⟨pc', hp, hif⟩ => ⟨_, rfl, ?_⟩
      obtain rfl := Option.some.inj (hpc.symm.trans hp)
      exact hif
    · exact ⟨⟨by simp, nofun, fun _ h => h, rfl⟩, rfl, rfl⟩

theorem park_spec (env : Env) (s : Sys) :
    (park env s).1 = env.parks ∧ (∃ calls, Lowered env s (park env s).2 calls ∧
      calls.filterMap Call.rings = []) ∧
      (park env s).2.pd.suspended = (env.parks || s.pd.suspended) := by
  unfold park Env.parks
  cases env.hub with
  | none => exact ⟨rfl, ⟨[], ⟨by simp, nofun, fun _ h => h, rfl⟩, rfl⟩, rfl⟩
  | some hubs =>
    simp only
    cases hubs.park.hasClass with
    | false => exact ⟨rfl, ⟨[], ⟨by simp, nofun, fun _ h => h, rfl⟩, rfl⟩, rfl⟩
    | true =>
      have hcalls : Lowered env s (s.call .hubSuspend) [.hubSuspend] :=
        ⟨rfl, by simp [Call.ofDevice], fun _ h => h, rfl⟩
      rw [if_pos rfl, Bool.true_and]
      unfold nHubSuspendDevice
      cases env.hubSuspend.result with
      | false => exact ⟨rfl, ⟨_, hcalls, rfl⟩, rfl⟩
      | true => exact ⟨rfl, ⟨_, ⟨hcalls.adds, hcalls.ofDevice, hcalls.held, rfl⟩, rfl⟩, rfl⟩

theorem Lowered.trans {s'' : Sys} {calls' : List Call} (h : Lowered env s s' calls)
    (h' : Lowered env s' s'' calls') : Lowered env s s'' (calls ++ calls') where
  adds := by rw [h'.adds, h.adds, append_assoc]
  ofDevice := fun c hc => (mem_append.mp hc).elim (h.ofDevice c) (h'.ofDevice c)
  held := fun binding hheld => h'.held binding (h.held binding hheld)
  restarts := h'.restarts.trans h.restarts

theorem suspendRings_spec (env : Env) (s : Sys) (ha : s.pd.suspended = false) :
    (suspendRings env s).1 = env.completes s.pd ∧
      (suspendRings env s).2.pd.suspended = env.completes s.pd ∧
      ∃ calls, Lowered env s (suspendRings env s).2 calls ∧
        calls.filterMap Call.rings = if env.quiesces s.pd then [true] else [] := by
  -- the wakeup is armed before, and changes nothing of the rest
  have harm : ∃ s', (if env.hub.isSome then pArmRemoteWakeup env s else s) = s' ∧
      Lowered env s s' [] ∧ s'.pd.contextBackend = s.pd.contextBackend ∧
      s'.pd.suspended = s.pd.suspended := by
    refine ⟨_, rfl, ?_⟩
    split
    · exact pArmRemoteWakeup_spec env s
    · exact ⟨⟨by simp, nofun, fun _ h => h, rfl⟩, rfl, rfl⟩
  obtain ⟨s', hs', hlow, hctx, hsusp⟩ := harm
  have ha' := hsusp.trans ha
  simp only [suspendRings, hs', Env.completes, Env.quiesces, ← hctx]
  cases hbackend : s'.pd.contextBackend with
  | false =>
    obtain ⟨hres, ⟨calls, hpark, hrings⟩, hflag⟩ := park_spec env s'
    rw [ha', Bool.or_false] at hflag
    exact ⟨hres, hflag, calls, hlow.trans hpark, hrings⟩
  | true =>
    cases hop : env.quiesce with
    | noMemory => exact ⟨rfl, ha', [], hlow, rfl⟩
    | reply ioerr =>
      have hring : Lowered env s' (s'.call (.setSuspend true)) [.setSuspend true] :=
        ⟨rfl, by simp [Call.ofDevice], fun _ h => h, rfl⟩
      rw [if_pos rfl]
      by_cases hok : (ctxSetSuspend true (.reply ioerr) s').1 = 0
      · obtain ⟨hres, ⟨calls, hpark, hrings⟩, hflag⟩ := park_spec env (s'.call (.setSuspend true))
        rw [show (s'.call (.setSuspend true)).pd.suspended = false from ha', Bool.or_false] at hflag
        rw [if_pos hok]
        obtain rfl : ioerr = 0 := hok
        refine ⟨hres.trans (by simp), hflag.trans (by simp), _, hlow.trans (hring.trans hpark), ?_⟩
        rw [nil_append, filterMap_append, hrings]
        rfl
      · rw [if_neg hok]
        replace hok : ioerr ≠ 0 := hok
        exact ⟨by simp [hok], by simp [hok, ctxSetSuspend, Sys.call, ha'], _, hlow.trans hring, rfl⟩

theorem rollback_spec (env : Env) (s : Sys) (ha : s.pd.suspended = false) :
    (rollback env s).pd.suspended = false ∧
      ∃ calls, (rollback env s).calls = s.calls ++ calls ∧ Undoes env s.pd calls := by
  -- the port is unparked first, if the hub is still there
  have hunpark : ∃ s', rollback env s = psdResumeBindings env s' ∧ s'.pd = s.pd ∧
      ∃ calls, s'.calls = s.calls ++ calls ∧ ∀ c ∈ calls, c = .hubResume := by
    refine ⟨_, rfl, ?_⟩
    split
    · split
      · unfold nHubResumeDevice
        split
        · refine ⟨?_, [.hubResume], rfl, by simp⟩
          simp only [Sys.call]
          rw [← ha]
        · exact ⟨rfl, [.hubResume], rfl, by simp⟩
      · exact ⟨rfl, [], by simp, nofun⟩
    · exact ⟨rfl, [], by simp, nofun⟩
  obtain ⟨s', hs', hpd, unpark, hcalls, hunpark⟩ := hunpark
  obtain ⟨calls, hresume, hundoes, hsusp⟩ := resumeBindings_spec env s'
  rw [hs']
  refine ⟨by rw [hsusp, hpd, ha], unpark ++ calls, ?_, ?_, ?_, ?_⟩
  · rw [hresume, hcalls, append_assoc]
  · rw [filterMap_append, ← hpd, hundoes.rings]
    rw [filterMap_eq_nil_iff.mpr fun c hc => by rw [hunpark c hc]; rfl]
    rfl
  · intro binding answer hc
    rcases mem_append.mp hc with hc | hc
    · cases hunpark _ hc
    · exact hundoes.nothing binding answer hc
  · intro binding hheld
    rw [← hpd] at hheld
    exact (hundoes.asks binding hheld).imp fun _ => mem_append_right _

/-- A suspended device, and no resume on the way down; or an awake one, with everything undone. -/
def Whole (env : Env) (s : Sys) : Prop :=
  ((psdSuspendDevice env s).1 = true → (psdSuspendDevice env s).2.pd.suspended = true ∧
    ∀ c ∈ (psdSuspendDevice env s).2.calls, ¬ c.isResume) ∧
  ((psdSuspendDevice env s).1 = false → s.pd.suspended = false →
    (psdSuspendDevice env s).2.pd.suspended = false ∧
    (s.pd.contextBackend = true → lastSetSuspend (psdSuspendDevice env s).2.calls ≠ some true) ∧
    Undone (psdSuspendDevice env s).2.calls)

def Restartable (env : Env) (pd : PsdDevice) : Prop :=
  pd.suspended = true ∨ pSuspendRefusal env pd = true ∨ env.allAgree pd = false ∨
    env.quiesces pd = false ∨ env.completes pd = true ∨
    pd.handle ≠ 0 ∧ env.restart ≠ .noMemory

theorem Asked.rings {held : ℕ → Prop} (h : Asked calls held) :
    calls.filterMap Call.rings = [] := by
  refine filterMap_eq_nil_iff.mpr fun c hc => ?_
  have := h.ofBinding c hc
  cases c <;> first | rfl | cases this

theorem isResume_ofBinding {c : Call} (h : c.ofBinding) : ¬ c.isResume := by
  cases c <;> simp_all [Call.ofBinding, Call.isResume]

theorem isResume_ofDevice {c : Call} (h : c.ofDevice) : ¬ c.isResume := by
  cases c with
  | setSuspend suspend => cases suspend <;> simp_all [Call.ofDevice, Call.isResume]
  | _ => simp_all [Call.ofDevice, Call.isResume]

theorem lastSetSuspend_rollback {down up : List Call} {quiesced restarts : Bool}
    (h₁ : asked.filterMap Call.rings = [])
    (h₂ : down.filterMap Call.rings = if quiesced then [true] else [])
    (h₃ : up.filterMap Call.rings = if restarts then [false] else []) :
    lastSetSuspend (asked ++ (down ++ up)) ≠ some true ↔ quiesced = false ∨ restarts = true := by
  unfold lastSetSuspend
  rw [filterMap_append, filterMap_append, h₁, h₂, h₃]
  cases quiesced <;> cases restarts <;> simp

theorem restarts_of_allowed (hr : pSuspendRefusal env pd = false) (hq : env.quiesces pd = true) :
    env.restarts pd = true ↔ pd.handle ≠ 0 ∧ env.restart ≠ .noMemory := by
  simp only [pSuspendRefusal, Bool.or_eq_false_iff] at hr
  simp only [Env.quiesces, Bool.and_eq_true] at hq
  have hcmd : pd.setSuspendCmd = true := by simpa [hq.1] using hr.1
  simp [Env.restarts, hq.1, hcmd]

theorem rollback_undoes {s₁ s₂ : Sys} {down : List Call} {q : Bool}
    (h₁ : s₁.calls = asked) (hasked : Asked asked (Held s₁.pd)) (h₂ : Lowered env s₁ s₂ down)
    (hq : down.filterMap Call.rings = if q then [true] else [])
    (ha : s₂.pd.suspended = false) :
    (rollback env s₂).pd.suspended = false ∧ Undone (rollback env s₂).calls ∧
      (lastSetSuspend (rollback env s₂).calls ≠ some true ↔
        q = false ∨ env.restarts s₁.pd = true) := by
  obtain ⟨hflag, up, hup, hundoes⟩ := rollback_spec env s₂ ha
  have hcalls : (rollback env s₂).calls = asked ++ (down ++ up) := by
    rw [hup, h₂.adds, h₁, append_assoc]
  rw [hcalls]
  refine ⟨hflag, undone_append (fun binding answer hc => ?_) fun binding answer hc => ?_, ?_⟩
  · have hheld := h₂.held binding (hasked.held binding answer hc)
    exact (hundoes.asks binding hheld).imp fun _ => mem_append_right _
  · rcases mem_append.mp hc with hc | hc
    · cases h₂.ofDevice _ hc
    · exact hundoes.nothing binding answer hc
  · have hrings := hundoes.rings
    rw [h₂.restarts] at hrings
    exact lastSetSuspend_rollback hasked.rings hq hrings

theorem Same.restarts (h : Same s s') (env : Env) : env.restarts s'.pd = env.restarts s.pd := by
  unfold Env.restarts
  rw [h.contextBackend, h.setSuspendCmd, h.handle]

theorem suspend_tried (env : Env) (s : Sys) (hs : s.pd.suspended = false)
    (hr : pSuspendRefusal env s.pd = false) :
    psdSuspendDevice env s =
      if (psdSuspendBindings env s).1 then
        if (suspendRings env (psdSuspendBindings env s).2).1 then
          (true, (suspendRings env (psdSuspendBindings env s).2).2)
        else (false, rollback env (suspendRings env (psdSuspendBindings env s).2).2)
      else (false, rollback env (psdSuspendBindings env s).2) := by
  simp only [psdSuspendDevice, hs, hr]
  cases (psdSuspendBindings env s).1 with
  | false => rfl
  | true =>
    simp only [if_true]
    generalize suspendRings env (psdSuspendBindings env s).2 = rings
    obtain ⟨res, s'⟩ := rings
    cases res <;> rfl

/-- A device is suspended whole or left as it was, exactly if the rings can be restarted wherever a
step after them fails. -/
theorem suspend_whole (env : Env) (pd : PsdDevice) (req : Bool) :
    Whole env ⟨pd, req, []⟩ ↔ Restartable env pd := by
  unfold Whole Restartable
  by_cases hs : pd.suspended = true
  · have hdone : psdSuspendDevice env ⟨pd, req, []⟩ = (true, ⟨pd, req, []⟩) := if_pos hs
    rw [hdone]
    simp [hs]
  by_cases hr : pSuspendRefusal env pd = true
  · have hdone : psdSuspendDevice env ⟨pd, req, []⟩ = (false, ⟨pd, req, []⟩) :=
      (if_neg hs).trans (if_pos hr)
    rw [hdone]
    simp [hs, hr, Undone, lastSetSuspend]
  rw [Bool.not_eq_true] at hs hr
  rw [suspend_tried env ⟨pd, req, []⟩ hs hr]
  obtain ⟨hagree, asked, hcalls, hasked, hsame⟩ := suspendBindings_spec env ⟨pd, req, []⟩
  rw [nil_append] at hcalls
  generalize psdSuspendBindings env ⟨pd, req, []⟩ = bindings at *
  obtain ⟨agreed, s₁⟩ := bindings
  simp only at hagree hcalls hasked hsame ⊢
  have hs₁ : s₁.pd.suspended = false := hsame.suspended.trans hs
  cases agreed with
  | false =>
    -- nothing has been quiesced
    have hno : Lowered env s₁ s₁ [] := ⟨by simp, nofun, fun _ h => h, rfl⟩
    obtain ⟨hflag, hundone, hlast⟩ :=
      rollback_undoes (q := false) hcalls hasked hno rfl hs₁
    refine iff_of_true ⟨nofun, fun _ _ => ⟨hflag, fun _ => hlast.mpr (.inl rfl), hundone⟩⟩ ?_
    exact .inr (.inr (.inl hagree.symm))
  | true =>
    obtain ⟨hres, hflag, down, hlow, hrings⟩ := suspendRings_spec env s₁ hs₁
    generalize suspendRings env s₁ = rings at *
    obtain ⟨res, s₂⟩ := rings
    have hcompletes : env.completes s₁.pd = env.completes pd := by
      unfold Env.completes
      rw [hsame.contextBackend]
    have hquiesces : env.quiesces s₁.pd = env.quiesces pd := by
      unfold Env.quiesces
      rw [hsame.contextBackend]
    rw [hcompletes] at hres hflag
    rw [hquiesces] at hrings
    simp only [if_true] at hres hflag ⊢
    cases res with
    | true =>
      refine iff_of_true ⟨fun _ => ⟨hflag.trans hres.symm, fun c hc => ?_⟩, nofun⟩ ?_
      · have hadds : s₂.calls = asked ++ down := hlow.adds.trans (by rw [hcalls])
        simp only [if_true, hadds] at hc
        rcases mem_append.mp hc with hc | hc
        · exact isResume_ofBinding (hasked.ofBinding c hc)
        · exact isResume_ofDevice (hlow.ofDevice c hc)
      · exact .inr (.inr (.inr (.inr (.inl hres.symm))))
    | false =>
      obtain ⟨hawake, hundone, hlast⟩ :=
        rollback_undoes hcalls hasked hlow hrings (hflag.trans hres.symm)
      rw [hsame.restarts env] at hlast
      have hiff : (pd.contextBackend = true → lastSetSuspend (rollback env s₂).calls ≠ some true) ↔
          env.quiesces pd = false ∨ pd.handle ≠ 0 ∧ env.restart ≠ .noMemory := by
        cases hq : env.quiesces pd with
        | false => exact iff_of_true (fun _ => hlast.mpr (.inl hq)) (.inl rfl)
        | true =>
          have hctx : pd.contextBackend = true := by
            unfold Env.quiesces at hq
            exact (Bool.and_eq_true_iff.mp hq).1
          rw [← restarts_of_allowed hr hq]
          simpa [hctx, hq] using hlast
      simp only [Bool.false_eq_true, if_false, false_implies, true_and, true_implies, hs, hr,
        ← hagree, ← hres, reduceCtorEq, false_or]
      rw [← hiff]
      exact ⟨fun h => h.2.1, fun h => ⟨hawake, h, hundone⟩⟩

def camera : PsdDevice :=
  ⟨false, false, ⟨none, none⟩, some ⟨true, [⟨some 1, some 2⟩]⟩, 7, false, true, true⟩

/-- The class agrees and the rings quiesce; the hub fails to park the port, and then there is no
memory left. -/
def outOfMemory : Env where
  forceSuspend := false
  linkPowerWanted := false
  supportsSuspend := fun _ => true
  suspends := fun _ => true
  resumes := fun _ => true
  ioBusyCount := fun _ => 0
  hub :=
    let hub : Hub := ⟨true, ⟨some 3, some 4⟩⟩
    some ⟨hub, hub, hub⟩
  wakeup := ⟨true, 0, true⟩
  quiesce := .reply 0
  hubSuspend := .handled true UHIOERR_TIMEOUT
  hubResume := .handled true 0
  restart := .noMemory

/-- The rings stay quiesced under a device that is awake. -/
theorem suspend_half_left : ¬ Whole outOfMemory ⟨camera, false, []⟩ :=
  fun h => (h.2 rfl rfl).2.1 rfl rfl

end Neptune.Suspend
