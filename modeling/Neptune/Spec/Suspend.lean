import Mathlib

/-! Suspending a device: its bindings, the endpoint rings of a context backend, and the port at the
parent hub. What the classes, the HCD and the hub answer comes from outside; what is asked of them
is kept in order. What `psdClassScan` binds afterwards is not followed. -/

namespace Neptune.Suspend

def UHIOERR_TIMEOUT : ℤ := 6
def UHIOERR_OUTOFMEMORY : ℤ := 12

/-- A binding and its class, of a device or of an interface. -/
structure Bound where
  binding : Option ℕ
  cls : Option ℕ
  deriving DecidableEq, Repr

structure PsdConfig where
  /-- `USCAF_REMOTE_WAKEUP` of `pc_Attr`. -/
  remoteWakeup : Bool
  interfaces : List Bound
  deriving DecidableEq, Repr

/-- What the backend of the hardware is and can do, with the device's handle there. -/
structure PsdDevice where
  suspended : Bool
  appBinding : Bool
  bound : Bound
  currentConfig : Option PsdConfig
  handle : ℕ
  /-- `PDLPMF_POLICY` of `pd_LpmArmed`. -/
  lpmPolicy : Bool
  contextBackend : Bool
  /-- `NSCMD_USB_SET_SUSPEND` in `phw_CtxCmdMask`. -/
  setSuspendCmd : Bool
  deriving DecidableEq, Repr

inductive Call
  | attemptSuspend (binding : ℕ) (answer : Bool)
  | attemptResume (binding : ℕ) (answer : Bool)
  /-- By the release method of its class, or by the hook of an application. -/
  | release (binding : ℕ)
  /-- `NSCMD_USB_SET_SUSPEND` has reached the HCD. -/
  | setSuspend (suspend : Bool)
  | hubSuspend
  | hubResume
  | classScan
  deriving DecidableEq, Repr

/-- The parent hub: `PDFF_CONNECTED` and its binding. -/
structure Hub where
  connected : Bool
  bound : Bound
  deriving DecidableEq, Repr

/-- The parent hub as `pSuspendRefusal`, the park and the rollback find it. -/
structure Hubs where
  refusal : Hub
  park : Hub
  rollback : Hub
  deriving DecidableEq, Repr

/-- A method of the hub class is taken back (or there is no port for it), or its task has the
device at one of its ports or not, and the transfer to the port ends so. -/
inductive HubMethod
  | lost
  | handled (downstream : Bool) (ioerr : ℤ)
  deriving DecidableEq, Repr

/-- A lifecycle op: there is no memory for a port and a pipe, or the HCD replies. -/
inductive CtxOp
  | noMemory
  | reply (ioerr : ℤ)
  deriving DecidableEq, Repr

/-- The transfers of `pArmRemoteWakeup`: memory for them, and the reply to `USR_GET_STATUS`. -/
structure Wakeup where
  memory : Bool
  ioerr : ℤ
  armed : Bool
  deriving DecidableEq, Repr

structure Env where
  forceSuspend : Bool
  linkPowerWanted : Bool
  supportsSuspend : ℕ → Bool
  suspends : ℕ → Bool
  resumes : ℕ → Bool
  /-- `pd_IOBusyCount` where the walk comes to the binding. -/
  ioBusyCount : ℕ → ℕ
  hub : Option Hubs
  wakeup : Wakeup
  quiesce : CtxOp
  hubSuspend : HubMethod
  hubResume : HubMethod
  restart : CtxOp

structure Sys where
  pd : PsdDevice
  linkPowerReq : Bool
  calls : List Call
  deriving DecidableEq, Repr

namespace Sys

def call (s : Sys) (c : Call) : Sys := { s with calls := s.calls ++ [c] }

def psdReleaseDevBinding (s : Sys) : Sys :=
  match s.pd.bound.binding with
  | none => s
  | some binding =>
    if s.pd.appBinding then
      { s.call (.release binding) with
        pd := { s.pd with bound := ⟨none, none⟩, appBinding := false } }
    else
      match s.pd.bound.cls with
      | some _ => { s.call (.release binding) with pd := { s.pd with bound := ⟨none, none⟩ } }
      | none => { s with pd := { s.pd with bound := ⟨none, none⟩ } }

end Sys

/-- What there is to be done about a binding of a class. -/
inductive Verdict
  | asked (answer : Bool)
  | refused
  | released
  | passedOver
  deriving DecidableEq, Repr

def Env.verdict (env : Env) (force : Bool) (binding cls : ℕ) : Verdict :=
  if env.supportsSuspend cls then .asked (env.suspends binding)
  else if env.ioBusyCount binding ≠ 0 then
    if force then .released else .refused
  else .passedOver

/-- The device binding in `psdSuspendBindings`, and whether to go on. -/
def suspendDevBinding (env : Env) (force : Bool) (s : Sys) : Bool × Sys :=
  match s.pd.bound.binding with
  | none => (true, s)
  | some binding =>
    if s.pd.appBinding && !force then (false, s)
    else
      let s := if s.pd.appBinding then s.psdReleaseDevBinding else s
      match s.pd.bound.cls with
      | none => (true, s)
      | some cls =>
        match env.verdict force binding cls with
        | .asked answer => (answer, s.call (.attemptSuspend binding answer))
        | .refused => (false, s)
        | .released => (true, s.psdReleaseDevBinding)
        | .passedOver => (true, s)

/-- The walk over the interfaces: what is left bound, and what has been asked. -/
def suspendInterfaces (env : Env) (force : Bool) : List Bound → Bool × List Bound × List Call
  | [] => (true, [], [])
  | pif :: pifs =>
    match pif.binding, pif.cls with
    | some binding, some cls =>
      match env.verdict force binding cls with
      | .asked false => (false, pif :: pifs, [.attemptSuspend binding false])
      | .asked true =>
        let (res, left, calls) := suspendInterfaces env force pifs
        (res, pif :: left, .attemptSuspend binding true :: calls)
      | .refused => (false, pif :: pifs, [])
      | .released =>
        let (res, left, calls) := suspendInterfaces env force pifs
        (res, ⟨none, none⟩ :: left, .release binding :: calls)
      | .passedOver =>
        let (res, left, calls) := suspendInterfaces env force pifs
        (res, pif :: left, calls)
    | _, _ =>
      let (res, left, calls) := suspendInterfaces env force pifs
      (res, pif :: left, calls)

def Env.force (env : Env) (pd : PsdDevice) : Bool :=
  env.forceSuspend && pd.currentConfig.any PsdConfig.remoteWakeup

def psdSuspendBindings (env : Env) (s : Sys) : Bool × Sys :=
  let force := env.force s.pd
  let (res, s) := suspendDevBinding env force s
  if !res then (false, s)
  else
    match s.pd.currentConfig with
    | none => (true, s)
    | some pc =>
      let (res, left, calls) := suspendInterfaces env force pc.interfaces
      (res, { s with pd := { s.pd with currentConfig := some { pc with interfaces := left } },
                     calls := s.calls ++ calls })

/-- An interface is asked to resume: whether it is to be bound anew, what is left, and the calls. -/
def resumeInterface (env : Env) (pif : Bound) : Bool × Bound × List Call :=
  match pif.binding, pif.cls with
  | some binding, some _ =>
    if env.resumes binding then (false, pif, [.attemptResume binding true])
    else (true, ⟨none, none⟩, [.attemptResume binding false, .release binding])
  | _, _ => (false, pif, [])

/-- The walk over the interfaces in `psdResumeBindings`. -/
def resumeInterfaces (env : Env) (pifs : List Bound) : Bool × List Bound × List Call :=
  let resumed := pifs.map (resumeInterface env)
  (resumed.any fun r => r.1, resumed.map fun r => r.2.1, resumed.flatMap fun r => r.2.2)

/-- `pCtxDoOpOnDevice` with `NSCMD_USB_SET_SUSPEND`. -/
def ctxSetSuspend (suspend : Bool) (op : CtxOp) (s : Sys) : ℤ × Sys :=
  match op with
  | .noMemory => (UHIOERR_OUTOFMEMORY, s)
  | .reply ioerr => (ioerr, s.call (.setSuspend suspend))

/-- The device binding in `psdResumeBindings`, and whether it is to be bound anew. -/
def resumeDevBinding (env : Env) (s : Sys) : Bool × Sys :=
  match s.pd.bound.binding, s.pd.bound.cls with
  | some binding, some _ =>
    if s.pd.appBinding then (false, s)
    else
      let s := s.call (.attemptResume binding (env.resumes binding))
      if env.resumes binding then (false, s) else (true, s.psdReleaseDevBinding)
  | _, _ => (false, s)

def restartRings (env : Env) (s : Sys) : Sys :=
  if s.pd.contextBackend && s.pd.setSuspendCmd && s.pd.handle ≠ 0 then
    (ctxSetSuspend false env.restart s).2
  else s

def askLinkPower (env : Env) (s : Sys) : Sys :=
  if s.pd.currentConfig.isSome && env.linkPowerWanted != s.pd.lpmPolicy then
    { s with linkPowerReq := true }
  else s

/-- The interface bindings in `psdResumeBindings`, and whether one is to be bound anew. -/
def resumeIfBindings (env : Env) (s : Sys) : Bool × Sys :=
  match s.pd.currentConfig with
  | none => (false, s)
  | some pc =>
    let (rescan, left, calls) := resumeInterfaces env pc.interfaces
    (rescan, { s with pd := { s.pd with currentConfig := some { pc with interfaces := left } },
                      calls := s.calls ++ calls })

/-- The bindings in `psdResumeBindings`, and the class scan. -/
def resumeBound (env : Env) (s : Sys) : Sys :=
  let (rescan, s) := resumeDevBinding env s
  let (rescanIf, s) := resumeIfBindings env s
  if rescan || rescanIf then s.call .classScan else s

def psdResumeBindings (env : Env) (s : Sys) : Sys :=
  resumeBound env (askLinkPower env (restartRings env s))

def HubMethod.result : HubMethod → Bool
  | .lost => false
  | .handled downstream ioerr => downstream && ioerr = 0

def nHubSuspendDevice (m : HubMethod) (s : Sys) : Bool × Sys :=
  let s := s.call .hubSuspend
  (m.result, if m.result then { s with pd := { s.pd with suspended := true } } else s)

def nHubResumeDevice (m : HubMethod) (s : Sys) : Sys :=
  let s := s.call .hubResume
  if m.result then { s with pd := { s.pd with suspended := false } } else s

def Hub.hasClass (hub : Hub) : Bool := hub.bound.binding.isSome && hub.bound.cls.isSome

def pSuspendRefusal (env : Env) (pd : PsdDevice) : Bool :=
  (pd.contextBackend && !pd.setSuspendCmd) || env.hub.any fun hubs => !hubs.refusal.hasClass

/-- `USCAF_REMOTE_WAKEUP` goes where the device does not say that it is armed. -/
def pArmRemoteWakeup (env : Env) (s : Sys) : Sys :=
  match s.pd.currentConfig with
  | some pc =>
    if pc.remoteWakeup && env.wakeup.memory && env.wakeup.ioerr = 0 && !env.wakeup.armed then
      { s with pd := { s.pd with currentConfig := some { pc with remoteWakeup := false } } }
    else s
  | none => s

/-- The last step: the parent hub parks the port, a root hub is suspended by the library. -/
def park (env : Env) (s : Sys) : Bool × Sys :=
  match env.hub with
  | some hubs => if hubs.park.hasClass then nHubSuspendDevice env.hubSuspend s else (false, s)
  | none => (true, { s with pd := { s.pd with suspended := true } })

def rollback (env : Env) (s : Sys) : Sys :=
  let s :=
    match env.hub with
    | some hubs =>
      if hubs.rollback.connected && hubs.rollback.hasClass then nHubResumeDevice env.hubResume s
      else s
    | none => s
  psdResumeBindings env s

def suspendRings (env : Env) (s : Sys) : Bool × Sys :=
  let s := if env.hub.isSome then pArmRemoteWakeup env s else s
  if s.pd.contextBackend then
    let (ioerr, s) := ctxSetSuspend true env.quiesce s
    if ioerr = 0 then park env s else (false, s)
  else park env s

def psdSuspendDevice (env : Env) (s : Sys) : Bool × Sys :=
  if s.pd.suspended then (true, s)
  else if pSuspendRefusal env s.pd then (false, s)
  else
    let (agreed, s) := psdSuspendBindings env s
    let (res, s) := if agreed then suspendRings env s else (false, s)
    (res, if res then s else rollback env s)

end Neptune.Suspend
