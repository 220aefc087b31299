import Neptune.Lib.Run
import Neptune.Lib.Word

/-! The idle sweep of the event handler task. What other tasks do to the devices comes between its
steps: transfers begin and complete, configurations and bindings change, and the device lists do
while the sweep does not hold `PBase`. -/

namespace Neptune

def HUB_CLASSCODE : ℕ := 9

structure IdleIf (κ : Type) where
  ifBinding : Bool
  clsBinding : Option κ
  deriving DecidableEq, Repr

structure IdleConfig (κ : Type) where
  /-- `USCAF_REMOTE_WAKEUP` of `pc_Attr`. -/
  remoteWakeup : Bool
  interfaces : List (IdleIf κ)
  deriving DecidableEq, Repr

structure IdleDev (κ : Type) where
  devClass : ℕ
  currentConfig : Option (IdleConfig κ)
  configured : Bool
  dead : Bool
  suspended : Bool
  appBinding : Bool
  delExpunge : Bool
  noAutoSuspend : Bool
  ioBusyCount : ℕ
  lastActivity : ℕ
  devBinding : Bool
  clsBinding : Option κ
  deriving DecidableEq, Repr

structure SuspendCfg where
  suspendTimeout : ℕ
  forceSuspend : Bool
  deriving DecidableEq, Repr

namespace IdleDev

variable {κ : Type}

def considered (pd : IdleDev κ) : Bool :=
  pd.devClass ≠ HUB_CLASSCODE && pd.currentConfig.isSome && pd.configured && !pd.dead &&
    !pd.suspended && !pd.appBinding && !pd.delExpunge && !pd.noAutoSuspend && pd.ioBusyCount = 0

def idle (pd : IdleDev κ) (cfg : SuspendCfg) (currtime : ℕ) : Bool :=
  pd.lastActivity ≠ 0 && cfg.suspendTimeout < ulongSub currtime pd.lastActivity

/-- `doit`; `answers` is what the classes say to `UCCA_SupportsSuspend`. -/
def doit (pd : IdleDev κ) (cfg : SuspendCfg) (answers : κ → Bool) : Bool :=
  let agrees (binding : Bool) (puc : Option κ) := !binding || puc.all answers
  pd.currentConfig.all fun pc =>
    pc.remoteWakeup && cfg.forceSuspend ||
      agrees pd.devBinding pd.clsBinding &&
        pc.interfaces.all fun pif => agrees pif.ifBinding pif.clsBinding

end IdleDev

inductive SweepPc (δ : Type)
  | out
  /-- The devices that the walk has still to come to, with `PBase` held. -/
  | walk (rest : List δ)
  /-- A device has passed the tests, and its classes are being asked. -/
  | asking (pd : δ) (rest : List δ)
  /-- The stamp is zero and `PBase` released, before `psdSuspendDevice`. -/
  | picked (pd : δ)
  | suspending (pd : δ)
  deriving DecidableEq, Repr

/-- The last three fields are not stored in the code: when activity was last recorded on a device,
the devices the sweep has called `psdSuspendDevice` on, and how many steps it has made. -/
structure SweepState (δ κ : Type) where
  dev : δ → IdleDev κ
  /-- In the order of `psdGetNextDevice`. -/
  devices : List δ
  clock : ℕ
  currtime : ℕ
  pc : SweepPc δ
  recorded : δ → ℕ
  calls : List δ
  steps : ℕ

inductive SweepEvent (δ κ : Type)
  | start
  | test
  | ask (answers : κ → Bool)
  | call
  | restart
  | finish
  | tick (n : ℕ)
  /-- `pActivityBegin` and `pActivityEnd` of a pipe of that weight. -/
  | activityBegin (pd : δ) (weight : ℕ)
  | activityEnd (pd : δ) (weight : ℕ)
  | change (pd : δ) (pd' : IdleDev κ)
  | link (devices : List δ)

namespace SweepState

variable {δ κ : Type} [DecidableEq δ]

def setDev (s : SweepState δ κ) (d : δ) (pd : IdleDev κ) : SweepState δ κ :=
  { s with dev := Function.update s.dev d pd }

def stamp (s : SweepState δ κ) (d : δ) : SweepState δ κ :=
  { s.setDev d { s.dev d with lastActivity := s.clock } with
    recorded := Function.update s.recorded d s.clock }

def goto (s : SweepState δ κ) (pc : SweepPc δ) : SweepState δ κ :=
  { s with pc := pc, steps := s.steps + 1 }

def step (cfg : SuspendCfg) (s : SweepState δ κ) :
    SweepEvent δ κ → Option (SweepState δ κ)
  | .start =>
    match s.pc with
    | .out => some { s with currtime := s.clock, pc := .walk s.devices, calls := [], steps := 0 }
    | _ => none
  | .test =>
    match s.pc with
    | .walk (d :: rest) =>
      if (s.dev d).considered && (s.dev d).idle cfg s.currtime then some (s.goto (.asking d rest))
      else some (s.goto (.walk rest))
    | _ => none
  | .ask answers =>
    match s.pc with
    | .asking d rest =>
      let s' := s.setDev d { s.dev d with lastActivity := 0 }
      if (s.dev d).doit cfg answers then some (s'.goto (.picked d))
      else some (s'.goto (.walk rest))
    | _ => none
  | .call =>
    match s.pc with
    | .picked d => some ({ s with calls := s.calls ++ [d] }.goto (.suspending d))
    | _ => none
  | .restart =>
    match s.pc with
    | .suspending _ => some (s.goto (.walk s.devices))
    | _ => none
  | .finish =>
    match s.pc with
    | .walk [] => some (s.goto .out)
    | _ => none
  | .tick n => if s.clock + n < 2 ^ 32 then some { s with clock := s.clock + n } else none
  | .activityBegin d weight =>
    some ((s.setDev d { s.dev d with
      ioBusyCount := uword ((s.dev d).ioBusyCount + weight) }).stamp d)
  | .activityEnd d weight =>
    some ((s.setDev d { s.dev d with
      ioBusyCount := usub (s.dev d).ioBusyCount (uword weight) }).stamp d)
  | .change d pd' => some (s.setDev d { pd' with lastActivity := (s.dev d).lastActivity })
  | .link devices =>
    match s.pc with
    | .walk _ | .asking _ _ => none
    | _ => some { s with devices := devices }

end SweepState

end Neptune
