import Neptune.Lib.Run

/-! One port of a hub, and what `nHubTask` and `nHubssTask` make of its changes. The task is cut at each
control transfer; devices come and go at any time. A device is known by its attach. No transfer fails,
and there is no over-current. `excused` is not in the code. -/

namespace Neptune.HubPort

inductive Kind
  | usb2
  | superspeed
  deriving DecidableEq, Repr

/-- `UPCF_C_PORT_CONNECTION` and so on. -/
inductive Change
  | connection
  | enable
  | suspend
  | overCurrent
  | reset
  | bhReset
  | linkState
  | configError
  deriving DecidableEq, Repr

namespace Change

def all : List Change :=
  [.connection, .enable, .suspend, .overCurrent, .reset, .bhReset, .linkState, .configError]

end Change

namespace Kind

/-- The change bits `nClearPortStatus` clears, in its order. -/
def clears : Kind → List Change
  | .usb2 => [.connection, .enable, .suspend, .overCurrent, .reset]
  | .superspeed => [.connection, .linkState, .configError, .bhReset, .overCurrent, .reset]

def wakes : Kind → Change
  | .usb2 => .suspend
  | .superspeed => .linkState

end Kind

structure Port where
  attached : Option ℕ
  attaches : ℕ
  lowSpeed : Bool
  powered : Bool
  enabled : Bool
  suspended : Bool
  failed : Bool
  resetting : Bool
  warmResetting : Bool
  change : Change → Bool

structure UsbPortStatus where
  connection : Bool
  enable : Bool
  suspend : Bool
  reset : Bool
  power : Bool
  lowSpeed : Bool
  failed : Bool
  up : Bool
  change : Change → Bool

namespace Port

variable (p : Port)

def connected : Bool := p.attached.isSome && p.powered

def status : UsbPortStatus where
  connection := p.connected
  enable := p.enabled
  suspend := p.suspended
  reset := p.resetting
  power := p.powered
  lowSpeed := p.connected && p.lowSpeed
  failed := p.failed
  up := p.connected && !p.suspended && !p.failed
  change := p.change

def latch (c : Change) : Port := { p with change := Function.update p.change c true }

def clear (c : Change) : Port := { p with change := Function.update p.change c false }

def attach (lowSpeed : Bool) : Port :=
  { p with
    attached := some p.attaches
    attaches := p.attaches + 1
    lowSpeed := lowSpeed
    change := Function.update p.change .connection (p.powered || p.change .connection) }

def detach : Port :=
  { p with
    attached := none
    enabled := false
    suspended := false
    failed := false
    change := Function.update p.change .connection (p.powered || p.change .connection) }

def wake (kind : Kind) : Port := { p with suspended := false }.latch kind.wakes

def fail (c : Change) : Port := { p with enabled := false, suspended := false, failed := true }.latch c

def setReset : Port := { p with resetting := true, suspended := false, enabled := false }

def resetDone (enabled : Bool) : Port :=
  { p with resetting := false, enabled := enabled && p.attached.isSome && !p.failed }.latch .reset

def warmResetDone : Port := { p with warmResetting := false, failed := false }.latch .bhReset

def disable : Port := { p with enabled := false }

def setSuspend : Port := { p with suspended := p.attached.isSome && !p.failed }

def powerOff : Port := { p with powered := false, enabled := false, suspended := false }

def powerOn : Port :=
  { p with
    powered := true
    change := Function.update p.change .connection (p.attached.isSome || p.change .connection) }

end Port

structure PsdDevice where
  /-- The attach of the device it has been enumerated from. -/
  device : ℕ
  isSuspended : Bool
  deriving DecidableEq, Repr

/-- Where the task stands in `nConfigurePort`, before the transfer it names. -/
inductive Config
  | status
  | disable (connection : Bool)
  | reset (resetretries : ℕ)
  | poll (resetretries delayretries delaytime : ℕ)
  | settle (resetretries : ℕ) (rest : List Change)
  | enumerate (resetretries : ℕ)
  | powerDisable (resetretries : ℕ)
  | powerOff (resetretries : ℕ)
  | powerOn (resetretries : ℕ)
  | disableBad
  | clearBad (rest : List Change)

inductive Pc
  | start
  | wait
  | changed
  | clear (uhps : UsbPortStatus) (rest : List Change)
  | handle (uhps : UsbPortStatus)
  | warmReset (uhps : UsbPortStatus)
  | warmPoll (uhps : UsbPortStatus) (retries : ℕ)
  | warmClear (uhps : UsbPortStatus) (rest : List Change)
  /-- The connection change of `uhps`. -/
  | connect (uhps : UsbPortStatus)
  | debounce
  /-- In `nConfigurePort`; what has been sampled before a warm reset is still to be looked at. -/
  | config (after : Option UsbPortStatus) (c : Config)
  /-- `nHubSuspendDevice` or `nHubResumeDevice`, before the record is written. -/
  | setSuspended (on : Bool)

structure NepClassHub where
  kind : Kind
  port : Port
  downstream : Option PsdDevice
  pc : Pc
  /-- Attaches that were skipped as a twin, or whose enumeration has been tried and not come through. -/
  excused : List ℕ

/-- What the task meets: a twin on the other half, memory for the device, and how it is enumerated. -/
structure World where
  shadowed : Bool
  alloc : Bool
  enumerates : Bool
  deriving DecidableEq, Repr

namespace NepClassHub

variable (s : NepClassHub)

def goto (pc : Pc) : NepClassHub := { s with pc := pc }

def setPort (port : Port) : NepClassHub := { s with port := port }

/-- `DA_IsSuspended` of the record. -/
def setSuspended (on : Bool) : NepClassHub :=
  { s with downstream := s.downstream.map fun pd => { pd with isSuspended := on } }

def excuse : NepClassHub := { s with excused := s.excused ++ s.port.attached.toList }

def configured (after : Option UsbPortStatus) (pd : Option PsdDevice) : NepClassHub :=
  { s with
    downstream := pd
    pc := match after with
      | none => .wait
      | some uhps => .connect uhps }

def nextReset (after : Option UsbPortStatus) (resetretries : ℕ) : NepClassHub :=
  s.goto (.config after
    (if resetretries + 1 < 3 then .reset (resetretries + 1)
    else match s.kind with
      | .usb2 => .disableBad
      | .superspeed => .clearBad s.kind.clears))

/-- The loop over `delayretries` is over; `uhps` is the last status it has read. -/
def polled (after : Option UsbPortStatus) (resetretries : ℕ) (uhps : UsbPortStatus) : NepClassHub :=
  if s.kind = .usb2 ∧ uhps.connection = true ∧ uhps.power = true ∧ uhps.lowSpeed = true ∧
      uhps.enable = false ∧ uhps.reset = false then
    s.goto (.config after (.powerDisable resetretries))
  else s.nextReset after resetretries

def allocDevice (w : World) (after : Option UsbPortStatus) (connection : Bool) : NepClassHub :=
  if connection = false then s.configured after none
  else if w.alloc then s.goto (.config after (.reset 0))
  else s.excuse.configured after none

def nConfigurePort (w : World) (after : Option UsbPortStatus) : Config → NepClassHub
  | .status =>
    let uhps := s.port.status
    if s.kind = .usb2 ∧ uhps.enable = true then s.goto (.config after (.disable uhps.connection))
    else s.allocDevice w after uhps.connection
  | .disable connection => (s.setPort s.port.disable).allocDevice w after connection
  | .reset r =>
    (s.excuse.setPort s.port.setReset).goto (.config after (.poll r 0 (if r = 0 then 10 else 200)))
  | .poll r delayretries delaytime =>
    let uhps := s.port.status
    if uhps.connection = false then s.polled after r uhps
    else if uhps.reset = false ∧ uhps.enable = true ∧ uhps.power = true then
      s.goto (.config after (.settle r s.kind.clears))
    else
      let delaytime := if 20 < delayretries then 300 else delaytime
      if delayretries + delaytime < 500 then
        s.goto (.config after (.poll r (delayretries + delaytime) delaytime))
      else s.polled after r uhps
  | .settle r [] => s.goto (.config after (.enumerate r))
  | .settle r (c :: rest) => (s.setPort (s.port.clear c)).goto (.config after (.settle r rest))
  | .enumerate r =>
    match s.port.attached with
    | some device =>
      if w.enumerates = true ∧ s.port.enabled = true then
        { s with excused := s.excused.filter (· ≠ device) }.configured after (some ⟨device, false⟩)
      else s.nextReset after r
    | none => s.nextReset after r
  | .powerDisable r =>
    (s.setPort s.port.disable).goto (.config after (.powerOff r))
  | .powerOff r => (s.setPort s.port.powerOff).goto (.config after (.powerOn r))
  | .powerOn r => (s.setPort s.port.powerOn).nextReset after r
  | .disableBad =>
    (s.setPort s.port.disable).goto (.config after (.clearBad s.kind.clears))
  | .clearBad [] => s.configured after none
  | .clearBad (c :: rest) => (s.setPort (s.port.clear c)).goto (.config after (.clearBad rest))

/-- The suspend change of `hub.class`, and the link state change of `hubss.class`. -/
def linkChange (uhps : UsbPortStatus) : NepClassHub :=
  match s.kind with
  | .usb2 =>
    if uhps.change .suspend then
      (s.setSuspended uhps.suspend).goto (.connect uhps)
    else s.goto (.connect uhps)
  | .superspeed =>
    if uhps.change .linkState = true ∨ uhps.change .configError = true then
      if uhps.change .configError = true ∨ uhps.failed = true then
        ({ s with downstream := none } : NepClassHub).goto (.warmReset uhps)
      else if uhps.up then
        (s.setSuspended false).goto (.connect uhps)
      else if uhps.suspend then
        (s.setSuspended true).goto (.connect uhps)
      else s.goto (.connect uhps)
    else s.goto (.connect uhps)

def connectChange (uhps : UsbPortStatus) : NepClassHub :=
  if uhps.change .connection then
    let pd := if uhps.connection then s.downstream else none
    { s with downstream := pd }.goto
      (if uhps.connection = true ∧ pd.isNone = true then .debounce else .wait)
  else s.goto .wait

def task (w : World) : Option NepClassHub :=
  match s.pc with
  | .start =>
    some (if s.kind = .usb2 ∧ w.shadowed = true then s.excuse.goto .wait else s.goto (.config none .status))
  | .wait => if Change.all.any s.port.change = true then some (s.goto .changed) else none
  | .changed => some (s.goto (.clear s.port.status s.kind.clears))
  | .clear uhps [] => some (s.goto (.handle uhps))
  | .clear uhps (c :: rest) => some ((s.setPort (s.port.clear c)).goto (.clear uhps rest))
  | .handle uhps => some (s.linkChange uhps)
  | .warmReset uhps =>
    some ((s.setPort { s.port with warmResetting := true }).goto (.warmPoll uhps 0))
  | .warmPoll uhps retries =>
    let now := s.port.status
    some (s.goto
      (if now.change .bhReset = true ∨ now.connection = false ∨ 500 ≤ retries + 20 then
        .warmClear uhps s.kind.clears
      else .warmPoll uhps (retries + 20)))
  | .warmClear uhps [] => some (s.goto (.config (some uhps) .status))
  | .warmClear uhps (c :: rest) =>
    some ((s.setPort (s.port.clear c)).goto (.warmClear uhps rest))
  | .connect uhps => some (s.connectChange uhps)
  | .debounce =>
    some (if s.kind = .usb2 ∧ w.shadowed = true then s.excuse.goto .wait else s.goto (.config none .status))
  | .config after c => some (s.nConfigurePort w after c)
  | .setSuspended on =>
    some ((s.setSuspended on).goto .wait)

end NepClassHub

inductive Event
  | attach (lowSpeed : Bool)
  | detach
  | wake
  | resetDone (enabled : Bool)
  | warmResetDone
  | linkError (c : Change)
  | task (w : World)
  | suspend
  | resume
  deriving DecidableEq, Repr

def step (s : NepClassHub) : Event → Option NepClassHub
  | .attach lowSpeed =>
    if s.port.attached = none then some (s.setPort (s.port.attach lowSpeed)) else none
  | .detach => if s.port.attached ≠ none then some (s.setPort s.port.detach) else none
  | .wake => if s.port.suspended = true then some (s.setPort (s.port.wake s.kind)) else none
  | .resetDone enabled =>
    if s.port.resetting = true then some (s.setPort (s.port.resetDone enabled)) else none
  | .warmResetDone =>
    if s.port.warmResetting = true then some (s.setPort s.port.warmResetDone) else none
  | .linkError c =>
    if s.kind = .superspeed ∧ s.port.attached ≠ none ∧ (c = .linkState ∨ c = .configError) then
      some (s.setPort (s.port.fail c))
    else none
  | .task w => s.task w
  -- methods are handled when the task comes out of `Wait`
  | .suspend =>
    match s.pc with
    | .wait =>
      if s.downstream.isSome = true then
        some ((s.setPort s.port.setSuspend).goto (.setSuspended true))
      else none
    | _ => none
  | .resume =>
    match s.pc with
    | .wait =>
      if s.downstream.isSome = true then
        some ((s.setPort (if s.port.suspended then s.port.wake s.kind else s.port)).goto
          (.setSuspended false))
      else none
    | _ => none

/-- A hub with a port that has power, before the first pass over its ports. -/
def init (kind : Kind) : NepClassHub where
  kind := kind
  port := ⟨none, 0, false, true, false, false, false, false, false, fun _ => false⟩
  downstream := none
  pc := .start
  excused := []

end Neptune.HubPort
