import Neptune.Lib.Run

/-! Link power management: what is armed on a device, recorded bit by bit, and the sweep that brings every device
into line with the policy. The result of every transfer and allocation is given from outside; `issued` keeps the
requests that reached the wire, the latest first. -/

namespace Neptune.LinkPower

/-- The bits of `pd_LpmArmed`. -/
inductive Pdlpmf
  | policy
  | u1Dev
  | u2Dev
  | ltm
  | portU1
  | portU2
  | ctxOp
  deriving DecidableEq

/-- The input half of the block of `NSCMD_USB_SET_LINK_POWER`; cleared fields are zero. -/
structure UhcdSetLinkPower where
  deviceHandle : ℕ
  usb2Lpm : Bool := false
  besl : Bool := false
  beslBaselineValid : Bool := false
  beslDeepValid : Bool := false
  ltm : Bool := false
  u1Enable : ℕ := 0
  u2Enable : ℕ := 0
  u1DevExitLat : ℕ := 0
  u2DevExitLat : ℕ := 0
  beslBaseline : ℕ := 0
  beslDeep : ℕ := 0
  deriving DecidableEq

structure LinkPowerOut where
  u1Timeout : ℕ
  u2Timeout : ℕ
  u1Sel : ℕ
  u1Pel : ℕ
  u2Sel : ℕ
  u2Pel : ℕ
  setSel : Bool
  u1Init : Bool
  u2Init : Bool
  ltm : Bool

inductive Request
  | setLinkPower (slo : UhcdSetLinkPower)
  | setSel (u1Sel u1Pel u2Sel u2Pel : ℕ)
  | setFeature (bit : Pdlpmf)
  | clearFeature (bit : Pdlpmf)
  | setPortFeature (bit : Pdlpmf) (index : ℕ)
  deriving DecidableEq

/-- The inactivity timeout in `wIndex`. -/
def portTimeoutOf (index : ℕ) : ℕ := index / 256

def Request.sets : Request → Pdlpmf → Bool
  | .setLinkPower slo, bit => decide (bit = .ctxOp ∧ slo ≠ { deviceHandle := slo.deviceHandle })
  | .setFeature bit', bit => decide (bit = bit')
  | .setPortFeature bit' index, bit => decide (bit = bit' ∧ portTimeoutOf index ≠ 0)
  | _, _ => false

def Request.clears : Request → Pdlpmf → Bool
  | .setLinkPower slo, bit => decide (bit = .ctxOp ∧ slo = { deviceHandle := slo.deviceHandle })
  | .clearFeature bit', bit => decide (bit = bit')
  | .setPortFeature bit' index, bit => decide (bit = bit' ∧ portTimeoutOf index = 0)
  | _, _ => false

structure Issued where
  request : Request
  ok : Bool
  deriving DecidableEq

/-- The state was set successfully and its clear has not been issued since. -/
def live (bit : Pdlpmf) : List Issued → Bool
  | [] => false
  | i :: before => !i.request.clears bit && (i.request.sets bit && i.ok || live bit before)

inductive LinkPowerOverride
  | default
  | disable
  | enable
  deriving DecidableEq

structure PsdDevice where
  hub : Bool
  hubPort : ℕ
  contextBackend : Bool
  setLinkPowerCmd : Bool
  resetDeviceCmd : Bool
  handle : ℕ
  usb30U1ExitLat : ℕ
  usb30U2ExitLat : ℕ
  usb30LtmCapable : Bool
  usb20LpmCapable : Bool
  usb20BeslCapable : Bool
  usb20BeslBaseline : Option ℕ
  usb20BeslDeep : Option ℕ
  linkPowerOverride : LinkPowerOverride
  currentConfig : Bool
  connected : Bool
  suspended : Bool
  dead : Bool
  delExpunge : Bool
  lpmArmed : Finset Pdlpmf
  issued : List Issued
  deriving DecidableEq

/-- `port` and `pipe` are allocated; `ok` is the transfer. -/
structure PortOutcome where
  port : Bool
  pipe : Bool
  ok : Bool
  deriving DecidableEq

/-- The results inside one arm or disarm. `op` is what `NSCMD_USB_SET_LINK_POWER` returns without an error. -/
structure Outcome where
  op : Option LinkPowerOut
  setSel : Bool
  u1Dev : Bool
  u2Dev : Bool
  ltm : Bool
  portU1 : PortOutcome
  portU2 : PortOutcome

def pLinkPowerWanted (linkPowerMgmt : Bool) (pd : PsdDevice) : Bool :=
  match pd.linkPowerOverride with
  | .disable => false
  | .enable => true
  | .default => linkPowerMgmt

def PsdDevice.issue (pd : PsdDevice) (request : Request) (ok : Bool) : PsdDevice :=
  { pd with issued := ⟨request, ok⟩ :: pd.issued }

def PsdDevice.set (pd : PsdDevice) (bit : Pdlpmf) : PsdDevice := { pd with lpmArmed := insert bit pd.lpmArmed }

def PsdDevice.clear (pd : PsdDevice) (bit : Pdlpmf) : PsdDevice := { pd with lpmArmed := pd.lpmArmed.erase bit }

/-- `none` where the port or the pipe could not be allocated, else whether the transfer went through. -/
def PortOutcome.result (out : PortOutcome) : Option Bool := if out.port ∧ out.pipe then some out.ok else none

def pSetHubPortTimeout (pd : PsdDevice) (bit : Pdlpmf) (timeout : ℕ) (out : PortOutcome) : PsdDevice × Bool :=
  if pd.hub then
    match out.result with
    | none => (pd, false)
    | some ok => (pd.issue (.setPortFeature bit (((timeout * 256) ||| (pd.hubPort % 256)) % 2 ^ 16)) ok, ok)
  else (pd, true)

def PsdDevice.linkPowerBlock (pd : PsdDevice) : UhcdSetLinkPower where
  deviceHandle := pd.handle
  usb2Lpm := pd.usb20LpmCapable
  besl := pd.usb20BeslCapable
  beslBaselineValid := pd.usb20BeslBaseline.isSome
  beslDeepValid := pd.usb20BeslDeep.isSome
  ltm := pd.usb30LtmCapable
  u1Enable := 1
  u2Enable := 1
  u1DevExitLat := pd.usb30U1ExitLat
  u2DevExitLat := pd.usb30U2ExitLat
  beslBaseline := pd.usb20BeslBaseline.getD 0
  beslDeep := pd.usb20BeslDeep.getD 0

def armPort (bit : Pdlpmf) (timeout : ℕ) (out : PortOutcome) (pd : PsdDevice) : PsdDevice :=
  if timeout = 0 then pd
  else if (pSetHubPortTimeout pd bit timeout out).2 then (pSetHubPortTimeout pd bit timeout out).1.set bit
  else (pSetHubPortTimeout pd bit timeout out).1

def armFeature (bit : Pdlpmf) (asked ok : Bool) (pd : PsdDevice) : PsdDevice :=
  if asked then
    if ok then (pd.issue (.setFeature bit) ok).set bit else pd.issue (.setFeature bit) ok
  else pd

def sendSel (slo : LinkPowerOut) (ok : Bool) (pd : PsdDevice) : PsdDevice :=
  if slo.setSel then pd.issue (.setSel (slo.u1Sel % 256) (slo.u1Pel % 256) slo.u2Sel slo.u2Pel) ok else pd

def armWire (slo : LinkPowerOut) (out : Outcome) (pd : PsdDevice) : PsdDevice :=
  armFeature .ltm slo.ltm out.ltm <|
    armFeature .u2Dev (slo.setSel && slo.u2Init && decide (slo.u2Timeout ≠ 0)) out.u2Dev <|
      armFeature .u1Dev (slo.setSel && slo.u1Init && decide (slo.u1Timeout ≠ 0)) out.u1Dev <|
        armPort .portU2 slo.u2Timeout out.portU2 <|
          armPort .portU1 slo.u1Timeout out.portU1 <|
            sendSel slo out.setSel pd

def pLinkPowerArm (pd : PsdDevice) (out : Outcome) : PsdDevice :=
  let armed := pd.set .policy
  if !pd.contextBackend || !pd.setLinkPowerCmd then armed
  else if pd.usb30U1ExitLat = 0 ∧ pd.usb30U2ExitLat = 0 ∧ !pd.usb30LtmCapable ∧ !pd.usb20LpmCapable then armed
  else
    match out.op with
    | none => armed.issue (.setLinkPower pd.linkPowerBlock) false
    | some slo => armWire slo out ((armed.issue (.setLinkPower pd.linkPowerBlock) true).set .ctxOp)

def pLinkPowerClearDevFeature (bit : Pdlpmf) (ok : Bool) (pd : PsdDevice) : PsdDevice :=
  if bit ∈ pd.lpmArmed then (pd.issue (.clearFeature bit) ok).clear bit else pd

def disarmPort (bit : Pdlpmf) (out : PortOutcome) (pd : PsdDevice) : PsdDevice :=
  if bit ∈ pd.lpmArmed then (pSetHubPortTimeout pd bit 0 out).1.clear bit else pd

/-- The withheld block; the one step that keeps its bit on failure. -/
def disarmCtx (ok : Bool) (pd : PsdDevice) : PsdDevice :=
  if .ctxOp ∈ pd.lpmArmed then
    if ok then (pd.issue (.setLinkPower { deviceHandle := pd.handle }) ok).clear .ctxOp
    else pd.issue (.setLinkPower { deviceHandle := pd.handle }) ok
  else pd

def pLinkPowerDisarm (pd : PsdDevice) (out : Outcome) : PsdDevice :=
  (disarmCtx out.op.isSome <|
    disarmPort .portU2 out.portU2 <|
      disarmPort .portU1 out.portU1 <|
        pLinkPowerClearDevFeature .ltm out.ltm <|
          pLinkPowerClearDevFeature .u2Dev out.u2Dev <|
            pLinkPowerClearDevFeature .u1Dev out.u1Dev pd).clear .policy

structure ApplyOutcome where
  port : Bool
  pipe : Bool
  ops : Outcome

def PsdDevice.applied (pd : PsdDevice) : Bool := decide (.policy ∈ pd.lpmArmed)

def pLinkPowerApply (linkPowerMgmt : Bool) (pd : PsdDevice) (out : ApplyOutcome) : PsdDevice :=
  if pLinkPowerWanted linkPowerMgmt pd = pd.applied then pd
  else if out.port ∧ out.pipe then
    if pLinkPowerWanted linkPowerMgmt pd then pLinkPowerArm pd out.ops else pLinkPowerDisarm pd out.ops
  else pd

def PsdDevice.eligible (pd : PsdDevice) : Bool :=
  pd.currentConfig && pd.connected && !pd.suspended && !pd.dead && !pd.delExpunge

def needsWork (linkPowerMgmt : Bool) (pd : PsdDevice) : Bool :=
  pd.eligible && decide (pLinkPowerWanted linkPowerMgmt pd ≠ pd.applied)

/-- One pass from the head of the device list: the first device that needs work is applied to, and the sweep
restarts. `none`: no restart. -/
def sweepPass (linkPowerMgmt : Bool) (out : ApplyOutcome) : List PsdDevice → Option (List PsdDevice)
  | [] => none
  | pd :: devices =>
    if needsWork linkPowerMgmt pd then some (pLinkPowerApply linkPowerMgmt pd out :: devices)
    else (sweepPass linkPowerMgmt out devices).map (pd :: ·)

/-- The devices after `n` restarts, where the sweep gets that far; `out k` is what the apply before restart `k + 1`
meets. -/
def pLinkPowerSweep (linkPowerMgmt : Bool) (out : ℕ → ApplyOutcome) (devices : List PsdDevice) :
    ℕ → Option (List PsdDevice)
  | 0 => some devices
  | n + 1 => (pLinkPowerSweep linkPowerMgmt out devices n).bind (sweepPass linkPowerMgmt (out n))

/-- The eligible devices whose `PDLPMF_POLICY` differs from what is wanted. -/
def toDo (linkPowerMgmt : Bool) (devices : List PsdDevice) : ℕ := devices.countP (needsWork linkPowerMgmt)

/-- Finitely many restarts, each of which leaves fewer devices to do. -/
structure Terminates (linkPowerMgmt : Bool) (out : ℕ → ApplyOutcome) (devices : List PsdDevice) : Prop where
  ends : ∃ n, pLinkPowerSweep linkPowerMgmt out devices n = none
  decreases : ∀ n before after, pLinkPowerSweep linkPowerMgmt out devices n = some before →
    pLinkPowerSweep linkPowerMgmt out devices (n + 1) = some after →
    toDo linkPowerMgmt after < toDo linkPowerMgmt before

/-- `endpoints` the backend's configure step, `ok` the SET_CONFIGURATION, `found` whether the device has the
configuration it is now in. -/
structure ConfigOutcome where
  endpoints : Bool
  ok : Bool
  found : Bool
  ops : Outcome

def psdSetDeviceConfig (linkPowerMgmt : Bool) (pd : PsdDevice) (out : ConfigOutcome) : PsdDevice × Bool :=
  if out.endpoints then
    if out.ok && pLinkPowerWanted linkPowerMgmt pd then
      (pLinkPowerArm { pd with currentConfig := out.found } out.ops, out.ok)
    else ({ pd with currentConfig := out.found }, out.ok)
  else (pd, false)

/-- `portReset` is the hub's, `reset` the `NSCMD_USB_RESET_DEVICE`, `alternates` the SET_INTERFACE transfers. -/
structure ResetOutcome where
  portReset : Bool
  reset : Bool
  port : Bool
  pipe : Bool
  config : ConfigOutcome
  alternates : Bool

def psdResetDevice (linkPowerMgmt : Bool) (pd : PsdDevice) (out : ResetOutcome) : PsdDevice × Bool :=
  if pd.contextBackend && pd.resetDeviceCmd && decide (pd.handle ≠ 0) && pd.hub && out.portReset && out.reset &&
      out.port && out.pipe then
    let configured := psdSetDeviceConfig linkPowerMgmt pd out.config
    (configured.1, configured.2 && (!configured.1.currentConfig || out.alternates))
  else (pd, false)

structure PsdBase where
  linkPowerMgmt : Bool
  linkPowerReq : Bool
  devices : List PsdDevice

/-- `restart` is the next pass of a sweep, and `change` anything else that happens to a device; what has been armed
and the hub it hangs on stay. -/
inductive Event
  | attach (pd : PsdDevice)
  | detach (i : ℕ)
  | change (i : ℕ) (pd : PsdDevice)
  | policy (linkPowerMgmt : Bool)
  | setDeviceConfig (i : ℕ) (out : ConfigOutcome)
  | resetDevice (i : ℕ) (out : ResetOutcome)
  | sweep
  | restart (out : ApplyOutcome)

def step (ps : PsdBase) : Event → Option PsdBase
  | .attach pd =>
    if pd.lpmArmed = ∅ ∧ pd.issued = [] then some { ps with devices := ps.devices ++ [pd] } else none
  | .detach i => some { ps with devices := ps.devices.eraseIdx i }
  | .change i new =>
    match ps.devices[i]? with
    | none => none
    | some pd =>
      if new.lpmArmed = pd.lpmArmed ∧ new.issued = pd.issued ∧ new.hub = pd.hub then
        some { ps with devices := ps.devices.set i new }
      else none
  | .policy linkPowerMgmt => some { ps with linkPowerMgmt := linkPowerMgmt, linkPowerReq := true }
  | .setDeviceConfig i out =>
    ps.devices[i]?.map fun pd =>
      { ps with devices := ps.devices.set i (psdSetDeviceConfig ps.linkPowerMgmt pd out).1 }
  | .resetDevice i out =>
    ps.devices[i]?.map fun pd =>
      let res := psdResetDevice ps.linkPowerMgmt pd out
      { ps with devices := ps.devices.set i res.1, linkPowerReq := ps.linkPowerReq || res.2 }
  | .sweep => some { ps with linkPowerReq := false }
  | .restart out => (sweepPass ps.linkPowerMgmt out ps.devices).map fun devices => { ps with devices := devices }

def start (linkPowerMgmt : Bool) : PsdBase := ⟨linkPowerMgmt, false, []⟩

/-- What a disarm of the device takes: the withheld block accepted, and a request to the hub put on the wire for
each timeout that was set. -/
structure Complete (pd : PsdDevice) (out : Outcome) : Prop where
  op : .ctxOp ∈ pd.lpmArmed → out.op.isSome = true
  portU1 : .portU1 ∈ pd.lpmArmed → pd.hub = true → out.portU1.result.isSome = true
  portU2 : .portU2 ∈ pd.lpmArmed → pd.hub = true → out.portU2.result.isSome = true

def Undisturbed (ps : PsdBase) : Event → Prop
  | .restart out =>
    ∀ pd ∈ ps.devices.find? (needsWork ps.linkPowerMgmt), pLinkPowerWanted ps.linkPowerMgmt pd = false →
      out.port = true ∧ out.pipe = true → Complete pd out.ops
  | _ => True

def TornDown (pd after : PsdDevice) : Prop :=
  ∃ new, after.issued = new ++ pd.issued ∧
    ∃ i ∈ new, i.request = .setLinkPower { deviceHandle := pd.handle }

/-- Every sweep that ends has sent the withheld block to the device. -/
def Retried (linkPowerMgmt : Bool) (devices : List PsdDevice) (i : ℕ) (pd : PsdDevice) : Prop :=
  pd.eligible = true → pLinkPowerWanted linkPowerMgmt pd = false → .ctxOp ∈ pd.lpmArmed →
    ∀ out n after, pLinkPowerSweep linkPowerMgmt out devices n = some after →
      sweepPass linkPowerMgmt (out n) after = none → ∃ pd', after[i]? = some pd' ∧ TornDown pd pd'

structure TakenBack (ps : PsdBase) : Prop where
  kept : ∀ pd ∈ ps.devices, ∀ bit, live bit pd.issued = true → bit ∈ pd.lpmArmed
  disarmed : ∀ pd ∈ ps.devices, ∀ out, ∀ bit ∈ (pLinkPowerDisarm pd out).lpmArmed, bit = .ctxOp ∧ out.op = none
  retried : ∀ i pd, ps.devices[i]? = some pd → Retried ps.linkPowerMgmt ps.devices i pd

end Neptune.LinkPower
