import Neptune.Lib.Run

/-! One connector of a USB 3 hub, and the tasks of the two halves of the hub. They share nothing but the
list of devices and the bits one sets for the other. A task is cut where it looks at what the other
writes. The sample of a connection change and its clearing are one step. `failed` is not in the code. -/

namespace Neptune.HubTwin

/-- The device at the port, as the list of devices has it. -/
inductive Record
  | none
  /-- `psdAllocDevice` has been called, and `psdEnumerateDevice` is not through. -/
  | enumerating
  | enumerated
  deriving DecidableEq, Repr

inductive Pc
  | off
  | start
  | wait
  /-- The device is freed, and `nch_PowerCycle` not yet looked at. -/
  | removed
  /-- A power cycle, before `nPortShadowedByPeer`. -/
  | power
  /-- In `nConnectShadowDebounce`, before the first and the second look. -/
  | debounce
  | debounced
  /-- In `nConfigurePort`, before the first GET_STATUS. -/
  | status
  | enumerate
  | evict
  deriving DecidableEq, Repr

structure Half where
  pc : Pc
  bound : Bool
  link : Bool
  changed : Bool
  record : Record
  disablePort : Bool
  powerCycle : Bool
  failed : Bool
  deriving DecidableEq, Repr

structure Connector where
  ss : Half
  usb2 : Half
  /-- The 2.0 half enumerates the device when it tries. -/
  enumerable : Bool
  deriving DecidableEq, Repr

inductive Work
  | disablePort
  | change
  deriving DecidableEq, Repr

namespace Half

variable (h : Half)

def goto (pc : Pc) : Half := { h with pc := pc }

/-- `nch_DisablePort` is set: the device is freed. -/
def remove : Half := { h with disablePort := false, record := .none, pc := .removed }

def cycle : Half := { h with powerCycle := false, pc := if h.powerCycle then .power else .wait }

/-- A connection change; `connect` is where it goes on with a new device. -/
def change (connect : Pc) : Half :=
  { h with
    changed := false
    record := if h.link then h.record else .none
    pc := if h.link = true ∧ h.record = .none then connect else .wait }

def configure (alloc : Bool) : Half :=
  if h.link = false then h.goto .wait
  else if alloc then { h with record := .enumerating, failed := false, pc := .enumerate }
  else { h with failed := true, pc := .wait }

/-- The end of `nConfigurePort`, with the port's changes cleared. -/
def configured (ok : Bool) (done : Pc) : Half :=
  if ok then { h with record := .enumerated, changed := false, pc := done }
  else { h with record := .none, changed := false, failed := true, pc := .wait }

end Half

namespace Connector

variable (s : Connector)

/-- `nPortShadowedByPeer` on the 2.0 half. -/
def nPortShadowedByPeer : Bool := s.ss.bound && s.ss.record ≠ .none

def shadow : Connector :=
  { s with usb2 := s.usb2.goto (if s.nPortShadowedByPeer then .wait else .status) }

def nConnectShadowDebounce : Connector :=
  if s.nPortShadowedByPeer then { s with usb2 := s.usb2.goto .wait }
  -- no delay without a peer
  else { s with usb2 := s.usb2.goto (if s.ss.bound then .debounced else .status) }

/-- `UCM_HubDisablePort`, where `nFindPeerHub` finds the 2.0 half. -/
def nNotifyPeerTwinEvict : Connector :=
  { s with
    ss := s.ss.goto .wait
    usb2 := if s.usb2.bound then { s.usb2 with disablePort := true } else s.usb2 }

def goSS (work : Work) (alloc ok : Bool) : Option Connector :=
  match s.ss.pc with
  | .off => none
  | .start | .power => some { s with ss := s.ss.goto .status }
  | .wait =>
    match work with
    | .disablePort => if s.ss.disablePort = true then some { s with ss := s.ss.remove } else none
    | .change => if s.ss.changed = true then some { s with ss := s.ss.change .status } else none
  | .removed => some { s with ss := s.ss.cycle }
  | .status => some { s with ss := s.ss.configure alloc }
  | .enumerate => some { s with ss := s.ss.configured (s.ss.link && ok) .evict }
  | .evict => some s.nNotifyPeerTwinEvict
  | .debounce | .debounced => none

def goUsb2 (work : Work) (alloc ok : Bool) : Option Connector :=
  match s.usb2.pc with
  | .off => none
  | .start | .power | .debounced => some s.shadow
  | .wait =>
    match work with
    | .disablePort => if s.usb2.disablePort = true then some { s with usb2 := s.usb2.remove } else none
    | .change => if s.usb2.changed = true then some { s with usb2 := s.usb2.change .debounce } else none
  | .removed => some { s with usb2 := s.usb2.cycle }
  | .debounce => some s.nConnectShadowDebounce
  | .status => some { s with usb2 := s.usb2.configure (alloc || s.enumerable) }
  | .enumerate =>
    some { s with usb2 := s.usb2.configured (s.usb2.link && (ok || s.enumerable)) .wait }
  | .evict => none

end Connector

inductive Side
  | ss
  | usb2
  deriving DecidableEq, Repr

namespace Connector

def half (s : Connector) : Side → Half
  | .ss => s.ss
  | .usb2 => s.usb2

def setHalf (s : Connector) (side : Side) (h : Half) : Connector :=
  match side with
  | .ss => { s with ss := h }
  | .usb2 => { s with usb2 := h }

end Connector

inductive Event
  | spawn (side : Side)
  /-- The task that enumerated the hub writes its binding. -/
  | bind (side : Side)
  | link (side : Side) (up : Bool)
  | powerCycle (side : Side)
  | go (side : Side) (work : Work) (alloc ok : Bool)
  deriving DecidableEq, Repr

def step (s : Connector) : Event → Option Connector
  | .spawn side =>
    if (s.half side).pc = .off then some (s.setHalf side ((s.half side).goto .start)) else none
  | .bind side =>
    if (s.half side).pc ≠ .off then some (s.setHalf side { s.half side with bound := true }) else none
  | .link side up =>
    if (s.half side).link ≠ up then some (s.setHalf side { s.half side with link := up, changed := true })
    else none
  | .powerCycle side =>
    if (s.half side).bound = true then
      some (s.setHalf side { s.half side with disablePort := true, powerCycle := true })
    else none
  | .go .ss work alloc ok => s.goSS work alloc ok
  | .go .usb2 work alloc ok => s.goUsb2 work alloc ok

def Half.init : Half := ⟨.off, false, false, false, .none, false, false, false⟩

def init (enumerable : Bool) : Connector := ⟨.init, .init, enumerable⟩

end Neptune.HubTwin
