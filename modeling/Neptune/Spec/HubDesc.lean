import Neptune.Lib.Run

/-! What a hub descriptor decides in `hub.class`: `nAllocHub`, and what `nHubTask` and the calls of others do with the
number of ports. There is no result where the code reads behind the bytes that have come, leaves one of its arrays or
the buffer of the status transfer, or shifts by 32 or more. A device is there or not; transfers to a port change
nothing here. -/

namespace Neptune

namespace HubDesc

def UHIOERR_TIMEOUT : ℤ := 6
def UHIOERR_OVERFLOW : ℤ := 7

structure NepClassHub where
  numPorts : ℕ
  hubAttr : ℕ
  pwrGoodTime : ℕ
  hubCurrent : ℕ
  removable : UInt32
  powerCycle : UInt32
  disablePort : UInt32
  portChanges : List UInt8
  downstream : List Bool
  deriving DecidableEq, Repr

/-- What `nAllocHub` meets, its pipes apart: the two reads of the descriptor, of which the first brings `buf`, and
memory for the descriptor and the devices. -/
structure World where
  isRootHub : Bool
  firstErr : ℤ
  buf : UInt8
  allocDesc : Bool
  ioerr : ℤ
  bytes : List UInt8
  allocDownstream : Bool
  deriving DecidableEq, Repr

def shiftLeft (x : UInt32) (n : ℕ) : Option UInt32 := if n < 32 then some (x <<< UInt32.ofNat n) else none

def portBit (port : ℕ) : Option UInt32 := shiftLeft 1 port

/-- `nch_Removable` from so many bytes of `DeviceRemovable`. -/
def removableLoop (uhd : List UInt8) : ℕ → Option UInt32
  | 0 => some 0
  | num + 1 =>
    (removableLoop uhd num).bind fun removable => uhd[7 + num]?.bind fun byte =>
      (shiftLeft byte.toUInt32 (num <<< 3)).map (removable ||| ·)

def World.uhd (w : World) : List UInt8 := w.bytes.take w.buf.toNat

def World.got (w : World) : Prop :=
  (w.firstErr = 0 ∨ w.firstErr = UHIOERR_OVERFLOW) ∧ w.allocDesc = true ∧ w.ioerr = 0

instance (w : World) : Decidable w.got := inferInstanceAs (Decidable (_ ∧ _))

def nAllocHub (w : World) : Option (Option NepClassHub) :=
  if w.got then
    w.uhd[2]?.bind fun bNbrPorts => w.uhd[3]?.bind fun lo => w.uhd[4]?.bind fun hi =>
      w.uhd[5]?.bind fun bPwrOn2PwrGood => w.uhd[6]?.bind fun bHubContrCurrent =>
        let numPorts := bNbrPorts.toNat
        let pwrGoodTime := bPwrOn2PwrGood.toNat <<< 1
        (removableLoop w.uhd ((numPorts + 7) >>> 3)).map fun removable =>
          if w.allocDownstream then
            some
              { numPorts := numPorts
                hubAttr := lo.toNat + hi.toNat <<< 8
                pwrGoodTime := if !w.isRootHub && pwrGoodTime < 100 then 100 else pwrGoodTime
                hubCurrent := bHubContrCurrent.toNat
                removable := removable
                powerCycle := 0
                disablePort := 0
                portChanges := List.replicate 4 0
                downstream := List.replicate numPorts false }
          else none
  else some none

/-- What is found at a port whose bit is set in the status. -/
structure PortOutcome where
  ioerr : ℤ
  /-- `UPCF_C_PORT_CONNECTION` and `UPSF_PORT_CONNECTION`. -/
  change : Bool
  connection : Bool
  /-- What `nConfigurePort` gives; it is not called for a twin. -/
  configured : Option Bool

/-- What happens in the task, and to the hub from outside. -/
inductive Event
  | configure (ports : ℕ → Option Bool)
  | status (ioerr : ℤ) (bytes : List UInt8) (ports : ℕ → PortOutcome)
  /-- `UCM_HubDisablePort` and `UCM_HubPowerCyclePort`. -/
  | request (port : ℕ) (powerCycle : Bool)
  /-- The pass over `nch_DisablePort`. -/
  | disable (ports : ℕ → Option Bool)
  /-- A class scan, or a method that looks for a device or takes all of them. -/
  | walk

namespace NepClassHub

variable (nch : NepClassHub)

def setDownstream (i : ℕ) (pd : Bool) : Option NepClassHub :=
  if i < nch.downstream.length then some { nch with downstream := nch.downstream.set i pd } else none

/-- `for(num = 1; num <= nch->nch_NumPorts; num++)` -/
def forPorts (f : NepClassHub → ℕ → Option NepClassHub) : Option NepClassHub :=
  Runs.exec (fun nch i => f nch (i + 1)) nch (List.range nch.numPorts)

/-- What `nConfigurePort` gives is put down. -/
def configurePort (ports : ℕ → Option Bool) (num : ℕ) : Option NepClassHub :=
  match ports num with
  | none => some nch
  | some pd => nch.setDownstream (num - 1) pd

def disablePortPass (ports : ℕ → Option Bool) (num : ℕ) : Option NepClassHub :=
  (portBit num).bind fun bit =>
    if nch.disablePort &&& bit = 0 then some nch
    else
      let nch := { nch with disablePort := nch.disablePort &&& ~~~bit }
      nch.downstream[num - 1]?.bind fun pd =>
        (if pd then nch.setDownstream (num - 1) false else some nch).bind fun nch =>
          if nch.powerCycle &&& bit = 0 then some nch
          else configurePort { nch with powerCycle := nch.powerCycle &&& ~~~bit } ports num

/-- The bytes of the status transfer, of which no more are asked for than the ports need. -/
def receive (bytes : List UInt8) : Option NepClassHub :=
  let bytes := bytes.take ((nch.numPorts + 8) >>> 3)
  if bytes.length ≤ nch.portChanges.length then
    some { nch with portChanges := bytes ++ nch.portChanges.drop bytes.length }
  else none

def portChanged (ports : ℕ → PortOutcome) (num : ℕ) : Option NepClassHub :=
  nch.portChanges[num >>> 3]?.bind fun byte =>
    if byte &&& (1 <<< UInt8.ofNat (num &&& 7)) = 0 then some nch
    else
      let port := ports num
      if port.ioerr ≠ 0 then some nch
      else
        nch.downstream[num - 1]?.bind fun pd =>
          if port.change then
            (if !port.connection && pd then nch.setDownstream (num - 1) false else some nch).bind fun nch =>
              if port.connection && !pd then nch.configurePort (fun _ => port.configured) num else some nch
          else some nch

def status (ioerr : ℤ) (bytes : List UInt8) (ports : ℕ → PortOutcome) : Option NepClassHub :=
  (nch.receive bytes).bind fun nch =>
    let nch := if ioerr = UHIOERR_TIMEOUT then { nch with portChanges := List.replicate 4 0xff } else nch
    if ioerr = 0 ∨ ioerr = UHIOERR_TIMEOUT then
      nch.portChanges[0]?.bind fun _ => nch.forPorts fun nch num => nch.portChanged ports num
    else some nch

def request (port : ℕ) (powerCycle : Bool) : Option NepClassHub :=
  if 0 < port ∧ port ≤ nch.numPorts then
    (portBit port).map fun bit =>
      { nch with
        disablePort := nch.disablePort ||| bit
        powerCycle := if powerCycle then nch.powerCycle ||| bit else nch.powerCycle }
  else some nch

def walk : Option NepClassHub := nch.forPorts fun nch num => nch.downstream[num - 1]?.map fun _ => nch

def step : Event → Option NepClassHub
  | .configure ports => nch.forPorts fun nch num => nch.configurePort ports num
  | .status ioerr bytes ports => nch.status ioerr bytes ports
  | .request port powerCycle => nch.request port powerCycle
  | .disable ports =>
    if nch.disablePort = 0 then some nch else nch.forPorts fun nch num => nch.disablePortPass ports num
  | .walk => nch.walk

def nFreeHub : Option NepClassHub :=
  nch.forPorts fun nch num =>
    nch.downstream[num - 1]?.bind fun pd => if pd then nch.setDownstream (num - 1) false else some nch

end NepClassHub

/-- A hub from its binding on: what happens while it is there, and the end. -/
def life (w : World) (events : List Event) : Option (Option NepClassHub) :=
  (nAllocHub w).bind fun hub =>
    match hub with
    | none => some none
    | some nch => (Runs.exec NepClassHub.step nch events).bind fun nch => nch.nFreeHub.map some

end HubDesc

namespace PortSpeed

def UPSF_PORT_CONNECTION : UInt16 := 0x0001
def UPSF_PORT_ENABLE : UInt16 := 0x0002
def UPSF_PORT_OVER_CURRENT : UInt16 := 0x0008
def UPSF_PORT_RESET : UInt16 := 0x0010
def UPSF_PORT_POWER : UInt16 := 0x0100
def UPSF_PORT_LOW_SPEED : UInt16 := 0x0200
def UPSF_PORT_HIGH_SPEED : UInt16 := 0x0400

/-- `DA_IsLowspeed`, `DA_IsHighspeed` and `DA_NeedsSplitTrans`. -/
structure PsdDevice where
  isLowspeed : Bool
  isHighspeed : Bool
  needsSplitTrans : Bool
  deriving DecidableEq, Repr

/-- `needsSplitTrans` is that of the hub's own device. -/
structure NepClassHub where
  isUSB20 : Bool
  needsSplitTrans : Bool
  deriving DecidableEq, Repr

structure UsbPortStatus where
  ioerr : ℤ
  wPortStatus : UInt16
  deriving DecidableEq, Repr

/-- What a reset meets: PORT_RESET, the polls that come after it, memory for the pipe, and `psdEnumerateDevice`. -/
structure Reset where
  ioerr : ℤ
  uhps : ℕ → UsbPortStatus
  allocPipe : Bool
  enumerates : Bool

structure World where
  uhps : UsbPortStatus
  allocDevice : Bool
  resets : ℕ → Reset

def isUp (wPortStatus : UInt16) : Bool :=
  wPortStatus &&& (UPSF_PORT_RESET ||| UPSF_PORT_CONNECTION ||| UPSF_PORT_ENABLE ||| UPSF_PORT_POWER |||
    UPSF_PORT_OVER_CURRENT) = UPSF_PORT_CONNECTION ||| UPSF_PORT_ENABLE ||| UPSF_PORT_POWER

/-- The loop over `delayretries`, which goes up each time: the status with which the port is up, if it gets so. -/
def pollLoop (uhps : ℕ → UsbPortStatus) : (fuel k delayretries delaytime : ℕ) → Option UInt16
  | 0, _, _, _ => none
  | fuel + 1, k, delayretries, delaytime =>
    if delayretries < 500 then
      let status := (uhps k).wPortStatus
      if (uhps k).ioerr ≠ 0 ∨ status &&& UPSF_PORT_CONNECTION = 0 then none
      else if isUp status then some status
      else
        let delaytime := if 20 < delayretries then 300 else delaytime
        pollLoop uhps fuel (k + 1) (delayretries + delaytime) delaytime
    else none

def Reset.up (reset : Reset) (resetretries : ℕ) : Option UInt16 :=
  pollLoop reset.uhps 500 0 0 (if resetretries = 0 then 10 else 200)

/-- A `psdEnumerateDevice`: the status of the reset before it, and the record. -/
structure Call where
  wPortStatus : UInt16
  pd : PsdDevice
  deriving DecidableEq, Repr

structure Locals where
  pd : PsdDevice
  washighspeed : Bool
  deriving DecidableEq, Repr

namespace NepClassHub

variable (nch : NepClassHub)

def setSpeed (wPortStatus : UInt16) (l : Locals) : Locals :=
  if wPortStatus &&& UPSF_PORT_HIGH_SPEED ≠ 0 ∨ l.washighspeed = true then
    ⟨{ l.pd with isHighspeed := true }, true⟩
  else
    let pd := if wPortStatus &&& UPSF_PORT_LOW_SPEED ≠ 0 then { l.pd with isLowspeed := true } else l.pd
    { l with pd := { pd with needsSplitTrans := nch.isUSB20 || nch.needsSplitTrans } }

/-- The loop over `resetretries`, with so many left: the calls, and the device. -/
def resetLoop (resets : ℕ → Reset) : (left resetretries : ℕ) → Locals → List Call × Option PsdDevice
  | 0, _, _ => ([], none)
  | left + 1, resetretries, l =>
    let reset := resets resetretries
    if reset.ioerr ≠ 0 then ([], none)
    else
      match reset.up resetretries with
      | none => resetLoop resets left (resetretries + 1) l
      | some status =>
        let l := nch.setSpeed status l
        if reset.allocPipe then
          if reset.enumerates then ([⟨status, l.pd⟩], some l.pd)
          else
            let rest := resetLoop resets left (resetretries + 1) l
            (⟨status, l.pd⟩ :: rest.1, rest.2)
        else resetLoop resets left (resetretries + 1) l

def nConfigurePort (w : World) : List Call × Option PsdDevice :=
  let status := w.uhps.wPortStatus
  if w.uhps.ioerr ≠ 0 ∨ status &&& UPSF_PORT_CONNECTION = 0 ∨ w.allocDevice = false then ([], none)
  else nch.resetLoop w.resets 3 0 ⟨⟨status &&& UPSF_PORT_LOW_SPEED ≠ 0, false, false⟩, false⟩

end NepClassHub

end PortSpeed

end Neptune
