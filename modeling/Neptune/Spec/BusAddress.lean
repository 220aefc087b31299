import Neptune.Lib.Run

/-! The bus addresses of a legacy controller: the hub tasks that enumerate and remove the devices at their ports, the
slots of `phw_DevArray`, and what the devices on the bus answer to. Port requests go through; transfers to devices
may fail. -/

namespace Neptune.BusAddress

open Function

/-- What hangs on a port and the address it answers to while the port is enabled. -/
structure Port where
  present : Bool
  enabled : Bool
  answers : ℕ
  deriving DecidableEq

structure PsdDevice where
  devAddr : ℕ
  useCnt : ℕ
  delExpunge : Bool
  torn : Bool
  deriving DecidableEq

/-- A hub task with port `n`: in `nConfigurePort` before and after `psdAllocDevice`, and between `psdFreeDevice` and
the disabling of the port, there or in the removal of a dead device. `closing` is `nFreeHub` of a dead hub. -/
inductive Task
  | idle
  | entered (n : ℕ)
  | enumerating (n : ℕ) (pd : ℕ)
  | failed (n : ℕ)
  | removing (n : ℕ)
  | closing
  deriving DecidableEq

/-- `adr0` is the task that has `nh_Adr0Sema`, `count` the number of devices allocated so far. -/
structure PsdHardware (η : Type) where
  adr0 : Option η
  task : η → Task
  downstream : η → ℕ → Option ℕ
  port : η → ℕ → Port
  count : ℕ
  device : ℕ → PsdDevice
  devArray : ℕ → Option ℕ

variable {η : Type} [DecidableEq η]

def start : PsdHardware η where
  adr0 := none
  task := fun _ => .idle
  downstream := fun _ _ => none
  port := fun _ _ => ⟨false, false, 0⟩
  count := 0
  device := fun _ => ⟨0, 0, false, false⟩
  devArray := fun _ => none

namespace PsdHardware

variable (phw : PsdHardware η)

def setTask (h : η) (task : Task) : PsdHardware η := { phw with task := update phw.task h task }

def setPort (h : η) (n : ℕ) (port : Port) : PsdHardware η :=
  { phw with port := update phw.port h (update (phw.port h) n port) }

def setDownstream (h : η) (n : ℕ) (pd : Option ℕ) : PsdHardware η :=
  { phw with downstream := update phw.downstream h (update (phw.downstream h) n pd) }

def setDevice (pd : ℕ) (device : PsdDevice) : PsdHardware η :=
  { phw with device := update phw.device pd device }

def freeAddr : Option ℕ := ((List.range 127).map Nat.succ).find? fun da => (phw.devArray da).isNone

def pAllocDevAddr (pd : ℕ) : PsdHardware η :=
  if (phw.device pd).devAddr ≠ 0 then phw
  else
    match phw.freeAddr with
    | none => phw
    | some da =>
      { phw.setDevice pd { phw.device pd with devAddr := da } with
        devArray := update phw.devArray da (some pd) }

def pLegacyDestroyDevice (pd : ℕ) : PsdHardware η :=
  if (phw.device pd).devAddr ≠ 0 then
    { phw with devArray := update phw.devArray (phw.device pd).devAddr none }
  else phw

def pFreeDevice (pd : ℕ) : PsdHardware η :=
  if (phw.device pd).useCnt ≠ 0 then phw.setDevice pd { phw.device pd with delExpunge := true }
  else (phw.setDevice pd { phw.device pd with delExpunge := false, torn := true }).pLegacyDestroyDevice pd

def psdFreeDevice (pd : ℕ) : PsdHardware η :=
  (phw.setDevice pd { phw.device pd with delExpunge := false }).pFreeDevice pd

def psdFreePipe (pd : ℕ) : PsdHardware η :=
  let freed := phw.setDevice pd { phw.device pd with useCnt := (phw.device pd).useCnt - 1 }
  if (phw.device pd).useCnt - 1 = 0 ∧ (phw.device pd).delExpunge then freed.pFreeDevice pd else freed

def disablePort (h : η) (n : ℕ) : PsdHardware η := phw.setPort h n { phw.port h n with enabled := false }

def setAddress (h : η) (n pd : ℕ) : PsdHardware η :=
  if (phw.port h n).enabled ∧ (phw.port h n).answers = 0 then
    phw.setPort h n { phw.port h n with answers := (phw.device pd).devAddr }
  else phw

def cutHub (h : η) : PsdHardware η :=
  { phw with port := update phw.port h fun n => { phw.port h n with enabled := false } }

/-- The device of port `n` has been removed with the port still on. -/
def Vacating (h : η) (n : ℕ) : Prop :=
  phw.task h = .removing n ∨ phw.task h = .closing ∧ phw.downstream h n = none

end PsdHardware

/-- `setAddress` with whether the device takes the address, acknowledged or not. `leave` is a port with nothing
there, `enumerated` the success of `psdEnumerateDevice` and `giveUp` its last failure. `freeHub` is `nFreeHub` at port
`n`, and `removeDead` also where that hub is still connected. -/
inductive Event (η : Type)
  | plug (h : η) (n : ℕ)
  | unplug (h : η) (n : ℕ)
  | configure (h : η) (n : ℕ)
  | leave (h : η)
  | allocDevice (h : η)
  | resetPort (h : η)
  | allocAddr (h : η)
  | setAddress (h : η) (taken : Bool)
  | enumerated (h : η)
  | giveUp (h : η)
  | removeDead (h : η) (n : ℕ)
  | disable (h : η)
  | gone (h : η) (n : ℕ)
  | freeHub (h : η) (n : ℕ)
  | cutHub (h : η)
  | allocPipe (pd : ℕ)
  | freePipe (pd : ℕ)

/-- The SET_ADDRESS has gone through: nothing on the port is left at address 0. -/
def addressed (phw : PsdHardware η) (h : η) (n pd : ℕ) : Bool :=
  decide ((phw.device pd).devAddr ≠ 0) && !((phw.port h n).enabled && decide ((phw.port h n).answers = 0))

def step (phw : PsdHardware η) : Event η → Option (PsdHardware η)
  | .plug h n => if (phw.port h n).present then none else some (phw.setPort h n ⟨true, false, 0⟩)
  | .unplug h n => some (phw.setPort h n ⟨false, false, 0⟩)
  | .configure h n =>
    if phw.task h = .idle ∧ phw.adr0 = none ∧ phw.downstream h n = none then
      some { (phw.disablePort h n).setTask h (.entered n) with adr0 := some h }
    else none
  | .leave h =>
    match phw.task h with
    | .entered _ => some { phw.setTask h .idle with adr0 := none }
    | _ => none
  | .allocDevice h =>
    match phw.task h with
    | .entered n =>
      some { (phw.setDevice phw.count ⟨0, 0, false, false⟩).setTask h (.enumerating n phw.count) with
        count := phw.count + 1 }
    | _ => none
  | .resetPort h =>
    match phw.task h with
    | .enumerating n _ =>
      if (phw.port h n).present then some (phw.setPort h n { phw.port h n with enabled := true, answers := 0 })
      else none
    | _ => none
  | .allocAddr h =>
    match phw.task h with
    | .enumerating _ pd => some (phw.pAllocDevAddr pd)
    | _ => none
  | .setAddress h taken =>
    match phw.task h with
    | .enumerating n pd =>
      if (phw.device pd).devAddr = 0 then none else some (if taken then phw.setAddress h n pd else phw)
    | _ => none
  | .enumerated h =>
    match phw.task h with
    | .enumerating n pd =>
      if addressed phw h n pd then some { (phw.setDownstream h n (some pd)).setTask h .idle with adr0 := none }
      else none
    | _ => none
  | .giveUp h =>
    match phw.task h with
    | .enumerating n pd => some ((phw.psdFreeDevice pd).setTask h (.failed n))
    | _ => none
  | .removeDead h n =>
    match phw.downstream h n with
    | some pd =>
      if phw.task h = .idle then some (((phw.psdFreeDevice pd).setDownstream h n none).setTask h (.removing n))
      else none
    | none => none
  | .disable h =>
    match phw.task h with
    | .failed n => some { (phw.disablePort h n).setTask h .idle with adr0 := none }
    | .removing n => some ((phw.disablePort h n).setTask h .idle)
    | _ => none
  | .gone h n =>
    match phw.downstream h n with
    | some pd =>
      if phw.task h = .idle ∧ (phw.port h n).enabled = false then
        some ((phw.psdFreeDevice pd).setDownstream h n none)
      else none
    | none => none
  | .freeHub h n =>
    match phw.downstream h n with
    | some pd =>
      if phw.task h = .idle ∨ phw.task h = .closing then
        some (((phw.psdFreeDevice pd).setDownstream h n none).setTask h .closing)
      else none
    | none => none
  | .cutHub h => if phw.task h = .closing then some ((phw.cutHub h).setTask h .idle) else none
  | .allocPipe pd =>
    if pd < phw.count then
      some (phw.setDevice pd { phw.device pd with useCnt := (phw.device pd).useCnt + 1 })
    else none
  | .freePipe pd =>
    if pd < phw.count ∧ (phw.device pd).useCnt ≠ 0 then some (phw.psdFreePipe pd) else none

/-- The devices on enabled ports answer to different addresses, 0 among them, and a slot holds the device that has
its address and has not been torn down. -/
structure Separate (phw : PsdHardware η) : Prop where
  apart : ∀ h n h' n', (phw.port h n).enabled = true → (phw.port h' n').enabled = true →
    (phw.port h n).answers = (phw.port h' n').answers → h = h' ∧ n = n'
  slots : ∀ da pd, phw.devArray da = some pd ↔
    pd < phw.count ∧ da ≠ 0 ∧ (phw.device pd).devAddr = da ∧ (phw.device pd).torn = false

/-- A device that takes its address finds no other one that was removed with this address and whose port has not been
disabled yet. -/
def Vacated (phw : PsdHardware η) : Event η → Prop
  | .setAddress h true =>
    ∀ n pd, phw.task h = .enumerating n pd → (phw.port h n).enabled = true → (phw.port h n).answers = 0 →
      ∀ h' n', phw.Vacating h' n' → (phw.port h' n').enabled = true →
        (phw.port h' n').answers ≠ (phw.device pd).devAddr
  | _ => True

end Neptune.BusAddress
