import Neptune.Lib.Forest

/-! `psdCalculatePower`. -/

namespace Neptune.PowerCalc

structure PsdConfig where
  /-- `USCAF_SELF_POWERED` of `pc_Attr`. -/
  selfPowered : Bool
  bMaxPower : UInt8

/-- `pc_MaxPower`, in mA. -/
def PsdConfig.maxPower (pc : PsdConfig) : ℕ := pc.bMaxPower.toNat <<< 1

def POCP_BUS_POWERED : UInt16 := 1
def POCP_SELF_POWERED : UInt16 := 2

/-- What is read of one of `n` devices. A device goes by its place in `phw_Devices`. -/
structure PsdDevice (n : ℕ) where
  hub : Option (Fin n)
  currentConfig : Option PsdConfig
  suspended : Bool
  overridePowerInfo : UInt16

/-- The loops over `phw_Devices` that look for `nextpd->pd_Hub == pd`. -/
def children {n : ℕ} (devices : Fin n → PsdDevice n) (pd : Fin n) : List (Fin n) :=
  (List.finRange n).filter fun nextpd => (devices nextpd).hub = some pd

structure PsdHardware where
  n : ℕ
  devices : Fin n → PsdDevice n
  acyclic : Forest.Acyclic fun pd => (devices pd).hub
  ports : ∀ pd, (children devices pd).length ≤ 255

inductive Msg
  | errorMsg (level : ℕ) (text : String)
  | sendEvent (event : ℕ)
  deriving DecidableEq

def RETURN_OK : ℕ := 0
def RETURN_WARN : ℕ := 5
def EHMB_DEVICELOWPW : ℕ := 0x0d

structure Power (n : ℕ) where
  powerDrain : UInt16
  powerSupply : UInt16
  lowPower : Bool
  /-- Whether a sum for one of the first two has not fit. -/
  overflow : Bool
  /-- The supplies that the device, as a hub, has given its children. -/
  given : List (Fin n × UInt16)
  msgs : List Msg

abbrev Mem (n : ℕ) := Fin n → Power n

variable {n : ℕ}

def setDrain (pd : Fin n) (drain : ℕ) (mem : Mem n) : Mem n :=
  Function.update mem pd
    { mem pd with powerDrain := .ofNat drain, overflow := (mem pd).overflow || decide (2 ^ 16 ≤ drain) }

def setSupply (pd : Fin n) (supply : ℕ) (mem : Mem n) : Mem n :=
  Function.update mem pd
    { mem pd with powerSupply := .ofNat supply, overflow := (mem pd).overflow || decide (2 ^ 16 ≤ supply) }

def PsdDevice.selfpwd (pd : PsdDevice n) : Bool :=
  match pd.currentConfig with
  | some pc => pc.selfPowered && pd.overridePowerInfo != POCP_BUS_POWERED || pd.overridePowerInfo == POCP_SELF_POWERED
  | none => true

/-- The configuration of a device that is not `selfpwd`; there always is one. -/
def PsdDevice.busPowered (pd : PsdDevice n) : Option PsdConfig := if pd.selfpwd then none else pd.currentConfig

def PsdDevice.maxdrain (pd : PsdDevice n) : ℕ :=
  if pd.currentConfig.isSome then if pd.selfpwd then 500 else 100 else 666

def pPowerRecurseDrain (phw : PsdHardware) : ℕ → Fin phw.n → Mem phw.n → Option (Mem phw.n)
  | 0, _, _ => none
  | fuel + 1, pd, mem => do
    let mem := setDrain pd 0 mem
    match (phw.devices pd).currentConfig, (phw.devices pd).suspended with
    | some pc, true => return setDrain pd (if 100 ≤ pc.maxPower then 3 else 1) mem
    | _, _ =>
      let mem ← (List.finRange phw.n).foldlM (fun mem nextpd =>
        if (phw.devices nextpd).hub = some pd then do
          let mem ← pPowerRecurseDrain phw fuel nextpd mem
          let childdrain := (mem nextpd).powerDrain.toNat
          some (setDrain pd ((mem pd).powerDrain.toNat + min childdrain (phw.devices pd).maxdrain) mem)
        else some mem) mem
      match (phw.devices pd).busPowered with
      | none => return setDrain pd 0 mem
      | some pc => return setDrain pd ((mem pd).powerDrain.toNat + pc.maxPower) mem

def countPorts (phw : PsdHardware) (pd : Fin phw.n) : UInt16 :=
  (List.finRange phw.n).foldl (fun ports nextpd => if (phw.devices nextpd).hub = some pd then ports + 1 else ports) 0

def ownSupply (phw : PsdHardware) (pd : Fin phw.n) (ports : UInt16) (mem : Mem phw.n) : Mem phw.n :=
  match (phw.devices pd).busPowered, (phw.devices pd).currentConfig with
  | none, some pc => setSupply pd (if ports ≠ 0 then 500 * ports.toNat + pc.maxPower else pc.maxPower) mem
  | _, _ => mem

def portSupply (pd : PsdDevice n) (ports powerSupply : UInt16) : UInt16 :=
  match pd.busPowered with
  | none => 500
  | some pc =>
    if pc.maxPower ≤ powerSupply.toNat then
      if ports ≠ 0 then
        let supply : UInt16 := .ofNat ((powerSupply.toNat - pc.maxPower) / ports.toNat)
        if 100 < supply then 100 else supply
      else 666
    else 1

/-- `nextpd->pd_PowerSupply = supply` of the hub `pd`. -/
def give (pd nextpd : Fin n) (supply : UInt16) (mem : Mem n) : Mem n :=
  let mem := Function.update mem pd { mem pd with given := (mem pd).given ++ [(nextpd, supply)] }
  Function.update mem nextpd { mem nextpd with powerSupply := supply }

def checkPower (p : Power n) : Power n :=
  if p.powerSupply < p.powerDrain then
    if p.lowPower then p
    else { p with
      lowPower := true
      msgs := p.msgs ++
        [.errorMsg RETURN_WARN "Detected low power condition for '%s'.", .sendEvent EHMB_DEVICELOWPW] }
  else
    if p.lowPower then { p with
      lowPower := false
      msgs := p.msgs ++ [.errorMsg RETURN_OK "Low power condition resolved for '%s'."] }
    else p

def pPowerRecurseSupply (phw : PsdHardware) : ℕ → Fin phw.n → Mem phw.n → Option (Mem phw.n)
  | 0, _, _ => none
  | fuel + 1, pd, mem => do
    let ports := countPorts phw pd
    let mem := ownSupply phw pd ports mem
    let supply := portSupply (phw.devices pd) ports (mem pd).powerSupply
    let mem ←
      if ports ≠ 0 then
        (List.finRange phw.n).foldlM (fun mem nextpd =>
          if (phw.devices nextpd).hub = some pd then pPowerRecurseSupply phw fuel nextpd (give pd nextpd supply mem)
          else some mem) mem
      else some mem
    return Function.update mem pd (checkPower (mem pd))

def psdCalculatePower (phw : PsdHardware) (mem : Mem phw.n) : Option (Mem phw.n) :=
  (List.finRange phw.n).foldlM (fun mem roothub =>
    if (phw.devices roothub).hub = none then do
      let mem := Function.update mem roothub { mem roothub with powerDrain := 0, powerSupply := 500 }
      let mem ← pPowerRecurseDrain phw phw.n roothub mem
      pPowerRecurseSupply phw phw.n roothub mem
    else some mem) mem

/-- What a device has after the calculation, that had `p` before. -/
structure Budgeted (phw : PsdHardware) (pd : Fin phw.n) (p p' : Power phw.n) : Prop where
  low : p'.lowPower = true ↔ p'.powerSupply < p'.powerDrain
  event : p'.msgs.count (.sendEvent EHMB_DEVICELOWPW) =
    p.msgs.count (.sendEvent EHMB_DEVICELOWPW) + if p.lowPower = false ∧ p'.lowPower = true then 1 else 0
  /-- Every child of a bus-powered hub is given its supply, and there is enough for all of them and the hub. -/
  budget : ∀ pc ∈ (phw.devices pd).busPowered, pc.maxPower ≤ p'.powerSupply.toNat →
    ∃ given, p'.given = p.given ++ given ∧ given.map Prod.fst = children phw.devices pd ∧
      (given.map fun g => g.2.toNat).sum + pc.maxPower ≤ p'.powerSupply.toNat
  fits : phw.n ≤ 127 → p'.overflow = p.overflow

end Neptune.PowerCalc
