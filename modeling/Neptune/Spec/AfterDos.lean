import Neptune.Lib.Word

/-! `pReleaseAfterDOSBindings`: the bindings of the boot classes are released once DOS is there. A class is meant by its
place in the list. A release clears the binding it is for and no other one, and nothing is bound meanwhile. -/

namespace Neptune.AfterDos

structure PsdUsbClass where
  afterDOSRestart : Bool
  useCnt : ℕ
  deriving DecidableEq, Repr

structure PsdInterface where
  ifBinding : Bool
  clsBinding : Option ℕ
  deriving DecidableEq, Repr

/-- `configs` are the interfaces of each configuration. -/
structure PsdDevice where
  devBinding : Bool
  clsBinding : Option ℕ
  appBinding : Bool
  configs : List (List PsdInterface)
  deriving DecidableEq, Repr

/-- `devices` are those of all the hardware, as `psdGetNextDevice` goes over them. -/
structure PsdBase where
  classes : List PsdUsbClass
  devices : List PsdDevice
  deriving DecidableEq, Repr

/-- The devices, `puc_UseCnt` of the class at hand, and whether a `NULL` device has been read. -/
structure Walk where
  devices : List PsdDevice
  useCnt : ℕ
  nullRead : Bool
  deriving DecidableEq, Repr

/-- The walk over the interfaces: whether `pd` is `NULL`, and as before. -/
structure IfWalk where
  reset : Bool
  useCnt : ℕ
  nullRead : Bool
  deriving DecidableEq, Repr

section code

variable (puc : ℕ)

def PsdInterface.boundTo (pif : PsdInterface) : Bool := pif.ifBinding && decide (pif.clsBinding = some puc)

/-- The error message reads the name of `pd`; `pd` is reset, and the loop goes on behind the interface. -/
def releaseIfs : List PsdInterface → IfWalk → List PsdInterface × IfWalk
  | [], w => ([], w)
  | pif :: pifs, w =>
    if pif.boundTo puc then
      let w := { reset := true, useCnt := usub w.useCnt 1, nullRead := w.nullRead || w.reset }
      let (pifs, w) := releaseIfs pifs w
      (⟨false, none⟩ :: pifs, w)
    else
      let (pifs, w) := releaseIfs pifs w
      (pif :: pifs, w)

def releaseConfigs : List (List PsdInterface) → IfWalk → List (List PsdInterface) × IfWalk
  | [], w => ([], w)
  | pc :: pcs, w =>
    let (pc, w) := releaseIfs puc pc w
    let (pcs, w) := releaseConfigs pcs w
    (pc :: pcs, w)

def psdGetNextDevice (devices : List PsdDevice) (pd : Option ℕ) : Option ℕ :=
  let next := pd.elim 0 (· + 1)
  if next < devices.length then some next else none

def PsdDevice.releasable (pd : PsdDevice) : Bool :=
  pd.devBinding && decide (pd.clsBinding = some puc) && !pd.appBinding

/-- The walk over the devices, from the one behind `pd`. -/
def releaseLoop : ℕ → Walk → Option ℕ → Option Walk
  | 0, _, _ => none
  | fuel + 1, w, pd =>
    match psdGetNextDevice w.devices pd with
    | none => some w
    | some i =>
      match w.devices[i]? with
      | none => none
      | some dev =>
        if dev.releasable puc then
          let dev := { dev with devBinding := false, clsBinding := none }
          releaseLoop fuel { w with devices := w.devices.set i dev, useCnt := usub w.useCnt 1 } none
        else
          let (configs, ifs) := releaseConfigs puc dev.configs ⟨false, w.useCnt, w.nullRead⟩
          let w := { devices := w.devices.set i { dev with configs := configs }
                     useCnt := ifs.useCnt
                     nullRead := ifs.nullRead }
          releaseLoop fuel w (if ifs.reset then none else some i)

end code

def PsdUsbClass.restarts (puc : PsdUsbClass) : Bool := puc.afterDOSRestart && decide (puc.useCnt ≠ 0)

/-- The walk over the classes, from the one at the place `k`. -/
def releaseClasses (fuel : ℕ) : ℕ → List PsdUsbClass → List PsdDevice → Bool →
    Option (List PsdUsbClass × List PsdDevice × Bool)
  | _, [], devices, nullRead => some ([], devices, nullRead)
  | k, puc :: pucs, devices, nullRead => do
    if puc.restarts then
      let w ← releaseLoop k fuel ⟨devices, puc.useCnt, nullRead⟩ none
      let (pucs, devices, nullRead) ← releaseClasses fuel (k + 1) pucs w.devices w.nullRead
      return ({ puc with useCnt := w.useCnt } :: pucs, devices, nullRead)
    else
      let (pucs, devices, nullRead) ← releaseClasses fuel (k + 1) pucs devices nullRead
      return (puc :: pucs, devices, nullRead)

/-- With the flag whether a `NULL` device has been read. -/
def pReleaseAfterDOSBindings (fuel : ℕ) (ps : PsdBase) : Option (PsdBase × Bool) := do
  let (classes, devices, nullRead) ← releaseClasses fuel 0 ps.classes ps.devices false
  return (⟨classes, devices⟩, nullRead)

section bound

variable (puc : ℕ) (pd : PsdDevice)

def PsdDevice.boundTo : Bool :=
  pd.devBinding && decide (pd.clsBinding = some puc) || pd.configs.flatten.any (PsdInterface.boundTo puc)

def PsdDevice.boundIfs : ℕ := pd.configs.flatten.countP (PsdInterface.boundTo puc)

end bound

def Released (ps : PsdBase) : Prop :=
  ∀ (k : ℕ) (puc : PsdUsbClass), ps.classes[k]? = some puc → puc.afterDOSRestart = true →
    ∀ pd ∈ ps.devices, pd.boundTo k = false

/-- With fuel enough it returns, has read no `NULL` device, and all is released. -/
def HandsOver (ps : PsdBase) : Prop :=
  ∃ n, ∀ fuel, n ≤ fuel → ∃ ps', pReleaseAfterDOSBindings fuel ps = some (ps', false) ∧ Released ps'

/-- A class that lets go is not an application's, and has no two interfaces of one device; with no bindings counted it has
none. -/
def Single (ps : PsdBase) : Prop :=
  ∀ (k : ℕ) (puc : PsdUsbClass), ps.classes[k]? = some puc → puc.afterDOSRestart = true → ∀ pd ∈ ps.devices,
    if puc.useCnt = 0 then pd.boundTo k = false
    else pd.boundIfs k ≤ 1 ∧ ¬(pd.devBinding ∧ pd.clsBinding = some k ∧ pd.appBinding)

end Neptune.AfterDos
