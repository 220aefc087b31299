import Mathlib

/-! The patch flags of the LUNs of mass storage devices: how a LUN learns one, and how they are kept in
the record of the device and read from it again. -/

namespace Neptune.PatchFlags

abbrev ULONG := BitVec 32

def PFF_SINGLE_LUN : ULONG := 0x000001
def PFF_MODE_XLATE : ULONG := 0x000002
def PFF_FIX_INQ36 : ULONG := 0x000040
def PFF_DELAY_DATA : ULONG := 0x000080
def PFF_SIMPLE_SCSI : ULONG := 0x000100
def PFF_NO_RESET : ULONG := 0x000200
def PFF_FAKE_INQUIRY : ULONG := 0x000400
def PFF_FIX_CAPACITY : ULONG := 0x000800
def PFF_NO_FALLBACK : ULONG := 0x001000
def PFF_CSS_BROKEN : ULONG := 0x002000
def PFF_CLEAR_EP : ULONG := 0x004000

inductive TPType
  | cbi
  | cb
  | bulk
  | uas
  deriving DecidableEq, Repr

def nIsBulkTransport (proto : TPType) : Bool := proto = .bulk || proto = .uas

/-- A LUN. `id` is both of its ID strings, those of the device and of the interface, and `cuc` the
settings of its own; of those of the device it is the flags that matter. -/
structure NepClassMS (η κ : Type) where
  id : η
  unitLUN : ℕ
  unitLUN0 : ℕ
  vendorID : ℕ
  prodID : ℕ
  tpType : TPType
  guiTask : Bool
  usingDefaultCfg : Bool
  patchFlags : ULONG
  cuc : κ
  fallbackAdvised : ULONG
  deriving DecidableEq

/-- The record of a device: the flags of its `MSDC` chunk, and its chunks of the LUNs. -/
structure DevCfg (κ : Type) where
  cdc : Option ULONG
  cucs : ℕ → Option κ

structure NepMSBase (η κ : Type) where
  units : List (NepClassMS η κ)
  /-- The flags and the LUN's settings of `nh_DummyNCM`, the defaults of the class. -/
  patchFlags : ULONG
  cuc : κ
  cfg : η → Option (DevCfg κ)
  cfgRead : Bool

/-- What there is memory for when a record is stored: a new form, and each chunk. -/
structure StoreMem where
  form : Bool
  device : Bool
  unit : ℕ → Bool

/-- And when it is read: the library, and copies of the chunks. -/
structure LoadMem where
  library : Bool
  device : Bool
  unit : Bool

variable {η κ : Type}

namespace NepClassMS

variable (ncm : NepClassMS η κ)

def nTryFallback (flag : ULONG) (enable : Bool) : Bool × NepClassMS η κ :=
  let pf := ncm.patchFlags
  if (if enable then pf &&& flag ≠ 0 else pf &&& flag = 0) then (false, ncm)
  else if pf &&& PFF_NO_FALLBACK ≠ 0 then (false, { ncm with fallbackAdvised := ncm.fallbackAdvised ||| flag })
  else (true, { ncm with patchFlags := if enable then pf ||| flag else pf &&& ~~~flag })

/-- Flags that a model has by default, and flags that it has at any rate. -/
def nVendorQuirks : ULONG :=
  let vendid := ncm.vendorID
  let prodid := ncm.prodID
  let on := fun (b : Bool) (pf : ULONG) => if b then pf else 0
  let defaults :=
    on (vendid = 0x05e3) (PFF_FIX_INQ36 ||| PFF_SIMPLE_SCSI ||| PFF_DELAY_DATA) |||
    on (vendid = 0x0d7d && prodid = 0x1600) PFF_SIMPLE_SCSI |||
    on (vendid = 0x04cb && prodid = 0x0100 || vendid = 0x0204 && prodid = 0x6025 ||
      vendid = 0x0aec && prodid = 0x5010) PFF_FIX_INQ36 |||
    on (vendid = 0x0c76 && prodid = 0x0005 || vendid = 0x066f && prodid = 0x8000) PFF_NO_RESET |||
    on (vendid = 0x059b && prodid = 0x0031 || vendid = 0x058f && prodid = 0x9380 ||
      vendid = 0x3579 && prodid = 0x6901) PFF_SINGLE_LUN
  on (ncm.usingDefaultCfg && nIsBulkTransport ncm.tpType) defaults |||
    on (vendid = 0x090a && prodid = 0x1100) PFF_CLEAR_EP |||
    on (vendid = 0x07b4) PFF_CSS_BROKEN |||
    on (vendid = 0x067b) PFF_CSS_BROKEN |||
    on (vendid = 0x0c76 && prodid = 0x0005) (PFF_FIX_INQ36 ||| PFF_FAKE_INQUIRY ||| PFF_MODE_XLATE)

end NepClassMS

namespace DevCfg

/-- `psdSetUsbDevCfg` without a form makes an empty record. -/
def empty : DevCfg κ := ⟨none, fun _ => none⟩

/-- `psdAddCfgEntry`: the old chunk is removed first, and is gone if there is no memory for the new one. -/
def addDevice (pic : DevCfg κ) (mem : StoreMem) (patchFlags : ULONG) : DevCfg κ :=
  { pic with cdc := if mem.device then some patchFlags else none }

def addUnit (pic : DevCfg κ) (mem : StoreMem) (ncm : NepClassMS η κ) : DevCfg κ :=
  { pic with cucs := Function.update pic.cucs ncm.unitLUN (if mem.unit ncm.unitLUN then some ncm.cuc else none) }

end DevCfg

namespace NepMSBase

variable [DecidableEq η] (nh : NepMSBase η κ)

/-- The unit at place `i` stores its copy of the device's settings, and the settings of the LUNs that are
next to it in the list and have it as their LUN 0. Only `nh_DummyNCM`, which is not in the list, has no
interface. -/
def nStoreConfig (i : ℕ) (mem : StoreMem) : NepMSBase η κ × Bool :=
  match nh.units[i]? with
  | none => (nh, false)
  | some ncm =>
    if !nh.cfgRead then (nh, false)
    else
      match (nh.cfg ncm.id).or (if mem.form then some .empty else none) with
      | none => (nh, false)
      | some pic =>
        let luns := (nh.units.drop i).takeWhile (·.unitLUN0 = i)
        let pic := luns.foldl (fun pic cncm => pic.addUnit mem cncm) (pic.addDevice mem ncm.patchFlags)
        ({ nh with cfg := Function.update nh.cfg ncm.id (some pic) }, true)

def nApplyFallback (i : ℕ) (flag : ULONG) (enable : Bool) (mem : StoreMem) : NepMSBase η κ × Bool :=
  match nh.units[i]? with
  | none => (nh, false)
  | some ncm =>
    let (changed, ncm) := ncm.nTryFallback flag enable
    let nh := { nh with units := nh.units.set i ncm }
    if !changed then (nh, false) else ((nh.nStoreConfig i mem).1, true)

/-- `overlay` puts what is stored of a LUN's settings over the defaults. -/
def nLoadBindingConfig (overlay : κ → κ → κ) (mem : LoadMem) (ncm : NepClassMS η κ) : NepClassMS η κ :=
  if ncm.guiTask then ncm
  else
    let ncm := { ncm with patchFlags := nh.patchFlags, cuc := nh.cuc, usingDefaultCfg := true }
    if !mem.library then ncm
    else
      let cdc := if mem.device then (nh.cfg ncm.id).bind (·.cdc) else none
      let cuc := if mem.unit then (nh.cfg ncm.id).bind (·.cucs ncm.unitLUN) else none
      let ncm :=
        match cdc with
        | some patchFlags => { ncm with patchFlags := patchFlags, usingDefaultCfg := false }
        | none => ncm
      let ncm :=
        match cuc with
        | some cuc => { ncm with cuc := overlay ncm.cuc cuc, usingDefaultCfg := false }
        | none => ncm
      { ncm with patchFlags := ncm.patchFlags ||| ncm.nVendorQuirks }

/-- `nLoadClassConfig` has read the defaults of the class again. -/
def nReapplyConfig (overlay : κ → κ → κ) (patchFlags : ULONG) (cuc : κ) (mem : ℕ → LoadMem) : NepMSBase η κ :=
  let nh := { nh with patchFlags := patchFlags, cuc := cuc }
  { nh with units := nh.units.mapIdx fun i ncm => nh.nLoadBindingConfig overlay (mem i) ncm }

end NepMSBase

inductive Event (κ : Type)
  | applyFallback (i : ℕ) (flag : ULONG) (enable : Bool) (mem : StoreMem)
  | configChanged (patchFlags : ULONG) (cuc : κ) (mem : ℕ → LoadMem)

/-- `learned` has the flags of a device that one of its LUNs enabled and none disabled since. -/
structure Learning (η κ : Type) where
  nh : NepMSBase η κ
  learned : η → ULONG

def remember (learned flag : ULONG) (enable : Bool) : ULONG :=
  if enable then learned ||| flag else learned &&& ~~~flag

def step [DecidableEq η] (overlay : κ → κ → κ) (s : Learning η κ) : Event κ → Option (Learning η κ)
  | .applyFallback i flag enable mem =>
    (s.nh.units[i]?).map fun ncm =>
      let (nh, changed) := s.nh.nApplyFallback i flag enable mem
      { nh := nh
        learned :=
          if changed then Function.update s.learned ncm.id (remember (s.learned ncm.id) flag enable)
          else s.learned }
  | .configChanged patchFlags cuc mem => some { s with nh := s.nh.nReapplyConfig overlay patchFlags cuc mem }

end Neptune.PatchFlags
