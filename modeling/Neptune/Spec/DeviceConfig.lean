import Neptune.Spec.Interfaces
import Neptune.Lib.Run

/-! A device on the context backend: selecting a configuration, switching alternates, resetting
the device and the stream rings of its endpoints. -/

namespace Neptune

/-- The configurations of a device, `pd_CurrCfg`, and the driver. -/
structure CtxDevice where
  configs : List PsdConfig
  currCfg : ℕ
  hcd : Hcd
  deriving DecidableEq, Repr

/-- How the allocator, the driver and the device answer `psdSetDeviceConfig`. -/
structure CfgOutcome where
  eds : Bool
  ioerr : Ioerr
  wire : Ioerr
  deriving DecidableEq, Repr

structure ResetOutcome where
  /-- The backend, the driver, the handle and the hub are there for it, and the port reset went
  well. -/
  port : Bool
  ioerr : Ioerr
  /-- `CreateMsgPort` and `psdAllocPipe`. -/
  pipe : Bool
  cfg : CfgOutcome
  alts : Bool
  deriving DecidableEq, Repr

def updateConfig (cfgnum : ℕ) (f : PsdConfig → PsdConfig) : List PsdConfig → List PsdConfig
  | [] => []
  | pc :: pcs => if pc.cfgNum = cfgnum then f pc :: pcs else pc :: updateConfig cfgnum f pcs

def PsdConfig.mapEps (f : PsdEndpoint → PsdEndpoint) (pc : PsdConfig) : PsdConfig :=
  let g (x : PsdInterface) := { x with eps := x.eps.map f }
  { pc with interfaces := pc.interfaces.map fun m => ⟨g m.pif, m.alterIfs.map g⟩ }

namespace CtxDevice

def eps (d : CtxDevice) : List PsdEndpoint := d.configs.flatMap PsdConfig.eps

/-- `pContextConfigureEndpoints` up to its op. -/
def preClear (d : CtxDevice) (cfgnum : ℕ) : CtxDevice :=
  { d with configs := updateConfig cfgnum .preClear d.configs }

def pContextConfigureEndpoints (d : CtxDevice) (cfgnum : ℕ) (o : CfgOutcome) :
    Ioerr × CtxDevice :=
  match d.configs.find? fun pc => pc.cfgNum = cfgnum with
  | none => (UHIOERR_BADPARAMS, d)
  | some pc =>
    if pc.numEPs ≠ 0 ∧ o.eds = false then (UHIOERR_OUTOFMEMORY, d)
    else if o.ioerr ≠ 0 then (o.ioerr, d.preClear cfgnum)
    else
      let r := d.hcd.configure pc.descs
      (0, { d with
        configs := updateConfig cfgnum (fun pc => pc.setTokens r.2) (d.preClear cfgnum).configs
        hcd := r.1 })

def psdSetDeviceConfig (d : CtxDevice) (cfgnum : ℕ) (o : CfgOutcome) : Bool × CtxDevice :=
  match d.pContextConfigureEndpoints cfgnum o with
  | (ioerr, d) =>
    if ioerr ≠ 0 then (false, d)
    else if o.wire = 0 then (true, { d with currCfg := cfgnum })
    else (false, d)

/-- `NSCMD_USB_RESET_DEVICE` drops every endpoint but EP0. -/
def psdResetDevice (d : CtxDevice) (o : ResetOutcome) : Bool × CtxDevice :=
  if o.port = false ∨ o.ioerr ≠ 0 then (false, d)
  else
    let d := { d with hcd := { d.hcd with held := [] } }
    if o.pipe then
      let r := d.psdSetDeviceConfig d.currCfg o.cfg
      (r.1 && o.alts, r.2)
    else (false, d)

/-- `pCtxEnsureStreams` for an endpoint. `able` stands for the driver's command and the handle;
the driver has no rings for an endpoint it does not hold. -/
def pCtxEnsureStreams (h : Hcd) (maxid : ℕ) (able : Bool) (ioerr : Ioerr) (pep : PsdEndpoint) :
    PsdEndpoint :=
  if able = false ∨ pep.maxStreams = 0 then pep
  else if min maxid pep.maxStreams ≤ pep.streamsAlloc then pep
  else if ioerr = 0 ∧ ∃ x ∈ h.held, x.desc.address = pep.desc.address then
    { pep with streamsAlloc := min maxid pep.maxStreams }
  else { pep with streamsAlloc := 0 }

inductive Event
  | setDeviceConfig (cfgnum : ℕ) (o : CfgOutcome)
  /-- `psdSetAltInterface`, for the interface `id` of the configuration at `i`. -/
  | setAltInterface (i : ℕ) (id : ℕ) (pp : Bool) (o : AltOutcome)
  | resetDevice (o : ResetOutcome)
  | ensureStreams (pep maxid : ℕ) (able : Bool) (ioerr : Ioerr)
  | freeStreams (pep : ℕ)
  deriving DecidableEq, Repr

def mapPep (d : CtxDevice) (pep : ℕ) (f : PsdEndpoint → PsdEndpoint) : CtxDevice :=
  { d with
    configs := d.configs.map (PsdConfig.mapEps fun q => if q.desc.pep = pep then f q else q) }

def step (d : CtxDevice) : Event → Option CtxDevice
  | .setDeviceConfig cfgnum o => some (d.psdSetDeviceConfig cfgnum o).2
  | .setAltInterface i id pp o => do
    let pc ← d.configs[i]?
    let pif ← pc.ifs.find? fun x => x.id = id
    let r := psdSetAltInterface pc d.hcd pp pif o
    some { d with configs := d.configs.set i r.2.1, hcd := r.2.2 }
  | .resetDevice o => some (d.psdResetDevice o).2
  | .ensureStreams pep maxid able ioerr =>
    some (d.mapPep pep (pCtxEnsureStreams d.hcd maxid able ioerr))
  | .freeStreams pep => some (d.mapPep pep fun q => { q with streamsAlloc := 0 })

end CtxDevice

end Neptune
