import Neptune.Lib.Word

/-! Configurations, interfaces and endpoints of a device, and what the context backend
(`pContextConfigureEndpoints`, `pContextSetInterface`) makes the controller's driver hold of
them. The calls run with the device locked, so each is one step; what the driver, the device and
the allocator answer comes in as an outcome. -/

namespace Neptune

/-- An error code of an op or a transfer, zero for none. -/
abbrev Ioerr := ℤ

def UHIOERR_STALL : Ioerr := 4
def UHIOERR_BADPARAMS : Ioerr := 11
def UHIOERR_OUTOFMEMORY : Ioerr := 12

/-- What the driver is told of an endpoint. `pep` names the endpoint, and stands for all that is
filled in from it but the address. -/
structure UhcdEndpointDesc where
  pep : ℕ
  address : ℕ
  deriving DecidableEq, Repr

structure PsdEndpoint where
  desc : UhcdEndpointDesc
  /-- `NULL` until configured. -/
  token : Option ℕ
  streamsAlloc : ℕ
  maxStreams : ℕ
  deriving DecidableEq, Repr

structure PsdInterface where
  id : ℕ
  ifNum : ℕ
  alternate : ℕ
  /-- `bNumEndpoints` of the descriptor, whatever endpoints have followed it. -/
  numEPs : ℕ
  eps : List PsdEndpoint
  ifBinding : Option ℕ
  clsBinding : Option ℕ
  parentIf : Option ℕ
  deriving DecidableEq, Repr

/-- A node of `pc_Interfaces`, with its inactive alternates. -/
structure MainIf where
  pif : PsdInterface
  alterIfs : List PsdInterface
  deriving DecidableEq, Repr

structure PsdConfig where
  cfgNum : ℕ
  interfaces : List MainIf
  deriving DecidableEq, Repr

structure Held where
  desc : UhcdEndpointDesc
  token : ℕ
  deriving DecidableEq, Repr

/-- The driver's endpoints of the device but EP0, and a token it has not delivered yet. -/
structure Hcd where
  held : List Held
  next : ℕ
  deriving DecidableEq, Repr

namespace Hcd

def add (h : Hcd) (ds : List UhcdEndpointDesc) : Hcd × List ℕ :=
  let tokens := List.range' h.next ds.length
  (⟨h.held ++ List.zipWith Held.mk ds tokens, h.next + ds.length⟩, tokens)

/-- A full `NSCMD_USB_CONFIGURE_ENDPOINTS` that succeeds: all tokens there were are void. -/
def configure (h : Hcd) (ds : List UhcdEndpointDesc) : Hcd × List ℕ :=
  { h with held := [] }.add ds

def change (h : Hcd) (drops : List ℕ) (ds : List UhcdEndpointDesc) : Hcd × List ℕ :=
  { h with held := h.held.filter fun x => x.desc.address ∉ drops }.add ds

end Hcd

def PsdEndpoint.clear (pep : PsdEndpoint) : PsdEndpoint :=
  { pep with token := none, streamsAlloc := 0 }

/-- The walk that takes the tokens out of the filled-in descriptions, and the tokens it leaves. -/
def setTokens : List PsdEndpoint → List ℕ → List PsdEndpoint × List ℕ
  | pep :: peps, t :: ts =>
    let r := setTokens peps ts
    ({ pep with token := some t } :: r.1, r.2)
  | peps, ts => (peps, ts)

namespace PsdInterface

def clear (pif : PsdInterface) : PsdInterface := { pif with eps := pif.eps.map .clear }

def descs (pif : PsdInterface) : List UhcdEndpointDesc := pif.eps.map (·.desc)

def addresses (pif : PsdInterface) : List ℕ := pif.eps.map (·.desc.address)

def setTokens (pif : PsdInterface) (ts : List ℕ) : PsdInterface :=
  { pif with eps := (Neptune.setTokens pif.eps ts).1 }

end PsdInterface

def setMainTokens : List MainIf → List ℕ → List MainIf
  | [], _ => []
  | m :: ms, ts =>
    { m with pif := m.pif.setTokens ts } :: setMainTokens ms (setTokens m.pif.eps ts).2

namespace PsdConfig

def ifs (pc : PsdConfig) : List PsdInterface :=
  pc.interfaces.flatMap fun m => m.pif :: m.alterIfs

def eps (pc : PsdConfig) : List PsdEndpoint := pc.ifs.flatMap (·.eps)

def put (pc : PsdConfig) (pif : PsdInterface) : PsdConfig :=
  let f (x : PsdInterface) := if x.id = pif.id then pif else x
  { pc with interfaces := pc.interfaces.map fun m => ⟨f m.pif, m.alterIfs.map f⟩ }

/-- `cnt` of `pContextConfigureEndpoints`: the declared endpoints of the main interfaces. -/
def numEPs (pc : PsdConfig) : ℕ := uword (pc.interfaces.map (·.pif.numEPs)).sum

/-- The walk that fills in `eds`, when there is one. -/
def preClear (pc : PsdConfig) : PsdConfig :=
  if pc.numEPs = 0 then pc
  else { pc with interfaces := pc.interfaces.map fun m => { m with pif := m.pif.clear } }

def descs (pc : PsdConfig) : List UhcdEndpointDesc :=
  if pc.numEPs = 0 then [] else pc.interfaces.flatMap (·.pif.descs)

def setTokens (pc : PsdConfig) (ts : List ℕ) : PsdConfig :=
  { pc with interfaces := setMainTokens pc.interfaces ts }

end PsdConfig

/-- How the driver and the allocator answer `pContextSetInterface`. -/
structure Change where
  eds : Bool
  drops : Bool
  ioerr : Ioerr
  deriving DecidableEq, Repr

/-- What is dropped and added of an interface, when it declares endpoints. -/
def PsdInterface.drops (pif : PsdInterface) : List ℕ := if pif.numEPs = 0 then [] else pif.addresses

def PsdInterface.adds (pif : PsdInterface) : List UhcdEndpointDesc :=
  if pif.numEPs = 0 then [] else pif.descs

def PsdInterface.dropClear (pif : PsdInterface) : PsdInterface :=
  if pif.numEPs = 0 then pif else pif.clear

/-- The error, `curif` and `pif`, and the driver. An interface with more endpoints than it
declares overruns `eds` and `drops` in the code; here there is room. -/
def pContextSetInterface (curif pif : PsdInterface) (h : Hcd) (o : Change) :
    Ioerr × (PsdInterface × PsdInterface) × Hcd :=
  if pif.numEPs = 0 ∧ curif.numEPs = 0 then (0, (curif, pif), h)
  else if pif.numEPs ≠ 0 ∧ o.eds = false then (UHIOERR_OUTOFMEMORY, (curif, pif), h)
  else if curif.numEPs ≠ 0 ∧ o.drops = false then (UHIOERR_OUTOFMEMORY, (curif, pif), h)
  else if o.ioerr ≠ 0 then (o.ioerr, (curif.dropClear, pif), h)
  else
    let r := h.change curif.drops pif.adds
    (0, (curif.dropClear, pif.setTokens r.2), r.1)

structure AltOutcome where
  switch : Change
  /-- The wire `SET_INTERFACE` and `GET_INTERFACE`, and what the latter returned. -/
  setIoerr : Ioerr
  getIoerr : Ioerr
  buf : ℕ
  back : Change
  deriving DecidableEq, Repr

def AltOutcome.confirms (o : AltOutcome) (pp : Bool) (altnum : ℕ) : Bool :=
  if pp then (o.setIoerr = 0 || o.setIoerr = UHIOERR_STALL) && o.getIoerr = 0 && altnum = o.buf
  else altnum = altnum % 2 ^ 8

/-- The resorting of the interface list under `Forbid()`. -/
def PsdConfig.resort (pc : PsdConfig) (curif pif : PsdInterface) : PsdConfig :=
  let own := ((pc.interfaces.find? fun m => m.pif.id = pif.id).map (·.alterIfs)).getD []
  let unlinked := (pc.interfaces.filter fun m => m.pif.id ≠ pif.id).map fun m =>
    { m with alterIfs := m.alterIfs.filter fun x => x.id ≠ pif.id }
  let moved (x : PsdInterface) := { x with parentIf := some pif.id }
  { pc with
    interfaces := unlinked.map fun m =>
      if m.pif.id = curif.id then
        ⟨{ pif with
            parentIf := none
            clsBinding := curif.clsBinding
            ifBinding := curif.ifBinding },
          own ++ m.alterIfs.map moved ++
            [{ curif with ifBinding := none, clsBinding := none, parentIf := some pif.id }]⟩
      else m }

/-- `pp` tells whether there is a pipe, `pif` is an interface of `pc`. -/
def psdSetAltInterface (pc : PsdConfig) (h : Hcd) (pp : Bool) (pif : PsdInterface)
    (o : AltOutcome) : Bool × PsdConfig × Hcd :=
  match pc.interfaces.find? fun m => m.pif.ifNum = pif.ifNum with
  | none => (false, pc, h)
  | some m =>
    if m.pif.id = pif.id then (true, pc, h)
    else if pp then
      match pContextSetInterface m.pif pif h o.switch with
      | (ioerr, (curif, pif), h) =>
        let pc := (pc.put curif).put pif
        if ioerr ≠ 0 then (false, pc, h)
        else if o.confirms true pif.alternate then (true, pc.resort curif pif, h)
        else
          match pContextSetInterface pif curif h o.back with
          | (_, (pif, curif), h) => (false, (pc.put pif).put curif, h)
    else if o.confirms false pif.alternate then (true, pc.resort m.pif pif, h)
    else (false, pc, h)

def fillIn {α : Type} (room : ℕ) : List α → List α → Option (List α)
  | [], eds => some eds
  | d :: ds, eds => if eds.length < room then fillIn room ds (eds ++ [d]) else none

/-- An array of the declared number of entries; there is none for none. -/
def declared {α : Type} (numEPs : ℕ) (walk : List α) : Option (List α) :=
  if numEPs = 0 then some [] else fillIn numEPs walk []

/-- `ceo_Add` and `ceo_DropAddresses`. -/
structure UhcdConfigureEndpoints where
  add : List UhcdEndpointDesc
  drop : List ℕ
  deriving DecidableEq, Repr

def PsdConfig.active (pc : PsdConfig) : List PsdEndpoint := pc.interfaces.flatMap (·.pif.eps)

/-- The op of `pContextConfigureEndpoints`. -/
def PsdConfig.configureOp (pc : PsdConfig) : Option UhcdConfigureEndpoints := do
  let eds ← declared pc.numEPs (pc.active.map (·.desc))
  return ⟨eds, []⟩

/-- The op of `pContextSetInterface`, when there is one. -/
def setInterfaceOp (curif pif : PsdInterface) : Option (Option UhcdConfigureEndpoints) :=
  if pif.numEPs = 0 ∧ curif.numEPs = 0 then some none
  else do
    let eds ← declared pif.numEPs pif.descs
    let drops ← declared curif.numEPs curif.addresses
    return some ⟨eds, drops⟩

end Neptune
