import Neptune.Spec.FakeGeometry

/-! What a unit makes of the capacity and of the mode pages that its device reports: `nGetModePage`, `nGetBlockSize` and
`nGetGeometry`, without what `PFF_DEBUG` adds. An access outside of `ncm_ModePageBuf`, a shift by 32 and a division by
zero have no result. -/

namespace Neptune.Capacity

open FakeGeometry (DriveGeometry MEMF_PUBLIC DGF_REMOVABLE RETURN_WARN RETURN_ERROR)

def PDT_WORM : ℕ := 4
def PDT_CDROM : ℕ := 5
def HFERR_Phase : ℤ := 42
def TDERR_NotSpecified : ℤ := 20

structure NepClassMS extends FakeGeometry.NepClassMS where
  /-- `PFF_MODE_XLATE` and `PFF_SIMPLE_SCSI` of `cdc_PatchFlags`, and of `ncm_FallbackAdvised`. -/
  modeXlate : Bool
  simpleScsi : Bool
  modeAdvised : Bool
  simpleAdvised : Bool
  blockSize : ℕ
  blockShift : ℕ
  geometry : DriveGeometry
  sectorSize : ℕ
  changeCount : ℕ
  geoChangeCount : ℕ
  deriving DecidableEq

/-- What `nScsiDirect` returns for `READ CAPACITY`, and what is in `struct CapacityData` then. -/
structure CapacityData where
  ioerr : ℤ
  sectorCount : UInt32
  sectorSize : UInt32

/-- What it returns for a mode page, and what is in `ncm_ModePageBuf` and `scsi_Actual` then. -/
structure ModeSense where
  ioerr : ℤ
  buf : ℕ → UInt8
  actual : UInt32

structure Pages where
  three : ModeSense
  four : ModeSense
  five : ModeSense

structure IOStdReq where
  /-- Whether `io_Data` is not null. -/
  data : Bool
  length : ℕ
  actual : ℕ
  error : ℤ
  /-- `dg_SectorSize` and the rest of the geometry, of which `io_Actual` bytes are copied to `io_Data`. -/
  copied : Option (ℕ × DriveGeometry)

namespace NepClassMS

variable (ncm : NepClassMS)

def psdAddErrorMsg (rc : ℕ) (text : String) : NepClassMS :=
  { ncm with toNepClassMS := FakeGeometry.psdAddErrorMsg rc text ncm.toNepClassMS }

/-- `nApplyFallback` for a flag other than Fix Capacity that is to be set, and was set or advised or not. What
`nStoreConfig` keeps of the change is not modelled. -/
def nApplyFallback (name : String) (flag advised : Bool) (set advise : NepClassMS → NepClassMS) : NepClassMS :=
  if flag then ncm
  else if ncm.noFallback then
    if advised then ncm
    else (advise ncm).psdAddErrorMsg RETURN_WARN
      ("\"" ++ name ++ "\" is probably needed for this device. Please check this.")
  else (set ncm).psdAddErrorMsg RETURN_WARN ("Fallback: Enabling " ++ name ++ ".")

def enableModeXlate : NepClassMS :=
  ncm.nApplyFallback "Translate CMD6->CMD10" ncm.modeXlate ncm.modeAdvised (fun ncm => { ncm with modeXlate := true })
    (fun ncm => { ncm with modeAdvised := true })

def enableSimpleScsi : NepClassMS :=
  ncm.nApplyFallback "Simple SCSI" ncm.simpleScsi ncm.simpleAdvised (fun ncm => { ncm with simpleScsi := true })
    (fun ncm => { ncm with simpleAdvised := true })

/-- A ladder for a phase error: the translation first, no mode pages any more after it. -/
def refused (ioerr : ℤ) : NepClassMS :=
  if ioerr = HFERR_Phase then if !ncm.modeXlate then ncm.enableModeXlate else ncm.enableSimpleScsi else ncm

def readsPages : Bool := !(ncm.simpleScsi || ncm.deviceType = PDT_WORM || ncm.deviceType = PDT_CDROM)

def cached : Prop := ncm.geoChangeCount = ncm.changeCount ∧ ncm.geometry.totalSectors ≠ 0

instance : Decidable ncm.cached := inferInstanceAs (Decidable (_ ∧ _))

end NepClassMS

def peek (buf : ℕ → UInt8) (i : ℕ) : Option ℕ := if i < 256 then some (buf i).toNat else none

def nGetModePage (page : ℕ) (ans : ModeSense) (ncm : NepClassMS) : Option (NepClassMS × Option ℕ) :=
  if ans.ioerr ≠ 0 then some (ncm.refused ans.ioerr, none)
  else do
    let descriptors ← peek ans.buf 3
    if ans.actual.toNat < 6 ∨ ans.actual.toNat < descriptors + 6 then some (ncm, none)
    else do
      let code ← peek ans.buf (descriptors + 4)
      if code % 64 ≠ page % 64 then some (ncm, none)
      else do
        let length ← peek ans.buf (descriptors + 5)
        if ans.actual.toNat - descriptors - 4 < length then some (ncm, none) else some (ncm, some (descriptors + 4))

/-- The counting of `ncm_BlockShift`, as far as the shift goes. -/
def shiftLoop (blockSize : ℕ) : ℕ → ℕ → Option ℕ
  | 0, _ => none
  | left + 1, blockShift =>
    if 2 ^ blockShift < blockSize then shiftLoop blockSize left (blockShift + 1) else some blockShift

def shiftOf (blockSize : ℕ) : Option ℕ := shiftLoop blockSize 32 0

def nGetBlockSize (data : CapacityData) (ncm : NepClassMS) : Option (ℤ × NepClassMS) :=
  if data.ioerr ≠ 0 then
    let ncm := ncm.psdAddErrorMsg RETURN_WARN ("SCSI_READ_CAPACITY failed: " ++ toString data.ioerr)
    let ncm := if ncm.blockSize = 0 then { ncm with sectorSize := 512, blockSize := 512, blockShift := 9 } else ncm
    some (data.ioerr, { ncm with geometry := { ncm.geometry with totalSectors := 0 } })
  else do
    let blockShift ← shiftOf data.sectorSize.toNat
    some (0, { ncm with
      sectorSize := data.sectorSize.toNat
      blockSize := data.sectorSize.toNat
      blockShift
      geometry := { ncm.geometry with totalSectors := ulong (data.sectorCount.toNat + 1) } })

/-- The capacity as `nGetGeometry` takes it. -/
def takeCapacity (data : CapacityData) (ncm : NepClassMS) : NepClassMS :=
  let ncm := { ncm with
    sectorSize := data.sectorSize.toNat
    blockSize := data.sectorSize.toNat
    geometry := { ncm.geometry with totalSectors := ulong (data.sectorCount.toNat + 1) } }
  if data.sectorCount = 0xffffffff then
    { ncm with geometry := { ncm.geometry with totalSectors := ulongSub ncm.geometry.totalSectors 1 } }
      |>.psdAddErrorMsg RETURN_WARN "Capacity exceeds the maximum supported for 32 bit sector counts (usually >2TB)!"
      |>.psdAddErrorMsg RETURN_WARN
        "I/O operations will still work, but geometry and partitioning will be unreliable!"
  else ncm

def readCapacity (data : CapacityData) (ncm : NepClassMS) : Option NepClassMS := do
  let blockShift ← shiftOf data.sectorSize.toNat
  some { takeCapacity data ncm with blockShift }

/-- `gotcyl`, `gotheads` and `gotsect`; `gotblks` is always set when they are looked at, and `gotcylsect` never. -/
structure Got where
  cyl : Bool
  heads : Bool
  sect : Bool
  deriving DecidableEq

abbrev Reading := NepClassMS × Got

/-- A page is asked for unless Simple SCSI has been set meanwhile, and used if there is one. -/
def readPage (page : ℕ) (ans : ModeSense) (use : (ℕ → Option ℕ) → Reading → Option Reading) (r : Reading) :
    Option Reading :=
  if r.1.readsPages then do
    let (ncm, mpdata) ← nGetModePage page ans r.1
    match mpdata with
    | none => some (ncm, r.2)
    | some mpdata => use (fun i => peek ans.buf (mpdata + i)) (ncm, r.2)
  else some r

def takeTracks (tracks : ℕ) (r : Reading) : Reading :=
  let g := r.1.geometry
  ({ r.1 with geometry := { g with
      trackSectors := tracks
      cylinders := if g.cylinders = 0 then g.totalSectors else g.cylinders } },
    { r.2 with sect := true })

def usePage3 (mpdata : ℕ → Option ℕ) (r : Reading) : Option Reading := do
  let b10 ← mpdata 10
  let b11 ← mpdata 11
  let tmpval := b10 * 256 + b11
  if tmpval ≠ 0 then some (takeTracks tmpval r) else some r

def takeCylinders (cylinders heads : ℕ) (r : Reading) : Reading :=
  ({ r.1 with geometry := { r.1.geometry with cylinders, heads } }, { r.2 with cyl := true, heads := true })

def usePage4 (mpdata : ℕ → Option ℕ) (r : Reading) : Option Reading := do
  let b2 ← mpdata 2
  let b3 ← mpdata 3
  let b4 ← mpdata 4
  let tmpval := b2 * 65536 + b3 * 256 + b4
  if tmpval ≠ 0 then do
    let b5 ← mpdata 5
    some (takeCylinders tmpval b5 r)
  else some r

def takeAll (cylinders heads tracks size : ℕ) (r : Reading) : Reading :=
  let ncm := { r.1 with geometry := { r.1.geometry with cylinders, heads, trackSectors := tracks } }
  (if ncm.blockSize ≠ size then
      ncm.psdAddErrorMsg RETURN_WARN
        ("Inconsistent block size information " ++ toString ncm.blockSize ++ " != " ++ toString size ++ "!")
    else ncm,
    ⟨true, true, true⟩)

def usePage5 (mpdata : ℕ → Option ℕ) (r : Reading) : Option Reading := do
  let b8 ← mpdata 8
  let b9 ← mpdata 9
  let tmpval := b8 * 256 + b9
  if tmpval ≠ 0 then do
    let b4 ← mpdata 4
    let b5 ← mpdata 5
    let b6 ← mpdata 6
    let b7 ← mpdata 7
    some (takeAll tmpval b4 b5 (b6 * 256 + b7) r)
  else some r

def readPages (pages : Pages) (r : Reading) : Option Reading := do
  let r ← readPage 3 pages.three usePage3 r
  let r ← readPage 4 pages.four usePage4 r
  readPage 5 pages.five usePage5 r

def fillIn (g : DriveGeometry) (got : Got) : Option (DriveGeometry × Got) := do
  let (g, got) ←
    if !got.cyl && got.heads && got.sect then do
      let cylinders ← FakeGeometry.quot g.totalSectors (ulong (g.heads * g.trackSectors))
      some ({ g with cylinders }, { got with cyl := true })
    else some (g, got)
  let (g, got) ←
    if got.cyl && !got.heads && got.sect then do
      let heads ← FakeGeometry.quot g.totalSectors (ulong (g.cylinders * g.trackSectors))
      some ({ g with heads }, { got with heads := true })
    else some (g, got)
  if got.cyl && got.heads && !got.sect then do
    let trackSectors ← FakeGeometry.quot g.totalSectors (ulong (g.cylinders * g.heads))
    some ({ g with trackSectors }, { got with sect := true })
  else some (g, got)

def readValues (pages : Pages) (ncm : NepClassMS) : Option Reading := do
  let (ncm, got) ← readPages pages (ncm, ⟨false, false, false⟩)
  let (geometry, got) ← fillIn ncm.geometry got
  some ({ ncm with geometry }, got)

def Got.all (got : Got) : Bool := got.cyl && got.heads && got.sect

/-- The product of the values does not have to be what is said of the blocks. -/
def fixTotal (r : Reading) : NepClassMS :=
  let (ncm, got) := r
  let g := ncm.geometry
  let product := ulong (g.cylinders * g.trackSectors * g.heads)
  if got.all ∧ product = ulongSub g.totalSectors 1 ∧ ncm.fixCapacity = false then
    let (changed, fake) := FakeGeometry.nApplyFallback true RETURN_WARN ncm.toNepClassMS
    { ncm with
      toNepClassMS := fake
      geometry := { g with totalSectors := if changed then ulongSub g.totalSectors 1 else g.totalSectors } }
  else if got.all ∧ product = ulong (g.totalSectors + 1) ∧ ncm.fixCapacity = true then
    let (changed, fake) := FakeGeometry.nApplyFallback false RETURN_ERROR ncm.toNepClassMS
    { ncm with
      toNepClassMS := fake
      geometry := { g with totalSectors := if changed then ulong (g.totalSectors + 1) else g.totalSectors } }
  else ncm

def Bogus (cylinders trackSectors heads : ℕ) : Prop :=
  cylinders = 500 ∧ trackSectors = 32 ∧ heads = 8 ∨ cylinders = 16383 ∧ trackSectors = 63 ∧ heads = 16

instance : ∀ c t h, Decidable (Bogus c t h) := fun _ _ _ => inferInstanceAs (Decidable (_ ∨ _))

def invent (fuel : ℕ) (stack : FakeGeometry.Factors) (ncm : NepClassMS) (got : Got) : Option NepClassMS :=
  let g := ncm.geometry
  let bogus := Bogus g.cylinders g.trackSectors g.heads
  let ncm :=
    if bogus then
      (ncm.psdAddErrorMsg RETURN_WARN
        "Firmware returns known bogus geometry, will fall back to faked geometry!").enableSimpleScsi
    else ncm
  if bogus ∨ got.all = false then do
    let faked ← FakeGeometry.nFakeGeometry fuel stack ncm.toNepClassMS ncm.geometry
    some { ncm with toNepClassMS := faked.ncm, geometry := faked.tddg }
  else some ncm

def ld (n : ℕ) : String := toString (if n < 2 ^ 31 then (n : ℤ) else (n : ℤ) - 2 ^ 32)

def conclude (ncm : NepClassMS) : NepClassMS :=
  let g := { ncm.geometry with cylSectors := ulong (ncm.geometry.trackSectors * ncm.geometry.heads) }
  let yields := ulong (g.cylinders * g.cylSectors)
  let ncm :=
    if yields ≠ g.totalSectors then
      ncm.psdAddErrorMsg RETURN_WARN
        ("Estimated Geometry yields " ++ ld (ulongSub g.totalSectors yields) ++ " less total blocks " ++ ld yields ++
          ": Cylinders=" ++ ld g.cylinders ++ ", CylSectors=" ++ ld g.cylSectors ++ ", Heads=" ++ ld g.heads ++
          ", TrackSectors=" ++ ld g.trackSectors ++ ", Blocks=" ++ ld g.totalSectors)
    else ncm
  { ncm with geometry := { g with bufMemType := MEMF_PUBLIC, reserved := 0 }, geoChangeCount := ncm.changeCount }

/-- From the answer to `READ CAPACITY` on. -/
def askGeometry (fuel : ℕ) (stack : FakeGeometry.Factors) (data : CapacityData) (pages : Pages) (ncm : NepClassMS) :
    Option NepClassMS := do
  let ncm ← readCapacity data ncm
  let r ← readValues pages ncm
  let ncm ← invent fuel stack (fixTotal r) r.2
  some (conclude ncm)

def nGetGeometry (fuel : ℕ) (stack : FakeGeometry.Factors) (data : CapacityData) (pages : Pages) (ioreq : IOStdReq)
    (ncm : NepClassMS) : Option (IOStdReq × NepClassMS) :=
  let ioreq := { ioreq with error := 0, actual := 0 }
  if !ioreq.data then some ({ ioreq with error := TDERR_NotSpecified }, ncm)
  else
    -- `sizeof(struct DriveGeometry)`
    let length := min ioreq.length 32
    if ncm.cached then some ({ ioreq with actual := length, copied := some (ncm.sectorSize, ncm.geometry) }, ncm)
    else
      let ncm := { ncm with geometry := { ncm.geometry with
        deviceType := ncm.deviceType
        flags := if ncm.removable then DGF_REMOVABLE else 0 } }
      if data.ioerr ≠ 0 then
        some ({ ioreq with error := data.ioerr },
          ncm.psdAddErrorMsg RETURN_WARN ("SCSI_READ_CAPACITY failed: " ++ toString data.ioerr))
      else do
        let ncm ← askGeometry fuel stack data pages ncm
        some ({ ioreq with actual := length, copied := some (ncm.sectorSize, ncm.geometry) }, ncm)

/-- `ncm_BlockSize == 1 << ncm_BlockShift`. -/
def NepClassMS.Shifted (ncm : NepClassMS) : Prop := ncm.blockSize = 2 ^ ncm.blockShift

def Corrected (fixCapacity : Bool) (n n' : ℕ) : Prop :=
  n' = n ∨ fixCapacity = false ∧ n' + 1 = n ∨ fixCapacity = true ∧ n' = n + 1

def Unharmed (stack : FakeGeometry.Factors) (data : CapacityData) (pages : Pages) (ioreq : IOStdReq)
    (ncm : NepClassMS) : Prop :=
  ∃ enough r r', nGetBlockSize data ncm = some r ∧
    (∀ fuel ≥ enough, nGetGeometry fuel stack data pages ioreq ncm = some r') ∧
    (r.1 ≠ 0 ∨ r.2.Shifted) ∧ (r'.1.error ≠ 0 ∨ r'.2.Shifted) ∧
    (ioreq.data = true → ¬ncm.cached → data.ioerr = 0 →
      Corrected ncm.fixCapacity r.2.geometry.totalSectors r'.2.geometry.totalSectors)

namespace ModeSense

variable (ans : ModeSense) (page : ℕ)

def byte (i : ℕ) : ℕ := (ans.buf i).toNat

/-- Where the page starts, behind the header and the block descriptors. -/
def start : ℕ := ans.byte 3 + 4

/-- How far the answer is what it should be: it goes on behind its block descriptors, with the page, and all of it. -/
def Long : Prop := ans.ioerr = 0 ∧ ans.byte 3 + 6 ≤ ans.actual.toNat

def Headed : Prop := ans.Long ∧ ans.byte ans.start % 64 = page % 64

def Held : Prop := ans.Headed page ∧ ans.byte (ans.start + 1) ≤ ans.actual.toNat - ans.start

instance : Decidable ans.Long := inferInstanceAs (Decidable (_ ∧ _))

instance : Decidable (ans.Headed page) := inferInstanceAs (Decidable (_ ∧ _))

instance : Decidable (ans.Held page) := inferInstanceAs (Decidable (_ ∧ _))

/-- What is looked at, up to `last` in the page, is in the buffer. -/
def Inside (last : ℕ) : Prop :=
  (ans.Long → ans.start < 256) ∧ (ans.Headed page → ans.start + 1 < 256) ∧ (ans.Held page → ans.start + last < 256)

instance (last : ℕ) : Decidable (ans.Inside page last) := inferInstanceAs (Decidable (_ ∧ _))

def tracks3 : ℕ := if ans.Held 3 then ans.byte (ans.start + 10) * 256 + ans.byte (ans.start + 11) else 0

def cylinders4 : ℕ :=
  if ans.Held 4 then ans.byte (ans.start + 2) * 65536 + ans.byte (ans.start + 3) * 256 + ans.byte (ans.start + 4) else 0

def heads4 : ℕ := ans.byte (ans.start + 5)

def cylinders5 : ℕ := if ans.Held 5 then ans.byte (ans.start + 8) * 256 + ans.byte (ans.start + 9) else 0

def heads5 : ℕ := ans.byte (ans.start + 4)

def tracks5 : ℕ := ans.byte (ans.start + 5)

end ModeSense

section Told

variable (ncm : NepClassMS) (pages : Pages)

/-- The page 4 is asked for unless Simple SCSI is set for what became of the page 3, and the page 5 unless it is for
what became of either. -/
def Asks4 : Prop :=
  ncm.readsPages = true ∧ ¬(ncm.noFallback = false ∧ ncm.modeXlate = true ∧ pages.three.ioerr = HFERR_Phase)

def Asks5 : Prop :=
  Asks4 ncm pages ∧ ¬(ncm.noFallback = false ∧ (ncm.modeXlate = true ∨ pages.three.ioerr = HFERR_Phase) ∧
    pages.four.ioerr = HFERR_Phase)

instance : Decidable (Asks4 ncm pages) := inferInstanceAs (Decidable (_ ∧ _))

instance : Decidable (Asks5 ncm pages) := inferInstanceAs (Decidable (_ ∧ _))

def told3 : ℕ := if ncm.readsPages = true then pages.three.tracks3 else 0

def told4 : ℕ := if Asks4 ncm pages then pages.four.cylinders4 else 0

def told5 : ℕ := if Asks5 ncm pages then pages.five.cylinders5 else 0

def reported : ℕ × ℕ × ℕ :=
  if told5 ncm pages ≠ 0 then (told5 ncm pages, pages.five.tracks5, pages.five.heads5)
  else (told4 ncm pages, told3 ncm pages, pages.four.heads4)

def PagesInside : Prop :=
  (ncm.readsPages = true → pages.three.Inside 3 11) ∧
  (Asks4 ncm pages → pages.four.Inside 4 (if pages.four.cylinders4 ≠ 0 then 5 else 4)) ∧
  (Asks5 ncm pages → pages.five.Inside 5 9)

def Headless : Prop :=
  told4 ncm pages ≠ 0 ∧ pages.four.heads4 = 0 ∧ told3 ncm pages = 0 ∧ told5 ncm pages = 0

def Untold : Prop :=
  told4 ncm pages = 0 ∧ told5 ncm pages = 0 ∨
  Bogus (reported ncm pages).1 (reported ncm pages).2.1 (reported ncm pages).2.2

def Wraps : Prop :=
  ncm.fixCapacity = true ∧ ncm.noFallback = false ∧
  (told5 ncm pages ≠ 0 ∨ told4 ncm pages ≠ 0 ∧ told3 ncm pages ≠ 0) ∧
  ulong ((reported ncm pages).1 * (reported ncm pages).2.1 * (reported ncm pages).2.2) = 0

/-- For an answer of the device to `nGetGeometry`. -/
def Believable (data : CapacityData) : Prop :=
  PagesInside ncm pages ∧ ¬Headless ncm pages ∧
  ¬(data.sectorCount = 0 ∧ ncm.fixCapacity = false ∧ Untold ncm pages) ∧
  (data.sectorCount = 0xffffffff ↔ 0xfffffffe ≤ data.sectorCount.toNat ∧ Wraps ncm pages)

end Told

def Harmless (data : CapacityData) (pages : Pages) (ioreq : IOStdReq) (ncm : NepClassMS) : Prop :=
  (data.ioerr = 0 → ∃ k < 32, data.sectorSize.toNat = 2 ^ k) ∧
  (ioreq.data = true → ncm.cached → ncm.Shifted) ∧
  (ioreq.data = true → ¬ncm.cached → data.ioerr = 0 → Believable ncm pages data)

end Neptune.Capacity
