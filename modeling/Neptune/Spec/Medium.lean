import Neptune.Lib.Run
import Neptune.Spec.BlockIo

/-! The parameters of the medium in a removable unit: who reads the capacity, who counts a change, and
who goes by what has been read. A request of the unit task is one step; the changes that any task
counts meanwhile are told with it, at the place where they are counted. `capacityAt` and `answeredAt`
are not in the code: how many changes had been counted as the capacity in use was read, and as
`TD_GETGEOMETRY` was last answered. -/

namespace Neptune.Medium

open BlockIo (IOStdReq)

inductive Entry
  | geometry (totalSectors sectorSize : ℕ) (capacityAt : Option ℕ) (changes : ℕ)
  | transfer (startBlock : ℕ) (capacityAt answeredAt : Option ℕ) (changes : ℕ)
  deriving DecidableEq, Repr

structure NepClassMS where
  simpleScsi : Bool
  blockSize : ℕ
  blockShift : ℕ
  sectorSize : ℕ
  totalSectors : ℕ
  geoChangeCount : ℕ
  /-- `ncm_ChangeCount` is what a `ULONG` keeps of it. -/
  changes : ℕ
  capacityAt : Option ℕ
  answeredAt : Option ℕ
  log : List Entry
  deriving DecidableEq, Repr

/-- What comes of a READ CAPACITY: the changes counted before its answer, its error and the answer. -/
structure Capacity where
  counted : ℕ
  ioerr : ℤ
  lastSector : ℕ
  sectorSize : ℕ
  deriving DecidableEq, Repr

def shiftOf (size : ℕ) : ℕ := Nat.clog 2 size

namespace NepClassMS

variable (s : NepClassMS)

def changeCount : ℕ := ulong s.changes

def count (k : ℕ) : NepClassMS := { s with changes := s.changes + k }

def readCapacity (size totalSectors : ℕ) : NepClassMS :=
  { s with
    sectorSize := size, blockSize := size, blockShift := shiftOf size, totalSectors := totalSectors
    capacityAt := some s.changes }

def nGetBlockSize (c : Capacity) : NepClassMS :=
  let s := s.count c.counted
  if c.ioerr ≠ 0 then
    let s := if s.blockSize = 0 then
        { s with sectorSize := 512, blockSize := 512, blockShift := 9, capacityAt := none }
      else s
    { s with totalSectors := 0 }
  else s.readCapacity c.sectorSize (ulong (c.lastSector + 1))

/-- What `nGetGeometry` meets: the capacity, what the mode pages, Fix Capacity and `nFakeGeometry` make
of the number of sectors, and the changes counted from the capacity to the end. -/
structure GeometryRun where
  capacity : Capacity
  estimate : ℕ → ℕ
  counted : ℕ

def answer : NepClassMS :=
  { s with
    answeredAt := some s.changes
    log := s.log ++ [.geometry s.totalSectors s.sectorSize s.capacityAt s.changes] }

def cached : Bool := s.geoChangeCount = s.changeCount && s.totalSectors ≠ 0

def sectorsOf (lastSector : ℕ) : ℕ := if lastSector = 0xffffffff then lastSector else lastSector + 1

def nGetGeometry (g : GeometryRun) : NepClassMS :=
  if s.cached then s.answer
  else
    let s := s.count g.capacity.counted
    if g.capacity.ioerr ≠ 0 then s
    else
      let s := s.readCapacity g.capacity.sectorSize (sectorsOf g.capacity.lastSector)
      let s := { s with totalSectors := g.estimate s.totalSectors }.count g.counted
      { s.answer with geoChangeCount := s.changeCount }

def fakesPage (page : ℕ) : Bool := page = 0x3f || page = 0x03 || page = 0x04 || page = 0x05

/-- MODE SENSE(6): made up under Simple SCSI, and a command like others otherwise. -/
def modeSense6 (page : ℕ) (g : GeometryRun) : NepClassMS :=
  if s.simpleScsi then
    if fakesPage page then
      let s := if s.blockSize ≠ 0 ∧ s.totalSectors ≠ 0 then s else s.nGetBlockSize g.capacity
      if s.totalSectors ≠ 0 then
        let s := { s with totalSectors := g.estimate s.totalSectors }.count g.counted
        { s with geoChangeCount := s.changeCount }
      else s
    else s
  else s.count g.counted

/-- A READ or WRITE: the block size is asked for where it is not known. -/
def transfer (io : IOStdReq) (c : Capacity) (counted : ℕ) : NepClassMS :=
  let s := if s.blockSize = 0 then s.nGetBlockSize c else s
  let made := Entry.transfer (BlockIo.startBlock ⟨s.blockShift, 0, none⟩ io) s.capacityAt s.answeredAt
    s.changes
  { s with log := s.log ++ [made] }.count counted

end NepClassMS

open NepClassMS (GeometryRun)

inductive Event
  /-- A change is counted, by the removable task or while another command is underway. -/
  | changed
  | getGeometry (g : GeometryRun)
  | modeSense6 (page : ℕ) (g : GeometryRun)
  | transfer (io : IOStdReq) (c : Capacity) (counted : ℕ)
  /-- Simple SCSI is turned on or off, by hand or as a fallback. -/
  | patch (simpleScsi : Bool)

def step (s : NepClassMS) : Event → Option NepClassMS
  | .changed => some (s.count 1)
  | .getGeometry g => some (s.nGetGeometry g)
  | .modeSense6 page g => some (s.modeSense6 page g)
  | .transfer io c counted => some (s.transfer io c counted)
  | .patch simpleScsi => some { s with simpleScsi := simpleScsi }

/-- A unit as it is bound; a CD or WORM drive is taken to have blocks of 2048 bytes, the others are
asked. The number of sectors is what the last binding left. -/
def bound (simpleScsi isCd : Bool) (totalSectors changes : ℕ) : NepClassMS :=
  ⟨simpleScsi, if isCd then 2048 else 0, if isCd then 11 else 9, 0, totalSectors, 0xffffffff, changes,
    none, none, []⟩

end Neptune.Medium
