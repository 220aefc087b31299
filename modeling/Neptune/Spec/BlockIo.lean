import Neptune.Lib.Bytes
import Neptune.Lib.Word

/-! The block commands of the mass storage class down to `nScsiDirect`. What carries a command out is
a parameter. A shift by 32 or more of a `ULONG` leaves nothing, as on the 68k. -/

namespace Neptune.BlockIo

def SCSI_DA_READ_10 : UInt8 := 0x28
def SCSI_DA_WRITE_10 : UInt8 := 0x2a
def SCSI_DA_READ_16 : UInt8 := 0x88
def SCSI_DA_WRITE_16 : UInt8 := 0x8a

def IOERR_BADLENGTH : ℤ := -4
def IOERR_BADADDRESS : ℤ := -5

/-- The fields of a request are `ULONG`s; `io_Actual` comes with the high half of the offset. -/
structure IOStdReq where
  length : ℕ
  offset : ℕ
  actual : ℕ
  error : ℤ
  length_lt : length < 2 ^ 32
  offset_lt : offset < 2 ^ 32
  actual_lt : actual < 2 ^ 32

def IOStdReq.position (io : IOStdReq) : ℕ := io.actual * 2 ^ 32 + io.offset

structure NepClassMS where
  blockShift : ℕ
  maxTransfer : ℕ
  /-- The size of `ncm_OneBlock`, once it is there. -/
  oneBlock : Option ℕ
  deriving DecidableEq, Repr

namespace NepClassMS

def blockSize (ncm : NepClassMS) : ℕ := 2 ^ ncm.blockShift

def maxtrans (ncm : NepClassMS) : ℕ := 2 ^ (ncm.maxTransfer + 16)

end NepClassMS

inductive Buffer
  | oneBlock
  | ioData (offset : ℕ)
  deriving DecidableEq, Repr

structure SCSICmd where
  data : Buffer
  length : ℕ
  command : List UInt8
  isRead : Bool
  deriving DecidableEq, Repr

/-- The memory of the request and of the unit, and what is beyond `nScsiDirect`. -/
structure Host (ω : Type*) where
  ioData : ℕ → UInt8
  oneBlock : ℕ → UInt8
  world : ω

variable {ω : Type*}

abbrev ScsiDirect (ω : Type*) := SCSICmd → Host ω → ℤ × Host ω

def nBuildRWCdb (iswrite : Bool) (startblockhigh startblock datalen blockshift : ℕ) :
    List UInt8 × ℕ :=
  if startblockhigh ≠ 0 then
    ([if iswrite then SCSI_DA_WRITE_16 else SCSI_DA_READ_16, 0] ++ Bytes.toBE 4 startblockhigh ++
      Bytes.toBE 4 startblock ++
      [UInt8.ofNat (datalen >>> (blockshift + 24)), UInt8.ofNat (datalen >>> (blockshift + 16)),
        UInt8.ofNat (datalen >>> (blockshift + 8)), UInt8.ofNat (datalen >>> blockshift), 0, 0], 16)
  else
    ([if iswrite then SCSI_DA_WRITE_10 else SCSI_DA_READ_10, 0] ++ Bytes.toBE 4 startblock ++
      [0, UInt8.ofNat (datalen >>> (blockshift + 8)), UInt8.ofNat (datalen >>> blockshift), 0, 0, 0,
        0, 0, 0, 0], 10)

def cmd10 (iswrite : Bool) (startblock : ℕ) (counthigh countlow : UInt8) : List UInt8 :=
  [if iswrite then SCSI_DA_WRITE_10 else SCSI_DA_READ_10, 0] ++ Bytes.toBE 4 startblock ++
    [0, counthigh, countlow, 0]

structure BlockRange where
  iswrite : Bool
  lba : ℕ
  count : ℕ
  deriving DecidableEq, Repr

def bytesAt (cdb : List UInt8) (i k : ℕ) : ℕ := Bytes.ofBE ((cdb.drop i).take k)

def decode (cdb : List UInt8) : Option BlockRange :=
  match cdb with
  | [] => none
  | op :: _ =>
    if op = SCSI_DA_READ_10 ∨ op = SCSI_DA_WRITE_10 then
      some ⟨op = SCSI_DA_WRITE_10, bytesAt cdb 2 4, bytesAt cdb 7 2⟩
    else if op = SCSI_DA_READ_16 ∨ op = SCSI_DA_WRITE_16 then
      some ⟨op = SCSI_DA_WRITE_16, bytesAt cdb 2 8, bytesAt cdb 10 4⟩
    else none

def CopyMemQuick (src : ℕ → UInt8) (s : ℕ) (dst : ℕ → UInt8) (d n : ℕ) : ℕ → UInt8 :=
  Bytes.copy src s dst d n

/-- The length of the next piece; whether it goes through `ncm_OneBlock`. -/
def piece (ncm : NepClassMS) (insideblockoffset dataremain : ℕ) : Bool × ℕ :=
  let datalen := min dataremain ncm.maxtrans
  if insideblockoffset ≠ 0 ∨ datalen < ncm.blockSize then
    (true, min datalen (ncm.blockSize - insideblockoffset))
  else (false, datalen)

/-- A piece of a request, at a block and at an offset in `io_Data`. -/
structure Piece where
  startblock : ℕ
  insideblockoffset : ℕ
  dataoffset : ℕ
  datalen : ℕ
  deriving DecidableEq, Repr

def oneBlockCmd (ncm : NepClassMS) (p : Piece) (iswrite : Bool) : SCSICmd :=
  ⟨.oneBlock, ncm.blockSize, cmd10 iswrite p.startblock 0 1, !iswrite⟩

def directCmd (ncm : NepClassMS) (p : Piece) (iswrite : Bool) : SCSICmd :=
  ⟨.ioData p.dataoffset, p.datalen, cmd10 iswrite p.startblock
    (UInt8.ofNat (p.datalen >>> (ncm.blockShift + 8))) (UInt8.ofNat (p.datalen >>> ncm.blockShift)),
    !iswrite⟩

/-- The bounce branch of `nRead64Emul`. -/
def readBounce (ncm : NepClassMS) (nScsiDirect : ScsiDirect ω) (p : Piece) (h : Host ω) :
    ℤ × Host ω :=
  let (error, h) := nScsiDirect (oneBlockCmd ncm p false) h
  if error ≠ 0 then (error, h)
  else
    (0, { h with
      ioData := CopyMemQuick h.oneBlock p.insideblockoffset h.ioData p.dataoffset p.datalen })

/-- The bounce branch of `nWrite64Emul`. -/
def writeBounce (ncm : NepClassMS) (nScsiDirect : ScsiDirect ω) (p : Piece) (h : Host ω) :
    ℤ × Host ω :=
  let (error, h) := nScsiDirect (oneBlockCmd ncm p false) h
  if error ≠ 0 then (error, h)
  else
    nScsiDirect (oneBlockCmd ncm p true) { h with
      oneBlock := CopyMemQuick h.ioData p.dataoffset h.oneBlock p.insideblockoffset p.datalen }

/-- The loop of both, with the error, the data that has gone, and the memory. -/
def emulLoop (ncm : NepClassMS) (bounce direct : Piece → Host ω → ℤ × Host ω) :
    ℕ → Piece → ℤ → Host ω → Option (ℤ × ℕ × Host ω)
  | 0, _, _, _ => none
  | fuel + 1, p, error, h =>
    -- `datalen` of the cursor is `dataremain`
    if p.datalen = 0 then some (error, p.dataoffset, h)
    else
      let (through, datalen) := piece ncm p.insideblockoffset p.datalen
      let now := { p with datalen := datalen }
      let (error, h) := if through then bounce now h else direct now h
      if error ≠ 0 then some (error, p.dataoffset, h)
      else
        let startblock :=
          if through then ulong (p.startblock + 1)
          else
            ulong (p.startblock + ((p.insideblockoffset + datalen) >>> ncm.blockShift))
        emulLoop ncm bounce direct fuel
          ⟨startblock, if through then 0 else p.insideblockoffset, p.dataoffset + datalen,
            p.datalen - datalen⟩ error h

/-- What the caller finds: the result, `io_Error`, `io_Actual` and the memory. -/
structure Outcome (ω : Type*) where
  result : ℤ
  error : ℤ
  actual : ℕ
  host : Host ω

def startBlock (ncm : NepClassMS) (io : IOStdReq) : ℕ :=
  (io.offset >>> ncm.blockShift) ||| ulong (io.actual <<< (32 - ncm.blockShift))

/-- Whether `ncm_OneBlock` is large enough, or `psdAllocVec` makes it so. -/
def hasOneBlock (ncm : NepClassMS) (psdAllocVec : Bool) : Bool :=
  match ncm.oneBlock with
  | some size => if size < ncm.blockSize then psdAllocVec else true
  | none => psdAllocVec

/-- `nRead64Emul` and `nWrite64Emul` up to their branches; the fuel is enough. -/
def emulate (ncm : NepClassMS) (psdAllocVec : Bool)
    (bounce direct : Piece → Host ω → ℤ × Host ω) (io : IOStdReq) (h : Host ω) :
    Option (Outcome ω) :=
  if io.length % 512 ≠ 0 then some ⟨IOERR_BADLENGTH, IOERR_BADLENGTH, 0, h⟩
  else if io.offset % 512 ≠ 0 then some ⟨IOERR_BADADDRESS, IOERR_BADADDRESS, 0, h⟩
  else if !hasOneBlock ncm psdAllocVec then some ⟨IOERR_BADADDRESS, io.error, io.actual, h⟩
  else
    (emulLoop ncm bounce direct (io.length + 1)
      ⟨startBlock ncm io, io.offset % ncm.blockSize, 0, io.length⟩ io.error h).map
        fun (error, dataoffset, h) => ⟨error, error, dataoffset, h⟩

def nRead64Emul (ncm : NepClassMS) (psdAllocVec : Bool) (nScsiDirect : ScsiDirect ω) (io : IOStdReq)
    (h : Host ω) : Option (Outcome ω) :=
  emulate ncm psdAllocVec (readBounce ncm nScsiDirect)
    (fun p => nScsiDirect (directCmd ncm p false)) io h

def nWrite64Emul (ncm : NepClassMS) (psdAllocVec : Bool) (nScsiDirect : ScsiDirect ω)
    (io : IOStdReq) (h : Host ω) : Option (Outcome ω) :=
  emulate ncm psdAllocVec (writeBounce ncm nScsiDirect)
    (fun p => nScsiDirect (directCmd ncm p true)) io h

def Host.buffer (h : Host ω) : Buffer → (ℕ → UInt8) × ℕ
  | .oneBlock => (h.oneBlock, 0)
  | .ioData offset => (h.ioData, offset)

def Host.setBuffer (h : Host ω) (b : Buffer) (bytes : ℕ → UInt8) : Host ω :=
  match b with
  | .oneBlock => { h with oneBlock := bytes }
  | .ioData _ => { h with ioData := bytes }

/-- A device that transfers exactly the blocks that the command names. -/
def medium (blockSize : ℕ) : ScsiDirect (ℕ → UInt8) := fun cmd h =>
  match decode cmd.command with
  | none => (0, h)
  | some r =>
    let (bytes, at₀) := h.buffer cmd.data
    if r.iswrite then
      (0, { h with
        world := Bytes.copy bytes at₀ h.world (r.lba * blockSize) (r.count * blockSize) })
    else
      (0, h.setBuffer cmd.data
        (Bytes.copy h.world (r.lba * blockSize) bytes at₀ (r.count * blockSize)))

end Neptune.BlockIo
