import Neptune.Spec.BlockIo
import Neptune.Spec.UnitTask
import Neptune.Spec.Transport

/-! The two paths of a block request: the loop of `nRead64` and `nWrite64`, and a tag of the UAS
engine with its block address. The block size is known. -/

namespace Neptune

namespace BlockIo

open Uas (UasTag Wire)
open MSTask (Command)

def aligned (ncm : NepClassMS) (n : ℕ) : Bool := (n >>> ncm.blockShift) <<< ncm.blockShift = n

structure Cursor where
  startblockhigh : ℕ
  startblock : ℕ
  dataoffset : ℕ
  dataremain : ℕ
  deriving DecidableEq, Repr

def startCursor (ncm : NepClassMS) (io : IOStdReq) : Cursor :=
  ⟨io.actual >>> ncm.blockShift, startBlock ncm io, 0, io.length⟩

def rwCmd (ncm : NepClassMS) (iswrite : Bool) (c : Cursor) (datalen : ℕ) : SCSICmd :=
  let (cdb, length) := nBuildRWCdb iswrite c.startblockhigh c.startblock datalen ncm.blockShift
  ⟨.ioData c.dataoffset, datalen, cdb.take length, !iswrite⟩

def nextBlock (ncm : NepClassMS) (startblockhigh startblock datalen : ℕ) : ℕ × ℕ :=
  let oldstartblock := startblock
  let startblock := ulong (startblock + datalen >>> ncm.blockShift)
  if startblock < oldstartblock then (ulong (startblockhigh + 1), startblock)
  else (startblockhigh, startblock)

def Cursor.advance (ncm : NepClassMS) (c : Cursor) (datalen : ℕ) : Cursor :=
  let (startblockhigh, startblock) := nextBlock ncm c.startblockhigh c.startblock datalen
  ⟨startblockhigh, startblock, c.dataoffset + datalen, c.dataremain - datalen⟩

variable {ω : Type*}

/-- The loop of `nRead64` and `nWrite64`. -/
def rwLoop (ncm : NepClassMS) (iswrite : Bool) (nScsiDirect : ScsiDirect ω) :
    ℕ → Cursor → ℤ → Host ω → Option (ℤ × ℕ × Host ω)
  | 0, _, _, _ => none
  | fuel + 1, c, error, h =>
    if c.dataremain = 0 then some (error, c.dataoffset, h)
    else
      let datalen := min c.dataremain ncm.maxtrans
      let (error, h) := nScsiDirect (rwCmd ncm iswrite c datalen) h
      if error ≠ 0 then some (error, c.dataoffset, h)
      else rwLoop ncm iswrite nScsiDirect fuel (c.advance ncm datalen) error h

/-- `emulLargeBlk` is `PFF_EMUL_LARGE_BLK` after `nApplyFallback`; the fuel is enough. -/
def nReadWrite64 (ncm : NepClassMS) (iswrite psdAllocVec emulLargeBlk : Bool)
    (nScsiDirect : ScsiDirect ω) (io : IOStdReq) (h : Host ω) : Option (Outcome ω) :=
  if !aligned ncm io.length || !aligned ncm io.offset then
    if emulLargeBlk then
      if iswrite then nWrite64Emul ncm psdAllocVec nScsiDirect io h
      else nRead64Emul ncm psdAllocVec nScsiDirect io h
    else if !aligned ncm io.length then some ⟨IOERR_BADLENGTH, IOERR_BADLENGTH, 0, h⟩
    else some ⟨IOERR_BADADDRESS, IOERR_BADADDRESS, 0, h⟩
  else
    (rwLoop ncm iswrite nScsiDirect (io.length + 1) (startCursor ncm io) io.error h).map
      fun (error, dataoffset, h) => ⟨error, error, dataoffset, h⟩

def nRead64 (ncm : NepClassMS) : Bool → Bool → ScsiDirect ω → IOStdReq → Host ω →
    Option (Outcome ω) := nReadWrite64 ncm false

def nWrite64 (ncm : NepClassMS) : Bool → Bool → ScsiDirect ω → IOStdReq → Host ω →
    Option (Outcome ω) := nReadWrite64 ncm true

/-- In a command of 32 bits `io_Actual` is no offset. -/
def IOStdReq.short (io : IOStdReq) : IOStdReq :=
  { io with actual := 0, actual_lt := by norm_num }

/-- The arms of `nMSTask` for the commands of `nUasEligible`. -/
def blockArm (ncm : NepClassMS) (psdAllocVec emulLargeBlk : Bool) (nScsiDirect : ScsiDirect ω)
    (cmd : Command) (io : IOStdReq) (h : Host ω) : Option (Outcome ω) :=
  let io := if cmd = .cmdRead ∨ cmd = .cmdWrite then io.short else io
  if cmd.isRead then nRead64 ncm psdAllocVec emulLargeBlk nScsiDirect io h
  else nWrite64 ncm psdAllocVec emulLargeBlk nScsiDirect io h

/-- Keeps what `nScsiDirect` is handed. -/
def recorded (nScsiDirect : ScsiDirect ω) : ScsiDirect (ω × List SCSICmd) := fun cmd h =>
  let (error, h') := nScsiDirect cmd ⟨h.ioData, h.oneBlock, h.world.1⟩
  (error, ⟨h'.ioData, h'.oneBlock, (h'.world, h.world.2 ++ [cmd])⟩)

def nUasEligible (ncm : NepClassMS) (uasQueueDepth : ℕ) (emulLargeBlk : Bool) (cmd : Command)
    (io : IOStdReq) : Bool :=
  uasQueueDepth ≠ 0 && cmd.block && !emulLargeBlk && io.length ≠ 0 && aligned ncm io.length &&
    aligned ncm io.offset

/-- What `nUasSubmitChunk` sends: `iu_Cdb`, and the request of the data pipe. -/
structure Chunk where
  cdb : List UInt8
  dataoffset : ℕ
  datalen : ℕ
  isRead : Bool
  deriving DecidableEq, Repr

/-- The length that the group of the operation code gives to a command block. -/
def cdbLength (op : UInt8) : ℕ :=
  match (op / 32).toNat with
  | 0 => 6
  | 1 | 2 => 10
  | 4 => 16
  | 5 => 12
  | _ => 0

def Chunk.cmd (c : Chunk) : SCSICmd :=
  ⟨.ioData c.dataoffset, c.datalen, c.cdb.take (cdbLength (c.cdb.headD 0)), c.isRead⟩

/-- A tag with its block address; `issued` is not stored in the code. -/
structure BlockTag where
  ut : UasTag
  startBlockHigh : ℕ
  startBlock : ℕ
  issued : List Chunk
  deriving DecidableEq, Repr

def nUasSubmitChunk (ncm : NepClassMS) (bt : BlockTag) (w : Wire) : ℤ × BlockTag × Wire :=
  let datalen := min bt.ut.remain ncm.maxtrans
  let (cdb, _) := nBuildRWCdb (!bt.ut.isRead) bt.startBlockHigh bt.startBlock datalen ncm.blockShift
  let (ioerr, ut, w) := Uas.nUasSubmitChunk ncm.maxtrans bt.ut w
  (ioerr, { bt with
    ut := ut, issued := bt.issued ++ [⟨cdb, bt.ut.offset, datalen, bt.ut.isRead⟩] }, w)

def nUasAdvanceChunk (ncm : NepClassMS) (bt : BlockTag) : Bool × BlockTag :=
  let (more, ut) := Uas.nUasAdvanceChunk bt.ut
  if more then
    let (startBlockHigh, startBlock) := nextBlock ncm bt.startBlockHigh bt.startBlock ut.chunkLen
    (true, { bt with ut := ut, startBlockHigh := startBlockHigh, startBlock := startBlock })
  else (false, { bt with ut := ut })

def nUasFinalizeTag (bt : BlockTag) (w : Wire) (ioerr : ℤ) : BlockTag × Wire :=
  let (ut, w) := Uas.nUasFinalizeTag bt.ut w ioerr
  ({ bt with ut := ut }, w)

def chunkDone (ncm : NepClassMS) (bt : BlockTag) (w : Wire) : BlockTag × Wire :=
  if bt.ut.failed then
    nUasFinalizeTag bt w (if bt.ut.abortReq then Uas.IOERR_ABORTED else Uas.HFERR_Phase)
  else if Uas.nUasIUId bt.ut.status ≠ Uas.UAS_IU_ID_SENSE then nUasFinalizeTag bt w Uas.HFERR_Phase
  else if Uas.nUasParseStatus bt.ut.status ≠ Uas.SCSI_GOOD then
    nUasFinalizeTag bt w Uas.HFERR_BadStatus
  else
    let (more, bt) := nUasAdvanceChunk ncm bt
    if more then
      let (ioerr, bt, w) := nUasSubmitChunk ncm bt w
      if ioerr ≠ 0 then nUasFinalizeTag bt w Uas.HFERR_Phase else (bt, w)
    else nUasFinalizeTag bt w 0

def nUasTagPipeDone (ncm : NepClassMS) (is_status : Bool) (bt : BlockTag) (w : Wire) :
    BlockTag × Wire :=
  let (ut, w, ioerr) := if is_status then Uas.statusDone bt.ut w else Uas.dataDone bt.ut w
  let ut := { ut with outstanding := usub ut.outstanding 1 }
  let failed := !Uas.nUasErrForgiven ioerr && !ut.failed
  let ut := if failed then { ut with failed := true } else ut
  let w := if failed then Uas.nUasTagSignalAbort ut w else w
  let bt := { bt with ut := ut }
  if ut.outstanding ≠ 0 then (bt, w) else chunkDone ncm bt w

def nUasSubmitTag (ncm : NepClassMS) (ioreq : ℕ) (cmd : Command) (io : IOStdReq) (ut : UasTag)
    (w : Wire) : BlockTag × Wire :=
  let io := if cmd = .cmdRead ∨ cmd = .cmdWrite then io.short else io
  let ut := { ut with ioreq := some ioreq, isRead := cmd.isRead, offset := 0, remain := io.length,
                      abortReq := false, failed := false, state := .running }
  let (ioerr, bt, w) :=
    nUasSubmitChunk ncm ⟨ut, io.actual >>> ncm.blockShift, startBlock ncm io, []⟩ w
  if ioerr ≠ 0 then nUasFinalizeTag bt w Uas.HFERR_Phase else (bt, w)

def tagStep (ncm : NepClassMS) : BlockTag × Wire → Bool × Uas.Reply → Option (BlockTag × Wire)
  | (bt, w), (is_status, r) =>
    if if is_status then bt.ut.statusArmed else bt.ut.dataArmed then
      some (nUasTagPipeDone ncm is_status bt { w with replies := [r] })
    else none

open Uas (UasTag Wire)
open MSTask (Command)

/-- What `nUasDoCommand` meets: the tag it claims, what becomes of the command IU, and the replies. -/
structure UasExchange where
  tag : Option UasTag
  commands : List ℤ
  replies : List Uas.Reply
  deriving DecidableEq, Repr

/-- What an attempt meets: `ncm_DenyRequests`, the command, and its REQUEST SENSE. -/
structure UasAnswer where
  deny : Bool
  command : UasExchange
  sense : UasExchange
  deriving DecidableEq, Repr

structure UasAttempt where
  ioerr : ℤ
  status : Uas.Reply
  data : Option Uas.Reply
  deriving DecidableEq, Repr

def dataReply (w : Wire) : Option Uas.Reply :=
  w.passed.findSome? fun
    | .replied (.data _) r => some r
    | _ => none

def noReply : Uas.Reply := ⟨0, 0, []⟩

def wireOf (commands : List ℤ) (replies : List Uas.Reply) : Wire := ⟨replies, commands, [], [], []⟩

def nUasDoCommand (dataLen : ℕ) (x : UasExchange) : UasAttempt :=
  match x.tag with
  | none => ⟨Uas.HFERR_Phase, noReply, none⟩
  | some ut =>
    let (ioerr, ut, w) := Uas.nUasDoCommand dataLen ut (wireOf x.commands x.replies)
    ⟨ioerr, ut.status, dataReply w⟩

def inlineSense (r : Uas.Reply) (senseLen : ℕ) : List UInt8 :=
  if Uas.nUasIUId r = Uas.UAS_IU_ID_SENSE ∧ 16 < r.actual then
    (r.buf.drop 16).take (min (min ((r.byte 14).toNat * 256 + (r.byte 15).toNat) (r.actual - 16))
      senseLen)
  else []

def uasSense (senseLen : ℕ) (status : Uas.Reply) (x : UasExchange) : List UInt8 :=
  let sense := inlineSense status senseLen
  if sense = [] then
    let a := nUasDoCommand senseLen x
    if a.ioerr = 0 then (a.data.getD noReply).buf.take (a.data.getD noReply).actual else []
  else sense

def unitAttention (sense : List UInt8) : Bool :=
  14 ≤ sense.length && sense.getD 2 0 &&& Transport.SK_MASK = Transport.SK_UNIT_ATTENTION

def uasAttempts (length senseLen : ℕ) (answers : ℕ → UasAnswer) : ℕ → ℕ → ℤ × List UasAttempt
  | retrycnt, k =>
    if (answers k).deny then (Uas.HFERR_Phase, [])
    else
      let a := nUasDoCommand length (answers k).command
      if a.ioerr ≠ 0 then (Uas.HFERR_Phase, [a])
      else if Uas.nUasParseStatus a.status = Uas.SCSI_GOOD then (0, [a])
      else if unitAttention (uasSense senseLen a.status (answers k).sense) then
        match retrycnt with
        | 0 => (Uas.HFERR_BadStatus, [a])
        | retrycnt + 1 =>
          let (rioerr, rest) := uasAttempts length senseLen answers retrycnt (k + 1)
          (rioerr, a :: rest)
      else (Uas.HFERR_BadStatus, [a])

def nScsiDirectUAS (cmd : Transport.SCSICmd) (answers : ℕ → UasAnswer) : ℤ × List UasAttempt :=
  uasAttempts cmd.length cmd.senseLength answers cmd.autoretry.toNat 0

inductive TP
  | msc (ncm : Transport.NepClassMS)
  | uas
  deriving DecidableEq, Repr

structure BlockUnit where
  tp : TP
  simpleScsi : Bool
  /-- The address of the command on the stack of the unit task. -/
  addr : ℕ
  deriving DecidableEq, Repr

structure Answer where
  devs : ℕ → Transport.Device
  uas : ℕ → UasAnswer

structure Exchange where
  cmd : SCSICmd
  scsi : Transport.SCSICmd
  answer : Answer
  st : Transport.St
  length : scsi.length = cmd.length
  isRead : scsi.isRead = cmd.isRead

namespace Exchange

variable (tp : TP) (x : Exchange)

def result : ℤ :=
  match tp with
  | .msc ncm => (Transport.nScsiDirect ncm x.scsi x.answer.devs x.st).rioerr
  | .uas => (nScsiDirectUAS x.scsi x.answer.uas).1

def actual : ℕ :=
  match tp with
  | .msc ncm => (Transport.nScsiDirect ncm x.scsi x.answer.devs x.st).st.actual
  | .uas => (((nScsiDirectUAS x.scsi x.answer.uas).2.getLast?.bind (·.data)).getD noReply).actual

def after : Transport.St :=
  match tp with
  | .msc ncm => (Transport.nScsiDirect ncm x.scsi x.answer.devs x.st).st
  | .uas => x.st

def received : List (List UInt8) :=
  match tp with
  | .msc ncm =>
    (Transport.nScsiDirect ncm x.scsi x.answer.devs x.st).attempts.map fun a =>
      if a.2.2.any fun p => p.site = .data then (x.answer.devs a.2.1 .data).bytes else []
  | .uas => (nScsiDirectUAS x.scsi x.answer.uas).2.map fun a => (a.data.getD noReply).buf

end Exchange

/-- The unit, the commands to come and those that have been. -/
structure Link where
  st : Transport.St
  answers : ℕ → Answer
  log : List Exchange

variable {ω : Type*}

def Host.contents (h : Host ω) (cmd : SCSICmd) : List UInt8 :=
  let (bytes, at₀) := h.buffer cmd.data
  (List.range cmd.length).map fun i => bytes (at₀ + i)

def scsiCmd (u : BlockUnit) (cmd : SCSICmd) (h : Host ω) : Transport.SCSICmd :=
  ⟨u.addr, true, cmd.isRead, true, cmd.length, if cmd.isRead then [] else h.contents cmd, 18⟩

def storeAt (at₀ : ℕ) (bytes : List UInt8) (buf : ℕ → UInt8) : ℕ → UInt8 := fun i =>
  if at₀ ≤ i ∧ i < at₀ + bytes.length then bytes.getD (i - at₀) 0 else buf i

def Host.receive (h : Host ω) (cmd : SCSICmd) (received : List (List UInt8)) : Host ω :=
  if cmd.isRead then
    let (bytes, at₀) := h.buffer cmd.data
    h.setBuffer cmd.data (received.foldl (fun buf new => storeAt at₀ new buf) bytes)
  else h

/-- `nScsiDirect` for the block commands; those of 16 bytes do not pass the filter of Simple SCSI. -/
def nScsiDirect (u : BlockUnit) : ScsiDirect Link := fun cmd h =>
  let op := cmd.command.headD 0
  if u.simpleScsi && (op = SCSI_DA_READ_16 || op = SCSI_DA_WRITE_16) then (-1, h)
  else
    let x : Exchange := ⟨cmd, scsiCmd u cmd h, h.world.answers h.world.log.length, h.world.st, rfl, rfl⟩
    let h := h.receive cmd (x.received u.tp)
    (x.result u.tp, { h with world := { h.world with st := x.after u.tp, log := h.world.log ++ [x] } })

inductive TagEvent
  | replied (is_status : Bool) (r : Uas.Reply)
  | abortIo
  /-- What `nUasProcessAborts` does to the tag. -/
  | signalAbort
  | kill
  deriving DecidableEq, Repr

/-- The tag, with the replies by the number of the chunk. -/
structure TagRun where
  bt : BlockTag
  wire : Wire
  log : List (ℕ × Bool × Uas.Reply)
  deriving DecidableEq, Repr

def TagRun.setUt (t : TagRun) (ut : UasTag) : TagRun := { t with bt := { t.bt with ut := ut } }

def tagEvent (ncm : NepClassMS) (t : TagRun) : TagEvent → Option TagRun
  | .replied is_status r =>
    (tagStep ncm (t.bt, t.wire) (is_status, r)).map fun (bt, w) =>
      ⟨bt, w, t.log ++ [(t.bt.issued.length - 1, is_status, r)]⟩
  | .abortIo =>
    some (if t.bt.ut.state ≠ .free ∧ t.bt.ut.ioreq.isSome then
      t.setUt { t.bt.ut with abortReq := true } else t)
  | .signalAbort =>
    some (if t.bt.ut.state = .running ∧ t.bt.ut.abortReq then
      { t with wire := Uas.nUasTagSignalAbort t.bt.ut t.wire } else t)
  | .kill =>
    let (ut, w) := Uas.killTag t.bt.ut t.wire
    some { t.setUt ut with wire := w }

/-- The request is handed to the tag; `commands` are the outcomes of its command IUs. -/
def tagStart (ncm : NepClassMS) (ioreq : ℕ) (cmd : Command) (io : IOStdReq) (ut : UasTag)
    (commands : List ℤ) : TagRun :=
  let (bt, w) := nUasSubmitTag ncm ioreq cmd io ut (wireOf commands [])
  ⟨bt, w, []⟩

end BlockIo

end Neptune
