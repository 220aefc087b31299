import Mathlib

/-! The translation of six-byte commands in `nScsiDirectInner`, on the way to the device and on the way back. -/

namespace Neptune.ModeXlate

inductive CSType
  | rbc
  | atapi
  | qic157
  | ufi
  | fddAtapi
  | scsi
  deriving DecidableEq, Repr

def CSType.packets (csType : CSType) : Bool := csType = .atapi || csType = .fddAtapi || csType = .ufi

structure NepClassMS where
  csType : CSType
  /-- `PFF_MODE_XLATE` and `PFF_SIMPLE_SCSI`. -/
  modeXlate : Bool
  simpleScsi : Bool
  blockSize : ℕ

/-- `scsi_Data` is where in the memory the buffer starts. -/
structure SCSICmd where
  command : ℕ → UInt8
  cmdLength : ℕ
  data : ℕ → UInt8
  length : UInt32
  actual : UInt32

def SCSI_REQUEST_SENSE : UInt8 := 0x03
def SCSI_DA_READ_6 : UInt8 := 0x08
def SCSI_DA_WRITE_6 : UInt8 := 0x0a
def SCSI_DA_SEEK_6 : UInt8 := 0x0b
def SCSI_INQUIRY : UInt8 := 0x12
def SCSI_MODE_SELECT_6 : UInt8 := 0x15
def SCSI_MODE_SENSE_6 : UInt8 := 0x1a
def SCSI_MODE_SELECT_10 : UInt8 := 0x55
def SCSI_MODE_SENSE_10 : UInt8 := 0x5a

def NepClassMS.translates (ncm : NepClassMS) (cmdLength : ℕ) : Bool :=
  ncm.modeXlate && cmdLength = 6 || ncm.csType.packets

/-- What of these commands is not answered or filtered by Simple SCSI. -/
def NepClassMS.accepts (ncm : NepClassMS) (op : UInt8) : Bool :=
  !ncm.simpleScsi || op ∈ [SCSI_DA_READ_6, SCSI_DA_WRITE_6, SCSI_DA_SEEK_6]

/-- A command on its way: the caller's, the one that is sent for it, whether there is a `sensedata`, and whether that is
where the data of the command is. -/
structure Xlated where
  scsicmd : SCSICmd
  scsicmd10 : SCSICmd
  sensedata : Bool
  moved : Bool

/-- The first ten bytes of `cmd12`. -/
def cdb (b0 b1 b2 b3 b4 b5 b6 b7 b8 b9 : UInt8) : ℕ → UInt8
  | 0 => b0 | 1 => b1 | 2 => b2 | 3 => b3 | 4 => b4 | 5 => b5 | 6 => b6 | 7 => b7 | 8 => b8 | 9 => b9
  | _ => 0

def xlateBlocks (scsicmd : SCSICmd) : Xlated :=
  let c := scsicmd.command
  { scsicmd
    scsicmd10 := { scsicmd with
      command := cdb (c 0 ||| 0x20) (c 1 &&& 0xe0) 0 (c 1 &&& 0x1f) (c 2) (c 3) 0 0 (c 4) (c 5)
      cmdLength := 10 }
    sensedata := false
    moved := false }

/-- The upper and the lower byte of a length that a byte gives, and four. -/
def lengthHigh (b : UInt8) : UInt8 := UInt8.ofNat ((b.toNat + 4) / 2 ^ 8)

def lengthLow (b : UInt8) : UInt8 := UInt8.ofNat (b.toNat + 4)

/-- `mem` is whether there is memory for `sensedata`, which is cleared. -/
def xlateSelect (mem : Bool) (scsicmd : SCSICmd) : Xlated :=
  let c := scsicmd.command
  let scsicmd10 := { scsicmd with
    command := cdb SCSI_MODE_SELECT_10 (c 1) 0 0 0 0 0 (lengthHigh (c 4)) (lengthLow (c 4)) (c 5)
    cmdLength := 10 }
  if mem ∧ 4 ≤ scsicmd.length then
    { scsicmd
      scsicmd10 := { scsicmd10 with
        length := scsicmd.length + 4
        data := fun i =>
          if i = 1 then scsicmd.data 0
          else if i = 2 then scsicmd.data 1
          else if i = 3 then scsicmd.data 2
          else if i = 7 then scsicmd.data 3
          else if 8 ≤ i ∧ i < scsicmd.length.toNat + 4 then scsicmd.data (i - 4)
          else 0 }
      sensedata := true
      moved := true }
  else { scsicmd, scsicmd10, sensedata := mem, moved := false }

def xlateSense (mem : Bool) (scsicmd : SCSICmd) : Xlated :=
  -- the upper byte of the length is not to be needed, which some devices do not look at
  let scsicmd :=
    if 251 < scsicmd.command 4 ∧ scsicmd.length.toNat = (scsicmd.command 4).toNat then
      { scsicmd with
        command := fun i => if i = 4 then scsicmd.command 4 - 4 else scsicmd.command i
        length := scsicmd.length - 4 }
    else scsicmd
  let c := scsicmd.command
  let scsicmd10 := { scsicmd with
    command := cdb SCSI_MODE_SENSE_10 (c 1 &&& 0xf7) (c 2) (c 3) 0 0 0 (lengthHigh (c 4)) (lengthLow (c 4)) (c 5)
    cmdLength := 10 }
  if mem then
    { scsicmd
      scsicmd10 := { scsicmd10 with length := scsicmd.length + 4, data := fun _ => 0 }
      sensedata := true
      moved := true }
  else { scsicmd, scsicmd10, sensedata := false, moved := false }

def xlate (mem : Bool) (scsicmd : SCSICmd) : Xlated :=
  let op := scsicmd.command 0
  if op = SCSI_DA_READ_6 ∨ op = SCSI_DA_WRITE_6 ∨ op = SCSI_DA_SEEK_6 then xlateBlocks scsicmd
  else if op = SCSI_MODE_SELECT_6 then xlateSelect mem scsicmd
  else if op = SCSI_MODE_SENSE_6 then xlateSense mem scsicmd
  else ⟨scsicmd, scsicmd, false, false⟩

/-- Commands of twelve bytes, without what is done about the autosense of UFI devices. -/
def packet (csType : CSType) (x : Xlated) : Xlated :=
  if !csType.packets then x
  else
    let c := x.scsicmd10.command
    let command : ℕ → UInt8 := fun i =>
      if csType = .ufi then
        if c 0 = SCSI_REQUEST_SENSE ∧ i = 4 then 18
        else if c 0 = SCSI_INQUIRY ∧ i = 4 then 36
        else if c 0 = SCSI_MODE_SELECT_10 ∧ i = 7 then 0
        else if c 0 = SCSI_MODE_SELECT_10 ∧ i = 8 then 8
        else c i
      else c i
    { x with scsicmd10 := { x.scsicmd10 with command, cmdLength := 12 } }

/-- What a device answers to a command: the result, and the bytes that it sends, of which no more are taken than there
is room for. -/
structure Answer where
  res : ℤ
  bytes : List UInt8

def transfer (answer : Answer) (scsicmd : SCSICmd) : SCSICmd :=
  let actual := min answer.bytes.length scsicmd.length.toNat
  { scsicmd with
    data := fun i => if i < actual then answer.bytes.getD i 0 else scsicmd.data i
    actual := UInt32.ofNat actual }

def xlateBack (x : Xlated) (scsicmd10 : SCSICmd) : SCSICmd :=
  let sensedata := scsicmd10.data
  let scsicmd := { x.scsicmd with data := if x.moved then x.scsicmd.data else scsicmd10.data }
  if x.sensedata then
    if scsicmd10.command 0 = SCSI_MODE_SENSE_10 ∧ 8 ≤ scsicmd10.actual then
      { scsicmd with
        actual := scsicmd10.actual - 4
        data := fun i =>
          if i = 0 then sensedata 1
          else if i = 1 then sensedata 2
          else if i = 2 then sensedata 3
          else if i = 3 then sensedata 7
          else if i < scsicmd10.actual.toNat - 4 then sensedata (i + 4)
          else scsicmd.data i }
    else { scsicmd with actual := 0 }
  else { scsicmd with actual := scsicmd10.actual }

def nScsiDirectInner (ncm : NepClassMS) (mem : Bool) (answer : Answer) (scsicmd : SCSICmd) :
    Option (SCSICmd × SCSICmd) :=
  let scsicmd := { scsicmd with actual := 0 }
  if ncm.accepts (scsicmd.command 0) then
    let x := packet ncm.csType
      (if ncm.translates scsicmd.cmdLength then xlate mem scsicmd else ⟨scsicmd, scsicmd, false, false⟩)
    some (x.scsicmd10, xlateBack x (transfer answer x.scsicmd10))
  else none

inductive Kind
  | read
  | write
  | seek
  | modeSelect
  | modeSense
  deriving DecidableEq, Repr

def Kind.op6 : Kind → UInt8
  | .read => SCSI_DA_READ_6
  | .write => SCSI_DA_WRITE_6
  | .seek => SCSI_DA_SEEK_6
  | .modeSelect => SCSI_MODE_SELECT_6
  | .modeSense => SCSI_MODE_SENSE_6

def Kind.op10 : Kind → UInt8
  | .read => 0x28
  | .write => 0x2a
  | .seek => 0x2b
  | .modeSelect => SCSI_MODE_SELECT_10
  | .modeSense => SCSI_MODE_SENSE_10

structure Cdb6 where
  kind : Kind
  b1 : UInt8
  b2 : UInt8
  b3 : UInt8
  b4 : UInt8
  b5 : UInt8
  deriving DecidableEq, Repr

def Cdb6.bytes (c : Cdb6) : ℕ → UInt8
  | 0 => c.kind.op6 | 1 => c.b1 | 2 => c.b2 | 3 => c.b3 | 4 => c.b4 | 5 => c.b5
  | _ => 0

def Cdb6.request (c : Cdb6) (length : UInt32) (data : ℕ → UInt8) : SCSICmd := ⟨c.bytes, 6, data, length, 0⟩

def Cdb6.block (c : Cdb6) : ℕ := c.b1.toNat % 2 ^ 5 * 2 ^ 16 + c.b2.toNat * 2 ^ 8 + c.b3.toNat

def Cdb6.blocks (c : Cdb6) : ℕ := if c.b4 = 0 then 256 else c.b4.toNat

def block10 (c : ℕ → UInt8) : ℕ := (c 2).toNat * 2 ^ 24 + (c 3).toNat * 2 ^ 16 + (c 4).toNat * 2 ^ 8 + (c 5).toNat

/-- The blocks, the parameter list length or the allocation length. -/
def length10 (c : ℕ → UInt8) : ℕ := (c 7).toNat * 2 ^ 8 + (c 8).toNat

/-- The parameter list of `MODE SELECT` with the header of the ten-byte command. -/
def relist (data : ℕ → UInt8) : ℕ → UInt8
  | 0 => 0 | 1 => data 0 | 2 => data 1 | 3 => data 2 | 4 => 0 | 5 => 0 | 6 => 0 | 7 => data 3
  | i => data (i - 4)

/-- An answer to `MODE SENSE` as it has to be with the header of the six-byte command. -/
structure Reheaded (bytes : ℕ → UInt8) (n : ℕ) (scsicmd : SCSICmd) : Prop where
  actual : scsicmd.actual.toNat + 4 = n
  /-- One less than what is available of the answer, which is four less than for the device's. -/
  dataLength : (scsicmd.data 0).toNat + 1 + 4 = (bytes 0).toNat * 2 ^ 8 + (bytes 1).toNat + 2
  mediumType : scsicmd.data 1 = bytes 2
  deviceSpecific : scsicmd.data 2 = bytes 3
  descriptors : (scsicmd.data 3).toNat = (bytes 6).toNat * 2 ^ 8 + (bytes 7).toNat
  pages : ∀ i, 4 ≤ i → i + 4 < n → scsicmd.data i = bytes (i + 4)

/-- `sent` stands for the command, and `scsicmd` is what is handed back for it. -/
def Preserves (ncm : NepClassMS) (c : Cdb6) (length : UInt32) (data : ℕ → UInt8) (answer : Answer)
    (sent scsicmd : SCSICmd) : Prop :=
  sent.command 0 = c.kind.op10 ∧
  match c.kind with
  | .read | .write =>
    block10 sent.command = c.block ∧ length10 sent.command = c.blocks ∧
      sent.length.toNat = length10 sent.command * ncm.blockSize
  | .seek => block10 sent.command = c.block ∧ sent.length = 0
  | .modeSelect =>
    sent.length.toNat = length10 sent.command ∧ sent.length.toNat = length.toNat + 4 ∧
      ∀ i < sent.length.toNat, sent.data i = relist data i
  | .modeSense =>
    sent.command 2 = c.b2 ∧ sent.command 3 = c.b3 ∧ sent.length.toNat = length10 sent.command ∧
      (answer.res = 0 → 8 ≤ min answer.bytes.length sent.length.toNat →
        Reheaded (fun i => answer.bytes.getD i 0) (min answer.bytes.length sent.length.toNat) scsicmd) ∧
      ∀ i ≥ scsicmd.length.toNat, scsicmd.data i = data i

def Preserved (ncm : NepClassMS) (mem : Bool) (c : Cdb6) (length : UInt32) (data : ℕ → UInt8) (answer : Answer) :
    Prop :=
  ∀ sent scsicmd, nScsiDirectInner ncm mem answer (c.request length data) = some (sent, scsicmd) →
    Preserves ncm c length data answer sent scsicmd

def Translatable (ncm : NepClassMS) (mem : Bool) (c : Cdb6) (length : UInt32) (answer : Answer) : Prop :=
  match c.kind with
  | .read | .write => c.b4 ≠ 0 ∧ length.toNat = c.b4.toNat * ncm.blockSize
  | .seek => length = 0
  | .modeSelect => mem = true ∧ 4 ≤ length.toNat ∧ length.toNat = if ncm.csType = .ufi then 4 else c.b4.toNat
  | .modeSense =>
    (length.toNat = if mem then c.b4.toNat else c.b4.toNat + 4) ∧
      ¬(answer.res = 0 ∧ 8 ≤ answer.bytes.length ∧ 4 ≤ c.b4.toNat)

end Neptune.ModeXlate
