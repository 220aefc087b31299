import Neptune.Spec.HidParse

/-! `nReadReports` sets up the reports of a device, and `nHidTask` takes apart what comes in on the
interrupt pipe. -/

namespace Neptune.Hid

open BitField (Buf)

/-! Sizes and maps. -/

/-- A report as the task has it: its ID and the items of `nhr_InItemMap`. -/
structure InReport where
  reportID : ULONG
  inItems : List NepHidItem
  deriving DecidableEq, Repr

inductive WacomMode
  | penPartner
  | graphire
  | graphire4
  | cintiq
  | intuos
  | intuos3
  | pl
  | pl2
  | plx
  deriving DecidableEq, Repr

structure NepClassHid where
  usesReportID : Bool
  maxReportID : ℕ
  maxInSize : ℕ
  reports : List InReport
  /-- `nch_WacomMode` and the items of `nch_WacomColl`. -/
  wacom : Option (WacomMode × List NepHidItem)
  buf : Buf

def usesReportID (reports : List NepHidReport) : Bool := reports.any (·.reportID ≠ 0)

def maxReportID (reports : List NepHidReport) : ℕ :=
  reports.foldl (fun max nhr => if max < nhr.reportID.toNat then nhr.reportID.toNat % 65536 else max) 0

def maxInSize (reports : List NepHidReport) : ℕ :=
  reports.foldl (fun size nhr => max size ((nhr.inSize + 7 : ULONG) >>> 3).toNat) 0 +
    if usesReportID reports then 1 else 0

def nReadReports (reports : List NepHidReport) (wacom : Option (WacomMode × List NepHidItem)) :
    NepClassHid where
  usesReportID := usesReportID reports
  maxReportID := maxReportID reports
  maxInSize := maxInSize reports
  reports := reports.map fun nhr => ⟨nhr.reportID, (nhr.itemMap .input).map (·.nhi)⟩
  wacom := wacom
  buf := fun _ => 0

namespace NepHidItem

variable (nhi : NepHidItem)

def fieldReads (isize ioffset : ℕ) : List ℕ :=
  if isize = 0 then (List.range 65536).map fun i => ((2 ^ 32 + ioffset - 1 - i) % 2 ^ 32) >>> 3
  else (List.range isize).map fun i => (ioffset + i) >>> 3

def elementReads (i : ℕ) : List ℕ :=
  if nhi.byteAligned && nhi.size = 8 then [nhi.byteAt i]
  else if nhi.size = 1 then [(nhi.offset + i) >>> 3]
  else fieldReads nhi.size (nhi.offset + i * nhi.size)

def reads : List ℕ :=
  let bobuf := nhi.offset >>> 3
  if nhi.isVariable then
    if nhi.byteAligned && nhi.size = 8 then [bobuf]
    else if nhi.byteAligned && nhi.size = 16 then [bobuf, bobuf + 1]
    else if nhi.byteAligned && nhi.size = 32 then [bobuf, bobuf + 1, bobuf + 2, bobuf + 3]
    else nhi.elementReads 0
  else (List.range (if nhi.count = 0 then 65536 else nhi.count)).flatMap nhi.elementReads

end NepHidItem

structure WacomReport where
  posX : ULONG
  posY : ULONG
  pressure : BitVec 16
  buttons : UInt8
  inProximity : UInt8
  tiltX : UInt8
  tiltY : UInt8
  wheel : UInt8
  padButtons : UInt8
  deriving DecidableEq, Repr

namespace WacomReport

def init : WacomReport := ⟨0xffffffff, 0xffffffff, 0xffff, 0, 0, 0x80, 0x80, 0, 0⟩

/-- As it lies in memory, with the positions and the pressure little endian. -/
def bytes (wr : WacomReport) : Buf := fun i =>
  match i with
  | 0 => ⟨wr.posX.setWidth 8⟩
  | 1 => ⟨(wr.posX >>> 8).setWidth 8⟩
  | 2 => ⟨(wr.posX >>> 16).setWidth 8⟩
  | 3 => ⟨(wr.posX >>> 24).setWidth 8⟩
  | 4 => ⟨wr.posY.setWidth 8⟩
  | 5 => ⟨(wr.posY >>> 8).setWidth 8⟩
  | 6 => ⟨(wr.posY >>> 16).setWidth 8⟩
  | 7 => ⟨(wr.posY >>> 24).setWidth 8⟩
  | 8 => ⟨wr.pressure.setWidth 8⟩
  | 9 => ⟨(wr.pressure >>> 8).setWidth 8⟩
  | 10 => wr.buttons
  | 11 => wr.inProximity
  | 12 => wr.tiltX
  | 13 => wr.tiltY
  | 14 => wr.wheel
  | 15 => wr.padButtons
  | _ => 0

end WacomReport

def long (b : UInt8) : ULONG := b.toBitVec.setWidth 32

def word (b : UInt8) : BitVec 16 := b.toBitVec.setWidth 16

def parsePenPartner (buf : Buf) (len : ℕ) : Option WacomReport :=
  if buf 0 ≠ 2 ∨ len < 7 then none
  else
    let pressure := (buf 6).toBitVec.signExtend 16 + 127
    let inProximity := if buf 5 &&& 0x20 ≠ 0 then 0x00 else 0xff
    let buttons := if inProximity ≠ 0 ∧ 50 < pressure then 0x01 else 0
    some
      { WacomReport.init with
        posX := long (buf 1) ||| (long (buf 2) <<< 8)
        posY := long (buf 3) ||| (long (buf 4) <<< 8)
        pressure := pressure
        inProximity := inProximity
        buttons := if buf 5 &&& 0x40 ≠ 0 then buttons ||| 0x02 else buttons }

def parseGraphire (four : Bool) (buf : Buf) (len : ℕ) : Option WacomReport :=
  if buf 0 ≠ 2 ∨ len < 8 then none
  else if buf 1 &&& 0x10 = 0 then some { WacomReport.init with inProximity := 0 }
  else
    let wr :=
      { WacomReport.init with
        inProximity := 0xff
        posX := long (buf 2) ||| (long (buf 3) <<< 8)
        posY := long (buf 4) ||| (long (buf 5) <<< 8) }
    if buf 1 &&& 0x40 = 0 then
      some
        { wr with
          buttons := buf 1 &&& 0x07
          pressure := word (buf 6) ||| (word (buf 7 &&& 0x01) <<< 8) }
    else if buf 1 &&& 0x20 ≠ 0 then some { wr with buttons := (buf 1 &&& 0x03 : UInt8) }
    else if four then
      let wheel := buf 7 &&& 0x03
      some
        { wr with
          buttons := buf 1 &&& 0x07
          wheel := if buf 7 &&& 0x04 ≠ 0 then 0 - wheel else wheel }
    else some { wr with buttons := buf 1 &&& 0x07, wheel := buf 6 }

def parseIntuos (intuos : Bool) (buf : Buf) : Option WacomReport :=
  if buf 0 = 12 then
    some { WacomReport.init with padButtons := (buf 5 &&& (0x0f : UInt8)) ||| (buf 6 <<< 4) }
  else if buf 0 ≠ 2 ∧ buf 0 ≠ 5 ∧ buf 0 ≠ 6 then none
  else if buf 1 &&& 0x40 = 0 then some { WacomReport.init with inProximity := 0 }
  else
    let wr :=
      if intuos then
        { WacomReport.init with
          posX := (long (buf 2) <<< 8) ||| long (buf 3)
          posY := (long (buf 4) <<< 8) ||| long (buf 5)
          buttons := if buf 1 &&& 0x10 ≠ 0 then (buf 8 &&& (0x07 : UInt8)) ||| ((buf 8 &&& 0x30) >>> 1) else 0 }
      else
        { WacomReport.init with
          posX := (long (buf 2) <<< 9) ||| (long (buf 3) <<< 1) ||| long ((buf 9 &&& 0x02) >>> 1)
          posY := (long (buf 4) <<< 9) ||| (long (buf 5) <<< 1) ||| long (buf 9 &&& 0x01) }
    let wr := { wr with inProximity := 0xff }
    let wr :=
      if buf 1 &&& 0xa0 = 0xa0 then
        { wr with tiltX := ((buf 7 &&& 0x3f) <<< 1) ||| (buf 8 >>> 7), tiltY := buf 8 &&& 0x7f }
      else wr
    let tmpval := (word (buf 6) <<< 2) ||| word ((buf 7 &&& 0xc0) >>> 6)
    let wr :=
      if buf 1 &&& 0xb8 = 0xa0 then
        { wr with
          pressure := tmpval
          buttons := (buf 1 &&& 0x06) ||| if 16 < tmpval then 1 else 0 }
      else wr
    some (if buf 1 &&& 0xbc = 0xb4 then { wr with wheel := ⟨tmpval.setWidth 8⟩ } else wr)

def parsePL (two : Bool) (buf : Buf) (len : ℕ) : Option WacomReport :=
  if buf 0 ≠ 2 ∨ len < 8 then none
  else if buf 1 &&& 0x40 = 0 then some { WacomReport.init with inProximity := 0 }
  else
    let pressure := ((buf 7 <<< 1) ||| ((buf 4 &&& 0x04) >>> 2)).toBitVec.signExtend 16
    some
      { WacomReport.init with
        inProximity := 0xff
        pressure := if two then (pressure <<< 1) + word ((buf 4 >>> 6) &&& 1) + 256 else pressure + 128
        posX := (long (buf 1 &&& 0x03) <<< 14) ||| (long (buf 2 &&& 0x7f) <<< 7) ||| long (buf 3 &&& 0x7f)
        posY := (long (buf 4 &&& 0x03) <<< 14) ||| (long (buf 5 &&& 0x7f) <<< 7) ||| long (buf 6 &&& 0x7f)
        buttons := (buf 4 &&& 0x38) >>> 3 }

def parsePLX (buf : Buf) (len : ℕ) : Option WacomReport :=
  if buf 0 ≠ 2 ∨ len < 8 then none
  else
    let buttons := if buf 1 &&& 0x02 ≠ 0 then 0x01 else 0
    some
      { WacomReport.init with
        inProximity := 0xff
        posX := long (buf 2) ||| (long (buf 3) <<< 8)
        posY := long (buf 4) ||| (long (buf 5) <<< 8)
        pressure := word (buf 6) ||| (word (buf 7) <<< 8)
        buttons := if buf 1 &&& 0x10 ≠ 0 then buttons ||| 0x02 else buttons }

def nParseWacom (mode : WacomMode) (buf : Buf) (len : ℕ) : Option WacomReport :=
  match mode with
  | .penPartner => parsePenPartner buf len
  | .graphire => parseGraphire false buf len
  | .graphire4 => parseGraphire true buf len
  | .intuos => parseIntuos true buf
  | .intuos3 | .cintiq => parseIntuos false buf
  | .pl => parsePL false buf len
  | .pl2 => parsePL true buf len
  | .plx => parsePLX buf len

def processItems (buf : Buf) : List NepHidItem → List NepHidItem × List HidEvent
  | [] => ([], [])
  | nhi :: items =>
    let (nhi, events) := nhi.nProcessItem buf
    let (items, events') := processItems buf items
    (nhi :: items, events ++ events')

/-- The report of `nch_ReportMap`: the last one with the ID. -/
def processReport (reportid : ULONG) (buf : Buf) : List InReport → Option (List InReport × List HidEvent)
  | [] => none
  | nhr :: reports =>
    match processReport reportid buf reports with
    | some (reports, events) => some (nhr :: reports, events)
    | none =>
      if nhr.reportID = reportid then
        let (items, events) := processItems buf nhr.inItems
        some ({ nhr with inItems := items } :: reports, events)
      else none

/-- What comes in: whether the error is none or a runt, `psdGetPipeActual` and the bytes. -/
structure Completion where
  ok : Bool
  actual : ℕ
  data : Buf

namespace NepClassHid

variable (nch : NepClassHid)

/-- The buffer has the bytes received, and behind them what was there before. -/
def receive (c : Completion) : NepClassHid :=
  { nch with buf := fun i => if i < c.actual then c.data i else nch.buf i }

def hidReport : NepClassHid × List HidEvent :=
  let reportid := if nch.usesReportID then long (nch.buf 0) else 0
  let bufreal := if nch.usesReportID then fun i => nch.buf (i + 1) else nch.buf
  if reportid.toNat ≤ nch.maxReportID then
    match processReport reportid bufreal nch.reports with
    | some (reports, events) => ({ nch with reports := reports }, events)
    | none => (nch, [])
  else (nch, [])

def wacomReport (buflen : ℕ) : Option (NepClassHid × List HidEvent) :=
  match nch.wacom with
  | none => none
  | some (mode, items) =>
    (nParseWacom mode nch.buf buflen).map fun wr =>
      let (items, events) := processItems wr.bytes items
      ({ nch with wacom := some (mode, items) }, events)

def hidCompletion (c : Completion) : NepClassHid × List HidEvent :=
  let nch := nch.receive c
  if !c.ok then (nch, [])
  else
    match nch.wacomReport c.actual with
    | some result => result
    | none => if c.actual > 0 then nch.hidReport else (nch, [])

end NepClassHid

end Neptune.Hid
