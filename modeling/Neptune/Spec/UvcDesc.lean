import Neptune.Lib.Word

/-! The description of a video function, from its class-specific descriptors. An access outside a
descriptor or an array ends in `none`. A pointer into an array is an index. -/

namespace Neptune.Uvc

/-! The payload-format table. -/

inductive Framing
  | frame
  | stream
  | temporal
  deriving DecidableEq, Repr

structure UvcPayload where
  formatType : ℕ
  frameType : ℕ
  framing : Framing
  flags : ℕ
  formatSize : ℕ
  defFrame : ℕ
  frameSize : ℕ
  width : ℕ
  height : ℕ
  defInterval : ℕ
  intervalType : ℕ
  intervals : ℕ
  guid : ℕ
  usage : ℕ
  infoBytes : ℕ
  fourCC : ℕ
  deriving DecidableEq, Repr

def UPF_FIXEDSIZE : ℕ := 1
def UPF_JPEGSTART : ℕ := 2
def UPF_EMBEDDED : ℕ := 4

def UvcPayload.has (up : UvcPayload) (flag : ℕ) : Bool := up.flags &&& flag != 0

def UVFCC_MJPG : ℕ := 0x4D4A5047
def UVFCC_H264 : ℕ := 0x48323634
def UVFCC_VP80 : ℕ := 0x56503830

def rowMjpeg : UvcPayload where
  formatType := 0x06
  frameType := 0x07
  framing := .frame
  flags := UPF_JPEGSTART
  formatSize := 11
  defFrame := 6
  frameSize := 26
  width := 5
  height := 7
  defInterval := 21
  intervalType := 25
  intervals := 26
  guid := 0
  usage := 0
  infoBytes := 1
  fourCC := UVFCC_MJPG

def rowUncompressed : UvcPayload where
  formatType := 0x04
  frameType := 0x05
  framing := .frame
  flags := UPF_FIXEDSIZE
  formatSize := 27
  defFrame := 22
  frameSize := 26
  width := 5
  height := 7
  defInterval := 21
  intervalType := 25
  intervals := 26
  guid := 5
  usage := 0
  infoBytes := 1
  fourCC := 0

def rowFrameBased : UvcPayload where
  formatType := 0x10
  frameType := 0x11
  framing := .frame
  flags := 0
  formatSize := 28
  defFrame := 22
  frameSize := 26
  width := 5
  height := 7
  defInterval := 17
  intervalType := 21
  intervals := 26
  guid := 5
  usage := 0
  infoBytes := 1
  fourCC := 0

def rowH264 : UvcPayload where
  formatType := 0x13
  frameType := 0x14
  framing := .temporal
  flags := 0
  formatSize := 52
  defFrame := 5
  frameSize := 44
  width := 4
  height := 6
  defInterval := 39
  intervalType := 43
  intervals := 44
  guid := 0
  usage := 17
  infoBytes := 1
  fourCC := UVFCC_H264

def rowVp8 : UvcPayload where
  formatType := 0x16
  frameType := 0x17
  framing := .temporal
  flags := 0
  formatSize := 13
  defFrame := 5
  frameSize := 31
  width := 4
  height := 6
  defInterval := 26
  intervalType := 30
  intervals := 31
  guid := 0
  usage := 17
  infoBytes := 3
  fourCC := UVFCC_VP80

def rowEmbedded : UvcPayload where
  formatType := 0
  frameType := 0
  framing := .frame
  flags := UPF_JPEGSTART ||| UPF_EMBEDDED
  formatSize := 0
  defFrame := 0
  frameSize := 0
  width := 0
  height := 0
  defInterval := 0
  intervalType := 0
  intervals := 0
  guid := 0
  usage := 0
  infoBytes := 1
  fourCC := UVFCC_H264

def uvcPayloads : List UvcPayload :=
  [rowMjpeg, rowUncompressed, rowFrameBased, rowH264, rowVp8, rowEmbedded]

def uvcFourCCGuid : List ℕ := [0x00, 0x00, 0x10, 0x00, 0x80, 0x00, 0x00, 0xaa, 0x00, 0x38, 0x9b, 0x71]

def uvcFormatTypes : List ℕ := [0x04, 0x06, 0x0a, 0x0c, 0x10, 0x12, 0x13, 0x15, 0x16, 0x18]

structure Desc where
  addr : ℕ
  bytes : List UInt8
  deriving DecidableEq, Repr

namespace Desc

def null : Desc := ⟨0, []⟩

variable (d : Desc)

def len : ℕ := d.bytes.length

def byte (i : ℕ) : Option ℕ := d.bytes[i]?.map UInt8.toNat

def word (i : ℕ) : Option ℕ := do
  let low ← d.byte i
  let high ← d.byte (i + 1)
  some (low + 256 * high)

def long (i : ℕ) : Option ℕ := do
  let low ← d.word i
  let high ← d.word (i + 2)
  some (low + 65536 * high)

/-- The bytes from `i` on are these. -/
def spells (i : ℕ) : List ℕ → Option Bool
  | [] => some true
  | b :: bs => do
    let byte ← d.byte i
    if byte = b then spells (i + 1) bs else some false

end Desc

structure Ptr where
  desc : Desc
  off : ℕ
  deriving DecidableEq, Repr

structure UvcFrame where
  index : ℕ
  numIntervals : ℕ
  width : ℕ
  height : ℕ
  defInterval : ℕ
  intervals : Ptr
  deriving DecidableEq, Repr

structure UvcFormat where
  index : ℕ
  type : ℕ
  numFrames : ℕ
  defFrame : ℕ
  payload : Option UvcPayload
  frames : ℕ
  desc : Desc
  deriving DecidableEq, Repr

structure UvcStreamDesc where
  ifNum : ℕ
  headerType : ℕ
  epAddr : ℕ
  info : ℕ
  terminalLink : ℕ
  stillMethod : ℕ
  numFormats : ℕ
  formats : ℕ
  deriving DecidableEq, Repr

structure UvcEntity where
  id : ℕ
  type : ℕ
  termType : ℕ
  numSources : ℕ
  controlSize : ℕ
  sources : Option Ptr
  controls : Option Ptr
  desc : Desc
  deriving DecidableEq, Repr

structure UvcFunction where
  version : ℕ
  clockFrequency : ℕ
  numEntities : ℕ
  numStreams : ℕ
  numFormats : ℕ
  numFrames : ℕ
  skipped : ℕ
  entities : List UvcEntity
  streams : List UvcStreamDesc
  formats : List UvcFormat
  frames : List UvcFrame
  deriving DecidableEq, Repr

def UvcFrame.zero : UvcFrame := ⟨0, 0, 0, 0, 0, ⟨.null, 0⟩⟩
def UvcFormat.zero : UvcFormat := ⟨0, 0, 0, 0, none, 0, .null⟩
def UvcStreamDesc.zero : UvcStreamDesc := ⟨0, 0, 0, 0, 0, 0, 0, 0⟩
def UvcEntity.zero : UvcEntity := ⟨0, 0, 0, 0, 0, none, none, .null⟩

def ubyte (n : ℕ) : ℕ := n % 2 ^ 8

def put {α : Type} (xs : List α) (i : ℕ) (x : α) : Option (List α) :=
  if i < xs.length then some (xs.set i x) else none

/-- `sizeof` of the four records and of the model's head. -/
structure Sizes where
  function : ℕ
  entity : ℕ
  stream : ℕ
  format : ℕ
  frame : ℕ

def Sizes.total (z : Sizes) (ctrldescs streams streamdescs : ℕ) : ℕ :=
  z.function + ctrldescs * z.entity + streams * z.stream + streamdescs * (z.format + z.frame)

def uvcFunctionSize (z : Sizes) (ctrldescs streams streamdescs : ℕ) : ℕ :=
  ulong (z.total ctrldescs streams streamdescs)

def UVC_VERSION_10 : ℕ := 0x0100
def UVC_VERSION_11 : ℕ := 0x0110

/-- An empty model in `size` bytes of memory. -/
def uvcInitFunction (z : Sizes) (size ctrldescs streams streamdescs : ℕ) : Option UvcFunction :=
  if z.total ctrldescs streams streamdescs ≤ size then
    some
      { version := UVC_VERSION_10
        clockFrequency := 0
        numEntities := 0
        numStreams := 0
        numFormats := 0
        numFrames := 0
        skipped := 0
        entities := List.replicate ctrldescs .zero
        streams := List.replicate streams .zero
        formats := List.replicate streamdescs .zero
        frames := List.replicate streamdescs .zero }
  else
    none

def UDST_VIDEO_CTRL_HEADER : ℕ := 0x01
def UDST_VIDEO_CTRL_EXTENSION_UNIT : ℕ := 0x06
def UVITT_CAMERA : ℕ := 0x0201

/-- What a descriptor of the interface is to the model. -/
inductive CtrlDesc
  | header (version clockFrequency : ℕ)
  | entity (ue : UvcEntity)
  | invalid
  | unknown
  deriving Repr

namespace Desc

variable (d : Desc)

def ptr (off : ℕ) : Option Ptr := some ⟨d, off⟩

def ctrlHeader : Option CtrlDesc :=
  if d.len < 12 then some .invalid else do
    let bcdUVC ← d.word 3
    let clock ← d.long 7
    some (.header bcdUVC clock)

/-- A terminal type without a high byte could not be told from a unit. -/
def terminal (ue : UvcEntity) : CtrlDesc :=
  if ue.termType &&& 0xff00 ≠ 0 then .entity ue else .invalid

def inputTerminal : Option CtrlDesc :=
  if d.len < 8 then some .invalid else do
    let id ← d.byte 3
    let termType ← d.word 4
    let ue : UvcEntity := ⟨id, 0x02, termType, 0, 0, none, none, d⟩
    if termType = UVITT_CAMERA ∧ 15 ≤ d.len then
      let controlSize ← d.byte 14
      if 15 + controlSize ≤ d.len then
        some (terminal { ue with controlSize := controlSize, controls := d.ptr 15 })
      else some (terminal ue)
    else some (terminal ue)

def outputTerminal : Option CtrlDesc :=
  if d.len < 9 then some .invalid else do
    let id ← d.byte 3
    let termType ← d.word 4
    some (terminal ⟨id, 0x03, termType, 1, 0, d.ptr 7, none, d⟩)

def selectorUnit : Option CtrlDesc :=
  if d.len < 6 then some .invalid else do
    let pins ← d.byte 4
    if d.len < 6 + pins then some .invalid else
    let id ← d.byte 3
    some (.entity ⟨id, 0x04, 0, pins, 0, d.ptr 5, none, d⟩)

/-- Behind the bitmap: the string index and, from 1.1 on, the video standards. -/
def processingUnit (version : ℕ) : Option CtrlDesc :=
  if d.len < 9 then some .invalid else do
    let controlSize ← d.byte 7
    if d.len < 8 + 1 + (if UVC_VERSION_11 ≤ version then 1 else 0) + controlSize then some .invalid else
    let id ← d.byte 3
    some (.entity ⟨id, 0x05, 0, 1, controlSize, d.ptr 4, d.ptr 8, d⟩)

def extensionUnit : Option CtrlDesc :=
  if d.len < 24 then some .invalid else do
    let pins ← d.byte 21
    if d.len < 24 + pins then some .invalid else
    let ctrlsize ← d.byte (22 + pins)
    if d.len < 24 + pins + ctrlsize then some .invalid else
    let id ← d.byte 3
    some (.entity ⟨id, UDST_VIDEO_CTRL_EXTENSION_UNIT, 0, pins, ctrlsize, d.ptr 22, d.ptr (22 + pins + 1), d⟩)

def encodingUnit : Option CtrlDesc :=
  if d.len < 13 then some .invalid else do
    let controlSize ← d.byte 6
    if d.len < 7 + 2 * controlSize then some .invalid else
    let id ← d.byte 3
    some (.entity ⟨id, 0x07, 0, 1, controlSize, d.ptr 4, d.ptr 7, d⟩)

/-- The cases of `uvcAddControlDesc`. -/
def ctrlDesc (version : ℕ) : Option CtrlDesc :=
  if d.len < 3 then some .invalid else do
    match ← d.byte 2 with
    | 0x01 => d.ctrlHeader
    | 0x02 => d.inputTerminal
    | 0x03 => d.outputTerminal
    | 0x04 => d.selectorUnit
    | 0x05 => d.processingUnit version
    | 0x06 => d.extensionUnit
    | 0x07 => d.encodingUnit
    | _ => some .unknown

end Desc

namespace UvcFunction

variable (uf : UvcFunction)

def skip : UvcFunction := { uf with skipped := uword (uf.skipped + 1) }

end UvcFunction

def uvcAddControlDesc (uf : UvcFunction) (d : Desc) : Option UvcFunction := do
  match ← d.ctrlDesc uf.version with
  | .header version clockFrequency => some { uf with version := version, clockFrequency := clockFrequency }
  | .entity ue =>
    let entities ← put uf.entities uf.numEntities ue
    some { uf with entities := entities, numEntities := uword (uf.numEntities + 1) }
  | .invalid => some uf.skip
  | .unknown => some uf

def uvcAddStream (uf : UvcFunction) (ifnum : ℕ) : Option (UvcFunction × ℕ) := do
  let streams ← put uf.streams uf.numStreams { UvcStreamDesc.zero with ifNum := ubyte ifnum, formats := uf.numFormats }
  some ({ uf with streams := streams, numStreams := uword (uf.numStreams + 1) }, uf.numStreams)

/-- `none` within: shorter than what it has to hold. -/
def uvcAddStreamHeader (us : UvcStreamDesc) (subtype : ℕ) (d : Desc) : Option (Option UvcStreamDesc) :=
  if subtype = 0x01 then
    if d.len < 13 then some none else do
      let epAddr ← d.byte 6
      let info ← d.byte 7
      let terminalLink ← d.byte 8
      let stillMethod ← d.byte 9
      some (some { us with
        epAddr := epAddr, info := info, terminalLink := terminalLink, stillMethod := stillMethod,
        headerType := subtype })
  else
    if d.len < 8 then some none else do
      let epAddr ← d.byte 6
      let terminalLink ← d.byte 7
      some (some { us with epAddr := epAddr, terminalLink := terminalLink, headerType := subtype })

def uvcIsFourCCGuid (d : Desc) (off : ℕ) : Option Bool := d.spells (off + 4) uvcFourCCGuid

def uvcFindPayloadIn (formattype : ℕ) (d : Desc) : List UvcPayload → Option (Option UvcPayload)
  | [] => some none
  | up :: rows =>
    if up.formatType = formattype ∧ up.formatSize ≤ d.len then do
      if up.guid = 0 then some (some up)
      else if ← uvcIsFourCCGuid d up.guid then some (some up)
      else uvcFindPayloadIn formattype d rows
    else uvcFindPayloadIn formattype d rows

def uvcFindPayload (formattype : ℕ) (d : Desc) : Option (Option UvcPayload) :=
  uvcFindPayloadIn formattype d uvcPayloads

/-- The record of a format, whose frames begin at `frames`. -/
def uvcFormatOf (subtype : ℕ) (d : Desc) (frames : ℕ) : Option UvcFormat := do
  let index ← if 3 < d.len then d.byte 3 else some 0
  let payload ← uvcFindPayload subtype d
  let defFrame ← match payload with
    | some up => d.byte up.defFrame
    | none => some 0
  some ⟨index, subtype, 0, defFrame, payload, frames, d⟩

def uvcAddFormat (uf : UvcFunction) (us : ℕ) (subtype : ℕ) (d : Desc) : Option UvcFunction := do
  let ufo ← uvcFormatOf subtype d uf.numFrames
  let formats ← put uf.formats uf.numFormats ufo
  let stream ← uf.streams[us]?
  let streams ← put uf.streams us { stream with numFormats := ubyte (stream.numFormats + 1) }
  some { uf with formats := formats, numFormats := uword (uf.numFormats + 1), streams := streams }

def uvcFrameInterval (ufr : UvcFrame) (idx : ℕ) : Option ℕ := do
  let interval ← ufr.intervals.desc.long (ufr.intervals.off + 4 * idx)
  some (if interval = 0 then 1 else interval)

def uvcFrameMinInterval (ufr : UvcFrame) : Option ℕ := uvcFrameInterval ufr 0

def uvcFrameMaxInterval (ufr : UvcFrame) : Option ℕ :=
  uvcFrameInterval ufr (if ufr.numIntervals ≠ 0 then ufr.numIntervals - 1 else 1)

/-- The record of a frame in a descriptor of the row's frame type. `none` within: shorter than what it
says it holds. -/
def uvcFrameOf (up : UvcPayload) (d : Desc) : Option (Option UvcFrame) :=
  if d.len < up.frameSize then some none else do
    let numintervals ← d.byte up.intervalType
    if d.len < up.intervals + 4 * (if numintervals ≠ 0 then numintervals else 3) then some none else
    let index ← d.byte 3
    let width ← d.word up.width
    let height ← d.word up.height
    let ufr : UvcFrame := ⟨index, numintervals, width, height, 0, ⟨d, up.intervals⟩⟩
    -- cameras state defaults they do not support
    let interval ← d.long up.defInterval
    let shortest ← uvcFrameMinInterval ufr
    let longest ← uvcFrameMaxInterval ufr
    some (some { ufr with defInterval := min (max interval shortest) longest })

/-- The frame's row, if the descriptor is one of the frames of the format opened last. -/
def UvcFormat.takes (ufo : UvcFormat) (subtype : ℕ) : Option UvcPayload :=
  match ufo.payload with
  | some up => if up.frameType ≠ 0 ∧ subtype = up.frameType then some up else none
  | none => none

/-- `false`: a frame, but shorter than what it says it holds. -/
def uvcAddFrame (uf : UvcFunction) (us : ℕ) (subtype : ℕ) (d : Desc) : Option (UvcFunction × Bool) := do
  let stream ← uf.streams[us]?
  if stream.numFormats = 0 then some (uf, true) else
  let ufo ← uf.formats[stream.formats + (stream.numFormats - 1)]?
  match ufo.takes subtype with
  | none => some (uf, true)
  | some up =>
    match ← uvcFrameOf up d with
    | none => some (uf, false)
    | some ufr =>
      let frames ← put uf.frames uf.numFrames ufr
      let formats ← put uf.formats (stream.formats + (stream.numFormats - 1))
        { ufo with numFrames := ubyte (ufo.numFrames + 1) }
      some ({ uf with frames := frames, numFrames := uword (uf.numFrames + 1), formats := formats }, true)

def uvcAddStreamDesc (uf : UvcFunction) (us : ℕ) (d : Desc) : Option UvcFunction :=
  if d.len < 3 then some uf.skip else do
    let subtype ← d.byte 2
    if subtype = 0x01 ∨ subtype = 0x02 then
      let stream ← uf.streams[us]?
      match ← uvcAddStreamHeader stream subtype d with
      | none => some uf.skip
      | some stream =>
        let streams ← put uf.streams us stream
        some { uf with streams := streams }
    else if subtype ∈ uvcFormatTypes then uvcAddFormat uf us subtype d
    else
      let (uf, valid) ← uvcAddFrame uf us subtype d
      some (if valid then uf else uf.skip)

def uvcxH264XuGuid : List ℕ :=
  [0x41, 0x76, 0x9e, 0xa2, 0x04, 0xde, 0xe3, 0x47, 0x8b, 0x2b, 0xf4, 0x34, 0x1a, 0xff, 0x00, 0x3b]

/-- Of `n` entities from `i` on. -/
def uvcFindH264UnitFrom (entities : List UvcEntity) (i : ℕ) : ℕ → Option (Option UvcEntity)
  | 0 => some none
  | n + 1 => do
    let ue ← entities[i]?
    if ue.type ≠ UDST_VIDEO_CTRL_EXTENSION_UNIT then uvcFindH264UnitFrom entities (i + 1) n
    else if ← ue.desc.spells 4 uvcxH264XuGuid then some (some ue)
    else uvcFindH264UnitFrom entities (i + 1) n

def uvcFindH264Unit (uf : UvcFunction) : Option (Option UvcEntity) :=
  uvcFindH264UnitFrom uf.entities 0 uf.numEntities

def UvcFormat.carries (ufo : UvcFormat) : Bool := ufo.payload = some rowMjpeg && ufo.numFrames ≠ 0

/-- Of `n` formats from `i` on. -/
def uvcFindCarrierFrom (formats : List UvcFormat) (i : ℕ) : ℕ → Option (Option UvcFormat)
  | 0 => some none
  | n + 1 => do
    let ufo ← formats[i]?
    if ufo.carries then some (some ufo) else uvcFindCarrierFrom formats (i + 1) n

def uvcAddEmbeddedFormat (uf : UvcFunction) (us : ℕ) : Option UvcFunction := do
  match ← uvcFindH264Unit uf with
  | none => some uf
  | some _ =>
    let stream ← uf.streams[us]?
    match ← uvcFindCarrierFrom uf.formats stream.formats stream.numFormats with
    | none => some uf
    | some ufo =>
      let formats ← put uf.formats uf.numFormats { ufo with payload := some rowEmbedded }
      let streams ← put uf.streams us { stream with numFormats := ubyte (stream.numFormats + 1) }
      some { uf with formats := formats, numFormats := uword (uf.numFormats + 1), streams := streams }

def isCtrlHeader (d : Desc) : Bool := d.byte 2 = some UDST_VIDEO_CTRL_HEADER

def nBuildStream (uf : UvcFunction) (ifnum : ℕ) (descs : List Desc) : Option UvcFunction := do
  let (uf, us) ← uvcAddStream uf ifnum
  let uf ← descs.foldlM (uvcAddStreamDesc · us) uf
  uvcAddEmbeddedFormat uf us

def nCollection (header : Desc) : Option (List ℕ) := do
  let inCollection ← header.byte 11
  (List.range (min inCollection (header.len - 12))).mapM fun cnt => header.byte (12 + cnt)

def nStreams (find : ℕ → Option (List Desc)) (ifnums : List ℕ) : List (ℕ × List Desc) :=
  ifnums.filterMap fun ifnum => (find ifnum).map fun descs => (ifnum, descs)

def nStreamDescs (streams : List (ℕ × List Desc)) : ℕ := (streams.map fun stream => stream.2.length).sum

/-- `ctrl`: the descriptors of the VideoControl interface. `find`: those of a VideoStreaming interface.
`none` within: there is no model. -/
def nBuildFunction (z : Sizes) (alloc : Bool) (ctrl : List Desc) (find : ℕ → Option (List Desc)) :
    Option (Option UvcFunction) := do
  match ctrl.find? isCtrlHeader with
  | none => some none
  | some header =>
    if header.len < 12 then some none else
    let ifnums ← nCollection header
    let streams := nStreams find ifnums
    if !alloc then some none else
    let size := uvcFunctionSize z ctrl.length ifnums.length (nStreamDescs streams)
    let uf ← uvcInitFunction z size ctrl.length ifnums.length (nStreamDescs streams)
    let uf ← ctrl.foldlM uvcAddControlDesc uf
    let uf ← streams.foldlM (fun uf stream => nBuildStream uf stream.1 stream.2) uf
    some (some uf)

end Neptune.Uvc
