import Neptune.Lib.Run
import Neptune.Spec.UvcDesc

/-! The payload engine: payload transfers to frames. `replies` is what has gone back to the clients; a
reply keeps the flags `uvcDeliver` was given also where the request is too short for them. -/

namespace Neptune.Uvc

/-! `UVPHF_`. -/

def UVPHF_FID : UInt8 := 0x01
def UVPHF_EOF : UInt8 := 0x02
def UVPHF_PTS : UInt8 := 0x04
def UVPHF_SCR : UInt8 := 0x08
def UVPHF_ERR : UInt8 := 0x40

def UVPH_SCR_FRAME_MASK : ℕ := 0x07ff

def IVRF_DAMAGED : ℕ := 1
def IVRF_PTS : ℕ := 2
def IVRF_SCR : ℕ := 4

inductive IoError
  | none
  | aborted
  | overflow
  deriving DecidableEq, Repr

/-- A `CMD_READ`; `io_Length` is the length of its data. -/
structure IoStdReq where
  id : ℕ
  data : List UInt8
  /-- As long as `struct IOVideoReq`. -/
  video : Bool
  deriving DecidableEq, Repr

structure IoVideoReq where
  sequence : ℕ
  flags : ℕ
  pts : ℕ
  busFrame : ℕ
  scrFrame : ℕ
  scrClock : ℕ
  deriving DecidableEq, Repr

structure Reply where
  id : ℕ
  data : List UInt8
  actual : ℕ
  error : IoError
  flags : ℕ
  video : Option IoVideoReq
  deriving DecidableEq, Repr

/-- What of the mode in force, and of the opener, the engine looks at. -/
structure Mode where
  payload : UvcPayload
  maxFrameSize : ℕ
  openDamaged : Bool

structure UvcReads where
  queue : List IoStdReq
  cur : Option IoStdReq
  abortCur : Bool
  deriving DecidableEq, Repr

structure UvcAssembly where
  opened : Bool
  damaged : Bool
  overflow : Bool
  hasPts : Bool
  hasScr : Bool
  fid : UInt8
  payInfo : UInt8
  busFrame : ℕ
  fill : ℕ
  pts : ℕ
  scrClock : ℕ
  scrFrame : ℕ
  deriving DecidableEq, Repr

structure UsbVideoStats where
  frames : ℕ
  delivered : ℕ
  skipped : ℕ
  damaged : ℕ
  overflowed : ℕ
  lostIntervals : ℕ
  badPayloads : ℕ
  cameraErrors : ℕ
  deriving DecidableEq, Repr

structure NepVideoStream where
  reads : UvcReads
  asm : UvcAssembly
  stats : UsbVideoStats
  replies : List Reply
  deriving DecidableEq, Repr

def byteAt (buf : List UInt8) (i : ℕ) : ℕ := (buf.getD i 0).toNat

def wordLE (buf : List UInt8) (i : ℕ) : ℕ := byteAt buf i + 256 * byteAt buf (i + 1)

def longLE (buf : List UInt8) (i : ℕ) : ℕ := wordLE buf i + 65536 * wordLE buf (i + 2)

def wordBE (buf : List UInt8) (i : ℕ) : ℕ := 256 * byteAt buf i + byteAt buf (i + 1)

def longBE (buf : List UInt8) (i : ℕ) : ℕ := 65536 * wordBE buf i + wordBE buf (i + 2)

/-- `CopyMem` and `memmove` to `i`. -/
def copyTo (buf : List UInt8) (i : ℕ) (bs : List UInt8) : List UInt8 :=
  buf.take i ++ bs ++ buf.drop (i + bs.length)

def JPEG_MARKER : ℕ := 0xff
def JPEG_SOI : ℕ := 0xd8
def JPEG_SOS : ℕ := 0xda
def UVCX_MUX_MARKER : ℕ := 0xe4

def uvcJpegSegment (buf : List UInt8) (len pos : ℕ) : ℕ :=
  if len < pos + 4 ∨ byteAt buf pos ≠ JPEG_MARKER ∨ byteAt buf (pos + 1) = JPEG_SOS then 0
  else
    let seglen := wordBE buf (pos + 2)
    if 2 ≤ seglen ∧ pos + 2 + seglen ≤ len then seglen else 0

/-- How many bytes the header and the size take, the stream's kind and its size. -/
def uvcEmbeddedHeader (data : List UInt8) : ℕ × ℕ × ℕ :=
  let hdrlen := if 22 ≤ data.length then wordLE data 2 else 0
  if hdrlen < 22 ∨ data.length < hdrlen + 4 then (0, 0, 0)
  else (hdrlen + 4, longBE data 4, longLE data hdrlen)

/-- The state of `uvcExtractEmbedded`'s loop. -/
structure Extract where
  buf : List UInt8
  out : ℕ
  left : ℕ
  wanted : Bool

/-- One application segment, at `pos`. -/
def Extract.segment (e : Extract) (fourcc pos seglen : ℕ) : Extract :=
  let data := (e.buf.drop (pos + 4)).take (seglen - 2)
  let (skip, wanted, left) :=
    if e.left ≠ 0 then (0, e.wanted, e.left - min e.left 4)
    else
      let (skip, kind, size) := uvcEmbeddedHeader data
      (skip, kind == fourcc, size)
  let piece := (data.drop skip).take left
  { buf := if wanted then copyTo e.buf e.out piece else e.buf
    out := if wanted then e.out + piece.length else e.out
    left := left - piece.length
    wanted := wanted }

theorem uvcJpegSegment_inside {buf : List UInt8} {len pos : ℕ} (h : uvcJpegSegment buf len pos ≠ 0) :
    pos + 2 + uvcJpegSegment buf len pos ≤ len := by
  unfold uvcJpegSegment at h ⊢
  grind

def uvcExtractEmbeddedFrom (fourcc len : ℕ) (e : Extract) (pos : ℕ) : Extract :=
  if h : uvcJpegSegment e.buf len pos = 0 then e
  else
    uvcExtractEmbeddedFrom fourcc len
      (if byteAt e.buf (pos + 1) = UVCX_MUX_MARKER then e.segment fourcc pos (uvcJpegSegment e.buf len pos) else e)
      (pos + 2 + uvcJpegSegment e.buf len pos)
termination_by len - pos
decreasing_by
  have hinside := uvcJpegSegment_inside h
  omega

def uvcExtractEmbedded (buf : List UInt8) (len fourcc : ℕ) : List UInt8 × ℕ :=
  let e := uvcExtractEmbeddedFrom fourcc len ⟨buf, 0, 0, false⟩ 2
  (e.buf, e.out)

namespace NepVideoStream

variable (ns : NepVideoStream)

def setAsm (f : UvcAssembly → UvcAssembly) : NepVideoStream := { ns with asm := f ns.asm }

def count (f : UsbVideoStats → UsbVideoStats) : NepVideoStream := { ns with stats := f ns.stats }

def reply (r : Reply) : NepVideoStream := { ns with replies := ns.replies ++ [r] }

end NepVideoStream

def UvcAssembly.videoReq (asm : UvcAssembly) (sequence flags : ℕ) : IoVideoReq where
  sequence := sequence
  flags := flags ||| (if asm.hasPts then IVRF_PTS else 0) ||| (if asm.hasScr then IVRF_SCR else 0)
  pts := asm.pts
  busFrame := asm.busFrame
  scrFrame := asm.scrFrame
  scrClock := asm.scrClock

/-- `ioreq` is the read being filled. -/
def uvcDeliver (ns : NepVideoStream) (ioreq : IoStdReq) (error : IoError) (flags : ℕ) : NepVideoStream :=
  { ns with reads := { ns.reads with cur := none, abortCur := false } }.reply
    { id := ioreq.id
      data := ioreq.data
      actual := ns.asm.fill
      error := error
      flags := flags
      video := if ioreq.video then some (ns.asm.videoReq ns.stats.frames flags) else none }

def isJpeg (data : List UInt8) : Bool := 2 ≤ data.length && byteAt data 0 = JPEG_MARKER && byteAt data 1 = JPEG_SOI

/-- A frame joined halfway: it does not begin as a picture does, or is not as long as one. -/
def Mode.joinedHalfway (mode : Mode) (data : List UInt8) : Bool :=
  mode.payload.has UPF_JPEGSTART && !isJpeg data ||
    mode.payload.has UPF_FIXEDSIZE && data.length != mode.maxFrameSize

variable (mode : Mode)

/-- What `uvcCloseFrame` does with a frame that is not damaged. -/
def uvcCloseWhole (ns : NepVideoStream) (ioreq : IoStdReq) : NepVideoStream :=
  if mode.payload.has UPF_EMBEDDED then
    let (data, out) := uvcExtractEmbedded ioreq.data ns.asm.fill UVFCC_H264
    let ioreq := { ioreq with data := data }
    let ns := { ns with reads := { ns.reads with cur := some ioreq } }.setAsm ({ · with fill := out })
    if out = 0 then ns.count fun c => { c with frames := ulongSub c.frames 1 }
    else uvcDeliver (ns.count fun c => { c with delivered := ulong (c.delivered + 1) }) ioreq .none 0
  else uvcDeliver (ns.count fun c => { c with delivered := ulong (c.delivered + 1) }) ioreq .none 0

/-- And with one that is: the read stays, unless the opener asked for it. -/
def uvcCloseDamaged (ns : NepVideoStream) (ioreq : IoStdReq) : NepVideoStream :=
  let ns := ns.count fun c => { c with damaged := ulong (c.damaged + 1) }
  if mode.openDamaged then uvcDeliver ns ioreq .none IVRF_DAMAGED else ns

def uvcCloseFrame (ns : NepVideoStream) : NepVideoStream :=
  if !ns.asm.opened then ns
  else
    let ns := ns.setAsm ({ · with opened := false })
    match ns.reads.cur with
    | none => ns.count fun c => { c with skipped := ulong (c.skipped + 1) }
    | some ioreq =>
      if ns.asm.overflow then
        uvcDeliver (ns.count fun c => { c with overflowed := ulong (c.overflowed + 1) }) ioreq .overflow 0
      else
        let ns := ns.setAsm fun asm =>
          { asm with damaged := asm.damaged || mode.joinedHalfway (ioreq.data.take asm.fill) }
        if !ns.asm.damaged then uvcCloseWhole mode ns ioreq else uvcCloseDamaged mode ns ioreq

def giveBack (ns : NepVideoStream) : NepVideoStream :=
  if ns.reads.abortCur then
    match ns.reads.cur with
    | some ioreq => uvcDeliver (ns.setAsm ({ · with fill := 0 })) ioreq .aborted 0
    | none => { ns with reads := { ns.reads with abortCur := false } }
  else ns

def UvcAssembly.stamp (asm : UvcAssembly) (infoBytes : ℕ) (hdr : List UInt8) (hdrlen busframe : ℕ) : UvcAssembly :=
  let pos := 1 + infoBytes
  let hasPts := asm.payInfo &&& UVPHF_PTS != 0 && decide (pos + 4 ≤ hdrlen)
  let pos' := pos + (if asm.payInfo &&& UVPHF_PTS != 0 then 4 else 0)
  let hasScr := asm.payInfo &&& UVPHF_SCR != 0 && decide (pos' + 6 ≤ hdrlen)
  { asm with
    busFrame := busframe
    hasPts := hasPts
    pts := if hasPts then longLE hdr pos else 0
    hasScr := hasScr
    scrClock := if hasScr then longLE hdr pos' else 0
    scrFrame := if hasScr then wordLE hdr (pos' + 4) &&& UVPH_SCR_FRAME_MASK else 0 }

def headerLength (hdr : List UInt8) : ℕ :=
  let hdrlen := if 2 ≤ hdr.length then byteAt hdr 0 else 0
  if hdrlen < 2 ∨ hdr.length < hdrlen then 0 else hdrlen

/-- The rest of `uvcPayloadBegin` where the header is valid. -/
def uvcPayloadHeader (ns : NepVideoStream) (hdr : List UInt8) (wireerror : Bool) (busframe : ℕ) : NepVideoStream :=
  let info := hdr.getD 1 0
  let ns :=
    if info &&& UVPHF_ERR != 0 then ns.count fun c => { c with cameraErrors := ulong (c.cameraErrors + 1) } else ns
  let ns := ns.setAsm ({ · with payInfo := info ||| (if wireerror then UVPHF_ERR else 0) })
  let ns := if ns.asm.opened && ns.asm.payInfo &&& UVPHF_FID != ns.asm.fid then uvcCloseFrame mode ns else ns
  if !ns.asm.opened then ns.setAsm (·.stamp mode.payload.infoBytes hdr (headerLength hdr) busframe) else ns

def uvcPayloadBegin (ns : NepVideoStream) (hdr : List UInt8) (wireerror : Bool) (busframe : ℕ) :
    NepVideoStream × ℕ :=
  let ns := giveBack ns
  let ns := if wireerror then ns.count fun c => { c with lostIntervals := ulong (c.lostIntervals + 1) } else ns
  if headerLength hdr = 0 then
    let ns := if wireerror then ns else ns.count fun c => { c with badPayloads := ulong (c.badPayloads + 1) }
    (ns.setAsm ({ · with damaged := true }), 0)
  else (uvcPayloadHeader mode ns hdr wireerror busframe, headerLength hdr)

/-- The first data while no frame is open opens one, and takes a read for it. -/
def uvcOpenFrame (ns : NepVideoStream) : NepVideoStream :=
  let ns :=
    (ns.setAsm fun asm =>
      { asm with
        opened := true, fid := asm.payInfo &&& UVPHF_FID, fill := 0, damaged := false, overflow := false }).count
      fun c => { c with frames := ulong (c.frames + 1) }
  match ns.reads.cur with
  | some _ => ns
  | none => { ns with reads := { ns.reads with cur := ns.reads.queue.head?, queue := ns.reads.queue.tail } }

def uvcStore (ns : NepVideoStream) (data : List UInt8) : NepVideoStream :=
  match ns.reads.cur with
  | none => ns
  | some ioreq =>
    let room := ioreq.data.length - ns.asm.fill
    let bs := data.take room
    { ns with
      reads := { ns.reads with cur := some { ioreq with data := copyTo ioreq.data ns.asm.fill bs } }
      asm := { ns.asm with
        overflow := ns.asm.overflow || decide (room < data.length)
        fill := ns.asm.fill + bs.length } }

def uvcPayloadData (ns : NepVideoStream) (data : List UInt8) : NepVideoStream :=
  if data.length = 0 then ns else uvcStore (if !ns.asm.opened then uvcOpenFrame ns else ns) data

def uvcPayloadEnd (ns : NepVideoStream) : NepVideoStream :=
  let ns := if ns.asm.payInfo &&& UVPHF_ERR != 0 then ns.setAsm ({ · with damaged := true }) else ns
  if ns.asm.payInfo &&& UVPHF_EOF != 0 then uvcCloseFrame mode ns else ns

def cmdRead (ns : NepVideoStream) (ioreq : IoStdReq) : NepVideoStream :=
  { ns with reads := { ns.reads with queue := ns.reads.queue ++ [ioreq] } }

def IoStdReq.aborted (ioreq : IoStdReq) : Reply := ⟨ioreq.id, ioreq.data, 0, .aborted, 0, none⟩

def devAbortIO (ns : NepVideoStream) (id : ℕ) : NepVideoStream :=
  if ns.reads.cur.any (·.id = id) then { ns with reads := { ns.reads with abortCur := true } }
  else
    match ns.reads.queue.find? (·.id = id) with
    | some ioreq =>
      { ns with reads := { ns.reads with queue := ns.reads.queue.eraseP (·.id = id) } }.reply ioreq.aborted
    | none => ns

/-- `uvcAbortReads`, of `CMD_FLUSH`. -/
def uvcAbortReads (ns : NepVideoStream) : NepVideoStream :=
  { ns with
    reads := { ns.reads with queue := [], abortCur := ns.reads.abortCur || ns.reads.cur.isSome }
    replies := ns.replies ++ ns.reads.queue.map IoStdReq.aborted }

structure Payload where
  info : UInt8
  fields : List UInt8
  data : List UInt8
  fits : fields.length ≤ 253

namespace Payload

variable (p : Payload)

def headerLength : ℕ := 2 + p.fields.length

def bytes : List UInt8 := UInt8.ofNat p.headerLength :: p.info :: p.fields ++ p.data

def fid : UInt8 := p.info &&& UVPHF_FID

def eof : Bool := p.info &&& UVPHF_EOF != 0

end Payload

/-- And what the bus makes of it: where it fails, some first bytes come, or none. -/
structure Transfer extends Payload where
  failed : Option ℕ

namespace Transfer

variable (x : Transfer)

def brought : List UInt8 :=
  match x.failed with
  | none => x.bytes
  | some n => x.bytes.take n

def wireerror : Bool := x.failed.isSome

def clean : Bool := !x.wireerror && x.info &&& UVPHF_ERR == 0

def received : List UInt8 := x.brought.drop x.headerLength

end Transfer

structure Frame where
  fid : UInt8
  /-- The engine had a frame with this identifier open when the camera began it. -/
  held : Bool
  transfers : List Transfer

namespace Frame

variable (f : Frame)

def data : List UInt8 := f.transfers.flatMap (·.data)

def clean : Bool := f.transfers.all (·.clean)

def lead : List Transfer := f.transfers.takeWhile fun x => x.received = []

def rest : List Transfer := f.transfers.dropWhile fun x => x.received = []

/-- What is lost or flagged before the first data is not forgotten, or does not count: the frame has
more of it later, brings no data, is joined to an older one, or is known as joined halfway. -/
def Heard : Prop :=
  f.lead.all (·.clean) ∨ f.rest.any (!·.clean) ∨ f.rest = [] ∨ f.held ∨
    mode.joinedHalfway (f.rest.flatMap (·.received))

end Frame

structure Camera where
  past : List Frame
  frame : Option Frame
  ended : Bool

def Camera.frames (cam : Camera) : List Frame := cam.past ++ if cam.ended then cam.frame.toList else []

inductive Hook
  | idle
  | data (x : Transfer)
  | close (x : Transfer)

structure State where
  ns : NepVideoStream
  cam : Camera
  hook : Hook

inductive Event
  /-- The next payload transfer, of the next frame or of the same. -/
  | next (begins : Bool) (x : Transfer) (busframe : ℕ)
  | go
  | read (ioreq : IoStdReq)
  | abort (id : ℕ)
  | flush

namespace Camera

variable (cam : Camera)

/-- The identifier toggles with each frame; an EOF is the last of one. -/
def mayBegin (x : Transfer) : Bool := cam.frame.all fun f => x.fid != f.fid

def mayGoOn (x : Transfer) : Bool := !cam.ended && cam.frame.any fun f => x.fid == f.fid

def begin (f : Frame) : Camera := ⟨cam.past ++ cam.frame.toList, some f, false⟩

def sent (x : Transfer) : Camera :=
  { cam with frame := cam.frame.map fun f => { f with transfers := f.transfers ++ [x] }, ended := x.eof }

end Camera

/-- `uvcInDoneHook` up to the payload's data. -/
def startHook (s : State) (cam : Camera) (x : Transfer) (busframe : ℕ) : State :=
  let (ns, hdrlen) := uvcPayloadBegin mode s.ns x.brought x.wireerror busframe
  if hdrlen = 0 then ⟨ns, cam.sent x, .idle⟩ else ⟨ns, cam, .data x⟩

def step (s : State) : Event → Option State
  | .next begins x busframe =>
    match s.hook with
    | .idle =>
      if begins then
        if s.cam.mayBegin x then
          some (startHook mode s (s.cam.begin ⟨x.fid, s.ns.asm.opened && s.ns.asm.fid == x.fid, []⟩) x busframe)
        else none
      else if s.cam.mayGoOn x then some (startHook mode s s.cam x busframe) else none
    | _ => none
  | .go =>
    match s.hook with
    | .idle => none
    | .data x => some ⟨uvcPayloadData s.ns (x.brought.drop (headerLength x.brought)), s.cam, .close x⟩
    | .close x => some ⟨uvcPayloadEnd mode s.ns, s.cam.sent x, .idle⟩
  | .read ioreq => some { s with ns := cmdRead s.ns ioreq }
  | .abort id => some { s with ns := devAbortIO s.ns id }
  | .flush => some { s with ns := uvcAbortReads s.ns }

def UvcAssembly.init : UvcAssembly := ⟨false, false, false, false, false, 0, 0, 0, 0, 0, 0, 0⟩

def NepVideoStream.init (queue : List IoStdReq) : NepVideoStream :=
  ⟨⟨queue, none, false⟩, .init, ⟨0, 0, 0, 0, 0, 0, 0, 0⟩, []⟩

def init (queue : List IoStdReq) : State := ⟨.init queue, ⟨[], none, false⟩, .idle⟩

end Neptune.Uvc
