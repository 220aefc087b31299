import Neptune.Lib.Bytes
import Neptune.Spec.UvcDesc

/-! Negotiating a mode. The camera and its H.264 unit answer as they like. An access outside a descriptor
or an array, or a division by 0, ends in `none`. -/

namespace Neptune.UvcCtrl

open Uvc

inductive UsbError
  | stall
  | other
  deriving DecidableEq, Repr

inductive UvError
  | badLength
  | busy
  | badMode
  | refused
  | noBandwidth
  | usb
  deriving DecidableEq, Repr

def refusal : UsbError → UvError
  | .stall => .refused
  | .other => .usb

def le (bs : List UInt8) (i k : ℕ) : ℕ := Bytes.ofBE ((bs.drop i).take k).reverse

def leBytes (k n : ℕ) : List UInt8 := (Bytes.toBE k n).reverse

def patch (bs : List UInt8) (i : ℕ) (field : List UInt8) : List UInt8 :=
  bs.take i ++ field ++ bs.drop (i + field.length)

/-- The camera's reply in `size` bytes of a buffer. One shorter than asked for is zeroed behind. -/
def receive (buf : List UInt8) (size : ℕ) (answer : List UInt8) : List UInt8 :=
  answer.take size ++ List.replicate (size - answer.length) 0 ++ buf.drop size

/-- The first of `n` places from `i` on that fits. -/
def findFrom {α : Type} (p : α → Option Bool) (xs : List α) (i : ℕ) : ℕ → Option (Option ℕ)
  | 0 => some none
  | n + 1 => do
    let x ← xs[i]?
    if ← p x then some (some i) else findFrom p xs (i + 1) n

def uvcIsStreamable (ufo : UvcFormat) : Bool := ufo.payload.isSome && ufo.numFrames != 0

def uvcFourCC (ufo : UvcFormat) : Option ℕ := do
  let up ← ufo.payload
  if up.guid = 0 then some up.fourCC else do
    let a ← ufo.desc.byte up.guid
    let b ← ufo.desc.byte (up.guid + 1)
    let c ← ufo.desc.byte (up.guid + 2)
    let d ← ufo.desc.byte (up.guid + 3)
    some (((a * 256 + b) * 256 + c) * 256 + d)

def uvcPictureSize (ufo : UvcFormat) (ufr : UvcFrame) : Option ℕ := do
  let up ← ufo.payload
  if up.has UPF_FIXEDSIZE then
    let bitsPerPixel ← ufo.desc.byte 21
    some (ulong (ulong (ufr.width * ufr.height) * bitsPerPixel) / 8)
  else some 0

def payloadRow (ufo : UvcFormat) : ℕ := (ufo.payload.map uvcPayloads.idxOf).getD 0

def bestFormatFrom (formats : List UvcFormat) (best : Option (ℕ × ℕ)) (i : ℕ) : ℕ → Option (Option ℕ)
  | 0 => some (best.map (·.1))
  | n + 1 => do
    let ufo ← formats[i]?
    if uvcIsStreamable ufo && best.all (payloadRow ufo < ·.2) then
      bestFormatFrom formats (some (i, payloadRow ufo)) (i + 1) n
    else bestFormatFrom formats best (i + 1) n

def uvcFindFormat (uf : UvcFunction) (us : UvcStreamDesc) (fourcc : ℕ) : Option (Option ℕ) :=
  if fourcc ≠ 0 then
    findFrom (fun ufo => if uvcIsStreamable ufo then (uvcFourCC ufo).map (· == fourcc) else some false)
      uf.formats us.formats us.numFormats
  else bestFormatFrom uf.formats none us.formats us.numFormats

def uvcFindFrame (uf : UvcFunction) (ufo : UvcFormat) (width height : ℕ) : Option (Option ℕ) := do
  let sized := width ≠ 0 ∨ height ≠ 0
  match ← findFrom (fun ufr : UvcFrame => some (if sized then ufr.width == width && ufr.height == height
      else ufr.index == ufo.defFrame)) uf.frames ufo.frames ufo.numFrames with
  | some k => some (some k)
  | none => some (if sized ∨ ufo.numFrames = 0 then none else some ufo.frames)

/-- The one with the fewest pixels, of `n` frames from `i` on and the smallest before. -/
def smallestFrameFrom (frames : List UvcFrame) (smallest i : ℕ) : ℕ → Option ℕ
  | 0 => some smallest
  | n + 1 => do
    let ufr ← frames[i]?
    let least ← frames[smallest]?
    smallestFrameFrom frames
      (if ulong (ufr.width * ufr.height) < ulong (least.width * least.height) then i else smallest) (i + 1) n

def uvcSmallestFrame (uf : UvcFunction) (ufo : UvcFormat) : Option ℕ :=
  smallestFrameFrom uf.frames ufo.frames (ufo.frames + 1) (ufo.numFrames - 1)

def uvcDefaultFrame (uf : UvcFunction) (ufo : UvcFormat) (width height : ℕ) : Option (Option ℕ) := do
  let users ← (if width ≠ 0 ∨ height ≠ 0 then uvcFindFrame uf ufo width height else some none)
  match users with
  | some k => some (some k)
  | none => uvcFindFrame uf ufo 0 0

def uvcFormatByIndex (uf : UvcFunction) (us : UvcStreamDesc) (index : ℕ) : Option (Option ℕ) :=
  findFrom (fun ufo : UvcFormat => some (ufo.index == index)) uf.formats us.formats us.numFormats

def uvcFrameByIndex (uf : UvcFunction) (ufo : UvcFormat) (index : ℕ) : Option (Option ℕ) :=
  findFrom (fun ufr : UvcFrame => some (ufr.index == index)) uf.frames ufo.frames ufo.numFrames

def distance (m n : ℕ) : ℕ := if n < m then m - n else n - m

/-- The nearest of the intervals, of `n` from the `cnt`th on and the best before. -/
def nearestFrom (ufr : UvcFrame) (interval best cnt : ℕ) : ℕ → Option ℕ
  | 0 => some best
  | n + 1 => do
    let cand ← uvcFrameInterval ufr cnt
    nearestFrom ufr interval (if distance cand interval < distance best interval then cand else best) (cnt + 1) n

def uvcSnapInterval (ufr : UvcFrame) (interval : ℕ) : Option ℕ :=
  if interval = 0 then some ufr.defInterval
  else if ufr.numIntervals = 0 then do
    let shortest ← uvcFrameMinInterval ufr
    let longest ← uvcFrameMaxInterval ufr
    let step ← uvcFrameInterval ufr 2
    if interval ≤ shortest then some shortest
    else if longest ≤ interval then some longest
    else some (ulong (shortest + ulong (ulong (interval - shortest + step / 2) / step * step)))
  else do
    let best ← uvcFrameInterval ufr 0
    nearestFrom ufr interval best 1 (ufr.numIntervals - 1)

def uvcDefaultInterval (ufr : UvcFrame) (width height interval : ℕ) : Option ℕ :=
  uvcSnapInterval ufr (if ufr.width = width ∧ ufr.height = height then interval else 0)

inductive TransferType
  | isochronous
  | bulk
  | other
  deriving DecidableEq, Repr

structure PsdEndpoint where
  transferType : TransferType
  maxPktSize : ℕ
  numTransMuFrame : ℕ
  bytesPerInterval : ℕ
  deriving DecidableEq, Repr

def uvcCapacity (superspeed : Bool) (pep : PsdEndpoint) : ℕ :=
  ulong (if superspeed then pep.bytesPerInterval else pep.maxPktSize * pep.numTransMuFrame)

/-- `bestcap`, `bestif`: of the alternate settings before. -/
def findAlternateFrom (superspeed : Bool) (payloadsize bestcap : ℕ) (bestif : Option ℕ) (i : ℕ) :
    List (Option PsdEndpoint) → Option ℕ
  | [] => bestif
  | none :: alts => findAlternateFrom superspeed payloadsize bestcap bestif (i + 1) alts
  | some pep :: alts =>
    if pep.transferType = .bulk then some i
    else
      let capacity := uvcCapacity superspeed pep
      if pep.transferType = .isochronous ∧ payloadsize ≤ capacity ∧ capacity < bestcap then
        findAlternateFrom superspeed payloadsize capacity (some i) (i + 1) alts
      else findAlternateFrom superspeed payloadsize bestcap bestif (i + 1) alts

structure Camera where
  probeSet : List UInt8 → Option UsbError
  probe : Except UsbError (List UInt8)
  /-- What its H.264 unit has, and what the unit makes of a configuration. -/
  unitHas : Except UsbError (List UInt8)
  unitSet : List UInt8 → Option UsbError
  unitTakes : Except UsbError (List UInt8)
  unitProbe : List UInt8 → Option UsbError
  unitCommit : List UInt8 → Option UsbError

structure NepClassVideo where
  function : UvcFunction
  superspeed : Bool
  /-- The video endpoints of the alternate settings of the stream's interface. -/
  alternates : List (Option PsdEndpoint)
  camera : Camera

structure UvcMode where
  format : Option ℕ
  frame : Option ℕ
  interval : ℕ
  maxFrameSize : ℕ
  clockFrequency : ℕ
  payloadSize : ℕ
  probe : List UInt8
  embed : List UInt8
  deriving DecidableEq, Repr

structure UvcDefault where
  width : ℕ
  height : ℕ
  interval : ℕ
  deriving DecidableEq, Repr

structure NepVideoStream where
  desc : UvcStreamDesc
  streaming : Bool
  default : UvcDefault
  mode : UvcMode
  deriving DecidableEq, Repr

def uvcFindAlternate (ncv : NepClassVideo) (payloadsize : ℕ) : Option ℕ :=
  findAlternateFrom ncv.superspeed payloadsize 0xffffffff none 0 ncv.alternates

def UVC_VERSION_15 : ℕ := 0x0150

def probeSize (version : ℕ) : ℕ :=
  if UVC_VERSION_15 ≤ version then 48 else if UVC_VERSION_11 ≤ version then 34 else 26

/-- `bmHint`, the indices, the interval, and behind the fields of UVC 1.1 `bUsage`. -/
def proposal (ufo : UvcFormat) (up : UvcPayload) (ufr : UvcFrame) (interval : ℕ) : List UInt8 :=
  leBytes 2 1 ++ [UInt8.ofNat ufo.index, UInt8.ofNat ufr.index] ++ leBytes 4 interval ++ List.replicate 26 0 ++
    [UInt8.ofNat up.usage] ++ List.replicate 13 0

/-- The format and the frame the block names. A format that is kept stays the entry asked for. -/
def answered (uf : UvcFunction) (us : UvcStreamDesc) (f : ℕ) (probe : List UInt8) : Option (Option (ℕ × ℕ)) := do
  let asked ← uf.formats[f]?
  match ← (if le probe 2 1 ≠ asked.index then uvcFormatByIndex uf us (le probe 2 1) else some (some f)) with
  | none => some none
  | some f =>
    let ufo ← uf.formats[f]?
    if uvcIsStreamable ufo then
      let k ← uvcFrameByIndex uf ufo (le probe 3 1)
      some (k.map fun k => (f, k))
    else some none

def payloadSize (probe : List UInt8) : ℕ :=
  if le probe 22 4 &&& 0xffff0000 = 0xffff0000 then le probe 22 4 &&& 0xffff else le probe 22 4

def frameSize (probe : List UInt8) (ufr : UvcFrame) (picturesize : ℕ) : ℕ :=
  let framesize := if picturesize ≠ 0 then picturesize else le probe 18 4
  if framesize = 0 then ulong (ulong (ufr.width * ufr.height) * 2) else framesize

def clockFrequency (uf : UvcFunction) (probe : List UInt8) : ℕ :=
  let clock := if 34 ≤ probeSize uf.version then le probe 26 4 else 0
  if clock = 0 then uf.clockFrequency else clock

def negotiated (probe : List UInt8) (interval : ℕ) : ℕ := if le probe 4 4 = 0 then interval else le probe 4 4

/-- The unit's mode after the camera's answer to the proposal, and the error. -/
def settle (ncv : NepClassVideo) (ns : NepVideoStream) (f interval : ℕ) (probe : List UInt8) :
    Option (UvcMode × Option UvError) := do
  match ← answered ncv.function ns.desc f probe with
  | none => some (ns.mode, some .refused)
  | some (f, k) =>
    let ufo ← ncv.function.formats[f]?
    let ufr ← ncv.function.frames[k]?
    let picturesize ← uvcPictureSize ufo ufr
    match uvcFindAlternate ncv (payloadSize probe) with
    | none => some (ns.mode, some .noBandwidth)
    | some _ =>
      -- the message divides by it
      if negotiated probe interval = 0 then none
      else
        let mode :=
          { ns.mode with
            probe := probe
            frame := some k
            interval := negotiated probe interval
            maxFrameSize := frameSize probe ufr picturesize
            clockFrequency := clockFrequency ncv.function probe
            payloadSize := payloadSize probe
            format := some f }
        some (mode, none)

def uvcNegotiate (ncv : NepClassVideo) (ns : NepVideoStream) (f k interval : ℕ) :
    Option (UvcMode × Option UvError) := do
  let size := probeSize ncv.function.version
  let ufo ← ncv.function.formats[f]?
  let up ← ufo.payload
  let ufr ← ncv.function.frames[k]?
  let probe := proposal ufo up ufr interval
  match ncv.camera.probeSet (probe.take size) with
  | some ioerr => some (ns.mode, some (refusal ioerr))
  | none =>
    match ncv.camera.probe with
    | .error ioerr => some (ns.mode, some (refusal ioerr))
    | .ok answer => settle ncv ns f interval (receive probe size answer)

def cfgSize : ℕ := 46

def UVCXHF_RESOLUTION : ℕ := 0x0001
def UVCXHF_FRAME_INTERVAL : ℕ := 0x0800
def UVCXHF_BIT_RATE : ℕ := 0x2000
def UVCXHF_IFRAME_PERIOD : ℕ := 0x8000
def UVCXMF_ENABLE : ℕ := 0x01
def UVCXMF_H264 : ℕ := 0x02
def UVCX_IFRAME_PERIOD_MAX : ℕ := 0xffff

def wanted (was : List UInt8) (ufr : UvcFrame) (interval bitrate keyinterval : ℕ) : List UInt8 :=
  let hints := le was 8 2 ||| UVCXHF_RESOLUTION ||| UVCXHF_FRAME_INTERVAL
  let cfg := patch was 12 (leBytes 2 ufr.width)
  let cfg := patch cfg 14 (leBytes 2 ufr.height)
  let cfg := patch cfg 0 (leBytes 4 interval)
  let (cfg, hints) :=
    if bitrate ≠ 0 then (patch cfg 4 (leBytes 4 bitrate), hints ||| UVCXHF_BIT_RATE) else (cfg, hints)
  let (cfg, hints) :=
    if keyinterval ≠ 0 then
      (patch cfg 22 (leBytes 2 (min keyinterval UVCX_IFRAME_PERIOD_MAX)), hints ||| UVCXHF_IFRAME_PERIOD)
    else (cfg, hints)
  let cfg := patch cfg 8 (leBytes 2 hints)
  let cfg := patch cfg 33 [UInt8.ofNat (UVCXMF_ENABLE ||| UVCXMF_H264)]
  patch cfg 34 [0]

def takesSize (cfg : List UInt8) (ufr : UvcFrame) : Bool := le cfg 12 2 == ufr.width && le cfg 14 2 == ufr.height

def unitConfig (camera : Camera) (ufr : UvcFrame) (interval bitrate keyinterval : ℕ) : Except UvError (List UInt8) :=
  match camera.unitHas with
  | .error ioerr => .error (refusal ioerr)
  | .ok has =>
    let was := receive [] cfgSize has
    let cfg := wanted was ufr interval bitrate keyinterval
    match camera.unitSet cfg with
    | some ioerr => .error (refusal ioerr)
    | none =>
      match camera.unitTakes with
      | .error ioerr => .error (refusal ioerr)
      | .ok takes =>
        let cfg := receive cfg cfgSize takes
        if takesSize cfg ufr then .ok cfg else .error .refused

def uvcEmbedCommit (camera : Camera) (cfg : List UInt8) : Option UsbError :=
  match camera.unitProbe cfg with
  | some ioerr => some ioerr
  | none => camera.unitCommit cfg

def uvcNegotiateEmbedded (ncv : NepClassVideo) (ns : NepVideoStream) (f k interval bitrate keyinterval : ℕ) :
    Option (UvcMode × Option UvError) := do
  match ← uvcFindH264Unit ncv.function with
  | none => none
  | some _ =>
    let ufo ← ncv.function.formats[f]?
    let ufr ← ncv.function.frames[k]?
    match unitConfig ncv.camera ufr interval bitrate keyinterval with
    | .error err => some (ns.mode, some err)
    | .ok cfg =>
      match uvcEmbedCommit ncv.camera cfg with
      | some ioerr => some (ns.mode, some (refusal ioerr))
      | none =>
        let carrier ← uvcSmallestFrame ncv.function ufo
        let small ← ncv.function.frames[carrier]?
        let snapped ← uvcSnapInterval small interval
        let (mode, err) ← uvcNegotiate ncv ns f carrier snapped
        -- the mode is the H.264's, not the carrier's
        if err = none then some ({ mode with frame := some k, interval := le cfg 0 4, embed := cfg }, none)
        else some (mode, err)

structure UsbVideoModeReq where
  fourCC : ℕ
  width : ℕ
  height : ℕ
  interval : ℕ
  maxFrameSize : ℕ
  bitRate : ℕ
  keyInterval : ℕ
  deriving DecidableEq, Repr

def isEmbedded (ufo : UvcFormat) : Bool := ufo.payload.any (·.has UPF_EMBEDDED)

/-- What the request asks for: the format, the frame and the interval. -/
def asked (ncv : NepClassVideo) (ns : NepVideoStream) (uvq : UsbVideoModeReq) : Option (Option (ℕ × ℕ × ℕ)) := do
  match ← uvcFindFormat ncv.function ns.desc uvq.fourCC with
  | none => some none
  | some f =>
    let ufo ← ncv.function.formats[f]?
    let found ←
      (if uvq.width ≠ 0 ∨ uvq.height ≠ 0 then uvcFindFrame ncv.function ufo uvq.width uvq.height
      else uvcDefaultFrame ncv.function ufo ns.default.width ns.default.height)
    match found with
    | none => some none
    | some k =>
      let ufr ← ncv.function.frames[k]?
      let interval ←
        (if uvq.interval ≠ 0 then uvcSnapInterval ufr uvq.interval
        else uvcDefaultInterval ufr ns.default.width ns.default.height ns.default.interval)
      some (some (f, k, interval))

def answer (uf : UvcFunction) (mode : UvcMode) (uvq : UsbVideoModeReq) (hasencoder embedded : Bool) :
    Option (UsbVideoModeReq × ℕ) := do
  let ufo ← uf.formats[← mode.format]?
  let ufr ← uf.frames[← mode.frame]?
  let fourCC ← uvcFourCC ufo
  let uvq :=
    { uvq with
      fourCC := fourCC
      width := ufr.width
      height := ufr.height
      interval := mode.interval
      maxFrameSize := mode.maxFrameSize }
  if hasencoder then
    some
      ({ uvq with
          bitRate := if embedded then le mode.embed 4 4 else 0
          keyInterval := if embedded then le mode.embed 22 2 else 0 }, 24)
  else some (uvq, 16)

/-- `data`, `length`: of the request. The mode after it, and the error or the answer and `io_Actual`. -/
def nCmdSetMode (ncv : NepClassVideo) (ns : NepVideoStream) (data : Option UsbVideoModeReq) (length : ℕ) :
    Option (UvcMode × Except UvError (UsbVideoModeReq × ℕ)) :=
  match data with
  | none => some (ns.mode, .error .badLength)
  | some uvq =>
    if length < 16 then some (ns.mode, .error .badLength)
    else if ns.streaming then some (ns.mode, .error .busy)
    else do
      let hasencoder : Bool := 24 ≤ length
      let bitrate := if hasencoder then uvq.bitRate else 0
      let keyinterval := if hasencoder then uvq.keyInterval else 0
      match ← asked ncv ns uvq with
      | none => some (ns.mode, .error .badMode)
      | some (f, k, interval) =>
        let ufo ← ncv.function.formats[f]?
        let (mode, err) ←
          (if isEmbedded ufo then uvcNegotiateEmbedded ncv ns f k interval bitrate keyinterval
          else uvcNegotiate ncv ns f k interval)
        match err with
        | some err => some (mode, .error err)
        | none =>
          let reply ← answer ncv.function mode uvq hasencoder (isEmbedded ufo)
          some (mode, .ok reply)

def commitBlock (version : ℕ) (mode : UvcMode) : List UInt8 := mode.probe.take (probeSize version)

end Neptune.UvcCtrl
