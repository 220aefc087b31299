import Neptune.Lib.Bytes
import Neptune.Lib.Word

/-! Ethernet frames in the blocks of the USB encapsulations: a frame into a write buffer, and a block that was
received into the frames that `nReadPacket` is called with. `ULONG`s wrap. -/

namespace Neptune.CdcEth

inductive EncapType
  | ecm
  | eem
  | ncm
  deriving DecidableEq, Repr

structure NepClassEth where
  encapType : EncapType
  writeBufSize : ℕ
  ncmSeq : ℕ
  macAddress : List UInt8

def etherMinLen : ℕ := 60

def etherMaxLen : ℕ := 2048

/-- `sizeof(struct EtherPacketHeader)` -/
def etherHeaderLen : ℕ := 14

def eemHeaderLen : ℕ := 2

def eemAlign : ℕ := 4

def eemDefaultBufsize : ℕ := 4096

def ncmAlign : ℕ := 4

def ncmDefaultNtb : ℕ := 16384

def eemLenMask : ℕ := 0x3fff

def nth16Signature : ℕ := 0x484d434e

def ndp16SignatureNcm0 : ℕ := 0x304d434e

def ndp16SignatureNcm1 : ℕ := 0x314d434e

/-- `sizeof(struct UsbCDCNcmNtb16Header)`, `UsbCDCNcmNdp16`, `UsbCDCNcmDatagramPointer16` -/
def nthLen : ℕ := 12

def ndpHeaderLen : ℕ := 8

def dpeLen : ℕ := 4

/-- The encapsulation and its buffer, by the subclass of the control interface. -/
def cdcethEncapConfigure (encap : EncapType) (mac : List UInt8) : NepClassEth where
  encapType := encap
  writeBufSize :=
    match encap with
    | .ecm => etherMaxLen
    | .eem => eemDefaultBufsize
    | .ncm => ncmDefaultNtb
  ncmSeq := 0
  macAddress := mac

/-- `(val + (align - 1)) & ~(align - 1)` -/
def cdcethAlign (val align : ℕ) : ℕ := ulong (val + (align - 1)) &&& (2 ^ 32 - 1 - (align - 1))

def ndpLen : ℕ := ndpHeaderLen + dpeLen * 2

def ndpOffset : ℕ := cdcethAlign nthLen ncmAlign

/-- The places of payload and total in a block, before there is a look at the buffer. -/
def layout (encap : EncapType) (payloadLen : ℕ) : Option (ℕ × ℕ) :=
  match encap with
  | .eem =>
    if payloadLen > eemLenMask then none
    else some (eemHeaderLen, cdcethAlign (ulong (eemHeaderLen + payloadLen)) eemAlign)
  | .ncm =>
    let offset := cdcethAlign (ulong (ndpOffset + ndpLen)) ncmAlign
    some (offset, cdcethAlign (ulong (offset + payloadLen)) ncmAlign)
  | .ecm => some (0, payloadLen)

/-- `payload_offset` and `total_len` -/
def cdcethPrepareTx (ncp : NepClassEth) (payloadLen bufSize : ℕ) : Option (ℕ × ℕ) := do
  let (offset, total) ← layout ncp.encapType payloadLen
  if 0 < payloadLen ∧ total > bufSize then none else some (offset, total)

open Fields

def cdcethFinalizeTx (ncp : NepClassEth) (buf : List UInt8) (payloadOffset payloadLen totalLen : ℕ) :
    NepClassEth × List UInt8 :=
  match ncp.encapType with
  | .eem =>
    let buf := put buf 0 (bytes 2 (uword (payloadLen &&& eemLenMask)))
    let last := ulong (payloadOffset + payloadLen)
    (ncp, if totalLen > last then put buf last (List.replicate (totalLen - last) 0) else buf)
  | .ncm =>
    let nth := 0
    let ndp := ndpOffset
    let dpe := ndp + ndpHeaderLen
    let buf := put buf 0 (List.replicate payloadOffset 0)
    let buf := put buf nth (bytes 4 nth16Signature)
    let buf := put buf (nth + 4) (bytes 2 (uword nthLen))
    let buf := put buf (nth + 6) (bytes 2 ncp.ncmSeq)
    let buf := put buf (nth + 8) (bytes 2 (uword totalLen))
    let buf := put buf (nth + 10) (bytes 2 (uword ndpOffset))
    let buf := put buf ndp (bytes 4 ndp16SignatureNcm0)
    let buf := put buf (ndp + 4) (bytes 2 (uword ndpLen))
    let buf := put buf (ndp + 6) (bytes 2 0)
    let buf := put buf dpe (bytes 2 (uword payloadOffset))
    let buf := put buf (dpe + 2) (bytes 2 (uword payloadLen))
    let buf := put buf (dpe + 4) (bytes 2 0)
    let buf := put buf (dpe + 6) (bytes 2 0)
    ({ ncp with ncmSeq := uword (ncp.ncmSeq + 1) }, buf)
  | .ecm => (ncp, buf)

/-- What `nReadPacket` is called with, and the counts of `BadData`. -/
structure Rx where
  packets : List (List UInt8 × ℕ)
  badData : ℕ
  deriving DecidableEq, Repr

def Rx.none : Rx := ⟨[], 0⟩

def Rx.bad : Rx := ⟨[], 1⟩

def Rx.append (r r' : Rx) : Rx := ⟨r.packets ++ r'.packets, r.badData + r'.badData⟩

/-- A packet of `len` bytes at a place, if it has a header. -/
def deliver (mem : List UInt8) (place len : ℕ) : Rx :=
  if len ≥ etherHeaderLen then ⟨[(get mem place len, len)], 0⟩ else .bad

def word (mem : List UInt8) (i : ℕ) : ℕ := value (get mem i 2)

def long (mem : List UInt8) (i : ℕ) : ℕ := value (get mem i 4)

/-- The loop from `offset` on, in so many rounds at most. -/
def eemLoop (mem : List UInt8) (pktlen : ℕ) : ℕ → ℕ → Option Rx
  | 0, _ => none
  | fuel + 1, offset =>
    if ulong (offset + 2) ≤ pktlen then
      let header := word mem offset
      let length := header &&& eemLenMask
      let isCommand := header &&& 0x8000 ≠ 0
      let hasCrc := header &&& 0x4000 ≠ 0
      let offset := ulong (offset + 2)
      if length = 0 then eemLoop mem pktlen fuel (cdcethAlign offset eemAlign)
      else if ulong (offset + length) > pktlen then some .bad
      else
        let frameLen := if hasCrc ∧ 4 ≤ length then length - 4 else length
        let rx := if isCommand then .none else deliver mem offset frameLen
        (eemLoop mem pktlen fuel (cdcethAlign (ulong (offset + length)) eemAlign)).map rx.append
    else some .none

def cdcethHandleEemRx (mem : List UInt8) (pktlen : ℕ) : Option Rx := eemLoop mem pktlen (pktlen + 1) 0

def ncmEntries (mem : List UInt8) (blockLen ndpEnd : ℕ) : ℕ → ℕ → Option Rx
  | 0, _ => none
  | fuel + 1, entry =>
    if entry + dpeLen ≤ ndpEnd then
      let dIndex := word mem entry
      let dLen := word mem (entry + 2)
      if dIndex = 0 ∨ dLen = 0 then some .none
      else if dIndex + dLen > blockLen then some .bad
      else (ncmEntries mem blockLen ndpEnd fuel (entry + dpeLen)).map (deliver mem dIndex dLen).append
    else some .none

def ncmLoop (mem : List UInt8) (blockLen : ℕ) : ℕ → ℕ → Option Rx
  | 0, _ => some .none
  | guard + 1, ndp =>
    if ndp = 0 then some .none
    else if ndp + ndpHeaderLen > blockLen then some .bad
    else if long mem ndp ≠ ndp16SignatureNcm0 ∧ long mem ndp ≠ ndp16SignatureNcm1 then some .bad
    else
      let length := word mem (ndp + 4)
      if length < ndpHeaderLen then some .bad
      else if ndp + length > blockLen then some .bad
      else do
        let rx ← ncmEntries mem blockLen (ndp + length) (length + 1) (ndp + ndpHeaderLen)
        let rest ← ncmLoop mem blockLen guard (word mem (ndp + 6))
        return rx.append rest

def cdcethHandleNcmRx (mem : List UInt8) (pktlen : ℕ) : Option Rx :=
  if pktlen < nthLen then some .bad
  else if long mem 0 ≠ nth16Signature then some .bad
  else
    let len := word mem 8
    let blockLen := if len = 0 ∨ len > pktlen then pktlen else len
    ncmLoop mem blockLen 4 (word mem 10)

def cdcethHandleRx (ncp : NepClassEth) (mem : List UInt8) (pktlen : ℕ) : Option Rx :=
  match ncp.encapType with
  | .eem => cdcethHandleEemRx mem pktlen
  | .ncm => cdcethHandleNcmRx mem pktlen
  | .ecm => some ⟨[(get mem 0 pktlen, pktlen)], 0⟩

/-- A payload in a buffer, finished: the unit, the buffer and `total_len`. -/
def block (ncp : NepClassEth) (buf payload : List UInt8) : Option (NepClassEth × List UInt8 × ℕ) := do
  let (offset, total) ← cdcethPrepareTx ncp payload.length ncp.writeBufSize
  let (ncp, buf) := cdcethFinalizeTx ncp (put buf offset payload) offset payload.length total
  return (ncp, buf, total)

structure IOSana2Req where
  raw : Bool
  packetType : ℕ
  dstAddr : List UInt8
  /-- What `bm_CopyFromBuf` gives of `ios2_Data`. -/
  data : List UInt8

def IOSana2Req.frame (ioreq : IOSana2Req) (ncp : NepClassEth) : List UInt8 :=
  if ioreq.raw then ioreq.data
  else ioreq.dstAddr ++ ncp.macAddress ++ Bytes.toBE 2 ioreq.packetType ++ ioreq.data

/-- The frame, filled up to `ETHER_MIN_LEN`. -/
def IOSana2Req.payload (ioreq : IOSana2Req) (ncp : NepClassEth) : List UInt8 :=
  let frame := ioreq.frame ncp
  frame ++ List.replicate (etherMinLen - frame.length) 0

def nWritePacket (ncp : NepClassEth) (buf : List UInt8) (ioreq : IOSana2Req) :
    Option (NepClassEth × List UInt8 × ℕ) := block ncp buf (ioreq.payload ncp)

end Neptune.CdcEth
