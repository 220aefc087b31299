import Mathlib

/-! The MIDI byte streams of CAMD's ports as USB-MIDI event packets: the converter, what one pull of a port
appends to the transfer, and the parser of a transfer. The transfer is the list of its packets. -/

namespace Neptune.CamdMidi

inductive TxState
  | unknown
  | oneParam
  | twoParam1
  | twoParam2
  | sysex0
  | sysex1
  | sysex2
  deriving DecidableEq, Repr

structure UsbMidiTx where
  state : TxState
  status : UInt8
  data0 : UInt8
  data1 : UInt8
  deriving DecidableEq, Repr

structure Packet where
  header : UInt8
  b0 : UInt8
  b1 : UInt8
  b2 : UInt8
  deriving DecidableEq, Repr

def usbmidiHeader (cable cin : UInt8) : UInt8 := (cable <<< 4) ||| cin

def usbmidiCable (hdr : UInt8) : UInt8 := hdr >>> 4

def usbmidiCinOf (hdr : UInt8) : UInt8 := hdr &&& 0x0f

def cinlength (cin : UInt8) : ℕ := [0, 0, 2, 3, 3, 1, 2, 3, 3, 3, 3, 3, 2, 2, 3, 1].getD cin.toNat 0

def Packet.cable (p : Packet) : UInt8 := usbmidiCable p.header

def Packet.cin (p : Packet) : UInt8 := usbmidiCinOf p.header

def Packet.bytes (p : Packet) : List UInt8 := [p.b0, p.b1, p.b2].take (cinlength p.cin)

def nTxPacket (cable cin b0 b1 b2 : UInt8) : Packet := ⟨usbmidiHeader cable cin, b0, b1, b2⟩

namespace UsbMidiTx

variable (tx : UsbMidiTx) (cable : UInt8)

def nTxMessage (len d0 d1 : UInt8) : UsbMidiTx × List Packet :=
  if tx.status < 0xf0 then
    ({ tx with state := if len = 2 then .oneParam else .twoParam1 },
      [nTxPacket cable (tx.status >>> 4) tx.status d0 d1])
  else ({ tx with state := .unknown }, [nTxPacket cable len tx.status d0 d1])

def nTxData (b : UInt8) : UsbMidiTx × List Packet :=
  match tx.state with
  | .oneParam => tx.nTxMessage cable 2 b 0
  | .twoParam1 => ({ tx with data0 := b, state := .twoParam2 }, [])
  | .twoParam2 => tx.nTxMessage cable 3 tx.data0 b
  | .sysex0 => ({ tx with data0 := b, state := .sysex1 }, [])
  | .sysex1 => ({ tx with data1 := b, state := .sysex2 }, [])
  | .sysex2 => ({ tx with state := .sysex0 }, [nTxPacket cable 4 tx.data0 tx.data1 b])
  | .unknown => (tx, [])

def nTxSysExEnd : UsbMidiTx × List Packet :=
  ({ tx with state := .unknown },
    match tx.state with
    | .sysex0 => [nTxPacket cable 5 0xf7 0 0]
    | .sysex1 => [nTxPacket cable 6 tx.data0 0xf7 0]
    | .sysex2 => [nTxPacket cable 7 tx.data0 tx.data1 0xf7]
    | _ => [])

def nTxSysExCut : List Packet :=
  match tx.state with
  | .sysex1 => [nTxPacket cable 5 tx.data0 0 0]
  | .sysex2 => [nTxPacket cable 6 tx.data0 tx.data1 0]
  | _ => []

def nTxSystem (b : UInt8) : UsbMidiTx × List Packet :=
  if b = 0xf0 then ({ tx with data0 := b, state := .sysex1 }, [])
  else if b = 0xf1 ∨ b = 0xf3 then ({ tx with status := b, state := .oneParam }, [])
  else if b = 0xf2 then ({ tx with status := b, state := .twoParam1 }, [])
  else if b = 0xf6 then ({ tx with state := .unknown }, [nTxPacket cable 5 b 0 0])
  else if b = 0xf7 then tx.nTxSysExEnd cable
  else ({ tx with state := .unknown }, [])

def nTxByte (b : UInt8) : UsbMidiTx × List Packet :=
  if 0xf8 ≤ b then (tx, [nTxPacket cable 0xf b 0 0])
  else
    let cut := if b &&& 0x80 ≠ 0 ∧ b ≠ 0xf7 then tx.nTxSysExCut cable else []
    let next :=
      if 0xf0 ≤ b then tx.nTxSystem cable b
      else if b &&& 0x80 ≠ 0 then
        ({ tx with
          status := b
          state := if b &&& 0xf0 = 0xc0 ∨ b &&& 0xf0 = 0xd0 then .oneParam else .twoParam1 }, [])
      else tx.nTxData cable b
    (next.1, cut ++ next.2)

end UsbMidiTx

def UsbMidiTx.nTxBytes (cable : UInt8) : UsbMidiTx → List UInt8 → UsbMidiTx × List Packet
  | tx, [] => (tx, [])
  | tx, b :: bs =>
    let next := tx.nTxByte cable b
    let rest := nTxBytes cable next.1 bs
    (rest.1, next.2 ++ rest.2)

/-- The adapters of a binding's ports, and the packets of its transfers. -/
structure Ports where
  tx : UInt8 → UsbMidiTx
  out : List Packet

def freshTx : UsbMidiTx := ⟨.unknown, 0, 0, 0⟩

def Ports.init : Ports := ⟨fun _ => freshTx, []⟩

/-- The embedded jacks of the OUT endpoint, from its descriptor if there is one: `CAMD_MAX_PORTS` at most. -/
def nCableCount (bNumEmbMIDIJack : Option ℕ) : ℕ :=
  match bNumEmbMIDIJack with
  | some n => if 1 ≤ n ∧ n ≤ 16 then n else 1
  | none => 1

structure Pull where
  portNum : UInt8
  bytes : List UInt8

def nPullPort (outCables : ℕ) (s : Ports) (pull : Pull) : Ports :=
  if pull.portNum.toNat < outCables then
    let next := UsbMidiTx.nTxBytes pull.portNum (s.tx pull.portNum) pull.bytes
    ⟨Function.update s.tx pull.portNum next.1, s.out ++ next.2⟩
  else s

def nParseMidi (cable : UInt8) (packets : List Packet) : List UInt8 :=
  packets.flatMap fun p => if p.cable = cable then p.bytes else []

end Neptune.CamdMidi
