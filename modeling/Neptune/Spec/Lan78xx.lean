import Neptune.Spec.CdcEncap

/-! The frames in a transfer of a LAN78xx, each behind its `rx_cmd`. `ULONG`s wrap. -/

namespace Neptune.Lan78xx

open CdcEth

def rxCmdLen : ℕ := 10

def rxCmdALenMask : ℕ := 0x3fff

def rxCmdARed : ℕ := 0x00400000

def etherCrcLen : ℕ := 4

/-- The 2 bytes of padding that a LAN7500 counts are not of the frame. -/
def frameLen (lan7500 : Bool) (rxCmdA : ℕ) : Option ℕ :=
  let len := rxCmdA &&& rxCmdALenMask
  if lan7500 then
    if len ≥ 2 then some (len - 2) else none
  else some len

/-- The loop from `offset` on, in so many rounds at most. -/
def rxLoop (lan7500 : Bool) (buf : List UInt8) (totalLen : ℕ) : ℕ → ℕ → Option Rx
  | 0, _ => none
  | fuel + 1, offset =>
    if ulong (offset + rxCmdLen) ≤ totalLen then
      let rxCmdA := long buf offset
      match frameLen lan7500 rxCmdA with
      | none => some .none
      | some len =>
        if len = 0 ∨ ulong (offset + rxCmdLen + len) > totalLen then some .bad
        else
          let rx := if rxCmdA &&& rxCmdARed ≠ 0 then .bad else deliver buf (offset + rxCmdLen) (len - etherCrcLen)
          let next := cdcethAlign (ulong (offset + rxCmdLen + len)) 4
          if next ≤ offset then some rx
          else (rxLoop lan7500 buf totalLen fuel next).map rx.append
    else some .none

def handleRxBuffer (lan7500 : Bool) (buf : List UInt8) (totalLen : ℕ) : Option Rx :=
  rxLoop lan7500 buf totalLen (totalLen + 1) 0

end Neptune.Lan78xx
