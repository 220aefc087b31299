import Mathlib

/-! MIDI 1.0 byte streams: what they say, with the status byte of each message written out. A stream without its
realtime bytes is data bytes and then segments, each a status byte and the data bytes after it. -/

namespace Midi

def isData (b : UInt8) : Bool := b < 0x80

def isRealtime (b : UInt8) : Bool := 0xf8 ≤ b

def params (status : UInt8) : Option ℕ :=
  if status < 0x80 then none
  else if status < 0xc0 then some 2
  else if status < 0xe0 then some 1
  else if status < 0xf0 then some 2
  else if status = 0xf1 ∨ status = 0xf3 then some 1
  else if status = 0xf2 then some 2
  else if status = 0xf6 ∨ 0xf8 ≤ status then some 0
  else none

def codeIndex (status : UInt8) : UInt8 :=
  if status < 0xf0 then status >>> 4
  else if 0xf8 ≤ status then 0xf
  else if status = 0xf2 then 3
  else if status = 0xf6 then 5
  else 2

def segments : List UInt8 → List UInt8 × List (UInt8 × List UInt8)
  | [] => ([], [])
  | b :: bs => if isData b then (b :: (segments bs).1, (segments bs).2) else ([], (b, (segments bs).1) :: (segments bs).2)

def running (status : UInt8) : List UInt8 → List UInt8
  | [] => []
  | [d] => if params status = some 1 then [status, d] else []
  | d :: e :: ds =>
    if params status = some 1 then status :: d :: running status (e :: ds) else status :: d :: e :: running status ds

/-- What a segment says. A system common message has no running status. -/
def said (status : UInt8) (ds : List UInt8) : List UInt8 :=
  if status < 0xf0 then running status ds
  else if status = 0xf0 then status :: ds
  else
    match params status with
    | some n => if n ≤ ds.length then status :: ds.take n else []
    | none => []

def saidAll (sysex : Bool) : List (UInt8 × List UInt8) → List UInt8
  | [] => []
  | (status, ds) :: segs =>
    (if status = 0xf7 ∧ sysex then [0xf7] else said status ds) ++ saidAll (status = 0xf0) segs

def expand (bs : List UInt8) : List UInt8 := saidAll false (segments bs).2

def inSysEx (bs : List UInt8) : Bool :=
  (bs.filter fun b => !isData b && !isRealtime b).getLast? = some 0xf0

end Midi
