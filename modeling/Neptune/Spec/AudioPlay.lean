import Mathlib

/-! Playback: the hook that hands the endpoint its next interval, and the player interrupt that mixes.
The hook runs inside the host controller's; the soft interrupt it causes runs once it has returned.
A number of 16.16 is a `ℕ`, and a frame is known by its place among all that have been mixed. -/

namespace Neptune.UsbAudio

structure AhiCtrl where
  mixFreq : ℕ
  playerFreq : ℕ
  minPlayerFreq : ℕ
  deriving DecidableEq, Repr

def quot (n d : ℕ) : Option ℕ := if d ≠ 0 then some (n / d) else none

/-- A frequency below `0x10000` is not yet one of 16.16. -/
def fixed (freq : ℕ) : ℕ := if freq < 0x10000 then freq <<< 16 else freq

def playerPeriod (freq : ℕ) : ℕ := (1000 <<< 20) / (freq >>> 12)

def nMaxMixFrames (interval : ℕ) (ctrl : AhiCtrl) : ℕ :=
  let frames := ctrl.mixFreq * interval / 10
  let slowest :=
    if ctrl.minPlayerFreq ≠ 0 ∧ ctrl.minPlayerFreq < ctrl.playerFreq then ctrl.minPlayerFreq else ctrl.playerFreq
  if 0x10000 ≤ slowest then
    let ms := (playerPeriod slowest >>> 16) + 1
    max frames (ctrl.mixFreq * ms / 1000 + 1)
  else frames

structure NepAudioMode where
  interval : ℕ
  frameSize : ℕ
  maxMixFrames : ℕ
  playerFrac : ℕ
  framesPerMS : ℕ
  playerTimer : ℤ
  playerInterval : ℕ
  playerMS : ℕ
  playLen : Bool → ℕ
  playCarry : Bool → ℕ
  fillBuf : Bool
  sendBuf : Bool
  sendLeft : ℤ
  sendCarry : ℕ
  denyRequests : Bool
  buffSamples : ℕ

/-- The milliseconds until the next call of the player, the frames AHI mixes for them, and the part frame
the next pass starts with. -/
def nPlayerTick (nam : NepAudioMode) (carry : ℕ) : NepAudioMode × ℕ × ℕ :=
  let playerInterval := nam.playerInterval % 2 ^ 16 + nam.playerFrac
  let ms := playerInterval / 2 ^ 16
  let part := carry % 2 ^ 16 + nam.framesPerMS % 2 ^ 16 * ms
  let frames := nam.framesPerMS / 2 ^ 16 * ms + part / 2 ^ 16
  ({ nam with playerInterval := playerInterval, playerMS := ms }, min frames nam.maxMixFrames, part % 2 ^ 16)

/-- The buffer, if the host controller is not to go on in the one before, and the bytes. -/
structure IOUsbHWBufferReq where
  buffer : Option Bool
  length : ℕ
  deriving DecidableEq, Repr

def Pair.set {α : Type} (xs : Bool → α) (i : Bool) (x : α) : Bool → α := fun j => if j = i then x else xs j

def playerPass (nam : NepAudioMode) : NepAudioMode :=
  let bufnum := nam.fillBuf
  let (nam, cnt, nextcarry) := nPlayerTick nam (nam.playCarry bufnum)
  { nam with
    playCarry := Pair.set nam.playCarry (!bufnum) nextcarry
    playerTimer := nam.playerTimer + nam.playerMS
    buffSamples := cnt
    playLen := Pair.set nam.playLen bufnum (cnt * nam.frameSize)
    sendLeft := 0 }

def sendInterval (nam : NepAudioMode) : NepAudioMode × IOUsbHWBufferReq :=
  let latch : Bool := nam.sendLeft ≤ 0
  let nam :=
    if latch then
      { nam with sendCarry := nam.playCarry nam.sendBuf, sendLeft := nam.playLen nam.sendBuf }
    else nam
  let sendCarry := nam.sendCarry % 2 ^ 16 + nam.framesPerMS * nam.interval
  let length : ℕ := sendCarry / 2 ^ 16 * nam.frameSize
  ({ nam with sendCarry := sendCarry, sendLeft := nam.sendLeft - length },
    ⟨if latch then some nam.sendBuf else none, length⟩)

/-- Whether the player interrupt was caused, beside what the host controller gets. -/
def nOutReqHook (nam : NepAudioMode) : NepAudioMode × Bool × IOUsbHWBufferReq :=
  let nam := { nam with playerTimer := nam.playerTimer - nam.interval }
  let due : Bool := nam.playerTimer < 0
  let nam := if due then playerPass nam else nam
  if nam.denyRequests then (nam, due, ⟨none, 0⟩)
  else
    let (nam, ubr) := sendInterval nam
    (nam, due, ubr)

structure Playback where
  nam : NepAudioMode
  /-- What is in the play buffers; `none` has not been mixed. -/
  buffers : Bool → ℕ → Option ℕ
  mixed : ℕ
  pos : Bool × ℕ
  passes : ℕ
  /-- From the second pass on: what the endpoint was handed, and whether it was more than the buffer's. -/
  handed : List (Option ℕ)
  beyond : Bool

def nMixAndConvert (s : Playback) : Playback :=
  let fill := s.nam.fillBuf
  { s with
    buffers := Pair.set s.buffers fill fun i =>
      if i < s.nam.buffSamples then some (s.mixed + i) else s.buffers fill i
    mixed := s.mixed + s.nam.buffSamples
    nam := { s.nam with sendBuf := fill, fillBuf := !fill } }

/-- The player interrupt of AHI before version 6 and from it on. `skipit`: AHI's pre-timer hook has no time
for a mix. -/
inductive PlayerInt
  | v4
  | v6 (skipit : Bool)
  deriving DecidableEq, Repr

def PlayerInt.run : PlayerInt → Playback → Playback
  | .v4, s => if s.nam.denyRequests then s else nMixAndConvert s
  | .v6 skipit, s => if skipit || s.nam.denyRequests then s else nMixAndConvert s

def IOUsbHWBufferReq.start (ubr : IOUsbHWBufferReq) (pos : Bool × ℕ) : Bool × ℕ :=
  match ubr.buffer with
  | some buffer => (buffer, 0)
  | none => pos

def takeInterval (s : Playback) (ubr : IOUsbHWBufferReq) : Playback :=
  let start := ubr.start s.pos
  let frames := ubr.length / s.nam.frameSize
  let handed := (List.range frames).map fun i => s.buffers start.1 (start.2 + i)
  { s with
    pos := (start.1, start.2 + frames)
    handed := if 2 ≤ s.passes then s.handed ++ handed else s.handed
    beyond := s.beyond || decide (2 ≤ s.passes ∧ s.nam.playLen start.1 < start.2 * s.nam.frameSize + ubr.length) }

def serve (s : Playback) (int : PlayerInt) : Playback :=
  let (nam, caused, ubr) := nOutReqHook s.nam
  let s := takeInterval { s with nam := nam, passes := s.passes + if caused then 1 else 0 } ubr
  if caused then int.run s else s

structure PlayMode where
  ctrl : AhiCtrl
  interval : ℕ
  frameSize : ℕ
  rate : ctrl.mixFreq ≤ 64000
  player : 0 < ctrl.playerFreq
  served : 0 < interval
  sized : 0 < frameSize
  /-- The player's period is at least one service interval. -/
  period : interval <<< 16 ≤ playerPeriod (fixed ctrl.playerFreq)

/-- `subLibAllocAudio`, then `subLibStart`. What neither sets is left from before. -/
def start (m : PlayMode) (playerInterval : ℕ) (playCarry : Bool → ℕ) : Playback where
  nam :=
    { interval := m.interval
      frameSize := m.frameSize
      maxMixFrames := nMaxMixFrames m.interval
        { m.ctrl with playerFreq := fixed m.ctrl.playerFreq, minPlayerFreq := fixed m.ctrl.minPlayerFreq }
      playerFrac := playerPeriod (fixed m.ctrl.playerFreq)
      framesPerMS := (m.ctrl.mixFreq <<< 16) / 1000
      playerTimer := 0
      playerInterval := playerInterval
      playerMS := 0
      playLen := fun _ => 0
      playCarry := playCarry
      fillBuf := false
      sendBuf := true
      sendLeft := 0
      sendCarry := 0
      denyRequests := false
      buffSamples := 0 }
  buffers := fun _ _ => none
  mixed := 0
  pos := (true, 0)
  passes := 0
  handed := []
  beyond := false

end Neptune.UsbAudio
