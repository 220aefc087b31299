import Neptune.Lib.Early
import Neptune.Lib.Ledger
import Neptune.Lib.Run

/-! Opening, clocking and closing an AHI mode: what `subLibAllocAudio` has obtained at each of its early
returns, the timer as the clock, and the one free path. AHI's calls, the unplug, the timer and the controller
come in any order, each call whole. -/

namespace Neptune.AudioOpen

open Ledgers Early

/-- What a mode holds. The timer is what `OpenDevice` opened with the request. -/
inductive Slot
  | psdBase
  | timerIOReq
  | timer
  | taskMsgPort
  | ep0Pipe
  | rtIso
  | mixBuffer
  | playBuffer0
  | playBuffer1
  | recBuffer
  | packetBuffer
  deriving DecidableEq, Repr

/-- The timer request: not on its way, with timer.device, or in its port. -/
inductive Request
  | idle
  | sent
  | replied
  deriving DecidableEq, Repr

/-- `is_Code` of the player interrupt. -/
inductive PlayerCode
  | v4
  | v6
  | dummy
  deriving DecidableEq, Repr

structure NepAudioMode where
  ledger : Ledger Slot
  fallbackTimer : Bool
  playing : Bool
  isCode : PlayerCode
  /-- The port's `mp_Flags` is `PA_SOFTINT`. -/
  softInt : Bool
  /-- The request's `io_Command` is `TR_ADDREQUEST`. -/
  addRequest : Bool
  request : Request
  replies : ℕ
  removed : ℕ
  running : Bool
  fault : Bool

namespace NepAudioMode

variable (nam : NepAudioMode)

def take (k : Slot) : NepAudioMode := { nam with ledger := nam.ledger.take k }

def drop (ks : List Slot) : NepAudioMode := { nam with ledger := nam.ledger.dropAll ks }

def touch (ks : List Slot) : NepAudioMode := { nam with fault := nam.fault || !ks.all nam.ledger.held }

def getMsg : NepAudioMode :=
  if nam.request = .replied then { nam with request := .idle, removed := nam.removed + 1 } else nam

def sendIo : NepAudioMode :=
  if nam.request = .idle then { nam with request := .sent } else { nam with fault := true }

def reply : NepAudioMode := { nam with request := .replied, replies := nam.replies + 1 }

def abortIo : NepAudioMode :=
  if nam.addRequest then (if nam.request = .sent then nam.reply else nam) else { nam with fault := true }

def waitIo : NepAudioMode :=
  match nam.request with
  | .idle => { nam with fault := true }
  | .sent => nam.reply.getMsg
  | .replied => nam.getMsg

def nAbortTimer : NepAudioMode × Bool :=
  let nam := { nam with softInt := false }.touch [.timerIOReq]
  if nam.addRequest then (nam.abortIo, true) else (nam, false)

/-- `subLibPlayerIntDummy`, or what plays to the device. -/
def playerInt : NepAudioMode :=
  match nam.isCode with
  | .dummy => ({ nam.getMsg.touch [.timerIOReq] with addRequest := true }.sendIo).touch [.mixBuffer]
  | .v4 | .v6 => nam.touch [.mixBuffer, .playBuffer0, .playBuffer1]

def psdStartRTIso (ok : Bool) : NepAudioMode := { nam with running := nam.running || (ok && nam.ledger.held .rtIso) }

def psdStopRTIso (ok : Bool) : NepAudioMode := { nam with running := nam.running && !ok }

def startPlay (ok : Bool) : NepAudioMode :=
  let nam := { nam with playing := true }
  if nam.fallbackTimer then { nam.nAbortTimer.1 with softInt := true }.playerInt else nam.psdStartRTIso ok

def stopPlay (ok : Bool) : NepAudioMode :=
  let nam := { nam with playing := false }
  if nam.fallbackTimer then nam.nAbortTimer.1 else nam.psdStopRTIso ok

def nReleaseHook (isInput : Bool) : NepAudioMode :=
  let nam := nam.psdStopRTIso true
  if isInput then nam
  else
    let nam := { nam with isCode := .dummy, fallbackTimer := true }
    if nam.playing then nam.playerInt else nam

def obtains (k : Slot) (ok : Bool) : NepAudioMode × Bool := if ok then (nam.take k, true) else (nam, false)

def obtainsBoth (k k' : Slot) (ok ok' : Bool) : NepAudioMode × Bool :=
  (((nam.obtains k ok).1.obtains k' ok').1, ok && ok')

def resetTimer : NepAudioMode :=
  { nam with
    fallbackTimer := false, playing := false, softInt := true
    fault := nam.fault || decide (nam.request = Request.replied) }

def createIORequest (ok : Bool) : NepAudioMode × Bool :=
  if ok then ({ nam.take .timerIOReq with addRequest := false, request := .idle }, true) else (nam, false)

def openDevice (ok : Bool) : NepAudioMode × Bool :=
  if ok then (nam.take .timer, true) else (nam.drop [.timerIOReq], false)

def setPlayer (isInput v6 : Bool) : NepAudioMode :=
  if isInput then { nam with fallbackTimer := true, isCode := .dummy }
  else { nam with isCode := if v6 then .v6 else .v4 }

def stopTimer : NepAudioMode :=
  if nam.fallbackTimer then if nam.nAbortTimer.2 then nam.nAbortTimer.1.waitIo else nam.nAbortTimer.1 else nam

def freeRTIso : NepAudioMode := if nam.ledger.held .rtIso then { nam with running := false }.drop [.rtIso] else nam

def closeTimer : NepAudioMode :=
  if nam.ledger.held .timerIOReq then
    { nam.touch [.timer] with fault := nam.fault || decide (nam.request ≠ Request.idle) }.drop [.timer, .timerIOReq]
  else nam

end NepAudioMode

inductive SetAnswer
  | ok
  | stall
  | refused
  | lost
  deriving DecidableEq, Repr

structure Answers where
  set : SetAnswer
  get : Bool

def Answers.untold (a : Answers) : Bool := decide (a.set = SetAnswer.lost) || (decide (a.set = SetAnswer.ok) && !a.get)

structure HalfOutcome where
  port : Bool
  pipe : Bool
  alt : Answers
  endpoint : Bool
  rtIso : Bool

structure Outcome where
  library : Bool
  ioRequest : Bool
  timer : Bool
  half : HalfOutcome
  mixBuffer : Bool
  playBuffer0 : Bool
  playBuffer1 : Bool
  converter : Bool
  recHalf : HalfOutcome
  recBuffer : Bool
  packetBuffer : Bool
  recConverter : Bool

structure AudioModes where
  isInput : ℕ → Bool
  recStream : ℕ → Option ℕ
  partOf : ℕ → Option ℕ
  ifNum : ℕ → ℕ
  alternate : ℕ → ℕ → ℕ
  zeroBW : ℕ → Option ℕ
  v6 : Bool
  paired : ∀ n r, recStream n = some r → partOf r = some n ∧ isInput r = true ∧ isInput n = false

variable (modes : AudioModes)

def AudioModes.nRecMode (n : ℕ) : Option ℕ := if modes.isInput n then some n else modes.recStream n

def AudioModes.halves (n : ℕ) : List ℕ := n :: (modes.recStream n).toList

/-- AHI's view of a mode: failed is between a failed AllocAudio and the FreeAudio after it. -/
inductive Phase
  | closed
  | failed
  | opened
  deriving DecidableEq, Repr

structure NepClassAudio where
  nam : ℕ → NepAudioMode
  phase : ℕ → Phase
  inReqHook : Option ℕ
  outReqHook : Option ℕ
  plugged : Bool
  /-- The alternate of an interface, to the library and on the device. -/
  current : ℕ → ℕ
  device : ℕ → ℕ

namespace NepClassAudio

variable (s : NepClassAudio)

def on (n : ℕ) (f : NepAudioMode → NepAudioMode) : NepClassAudio :=
  { s with nam := Function.update s.nam n (f (s.nam n)) }

def attempt (n : ℕ) (f : NepAudioMode → NepAudioMode × Bool) (s : NepClassAudio) : NepClassAudio × Bool :=
  (s.on n fun nam => (f nam).1, (f (s.nam n)).2)

/-- With the mode's pipe; without one the library's view alone is changed. -/
def psdSetAltInterface (n alt : ℕ) (a : Answers) (s : NepClassAudio) : NepClassAudio × Bool :=
  let i := modes.ifNum n
  if s.current i = alt then (s, true)
  else if (s.nam n).ledger.held .ep0Pipe then
    match if s.plugged then a.set else .refused with
    | .ok =>
      let s := { s with device := Function.update s.device i alt }
      if a.get then ({ s with current := Function.update s.current i alt }, true) else (s, false)
    | .stall =>
      if a.get ∧ s.device i = alt then ({ s with current := Function.update s.current i alt }, true) else (s, false)
    | .refused => (s, false)
    | .lost => ({ s with device := Function.update s.device i alt }, false)
  else ({ s with current := Function.update s.current i alt }, true)

def setHooks (n : ℕ) : NepClassAudio :=
  if modes.isInput n then { s with inReqHook := some n } else { s with outReqHook := some n }

end NepClassAudio

open NepClassAudio

def always (f : NepClassAudio → NepClassAudio) (s : NepClassAudio) : NepClassAudio × Bool := (f s, true)

def check (ok : Bool) (s : NepClassAudio) : NepClassAudio × Bool := (s, ok)

def nSelectAudioMode (n freq : ℕ) (o : HalfOutcome) : List (NepClassAudio → NepClassAudio × Bool) :=
  [psdSetAltInterface modes n (modes.alternate n freq) o.alt, check o.endpoint,
    always (setHooks modes · n), attempt n (·.obtains .rtIso o.rtIso)]

def openHalf (n freq : ℕ) (o : HalfOutcome) : List (NepClassAudio → NepClassAudio × Bool) :=
  [attempt n (·.obtains .taskMsgPort o.port), attempt n (·.obtains .ep0Pipe o.pipe)] ++
    nSelectAudioMode modes n freq o

def openTimer (n : ℕ) (o : Outcome) : List (NepClassAudio → NepClassAudio × Bool) :=
  [attempt n (·.obtains .psdBase o.library), always (·.on n (·.resetTimer)),
    attempt n (·.createIORequest o.ioRequest), attempt n (·.openDevice o.timer)]

def openPlayer (n : ℕ) (o : Outcome) : List (NepClassAudio → NepClassAudio × Bool) :=
  if modes.isInput n then [always (·.on n (·.setPlayer true modes.v6))]
  else
    [attempt n (·.obtainsBoth .playBuffer0 .playBuffer1 o.playBuffer0 o.playBuffer1),
      always (·.on n (·.setPlayer false modes.v6)), check o.converter]

def openRecording (n freq : ℕ) (o : Outcome) : List (NepClassAudio → NepClassAudio × Bool) :=
  match modes.nRecMode n with
  | some r =>
    (if r = n then [] else openHalf modes r freq o.recHalf) ++
      [attempt r (·.obtainsBoth .recBuffer .packetBuffer o.recBuffer o.packetBuffer),
        check o.recConverter]
  | none => []

def subLibAllocAudio (n freq : ℕ) (o : Outcome) : NepClassAudio → NepClassAudio × Bool :=
  inTurn (openTimer n o ++ openHalf modes n freq o.half ++ [attempt n (·.obtains .mixBuffer o.mixBuffer)] ++
    openPlayer modes n o ++ openRecording modes n freq o)

namespace NepClassAudio

variable (s : NepClassAudio)

def restoreZeroBW (n : ℕ) (a : Answers) : NepClassAudio :=
  match modes.zeroBW (modes.ifNum n) with
  | some z => (psdSetAltInterface modes n z a s).1
  | none => s

def freeRec (r : ℕ) (a : Answers) : NepClassAudio :=
  (((s.on r (·.freeRTIso)).on r (·.drop [.recBuffer, .packetBuffer])).restoreZeroBW modes r a).on r
    (·.drop [.ep0Pipe, .taskMsgPort])

def freeMode (n : ℕ) (a : Answers) : NepClassAudio :=
  ((((s.on n (·.stopTimer)).on n (·.freeRTIso)).on n
    (·.drop [.mixBuffer, .recBuffer, .playBuffer0, .playBuffer1, .packetBuffer])).restoreZeroBW modes n a).on n
    fun nam => ((nam.drop [.ep0Pipe, .taskMsgPort]).closeTimer).drop [.psdBase]

def subLibFreeAudio (n : ℕ) (a b : Answers) : NepClassAudio :=
  if (s.nam n).ledger.held .psdBase then
    match modes.recStream n with
    | some r => (s.freeRec modes r b).freeMode modes n a
    | none => s.freeMode modes n a
  else s

def subLibStart (n : ℕ) (play record ok recOk : Bool) : NepClassAudio :=
  let s := if play then s.on n (·.startPlay (ok && s.plugged)) else s
  if record then
    match modes.nRecMode n with
    | some r => s.on r (·.psdStartRTIso (recOk && s.plugged))
    | none => s
  else s

def subLibStop (n : ℕ) (play record ok recOk : Bool) : NepClassAudio :=
  let s := if play then s.on n (·.stopPlay ok) else s
  if record then
    match modes.nRecMode n with
    | some r => s.on r (·.psdStopRTIso recOk)
    | none => s
  else s

/-- The controller asks for data or brings it: `nInReqHook`, `nInDoneHook`, `nOutReqHook`. -/
def callHooks (n : ℕ) (due : Bool) : NepClassAudio :=
  match if modes.isInput n then s.inReqHook else s.outReqHook with
  | some m =>
    if modes.isInput n then s.on m (·.touch [.recBuffer, .packetBuffer])
    else s.on m fun nam => (if due then nam.playerInt else nam).touch [.playBuffer0, .playBuffer1]
  | none => s.on n ({ · with fault := true })

end NepClassAudio

inductive Event
  | allocAudio (n freq : ℕ) (o : Outcome)
  | freeAudio (n : ℕ) (a b : Answers)
  | start (n : ℕ) (play record ok recOk : Bool)
  | stop (n : ℕ) (play record ok recOk : Bool)
  | unplug
  | timer (n : ℕ)
  | hooks (n : ℕ) (due : Bool)

def step (s : NepClassAudio) : Event → Option NepClassAudio
  | .allocAudio n freq o =>
    if modes.partOf n = none ∧ s.phase n ≠ .failed then
      -- in use: the new audio control has no mode, and its FreeAudio does nothing
      if (s.nam n).ledger.held .rtIso then some s
      else
        some { (subLibAllocAudio modes n freq o s).1 with
          phase := Function.update s.phase n (if (subLibAllocAudio modes n freq o s).2 then .opened else .failed) }
    else none
  | .freeAudio n a b =>
    if s.phase n ≠ .closed then
      some { s.subLibFreeAudio modes n a b with phase := Function.update s.phase n .closed }
    else none
  | .start n play record ok recOk =>
    if s.phase n = .opened then some (s.subLibStart modes n play record ok recOk) else none
  | .stop n play record ok recOk =>
    if s.phase n = .opened then some (s.subLibStop modes n play record ok recOk) else none
  | .unplug =>
    if s.plugged = true then
      some { s with
        plugged := false
        nam := fun n =>
          if (s.nam n).ledger.held .rtIso then (s.nam n).nReleaseHook (modes.isInput n) else s.nam n }
    else none
  | .timer n =>
    if (s.nam n).request = .sent then
      some (s.on n fun nam => if nam.softInt then nam.reply.playerInt else nam.reply)
    else none
  | .hooks n due => if (s.nam n).running = true then some (s.callHooks modes n due) else none

def blankMode : NepAudioMode := ⟨.blank, false, false, .v4, false, false, .idle, 0, 0, false, false⟩

def init (alts : ℕ → ℕ) : NepClassAudio := ⟨fun _ => blankMode, fun _ => .closed, none, none, true, alts, alts⟩

end Neptune.AudioOpen
