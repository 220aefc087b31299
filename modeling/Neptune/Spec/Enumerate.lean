import Neptune.Lib.Run
import Neptune.Lib.Word

/-! `psdDoPipe` and `psdWaitPipe` on one device: what comes back of a transfer, and the verdict on the device from
the results that are collected. Delays and messages are left out. -/

namespace Neptune

namespace PipeWait

inductive IoErr
  | none
  | timeout
  | nakTimeout
  | crcError
  | xactError
  | splitError
  | runtPacket
  | outOfMemory
  | badParams
  | stall
  | other (n : ℕ)
  deriving DecidableEq, Repr

def IoErr.score : IoErr → Option ℕ
  | .timeout => some 3
  | .nakTimeout => some 2
  | .crcError | .xactError | .splitError => some 1
  | _ => .none

/-- A hub above the device. `hubPort` is the port that this hub itself hangs on. -/
structure Hub where
  highSpeed : Bool
  handle : ℕ
  hubThinkTime : ℕ
  hubPort : ℕ
  deriving DecidableEq, Repr

/-- `hubs` are `pd_Hub`, the `pd_Hub` of it and so on. -/
structure PsdDevice where
  hubs : List Hub
  hubPort : ℕ
  lowSpeed : Bool
  highSpeed : Bool
  superSpeed : Bool
  needsSplit : Bool
  connected : Bool
  hasDevAddr : Bool
  hasDevDesc : Bool
  dead : Bool
  suspended : Bool
  deadCount : ℕ
  devAddr : ℕ
  handle : ℕ
  ep0Token : ℕ
  maxPktSize0 : ℕ
  deriving DecidableEq, Repr

namespace PsdDevice

variable (pd : PsdDevice)

def countResult (ioerr : IoErr) : PsdDevice :=
  match ioerr.score with
  | some n => { pd with deadCount := uword (pd.deadCount + n) }
  | none => { pd with deadCount := pd.deadCount / 2 }

def failing : Bool := pd.deadCount > 19 || pd.deadCount > 14 && (pd.hasDevAddr || pd.hasDevDesc)

/-- The end of `psdWaitPipe`. A flag that is set here comes with `EHMB_DEVICEDEAD`. -/
def judge : PsdDevice :=
  if pd.failing then { pd with dead := true }
  else if pd.deadCount = 0 ∧ pd.dead ∧ pd.connected then { pd with dead := false }
  else pd

def psdWaitPipe (ioerr : IoErr) : PsdDevice := (pd.countResult ioerr).judge

/-- What becomes of a transfer: whether a suspended device has been resumed for it, its result, and what it has
received. -/
structure Reply where
  resumed : Bool
  ioerr : IoErr
  data : List UInt8

def psdDoPipe (reply : Reply) : PsdDevice × IoErr :=
  if pd.connected then
    let awake := if pd.suspended then { pd with suspended := !reply.resumed } else pd
    (awake.psdWaitPipe reply.ioerr, reply.ioerr)
  else (pd, .timeout)

end PsdDevice

/-- `sent` counts the `EHMB_DEVICEDEAD`, `cleared` the clearings of the flag. `above` is whether the score was above
the threshold after the last result, `spared` whether a result that does not score has been collected since the flag
was set. These are not in the code. -/
structure Watch where
  pd : PsdDevice
  sent : ℕ
  cleared : ℕ
  above : Bool
  spared : Bool

/-- A result collected, or anything that other code does to the device. -/
inductive Event
  | result (ioerr : IoErr)
  | other (pd : PsdDevice)

def Watch.result (w : Watch) (ioerr : IoErr) : Watch :=
  let pd := w.pd.psdWaitPipe ioerr
  let set := !w.pd.dead && pd.dead
  { pd := pd
    sent := w.sent + set.toNat
    cleared := w.cleared + (w.pd.dead && !pd.dead).toNat
    above := (w.pd.countResult ioerr).failing
    spared := !set && (w.spared || ioerr.score.isNone) }

/-- Nothing else writes `PDFF_DEAD` or `pd_DeadCount`. -/
def step (w : Watch) : Event → Option Watch
  | .result ioerr => some (w.result ioerr)
  | .other pd => some { w with pd := { pd with dead := w.pd.dead, deadCount := w.pd.deadCount } }

/-- `pd` as `psdAllocDevice` has it, whatever is in the other fields. -/
def start (pd : PsdDevice) : Watch := ⟨{ pd with dead := false, deadCount := 0 }, 0, 0, false, false⟩

structure Truthful (w w' : Watch) : Prop where
  set : w.pd.dead = false → w'.pd.dead = true → w.above = false ∧ w'.above = true ∧ w'.sent = w.sent + 1
  sent : w'.sent ≠ w.sent → w.pd.dead = false ∧ w'.pd.dead = true
  once : w'.sent = w'.cleared + w'.pd.dead.toNat
  cleared : w.pd.dead = true → w'.pd.dead = false → w'.spared = true ∧ w'.cleared = w.cleared + 1

/-- The counter overflows to 0 on a device that is flagged, with no result since then that does not score. -/
def Overflows (w : Watch) : Event → Prop
  | .result ioerr =>
    w.pd.dead = true ∧ w.pd.connected = true ∧ w.spared = false ∧ ∃ n, ioerr.score = some n ∧ w.pd.deadCount + n = 2 ^ 16
  | .other _ => False

end PipeWait

namespace Enumerate

open PipeWait (IoErr Hub PsdDevice)
open PipeWait.PsdDevice (Reply)

def UHFF_LOWSPEED : UInt16 := 0x0001
def UHFF_HIGHSPEED : UInt16 := 0x0002
def UHFF_NAKTIMEOUT : UInt16 := 0x0008

structure PsdPipe where
  flags : UInt16
  nakTimeout : ℕ
  devAddr : ℕ
  maxPktSize : ℕ
  deriving DecidableEq

/-- The device and its pipe, and which slots of `phw_DevArray` are taken. -/
structure Sys where
  contextBackend : Bool
  taken : ℕ → Bool
  pd : PsdDevice
  pp : PsdPipe

inductive Speed
  | low
  | full
  | high
  | super
  deriving DecidableEq, Repr

structure UhcdCreateDevice where
  parentHandle : ℕ
  hubPort : ℕ
  speed : Speed
  ttHubHandle : ℕ
  ttPort : ℕ
  ttThinkTime : ℕ
  deriving DecidableEq, Repr

structure Created where
  ioerr : IoErr
  deviceHandle : ℕ
  ep0Token : ℕ

/-- What is answered: to the first eight bytes of the descriptor, SET_ADDRESS and its second attempt, the ops of a
context HCD and the whole descriptor. `rest` is what comes after the device descriptor, from its strings to its
configuration. -/
structure Answers where
  read8 : Reply
  setAddress : Reply
  setAddressAgain : Reply
  create : UhcdCreateDevice → Created
  updateEp0 : ℕ → ℕ → IoErr
  read18 : Reply
  rest : List UInt8 → Sys → Sys

/-- The hub with the translator and its port towards the device, which hangs on `hubPort`. -/
def pFindTTHub (hubPort : ℕ) : List Hub → Option (ℕ × Hub)
  | [] => none
  | hub :: hubs => if hub.highSpeed then some (hubPort, hub) else pFindTTHub hub.hubPort hubs

/-- A buffer into which up to `n` bytes have been received. -/
def receive (buf : List UInt8) (n : ℕ) (data : List UInt8) : List UInt8 :=
  data.take n ++ buf.drop (data.take n).length

/-- `pd_DevAddr` of a pipe to a device on a bus; a context HCD has no addresses. -/
def psdAllocPipeAddr (contextBackend : Bool) (pd : PsdDevice) : ℕ := if contextBackend then 0 else pd.devAddr

namespace Sys

variable (s : Sys)

def Opened : Prop := s.pp.devAddr = 0 ∨ s.pp.devAddr = psdAllocPipeAddr s.contextBackend s.pd

def psdDoPipe (reply : Reply) : Sys × IoErr :=
  ({ s with pd := (s.pd.psdDoPipe reply).1 }, (s.pd.psdDoPipe reply).2)

/-- `pCtxDoOp`: an op of a context HCD, for which the flags of the device are not looked at. -/
def pCtxDoOp (ioerr : IoErr) : Sys × IoErr := ({ s with pd := s.pd.psdWaitPipe ioerr }, ioerr)

def pAllocDevAddr : Option Sys :=
  if s.pd.devAddr ≠ 0 then some s
  else
    (((List.range 127).map Nat.succ).find? fun da => !s.taken da).map fun da =>
      { s with taken := Function.update s.taken da true, pd := { s.pd with devAddr := da } }

/-- What comes in with the reply; nothing has been sent to a device that is not connected. -/
def received (reply : Reply) : List UInt8 := if s.pd.connected then reply.data else []

/-- The first eight bytes of the descriptor, on the pipe as it is. A short reply will do. -/
def readFirst (reply : Reply) (usdd : List UInt8) : Sys × List UInt8 × IoErr :=
  let usdd := receive usdd 8 (s.received reply)
  let (s, ioerr) := s.psdDoPipe reply
  (s, usdd, if ioerr = .runtPacket then .none else ioerr)

def pLegacyAddressDevice (answers : Answers) (usdd : List UInt8) : Sys × List UInt8 × IoErr :=
  match s.pAllocDevAddr with
  | none => (s, usdd, .outOfMemory)
  | some s =>
    let pp :=
      if s.pd.highSpeed then { s.pp with devAddr := 0, maxPktSize := 64, flags := s.pp.flags ||| UHFF_HIGHSPEED }
      else if s.pd.lowSpeed then { s.pp with devAddr := 0, maxPktSize := 8, flags := s.pp.flags ||| UHFF_LOWSPEED }
      else { s.pp with devAddr := 0, maxPktSize := 8 }
    let (s, usdd, ioerr) := { s with pp }.readFirst answers.read8 usdd
    if ioerr ≠ .none then (s, usdd, ioerr)
    else
      let (s, ioerr) := s.psdDoPipe answers.setAddress
      -- maybe the device has accepted the command, but failed to send an ACK
      let (s, ioerr) := if ioerr = .timeout ∨ ioerr = .stall then s.psdDoPipe answers.setAddressAgain else (s, ioerr)
      if ioerr ≠ .none then (s, usdd, ioerr)
      else
        ({ s with
            pd := { s.pd with hasDevAddr := true, connected := true, handle := s.pd.devAddr }
            pp := { s.pp with devAddr := s.pd.devAddr } }, usdd, .none)

/-- The hub that translates for the device, as `CREATE_DEVICE` is told; `none` where there should be one. -/
def translator : Option (ℕ × ℕ × ℕ) :=
  if s.pd.needsSplit then (pFindTTHub s.pd.hubPort s.pd.hubs).map fun p => (p.2.handle, p.1, p.2.hubThinkTime)
  else some (0, 0, 0)

def createDevice (tt : ℕ × ℕ × ℕ) : UhcdCreateDevice :=
  { parentHandle := (s.pd.hubs.head?.map Hub.handle).getD 0
    hubPort := s.pd.hubPort
    speed :=
      if s.pd.superSpeed then .super else if s.pd.highSpeed then .high else if s.pd.lowSpeed then .low else .full
    ttHubHandle := tt.1
    ttPort := tt.2.1
    ttThinkTime := tt.2.2 }

def pContextAddressDevice (answers : Answers) (usdd : List UInt8) : Sys × List UInt8 × IoErr :=
  match s.translator with
  | none => (s, usdd, .badParams)
  | some tt =>
    let created := answers.create (s.createDevice tt)
    let (s, ioerr) := s.pCtxDoOp created.ioerr
    if ioerr ≠ .none then (s, usdd, ioerr)
    else
      { s with
        pd := { s.pd with
          handle := created.deviceHandle
          ep0Token := created.ep0Token
          devAddr := 0
          hasDevAddr := true
          connected := true } }.readFirst answers.read8 usdd

def hopAddressDevice (answers : Answers) (usdd : List UInt8) : Sys × List UInt8 × IoErr :=
  if s.contextBackend then s.pContextAddressDevice answers usdd else s.pLegacyAddressDevice answers usdd

def hopUpdateEp0MaxPacket (answers : Answers) : Sys × IoErr :=
  if s.contextBackend then s.pCtxDoOp (answers.updateEp0 s.pd.handle s.pd.maxPktSize0) else (s, .none)

def maxPkt0 (bMaxPacketSize0 : UInt8) : Option ℕ :=
  if s.pd.superSpeed then some 512
  else if s.pd.highSpeed then some 64
  else if s.pd.lowSpeed then some 8
  else if bMaxPacketSize0 ∈ [8, 16, 32, 64] then some bMaxPacketSize0.toNat
  else none

/-- `pp_IOReq` gets its flags and its timeout back. -/
def restore (pp : PsdPipe) : Sys := { s with pp := { s.pp with flags := pp.flags, nakTimeout := pp.nakTimeout } }

/-- `fail_restore` after `addr_assigned`. -/
def unassign : Sys :=
  { s with pp := { s.pp with devAddr := 0 }, pd := { s.pd with hasDevAddr := false, connected := false } }

def withTimeout : Sys :=
  { s with pp := { s.pp with flags := s.pp.flags ||| UHFF_NAKTIMEOUT, nakTimeout := 1000 } }

/-- The rest of `psdEnumerateDevice`, once the device has its address; `old` is the pipe at the call. -/
def describe (answers : Answers) (old : PsdPipe) (usdd : List UInt8) : Sys × Bool :=
  match s.maxPkt0 (usdd.getD 7 0) with
  | none => (s.unassign.restore old, false)
  | some maxPkt0 =>
    let s := { s with pp := { s.pp with maxPktSize := maxPkt0 }, pd := { s.pd with maxPktSize0 := maxPkt0 } }
    let (s, ioerr) := s.hopUpdateEp0MaxPacket answers
    if ioerr ≠ .none then (s.unassign.restore old, false)
    else
      let usdd := receive usdd 18 (s.received answers.read18)
      let (s, ioerr) := s.psdDoPipe answers.read18
      if ioerr ≠ .none then (s.unassign.restore old, false)
      else ((answers.rest usdd { s with pd := { s.pd with hasDevDesc := true } }).restore old, true)

def psdEnumerateDevice (answers : Answers) : Sys × Bool :=
  let (s', usdd, ioerr) := s.withTimeout.hopAddressDevice answers (List.replicate 18 0)
  if ioerr ≠ .none then (s'.restore s.pp, false) else s'.describe answers s.pp usdd

end Sys

/-- What a failed attempt leaves of the state `s` it began in. -/
structure RolledBack (s s' : Sys) : Prop where
  hasDevAddr : s'.pd.hasDevAddr = true → s.pd.hasDevAddr = true
  connected : s'.pd.connected = true → s.pd.connected = true
  flags : s'.pp.flags = s.pp.flags
  nakTimeout : s'.pp.nakTimeout = s.pp.nakTimeout
  devAddr : s'.pp.devAddr = 0

/-- A context HCD creates the device, which lacked one of the flags, and the first bytes of its descriptor cannot be
read. -/
def Stranded (answers : Answers) (s : Sys) : Prop :=
  s.contextBackend = true ∧ (∃ tt, s.translator = some tt ∧ (answers.create (s.createDevice tt)).ioerr = .none) ∧
    answers.read8.ioerr ≠ .none ∧ answers.read8.ioerr ≠ .runtPacket ∧ ¬(s.pd.hasDevAddr ∧ s.pd.connected)

end Enumerate

end Neptune
