import Neptune.Lib.Run
import Neptune.Lib.Word

/-! The share of one unit in a tick of the removable task: one TEST UNIT READY, what it says of the
medium, and the mount pass. The task is cut wherever the code asks the unit for something or reads what
other tasks write, so that their changes, the latch of the safe eject and the end of the binding come
between any two of these steps. `owed`, `since`, `tick` and `log` are not in the code. -/

namespace Neptune.Removable

def RT_SENSE_RETRIES : ℕ := 8
def RT_MOUNT_RETRIES : ℕ := 5

def SK_MASK : UInt8 := 0x0f
def SK_NOT_READY : UInt8 := 2
def SK_UNIT_ATTENTION : UInt8 := 6

/-- What a TEST UNIT READY comes to: bytes 2 and 12 of the sense data, of which so many have come. -/
inductive Tur
  | ready
  | failed (senseActual : ℕ) (sense2 sense12 : UInt8)
  deriving DecidableEq, Repr

namespace Tur

def senseKey : Tur → UInt8
  | .ready => 0
  | .failed actual sense2 _ => if actual ≥ 14 then sense2 &&& SK_MASK else 0xff

def asc : Tur → UInt8
  | .ready => 0
  | .failed actual _ sense12 => if actual ≥ 14 then sense12 else 0

def noMedium (tur : Tur) : Bool := tur.senseKey = SK_NOT_READY && tur.asc = 0x3a

def becoming (tur : Tur) : Bool := tur.senseKey = SK_NOT_READY && tur.asc = 0x04

def attention (tur : Tur) : Bool :=
  tur.senseKey = SK_UNIT_ATTENTION && (tur.asc = 0x28 || tur.asc = 0x3a)

end Tur

structure Tick where
  sampledAt : ℕ
  answer : Option Tur
  /-- `ncm_SenseRetries` before the answer. -/
  senseRetries : ℕ
  /-- `ncm_MediaUnsettled` at the end. -/
  unsettled : Bool
  deriving DecidableEq, Repr

inductive Entry
  /-- `nRTAnnounceChange` starts, after so many changes. -/
  | announced (changes : ℕ)
  /-- The mount dispatch starts, after so many changes. -/
  | dispatched (changes : ℕ)
  | ended (tick : Tick)
  deriving DecidableEq, Repr

/-- Where the removable task stands with the unit. -/
inductive Point
  | away
  | poll
  | ready
  | pass
  | announce
  | dispatch
  | mount
  | finish (retryMount : Bool)
  deriving DecidableEq, Repr

structure MountResult where
  hasMounted : Bool
  deferred : ℕ
  deriving DecidableEq, Repr

structure NepClassMS where
  /-- `ncm_Task` and not `ncm_DenyRequests`. -/
  alive : Bool
  running : Bool
  removable : Bool
  unitReady : Bool
  ejected : Bool
  hasMounted : Bool
  mountDeferred : Bool
  remountPending : Bool
  mediaUnsettled : Bool
  senseRetries : ℕ
  mountRetries : ℕ
  autoUnmount : Bool
  preDOS : Bool
  /-- `ncm_ChangeCount` is what a `ULONG` keeps of it. -/
  changes : ℕ
  acknowledged : ℕ
  point : Point
  tick : Tick
  /-- The changes counted when the announcement of the pass started, or the pass without one. -/
  since : ℕ
  /-- The changes that were counted while the unit was alive and not latched. -/
  owed : List ℕ
  log : List Entry
  deriving DecidableEq, Repr

namespace NepClassMS

variable (s : NepClassMS)

def changeCount : ℕ := ulong s.changes

def lastChange : ℕ := ulong s.acknowledged

def count : NepClassMS :=
  { s with
    changes := s.changes + 1
    owed := if s.alive && !s.ejected then s.owed ++ [s.changes + 1] else s.owed }

def classify (tur : Tur) : NepClassMS :=
  if tur.noMedium then { s with mediaUnsettled := false }
  else if tur.becoming then { s with mediaUnsettled := true }
  else if s.senseRetries ≠ 0 then
    { s with senseRetries := s.senseRetries - 1, mediaUnsettled := true }
  else { s with mediaUnsettled := false }

def edges (tur : Tur) : NepClassMS :=
  let s := if tur.attention then s.count else s
  if (tur.noMedium || tur.becoming) && s.unitReady then { s with unitReady := false }.count else s

def nRTMediaFailed (tur : Tur) : NepClassMS := (s.classify tur).edges tur

/-- Up to the command that follows: CMD_START for UFI and `nGetWriteProtect` otherwise. -/
def nRTMediaReady : NepClassMS :=
  if s.unitReady then { s with point := .ready }
  else { { s with unitReady := true }.count with point := .pass }

/-- What follows `nGetWriteProtect` in `nRTMediaReady`. -/
def settleReady : NepClassMS :=
  { s with
    mediaUnsettled := if s.lastChange = s.changeCount then false else s.mediaUnsettled
    point := .pass }

def nRTPollMedia (tur : Tur) : NepClassMS :=
  let s := { s with tick := { s.tick with answer := some tur, senseRetries := s.senseRetries } }
  match tur with
  | .ready => s.nRTMediaReady
  | .failed _ _ _ => { s.nRTMediaFailed tur with point := .pass }

def leave : NepClassMS :=
  { s with
    point := .away
    log := s.log ++ [.ended { s.tick with unsettled := s.mediaUnsettled }] }

def sample : NepClassMS :=
  let mediaChanged : Bool := s.lastChange ≠ s.changeCount
  let s := { s with tick := { s.tick with sampledAt := s.changes } }
  if !mediaChanged && !s.remountPending then s.leave
  else
    { s with
      remountPending := false, since := s.changes
      point := if mediaChanged then .announce else .dispatch }

def nRTAnnounceChange : NepClassMS :=
  { s with since := s.changes, point := .dispatch, log := s.log ++ [.announced s.changes] }

def dispatch : NepClassMS :=
  { s with
    point := if s.unitReady && !s.ejected then .mount else .finish false
    log := s.log ++ [.dispatched s.changes] }

def mounted (r : MountResult) : NepClassMS :=
  { s with
    hasMounted := r.hasMounted, mountDeferred := r.deferred ≠ 0
    point := .finish (!r.hasMounted && r.deferred = 0 && s.mountRetries ≠ 0 && s.preDOS) }

def finish (retryMount : Bool) : NepClassMS :=
  if retryMount then
    { s with mountRetries := s.mountRetries - 1, mediaUnsettled := true }.leave
  else { s with mediaUnsettled := false, acknowledged := s.changes }.leave

/-- `nRTHandleUnit`, up to the first command. -/
def nRTHandleUnit : NepClassMS :=
  if s.alive then
    { s with
      point := if s.removable && s.running then .poll else .pass
      tick := ⟨0, none, s.senseRetries, false⟩ }
  else { s with hasMounted := s.hasMounted && !s.autoUnmount }

/-- `nRTDOSArrived`, and the task starts again as a process. -/
def nRTDOSArrived : NepClassMS :=
  { s with remountPending := s.remountPending || s.mountDeferred || !s.hasMounted, preDOS := false }

end NepClassMS

inductive Event
  | nRTHandleUnit
  | answered (tur : Tur)
  | settleReady
  | sample
  | nRTAnnounceChange
  | dispatch
  | mounted (r : MountResult)
  | finish
  | nRTDOSArrived
  /-- A command of this task or of any other meets a change. -/
  | counted
  | latch (on : Bool)
  | nodesRemoved
  /-- `UCM_AttemptSuspendDevice` and `UCM_AttemptResumeDevice`, and the end of the startup. -/
  | running (on : Bool)
  | gone
  | unbound
  | bound
  | inquired (removable : Bool)
  deriving DecidableEq, Repr

open NepClassMS in
def step (s : NepClassMS) : Event → Option NepClassMS
  | .nRTHandleUnit => if s.point = .away then some s.nRTHandleUnit else none
  | .answered tur => if s.point = .poll then some (s.nRTPollMedia tur) else none
  | .settleReady => if s.point = .ready then some s.settleReady else none
  | .sample => if s.point = .pass then some s.sample else none
  | .nRTAnnounceChange => if s.point = .announce then some s.nRTAnnounceChange else none
  | .dispatch => if s.point = .dispatch then some s.dispatch else none
  | .mounted r => if s.point = .mount then some (s.mounted r) else none
  | .finish =>
    match s.point with
    | .finish retryMount => some (s.finish retryMount)
    | _ => none
  | .nRTDOSArrived => if s.point = .away ∧ s.preDOS then some s.nRTDOSArrived else none
  | .counted => some s.count
  | .latch on => some { s with ejected := on }
  | .nodesRemoved => some { s with hasMounted := false }
  | .running on => some { s with running := on }
  | .gone => some { s with alive := false }
  | .unbound => some { s with alive := false, unitReady := false }.count
  | .bound =>
    if s.alive then none
    else some { s with
      alive := true, ejected := false, remountPending := false, unitReady := false, removable := true }
  | .inquired removable =>
    let s := { s with senseRetries := RT_SENSE_RETRIES, mountRetries := RT_MOUNT_RETRIES }
    if removable then some { s with mediaUnsettled := true }
    else some { s with removable := false, unitReady := true }.count

end Neptune.Removable
