import Neptune.Spec.UasEngine

/-! The requests of a mass storage unit: `devBeginIO` and `devAbortIO` in the clients' tasks,
`nIOCmdTunnel` in that of the removable task, and `nMSTask` with the tag engine. What stands under
`Forbid` is a single step. `devBeginIO` is cut between its test of `ncm_DenyRequests` and its
`PutMsg`, which are not. -/

namespace Neptune.MSTask

open Uas (Ncm UasTag Streams)

def TDERR_DiskChanged : ℤ := 29
def IOERR_NOCMD : ℤ := -3

inductive Command
  | cmdStart
  | cmdStop
  | cmdReset
  | cmdFlush
  | cmdRead
  | cmdWrite
  | tdSeek
  | tdFormat
  | tdGetGeometry
  | tdEject
  | tdRead64
  | tdWrite64
  | tdSeek64
  | tdFormat64
  | hdScsiCmd
  | nscmdTdRead64
  | nscmdTdWrite64
  | nscmdTdSeek64
  | nscmdTdFormat64
  /-- `CMD_CLEAR`, `CMD_UPDATE`, `TD_MOTOR` and the queries of the unit's state. -/
  | immediate
  | unknown
  deriving DecidableEq, Repr

structure IoReq where
  id : ℕ
  cmd : Command
  length : ℕ
  deriving DecidableEq, Repr

/-- What `devBeginIO` answers at once; no answer where it comes to `PutMsg`. -/
def devBeginIo (denyRequests : Bool) : Command → Option ℤ
  | .nscmdTdRead64 | .nscmdTdWrite64 | .nscmdTdFormat64 | .nscmdTdSeek64 =>
    if denyRequests then some Uas.IOERR_ABORTED else none
  | .immediate => some 0
  | .unknown => some IOERR_NOCMD
  | _ => if denyRequests then some TDERR_DiskChanged else none

/-- The commands that `nUasEligible` lets through. -/
def Command.block : Command → Bool
  | .cmdRead | .nscmdTdRead64 | .tdRead64 | .cmdWrite | .nscmdTdWrite64 | .tdWrite64 => true
  | _ => false

/-- `ut_IsRead` of `nUasSubmitTag`. -/
def Command.isRead : Command → Bool
  | .cmdRead | .nscmdTdRead64 | .tdRead64 => true
  | _ => false

/-- The arms of `nMSTask` that begin with `nUasDrainTags`. -/
def Command.barrier : Command → Bool
  | .tdEject | .cmdStart | .cmdStop | .cmdReset | .cmdFlush => true
  | _ => false

inductive TaskPc
  /-- No task is bound, or `nFreeMS` has run. -/
  | down
  | startup
  | pump
  /-- In the loop over `ncm_XFerQueue`. -/
  | fifo
  /-- In the `nUasDrainTags` of an arm. -/
  | barrier (io : IoReq)
  | handler (io : IoReq)
  | wait
  /-- After CTRL-C, in the last `nUasDrainTags`. -/
  | leaving
  deriving DecidableEq, Repr

/-- The last two fields are not stored in the code: the requests put on the port, and those replied
by others than the engine. -/
structure NepClassMS where
  engine : Ncm
  port : List IoReq
  queue : List IoReq
  pc : TaskPc
  /-- Requests of clients that have passed the test of `ncm_DenyRequests`. -/
  checked : List IoReq
  sent : List ℕ
  replied : List ℕ
  deriving DecidableEq, Repr

def nUasDisableTags (s : Ncm) : Ncm :=
  { s with tags := [], tmTag := 0, tmOwnTag := 0, tmTargetTag := 0, tmArmed := none,
           tmBusy := false }

inductive Event
  /-- `nAllocMS` comes back with a unit; the streams are those of a UAS device. -/
  | bind (st : Option Streams)
  | devBeginIo (io : IoReq)
  | putMsg (io : IoReq)
  | devAbortIo (id : ℕ)
  | nIOCmdTunnel (io : IoReq)
  | engine (e : Ncm.Event)
  | loop
  | collect
  /-- The head of the queue; the flag is what `nUasEligible` finds of the geometry, the patch flags
  and the alignment. -/
  | dispatch (fits : Bool)
  | drained
  | reply
  | wake (ctrlC : Bool)
  | nFreeMS
  deriving DecidableEq, Repr

namespace NepClassMS

/-- The request of the arm that `nMSTask` is in. -/
def current (s : NepClassMS) : List ℕ :=
  match s.pc with
  | .barrier io | .handler io => [io.id]
  | _ => []

def pending (s : NepClassMS) : List ℕ :=
  s.port.map IoReq.id ++ s.queue.map IoReq.id ++ s.current ++
    s.engine.tags.filterMap UasTag.ioreq

def replies (s : NepClassMS) : List ℕ := s.replied ++ s.engine.wire.answered.map Prod.fst

def InUse (s : NepClassMS) (id : ℕ) : Prop := id ∈ s.pending ∨ id ∈ s.checked.map IoReq.id

instance (s : NepClassMS) (id : ℕ) : Decidable (s.InUse id) :=
  inferInstanceAs (Decidable (_ ∨ _))

def putMsg (s : NepClassMS) (io : IoReq) : NepClassMS :=
  { s with port := s.port ++ [io], sent := s.sent ++ [io.id] }

/-- A queued request is pulled out and replied; one on a tag is flagged. -/
def devAbortIo (s : NepClassMS) (id : ℕ) : NepClassMS :=
  match s.queue.find? fun io => io.id = id with
  | some io => { s with queue := s.queue.erase io, replied := s.replied ++ [id] }
  | none => { s with engine := s.engine.devAbortIo [id] }

def nUasEligible (s : NepClassMS) (io : IoReq) (fits : Bool) : Bool :=
  s.engine.tags ≠ [] && io.cmd.block && io.length ≠ 0 && fits

def dispatch (s : NepClassMS) (fits : Bool) : NepClassMS :=
  match s.queue with
  | [] => { s with pc := .wait }
  | io :: queue =>
    if s.nUasEligible io fits then
      match s.engine.nUasFreeTag with
      | none => { s with pc := .wait }
      | some ut =>
        { s with
          queue := queue
          engine := s.engine.onTag ut.tag
            (Uas.nUasSubmitTag s.engine.maxTrans io.id io.length io.cmd.isRead) }
    else { s with queue := queue, pc := if io.cmd.barrier then .barrier io else .handler io }

/-- `CMD_RESET` and `CMD_FLUSH` abort what is queued. -/
def drained (s : NepClassMS) (io : IoReq) : NepClassMS :=
  match io.cmd with
  | .cmdReset | .cmdFlush =>
    { s with queue := [], replied := s.replied ++ s.queue.map IoReq.id ++ [io.id], pc := .fifo }
  | _ => { s with pc := .handler io }

/-- After `Permit` it touches no request. -/
def nFreeMS (s : NepClassMS) : NepClassMS :=
  { s with
    port := []
    queue := []
    replied := s.replied ++ s.port.map IoReq.id ++ s.queue.map IoReq.id
    engine := nUasDisableTags s.engine
    pc := .down }

def atEngine (s : NepClassMS) (e : Ncm.Event) : Bool :=
  match e, s.pc with
  | .submit .., _ | .abortIo _, _ => false
  | .command _, .startup | .command _, .handler _ => true
  | .command _, _ => false
  | _, .startup | _, .pump | _, .barrier _ | _, .handler _ | _, .leaving => true
  | _, _ => false

def step (s : NepClassMS) : Event → Option NepClassMS
  | .bind st =>
    if s.pc = .down then
      match st with
      | none => some { s with engine := { s.engine with denyRequests := false }, pc := .startup }
      | some st =>
        let (engine, up) := s.engine.nUasInitTags st
        if up then some { s with engine := { engine with denyRequests := false }, pc := .startup }
        else none
    else none
  | .devBeginIo io =>
    if s.InUse io.id then none
    else
      match MSTask.devBeginIo s.engine.denyRequests io.cmd with
      | some _ => some s
      | none => some { s with checked := s.checked ++ [io] }
  | .putMsg io =>
    if io ∈ s.checked then some { s.putMsg io with checked := s.checked.erase io } else none
  | .devAbortIo id => some (s.devAbortIo id)
  | .nIOCmdTunnel io =>
    if s.InUse io.id then none
    else if s.engine.denyRequests then some s
    else some (s.putMsg io)
  | .engine e =>
    if s.atEngine e then (s.engine.step e).map fun engine => { s with engine := engine } else none
  | .loop => if s.pc = .startup then some { s with pc := .pump } else none
  | .collect =>
    if s.pc = .pump then some { s with queue := s.queue ++ s.port, port := [], pc := .fifo }
    else none
  | .dispatch fits => if s.pc = .fifo then some (s.dispatch fits) else none
  | .drained =>
    match s.pc with
    | .barrier io => if s.engine.nUasTagsIdle then some (s.drained io) else none
    | _ => none
  | .reply =>
    match s.pc with
    | .handler io => some { s with replied := s.replied ++ [io.id], pc := .fifo }
    | _ => none
  | .wake ctrlC =>
    if s.pc = .wait then
      if ctrlC then
        some { s with engine := { s.engine with denyRequests := true }, pc := .leaving }
      else some { s with pc := .pump }
    else none
  | .nFreeMS => if s.pc = .leaving ∧ s.engine.nUasTagsIdle then some s.nFreeMS else none

end NepClassMS

def newUnit (engine : Ncm) : NepClassMS :=
  ⟨{ nUasDisableTags engine with
      denyRequests := true, wire := { engine.wire with answered := [] } }, [], [], .down, [], [], []⟩

end Neptune.MSTask
