import Neptune.Lib.Run
import Neptune.Lib.Word

/-! The relay task of a hardware, `pDeviceTask`, and the callers of `pSubmitPipeReq`. The calls of a
submit and the loops of the relay are single steps, and so are the two halves of the relay's
`++phw_MsgCount` and `--phw_MsgCount`, which are not under `Forbid`. -/

namespace Neptune

structure PipePtr where
  addr : ℕ
  nonNull : addr ≠ 0
  bound : addr < 2 ^ 32
  deriving DecidableEq

/-- What comes to `phw_TaskMsgPort`: pipes, and the messages of `psdAbortPipe`. -/
inductive TaskMsg
  | forward (pp : PipePtr)
  | abort (pp : PipePtr)
  deriving DecidableEq

/-- The loop in which the relay empties `phw_DevMsgPort`. -/
inductive RelayLoop
  | main
  | drain (cnt : ℕ)
  deriving DecidableEq

inductive RelayPc
  /-- At `GetMsg(&phw->phw_TaskMsgPort)`. -/
  | taskPort
  | send (pp : PipePtr)
  | incLoad
  | incStore (msgCount : ℕ)
  /-- At `GetMsg(&phw->phw_DevMsgPort)`. -/
  | devPort (l : RelayLoop)
  | complete (l : RelayLoop) (pp : PipePtr)
  | decLoad (l : RelayLoop)
  | decStore (l : RelayLoop) (msgCount : ℕ)
  | wait
  | flush
  | test (cnt : ℕ)
  | delay (cnt : ℕ)
  | left (timedOut : Bool)
  deriving DecidableEq

/-- The last two fields are not stored in the code: the pipes that have been submitted, and those
that `pCompletePipe` has been called on. -/
structure RelayState where
  /-- `UHCF_QUICKIO` of `phw_Capabilities`. -/
  quick : Bool
  msgCount : ℕ
  taskPort : List TaskMsg
  devPort : List PipePtr
  sigTask : Bool
  sigDev : Bool
  sigCtrlC : Bool
  /-- What the driver has been given and has not replied. -/
  hcd : List PipePtr
  /-- Pipes whose `BeginIO` has come back without `IOF_QUICK`, before the caller's
  `++phw_MsgCount`. -/
  counting : List PipePtr
  pc : RelayPc
  submitted : List PipePtr
  completed : List PipePtr
  deriving DecidableEq

inductive RelayEvent
  /-- `pSubmitPipeReq` on a hardware that is not quick. -/
  | put (pp : PipePtr)
  /-- On a quick one, up to the test of `IOF_QUICK`; `sync` is what it finds. -/
  | begin (pp : PipePtr) (sync : Bool)
  /-- The caller's `++phw_MsgCount`, under `Forbid`. -/
  | count (pp : PipePtr)
  /-- `psdAbortPipe`, up to its wait for the reply. -/
  | abort (pp : PipePtr)
  | reply (pp : PipePtr)
  | ctrlC
  | relay
  deriving DecidableEq

namespace RelayState

/-- The pipe is its owner's: no submit of it is under way, and the last one is completed. -/
def Free (s : RelayState) (pp : PipePtr) : Prop :=
  pp ∉ s.counting ∧ s.submitted.count pp = s.completed.count pp

instance (s : RelayState) (pp : PipePtr) : Decidable (s.Free pp) :=
  inferInstanceAs (Decidable (_ ∧ _))

def pDeviceTask (s : RelayState) : Option RelayState :=
  match s.pc with
  | .taskPort =>
    match s.taskPort with
    | [] => some { s with pc := .devPort .main }
    -- `AbortIO` makes the driver reply sooner, which it may do at any time
    | .abort _ :: rest => some { s with taskPort := rest }
    | .forward pp :: rest => some { s with taskPort := rest, pc := .send pp }
  | .send pp => some { s with hcd := s.hcd ++ [pp], pc := .incLoad }
  | .incLoad => some { s with pc := .incStore s.msgCount }
  | .incStore msgCount => some { s with msgCount := ulong (msgCount + 1), pc := .taskPort }
  | .devPort l =>
    match s.devPort with
    | [] =>
      match l with
      | .main => some { s with pc := .wait }
      | .drain cnt => some { s with pc := .test cnt }
    | pp :: rest => some { s with devPort := rest, pc := .complete l pp }
  | .complete l pp => some { s with completed := s.completed ++ [pp], pc := .decLoad l }
  | .decLoad l => some { s with pc := .decStore l s.msgCount }
  | .decStore l msgCount => some { s with msgCount := ulongSub msgCount 1, pc := .devPort l }
  | .wait =>
    if s.sigTask || s.sigDev || s.sigCtrlC then
      some { s with
        sigTask := false, sigDev := false, sigCtrlC := false
        pc := if s.sigCtrlC then .flush else .taskPort }
    else none
  | .flush => some { s with pc := .test 0 }
  | .test cnt => some { s with pc := if s.msgCount = 0 then .left false else .delay cnt }
  | .delay cnt =>
    if cnt + 1 = 300 then some { s with msgCount := 0, pc := .left true }
    else some { s with pc := .devPort (.drain (cnt + 1)) }
  | .left _ => none

def step (s : RelayState) (e : RelayEvent) : Option RelayState :=
  match s.pc, e with
  | .left _, _ => none
  | _, .put pp =>
    if ¬ s.quick ∧ s.Free pp then
      some { s with
        taskPort := s.taskPort ++ [.forward pp], sigTask := true
        submitted := s.submitted ++ [pp] }
    else none
  | _, .begin pp sync =>
    if s.quick ∧ s.Free pp then
      if sync then
        some { s with submitted := s.submitted ++ [pp], completed := s.completed ++ [pp] }
      else
        some { s with
          hcd := s.hcd ++ [pp], counting := s.counting ++ [pp]
          submitted := s.submitted ++ [pp] }
    else none
  | _, .count pp =>
    if pp ∈ s.counting then
      some { s with msgCount := ulong (s.msgCount + 1), counting := s.counting.erase pp }
    else none
  | _, .abort pp =>
    if s.submitted.count pp = s.completed.count pp then none
    else some { s with taskPort := s.taskPort ++ [.abort pp], sigTask := true }
  | _, .reply pp =>
    if pp ∈ s.hcd then
      some { s with hcd := s.hcd.erase pp, devPort := s.devPort ++ [pp], sigDev := true }
    else none
  | _, .ctrlC => some { s with sigCtrlC := true }
  | _, .relay => s.pDeviceTask

end RelayState

end Neptune
