import Neptune.Lib.Run
import Neptune.Lib.Word

/-! The accounting of what a device is busy with: `pActivityBegin`, `pActivityEnd` and the holds of running streams,
by the tasks that submit and by those that deliver. `pd_IOBusyCount` is written without `Forbid()`: reading it and
writing it back are two steps. `running` is not in the code. -/

namespace Neptune.Activity

/-- What `pRtIsoForwardCmd` issues. -/
inductive Command
  | start
  | stop
  | other
  deriving DecidableEq, Repr

/-- What a pipe is in use for. `inPlace` is a `psdSendPipe` to a device that is not connected, `lifecycle` an op of
`pCtxDoOp`. -/
inductive Use
  | transfer
  | inPlace
  | command (c : Command)
  | lifecycle
  deriving DecidableEq, Repr

/-- Who calls `pCompletePipe`: the submitting task for what is done at once or rejected, the relay task, or the HCD
through `pXferDoneHook`. -/
inductive Deliverer
  | caller
  | relay
  | doneHook
  deriving DecidableEq, Repr

/-- Where the use of a pipe has got to; `read` is what has been read from `pd_IOBusyCount` and not been written back
yet. `holding` is the hold of a stream that has been started, or that has been stopped. -/
inductive Stage
  | idle
  | beginning (use : Use) (read : ℕ)
  | begun (use : Use)
  | out (use : Use) (deliverer : Deliverer)
  | ending (use : Use) (read : ℕ)
  | answered (c : Command)
  | holding (start : Bool) (read : ℕ)
  deriving DecidableEq, Repr

inductive MsgType
  | freeMsg
  | message
  | replyMsg
  deriving DecidableEq, Repr

structure PsdPipe where
  busyWeight : Bool
  activity : Bool
  type : MsgType
  stage : Stage
  running : Bool
  deriving DecidableEq, Repr

/-- `stamps` counts the settings of `pd_LastActivity`. -/
structure PsdDevice (ι : Type) where
  contextBackend : Bool
  quickIo : Bool
  connected : Bool
  ioBusyCount : ℕ
  stamps : ℕ
  pipe : ι → PsdPipe

/-- `now` is a submission that is completed or rejected at once, `ok` a command that went well. `counted` ends
`pActivityBegin`, `uncounted` `pActivityEnd`, and `held` the hold of a stream. -/
inductive Event (ι : Type)
  | connect (on : Bool)
  | psdDoPipe (n : ι)
  | psdSendPipe (n : ι)
  | pRtIsoForwardCmd (n : ι) (c : Command)
  | pCtxDoOp (n : ι) (now : Bool)
  | counted (n : ι)
  | submit (n : ι) (now : Bool)
  | pCompletePipe (n : ι) (deliverer : Deliverer)
  | uncounted (n : ι)
  | returns (n : ι) (ok : Bool)
  | held (n : ι)
  | psdAbortPipe (n : ι)
  | psdWaitPipe (n : ι)
  | getMsg (n : ι)

def Stage.read : Stage → Option ℕ
  | .beginning _ read | .ending _ read | .holding _ read => some read
  | _ => none

def Stage.flying : Stage → Bool
  | .begun _ | .ending _ _ => true
  | .out use _ => use ≠ .lifecycle
  | _ => false

def Stage.marked : Stage → Bool
  | .begun _ => true
  | .out use _ => use ≠ .lifecycle
  | _ => false

def Stage.over : Stage → Bool
  | .idle | .answered _ => true
  | _ => false

variable {ι : Type}

namespace PsdPipe

variable (pp : PsdPipe)

def share : ℕ := (pp.stage.flying && pp.busyWeight).toNat + pp.running.toNat

/-- `ReplyMsg`, with which a submission is over. -/
def replyMsg (use : Use) : PsdPipe :=
  { pp with type := .replyMsg, stage := match use with | .command c => .answered c | _ => .idle }

end PsdPipe

namespace PsdDevice

variable (pd : PsdDevice ι)

def deliverer (use : Use) (now : Bool) : Deliverer :=
  if now then .caller else if pd.contextBackend ∧ use = .transfer then .doneHook else .relay

/-- The relay does not complete anything in the task of the caller. -/
def CanBeNow (use : Use) : Prop := pd.quickIo = true ∨ pd.contextBackend = true ∧ use = .transfer

instance (use : Use) : Decidable (pd.CanBeNow use) := inferInstanceAs (Decidable (_ ∨ _))

def busy [Fintype ι] : ℕ := ∑ n, (pd.pipe n).share

variable [DecidableEq ι]

def setPipe (n : ι) (pp : PsdPipe) : PsdDevice ι := { pd with pipe := Function.update pd.pipe n pp }

def setStage (n : ι) (stage : Stage) : PsdDevice ι := pd.setPipe n { pd.pipe n with stage := stage }

/-- The first half of `pActivityBegin`. -/
def begins (n : ι) (use : Use) : PsdDevice ι := pd.setStage n (.beginning use pd.ioBusyCount)

end PsdDevice

variable [DecidableEq ι]

/-- No pipe is submitted again before its completion, and a handler is started and stopped in turn. -/
def step (pd : PsdDevice ι) : Event ι → Option (PsdDevice ι)
  | .connect on => some { pd with connected := on }
  | .psdDoPipe n =>
    if (pd.pipe n).stage = .idle then
      some (if pd.connected then pd.begins n .transfer else pd.setPipe n { pd.pipe n with type := .freeMsg })
    else none
  | .psdSendPipe n =>
    if (pd.pipe n).stage = .idle then some (pd.begins n (if pd.connected then .transfer else .inPlace)) else none
  | .pRtIsoForwardCmd n c =>
    if (pd.pipe n).stage = .idle ∧ (c = .start → (pd.pipe n).running = false) ∧
        (c = .stop → (pd.pipe n).running = true) then
      some (pd.begins n (.command c))
    else none
  | .pCtxDoOp n now =>
    if (pd.pipe n).stage = .idle ∧ (now = true → pd.CanBeNow .lifecycle) then
      some (pd.setPipe n { pd.pipe n with type := .message, stage := .out .lifecycle (pd.deliverer .lifecycle now) })
    else none
  | .counted n =>
    match (pd.pipe n).stage with
    | .beginning use read =>
      some { pd.setPipe n { pd.pipe n with activity := true, stage := .begun use } with
        ioBusyCount := uword (read + (pd.pipe n).busyWeight.toNat), stamps := pd.stamps + 1 }
    | _ => none
  | .submit n now =>
    match (pd.pipe n).stage with
    | .begun use =>
      if use ≠ .inPlace ∧ (now = true → pd.CanBeNow use) then
        some (pd.setPipe n { pd.pipe n with type := .message, stage := .out use (pd.deliverer use now) })
      else if use = .inPlace then some (pd.setStage n (.out .inPlace .caller))
      else none
    | _ => none
  | .pCompletePipe n d =>
    match (pd.pipe n).stage with
    | .out use deliverer =>
      if d = deliverer then
        if (pd.pipe n).activity then
          some (pd.setPipe n { pd.pipe n with activity := false, stage := .ending use pd.ioBusyCount })
        else some (pd.setPipe n ((pd.pipe n).replyMsg use))
      else none
    | _ => none
  | .uncounted n =>
    match (pd.pipe n).stage with
    | .ending use read =>
      some { pd.setPipe n ((pd.pipe n).replyMsg use) with
        ioBusyCount := usub read (pd.pipe n).busyWeight.toNat, stamps := pd.stamps + 1 }
    | _ => none
  | .returns n ok =>
    match (pd.pipe n).stage with
    | .answered c =>
      some (pd.setPipe n { pd.pipe n with
        type := .freeMsg
        stage := if ok ∧ c ≠ .other then .holding (c = .start) pd.ioBusyCount else .idle })
    | _ => none
  | .held n =>
    match (pd.pipe n).stage with
    | .holding start read =>
      some { pd.setPipe n { pd.pipe n with running := start, stage := .idle } with
        ioBusyCount := if start then uword (read + 1) else usub read 1 }
    | _ => none
  | .psdAbortPipe _ => some pd
  | .psdWaitPipe n =>
    if (pd.pipe n).stage.over ∧ (pd.pipe n).type ≠ .message then
      some (pd.setPipe n { pd.pipe n with type := .freeMsg })
    else none
  | .getMsg _ => some pd

/-- `weight` has the pipes that count. -/
def start (contextBackend quickIo connected : Bool) (weight : ι → Bool) : PsdDevice ι :=
  ⟨contextBackend, quickIo, connected, 0, 0, fun n => ⟨weight n, false, .freeMsg, .idle, false⟩⟩

def Reads (pd : PsdDevice ι) : Event ι → Prop
  | .psdDoPipe _ => pd.connected = true
  | .psdSendPipe _ | .pRtIsoForwardCmd _ _ => True
  | .pCompletePipe n _ => (pd.pipe n).activity = true
  | .returns n ok => ok = true ∧ (pd.pipe n).stage ≠ .answered .other
  | _ => False

def Apart (pd : PsdDevice ι) (e : Event ι) : Prop := Reads pd e → ∀ m, (pd.pipe m).stage.read = none

/-- Of an op of the library itself: its submission, its completion and the wait for it. -/
def OfLifecycle (pd : PsdDevice ι) : Event ι → Prop
  | .pCtxDoOp _ _ => True
  | .pCompletePipe n _ => ∃ deliverer, (pd.pipe n).stage = .out .lifecycle deliverer
  | .psdWaitPipe _ => True
  | _ => False

end Neptune.Activity
