import Neptune.Lib.Run

/-! AHI's control changes: the callers record a value, mark it in `nch_UpdateFlags` and signal the binding's
task, which writes what is marked to the device. A call is cut at its three steps, the task between any two.
Who recorded a mark, and what has been set since a mode was opened, is not in the code. -/

namespace Neptune.AudioControl

inductive Control
  | input
  | output
  | masterVolume
  | inputGain
  | monitorVolume
  deriving DecidableEq, Repr

namespace Control

def rank : Control → ℕ
  | input => 0
  | output => 1
  | masterVolume => 2
  | inputGain => 3
  | monitorVolume => 4

def next : Control → Option Control
  | input => some output
  | output => some masterVolume
  | masterVolume => some inputGain
  | inputGain => some monitorVolume
  | monitorVolume => none

end Control

/-- What is known of a mode: how many inputs and outputs AHI is offered, and the transfers a control takes.
0: the mode has no such control. Those of gain and monitor are the selected input's. -/
structure NepAudioMode where
  inputNames : ℕ
  outputNames : ℕ
  outputSwitch : Bool
  selectorUnit : Bool
  outputTransfers : ℕ
  volumeTransfers : ℕ
  gainTransfers : ℤ → ℕ
  monitorTransfers : ℤ → ℕ

def NepAudioMode.transfers (nam : NepAudioMode) (input : ℤ) : Control → ℕ
  | .input => if nam.selectorUnit then 1 else 0
  | .output => nam.outputTransfers
  | .masterVolume => nam.volumeTransfers
  | .inputGain => nam.gainTransfers input
  | .monitorVolume => nam.monitorTransfers input

/-- The value is one AHI was offered, and there is something to switch. -/
def NepAudioMode.records (nam : NepAudioMode) (arg : ℤ) : Control → Bool
  | .input => decide (0 ≤ arg ∧ arg < nam.inputNames) && decide (2 ≤ nam.inputNames)
  | .output => decide (0 ≤ arg ∧ arg < nam.outputNames)
  | .masterVolume | .inputGain | .monitorVolume => true

def NepAudioMode.marks (nam : NepAudioMode) : Control → Bool
  | .output => nam.outputSwitch
  | _ => true

inductive Pc
  | wait
  /-- Before it looks at `nch_UpdateFlags`. -/
  | check
  | test (c : Control)
  /-- Before transfer `k` of `n`; the value of those before, if it was one. -/
  | transfer (c : Control) (k n : ℕ) (got : Option ℤ)
  | clear
  deriving DecidableEq, Repr

/-- `subLibHardwareControl` has recorded a value; has it set the mark? -/
structure Call where
  nam : ℕ
  control : Control
  marked : Bool
  deriving DecidableEq, Repr

structure NepClassAudio where
  currentMode : Option ℕ
  opened : ℕ → Bool
  value : ℕ → Control → ℤ
  updateFlags : Control → Bool
  signal : Bool
  calls : List Call
  pc : Pc
  /-- The task's `nam`, and the input whose unit `innau` is. -/
  nam : Option ℕ
  innau : ℤ
  recorder : Control → Option ℕ
  set : ℕ → Control → Bool
  written : Control → Option ℤ

inductive Event
  | allocAudio (nam : ℕ)
  | freeAudio (nam : ℕ)
  | control (nam : ℕ) (c : Control) (arg : ℤ)
  | mark (i : ℕ)
  | signal (i : ℕ)
  | task
  deriving DecidableEq, Repr

def upd {α β : Type} [DecidableEq α] (f : α → β) (a : α) (b : β) : α → β := fun x => if x = a then b else f x

variable (modes : ℕ → NepAudioMode)

namespace NepClassAudio

variable (s : NepClassAudio)

def anyMark : Bool :=
  s.updateFlags .input || s.updateFlags .output || s.updateFlags .masterVolume || s.updateFlags .inputGain ||
    s.updateFlags .monitorVolume

def transfers (nam : ℕ) (c : Control) : ℕ := (modes nam).transfers (s.value nam .input) c

def onward (c : Control) : NepClassAudio := { s with pc := (c.next.map .test).getD .clear }

def resetValues (nam : ℕ) : NepClassAudio :=
  { s with
    value := upd s.value nam fun c => match c with
      | .masterVolume | .inputGain | .monitorVolume => 0x10000
      | .input | .output => s.value nam c }

/-- The input whose unit the task has: it is looked up before the gain is tested. -/
def lookup (nam : ℕ) (c : Control) : ℤ := if c = .inputGain then s.value nam .input else s.innau

def task : Option NepClassAudio :=
  match s.pc with
  | .wait => if s.signal = true then some { s with signal := false, pc := .check } else none
  | .check =>
    if s.anyMark then some { s with nam := s.currentMode, pc := .test .input } else some { s with pc := .wait }
  | .test c =>
    s.nam.map fun nam =>
      let innau := s.lookup nam c
      let n := (modes nam).transfers innau c
      let s := { s with innau := innau }
      if s.updateFlags c && n != 0 then { s with pc := .transfer c 0 n none } else s.onward c
  | .transfer c k n got =>
    s.nam.map fun nam =>
      let v := s.value nam c
      let got := if k = 0 ∨ got = some v then some v else none
      if k + 1 < n then { s with pc := .transfer c (k + 1) n got }
      else { s with written := upd s.written c got }.onward c
  | .clear => some { s with updateFlags := fun _ => false, pc := .wait }

def control (nam : ℕ) (c : Control) (arg : ℤ) : NepClassAudio :=
  if (modes nam).records arg c then
    let s := { s with value := upd s.value nam (upd (s.value nam) c arg) }
    if (modes nam).marks c then
      { s with calls := s.calls ++ [⟨nam, c, false⟩], set := upd s.set nam (upd (s.set nam) c true) }
    else s
  else s

def mark (i : ℕ) (call : Call) : NepClassAudio :=
  { s with
    updateFlags := upd s.updateFlags call.control true
    recorder := upd s.recorder call.control (some call.nam)
    calls := s.calls.set i { call with marked := true } }

end NepClassAudio

open NepClassAudio

def step (s : NepClassAudio) : Event → Option NepClassAudio
  | .allocAudio nam =>
    if s.opened nam = false then
      some { s.resetValues nam with
        currentMode := some nam, opened := upd s.opened nam true, set := upd s.set nam fun _ => false }
    else none
  | .freeAudio nam =>
    if s.opened nam = true then some { s with currentMode := none, opened := upd s.opened nam false } else none
  | .control nam c arg => if s.opened nam = true then some (s.control modes nam c arg) else none
  | .mark i =>
    match s.calls[i]? with
    | some call => if call.marked = false then some (s.mark i call) else none
    | none => none
  | .signal i =>
    match s.calls[i]? with
    | some call =>
      if call.marked = true then some { s with signal := true, calls := s.calls.eraseIdx i } else none
    | none => none
  | .task => s.task modes

def init : NepClassAudio where
  currentMode := none
  opened := fun _ => false
  value := fun _ _ => 0
  updateFlags := fun _ => false
  signal := false
  calls := []
  pc := .wait
  nam := none
  innau := 0
  recorder := fun _ => none
  set := fun _ _ => false
  written := fun _ => none

end Neptune.AudioControl
