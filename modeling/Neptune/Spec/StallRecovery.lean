import Neptune.Lib.Run
import Neptune.Spec.Interfaces

/-! The recovery of halted endpoints: completions mark them, the event handler task sweeps the marks
and sends a `CLEAR_FEATURE(ENDPOINT_HALT)` for each, and classes send their own. Any number of tasks
deliver completions and clear halts; an event is what a task does between two steps of another. -/

namespace Neptune

def UHIOERR_BABBLE : Ioerr := 13
def UHIOERR_XACTERROR : Ioerr := 15
def UHIOERR_SPLITERROR : Ioerr := 16

def USEAF_BULK : ℕ := 2
def USEAF_INTERRUPT : ℕ := 3

structure StallFlags where
  /-- `pd_Hub`: it is not a root hub. -/
  hub : Bool
  connected : Bool
  suspended : Bool
  dead : Bool
  delExpunge : Bool
  deriving DecidableEq, Repr

structure StallEp where
  epNum : ℕ
  direction : Bool
  transType : ℕ
  deriving DecidableEq, Repr

/-- A pipe at its completion; without an endpoint it is a default pipe. -/
structure Completion where
  ioerr : Ioerr
  endpoint : Option StallEp
  abortPipe : Bool
  deriving DecidableEq, Repr

/-- The bit of an endpoint in `pd_EpHaltMask`. -/
def PDEPHALT_BIT (epnum : ℕ) (isin : Bool) : Fin 32 :=
  ⟨epnum % 16 + if isin then 16 else 0, by split <;> omega⟩

namespace Completion

def halted (c : Completion) : Bool :=
  c.ioerr = UHIOERR_STALL || c.ioerr = UHIOERR_BABBLE || c.ioerr = UHIOERR_XACTERROR ||
    c.ioerr = UHIOERR_SPLITERROR

def haltedEp (c : Completion) : Option (Fin 32) :=
  match c.endpoint with
  | some pep =>
    if c.halted && !c.abortPipe &&
        (pep.transType = USEAF_BULK || pep.transType = USEAF_INTERRUPT) then
      some (PDEPHALT_BIT pep.epNum pep.direction)
    else none
  | none => none

end Completion

/-- `pMarkStalledPipe` marks endpoints of such a device. -/
def StallFlags.markable (f : StallFlags) : Bool :=
  f.hub && f.connected && !f.dead && !f.delExpunge

def StallFlags.clearable (f : StallFlags) : Bool :=
  f.connected && !f.suspended && !f.dead && !f.delExpunge

/-- Where the event handler task stands. -/
inductive StallEventPc (δ : Type)
  | loop
  /-- The request has been cleared, and `PBase` is not locked yet. -/
  | starting
  | walk (rest : List δ)
  /-- The device at hand is marked, but not to be talked to. -/
  | drop (pd : δ) (rest : List δ)
  | found (pd : δ)
  | noPipe (pd : δ)
  | bits (pd : δ) (bit : ℕ)
  /-- `pTakeEpHalt` has taken the mark, and `pClearEpHalt` has not come to `pSubmitPipe`. -/
  | clear (pd : δ) (bit : Fin 32)
  /-- `pSubmitPipe`, behind the cancelling of the mark. -/
  | submit (pd : δ) (bit : Fin 32)
  /-- The device is done, and the request is not raised again yet. -/
  | after
  deriving DecidableEq, Repr

inductive StallTaskPc (δ : Type)
  | idle
  /-- `pMarkStalledPipe`, behind its tests. -/
  | mark (pd : δ) (bit : Fin 32)
  /-- `pMarkStalledPipe`, with the mark set and the request not raised yet. -/
  | flag (pd : δ)
  /-- `pSubmitPipe` with a clear, behind the cancelling of the mark. -/
  | submit (pd : δ) (bit : Fin 32)
  deriving DecidableEq, Repr

/-- The last two fields are not stored in the code: the clears submitted since the last halt of an
endpoint, and whether a mark has been set and neither a clear been submitted since nor the mark been
given up. -/
structure StallState (δ τ : Type) where
  flags : δ → StallFlags
  devices : List δ
  mask : δ × Fin 32 → Bool
  req : Bool
  ev : StallEventPc δ
  task : τ → StallTaskPc δ
  sent : δ × Fin 32 → ℕ
  owed : δ × Fin 32 → Bool

inductive StallEvent (δ τ : Type)
  | complete (t : τ) (pd : δ) (c : Completion)
  | mark (t : τ)
  | flag (t : τ)
  /-- A class sends a clear, by `psdClearEndpointHalt` or as a raw request. -/
  | classClear (t : τ) (pd : δ) (epnum : ℕ) (isin : Bool)
  | classSubmit (t : τ)
  | sweep
  | lock
  | peek
  | drop
  | pipe (ok : Bool)
  | noPipe
  | take
  | doPipe
  | submit
  | done
  /-- Other tasks change a device, and the device lists. -/
  | change (pd : δ) (f : StallFlags)
  | link (devices : List δ)

namespace StallState

variable {δ τ : Type} [DecidableEq δ] [DecidableEq τ]

def goto (s : StallState δ τ) (t : τ) (pc : StallTaskPc δ) : StallState δ τ :=
  { s with task := Function.update s.task t pc }

def setMark (s : StallState δ τ) (ep : δ × Fin 32) (b : Bool) : StallState δ τ :=
  { s with mask := Function.update s.mask ep b }

def clearMask (s : StallState δ τ) (pd : δ) : StallState δ τ :=
  { s with
    mask := fun ep => if ep.1 = pd then false else s.mask ep
    owed := fun ep => if ep.1 = pd then false else s.owed ep }

def sendClear (s : StallState δ τ) (ep : δ × Fin 32) : StallState δ τ :=
  { s with
    sent := Function.update s.sent ep (s.sent ep + 1)
    owed := Function.update s.owed ep false }

def giveUp (s : StallState δ τ) (ep : δ × Fin 32) : StallState δ τ :=
  { s with owed := Function.update s.owed ep false }

def halt (s : StallState δ τ) (ep : δ × Fin 32) : StallState δ τ :=
  { s with sent := Function.update s.sent ep 0 }

def marked (s : StallState δ τ) (pd : δ) : Bool := decide (∃ bit, s.mask (pd, bit) = true)

def step (s : StallState δ τ) : StallEvent δ τ → Option (StallState δ τ)
  | .complete t pd c =>
    match s.task t with
    | .idle =>
      match c.haltedEp with
      | some bit =>
        if (s.flags pd).markable then some (s.goto t (.mark pd bit))
        else some (s.halt (pd, bit))
      | none => some s
    | _ => none
  | .mark t =>
    match s.task t with
    | .mark pd bit =>
      let s := (s.setMark (pd, bit) true).halt (pd, bit)
      some ({ s with owed := Function.update s.owed (pd, bit) true }.goto t (.flag pd))
    | _ => none
  | .flag t =>
    match s.task t with
    | .flag _ => some ({ s with req := true }.goto t .idle)
    | _ => none
  | .classClear t pd epnum isin =>
    match s.task t with
    | .idle =>
      let bit := PDEPHALT_BIT epnum isin
      if (s.flags pd).connected then
        some ((s.setMark (pd, bit) false).goto t (.submit pd bit))
      else none
    | _ => none
  | .classSubmit t =>
    match s.task t with
    | .submit pd bit => some ((s.sendClear (pd, bit)).goto t .idle)
    | _ => none
  | .sweep =>
    match s.ev with
    | .loop => if s.req then some { s with req := false, ev := .starting } else none
    | _ => none
  | .lock =>
    match s.ev with
    | .starting => some { s with ev := .walk s.devices }
    | _ => none
  | .peek =>
    match s.ev with
    | .walk [] => some { s with ev := .loop }
    | .walk (pd :: rest) =>
      if !s.marked pd then some { s with ev := .walk rest }
      else if !(s.flags pd).clearable then some { s with ev := .drop pd rest }
      else some { s with ev := .found pd }
    | _ => none
  | .drop =>
    match s.ev with
    | .drop pd rest => some { s.clearMask pd with ev := .walk rest }
    | _ => none
  | .pipe ok =>
    match s.ev with
    | .found pd => some { s with ev := if ok then .bits pd 1 else .noPipe pd }
    | _ => none
  | .noPipe =>
    match s.ev with
    | .noPipe pd => some { s.clearMask pd with ev := .after }
    | _ => none
  | .take =>
    match s.ev with
    | .bits pd bit =>
      if h : bit < 32 then
        if s.mask (pd, ⟨bit, h⟩) then
          some { s.setMark (pd, ⟨bit, h⟩) false with ev := .clear pd ⟨bit, h⟩ }
        else some { s with ev := .bits pd (bit + 1) }
      else some { s with ev := .after }
    | _ => none
  | .doPipe =>
    match s.ev with
    | .clear pd bit =>
      if (s.flags pd).connected then
        some { s.setMark (pd, bit) false with ev := .submit pd bit }
      else some { s.giveUp (pd, bit) with ev := .bits pd (bit + 1) }
    | _ => none
  | .submit =>
    match s.ev with
    | .submit pd bit => some { s.sendClear (pd, bit) with ev := .bits pd (bit + 1) }
    | _ => none
  | .done =>
    match s.ev with
    | .after => some { s with req := true, ev := .loop }
    | _ => none
  | .change pd f => some { s with flags := Function.update s.flags pd f }
  | .link devices =>
    match s.ev with
    | .walk _ | .drop _ _ => none
    | _ =>
      -- what comes in has just been allocated
      if ∀ pd ∈ devices, pd ∈ s.devices ∨ s.marked pd = false then
        some { s with devices := devices }
      else none

end StallState

end Neptune
