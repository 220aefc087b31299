import Neptune.Lib.Run

/-! The safe eject of a device, by any number of callers at a time. A call is cut where it waits for a
handler, takes the DOS list or looks at what other calls write. What it meets there, whether there is a
`dos.library` and how a handler answers the flush and the inhibit, comes with the step. `verified`,
`inhibits` and `removed` are not in the code, nor is what a call that has returned remembers of the
latch. -/

namespace Neptune.SafeEject

def NEJECT_MAXNODES : ℕ := 32

def ERROR_ACTION_NOT_KNOWN : ℕ := 209
def ERROR_DEVICE_NOT_MOUNTED : ℕ := 218

/-- `SAFEEJECT_OK`, `SAFEEJECT_BUSY` and `SAFEEJECT_FAIL`. -/
inductive Res
  | ok
  | busy
  | fail
  deriving DecidableEq, Repr

structure NepClassMS where
  unitNo : ℕ
  device : ℕ
  ejected : Bool
  hasMounted : Bool
  deriving DecidableEq, Repr

/-- A DOS device node, and the unit of `usbscsi.device` that its startup points at. -/
structure DosEntry where
  node : ℕ
  unit : Option ℕ
  deriving DecidableEq, Repr

structure SafeEjectNode where
  node : DosEntry
  lun : ℕ
  inhibited : Bool
  deriving DecidableEq, Repr

/-- What a handler makes of ACTION_FLUSH and ACTION_INHIBIT. -/
inductive Answer
  | noTask
  | inhibited
  | error (ioErr : ℕ)
  deriving DecidableEq, Repr

structure World where
  dosLibrary : Bool
  answer : Answer
  deriving DecidableEq, Repr

/-- Where a call stands. The nodes before the present one stand in the order of the rollback. -/
inductive Call
  | test (unit : ℕ)
  | openDOS
  | latch
  | collect
  | inhibit (before rest : List SafeEjectNode)
  | rollback (before : List SafeEjectNode)
  | unlatch (res : Res)
  | remove (rest : List SafeEjectNode)
  | quiesce
  /-- Over, and whether a unit of the device was latched then. -/
  | returned (res : Res) (latched : Bool)
  deriving DecidableEq, Repr

def Call.working : Call → Bool
  | .test _ | .openDOS | .latch | .returned _ _ => false
  | _ => true

/-- The units that `nNextLUN` goes through. -/
def nNextLUN (units : List NepClassMS) (pd : ℕ) : List NepClassMS := units.filter fun l => l.device = pd

def nDosEntryMatches (lun : NepClassMS) (entry : DosEntry) : Bool := entry.unit = some lun.unitNo

def nLUNForDosEntry (units : List NepClassMS) (pd : ℕ) (entry : DosEntry) : Option NepClassMS :=
  (nNextLUN units pd).find? fun lun => nDosEntryMatches lun entry

structure NepMSBase where
  units : List NepClassMS
  devices : List DosEntry
  calls : List Call
  /-- Nodes whose handler has been inhibited, or has no process, no volume or no Inhibit. -/
  verified : List DosEntry
  inhibits : List (ℕ × DosEntry)
  removed : List (ℕ × DosEntry)
  deriving DecidableEq, Repr

namespace NepMSBase

variable (s : NepMSBase) (pd : ℕ)

def latched : Bool := (nNextLUN s.units pd).any fun l => l.ejected

def nSetEjectLatch (on : Bool) : NepMSBase :=
  { s with units := s.units.map fun l => if l.device = pd then { l with ejected := on } else l }

/-- All nodes that ride on the device, or none where there are too many. -/
def nCollectEjectNodes : Option (List SafeEjectNode) :=
  let nodes := s.devices.filterMap fun entry =>
    (nLUNForDosEntry s.units pd entry).map fun lun => ⟨entry, lun.unitNo, false⟩
  if nodes.length ≤ NEJECT_MAXNODES then some nodes else none

def nRemoveDosNode (entry : DosEntry) : NepMSBase :=
  { s with devices := s.devices.filter fun e => e ≠ entry }

def goto (c : ℕ) (call : Call) : NepMSBase := { s with calls := s.calls.set c call }

def ret (c : ℕ) (res : Res) : NepMSBase := s.goto c (.returned res (s.latched pd))

def nInhibit (c : ℕ) (answer : Answer) (before : List SafeEjectNode) (n : SafeEjectNode)
    (rest : List SafeEjectNode) : NepMSBase :=
  let passed := { s with verified := s.verified ++ [n.node] }
  match answer with
  | .noTask => passed.goto c (.inhibit (n :: before) rest)
  | .inhibited =>
    { passed with inhibits := s.inhibits ++ [(c, n.node)] }.goto c
      (.inhibit ({ n with inhibited := true } :: before) rest)
  | .error err =>
    if err = ERROR_DEVICE_NOT_MOUNTED ∨ err = ERROR_ACTION_NOT_KNOWN then
      passed.goto c (.inhibit (n :: before) rest)
    else s.goto c (.rollback before)

def release (c : ℕ) (n : SafeEjectNode) (before : List SafeEjectNode) : NepMSBase :=
  let s := if n.inhibited then { s with inhibits := s.inhibits.filter fun p => p ≠ (c, n.node) } else s
  s.goto c (.rollback before)

def drop (c : ℕ) (n : SafeEjectNode) (rest : List SafeEjectNode) : NepMSBase :=
  let unmounted := s.units.map fun l : NepClassMS =>
    if l.device = pd ∧ l.unitNo = n.lun then { l with hasMounted := false } else l
  let s := { s.nRemoveDosNode n.node with units := unmounted, removed := s.removed ++ [(c, n.node)] }
  s.goto c (.remove rest)

/-- `nSafeEjectDevice` of a call, from one place to the next. -/
def nSafeEjectDevice (c : ℕ) (w : World) : Call → Option NepMSBase
  | .test unit =>
    match s.units[unit]? with
    | some ncm => some (if ncm.ejected then s.ret pd c .ok else s.goto c .openDOS)
    | none => none
  | .openDOS => some (if w.dosLibrary then s.goto c .latch else s.ret pd c .fail)
  | .latch => some ((s.nSetEjectLatch pd true).goto c .collect)
  | .collect =>
    match s.nCollectEjectNodes pd with
    | some nodes => some (s.goto c (.inhibit [] nodes))
    | none => some (s.goto c (.unlatch .fail))
  | .inhibit before [] => some (s.goto c (.remove before.reverse))
  | .inhibit before (n :: rest) => some (s.nInhibit c w.answer before n rest)
  | .rollback [] => some (s.goto c (.unlatch .busy))
  | .rollback (n :: before) => some (s.release c n before)
  | .unlatch res => some ((s.nSetEjectLatch pd false).ret pd c res)
  | .remove [] => some (s.goto c .quiesce)
  | .remove (n :: rest) => some (s.drop pd c n rest)
  | .quiesce => some (s.ret pd c .ok)
  | .returned _ _ => none

end NepMSBase

inductive Event
  /-- `UCM_SafeEject` is called for a unit of the device, from a process or not. -/
  | call (unit : ℕ) (process : Bool)
  | go (c : ℕ) (w : World)
  deriving DecidableEq, Repr

open NepMSBase in
def step (pd : ℕ) (s : NepMSBase) : Event → Option NepMSBase
  | .call unit process =>
    match s.units[unit]? with
    | some ncm =>
      if ncm.device = pd then
        let first := if process then .test unit else .returned .fail (s.latched pd)
        some { s with calls := s.calls ++ [first] }
      else none
    | none => none
  | .go c w => s.calls[c]?.bind fun call => s.nSafeEjectDevice pd c w call

end Neptune.SafeEject
