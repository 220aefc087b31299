import Neptune.Lib.Run
import Neptune.Spec.MidiTx

/-! The ports that camd opens through a driver: OpenPort, ClosePort and ActivateXmit of any tasks, the class tasks
of the bindings, unplug and rebinding. What stands under `Forbid()` is one step; a call is cut everywhere else.
Adapters and bindings have names that are not used again, so that a stale pointer is not taken for a new one. -/

namespace Neptune.CamdPorts

open Function

open CamdMidi

structure UserData where
  queued : List UInt8
  /-- ActivateXmit has been called for the open port, and no end marker given since. -/
  asked : Bool
  /-- The transmit handler has been called without that. -/
  idleCall : Bool
  deriving DecidableEq, Repr

/-- camd's transmit handler: the byte, if there is one, and whether it was the last. V40 tells the end by the
next call only. -/
def UserData.transmit (v40 : Bool) (u : UserData) : Option UInt8 × Bool × UserData :=
  match u.queued with
  | [] => (none, false, { u with asked := false, idleCall := u.idleCall || !u.asked })
  | b :: rest =>
    (some b, rest.isEmpty,
      ⟨rest, u.asked && (v40 || !rest.isEmpty), u.idleCall || !u.asked⟩)

/-- `id` and `portNum` tell who opened it; `hooks`: the driver's two hooks are in. -/
structure CAMDAdapter (α : Type) where
  id : α
  portNum : ℕ
  binding : Option ℕ
  isOpen : Bool
  txActive : Bool
  sigTask : Option ℕ
  userData : UserData
  hooks : Bool
  tx : UsbMidiTx

namespace CAMDAdapter

variable {α : Type} (v40 : Bool) (ca : CAMDAdapter α)

/-- The loop of `PullFromCAMD`, with room for so many bytes. -/
def pull (v40 : Bool) : ℕ → CAMDAdapter α → List UInt8 × CAMDAdapter α
  | 0, ca => ([], ca)
  | max + 1, ca =>
    if ca.txActive then
      let (byte, last, userData) := ca.userData.transmit v40
      let next :=
        { ca with userData := userData, txActive := ca.txActive && !(byte.isNone || (!v40 && last)) }
      match byte with
      | some b =>
        let rest := pull v40 max next
        (b :: rest.1, rest.2)
      | none => ([], next)
    else ([], ca)

def pullFromCAMD (max : ℕ) : List UInt8 × CAMDAdapter α :=
  if !ca.isOpen || !ca.txActive then ([], ca) else ca.pull v40 max

def drainLoop (v40 : Bool) (max : ℕ) : ℕ → CAMDAdapter α → CAMDAdapter α
  | 0, ca => ca
  | fuel + 1, ca =>
    let next := ca.pullFromCAMD v40 max
    if next.1 = [] then next.2 else drainLoop v40 max fuel next.2

def drain (max : ℕ) : CAMDAdapter α := drainLoop v40 max (ca.userData.queued.length + 1) ca

def ask : CAMDAdapter α := { ca with txActive := true, userData := { ca.userData with asked := true } }

def close : CAMDAdapter α :=
  { ca with isOpen := false, txActive := false, userData := { ca.userData with asked := false } }

def clear (id : α) : CAMDAdapter α := ⟨id, 0, none, false, false, none, ⟨[], false, false⟩, false, freshTx⟩

end CAMDAdapter

def txChunk : ℕ := 64

def txPullMax : ℕ := (txChunk + 1) * 4

def outbufSize : ℕ := 8192

def camdMaxPorts : ℕ := 16

def fits (out : List Packet) : Prop := out.length * 4 ≤ outbufSize - txPullMax

instance (out : List Packet) : Decidable (fits out) := inferInstanceAs (Decidable (_ ≤ _))

inductive Pc
  | wait
  | awake
  | pull (out : List Packet)
  | pulled (out : List Packet) (again : Bool)
  | send (again : Bool)
  | abort
  | freeMidi
  | freeing
  | ended
  deriving DecidableEq, Repr

inductive Bound
  | spawned
  | listed
  | released
  deriving DecidableEq, Repr

/-- `held`: `sigs` of `psdWaitPipe`; `sigs`: the task has seen CTRL-C. -/
structure NepClassMidi (α : Type) where
  shortID : α
  inCables : ℕ
  outCables : ℕ
  pc : Pc
  portSignal : Bool
  breakSignal : Bool
  sigs : Bool
  held : Bool
  bound : Bound

def NepClassMidi.numCables {α : Type} (nch : NepClassMidi α) : ℕ := max nch.inCables nch.outCables

inductive Mem
  | unused
  | live
  | freed
  deriving DecidableEq, Repr

/-- A call of OpenPort or ClosePort, by what it does next. -/
inductive Call (α : Type)
  | openPort (id : α) (port : ℕ)
  | hook (id : α) (port ca : ℕ)
  | base (id : α) (port ca : ℕ)
  | isOpen (id : α) (port ca : ℕ)
  | flags (id : α) (port ca : ℕ)
  | unlink (id : α) (port ca : ℕ)
  | free (id : α) (port ca : ℕ)

def Call.key {α : Type} : Call α → α × ℕ
  | .openPort id port | .hook id port _ | .base id port _ | .isOpen id port _ | .flags id port _
  | .unlink id port _ | .free id port _ => (id, port)

/-- The class and the drivers. The last three: a freed adapter was used, a hook called that was not in, a task
signalled that had ended. -/
structure NepMidiBase (α : Type) where
  bindings : List ℕ
  ports : List ℕ
  nch : ℕ → Option (NepClassMidi α)
  ca : ℕ → CAMDAdapter α
  mem : ℕ → Mem
  camdPortBases : α → ℕ → Option ℕ
  calls : ℕ → Option (Call α)
  usedFreed : Bool
  wildHook : Bool
  signalledEnded : Bool

inductive TaskEvent
  | go
  /-- `psdWaitPipe` takes the signal of the port. -/
  | waitPipe
  | parse (cable : ℕ)
  deriving DecidableEq, Repr

inductive Event (α : Type)
  | openPort (task : ℕ) (id : α) (portnum : ℕ)
  | closePort (task : ℕ) (id : α) (portnum : ℕ)
  /-- A step of the task's call. `slot`: what `AllocVec` gives. -/
  | call (task : ℕ) (slot : Option ℕ)
  | activateXmit (id : α) (port : ℕ)
  | queue (ca : ℕ) (b : UInt8)
  | spawn (n : ℕ) (id : α) (inJacks outJacks : Option ℕ)
  | list (n : ℕ)
  | release (n : ℕ)
  | replyPipe (n : ℕ)
  | task (n : ℕ) (e : TaskEvent)

namespace NepMidiBase

variable {α : Type} (v40 : Bool) (s : NepMidiBase α)

def touch (a : ℕ) : NepMidiBase α := { s with usedFreed := s.usedFreed || decide (s.mem a ≠ .live) }

def walk : NepMidiBase α := { s with usedFreed := s.usedFreed || s.ports.any fun a => decide (s.mem a ≠ .live) }

def setCa (a : ℕ) (ca : CAMDAdapter α) : NepMidiBase α := { s.touch a with ca := update s.ca a ca }

def setNch (n : ℕ) (c : NepClassMidi α) : NepMidiBase α := { s with nch := update s.nch n (some c) }

/-- `CallHookA` on a hook of the adapter. -/
def callHook (a : ℕ) : NepMidiBase α := { s.touch a with wildHook := s.wildHook || !(s.ca a).hooks }

def signal (n : ℕ) (f : NepClassMidi α → NepClassMidi α) : NepMidiBase α :=
  match s.nch n with
  | some c => { s.setNch n (f c) with signalledEnded := s.signalledEnded || decide (c.pc = .ended) }
  | none => { s with signalledEnded := true }

def nActivate (id : α) (port : ℕ) : NepMidiBase α :=
  match s.camdPortBases id port with
  | none => s
  | some a =>
    let s := s.touch a
    if (s.ca a).isOpen then
      match (s.ca a).sigTask with
      | some n => (s.setCa a (s.ca a).ask).signal n fun c => { c with portSignal := true }
      | none => s.setCa a ((s.ca a).ask.drain v40 16)
    else s

/-- Those of the adapters on `nh_Ports` with a binding and port. -/
def nFindPort (n port : ℕ) : Option ℕ :=
  s.ports.find? fun a => decide ((s.ca a).binding = some n ∧ (s.ca a).portNum = port)

def setCall (task : ℕ) (call : Option (Call α)) : NepMidiBase α :=
  { s with calls := update s.calls task call }

def freshAdapter (id : α) (port n : ℕ) : CAMDAdapter α :=
  { CAMDAdapter.clear id with portNum := port, binding := some n, sigTask := some n }

variable [DecidableEq α]

def nFindBinding (id : α) : Option ℕ :=
  s.bindings.find? fun n => decide ((s.nch n).map (·.shortID) = some id)

def usbCAMDOpenPort (task : ℕ) (id : α) (port : ℕ) (slot : Option ℕ) : Option (NepMidiBase α) :=
  match slot with
  | none => some (s.setCall task none)
  | some a =>
    if s.mem a = .unused then
      let s := s.walk
      match s.nFindBinding id with
      | none => some ({ s with mem := update s.mem a .freed }.setCall task none)
      | some n =>
        match s.nch n with
        | none => none
        | some c =>
          if c.pc ≠ .ended ∧ port < c.numCables ∧ s.nFindPort n port = none then
            some ({ s with
              mem := update s.mem a .live
              ca := update s.ca a (freshAdapter id port n)
              ports := s.ports ++ [a] }.setCall task (some (.hook id port a)))
          else some ({ s with mem := update s.mem a .freed }.setCall task none)
    else none

def setBase (id : α) (port : ℕ) (a : Option ℕ) : NepMidiBase α :=
  { s with camdPortBases := update s.camdPortBases id (update (s.camdPortBases id) port a) }

/-- What OpenPort, usbCAMDOpenPort, ClosePort and usbCAMDClosePort do next. -/
def call (task : ℕ) (slot : Option ℕ) : Option (NepMidiBase α) :=
  match s.calls task with
  | none => none
  | some (.openPort id port) => s.usbCAMDOpenPort task id port slot
  | some (.hook id port a) =>
    some ((s.setCa a { s.ca a with hooks := true }).setCall task (some (.base id port a)))
  | some (.base id port a) => some ((s.setBase id port (some a)).setCall task (some (.isOpen id port a)))
  | some (.isOpen _ _ a) => some ((s.setCa a { s.ca a with isOpen := true }).setCall task none)
  | some (.flags id port a) =>
    some (((s.setCa a (s.ca a).close).setBase id port none).setCall task (some (.unlink id port a)))
  | some (.unlink id port a) =>
    if a ∈ s.ports then
      some ({ s.walk with ports := s.ports.erase a }.setCall task (some (.free id port a)))
    else some (s.walk.setCall task none)
  | some (.free _ _ a) => some ({ s with mem := update s.mem a .freed }.setCall task none)

omit [DecidableEq α] in
def nPullPort (c : NepClassMidi α) (a : ℕ) (out : List Packet) : ℕ × NepMidiBase α × List Packet :=
  let s := s.callHook a
  let next := (s.ca a).pullFromCAMD v40 txChunk
  if next.2.portNum < c.outCables then
    let sent := UsbMidiTx.nTxBytes (.ofNat next.2.portNum) next.2.tx next.1
    (next.1.length, s.setCa a { next.2 with tx := sent.1 }, out ++ sent.2)
  else (next.1.length, s.setCa a next.2, out)

def nPullPorts (v40 : Bool) (n : ℕ) (c : NepClassMidi α) :
    List ℕ → NepMidiBase α → List Packet → Bool → NepMidiBase α × List Packet × Bool
  | [], s, out, got => (s, out, got)
  | a :: rest, s, out, got =>
    if fits out then
      let s := s.touch a
      if (s.ca a).binding = some n ∧ (s.ca a).txActive = true then
        let next := s.nPullPort v40 c a out
        nPullPorts v40 n c rest next.2.1 next.2.2 (got || decide (next.1 ≠ 0))
      else nPullPorts v40 n c rest s out got
    else (s, out, got)

def nFreeMidi (v40 : Bool) (n : ℕ) : List ℕ → NepMidiBase α → NepMidiBase α
  | [], s => s
  | a :: rest, s =>
    let s := s.touch a
    if (s.ca a).binding = some n then
      let ca := { s.ca a with binding := none, sigTask := none }
      if ca.isOpen then nFreeMidi v40 n rest ((s.callHook a).setCa a (ca.drain v40 txChunk))
      else nFreeMidi v40 n rest (s.setCa a ca)
    else nFreeMidi v40 n rest s

def nParseMidi (n : ℕ) (c : NepClassMidi α) (cable : ℕ) : NepMidiBase α :=
  if cable < c.inCables then
    let s := s.walk
    match s.nFindPort n cable with
    | some a => if (s.ca a).isOpen then s.callHook a else s
    | none => s
  else s

def loopEnd (sigs : Bool) : Bool → Pc
  | true => .pull []
  | false => if sigs then .abort else .wait

def task (n : ℕ) (c : NepClassMidi α) : TaskEvent → Option (NepMidiBase α)
  | .waitPipe =>
    match c.pc with
    | .send _ | .abort =>
      if c.portSignal = true then some (s.setNch n { c with portSignal := false, held := true }) else none
    | _ => none
  | .parse cable =>
    match c.pc with
    | .awake => some (s.nParseMidi n c cable)
    | _ => none
  | .go =>
    match c.pc with
    | .wait =>
      if c.portSignal = true ∨ c.breakSignal = true then
        some (s.setNch n
          { c with portSignal := false, breakSignal := false, sigs := c.breakSignal, pc := .awake })
      else none
    | .awake => some (s.setNch n { c with pc := .pull [] })
    | .pull out =>
      let next := nPullPorts v40 n c s.ports s out false
      some (next.1.setNch n { c with pc := .pulled next.2.1 next.2.2 })
    | .pulled out again =>
      if ¬ fits out ∨ (again = false ∧ out ≠ []) then some (s.setNch n { c with pc := .send again })
      else if again = true then some (s.setNch n { c with pc := .pull out })
      else some (s.setNch n { c with pc := loopEnd c.sigs false })
    | .send again =>
      some (s.setNch n { c with portSignal := c.portSignal || c.held, held := false, pc := loopEnd c.sigs again })
    | .abort => some (s.setNch n { c with portSignal := c.portSignal || c.held, held := false, pc := .freeMidi })
    | .freeMidi => some ((nFreeMidi v40 n s.ports s).setNch n { c with pc := .freeing })
    | .freeing => some (s.setNch n { c with pc := .ended })
    | .ended => none

end NepMidiBase

open NepMidiBase

variable {α : Type} [DecidableEq α] (v40 : Bool)

def step (s : NepMidiBase α) : Event α → Option (NepMidiBase α)
  | .openPort task id portnum =>
    let port := portnum % 256
    match s.calls task with
    | some _ => none
    | none =>
      if port ≥ camdMaxPorts ∨ (s.camdPortBases id port).isSome then some s
      else some (s.setCall task (some (.openPort id port)))
  | .closePort task id portnum =>
    let port := portnum % 256
    match s.calls task with
    | some _ => none
    | none =>
      if port ≥ camdMaxPorts then some s
      else
        match s.camdPortBases id port with
        | none => some s
        | some a => some (s.setCall task (some (.flags id port a)))
  | .call task slot => s.call task slot
  | .activateXmit id port => some (s.nActivate v40 id port)
  | .queue a b =>
    let u := (s.ca a).userData
    some { s with
      ca := update s.ca a { s.ca a with userData := { u with queued := u.queued ++ [b] } } }
  | .spawn n id inJacks outJacks =>
    if s.nch n = none then
      some (s.setNch n ⟨id, nCableCount inJacks, nCableCount outJacks, .wait, false, false, false, false, .spawned⟩)
    else none
  | .list n =>
    match s.nch n with
    | some c =>
      if c.bound = .spawned then
        some { s.setNch n { c with bound := .listed } with bindings := s.bindings ++ [n] }
      else none
    | none => none
  | .release n =>
    match s.nch n with
    | some c =>
      if c.bound = .listed then
        let s := { s with bindings := s.bindings.erase n }
        if c.pc = .ended then some (s.setNch n { c with bound := .released })
        else some (s.signal n fun c => { c with bound := .released, breakSignal := true })
      else none
    | none => none
  | .replyPipe n =>
    match s.nch n with
    | some c =>
      if c.pc = .freeing ∨ c.pc = .ended then none else some (s.setNch n { c with portSignal := true })
    | none => none
  | .task n e =>
    match s.nch n with
    | some c => s.task v40 n c e
    | none => none

omit [DecidableEq α] in
def init (id : α) : NepMidiBase α where
  bindings := []
  ports := []
  nch := fun _ => none
  ca := fun _ => .clear id
  mem := fun _ => .unused
  camdPortBases := fun _ _ => none
  calls := fun _ => none
  usedFreed := false
  wildHook := false
  signalledEnded := false

end Neptune.CamdPorts
