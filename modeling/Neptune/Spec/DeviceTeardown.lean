import Neptune.Lib.Run
import Neptune.Lib.Word

/-! One device from `psdFreeDevice` on: its use counter, `PDFF_DELEXPUNGE`, the collector in
`psdFreePipe` and the two loops of `psdRemHardware`. Any number of tasks run the calls; what one
task does between two steps of another is one event. -/

namespace Neptune

/-- The list of its hardware a device is linked into. -/
inductive Node
  | devices
  | deadDevices
  | removed
  deriving DecidableEq, Repr

/-- Where a task stands in a call on the device. -/
inductive Frame
  /-- `psdFreeDevice` or `pFreeBindings`, from the list of dead devices to `psdLockWriteDevice`. -/
  | unlinked
  /-- The same, releasing the bindings with the device locked. -/
  | release
  /-- `pFreeDevice` up to `psdLockWriteDevice`. -/
  | enter
  | test
  /-- Pipes in use have been found, but `PDFF_DELEXPUNGE` is not set yet. -/
  | defer
  /-- The teardown branch, up to `hop_DestroyDevice`. -/
  | contents
  | destroy
  /-- `hop_DestroyDevice`, with an EP0 pipe of its own. -/
  | destroyPipe
  /-- The teardown branch, from `psdUnlockDevice` on. -/
  | unlock
  | remove
  /-- The wait loop of `psdRemHardware`, with its `cnt`. -/
  | poll (cnt : ℕ)
  | decide
  | abandon
  | abandonRemove
  deriving DecidableEq, Repr

/-- A device as the removal sees it. The last four fields are not stored in the code: the pipes
allocated and not freed, whether the device has been freed, whether it has been abandoned, and
how often the teardown branch has been entered. -/
structure Dev (τ : Type) where
  useCnt : ℕ
  delExpunge : Bool
  node : Node
  /-- The task that has the device locked, with how many locks. -/
  lock : Option (τ × ℕ)
  calls : τ → List Frame
  pipes : ℕ
  freed : Bool
  abandoned : Bool
  torn : ℕ

namespace Dev

variable {τ : Type} [DecidableEq τ]

def init : Dev τ := ⟨0, false, .devices, none, fun _ => [], 0, false, false, 0⟩

def setCalls (d : Dev τ) (t : τ) (fs : List Frame) : Dev τ :=
  { d with calls := Function.update d.calls t fs }

/-- `psdLockWriteDevice`; `none` while another task has the lock. -/
def lockWriteDevice (d : Dev τ) (t : τ) : Option (Dev τ) :=
  match d.lock with
  | none => some { d with lock := some (t, 1) }
  | some (o, n) => if o = t then some { d with lock := some (t, n + 1) } else none

def unlockDevice (d : Dev τ) : Dev τ :=
  match d.lock with
  | none => d
  | some (o, n) => { d with lock := if n ≤ 1 then none else some (o, n - 1) }

/-- The part of `psdFreePipe` under `Forbid()`, with `collect`. The counter saturates. -/
def dropUse (d : Dev τ) : Dev τ × Bool :=
  let d := { d with useCnt := if d.useCnt ≠ 0 then usub d.useCnt 1 else d.useCnt }
  (d, d.useCnt = 0 && d.delExpunge)

/-- `psdFreePipe` of `t`, which goes on with `rest`. -/
def freePipe (d : Dev τ) (t : τ) (rest : List Frame) : Dev τ :=
  let r := d.dropUse
  r.1.setCalls t (if r.2 then .enter :: rest else rest)

/-- The next stretch of the innermost call of `t`. `pipe` tells whether `hop_DestroyDevice` comes
to have a pipe of its own (with a context backend, a handle, the hardware task and memory). -/
def advance (d : Dev τ) (t : τ) (pipe : Bool) (rest : List Frame) : Frame → Option (Dev τ)
  | .unlinked => (d.lockWriteDevice t).map fun d => d.setCalls t (.release :: rest)
  | .release => some (d.unlockDevice.setCalls t (.enter :: rest))
  | .enter => (d.lockWriteDevice t).map fun d => d.setCalls t (.test :: rest)
  | .test =>
    if d.useCnt ≠ 0 then some (d.setCalls t (.defer :: rest))
    else some ({ d with torn := d.torn + 1 }.setCalls t (.contents :: rest))
  | .defer => some ({ d with delExpunge := true }.unlockDevice.setCalls t rest)
  | .contents => some ({ d with delExpunge := false }.setCalls t (.destroy :: rest))
  | .destroy =>
    if pipe then
      some ({ d with useCnt := uword (d.useCnt + 1) }.setCalls t (.destroyPipe :: rest))
    else some (d.setCalls t (.unlock :: rest))
  | .destroyPipe => some (d.freePipe t (.unlock :: rest))
  | .unlock => some (d.unlockDevice.setCalls t (.remove :: rest))
  | .remove => some ({ d with node := .removed }.setCalls t rest)
  | .poll cnt =>
    if d.useCnt ≠ 0 ∧ cnt + 1 < 30 then some (d.setCalls t (.poll (cnt + 1) :: rest))
    else some (d.setCalls t (.decide :: rest))
  | .decide =>
    if d.useCnt ≠ 0 then some ({ d with abandoned := true }.setCalls t (.abandon :: rest))
    else some (d.setCalls t (.enter :: rest))
  | .abandon =>
    (d.lockWriteDevice t).map fun d =>
      { d with delExpunge := false }.unlockDevice.setCalls t (.abandonRemove :: rest)
  | .abandonRemove => some ({ d with node := .removed }.setCalls t rest)

inductive Event (τ : Type)
  | freeDevice (t : τ)
  /-- The first loop of `psdRemHardware` comes to the device. -/
  | freeBindings (t : τ)
  | remDead (t : τ)
  | advance (t : τ) (pipe : Bool)
  | allocPipe (t : τ)
  | freePipe (t : τ)
  deriving DecidableEq, Repr

/-- A task has other code to run: its own, or a class's or hook's that releases a binding. -/
def mayCall (d : Dev τ) (t : τ) : Bool :=
  d.calls t = [] || (d.calls t).head? = some .release

def step (d : Dev τ) : Event τ → Option (Dev τ)
  | .freeDevice t =>
    if d.calls t = [] ∧ d.node = .devices then
      some ({ d with node := .deadDevices, delExpunge := false, freed := true }.setCalls t
        [.unlinked])
    else none
  | .freeBindings t =>
    if d.calls t = [] ∧ d.node = .devices then
      some ({ d with node := .deadDevices, freed := true }.setCalls t [.unlinked])
    else none
  | .remDead t =>
    if d.calls t = [] ∧ d.node = .deadDevices then some (d.setCalls t [.poll 0]) else none
  | .advance t pipe =>
    match d.calls t with
    | [] => none
    | f :: rest => d.advance t pipe rest f
  | .allocPipe t =>
    if d.mayCall t then some { d with useCnt := uword (d.useCnt + 1), pipes := d.pipes + 1 }
    else none
  | .freePipe t =>
    if d.mayCall t ∧ 0 < d.pipes then
      some ({ d with pipes := d.pipes - 1 }.freePipe t (d.calls t))
    else none

end Dev

end Neptune
