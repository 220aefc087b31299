import Neptune.Lib.Keyed
import Neptune.Lib.Run
import Neptune.Lib.Word

/-! The custom reader/writer lock (`struct PsdLockSem`) and the four calls on it. Every call
runs under `Forbid()`, which only a `Wait` breaks, so an event of the machine below is one
stretch of a task from one `Wait` (or call) to the next. -/

namespace Neptune

open Function

structure PsdReadLock (τ : Type) where
  /-- Stands for the record's address; given when the record is linked into `readLocks`. -/
  addr : ℕ
  isExcl : Bool
  task : τ
  count : ℕ
  deriving DecidableEq, Repr

structure PsdLockSem (τ : Type) where
  waitQueue : List (PsdReadLock τ)
  readLocks : List (PsdReadLock τ)
  owner : Option τ
  exclLockCount : ℕ
  sharedLockCount : ℕ
  /-- The address of the next record linked into `readLocks`. -/
  nextAddr : ℕ
  deriving DecidableEq, Repr

structure PsdBorrowLock (ι : Type) where
  lockSem : ι
  exclLockCount : ℕ
  count : ℕ
  readLock : ℕ
  deriving DecidableEq, Repr

/-- How a lock call ends its stretch: with the lock, or in `Wait(SIGF_SINGLE)` as an exclusive
or a shared waiter. -/
inductive Got
  | locked
  | wait (excl : Bool)
  deriving DecidableEq, Repr

namespace PsdLockSem

variable {τ : Type}

def pInitSem : PsdLockSem τ := ⟨[], [], none, 0, 0, 0⟩

variable [DecidableEq τ]

/-- The first record of `t` on the list of shared locks. -/
def readLock (p : PsdLockSem τ) (t : τ) : Option (PsdReadLock τ) :=
  p.readLocks.find? fun r => r.task = t

def queued (p : PsdLockSem τ) (t : τ) : Bool := p.waitQueue.any fun r => r.task = t

/-- A lender has marked the queued request of `t` exclusive. -/
def promoted (p : PsdLockSem τ) (t : τ) : Bool :=
  p.waitQueue.any fun r => r.task = t && r.isExcl

def dequeue (p : PsdLockSem τ) (t : τ) : PsdLockSem τ :=
  { p with waitQueue := Keyed.drop (·.task) t p.waitQueue }

def setCount (p : PsdLockSem τ) (addr n : ℕ) : PsdLockSem τ :=
  { p with readLocks := Keyed.modify (·.addr) addr (fun r => { r with count := n }) p.readLocks }

def setTask (p : PsdLockSem τ) (addr : ℕ) (t : τ) : PsdLockSem τ :=
  { p with readLocks := Keyed.modify (·.addr) addr (fun r => { r with task := t }) p.readLocks }

/-- `Remove`, `FreePooled` and `pls_SharedLockCount--`. -/
def dropReadLock (p : PsdLockSem τ) (addr : ℕ) : PsdLockSem τ :=
  { p with
    readLocks := Keyed.drop (·.addr) addr p.readLocks
    sharedLockCount := usub p.sharedLockCount 1 }

def takeExcl (p : PsdLockSem τ) (t : τ) : PsdLockSem τ :=
  { p with owner := some t, exclLockCount := uword (p.exclLockCount + 1) }

def takeShared (p : PsdLockSem τ) (t : τ) : PsdLockSem τ :=
  { p with
    readLocks := ⟨p.nextAddr, false, t, 1⟩ :: p.readLocks
    sharedLockCount := uword (p.sharedLockCount + 1)
    nextAddr := p.nextAddr + 1 }

/-- The tests of the `pLockSemExcl` loop. -/
def mayLockExcl (p : PsdLockSem τ) (t : τ) : Bool :=
  p.owner = some t ∨
    (p.exclLockCount = 0 ∧
      (p.sharedLockCount = 0 ∨
        (p.sharedLockCount = 1 ∧ p.readLocks.head?.map (·.task) = some t)))

/-- One pass of the `pLockSemExcl` loop; `waitprl` goes to the head of the queue. -/
def pLockSemExcl (p : PsdLockSem τ) (t : τ) : PsdLockSem τ × Got :=
  if p.mayLockExcl t then (p.takeExcl t, .locked)
  else ({ p with waitQueue := ⟨0, true, t, 0⟩ :: p.waitQueue }, .wait true)

/-- `pLockSemShared` from its `while(pls->pls_Owner)` on, with a record that is exclusive when
a lender has promoted it. Only the owner is tested, for a promoted record as well. -/
def sharedPass (p : PsdLockSem τ) (t : τ) (isExcl : Bool) : PsdLockSem τ × Got :=
  if p.owner.isSome then
    ({ p with waitQueue := p.waitQueue ++ [⟨0, isExcl, t, 0⟩] }, .wait false)
  else if isExcl then (p.takeExcl t, .locked)
  else (p.takeShared t, .locked)

/-- `pLockSemShared` up to its first `Wait`; `none` when it needs a record and the pool has
none left. -/
def pLockSemShared (p : PsdLockSem τ) (t : τ) (mem : Bool) : Option (PsdLockSem τ × Got) :=
  if p.owner = some t then
    some ({ p with exclLockCount := uword (p.exclLockCount + 1) }, .locked)
  else
    match p.readLock t with
    | some prl => some (p.setCount prl.addr (uword (prl.count + 1)), .locked)
    | none => if mem then some (p.sharedPass t false) else none

/-- What a queued task does when its `Wait(SIGF_SINGLE)` returns. -/
def wake (p : PsdLockSem τ) (t : τ) (excl : Bool) : PsdLockSem τ × Got :=
  if excl then (p.dequeue t).pLockSemExcl t
  else (p.dequeue t).sharedPass t (p.promoted t)

/-- `pUnlockSem`, with whether it comes to notify the waiting tasks. -/
def pUnlockSem (p : PsdLockSem τ) (t : τ) : PsdLockSem τ × Bool :=
  match p.owner with
  | some o =>
    if o ≠ t then (p, false)
    else if usub p.exclLockCount 1 ≠ 0 then
      ({ p with exclLockCount := usub p.exclLockCount 1 }, false)
    else ({ p with exclLockCount := usub p.exclLockCount 1, owner := none }, true)
  | none =>
    if p.sharedLockCount = 0 then (p, false)
    else
      match p.readLock t with
      | none => (p, false)
      | some prl =>
        if usub prl.count 1 ≠ 0 then (p.setCount prl.addr (usub prl.count 1), false)
        else (p.dropReadLock prl.addr, true)

/-- Move the queued record of `t` to the head, and mark it exclusive when `promote`. -/
def toHead (p : PsdLockSem τ) (t : τ) (promote : Bool) : PsdLockSem τ :=
  match p.waitQueue.find? fun r => r.task = t with
  | none => p
  | some r =>
    { p with waitQueue := { r with isExcl := r.isExcl || promote } ::
        Keyed.drop (·.task) t p.waitQueue }

end PsdLockSem

/-- The two lists of a lender: holds it moved to the target, and holds it gave up to take them
again. Each of the latter comes with a `Signal` to the target. -/
structure Borrow (ι : Type) where
  borrows : List (PsdBorrowLock ι)
  reclaims : List (PsdBorrowLock ι)
  deriving DecidableEq, Repr

namespace PsdLockSem

variable {τ ι : Type} [DecidableEq τ]

/-- `psdBorrowLocksWait` lending the ownership of `l`. A target that is queued for the lock gets
it handed over, else the owner is renamed. -/
def lendExcl (t task : τ) (mem : Bool) (l : ι) (p : PsdLockSem τ) (b : Borrow ι) :
    PsdLockSem τ × Borrow ι :=
  if p.owner = some t then
    if p.queued task then
      if mem then
        ({ p.toHead task true with exclLockCount := 0, owner := none },
          { b with reclaims := b.reclaims ++ [⟨l, p.exclLockCount, 0, 0⟩] })
      else (p.toHead task true, b)
    else if mem then
      ({ p with owner := some task },
        { b with borrows := b.borrows ++ [⟨l, p.exclLockCount, 0, 0⟩] })
    else (p, b)
  else (p, b)

/-- `psdBorrowLocksWait` lending the shared lock on `l`: handed over to a queued target, added to
the record the target has, or renamed. -/
def lendShared (t task : τ) (mem : Bool) (l : ι) (p : PsdLockSem τ) (b : Borrow ι) :
    PsdLockSem τ × Borrow ι :=
  if p.sharedLockCount = 0 then (p, b)
  else
    match p.readLock t with
    | none => (p, b)
    | some prl =>
      if p.queued task then
        if mem then
          ((p.toHead task false).dropReadLock prl.addr,
            { b with reclaims := ⟨l, 0, prl.count, prl.addr⟩ :: b.reclaims })
        else (p.toHead task false, b)
      else
        match p.readLock task with
        | some prl2 =>
          if mem then
            ((p.dropReadLock prl.addr).setCount prl2.addr (uword (prl2.count + prl.count)),
              { b with borrows := b.borrows ++ [⟨l, 0, prl.count, prl2.addr⟩] })
          else (p, b)
        | none =>
          if mem then
            (p.setTask prl.addr task,
              { b with borrows := b.borrows ++ [⟨l, 0, prl.count, prl.addr⟩] })
          else (p, b)

def lend (t task : τ) (memE memS : Bool) (l : ι) (p : PsdLockSem τ) (b : Borrow ι) :
    PsdLockSem τ × Borrow ι :=
  let r := lendExcl t task memE l p b
  lendShared t task memS l r.1 r.2

/-- One entry of the list of moved locks taken back, with the list of locks to take again. A
record that has been freed meanwhile is not touched here; the code reads freed memory then. -/
def takeBack (t task : τ) (pbl : PsdBorrowLock ι) (p : PsdLockSem τ)
    (rs : List (PsdBorrowLock ι)) : PsdLockSem τ × List (PsdBorrowLock ι) :=
  if pbl.exclLockCount ≠ 0 then
    if pbl.exclLockCount = p.exclLockCount then ({ p with owner := some t }, rs)
    else
      ({ p with exclLockCount := usub p.exclLockCount pbl.exclLockCount },
        rs ++ [pbl])
  else
    match p.readLocks.find? fun r => r.addr = pbl.readLock with
    | none => (p, rs)
    | some prl =>
      if p.owner = some task then
        if pbl.count = prl.count then (p.dropReadLock prl.addr, pbl :: rs)
        else (p.setCount prl.addr (usub prl.count pbl.count), pbl :: rs)
      else if pbl.count = prl.count then (p.setTask prl.addr t, rs)
      else (p.setCount prl.addr (usub prl.count pbl.count), pbl :: rs)

end PsdLockSem

/-- A lock call of the reclaim loop of `psdBorrowLocksWait`. -/
structure Req (ι : Type) where
  excl : Bool
  lock : ι
  deriving DecidableEq, Repr

def PsdBorrowLock.reqs {ι : Type} (pbl : PsdBorrowLock ι) : List (Req ι) :=
  List.replicate pbl.count ⟨false, pbl.lockSem⟩ ++
    List.replicate pbl.exclLockCount ⟨true, pbl.lockSem⟩

/-- Where a lock call goes on when it returns: in its caller, or in the reclaim loop. -/
inductive Cont (ι : Type)
  | caller
  | reclaim (rest : List (Req ι))
  deriving DecidableEq, Repr

/-- Where a task stands: not in one of the calls, between `pLockSemShared` without memory and the
`pLockSemExcl` it falls back to, in a lock call's `Wait`, or in the `Wait` of
`psdBorrowLocksWait`. -/
inductive Pc (τ ι : Type)
  | running
  | fallback (l : ι)
  | wait (excl : Bool) (l : ι) (k : Cont ι)
  | borrowing (task : τ) (borrows reclaims : List (PsdBorrowLock ι))
  deriving DecidableEq, Repr

/-- The locks, the tasks and their `SIGF_SINGLE`. `registered` is `ps_DeadlockDebug`, on which
each lock stands once; `own` counts the lock calls of a task less its unlock calls, which the
code does not store. -/
structure Sys (τ ι : Type) where
  sem : ι → PsdLockSem τ
  registered : { ls : List ι // ls.Nodup }
  pc : τ → Pc τ ι
  sig : τ → Bool
  own : τ → ι → ℕ

namespace Sys

variable {τ ι : Type} [DecidableEq τ] [DecidableEq ι]

def init (registered : { ls : List ι // ls.Nodup }) : Sys τ ι :=
  ⟨fun _ => .pInitSem, registered, fun _ => .running, fun _ => false, fun _ _ => 0⟩

def setSem (s : Sys τ ι) (l : ι) (p : PsdLockSem τ) : Sys τ ι :=
  { s with sem := update s.sem l p }

def setPc (s : Sys τ ι) (t : τ) (c : Pc τ ι) : Sys τ ι :=
  { s with pc := update s.pc t c }

/-- `tc_SigRecvd &= ~SIGF_SINGLE` and the `Wait`. -/
def sleep (s : Sys τ ι) (t : τ) (c : Pc τ ι) : Sys τ ι :=
  { s.setPc t c with sig := update s.sig t false }

def setOwn (s : Sys τ ι) (t : τ) (l : ι) (n : ℕ) : Sys τ ι :=
  { s with own := update s.own t (update (s.own t) l n) }

/-- One call of the reclaim loop. `Forbid()` is nested here, so without memory for a record the
call goes straight on to the exclusive lock. -/
def reclaimOne (p : PsdLockSem τ) (t : τ) (mem excl : Bool) : PsdLockSem τ × Got :=
  if excl then p.pLockSemExcl t else (p.pLockSemShared t mem).getD (p.pLockSemExcl t)

/-- The reclaim loop up to its end or the first call that has to wait. -/
def reclaim (t : τ) (mem : ι → Bool) : List (Req ι) → Sys τ ι → Sys τ ι
  | [], s => s.setPc t .running
  | r :: rest, s =>
    match reclaimOne (s.sem r.lock) t (mem r.lock) r.excl with
    | (p, .locked) => reclaim t mem rest (s.setSem r.lock p)
    | (p, .wait e) => (s.setSem r.lock p).sleep t (.wait e r.lock (.reclaim rest))

/-- A lock call has come to `r`: with the lock its task goes on at `k`. -/
def settle (s : Sys τ ι) (t : τ) (mem : ι → Bool) (l : ι) (k : Cont ι)
    (r : PsdLockSem τ × Got) : Sys τ ι :=
  match r.2, k with
  | .wait e, k => (s.setSem l r.1).sleep t (.wait e l k)
  | .locked, .caller => ((s.setSem l r.1).setOwn t l (s.own t l + 1)).setPc t .running
  | .locked, .reclaim rest => reclaim t mem rest (s.setSem l r.1)

def unlock (s : Sys τ ι) (t : τ) (l : ι) : Sys τ ι :=
  let r := (s.sem l).pUnlockSem t
  { (s.setSem l r.1).setOwn t l (s.own t l - 1) with
    sig := fun u => s.sig u || (r.2 && r.1.queued u) }

def lendAll (t task : τ) (memE memS : ι → Bool) :
    List ι → (ι → PsdLockSem τ) → Borrow ι → (ι → PsdLockSem τ) × Borrow ι
  | [], sem, b => (sem, b)
  | l :: ls, sem, b =>
    let r := PsdLockSem.lend t task (memE l) (memS l) l (sem l) b
    lendAll t task memE memS ls (update sem l r.1) r.2

/-- `psdBorrowLocksWait(task, signals)` up to its `Wait`. With nothing to lend both lists stay
empty. -/
def borrow (s : Sys τ ι) (t task : τ) (memE memS : ι → Bool) : Sys τ ι :=
  let r := lendAll t task memE memS s.registered.1 s.sem ⟨[], []⟩
  { s with
    sem := r.1
    pc := update s.pc t (.borrowing task r.2.borrows r.2.reclaims)
    sig := if r.2.reclaims = [] then s.sig else update s.sig task true }

def takeBackAll (t task : τ) :
    List (PsdBorrowLock ι) → (ι → PsdLockSem τ) → List (PsdBorrowLock ι) →
      (ι → PsdLockSem τ) × List (PsdBorrowLock ι)
  | [], sem, rs => (sem, rs)
  | pbl :: bs, sem, rs =>
    let r := PsdLockSem.takeBack t task pbl (sem pbl.lockSem) rs
    takeBackAll t task bs (update sem pbl.lockSem r.1) r.2

/-- `psdBorrowLocksWait` from its `Wait` on. -/
def giveBack (s : Sys τ ι) (t task : τ) (bs rs : List (PsdBorrowLock ι)) (mem : ι → Bool) :
    Sys τ ι :=
  let r := takeBackAll t task bs s.sem rs
  reclaim t mem (r.2.flatMap PsdBorrowLock.reqs) { s with sem := r.1 }

/-- The `Bool`s tell which pool allocations of the stretch succeed. A task calls `pUnlockSem`
only for a lock it has locked more often than unlocked. -/
inductive Event (τ ι : Type)
  | lockExcl (t : τ) (l : ι)
  | lockShared (t : τ) (l : ι) (mem : Bool)
  | fallback (t : τ)
  | unlock (t : τ) (l : ι)
  | wake (t : τ) (mem : ι → Bool)
  | borrow (t task : τ) (memE memS : ι → Bool)
  | giveBack (t : τ) (mem : ι → Bool)
  | signal (t : τ)

def step (s : Sys τ ι) : Event τ ι → Option (Sys τ ι)
  | .lockExcl t l =>
    if s.pc t = .running then
      some (s.settle t (fun _ => true) l .caller ((s.sem l).pLockSemExcl t))
    else none
  | .lockShared t l mem =>
    if s.pc t = .running then
      match (s.sem l).pLockSemShared t mem with
      | some r => some (s.settle t (fun _ => true) l .caller r)
      | none => some (s.setPc t (.fallback l))
    else none
  | .fallback t =>
    match s.pc t with
    | .fallback l => some (s.settle t (fun _ => true) l .caller ((s.sem l).pLockSemExcl t))
    | _ => none
  | .unlock t l =>
    if s.pc t = .running ∧ 0 < s.own t l then some (s.unlock t l) else none
  | .wake t mem =>
    match s.pc t with
    | .wait e l k =>
      if s.sig t then
        some ({ s with sig := update s.sig t false }.settle t mem l k
          ((s.sem l).wake t e))
      else none
    | _ => none
  | .borrow t task memE memS =>
    if s.pc t = .running ∧ task ≠ t then some (s.borrow t task memE memS) else none
  | .giveBack t mem =>
    match s.pc t with
    | .borrowing task bs rs => some (s.giveBack t task bs rs mem)
    | _ => none
  -- `SIGF_SINGLE` has other users, so it may come at any time
  | .signal t => some { s with sig := update s.sig t true }

end Sys

end Neptune
