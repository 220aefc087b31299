import Neptune.Lib.Run

/-! Methods of a hub binding that the hub task carries out for another task: the message lies on the
caller's stack, and comes back by the caller's reply port. A call is cut where other tasks may run. What
is under `Forbid()` is one step. `posted` and `ended` are not in the code. -/

namespace Neptune.HubMethod

/-- Where a call of `usbDoMethodA` stands. -/
inductive Call
  | none
  /-- With its reply port, or with none where `CreateMsgPort` has failed. -/
  | enter
  /-- In the first wait of `nHubMethodWait`. -/
  | wait
  /-- Told to quit, and on the way to the `Forbid()` of `nHubMethodTakeBack`. -/
  | takeBack
  | getMsg
  | waitReply
  | returned
  /-- Has posted to a port, or walked the list of a port, that is no more. -/
  | lost
  deriving DecidableEq, Repr

inductive End
  | handled
  | flushed
  | takenBack
  deriving DecidableEq, Repr

structure Caller where
  call : Call
  cancellable : Bool
  /-- The messages in `mn_ReplyPort`. -/
  replyPort : Option (List ℕ)
  replySig : Bool
  ctrlC : Bool
  nhmResult : BitVec 32

inductive HubTask
  | alloc
  | serving
  | handling (m : ℕ)
  /-- In `nFreeHub`, before its `Forbid()`. -/
  | freeing
  | gone
  deriving DecidableEq, Repr

structure NepClassHub where
  /-- `nch_Task` is not NULL. -/
  task : Bool
  ctrlMsgPort : Option (List ℕ)
  hub : HubTask
  callers : ℕ → Caller
  posted : List ℕ
  ended : List (ℕ × End)

inductive Event
  | ready
  | call (c : ℕ) (cancellable replyPort : Bool)
  | direct (c : ℕ) (result : BitVec 32)
  | put (c : ℕ)
  | quit (c : ℕ)
  | wake (c : ℕ)
  | takeBack (c : ℕ)
  | getMsg (c : ℕ)
  | wakeReply (c : ℕ)
  | take
  | handled (result : BitVec 32)
  | leave
  | free
  deriving DecidableEq, Repr

namespace NepClassHub

variable (s : NepClassHub)

def set (c : ℕ) (k : Caller) : NepClassHub := { s with callers := Function.update s.callers c k }

def goto (c : ℕ) (call : Call) : NepClassHub := s.set c { s.callers c with call := call }

def ret (c : ℕ) : NepClassHub := s.set c { s.callers c with call := .returned, replyPort := none }

def replyMsg (m : ℕ) (how : End) : NepClassHub :=
  { s.set m
      { s.callers m with
        replyPort := (s.callers m).replyPort.map (· ++ [m])
        replySig := true } with
    ended := s.ended ++ [(m, how)] }

/-- `PutMsg`, if there is a task to put it to. -/
def putMsg (c : ℕ) : NepClassHub :=
  if s.task = true ∧ (s.callers c).replyPort.isSome = true then
    match s.ctrlMsgPort with
    | none => s.goto c .lost
    | some q =>
      { s.goto c (if (s.callers c).cancellable then .wait else .getMsg) with
        ctrlMsgPort := some (q ++ [c])
        posted := s.posted ++ [c] }
  else s.ret c

/-- Waits for the answer or for CTRL-C, which is set again for the caller to act on. -/
def nHubMethodWait (c : ℕ) : NepClassHub :=
  s.set c { s.callers c with replySig := false, call := if (s.callers c).ctrlC then .takeBack else .getMsg }

def nHubMethodTakeBack (c : ℕ) : NepClassHub :=
  match s.ctrlMsgPort with
  | none => s.goto c .lost
  | some q =>
    if c ∈ q then
      { s.ret c with
        ctrlMsgPort := some (q.erase c)
        ended := s.ended ++ [(c, .takenBack)] }
    else s.goto c .getMsg

def getMsg (c : ℕ) : NepClassHub :=
  match (s.callers c).replyPort with
  | some (_ :: _) => s.ret c
  | _ => s.goto c .waitReply

def handled (result : BitVec 32) : Option NepClassHub :=
  match s.hub with
  | .handling m =>
    some { (s.set m { s.callers m with nhmResult := result }).replyMsg m .handled with hub := .serving }
  | _ => none

/-- The end of `nFreeHub`: what is in the queue goes back as it is. -/
def nFreeHub : NepClassHub :=
  { (s.ctrlMsgPort.getD []).foldl (fun s m => s.replyMsg m .flushed) s with
    task := false
    ctrlMsgPort := none
    hub := .gone }

end NepClassHub

def init : NepClassHub where
  task := false
  ctrlMsgPort := none
  hub := .alloc
  callers := fun _ => ⟨.none, false, none, false, false, 0⟩
  posted := []
  ended := []

def step (s : NepClassHub) : Event → Option NepClassHub
  | .ready =>
    if s.hub = .alloc then some { s with task := true, ctrlMsgPort := some [], hub := .serving } else none
  | .call c cancellable replyPort =>
    if (s.callers c).call = .none then
      some (s.set c
        { s.callers c with
          call := .enter
          cancellable := cancellable
          replyPort := if replyPort then some [] else none })
    else none
  | .direct c result =>
    if (s.callers c).call = .enter ∧ s.task = true then
      some (s.set c { s.callers c with call := .returned, replyPort := none, nhmResult := result })
    else none
  | .put c => if (s.callers c).call = .enter then some (s.putMsg c) else none
  | .quit c => some (s.set c { s.callers c with ctrlC := true })
  | .wake c =>
    if (s.callers c).call = .wait ∧ ((s.callers c).replySig = true ∨ (s.callers c).ctrlC = true) then
      some (s.nHubMethodWait c)
    else none
  | .takeBack c => if (s.callers c).call = .takeBack then some (s.nHubMethodTakeBack c) else none
  | .getMsg c => if (s.callers c).call = .getMsg then some (s.getMsg c) else none
  | .wakeReply c =>
    if (s.callers c).call = .waitReply ∧ (s.callers c).replySig = true then
      some (s.set c { s.callers c with replySig := false, call := .getMsg })
    else none
  | .take =>
    if s.hub = .serving then
      match s.ctrlMsgPort with
      | some (m :: q) => some { s with ctrlMsgPort := some q, hub := .handling m }
      | _ => none
    else none
  | .handled result => s.handled result
  | .leave => if s.hub = .serving then some { s with hub := .freeing } else none
  | .free => if s.hub = .freeing then some s.nFreeHub else none

end Neptune.HubMethod
