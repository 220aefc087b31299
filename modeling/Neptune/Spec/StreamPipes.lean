import Neptune.Lib.Linked
import Neptune.Spec.StreamRead

/-! Where the pipes of a pipe stream are: `psdStreamRead`, `psdStreamWrite`, `psdStreamFlush` and `psdSetAttrsA` with
`PGA_PIPESTREAM`, with the message nodes linked as they are in memory. A call goes on one loop body or one wait at a
time; the transfers end in between. `psdAbortPipe` is a wish: the transfer of a pipe may end at any time, with any
error. -/

namespace Neptune.StreamPipes

open Linked (Links)
open PipeStream (readScan writeScan)
open StreamRead (IoErr copyMem)

/-- `pps_FreePipes`, `pps_ReadyPipes` and the list of a message port. -/
inductive ListId
  | free
  | ready
  | port (mp : ℕ)
  deriving DecidableEq

inductive NodeType
  | message
  | replyMsg
  | freeMsg
  deriving DecidableEq

/-- `slot` is where in `pps_Buffer` the data goes to, `none` with the memory of a caller. -/
structure PsdPipe where
  num : ℕ
  msgPort : ℕ
  type : NodeType
  inPlace : Bool
  slot : Option ℕ
  length : ℕ
  actual : ℕ
  error : IoErr

def PsdPipe.failed (pp : PsdPipe) : Bool :=
  match pp.error with
  | .none => false
  | .nakTimeout => decide (pp.actual = 0)
  | .other => true

structure Flags where
  asyncIo : Bool
  bufferRead : Bool
  bufferWrite : Bool
  readAhead : Bool
  shortTerm : Bool
  doNotWait : Bool

/-- The tags of a call; `some none` is a `PSA_MessagePort` that is NULL. -/
structure Tags where
  msgPort : Option (Option ℕ)
  numPipes : Option ℕ
  bufferSize : Option ℕ
  flags : Flags → Flags
  termArray : Option (Option (ℕ → UInt8))

/-- What a write goes on with once its pipe is back: the bytes that are left and the number of those taken. -/
inductive Stage
  | plain
  | pend (data : List UInt8) (actual : ℕ)
  | bulk (data : List UInt8) (actual : ℕ)

/-- Where the call that holds `pps_AccessLock` is. `todo` are the pipes of the array a loop has not come to. -/
inductive Pc
  | idle
  | read (length : Option ℕ)
  | collect (length : Option ℕ) (actual : ℕ) (term : Bool)
  | drain (length actual : ℕ) (term : Bool)
  | send (length actual : ℕ) (term : Bool)
  | slow (length actual : ℕ) (term : Bool) (remlen : ℕ)
  | wait (length actual : ℕ)
  | plainWait (n : ℕ)
  | write (data : List UInt8)
  | bulk (n : ℕ) (data : List UInt8) (actual : ℕ)
  | rest (data : List UInt8) (actual : ℕ)
  | await (n : ℕ) (stage : Stage)
  | waitPipe (n : ℕ) (stage : Stage)
  | flush
  | flushWait (todo : List (Option ℕ))
  | flushReady
  | flushPort
  | flushOut (n : ℕ)
  | setAttrs (tags : Tags)
  | freeOld (todo : List (Option ℕ))
  | alloc

def Pc.isIdle : Pc → Bool
  | .idle => true
  | _ => false

/-- `pipes` is `pps_Pipes` with the pipes by number of allocation, `allocated` how many there have been so far.
`deleted` are the ports whose memory is gone; `wild` is set when a message is replied to one of them, or looked for on
it. `result` is what the last call on the stream has returned. -/
structure PsdPipeStream where
  direction : Bool
  maxPktSize : ℕ
  flags : Flags
  termArray : Option (ℕ → UInt8)
  bufferSize : ℕ
  numPipes : ℕ
  msgPort : Option ℕ
  ownMsgPort : Bool
  pipes : Option (List (Option ℕ))
  buffer : ℕ → UInt8
  offset : ℕ
  bytesPending : ℕ
  reqBytes : ℕ
  links : Links ListId ℕ
  pipe : ℕ → PsdPipe
  allocated : ℕ
  deleted : List ℕ
  wild : Bool
  pc : Pc
  result : ℤ

/-- `psdOpenStreamA`, in its call of `psdSetAttrsA`. -/
def openStream (direction : Bool) (maxPktSize : ℕ) (tags : Tags) : PsdPipeStream where
  direction := direction
  maxPktSize := maxPktSize
  flags := ⟨false, direction, false, direction, false, false⟩
  termArray := none
  bufferSize := if direction then 32 * maxPktSize else 4 * maxPktSize
  numPipes := 4
  msgPort := none
  ownMsgPort := false
  pipes := none
  buffer := fun _ => 0
  offset := 0
  bytesPending := 0
  reqBytes := 0
  links := .empty
  pipe := fun _ => ⟨0, 0, .freeMsg, false, none, 0, 0, .none⟩
  allocated := 0
  deleted := []
  wild := false
  pc := .setAttrs tags
  result := 0

/-- What a call finds: `PDFF_CONNECTED`, whether memory is allocated and a port is created, and the pipes the endpoint
has stream IDs for, if it has any. -/
structure World where
  connected : Bool
  memory : Bool
  port : Option ℕ
  usable : Option ℕ

namespace PsdPipeStream

variable (pps : PsdPipeStream)

def returns (result : ℤ) : PsdPipeStream := { pps with pc := .idle, result := result }

def setPipe (n : ℕ) (pp : PsdPipe) : PsdPipeStream := { pps with pipe := Function.update pps.pipe n pp }

def addTail (l : ListId) (n : ℕ) : PsdPipeStream := { pps with links := pps.links.addTail l n }

def remove (n : ℕ) : PsdPipeStream := { pps with links := pps.links.remove n }

def firstFree : Option ℕ := pps.links.first .free

def atPort (mp : ℕ) : PsdPipeStream := { pps with wild := pps.wild || decide (mp ∈ pps.deleted) }

def submit (n : ℕ) (slot : Option ℕ) (length : ℕ) : PsdPipeStream :=
  pps.setPipe n { pps.pipe n with type := .message, slot := slot, length := length }

def psdSendPipe (n : ℕ) (slot : Option ℕ) (length : ℕ) : PsdPipeStream := pps.submit n slot length

/-- The rest of `psdWaitPipe`, once the pipe is no longer pending: it is looked for on its port. -/
def psdWaitPipe (n : ℕ) : PsdPipeStream :=
  let pp := pps.pipe n
  if pp.type = .replyMsg then
    let next := (pps.atPort pp.msgPort).setPipe n { pp with type := .freeMsg }
    if n ∈ pps.links.items (.port pp.msgPort) (pps.allocated + 2) then next.remove n else next
  else pps

/-- `psdDoPipe` without a device to do it. -/
def psdDoPipeGone (n : ℕ) : PsdPipeStream :=
  pps.setPipe n { pps.pipe n with type := .freeMsg, actual := 0, error := .other }

def psdStreamRead (length : Option ℕ) (w : World) : PsdPipeStream :=
  if pps.pipes.isNone ∨ pps.direction = false then pps.returns (-1)
  else if pps.flags.asyncIo then pps.returns 0
  else if pps.flags.bufferRead then { pps with pc := .collect length 0 false }
  else
    match pps.firstFree with
    | none => pps.returns 0
    | some n =>
      if length = some 0 then pps.returns 0
      else if w.connected then { pps.submit n none (length.getD (2 ^ 32 - 1)) with pc := .plainWait n }
      else (pps.psdDoPipeGone n).returns 0

def getMsg (n : ℕ) (links : Links ListId ℕ) (length : Option ℕ) (actual : ℕ) (term : Bool) : PsdPipeStream :=
  let pp := pps.pipe n
  let next := { pps with links := links, reqBytes := pps.reqBytes - pp.length }
  if pp.failed then
    { next.addTail .free n with flags := { pps.flags with readAhead := false }, pc := .collect length actual true }
  else { next.addTail .ready n with bytesPending := pps.bytesPending + pp.actual, pc := .collect length actual term }

def dataOf (pp : PsdPipe) (length : ℕ) : List UInt8 :=
  (List.range length).map fun i => pps.buffer (pp.num * pps.bufferSize + pps.offset + i)

/-- The bytes taken from a packet, and whether a termination character ended them. -/
def take (pp : PsdPipe) (length : ℕ) : ℕ × Bool :=
  let remlen := min length (pp.actual - pps.offset)
  if pp.inPlace then (remlen, false)
  else
    match pps.termArray with
    | some tarrptr =>
      let scan := readScan tarrptr (pps.dataOf pp remlen)
      (scan.taken.length, scan.found)
    | none => (remlen, false)

def copyPacket (n length actual : ℕ) (term : Bool) : PsdPipeStream :=
  let pp := pps.pipe n
  let taken := pps.take pp length
  let next := { pps with bytesPending := pps.bytesPending - taken.1, offset := pps.offset + taken.1 }
  if next.offset = pp.actual then
    let short := pps.flags.shortTerm && decide (pp.actual % pps.maxPktSize ≠ 0)
    let term := term || taken.2 || short
    let used := { (next.remove n).addTail .free n with offset := 0 }
    { used with pc := if term then .send (length - taken.1) (actual + taken.1) term
        else .drain (length - taken.1) (actual + taken.1) term }
  else
    let term := term || taken.2
    { next with pc := if term then .send (length - taken.1) (actual + taken.1) term
        else .drain (length - taken.1) (actual + taken.1) term }

def drain (length actual : ℕ) (term : Bool) : PsdPipeStream :=
  if length = 0 ∨ pps.bytesPending = 0 then { pps with pc := .send length actual term }
  else
    match pps.links.first .ready with
    | none => pps.returns (-1)
    | some n =>
      if (pps.pipe n).actual < pps.offset then pps.returns (-1) else pps.copyPacket n length actual term

def sendFast (length actual : ℕ) (term : Bool) : PsdPipeStream :=
  if pps.bytesPending = 0 ∧ pps.reqBytes = 0 ∧ pps.termArray.isNone ∧ pps.bufferSize ≤ length then
    match pps.firstFree with
    | none => { pps with pc := .slow length actual term length }
    | some n =>
      let remlen := length - length % pps.maxPktSize
      let next := (pps.setPipe n { pps.pipe n with inPlace := true }).remove n
      { next.psdSendPipe n none remlen with
        reqBytes := pps.reqBytes + remlen
        pc := .slow length actual term remlen }
  else { pps with pc := .slow length actual term length }

def passEnd (length actual : ℕ) (term : Bool) : PsdPipeStream :=
  if term ∨ length = 0 ∨ pps.flags.doNotWait then pps.returns actual else { pps with pc := .wait length actual }

def sendSlow (length actual : ℕ) (term : Bool) (remlen : ℕ) : PsdPipeStream :=
  match pps.firstFree with
  | none => pps.passEnd length actual term
  | some n =>
    if pps.reqBytes < remlen ∨ pps.flags.readAhead then
      let remlen := if pps.flags.readAhead ∨ remlen % pps.maxPktSize ≠ 0 then pps.bufferSize else remlen
      let next := (pps.setPipe n { pps.pipe n with inPlace := false }).remove n
      { next.psdSendPipe n (some ((pps.pipe n).num * pps.bufferSize)) remlen with
        reqBytes := pps.reqBytes + remlen
        pc := .slow length actual term remlen }
    else pps.passEnd length actual term

def sendWrite (n : ℕ) (slot : Option ℕ) (length : ℕ) (stage : Stage) : PsdPipeStream :=
  { (pps.remove n).psdSendPipe n slot length with pc := .await n stage }

/-- `CopyMem()` behind the bytes that are pending. -/
def pendBytes (data : List UInt8) : PsdPipeStream :=
  { pps with buffer := copyMem pps.buffer pps.bytesPending data, bytesPending := pps.bytesPending + data.length }

def pendLength (length : ℕ) : ℕ :=
  let remlen := pps.bytesPending % pps.maxPktSize
  if pps.maxPktSize ≤ remlen + length then
    if pps.bytesPending + length ≤ pps.bufferSize then
      pps.bytesPending + length - (pps.bytesPending + length) % pps.maxPktSize - pps.bytesPending
    else pps.maxPktSize - remlen
  else length

def toWrite (data : List UInt8) : List UInt8 :=
  match pps.termArray with
  | some tarrptr => (writeScan tarrptr data).taken
  | none => data

def psdStreamWrite (data : List UInt8) : PsdPipeStream :=
  if pps.pipes.isNone ∨ pps.direction then pps.returns (-1)
  else
    let data := pps.toWrite data
    if pps.flags.asyncIo then pps.returns 0
    else
      match pps.firstFree with
      | none => pps.returns 0
      | some n =>
        if data = [] then pps.returns 0
        else if pps.flags.bufferWrite then
          if pps.bytesPending = 0 then { pps with pc := .bulk n data 0 }
          else
            let remlen := pps.pendLength data.length
            let next := pps.pendBytes (data.take remlen)
            let data := data.drop remlen
            if next.maxPktSize ≤ data.length ∨
                next.bufferSize / 2 ≤ next.bytesPending ∧ next.maxPktSize ≤ next.bytesPending then
              next.sendWrite n (some 0) (next.bytesPending - next.bytesPending % next.maxPktSize) (.pend data remlen)
            else { next with pc := .bulk n data remlen }
        else pps.sendWrite n none data.length .plain

def sendBulk (n : ℕ) (data : List UInt8) (actual : ℕ) : PsdPipeStream :=
  if pps.maxPktSize ≤ data.length then
    pps.sendWrite n none (data.length - data.length % pps.maxPktSize) (.bulk data actual)
  else { pps with pc := .rest data actual }

def bufferRest (data : List UInt8) (actual : ℕ) : PsdPipeStream := (pps.pendBytes data).returns (actual + data.length)

def written (n : ℕ) (stage : Stage) : PsdPipeStream :=
  let pp := pps.pipe n
  let next := pps.addTail .free n
  match stage with
  | .plain => next.returns pp.actual
  | .pend data actual =>
    let moved := { next with
      bytesPending := pps.bytesPending - pp.actual
      buffer := fun i => if i < pps.bytesPending - pp.actual then pps.buffer (i + pp.actual) else pps.buffer i }
    if pp.error = .none then { moved with pc := .bulk n data actual } else moved.returns actual
  | .bulk data actual =>
    if pp.error = .none then { next with pc := .rest (data.drop pp.actual) (actual + pp.actual) }
    else next.returns (actual + pp.actual)

def psdStreamFlush (w : World) : Option PsdPipeStream :=
  if pps.direction then pps.pipes.map fun pipes => { pps with pc := .flushWait pipes }
  else
    match pps.firstFree with
    | none => some (pps.returns 0)
    | some n =>
      if pps.bytesPending = 0 then some (pps.returns 1)
      else if w.connected then some { (pps.remove n).submit n (some 0) pps.bytesPending with pc := .flushOut n }
      else some { (((pps.remove n).psdDoPipeGone n).addTail .free n).returns 0 with bytesPending := 0 }

def flushed (n : ℕ) : PsdPipeStream :=
  { (pps.addTail .free n).returns (if (pps.pipe n).error = .none then 1 else 0) with bytesPending := 0 }

/-- `pps_ReadyPipes` of an IN stream. -/
def flushReady : PsdPipeStream :=
  match pps.links.first .ready with
  | some n => { (pps.remove n).addTail .free n with pc := .flushReady }
  | none => { pps with pc := .flushPort }

def flushPort : Option PsdPipeStream :=
  pps.msgPort.map fun mp =>
    match pps.links.remHead (.port mp) with
    | some (n, links) => { { pps with links := links }.addTail .free n with pc := .flushPort }
    | none => { pps.returns 1 with reqBytes := 0, bytesPending := 0, offset := 0 }

/-- The ports that are gone after the tags: the stream's own, which another takes the place of. The port of the tags is
there. -/
def deletePort (tags : Tags) : List ℕ :=
  match tags.msgPort with
  | none => pps.deleted
  | some msgPort =>
    (if pps.ownMsgPort then pps.msgPort.toList else []) ++ pps.deleted.filter fun mp => msgPort ≠ some mp

def packTags (tags : Tags) (w : World) : PsdPipeStream :=
  let numPipes := tags.numPipes.getD pps.numPipes
  { pps with
    flags := tags.flags pps.flags
    termArray := tags.termArray.getD pps.termArray
    numPipes := max 1 (match w.usable with
      | some usable => min numPipes usable
      | none => numPipes)
    bufferSize := max pps.maxPktSize (tags.bufferSize.getD pps.bufferSize)
    msgPort := tags.msgPort.getD pps.msgPort
    ownMsgPort := pps.ownMsgPort && tags.msgPort.isNone
    deleted := pps.deletePort tags }

def createPort (w : World) : PsdPipeStream :=
  match pps.msgPort, w.port with
  | none, some mp =>
    { pps with
      msgPort := some mp
      ownMsgPort := true
      links := pps.links.newList (.port mp)
      deleted := pps.deleted.filter (· ≠ mp) }
  | _, _ => pps

def reallocates (tags : Tags) (w : World) : Bool :=
  let next := pps.packTags tags w
  decide (pps.bufferSize ≠ next.bufferSize) || decide (pps.numPipes ≠ next.numPipes) || pps.pipes.isNone

def psdSetAttrs (tags : Tags) (w : World) : PsdPipeStream :=
  let next := (pps.packTags tags w).createPort w
  { next with pc := if pps.reallocates tags w then .freeOld (pps.pipes.getD []) else .idle }

def resetLists (w : World) : PsdPipeStream :=
  { pps with
    links := (pps.links.newList .free).newList .ready
    offset := 0
    bytesPending := 0
    reqBytes := 0
    pipes := if w.memory then some [] else none
    pc := if w.memory then .alloc else .idle }

def allocPipe (w : World) : PsdPipeStream :=
  let pipes := pps.pipes.getD []
  if pipes.length < pps.numPipes then
    match pps.msgPort with
    | some mp =>
      if w.memory then
        let n := pps.allocated
        let next := (pps.setPipe n ⟨pipes.length, mp, .freeMsg, false, none, 0, 0, .none⟩).addTail .free n
        { next with pipes := some (pipes ++ [some n]), allocated := n + 1, pc := .alloc }
      else { pps with pipes := some (pipes ++ [none]), pc := .alloc }
    | none => { pps with pipes := some (pipes ++ [none]), pc := .alloc }
  else { pps with pc := .idle }

/-- The call goes on; `none` where it waits for a pipe or goes through a NULL pointer. -/
def go (w : World) : Option PsdPipeStream :=
  match pps.pc with
  | .idle => none
  | .read length => some (pps.psdStreamRead length w)
  | .collect length actual term =>
    pps.msgPort.map fun mp =>
      match pps.links.remHead (.port mp) with
      | some (n, links) => pps.getMsg n links length actual term
      | none => { pps with pc := .drain (length.getD pps.bytesPending) actual term }
  | .drain length actual term => some (pps.drain length actual term)
  | .send length actual term => some (pps.sendFast length actual term)
  | .slow length actual term remlen => some (pps.sendSlow length actual term remlen)
  | .wait _ _ => none
  | .plainWait n =>
    if (pps.pipe n).type = .message then none else some ((pps.psdWaitPipe n).returns (pps.pipe n).actual)
  | .write data => some (pps.psdStreamWrite data)
  | .bulk n data actual => some (pps.sendBulk n data actual)
  | .rest data actual => some (pps.bufferRest data actual)
  | .await n stage =>
    match pps.msgPort with
    | none => none
    | some mp =>
      match pps.links.remHead (.port mp) with
      | some (_, links) => some { pps with links := links, pc := .waitPipe n stage }
      | none => none
  | .waitPipe n stage =>
    if (pps.pipe n).type = .message then none else some ((pps.psdWaitPipe n).written n stage)
  | .flush => pps.psdStreamFlush w
  | .flushWait [] => some { pps with pc := .flushReady }
  | .flushWait (none :: _) => none
  | .flushWait (some n :: todo) =>
    if (pps.pipe n).type = .message then none else some { pps.psdWaitPipe n with pc := .flushWait todo }
  | .flushReady => some pps.flushReady
  | .flushPort => pps.flushPort
  | .flushOut n => if (pps.pipe n).type = .message then none else some ((pps.psdWaitPipe n).flushed n)
  | .setAttrs tags => some (pps.psdSetAttrs tags w)
  | .freeOld [] => some (pps.resetLists w)
  | .freeOld (none :: _) => none
  | .freeOld (some n :: todo) =>
    if (pps.pipe n).type = .message then none else some { pps.psdWaitPipe n with pc := .freeOld todo }
  | .alloc => some (pps.allocPipe w)

/-- The transfer of a pipe ends: `ReplyMsg()`. -/
def complete (n : ℕ) (data : List UInt8) (error : IoErr) : PsdPipeStream :=
  let pp := pps.pipe n
  let next := (pps.atPort pp.msgPort).setPipe n { pp with type := .replyMsg, actual := data.length, error := error }
  let buffer := match pp.slot with
    | some pos => if pps.direction then copyMem pps.buffer pos data else pps.buffer
    | none => pps.buffer
  { next.addTail (.port pp.msgPort) n with buffer := buffer }

end PsdPipeStream

/-- The calls; `data` are the bytes that are written, with -1 those before the NUL. -/
inductive Call
  | read (length : Option ℕ)
  | write (data : List UInt8)
  | flush
  | setAttrs (tags : Tags)

def Call.pc : Call → Pc
  | .read length => .read length
  | .write data => .write data
  | .flush => .flush
  | .setAttrs tags => .setAttrs tags

/-- `wake` is the return of `Wait()`, with or without one of the abort signals; data is what has been transferred. -/
inductive Event
  | call (c : Call)
  | go (w : World)
  | wake (aborted : Bool)
  | complete (n : ℕ) (data : List UInt8) (error : IoErr)

def step (pps : PsdPipeStream) : Event → Option PsdPipeStream
  | .call c =>
    match pps.pc with
    | .idle => some { pps with pc := c.pc }
    | _ => none
  | .go w => pps.go w
  | .wake aborted =>
    match pps.pc with
    | .wait length actual =>
      if aborted then some (pps.returns actual) else some { pps with pc := .collect (some length) actual false }
    | .await n stage => if aborted then some { pps with pc := .waitPipe n stage } else some pps
    | _ => none
  | .complete n data error =>
    if (pps.pipe n).type = .message ∧ data.length ≤ (pps.pipe n).length then some (pps.complete n data error) else none

namespace PsdPipeStream

variable (pps : PsdPipeStream)

def IsPipe (n : ℕ) : Prop := some n ∈ pps.pipes.getD []

def On (l : ListId) (n : ℕ) : Prop := n ∈ pps.links.items l (pps.allocated + 2)

def InFlight (n : ℕ) : Prop := (pps.pipe n).type = .message

def Replied (n : ℕ) : Prop := ∃ mp, pps.msgPort = some mp ∧ pps.On (.port mp) n

instance (l : ListId) (n : ℕ) : Decidable (pps.On l n) := inferInstanceAs (Decidable (n ∈ _))

instance (n : ℕ) : Decidable (pps.InFlight n) := inferInstanceAs (Decidable (_ = _))

instance (n : ℕ) : Decidable (pps.Replied n) :=
  match h : pps.msgPort with
  | none => .isFalse fun ⟨_, hmp, _⟩ => Option.some_ne_none _ (hmp.symm.trans h)
  | some mp =>
    decidable_of_iff (pps.On (.port mp) n)
      ⟨fun hon => ⟨mp, h, hon⟩, fun ⟨_, hmp, hon⟩ => Option.some.inj (h.symm.trans hmp) ▸ hon⟩

/-- What holds of every pipe of the stream is found out from the array. -/
instance (p : ℕ → Prop) [DecidablePred p] : Decidable (∀ n, pps.IsPipe n → p n) :=
  decidable_of_iff (∀ o ∈ pps.pipes.getD [], ∀ n ∈ o, p n)
    ⟨fun h n hn => h (some n) hn n rfl, fun h o ho n hn => h n (by subst hn; exact ho)⟩

/-- In exactly one of the four places. -/
inductive InOnePlace (n : ℕ) : Prop
  | free (h : pps.On .free n) (hr : ¬pps.On .ready n) (hf : ¬pps.InFlight n) (hp : ¬pps.Replied n)
  | ready (h : pps.On .ready n) (hf : ¬pps.On .free n) (hl : ¬pps.InFlight n) (hp : ¬pps.Replied n)
  | inFlight (h : pps.InFlight n) (hf : ¬pps.On .free n) (hr : ¬pps.On .ready n) (hp : ¬pps.Replied n)
  | replied (h : pps.Replied n) (hf : ¬pps.On .free n) (hr : ¬pps.On .ready n) (hl : ¬pps.InFlight n)

/-- Every pipe of the stream is in exactly one of the four places after a call, and no port that is gone has been
touched. -/
def Conserved : Prop := pps.wild = false ∧ (pps.pc.isIdle = true → ∀ n, pps.IsPipe n → pps.InOnePlace n)

end PsdPipeStream

/-- A read without `PSFF_BUFFERREAD` that finds a pipe to send. -/
def PlainSends (pps : PsdPipeStream) (length : Option ℕ) (w : World) : Prop :=
  pps.pipes.isSome ∧ pps.direction = true ∧ pps.flags.asyncIo = false ∧ pps.flags.bufferRead = false ∧
    pps.firstFree.isSome ∧ length ≠ some 0 ∧ w.connected = true

/-- The pipes stay with their port: it is not changed, or it is the caller's and set again, or all pipes are allocated
anew and, where the port was the stream's own, none of them has been sent and the port is not set again. -/
def PortKept (pps : PsdPipeStream) (tags : Tags) (w : World) : Prop :=
  tags.msgPort = none ∨ (pps.ownMsgPort = false ∧ tags.msgPort = some pps.msgPort) ∨
    (pps.reallocates tags w = true ∧
      (pps.ownMsgPort = true → tags.msgPort ≠ some pps.msgPort ∧ ∀ n, pps.IsPipe n → (pps.pipe n).type = .freeMsg))

/-- No plain read sends a pipe, an IN stream is flushed while none of its pipes is in flight or replied, and the pipes
stay with their port. -/
def KeepsAt (pps : PsdPipeStream) (w : World) : Pc → Prop
  | .read length => ¬PlainSends pps length w
  | .flush => pps.direction = true → ∀ n, pps.IsPipe n → ¬pps.InFlight n ∧ ¬pps.Replied n
  | .setAttrs tags => PortKept pps tags w
  | _ => True

def Keeps (pps : PsdPipeStream) : Event → Prop
  | .go w => KeepsAt pps w pps.pc
  | _ => True

instance (pps : PsdPipeStream) (length : Option ℕ) (w : World) : Decidable (PlainSends pps length w) :=
  inferInstanceAs (Decidable (_ ∧ _))

instance (pps : PsdPipeStream) (tags : Tags) (w : World) : Decidable (PortKept pps tags w) :=
  inferInstanceAs (Decidable (_ ∨ _ ∨ _ ∧ (_ → _ ∧ _)))

instance (pps : PsdPipeStream) (w : World) : ∀ pc, Decidable (KeepsAt pps w pc)
  | .read _ => inferInstanceAs (Decidable (¬_))
  | .flush => inferInstanceAs (Decidable (_ → _))
  | .setAttrs _ => inferInstanceAs (Decidable (PortKept _ _ _))
  | .idle | .collect .. | .drain .. | .send .. | .slow .. | .wait .. | .plainWait _ | .write _ | .bulk .. | .rest ..
  | .await .. | .waitPipe .. | .flushWait _ | .flushReady | .flushPort | .flushOut _ | .freeOld _ | .alloc =>
    .isTrue trivial

instance (pps : PsdPipeStream) : ∀ e, Decidable (Keeps pps e)
  | .go w => inferInstanceAs (Decidable (KeepsAt pps w pps.pc))
  | .call _ | .wake _ | .complete .. => .isTrue trivial

end Neptune.StreamPipes
