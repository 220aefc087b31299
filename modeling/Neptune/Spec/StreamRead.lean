import Neptune.Lib.Run

/-! The scan for termination characters in `psdStreamRead` and the one in `psdStreamWrite`. The array is the memory
from `pps_TermArray` on, of which the first eight bytes belong to it; the indices read are kept. -/

namespace Neptune

namespace PipeStream

/-- What is left of the bytes when the first that meets `p` ends them. -/
def upTo (p : UInt8 → Bool) : List UInt8 → List UInt8
  | [] => []
  | c :: rest => if p c then [c] else c :: upTo p rest

structure Match where
  found : Bool
  reads : List ℕ
  deriving DecidableEq

/-- One character against `tarrptr[tcnt]` and the entries behind it, `left` of them; `ahead` is the test that comes
before the look at the next entry. -/
def matchTerm (ahead : ℕ → Bool) (tarrptr : ℕ → UInt8) (cchar : UInt8) : (left tcnt : ℕ) → Match
  | 0, _ => ⟨false, []⟩
  | left + 1, tcnt =>
    if cchar < tarrptr tcnt then ⟨false, [tcnt]⟩
    else if cchar = tarrptr tcnt then ⟨true, [tcnt]⟩
    else if ahead tcnt then
      if tarrptr tcnt = tarrptr (tcnt + 1) then ⟨false, [tcnt, tcnt + 1]⟩
      else
        let next := matchTerm ahead tarrptr cchar left (tcnt + 1)
        ⟨next.found, tcnt :: (tcnt + 1) :: next.reads⟩
    else
      let next := matchTerm ahead tarrptr cchar left (tcnt + 1)
      ⟨next.found, tcnt :: next.reads⟩

def readMatch (tarrptr : ℕ → UInt8) (cchar : UInt8) : Match := matchTerm (fun tcnt => decide (tcnt < 7)) tarrptr cchar 8 0

def writeMatch (tarrptr : ℕ → UInt8) (cchar : UInt8) : Match :=
  matchTerm (fun tcnt => decide (tcnt ≠ 0)) tarrptr cchar 8 0

structure Scan where
  taken : List UInt8
  found : Bool
  reads : List ℕ
  deriving DecidableEq

def scan (test : UInt8 → Match) : List UInt8 → Scan
  | [] => ⟨[], false, []⟩
  | cchar :: rest =>
    if (test cchar).found then ⟨[cchar], true, (test cchar).reads⟩
    else ⟨cchar :: (scan test rest).taken, (scan test rest).found, (test cchar).reads ++ (scan test rest).reads⟩

def readScan (tarrptr : ℕ → UInt8) (data : List UInt8) : Scan := scan (readMatch tarrptr) data

def writeScan (tarrptr : ℕ → UInt8) (data : List UInt8) : Scan := scan (writeMatch tarrptr) data

def inTermArray (tarrptr : ℕ → UInt8) (cchar : UInt8) : Bool := (List.range 8).any fun i => tarrptr i == cchar

def Descending (tarrptr : ℕ → UInt8) : Prop := ∀ i j, i ≤ j → j < 8 → tarrptr j ≤ tarrptr i

/-- Both scans stop right after the first byte in the array and read nothing behind it. -/
structure ScansAgree (tarrptr : ℕ → UInt8) (data : List UInt8) : Prop where
  read : (readScan tarrptr data).taken = upTo (inTermArray tarrptr) data
  stops : (readScan tarrptr data).found = data.any (inTermArray tarrptr)
  write : (writeScan tarrptr data).taken = upTo (inTermArray tarrptr) data
  readInside : ∀ i ∈ (readScan tarrptr data).reads, i < 8
  writeInside : ∀ i ∈ (writeScan tarrptr data).reads, i < 8

/-- The first byte in the array is its largest. Of the entries behind the first one two neighbours are the same, or no
byte before the end is larger than the first entry. -/
structure Found (tarrptr : ℕ → UInt8) (data : List UInt8) : Prop where
  first : ∀ c, data.find? (inTermArray tarrptr) = some c → c = tarrptr 0
  inside : (∃ i, 0 < i ∧ i < 7 ∧ tarrptr i = tarrptr (i + 1)) ∨ ∀ c ∈ upTo (inTermArray tarrptr) data, c ≤ tarrptr 0

end PipeStream

namespace StreamRead

open PipeStream (readScan)

structure Attrs where
  maxPktSize : ℕ
  bufferSize : ℕ
  numPipes : ℕ
  shortTerm : Bool
  doNotWait : Bool
  termArray : Option (ℕ → UInt8)
  pktSize_pos : 0 < maxPktSize
  fits : maxPktSize ≤ bufferSize
  pipe : 0 < numPipes

inductive IoErr
  | none
  | nakTimeout
  | other
  deriving DecidableEq

/-- A pipe that has been sent. `inPlace` is `PFF_INPLACE`, with the call and the place in its buffer the data goes to;
without it the data goes to the pipe's part of `pps_Buffer`. -/
structure Pipe where
  num : ℕ
  inPlace : Option (ℕ × ℕ)
  length : ℕ
  actual : ℕ
  error : IoErr
  deriving DecidableEq

def Pipe.failed (pp : Pipe) : Bool :=
  match pp.error with
  | .none => false
  | .nakTimeout => decide (pp.actual = 0)
  | .other => true

/-- The call that holds the stream; `length` is `none` for -1, `dest` its buffer. -/
structure Call where
  length : Option ℕ
  actual : ℕ
  dest : ℕ → UInt8
  waiting : Bool

/-- `free` are the numbers of the pipes in `pps_FreePipes`, `replied` those on the message port, `calls` the number of
calls so far and `returned` the bytes they have returned. -/
structure PsdPipeStream where
  attrs : Attrs
  readAhead : Bool
  free : List ℕ
  ready : List Pipe
  inFlight : List Pipe
  replied : List Pipe
  buffer : ℕ → UInt8
  offset : ℕ
  bytesPending : ℕ
  reqBytes : ℕ
  calls : ℕ
  call : Option Call
  returned : List UInt8

def start (attrs : Attrs) (readAhead : Bool) : PsdPipeStream where
  attrs := attrs
  readAhead := readAhead
  free := List.range attrs.numPipes
  ready := []
  inFlight := []
  replied := []
  buffer := fun _ => 0
  offset := 0
  bytesPending := 0
  reqBytes := 0
  calls := 0
  call := none
  returned := []

def copyMem (mem : ℕ → UInt8) (pos : ℕ) (bytes : List UInt8) : ℕ → UInt8 :=
  fun i => if pos ≤ i ∧ i < pos + bytes.length then bytes.getD (i - pos) 0 else mem i

structure Pass where
  pps : PsdPipeStream
  length : ℕ
  actual : ℕ
  dest : ℕ → UInt8
  term : Bool

namespace PsdPipeStream

variable (pps : PsdPipeStream)

/-- One reply from the port; the flag is `term`. -/
def getMsg (state : PsdPipeStream × Bool) (pp : Pipe) : PsdPipeStream × Bool :=
  let pps := { state.1 with reqBytes := state.1.reqBytes - pp.length }
  if pp.failed then ({ pps with readAhead := false, free := pps.free ++ [pp.num] }, true)
  else ({ pps with bytesPending := pps.bytesPending + pp.actual, ready := pps.ready ++ [pp] }, state.2)

def getMsgs : PsdPipeStream × Bool := pps.replied.foldl getMsg ({ pps with replied := [] }, false)

/-- The first free pipe is unlinked and sent; `rest` are those behind it. -/
def sendPipe (num : ℕ) (rest : List ℕ) (inPlace : Option (ℕ × ℕ)) (length : ℕ) : PsdPipeStream :=
  { pps with
    free := rest
    inFlight := pps.inFlight ++ [⟨num, inPlace, length, 0, .none⟩]
    reqBytes := pps.reqBytes + length }

def dataOf (pp : Pipe) (length : ℕ) : List UInt8 :=
  (List.range length).map fun i => pps.buffer (pp.num * pps.attrs.bufferSize + pps.offset + i)

end PsdPipeStream

namespace Pass

variable (pass : Pass)

/-- The bytes taken from the pipe, if they are copied, and whether a termination character ended them. -/
def take (pp : Pipe) : ℕ × List UInt8 × Bool :=
  let remlen := min pass.length (pp.actual - pass.pps.offset)
  if pp.inPlace.isSome then (remlen, [], false)
  else
    match pass.pps.attrs.termArray with
    | some tarrptr =>
      let scan := readScan tarrptr (pass.pps.dataOf pp remlen)
      (scan.taken.length, scan.taken, scan.found)
    | none => (remlen, pass.pps.dataOf pp remlen, false)

/-- The packet at the head of the ready pipes; `rest` are those behind it. The flag is whether it is used up. -/
def copyPacket (pp : Pipe) (rest : List Pipe) : Pass × Bool :=
  let taken := pass.take pp
  let pps := { pass.pps with
    bytesPending := pass.pps.bytesPending - taken.1
    offset := pass.pps.offset + taken.1 }
  let next : Pass :=
    ⟨pps, pass.length - taken.1, pass.actual + taken.1, copyMem pass.dest pass.actual taken.2.1, pass.term || taken.2.2⟩
  if pps.offset = pp.actual then
    ({ next with
      pps := { pps with offset := 0, ready := rest, free := pps.free ++ [pp.num] }
      term := next.term || (pass.pps.attrs.shortTerm && decide (pp.actual % pass.pps.attrs.maxPktSize ≠ 0)) }, true)
  else (next, false)

/-- Check for buffered data; `none` is the return with -1. A packet that is not used up ends the loop: there is nothing
left to read or a termination character was found. -/
def drain : List Pipe → Pass → Option Pass
  | [], pass => if pass.length = 0 ∨ pass.pps.bytesPending = 0 then some pass else none
  | pp :: rest, pass =>
    if pass.length = 0 ∨ pass.pps.bytesPending = 0 then some pass
    else if pp.actual < pass.pps.offset then none
    else
      let next := pass.copyPacket pp rest
      if next.2 && !next.1.term then drain rest next.1 else some next.1

/-- The faster mode, in place; returns `remlen`. -/
def sendFast : PsdPipeStream × ℕ :=
  let pps := pass.pps
  if pps.bytesPending = 0 ∧ pps.reqBytes = 0 ∧ pps.attrs.termArray.isNone ∧ pps.attrs.bufferSize ≤ pass.length then
    match pps.free with
    | [] => (pps, pass.length)
    | num :: rest =>
      let remlen := pass.length - pass.length % pps.attrs.maxPktSize
      (pps.sendPipe num rest (some (pps.calls, pass.actual)) remlen, remlen)
  else (pps, pass.length)

end Pass

def sendSlow : List ℕ → PsdPipeStream → ℕ → PsdPipeStream
  | [], pps, _ => pps
  | num :: rest, pps, remlen =>
    if pps.reqBytes < remlen ∨ pps.readAhead then
      let remlen := if pps.readAhead ∨ remlen % pps.attrs.maxPktSize ≠ 0 then pps.attrs.bufferSize else remlen
      sendSlow rest (pps.sendPipe num rest none remlen) remlen
    else pps

def PsdPipeStream.returns (pps : PsdPipeStream) (actual : ℕ) (dest : ℕ → UInt8) : PsdPipeStream :=
  { pps with call := none, returned := pps.returned ++ (List.range actual).map dest }

/-- The loop body, up to its `Wait()` or the end of the call. -/
def PsdPipeStream.pass (pps : PsdPipeStream) (call : Call) : PsdPipeStream :=
  let reaped := pps.getMsgs
  match Pass.drain reaped.1.ready
      ⟨reaped.1, call.length.getD reaped.1.bytesPending, call.actual, call.dest, reaped.2⟩ with
  | none => { reaped.1 with call := none }
  | some pass =>
    let fast := pass.sendFast
    let sent := sendSlow fast.1.free fast.1 fast.2
    if pass.term ∨ pass.length = 0 ∨ pps.attrs.doNotWait then sent.returns pass.actual pass.dest
    else { sent with call := some ⟨some pass.length, pass.actual, pass.dest, true⟩ }

/-- `wake` is the return of `Wait()`, with or without one of the abort signals. -/
inductive Event
  | read (length : Option ℕ) (dest : ℕ → UInt8)
  | pass
  | wake (aborted : Bool)
  | complete (i : ℕ) (data : List UInt8) (error : IoErr)

def step (pps : PsdPipeStream) : Event → Option PsdPipeStream
  | .read length dest =>
    if pps.call.isNone then some { pps with calls := pps.calls + 1, call := some ⟨length, 0, dest, false⟩ } else none
  | .pass =>
    match pps.call with
    | none => none
    | some call => if call.waiting then none else some (pps.pass call)
  | .wake aborted =>
    match pps.call with
    | none => none
    | some call =>
      if call.waiting then
        if aborted then some (pps.returns call.actual call.dest)
        else some { pps with call := some { call with waiting := false } }
      else none
  | .complete i data error =>
    match pps.inFlight[i]? with
    | none => none
    | some pp =>
      if data.length ≤ pp.length then
        let done := { pps with
          inFlight := pps.inFlight.eraseIdx i
          replied := pps.replied ++ [{ pp with actual := data.length, error := error }] }
        match pp.inPlace with
        | none => some { done with buffer := copyMem pps.buffer (pp.num * pps.attrs.bufferSize) data }
        | some (id, pos) =>
          -- the buffer of an earlier call is no longer looked at
          match pps.call with
          | none => some done
          | some call =>
            if id = pps.calls then some { done with call := some { call with dest := copyMem call.dest pos data } }
            else some done
      else none

/-- A call in its `Wait()` has something to wait for. -/
def Outstanding (pps : PsdPipeStream) : Prop :=
  ∀ call, pps.call = some call → call.waiting = true → pps.inFlight ≠ [] ∨ pps.replied ≠ []

/-- A pipe that is not a packet without data, received and not used up. -/
def Alive (pps : PsdPipeStream) : Prop :=
  pps.free ≠ [] ∨ pps.inFlight ≠ [] ∨ (∃ pp ∈ pps.ready, pp.actual ≠ 0) ∨
    ∃ pp ∈ pps.replied, pp.actual ≠ 0 ∨ pp.failed = true

def Asks (pps : PsdPipeStream) : Prop :=
  pps.attrs.doNotWait = false ∧ ∃ call length, pps.call = some call ∧ call.length = some length ∧ length ≠ 0

/-- Where a call goes through its loop body, not every pipe is a packet without data. -/
def Fed (pps : PsdPipeStream) : Event → Prop
  | .pass => Asks pps → Alive pps
  | _ => True

end StreamRead

namespace PipeStream

/-- `done`: the whole of it, without an error; `failed`: an error after so many bytes. -/
inductive Outcome
  | done
  | failed (actual : ℕ)
  deriving DecidableEq

def Outcome.actual (length : ℕ) : Outcome → ℕ
  | .done => length
  | .failed actual => min actual length

structure Attrs where
  maxPktSize : ℕ
  bufferSize : ℕ
  numPipes : ℕ
  termArray : Option (ℕ → UInt8)
  pktSize_pos : 0 < maxPktSize
  fits : maxPktSize ≤ bufferSize
  pipe : 0 < numPipes

def setAttrs (maxPktSize bufferSize numPipes : ℕ) (termArray : Option (ℕ → UInt8)) (h : 0 < maxPktSize) : Attrs where
  maxPktSize := maxPktSize
  bufferSize := if bufferSize < maxPktSize then maxPktSize else bufferSize
  numPipes := if numPipes < 1 then 1 else numPipes
  termArray := termArray
  pktSize_pos := h
  fits := by split <;> omega
  pipe := by split <;> omega

structure Transfer where
  data : List UInt8
  outcome : Outcome
  byFlush : Bool
  deriving DecidableEq

/-- `buffer` is what `pps_Buffer` holds, its first `pps_BytesPending` bytes. `copies` keeps offset and length of every
copy into it, `wire` the transfers, `written` the bytes of the calls and `returns` what a call was given to write and
what it returned. -/
structure PsdPipeStream where
  attrs : Attrs
  buffer : List UInt8
  copies : List (ℕ × ℕ)
  wire : List Transfer
  written : List UInt8
  returns : List (ℕ × ℕ)

def start (attrs : Attrs) : PsdPipeStream := ⟨attrs, [], [], [], [], []⟩

namespace PsdPipeStream

variable (pps : PsdPipeStream)

def bytesPending : ℕ := pps.buffer.length

def copyMem (data : List UInt8) : PsdPipeStream :=
  { pps with buffer := pps.buffer ++ data, copies := pps.copies ++ [(pps.bytesPending, data.length)] }

def send (data : List UInt8) (outcome : Outcome) (byFlush : Bool) : PsdPipeStream :=
  { pps with wire := pps.wire ++ [⟨data, outcome, byFlush⟩] }

def pendLength (length : ℕ) : ℕ :=
  let remlen := pps.bytesPending % pps.attrs.maxPktSize
  if remlen + length ≥ pps.attrs.maxPktSize then
    if pps.bytesPending + length ≤ pps.attrs.bufferSize then
      -- everything up to the last boundary
      pps.bytesPending + length - (pps.bytesPending + length) % pps.attrs.maxPktSize - pps.bytesPending
    else pps.attrs.maxPktSize - remlen
  else length

/-- After the merge, with `length` bytes left. -/
def flushDue (length : ℕ) : Bool :=
  decide (length ≥ pps.attrs.maxPktSize) ||
    decide (pps.bytesPending ≥ pps.attrs.bufferSize / 2) && decide (pps.bytesPending ≥ pps.attrs.maxPktSize)

/-- The whole packets go, and the rest moves down by what was sent. -/
def pendFlush (outcome : Outcome) : PsdPipeStream :=
  let remlen := pps.bytesPending - pps.bytesPending % pps.attrs.maxPktSize
  { pps.send (pps.buffer.take remlen) outcome false with buffer := pps.buffer.drop (outcome.actual remlen) }

/-- From the large chunk on, with `actual` bytes taken before. -/
def bulkAndRest (data : List UInt8) (actual : ℕ) (bulk : Outcome) : PsdPipeStream × ℕ :=
  if data.length ≥ pps.attrs.maxPktSize then
    let remlen := data.length - data.length % pps.attrs.maxPktSize
    let sent := pps.send (data.take remlen) bulk false
    if bulk = .done then
      if data.drop remlen = [] then (sent, actual + remlen)
      else (sent.copyMem (data.drop remlen), actual + remlen + (data.drop remlen).length)
    else (sent, actual + bulk.actual remlen)
  else if data = [] then (pps, actual)
  else (pps.copyMem data, actual + data.length)

def bufferedWrite (data : List UInt8) (pend bulk : Outcome) : PsdPipeStream × ℕ :=
  if pps.bytesPending = 0 then pps.bulkAndRest data 0 bulk
  else
    let length := pps.pendLength data.length
    let merged := pps.copyMem (data.take length)
    if merged.flushDue (data.length - length) then
      if pend = .done then (merged.pendFlush pend).bulkAndRest (data.drop length) length bulk
      else (merged.pendFlush pend, length)
    else merged.bulkAndRest (data.drop length) length bulk

/-- The bytes of a call: a null terminated string for length -1, and no further than a termination character. -/
def toWrite (buffer : List UInt8) (length : Option ℕ) : List UInt8 :=
  let bytes := match length with
    | none => buffer.takeWhile (· ≠ 0)
    | some length => buffer.take length
  match pps.attrs.termArray with
  | none => bytes
  | some tarrptr => (writeScan tarrptr bytes).taken

def psdStreamWrite (buffer : List UInt8) (length : Option ℕ) (pend bulk : Outcome) : PsdPipeStream × ℕ :=
  let data := pps.toWrite buffer length
  if data = [] then (pps, 0) else pps.bufferedWrite data pend bulk

def psdStreamFlush (outcome : Outcome) : PsdPipeStream × Bool :=
  if pps.bytesPending = 0 then (pps, true)
  else ({ pps.send pps.buffer outcome true with buffer := [] }, decide (outcome = .done))

end PsdPipeStream

inductive Call
  | write (buffer : List UInt8) (length : Option ℕ) (pend bulk : Outcome)
  | flush (outcome : Outcome)

def step (pps : PsdPipeStream) : Call → Option PsdPipeStream
  | .write buffer length pend bulk =>
    let res := pps.psdStreamWrite buffer length pend bulk
    some { res.1 with
      written := pps.written ++ pps.toWrite buffer length
      returns := pps.returns ++ [((pps.toWrite buffer length).length, res.2)] }
  | .flush outcome => some (pps.psdStreamFlush outcome).1

/-- The copies so far stayed in the buffer of pipe 0, and what is pending is in it. -/
structure Within (pps : PsdPipeStream) : Prop where
  pending : pps.bytesPending ≤ pps.attrs.bufferSize
  copies : ∀ c ∈ pps.copies, c.1 + c.2 ≤ pps.attrs.bufferSize

/-- A write finds the buffer empty, or with room for the bytes that reach its next packet boundary, or for all of its
bytes where these do not reach it. -/
def HasRoom (pps : PsdPipeStream) : Call → Prop
  | .write buffer length _ _ =>
    pps.bytesPending = 0 ∨
      pps.bytesPending + min (pps.toWrite buffer length).length
        (pps.attrs.maxPktSize - pps.bytesPending % pps.attrs.maxPktSize) ≤ pps.attrs.bufferSize
  | .flush _ => True

def PendDone : Call → Prop
  | .write _ _ pend _ => pend = .done
  | .flush _ => True

def AllDone : Call → Prop
  | .write _ _ pend bulk => pend = .done ∧ bulk = .done
  | .flush outcome => outcome = .done

/-- Every write took all of its bytes, and the wire carries what was written, in whole packets but for the flushes. -/
structure Carried (pps : PsdPipeStream) : Prop where
  returns : ∀ r ∈ pps.returns, r.2 = r.1
  wire : (pps.wire.map Transfer.data).flatten = pps.written
  packets : ∀ t ∈ pps.wire, t.byFlush = false → pps.attrs.maxPktSize ∣ t.data.length

end PipeStream

end Neptune
