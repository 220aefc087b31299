import Neptune.Lib.Run
import Neptune.Lib.Keyed
import Neptune.Lib.Word

/-! The UAS tag engine of the mass storage class. What is outside comes from lists of outcomes that
are used up from the front: whether a transfer has replied, with what, how an IU went out on the
command pipe, what a device reset came to. A pipe is busy from `psdSendPipe` to `psdWaitPipe`; what
comes of an abort is in the reply. Tags are known by their `ut_Tag`. -/

namespace Neptune

namespace Uas

def UHIOERR_OVERFLOW : ℤ := 7
def UHIOERR_BABBLE : ℤ := 13
def UHIOERR_RUNTPACKET : ℤ := 9
def IOERR_ABORTED : ℤ := -2
def HFERR_Phase : ℤ := 42
def HFERR_BadStatus : ℤ := 45

def UAS_IU_ID_SENSE : UInt8 := 0x03
def UAS_IU_ID_RESPONSE : UInt8 := 0x04
def UAS_RESP_TMF_COMPLETE : UInt8 := 0x00
def UAS_RESP_TMF_SUCCEEDED : UInt8 := 0x08
def SCSI_GOOD : UInt8 := 0x00
def NCM_MAXTAGS : ℕ := 16

/-- What a transfer comes back with: error, actual length and the buffer. -/
structure Reply where
  ioerr : ℤ
  actual : ℕ
  buf : List UInt8
  deriving DecidableEq, Repr

def nUasErrForgiven (ioerr : ℤ) : Bool :=
  ioerr = 0 || ioerr = UHIOERR_OVERFLOW || ioerr = UHIOERR_BABBLE || ioerr = UHIOERR_RUNTPACKET

def Reply.byte (r : Reply) (i : ℕ) : UInt8 := r.buf.getD i 0

def nUasIUId (r : Reply) : UInt8 := if r.actual = 0 then 0 else r.byte 0

/-- The SCSI status, preset to `SCSI_GOOD`. -/
def nUasParseStatus (r : Reply) : UInt8 :=
  if nUasIUId r = UAS_IU_ID_SENSE ∧ 6 < r.actual then r.byte 6 else SCSI_GOOD

inductive TagState
  | free
  | running
  | quarantine
  deriving DecidableEq, Repr

structure UasTag where
  tag : ℕ
  state : TagState
  ioreq : Option ℕ
  outstanding : ℕ
  statusArmed : Bool
  dataArmed : Bool
  abortReq : Bool
  failed : Bool
  isRead : Bool
  cmdSent : Bool
  statusSeen : Bool
  offset : ℕ
  remain : ℕ
  chunkLen : ℕ
  /-- The last reply of the status pipe, with `ut_StatusBuf`. -/
  status : Reply
  statusBusy : Bool
  dataBusy : Bool
  deriving DecidableEq, Repr

inductive Pipe
  | status (tag : ℕ)
  | data (tag : ℕ)
  | tm
  deriving DecidableEq, Repr

inductive Iu
  | command (tag : ℕ)
  | abortTask (tag taskTag : ℕ)
  deriving DecidableEq, Repr

/-- What passes between the unit and the device. -/
inductive Passed
  | iu (iu : Iu) (ioerr : ℤ)
  | replied (pipe : Pipe) (r : Reply)
  | reset (done : Bool)
  deriving DecidableEq, Repr

/-- The outcomes of transfers, and what has been done: what has passed, aborted pipes, and requests
replied with `io_Error` and `io_Actual`. -/
structure Wire where
  replies : List Reply
  commands : List ℤ
  passed : List Passed
  aborted : List Pipe
  answered : List (ℕ × ℤ × ℕ)
  deriving DecidableEq, Repr

def Wire.pass (w : Wire) (p : Passed) : Wire := { w with passed := w.passed ++ [p] }

def psdWaitPipe (pipe : Pipe) (w : Wire) : Reply × Wire :=
  match w.replies with
  | [] => (⟨0, 0, []⟩, w.pass (.replied pipe ⟨0, 0, []⟩))
  | r :: replies => (r, { w.pass (.replied pipe r) with replies := replies })

def psdAbortPipe (pipe : Pipe) (w : Wire) : Wire := { w with aborted := w.aborted ++ [pipe] }

/-- `psdDoPipe` on `ncm_EPCmdPipe`. -/
def sendIu (iu : Iu) (w : Wire) : ℤ × Wire :=
  match w.commands with
  | [] => (0, w.pass (.iu iu 0))
  | ioerr :: commands => (ioerr, { w.pass (.iu iu ioerr) with commands := commands })

def nUasStatusGood (ut : UasTag) : Bool :=
  nUasErrForgiven ut.status.ioerr && nUasIUId ut.status = UAS_IU_ID_SENSE &&
    nUasParseStatus ut.status = SCSI_GOOD

def nUasReleaseTag (ut : UasTag) : UasTag :=
  { ut with state := .free, cmdSent := false, statusSeen := false }

def nUasFinalizeTag (ut : UasTag) (w : Wire) (ioerr : ℤ) : UasTag × Wire :=
  let quarantine := ut.cmdSent && !ut.statusSeen
  ({ ut with ioreq := none, state := if quarantine then .quarantine else .free },
    match ut.ioreq with
    | some ioreq => { w with answered := w.answered ++ [(ioreq, ioerr, ut.offset)] }
    | none => w)

def abortStatus (ut : UasTag) (w : Wire) : UasTag × Wire :=
  let (r, w) := psdWaitPipe (.status ut.tag) (psdAbortPipe (.status ut.tag) w)
  ({ ut with statusArmed := false, statusBusy := false, status := r,
             outstanding := usub ut.outstanding 1 }, w)

def abortData (ut : UasTag) (w : Wire) : UasTag × Wire :=
  let (_, w) := psdWaitPipe (.data ut.tag) (psdAbortPipe (.data ut.tag) w)
  ({ ut with dataArmed := false, dataBusy := false, outstanding := usub ut.outstanding 1 }, w)

def nUasTagAbortArmed (ut : UasTag) (w : Wire) : UasTag × Wire :=
  let (ut, w) := if ut.statusArmed then abortStatus ut w else (ut, w)
  if ut.dataArmed then abortData ut w else (ut, w)

def nUasTagSignalAbort (ut : UasTag) (w : Wire) : Wire :=
  let w := if ut.statusArmed then psdAbortPipe (.status ut.tag) w else w
  if ut.dataArmed then psdAbortPipe (.data ut.tag) w else w

def armChunk (ut : UasTag) (datalen : ℕ) : UasTag :=
  let ut := { ut with chunkLen := datalen, statusArmed := true, statusBusy := true,
                      outstanding := 1 }
  let ut := if datalen ≠ 0 then
      { ut with dataArmed := true, dataBusy := true, outstanding := uword (ut.outstanding + 1) }
    else ut
  { ut with cmdSent := false, statusSeen := false }

def nUasSubmitChunk (maxtrans : ℕ) (ut : UasTag) (w : Wire) : ℤ × UasTag × Wire :=
  let ut := armChunk ut (min ut.remain maxtrans)
  let (ioerr, w) := sendIu (.command ut.tag) w
  if ioerr ≠ 0 then (ioerr, nUasTagAbortArmed ut w) else (0, { ut with cmdSent := true }, w)

/-- `ut_Offset` and `ut_Remain`; the block address moves along. -/
def nUasAdvanceChunk (ut : UasTag) : Bool × UasTag :=
  let ut := { ut with offset := ut.offset + ut.chunkLen, remain := ut.remain - ut.chunkLen }
  (ut.remain ≠ 0, ut)

def statusDone (ut : UasTag) (w : Wire) : UasTag × Wire × ℤ :=
  let (r, w) := psdWaitPipe (.status ut.tag) w
  let ut := { ut with statusArmed := false, statusBusy := false, status := r }
  if nUasErrForgiven r.ioerr then
    let ut := { ut with statusSeen := nUasIUId r = UAS_IU_ID_SENSE }
    (ut, if ut.dataArmed && !nUasStatusGood ut then psdAbortPipe (.data ut.tag) w else w, r.ioerr)
  else (ut, w, r.ioerr)

def dataDone (ut : UasTag) (w : Wire) : UasTag × Wire × ℤ :=
  let (r, w) := psdWaitPipe (.data ut.tag) w
  let ut := { ut with dataArmed := false, dataBusy := false }
  (ut, w, if !ut.statusArmed && !nUasStatusGood ut then 0 else r.ioerr)

def chunkDone (maxtrans : ℕ) (ut : UasTag) (w : Wire) : UasTag × Wire :=
  if ut.failed then nUasFinalizeTag ut w (if ut.abortReq then IOERR_ABORTED else HFERR_Phase)
  else if nUasIUId ut.status ≠ UAS_IU_ID_SENSE then nUasFinalizeTag ut w HFERR_Phase
  else if nUasParseStatus ut.status ≠ SCSI_GOOD then nUasFinalizeTag ut w HFERR_BadStatus
  else
    let (more, ut) := nUasAdvanceChunk ut
    if more then
      let (ioerr, ut, w) := nUasSubmitChunk maxtrans ut w
      if ioerr ≠ 0 then nUasFinalizeTag ut w HFERR_Phase else (ut, w)
    else nUasFinalizeTag ut w 0

def nUasTagPipeDone (maxtrans : ℕ) (is_status : Bool) (ut : UasTag) (w : Wire) : UasTag × Wire :=
  let (ut, w, ioerr) := if is_status then statusDone ut w else dataDone ut w
  let ut := { ut with outstanding := usub ut.outstanding 1 }
  let failed := !nUasErrForgiven ioerr && !ut.failed
  let ut := if failed then { ut with failed := true } else ut
  let w := if failed then nUasTagSignalAbort ut w else w
  if ut.outstanding ≠ 0 then (ut, w) else chunkDone maxtrans ut w

def killTag (ut : UasTag) (w : Wire) : UasTag × Wire :=
  if ut.state = .running then
    let (ut, w) := nUasTagAbortArmed ut w
    nUasFinalizeTag { ut with failed := true, cmdSent := false } w IOERR_ABORTED
  else (ut, w)

def nUasSubmitTag (maxtrans ioreq length : ℕ) (isRead : Bool) (ut : UasTag) (w : Wire) :
    UasTag × Wire :=
  let ut := { ut with ioreq := some ioreq, isRead := isRead, offset := 0, remain := length,
                      abortReq := false, failed := false, state := .running }
  let (ioerr, ut, w) := nUasSubmitChunk maxtrans ut w
  if ioerr ≠ 0 then nUasFinalizeTag ut w HFERR_Phase else (ut, w)

/-- The tag as `nUasClaimTag` takes it. -/
def claim (ut : UasTag) : UasTag :=
  { ut with ioreq := none, state := .running, statusArmed := false, dataArmed := false,
            outstanding := 0, offset := 0, abortReq := false, failed := false, cmdSent := false,
            statusSeen := false }

def waitData (dataLen : ℕ) (ut : UasTag) (w : Wire) : ℤ × Wire :=
  if dataLen = 0 then (0, w)
  else if nUasStatusGood ut then
    let (d, w) := psdWaitPipe (.data ut.tag) w
    (d.ioerr, w)
  else (0, (psdWaitPipe (.data ut.tag) (psdAbortPipe (.data ut.tag) w)).2)

/-- `nUasDoCommand` on the tag it has claimed, with its result. Each pipe it sends it also waits
for. -/
def nUasDoCommand (dataLen : ℕ) (ut : UasTag) (w : Wire) : ℤ × UasTag × Wire :=
  let ut := claim ut
  let (ioerr, w) := sendIu (.command ut.tag) w
  if ioerr ≠ 0 then
    let (r, w) := psdWaitPipe (.status ut.tag) (psdAbortPipe (.status ut.tag) w)
    (ioerr, nUasFinalizeTag { ut with status := r } w 0)
  else
    let (r, w) := psdWaitPipe (.status ut.tag) w
    let ut := { ut with cmdSent := true, status := r }
    let (dataerr, w) := waitData dataLen ut w
    if !nUasErrForgiven r.ioerr then (r.ioerr, nUasFinalizeTag ut w 0)
    else if nUasIUId r ≠ UAS_IU_ID_SENSE then (HFERR_Phase, nUasFinalizeTag ut w 0)
    else
      let ut := { ut with statusSeen := true }
      (if nUasErrForgiven dataerr then 0 else dataerr, nUasFinalizeTag ut w 0)

/-- The answer of `psdCheckPipe`, and the requests `devAbortIo` has been called for before it. -/
structure Check where
  replied : Bool
  abortIo : List ℕ
  deriving DecidableEq, Repr

/-- What the endpoints offer to `nUasInitTags`, and whether it gets its pipes. -/
structure Streams where
  maxIn : ℕ
  maxOut : ℕ
  maxStatus : ℕ
  tmPipe : Bool
  /-- `EA_StreamsAlloc` of the status endpoint after the pipe for task management. -/
  allocTM : ℕ
  tagPipes : Bool
  allocIn : ℕ
  allocOut : ℕ
  allocStatus : ℕ
  deriving DecidableEq, Repr

structure Ncm where
  tags : List UasTag
  tmTag : ℕ
  tmOwnTag : ℕ
  tmTargetTag : ℕ
  tmArmed : Option Pipe
  tmBusy : Bool
  denyRequests : Bool
  queueDepth : ℕ
  maxTrans : ℕ
  wire : Wire
  checks : List Check
  /-- What `psdResetDevice` comes to: a failure, or streams for the rebuild. -/
  resets : List (Option Streams)
  deriving DecidableEq, Repr

/-- The queue depth and the tag for task management, `0` for borrow mode. -/
def initTags (queueDepth : ℕ) (st : Streams) : Option (ℕ × ℕ) :=
  let qd := min (max queueDepth 1) NCM_MAXTAGS
  if st.maxIn = 0 ∨ st.maxOut = 0 ∨ st.maxStatus = 0 then none
  else
    let qd := min (min (min qd st.maxIn) st.maxOut) st.maxStatus
    let tmTag := if qd < st.maxStatus ∧ st.tmPipe ∧ qd < st.allocTM then qd + 1 else 0
    if !st.tagPipes then none
    else if st.allocIn < qd ∨ st.allocOut < qd ∨ st.allocStatus < qd then none
    else some (qd, tmTag)

def freshTag (tag : ℕ) : UasTag :=
  ⟨tag, .free, none, 0, false, false, false, false, false, false, false, 0, 0, 0, ⟨0, 0, []⟩, false,
    false⟩

namespace Ncm

def nUasInitTags (s : Ncm) (st : Streams) : Ncm × Bool :=
  let s := { s with tags := [], tmTag := 0, tmOwnTag := 0, tmTargetTag := 0, tmArmed := none,
                    tmBusy := false }
  match initTags s.queueDepth st with
  | some (qd, tmTag) => ({ s with tags := (List.range' 1 qd).map freshTag, tmTag := tmTag }, true)
  | none => (s, false)

def onTag (s : Ncm) (tag : ℕ) (f : UasTag → Wire → UasTag × Wire) : Ncm :=
  match s.tags.find? fun ut => ut.tag = tag with
  | some ut =>
    let (ut, w) := f ut s.wire
    { s with tags := Keyed.modify UasTag.tag tag (fun _ => ut) s.tags, wire := w }
  | none => s

def numbers (s : Ncm) : List ℕ := s.tags.map UasTag.tag

/-- `ut_AbortReq` of the tags that carry one of the requests. -/
def devAbortIo (s : Ncm) (ioreqs : List ℕ) : Ncm :=
  { s with tags := s.tags.map fun ut =>
      if ut.state ≠ .free && ut.ioreq.any (fun ioreq => ioreq ∈ ioreqs) then
        { ut with abortReq := true }
      else ut }

def psdCheckPipe (s : Ncm) : Bool × Ncm :=
  match s.checks with
  | [] => (false, s)
  | c :: checks => (c.replied, { s.devAbortIo c.abortIo with checks := checks })

def nUasProcessAborts (s : Ncm) : Ncm :=
  s.numbers.foldl (fun s tag => s.onTag tag fun ut w =>
    (ut, if ut.state = .running ∧ ut.abortReq then nUasTagSignalAbort ut w else w)) s

def reapPipe (is_status : Bool) (s : Ncm) (tag : ℕ) : Ncm × Bool :=
  match s.tags.find? fun ut => ut.tag = tag with
  | some ut =>
    if ut.state = .running ∧ (if is_status then ut.statusArmed else ut.dataArmed) then
      let (replied, s) := s.psdCheckPipe
      if replied then (s.onTag tag (nUasTagPipeDone s.maxTrans is_status), true) else (s, false)
    else (s, false)
  | none => (s, false)

def reapPass (s : Ncm) : Ncm × Bool :=
  s.numbers.foldl (fun (s, progress) tag =>
    let (s, status) := s.reapPipe true tag
    let (s, data) := s.reapPipe false tag
    (s, progress || status || data)) (s, false)

def nUasReapTags : ℕ → Ncm → Option Ncm
  | 0, _ => none
  | fuel + 1, s =>
    let (s, progress) := s.reapPass
    if progress then nUasReapTags fuel s else some s

def setBusy (s : Ncm) (pipe : Pipe) (busy : Bool) : Ncm :=
  match pipe with
  | .status tag =>
    { s with tags := Keyed.modify UasTag.tag tag (fun ut => { ut with statusBusy := busy }) s.tags }
  | .data tag =>
    { s with tags := Keyed.modify UasTag.tag tag (fun ut => { ut with dataBusy := busy }) s.tags }
  | .tm => { s with tmBusy := busy }

def nUasAbortAndWait (s : Ncm) (pipe : Pipe) : Ncm :=
  { s.setBusy pipe false with wire := (psdWaitPipe pipe (psdAbortPipe pipe s.wire)).2 }

def nUasKillAllTags (s : Ncm) : Ncm := s.numbers.foldl (fun s tag => s.onTag tag killTag) s

def psdResetDevice (s : Ncm) : Option Streams × Ncm :=
  match s.resets with
  | [] => (none, s)
  | st :: resets => (st, { s with resets := resets })

/-- What `nUasEscalateReset` does of the device once no tag runs. -/
def resetDevice (s : Ncm) : Ncm :=
  match s.psdResetDevice with
  | (some st, s) =>
    let s := { s with wire := s.wire.pass (.reset true) }
    -- `nUasDisableTags` leaves nothing that `nUasInitTags` does not clear too
    let (s, rebuilt) := s.nUasInitTags st
    if rebuilt then s else { s with denyRequests := true }
  | (none, s) =>
    { s with
      wire := s.wire.pass (.reset false)
      tags := s.tags.map fun ut => if ut.state = .quarantine then nUasReleaseTag ut else ut }

def nUasEscalateReset (s : Ncm) : Ncm :=
  let s :=
    match s.tmArmed with
    | some pipe => { s.nUasAbortAndWait pipe with tmArmed := none }
    | none => s
  { s with tmTargetTag := 0 }.nUasKillAllTags.resetDevice

/-- The ABORT TASK for `target` on the status pipe of `owntag`. -/
def sendTMF (s : Ncm) (tmpipe : Pipe) (owntag target : ℕ) : Ncm :=
  let s := s.setBusy tmpipe true
  let (ioerr, w) := sendIu (.abortTask owntag target) s.wire
  let s := { s with wire := w }
  if ioerr ≠ 0 then (s.nUasAbortAndWait tmpipe).nUasEscalateReset
  else { s with tmArmed := some tmpipe, tmOwnTag := owntag, tmTargetTag := target }

def nUasQuarantinedTag (s : Ncm) : Option UasTag := s.tags.find? fun ut => ut.state = .quarantine

def nUasIssueTMF (s : Ncm) : Ncm :=
  match s.tmArmed, s.nUasQuarantinedTag with
  | none, some target =>
    if s.tmTag ≠ 0 then s.sendTMF .tm s.tmTag target.tag
    else
      let others := s.tags.filter fun ut => ut.tag ≠ target.tag
      if others.any fun ut => ut.state ≠ .free then s
      else
        match others with
        | [] => s.nUasEscalateReset
        | lend :: _ => s.sendTMF (.status lend.tag) lend.tag target.tag
  | _, _ => s

def tmfAnswered (r : Reply) (owntag : ℕ) : Bool :=
  let code := if 7 < r.actual then r.byte 7 else 0xff
  r.byte 0 = UAS_IU_ID_RESPONSE && 8 ≤ r.actual &&
    (r.byte 2).toNat * 256 + (r.byte 3).toNat = owntag &&
    (code = UAS_RESP_TMF_COMPLETE || code = UAS_RESP_TMF_SUCCEEDED)

def nUasReapTMF (s : Ncm) : Ncm :=
  match s.tmArmed with
  | none => s
  | some pipe =>
    let (replied, s) := s.psdCheckPipe
    if !replied then s
    else
      let (r, w) := psdWaitPipe pipe s.wire
      let s := { s.setBusy pipe false with tmArmed := none, wire := w }
      if !nUasErrForgiven r.ioerr then s.nUasEscalateReset
      else if !tmfAnswered r s.tmOwnTag then s.nUasEscalateReset
      else
        { s with
          tags := s.tags.map fun ut =>
            if ut.tag = s.tmTargetTag ∧ ut.state = .quarantine then nUasReleaseTag ut else ut
          tmTargetTag := 0 }

def nUasProcessQuarantine (s : Ncm) : Ncm :=
  if s.tags = [] then s else s.nUasReapTMF.nUasIssueTMF

def nUasPumpEngine (fuel : ℕ) (s : Ncm) : Option Ncm :=
  (s.nUasProcessAborts.nUasReapTags fuel).map nUasProcessQuarantine

def nUasTagsIdle (s : Ncm) : Bool := s.tags.all fun ut => ut.state = .free

def nUasFreeTag (s : Ncm) : Option UasTag :=
  s.tags.find? fun ut => ut.state = .free && s.tmArmed ≠ some (.status ut.tag)

inductive Event
  | submit (ioreq length : ℕ) (isRead : Bool)
  | command (dataLen : ℕ)
  | abortIo (ioreq : ℕ)
  | processAborts
  | reapTags (fuel : ℕ)
  | reapTMF
  | issueTMF
  deriving DecidableEq, Repr

def step (s : Ncm) : Event → Option Ncm
  | .submit ioreq length isRead =>
    s.nUasFreeTag.map fun ut => s.onTag ut.tag (nUasSubmitTag s.maxTrans ioreq length isRead)
  | .command dataLen =>
    s.nUasFreeTag.map fun ut => s.onTag ut.tag fun ut w => (nUasDoCommand dataLen ut w).2
  | .abortIo ioreq => some (s.devAbortIo [ioreq])
  | .processAborts => some s.nUasProcessAborts
  | .reapTags fuel => s.nUasReapTags fuel
  | .reapTMF => some s.nUasReapTMF
  | .issueTMF => some s.nUasIssueTMF

end Ncm

def Iu.tag : Iu → ℕ
  | .command tag => tag
  | .abortTask tag _ => tag

structure Device where
  /-- Tags of commands that the device has not let go of. -/
  owned : List ℕ
  /-- The tag of an ABORT TASK that is not answered yet, and its target. -/
  tmf : Option (ℕ × ℕ)
  degraded : Bool
  deriving DecidableEq, Repr

namespace Device

def lets (d : Device) (tag : ℕ) : Device := { d with owned := d.owned.filter (· ≠ tag) }

def sense (d : Device) (pipe : Pipe) (r : Reply) : Device :=
  match pipe with
  | .status tag =>
    if nUasErrForgiven r.ioerr && nUasIUId r = UAS_IU_ID_SENSE then d.lets tag else d
  | .data _ | .tm => d

/-- The ABORT TASK is answered complete or succeeded, on the pipe it has been sent for. -/
def response (d : Device) (pipe : Pipe) (r : Reply) : Device :=
  match d.tmf with
  | some (own, target) =>
    if (pipe = .tm ∨ pipe = .status own) ∧ nUasErrForgiven r.ioerr ∧ Ncm.tmfAnswered r own then
      { d.lets target with tmf := none }
    else d
  | none => d

def after (d : Device) : Passed → Device
  | .iu (.command tag) ioerr => if ioerr = 0 then { d with owned := tag :: d.owned } else d
  | .iu (.abortTask own target) ioerr =>
    if ioerr = 0 then { d with tmf := some (own, target) } else d
  | .replied pipe r => (d.sense pipe r).response pipe r
  | .reset true => { d with owned := [], tmf := none }
  | .reset false => { d with degraded := true }

end Device

def owns (passed : List Passed) : Device := passed.foldl Device.after ⟨[], none, false⟩

/-- No IU has been sent with a tag that the device still owned a command of, unless the reset had
failed before. -/
def NoReuse (passed : List Passed) : Prop :=
  ∀ before iu ioerr after, passed = before ++ .iu iu ioerr :: after →
    iu.tag ∈ (owns before).owned → (owns before).degraded = true

end Uas

end Neptune
