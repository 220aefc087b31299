import Neptune.Lib.Bytes
import Neptune.Lib.Word

/-! The Bulk-Only and the CBI transport of the mass storage class. What a device answers is a function
of the attempt and of the place in the code that asks; each place is passed once in an attempt. A
transfer is kept with the halts that the code clears in answer to it. -/

namespace Neptune.Transport

def UHIOERR_STALL : ℤ := 4
def UHIOERR_TIMEOUT : ℤ := 6
def UHIOERR_OVERFLOW : ℤ := 7
def UHIOERR_RUNTPACKET : ℤ := 9
def UHIOERR_BABBLE : ℤ := 13
def HFERR_Phase : ℤ := 42
def HFERR_BadStatus : ℤ := 45

def USMF_CSW_PASS : UInt8 := 0
def USMF_CSW_FAIL : UInt8 := 1
def USMF_CSW_PHASEERR : UInt8 := 2
def USMF_CSW_PERSIST : UInt8 := 3

def SK_MASK : UInt8 := 0x0f
def SK_NOT_READY : UInt8 := 0x02
def SK_ILLEGAL_REQUEST : UInt8 := 0x05
def SK_UNIT_ATTENTION : UInt8 := 0x06
def SK_DATA_PROTECT : UInt8 := 0x07

def nIsOverflowErr (ioerr : ℤ) : Bool := ioerr = UHIOERR_OVERFLOW || ioerr = UHIOERR_BABBLE

inductive Pipe
  | ep0
  | bulkIn
  | bulkOut
  | interrupt
  deriving DecidableEq, Repr

/-- The numbers of the endpoints, as their descriptors have them. -/
structure Endpoints where
  int : Option ℕ
  bulkIn : ℕ
  bulkOut : ℕ
  deriving DecidableEq, Repr

/-- `ncm_EPIntNum`, `ncm_EPInNum` and `ncm_EPOutNum`. -/
structure EpNums where
  epIntNum : ℕ
  epInNum : ℕ
  epOutNum : ℕ
  deriving DecidableEq, Repr

inductive TPType
  | bulk
  | cbi
  | cb
  deriving DecidableEq, Repr

/-- The endpoint numbers of `nAllocMS`; that of the OUT endpoint goes to `ncm_EPIntNum` too. -/
def epNums (tpType : TPType) (eps : Endpoints) : Option EpNums :=
  if eps.int = none ∧ tpType = .cbi then none
  else some ⟨eps.bulkOut, eps.bulkIn, eps.bulkOut⟩

def Endpoints.address (eps : Endpoints) : Pipe → Option (ℕ × Bool)
  | .ep0 => none
  | .bulkIn => some (eps.bulkIn, true)
  | .bulkOut => some (eps.bulkOut, false)
  | .interrupt => eps.int.map fun n => (n, true)

structure Csw where
  signature : ℕ
  tag : ℕ
  status : UInt8
  deriving DecidableEq, Repr

def cswSignature : ℕ := 0x53425355

/-- How a transfer ends: error, actual length, the bytes that have come in, what `umscsw` holds of it
then, whether `ncm_DenyRequests` has been set meanwhile; and of the data of CBI, whether the status
has come before them. -/
structure Reply where
  ioerr : ℤ
  actual : ℕ
  bytes : List UInt8
  csw : Csw
  deny : Bool
  late : Bool
  deriving DecidableEq, Repr

/-- The places; those of a ladder of `nBulkClear` or `nBulkReset` with the place it is called at. -/
inductive Site
  | command
  | commandAgain
  | clearBefore
  | data
  | dataClear
  | status
  | statusClear
  | statusAfterStall
  | statusAfterRunt
  | senseCommand
  | senseCommandAgain
  | senseClearBefore
  | senseData
  | senseDataClear
  | senseStatus
  | senseStatusClear
  | senseStatusAfterStall
  | senseStatusAfterRunt
  | clearIn (ladder : ℕ)
  | clearOut (ladder : ℕ)
  | reset (ladder : ℕ)
  deriving DecidableEq, Repr

abbrev Device := Site → Reply

/-- A `CLEAR_FEATURE(ENDPOINT_HALT)` and how it ends. -/
structure Clear where
  epnum : ℕ
  isIn : Bool
  reply : Reply
  deriving DecidableEq, Repr

/-- A transfer, with the tag of the command block that is underway and with what is cleared for it
where it stalls. -/
structure Phase where
  pipe : Pipe
  site : Site
  tag : ℕ
  reply : Reply
  clears : List Clear
  deriving DecidableEq, Repr

structure NepClassMS where
  tpType : TPType
  nums : EpNums
  /-- `PFF_CSS_BROKEN`, `PFF_CLEAR_EP` and `PFF_REM_SUPPORT`. -/
  cssBroken : Bool
  clearEp : Bool
  remSupport : Bool
  deriving DecidableEq, Repr

/-- What changes; `phases` are those of the attempt. -/
structure St where
  tagCount : ℕ
  denyRequests : Bool
  bulkResetBorks : Bool
  writeProtect : Bool
  changeCount : ℕ
  /-- `scsi_Actual`, `scsi_SenseActual` and `scsi_SenseData`. -/
  actual : ℕ
  senseActual : ℕ
  senseData : ℕ → UInt8
  /-- `umscsw.bValue` of the CBI transport, not set at first. -/
  bValue : UInt8
  phases : List Phase

/-- `scsi_Flags` are the first two, and `SCSIF_AUTOSENSE`. -/
structure SCSICmd where
  addr : ℕ
  autoretry : Bool
  isRead : Bool
  autosense : Bool
  length : ℕ
  data : List UInt8
  senseLength : ℕ
  deriving DecidableEq, Repr

def St.denied (st : St) (r : Reply) : St := { st with denyRequests := st.denyRequests || r.deny }

def clearHalt (dev : Device) (site : Site) (epnum : ℕ) (isIn : Bool) (st : St) : Clear × St :=
  (⟨epnum, isIn, dev site⟩, st.denied (dev site))

/-- A transfer, and `recover` where it stalls. -/
def xfer (dev : Device) (pipe : Pipe) (site : Site) (tag : ℕ) (recover : St → List Clear × St)
    (st : St) : Reply × List Clear × St :=
  let r := dev site
  let st := st.denied r
  let (clears, st) := if r.ioerr = UHIOERR_STALL then recover st else ([], st)
  (r, clears, { st with phases := st.phases ++ [⟨pipe, site, tag, r, clears⟩] })

def leave (st : St) : List Clear × St := ([], st)

def clearing (dev : Device) (site : Site) (epnum : ℕ) (isIn : Bool) (st : St) : List Clear × St :=
  let (c, st) := clearHalt dev site epnum isIn st
  ([c], st)

variable (ncm : NepClassMS) (cmd : SCSICmd) (dev : Device)

def nBulkClear (ladder : ℕ) (st : St) : List Clear × St :=
  if st.denyRequests then ([], st)
  else
    let (c₁, st) := clearHalt dev (.clearIn ladder) ncm.nums.epInNum true st
    if c₁.reply.ioerr = UHIOERR_TIMEOUT then ([c₁], st)
    else if st.denyRequests then ([c₁], st)
    else
      let (c₂, st) := clearHalt dev (.clearOut ladder) ncm.nums.epOutNum false st
      ([c₁, c₂], st)

def resetClears (ladder : ℕ) (st : St) : St :=
  let (_, st) := clearHalt dev (.clearIn ladder) ncm.nums.epInNum true st
  if st.denyRequests then st
  else (clearHalt dev (.clearOut ladder) ncm.nums.epOutNum false st).2

def nBulkReset (ladder : ℕ) (st : St) : St :=
  if st.denyRequests then st
  else
    match ncm.tpType with
    | .bulk =>
      if st.bulkResetBorks then resetClears ncm dev ladder st
      else
        let r := dev (.reset ladder)
        let st := st.denied r
        if r.ioerr = UHIOERR_TIMEOUT then st
        else
          let st := { st with bulkResetBorks := r.ioerr ≠ 0 }
          if st.denyRequests then st else resetClears ncm dev ladder st
    | .cbi | .cb =>
      let st := st.denied (dev (.reset ladder))
      if st.denyRequests then st else resetClears ncm dev ladder st

/-- Where the loop goes on: out of it, to its condition, or there with `retrycnt` set to 0. -/
inductive Next
  | leave
  | again
  | last
  deriving DecidableEq, Repr

def dataPipe : Pipe := if cmd.isRead then .bulkIn else .bulkOut

def clearData (site : Site) (st : St) : List Clear × St :=
  if cmd.isRead then clearing dev site ncm.nums.epInNum true st
  else clearing dev site ncm.nums.epOutNum false st

def fill (bytes : List UInt8) (buf : ℕ → UInt8) : ℕ → UInt8 := fun i => bytes.getD i (buf i)

/-- A media change as `scsi_SenseData` has it. -/
def mediaChange (sense : ℕ → UInt8) : Bool := sense 12 = 0x28 || sense 12 = 0x3A

/-- A command block, once more where it stalls: the error, and the tag. -/
def bulkCommand (first again : Site) (ladder : ℕ) (st : St) : ℤ × ℕ × St :=
  let tagCount := ulong (st.tagCount + 1)
  let tag := ulong (cmd.addr + tagCount)
  let (r, _, st) := xfer dev .bulkOut first tag (nBulkClear ncm dev ladder)
    { st with tagCount := tagCount }
  if r.ioerr = UHIOERR_STALL then
    let (r, _, st) := xfer dev .bulkOut again tag leave st
    (r.ioerr, tag, st)
  else (r.ioerr, tag, st)

def stallErr (r : Reply) (clears : List Clear) : ℤ :=
  if r.ioerr = UHIOERR_STALL then (clears.map fun c => c.reply.ioerr).headD 0 else r.ioerr

def bulkData (tag : ℕ) (st : St) : ℤ × List UInt8 × St :=
  if cmd.length = 0 then (0, [], { st with actual := 0 })
  else
    let (r, clears, st) := xfer dev (dataPipe cmd) .data tag (clearData ncm cmd dev .dataClear) st
    (if nIsOverflowErr r.ioerr ∨ r.ioerr = UHIOERR_RUNTPACKET then 0 else stallErr r clears,
      if cmd.isRead then r.bytes else cmd.data, { st with actual := r.actual })

def bulkStatus (first clear afterStall afterRunt : Site) (tag : ℕ) (st : St) : ℤ × Csw × St :=
  let (r, _, st) := xfer dev .bulkIn first tag (clearing dev clear ncm.nums.epInNum true) st
  let (r, st) :=
    if r.ioerr = UHIOERR_STALL then
      let (r, _, st) := xfer dev .bulkIn afterStall tag leave st
      (r, st)
    else (r, st)
  let (r, st) :=
    if r.ioerr = UHIOERR_RUNTPACKET then
      let (r, _, st) := xfer dev .bulkIn afterRunt tag leave st
      (r, st)
    else (r, st)
  (if nIsOverflowErr r.ioerr then 0 else r.ioerr, r.csw, st)

def badCsw (csw : Csw) (tag : ℕ) : Bool :=
  (csw.signature ≠ cswSignature && !ncm.cssBroken) || csw.tag ≠ tag

def statusInData (actual : ℕ) (data : List UInt8) (tag : ℕ) : Bool :=
  7 < actual && Bytes.ofBE (data.take 3) = 0x555342 && Bytes.ofBE ((data.drop 4).take 4) = tag

/-- The status that counts: a status wrapper where the data should be is a failure. -/
def cswStatus (csw : Csw) (actual : ℕ) (data : List UInt8) (tag : ℕ) (st : St) : UInt8 × St :=
  if statusInData actual data tag then (USMF_CSW_FAIL, { st with actual := 0 })
  else (csw.status, st)

/-- What the sense data say; whether `retrycnt` is set to 0. -/
def bulkSenseKey (st : St) : Bool × St :=
  let sk := st.senseData 2 &&& SK_MASK
  if sk = SK_ILLEGAL_REQUEST ∨ sk = SK_NOT_READY then (true, st)
  else if sk = SK_DATA_PROTECT then (false, { st with writeProtect := true })
  else if sk = SK_UNIT_ATTENTION ∧ ncm.remSupport ∧ mediaChange st.senseData then
    (false, { st with changeCount := ulong (st.changeCount + 1) })
  else (false, st)

def bulkSensed (csw : Csw) (tag : ℕ) (st : St) : ℤ × Next × St :=
  if badCsw ncm csw tag then (HFERR_Phase, .again, nBulkReset ncm dev 3 st)
  else
    let (status, st) := cswStatus csw st.senseActual ((List.range 8).map st.senseData) tag st
    if status = USMF_CSW_PHASEERR then (HFERR_BadStatus, .again, nBulkReset ncm dev 3 st)
    else if status ≠ USMF_CSW_PASS then (HFERR_BadStatus, .again, st)
    else
      let (stop, st) := bulkSenseKey ncm st
      (HFERR_BadStatus, if stop then .last else .again, st)

def St.sensed (st : St) (r : Reply) : St :=
  { st with senseActual := r.actual, senseData := fill r.bytes st.senseData }

def bulkSenseData (tag : ℕ) (st : St) : ℤ × Next × St :=
  let (r, clears, st) := xfer dev .bulkIn .senseData tag
    (clearing dev .senseDataClear ncm.nums.epInNum true) st
  let st := st.sensed r
  let ioerr := stallErr r clears
  if ioerr ≠ 0 ∧ ioerr ≠ UHIOERR_RUNTPACKET ∧ !nIsOverflowErr ioerr then
    (HFERR_BadStatus, .again, nBulkReset ncm dev 3 st)
  else
    let (ioerr, csw, st) := bulkStatus ncm dev .senseStatus .senseStatusClear
      .senseStatusAfterStall .senseStatusAfterRunt tag st
    if ioerr ≠ 0 then (HFERR_BadStatus, .again, nBulkReset ncm dev 3 st)
    else bulkSensed ncm dev csw tag st

/-- The autosense, with what becomes of `rioerr`. -/
def bulkSense (st : St) : ℤ × Next × St :=
  let (ioerr, tag, st) := bulkCommand ncm cmd dev .senseCommand .senseCommandAgain 2 st
  if ioerr ≠ 0 then (HFERR_BadStatus, .again, st) else bulkSenseData ncm dev tag st

def bulkFailed (status : UInt8) (st : St) : ℤ × Next × St :=
  let st := if status = USMF_CSW_PHASEERR then nBulkReset ncm dev 1 st else st
  if cmd.autosense then bulkSense ncm cmd dev st else (HFERR_BadStatus, .again, st)

def bulkPassed (csw : Csw) (data : List UInt8) (tag : ℕ) (st : St) : ℤ × Next × St :=
  if badCsw ncm csw tag then (HFERR_Phase, .again, nBulkReset ncm dev 1 st)
  else
    let (status, st) := cswStatus csw st.actual data tag st
    if status = USMF_CSW_PASS then (0, .leave, st) else bulkFailed ncm cmd dev status st

def bulkStatusPhase (data : List UInt8) (tag : ℕ) (st : St) : ℤ × Next × St :=
  let (ioerr, csw, st) :=
    bulkStatus ncm dev .status .statusClear .statusAfterStall .statusAfterRunt tag st
  if st.denyRequests then (HFERR_Phase, .leave, st)
  else if ioerr ≠ 0 then (HFERR_Phase, .again, nBulkReset ncm dev 1 st)
  else bulkPassed ncm cmd dev csw data tag st

def bulkDataPhase (tag : ℕ) (st : St) : ℤ × Next × St :=
  let (ioerr, data, st) := bulkData ncm cmd dev tag st
  if ioerr ≠ 0 then (HFERR_Phase, .again, nBulkReset ncm dev 1 st)
  else bulkStatusPhase ncm cmd dev data tag st

/-- The body of the loop of `nScsiDirectBulk`. -/
def bulkAttempt (st : St) : ℤ × Next × St :=
  let (ioerr, tag, st) := bulkCommand ncm cmd dev .command .commandAgain 0 st
  if st.denyRequests then (HFERR_Phase, .leave, st)
  else if ioerr ≠ 0 then
    if ioerr = UHIOERR_TIMEOUT then (HFERR_Phase, .leave, st)
    else (HFERR_Phase, .again, nBulkReset ncm dev 1 st)
  else bulkDataPhase ncm cmd dev tag st

/-- The status of the interrupt pipe; a runt leaves in `bValue` what was there. -/
def cbiValue (r : Reply) (bValue : UInt8) : UInt8 := r.bytes.getD 1 bValue

/-- The status of the sense command, and a media change that the sense data name. -/
def cbiSensed (actual : ℕ) (value : UInt8) (st : St) : ℕ × St :=
  if value = USMF_CSW_PHASEERR then (0, st)
  else if value = USMF_CSW_PASS ∧ st.senseData 2 &&& SK_MASK = SK_UNIT_ATTENTION ∧
      mediaChange st.senseData then
    (actual, { st with changeCount := ulong (st.changeCount + 1) })
  else (actual, st)

def cbiSenseStatus (actual : ℕ) (st : St) : ℕ × St :=
  if ncm.tpType = .cbi then
    let (r, _, st) := xfer dev .interrupt .senseStatus 0 leave st
    if r.ioerr ≠ 0 ∧ r.ioerr ≠ UHIOERR_RUNTPACKET then (0, st)
    else cbiSensed actual (cbiValue r USMF_CSW_PHASEERR &&& USMF_CSW_PERSIST) st
  else cbiSensed actual USMF_CSW_PASS st

def cbiSenseData (st : St) : ℕ × St :=
  let st := if ncm.clearEp then st.denied (dev .senseClearBefore) else st
  let (r, _, st) := xfer dev .bulkIn .senseData 0
    (clearing dev .senseDataClear ncm.nums.epInNum true) st
  let st := { st with senseData := fill r.bytes st.senseData }
  if r.ioerr ≠ 0 ∧ r.ioerr ≠ UHIOERR_RUNTPACKET then (r.actual, st)
  else cbiSenseStatus ncm dev r.actual st

def nCBIRequestSense (st : St) : ℕ × St :=
  let st := { st with
    senseData := fill [st.senseData 0, st.senseData 1, SK_ILLEGAL_REQUEST] st.senseData }
  let (r, _, st) := xfer dev .ep0 .senseCommand 0 leave st
  if r.ioerr ≠ 0 then (0, st) else cbiSenseData ncm dev st

def cbiData (st : St) : ℤ × St :=
  if cmd.length = 0 then (0, { st with actual := 0 })
  else
    let st := if ncm.clearEp then st.denied (dev .clearBefore) else st
    let late := decide (ncm.tpType = .cbi) && (dev .data).late
    let st := if ncm.tpType = .cbi then { st with bValue := USMF_CSW_PHASEERR } else st
    let (r, _, st) := xfer dev (dataPipe cmd) .data 0
      (if late then leave else clearData ncm cmd dev .dataClear) st
    (if late ∨ nIsOverflowErr r.ioerr ∨ r.ioerr = UHIOERR_STALL then 0 else r.ioerr,
      { st with actual := r.actual })

def cbiFailed (st : St) : ℤ × Next × St :=
  if cmd.autosense then
    let (actual, st) := nCBIRequestSense ncm dev st
    if actual = 0 then (HFERR_BadStatus, .leave, nBulkReset ncm dev 2 { st with senseActual := 0 })
    else
      let st := { st with senseActual := if 18 < cmd.senseLength then 18 else cmd.senseLength }
      if st.senseData 2 &&& SK_MASK = SK_UNIT_ATTENTION ∧ mediaChange st.senseData ∧
          ncm.remSupport then
        (HFERR_BadStatus, .again, { st with changeCount := ulong (st.changeCount + 1) })
      else (HFERR_BadStatus, .again, st)
  else (HFERR_BadStatus, .again, st)

def cbiStatus (st : St) : ℤ × Next × St :=
  if ncm.tpType = .cbi then
    let (r, _, st) := xfer dev .interrupt .status 0
      (clearing dev .statusClear ncm.nums.epIntNum true) st
    if r.ioerr = 0 ∨ r.ioerr = UHIOERR_RUNTPACKET then
      let st := { st with bValue := cbiValue r st.bValue }
      if st.bValue ≠ 0 then cbiFailed ncm cmd dev st else (0, .leave, st)
    else if r.ioerr = UHIOERR_STALL then (0, .leave, st)
    else (HFERR_Phase, .again, nBulkReset ncm dev 1 st)
  else (0, .leave, { st with bValue := USMF_CSW_PASS })

def cbiRefused (ioerr : ℤ) (st : St) : ℤ × Next × St :=
  if ioerr = UHIOERR_TIMEOUT then (HFERR_Phase, .leave, st)
  else (HFERR_Phase, .again, nBulkReset ncm dev 1 st)

/-- The body of the loop of `nScsiDirectCBI`. -/
def cbiAttempt (st : St) : ℤ × Next × St :=
  let denied := st.denyRequests || (dev .command).deny
  let (r, _, st) := xfer dev .ep0 .command 0
    (fun st => if st.denyRequests then ([], st) else nBulkClear ncm dev 0 st) st
  if denied then (HFERR_Phase, .leave, st)
  else if r.ioerr = 0 then
    let (ioerr, st) := cbiData ncm cmd dev st
    if ioerr ≠ 0 then (HFERR_Phase, .again, nBulkReset ncm dev 1 st)
    else cbiStatus ncm cmd dev st
  else if r.ioerr = UHIOERR_STALL then
    let (r, _, st) := xfer dev .ep0 .commandAgain 0 leave st
    if r.ioerr = 0 then (0, .leave, st) else cbiRefused ncm dev r.ioerr st
  else cbiRefused ncm dev r.ioerr st

/-- The result, and the attempts: how each begins, its number and its phases. -/
structure Outcome where
  rioerr : ℤ
  attempts : List (St × ℕ × List Phase)
  st : St

/-- `rioerr` is 0, or the loop is left. -/
def ends (rioerr : ℤ) (next : Next) : Bool := rioerr = 0 || next ≠ .again

def attempts (body : Device → St → ℤ × Next × St) (devs : ℕ → Device) : ℕ → ℕ → St → Outcome
  | retrycnt, k, st =>
    if st.denyRequests then ⟨HFERR_Phase, [], st⟩
    else
      let (rioerr, next, st') := body (devs k) { st with phases := [] }
      let made := (st, k, st'.phases)
      if ends rioerr next then ⟨rioerr, [made], st'⟩
      else
        match retrycnt with
        | 0 => ⟨rioerr, [made], st'⟩
        | retrycnt + 1 =>
          let rest := attempts body devs retrycnt (k + 1) st'
          ⟨rest.rioerr, made :: rest.attempts, rest.st⟩

def nScsiDirectBulk (devs : ℕ → Device) (st : St) : Outcome :=
  attempts (bulkAttempt ncm cmd) devs cmd.autoretry.toNat 0 st

def nScsiDirectCBI (devs : ℕ → Device) (st : St) : Outcome :=
  attempts (cbiAttempt ncm cmd) devs cmd.autoretry.toNat 0 st

/-- The transports of `nScsiDirect`, UAS apart. -/
def nScsiDirect (devs : ℕ → Device) (st : St) : Outcome :=
  match ncm.tpType with
  | .bulk => nScsiDirectBulk ncm cmd devs st
  | .cbi | .cb => nScsiDirectCBI ncm cmd devs st

end Neptune.Transport
