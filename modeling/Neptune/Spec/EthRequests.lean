import Neptune.Lib.Run

/-! Online, offline and configured: the requests of any openers that change the state bits of an ethernet unit, and
the unit task that handles its port. A command handler runs under `Forbid()` and is one step; the task changes one
bit a step. -/

namespace Neptune

namespace EthOnline

abbrev EtherAddr := Vector UInt8 6

inductive IOSana2Req
  | configInterface (srcAddr : EtherAddr)
  | online
  | offline
  deriving DecidableEq

def IOSana2Req.configures : IOSana2Req → Option EtherAddr
  | .configInterface srcAddr => some srcAddr
  | _ => none

/-- What the task does next for the request it has taken from the port. -/
inductive Pc
  | configured
  | testOnline
  | setOnline
  | clearOffline
  | clearOnline
  | setOffline
  | reply
  deriving DecidableEq

/-- `DDF_CONFIGURED`, `DDF_ONLINE`, `DDF_OFFLINE`, the station address and the port. `last` is the last request
issued of those that decide whether the unit is online, `succeeded` the addresses of the configurations replied
without an error. -/
structure NepClassEth where
  configured : Bool
  online : Bool
  offline : Bool
  macAddress : EtherAddr
  msgPort : List IOSana2Req
  current : Option (IOSana2Req × Pc)
  issued : ℕ
  replied : ℕ
  last : Option IOSana2Req
  succeeded : List EtherAddr
  deriving DecidableEq

inductive Ret
  | ok
  | error
  | dontReply
  deriving DecidableEq

namespace NepClassEth

variable (ncp : NepClassEth)

def put (ioreq : IOSana2Req) : NepClassEth := { ncp with msgPort := ncp.msgPort ++ [ioreq] }

def cmdConfigInterface (srcAddr : EtherAddr) : Ret × NepClassEth :=
  if ncp.configured then (.error, ncp)
  else if srcAddr[0] &&& 1 ≠ 0 then (.error, ncp)
  else (.dontReply, { ncp with macAddress := srcAddr, last := some (.configInterface srcAddr) }.put
    (.configInterface srcAddr))

/-- An interface that is not configured stays offline, and the request counts as issued. -/
def cmdOnline : Ret × NepClassEth :=
  let ncp := { ncp with last := some .online }
  if !ncp.online then
    if !ncp.configured then (.error, ncp) else (.dontReply, { ncp with offline := false }.put .online)
  else (.ok, ncp)

def cmdOffline : Ret × NepClassEth :=
  let ncp := { ncp with last := some .offline, offline := true }
  if ncp.online then (.dontReply, { ncp with online := false }.put .offline) else (.ok, ncp)

def command : IOSana2Req → Ret × NepClassEth
  | .configInterface srcAddr => ncp.cmdConfigInterface srcAddr
  | .online => ncp.cmdOnline
  | .offline => ncp.cmdOffline

def devBeginIo (ioreq : IOSana2Req) : NepClassEth :=
  let done := ncp.command ioreq
  { done.2 with
    issued := done.2.issued + 1
    replied := if done.1 = .dontReply then done.2.replied else done.2.replied + 1 }

def handler : IOSana2Req → Pc
  | .configInterface _ => .configured
  | .online => .setOnline
  | .offline => .clearOnline

def getMsg : Option NepClassEth :=
  match ncp.current, ncp.msgPort with
  | none, ioreq :: rest => some { ncp with msgPort := rest, current := some (ioreq, handler ioreq) }
  | _, _ => none

/-- One statement of the task; `setOnline` and `clearOffline` are `nSetOnline`. -/
def work (ioreq : IOSana2Req) : Pc → NepClassEth
  | .configured => { ncp with configured := true, current := some (ioreq, .testOnline) }
  | .testOnline => { ncp with current := some (ioreq, if ncp.online then .reply else .setOnline) }
  | .setOnline => { ncp with online := true, current := some (ioreq, .clearOffline) }
  | .clearOffline => { ncp with offline := false, current := some (ioreq, .reply) }
  | .clearOnline => { ncp with online := false, current := some (ioreq, .setOffline) }
  | .setOffline => { ncp with offline := true, current := some (ioreq, .reply) }
  | .reply =>
    { ncp with
      current := none
      replied := ncp.replied + 1
      succeeded := ncp.succeeded ++ ioreq.configures.toList }

/-- The task has gone online and waits. The unit may have been configured while an earlier task ran. -/
def start (configured : Bool) (macAddress : EtherAddr) : NepClassEth :=
  ⟨configured, true, false, macAddress, [], none, 0, 0, none, []⟩

def pending : List IOSana2Req := (ncp.current.map Prod.fst).toList ++ ncp.msgPort

def comesOnline : Bool :=
  match ncp.pending.getLast? with
  | none => ncp.online
  | some ioreq => ioreq ≠ .offline

end NepClassEth

inductive Event
  | issue (ioreq : IOSana2Req)
  | getMsg
  | work
  deriving DecidableEq

def step (ncp : NepClassEth) : Event → Option NepClassEth
  | .issue ioreq => some (ncp.devBeginIo ioreq)
  | .getMsg => ncp.getMsg
  | .work => ncp.current.map fun cur => ncp.work cur.1 cur.2

/-- The last request wins, the two bits exclude each other, and the interface is configured once. -/
structure Settled (ncp : NepClassEth) : Prop where
  wins : ncp.issued = ncp.replied → (ncp.online = true ↔ ncp.last ≠ some .offline)
  apart : ncp.issued = ncp.replied → ¬(ncp.online = true ∧ ncp.offline = true)
  once : ncp.succeeded.length ≤ 1
  address : ∀ a ∈ ncp.succeeded, ncp.macAddress = a

def Orderly (ncp : NepClassEth) : Event → Prop
  | .issue .offline => ncp.online = true ∨ ncp.comesOnline = false
  | .issue .online => ncp.online = false ∧ ncp.configured = true ∨ ncp.comesOnline = true
  | .issue (.configInterface srcAddr) =>
    ncp.configured = false → srcAddr[0] &&& 1 = 0 → ∀ ioreq ∈ ncp.pending, ioreq.configures = none
  | _ => True

instance (ncp : NepClassEth) : ∀ e, Decidable (Orderly ncp e)
  | .issue .offline => inferInstanceAs (Decidable (_ ∨ _))
  | .issue .online => inferInstanceAs (Decidable (_ ∨ _))
  | .issue (.configInterface _) => inferInstanceAs (Decidable (_ → _ → _))
  | .getMsg => isTrue trivial
  | .work => isTrue trivial

end EthOnline

namespace EthRequests

open EthOnline (EtherAddr)

/-- `query` stands for the commands that never queue their request. -/
inductive Command
  | read
  | write
  | multicast
  | broadcast
  | flush
  | configInterface
  | addMulticastAddress
  | delMulticastAddress
  | addMulticastAddresses
  | delMulticastAddresses
  | onEvent
  | readOrphan
  | online
  | offline
  | query
  deriving DecidableEq

structure IOSana2Req where
  id : ℕ
  command : Command
  raw : Bool
  packetType : ℕ
  dataLength : ℕ
  wireError : ℕ
  srcAddr : EtherAddr
  dstAddr : EtherAddr
  bufMan : Option ℕ
  deriving DecidableEq

def s2eventError : ℕ := 1
def s2eventTx : ℕ := 2
def s2eventRx : ℕ := 4
def s2eventOnline : ℕ := 8
def s2eventOffline : ℕ := 16
def s2eventBuff : ℕ := 32
def s2eventHardware : ℕ := 64

def knownEvents : ℕ :=
  s2eventError ||| s2eventTx ||| s2eventRx ||| s2eventOnline ||| s2eventOffline ||| s2eventBuff ||| s2eventHardware

def etherPktSize : ℕ := 1500

def rawPktSize : ℕ := 1514

def etherMaxLen : ℕ := 2048

def etherHeaderLen : ℕ := 14

inductive S2Err
  | badState
  | outOfService
  | badArgument
  | mtuExceeded
  | badAddress
  | noResources
  | notSupported

inductive S2Werr
  | notConfigured
  | unitOffline
  | nullPointer
  | genericError
  | isConfigured
  | srcAddress
  | badMulticast
  | badEvent

inductive Queue
  | rx (bufMan : ℕ)
  | write
  | orphan
  | events
  | port
  deriving DecidableEq

/-- `queue` is a request that the command is still to queue before it returns `RC_DONTREPLY`. -/
inductive Ret
  | ok
  | error (ioError : S2Err) (wireError : S2Werr)
  | dontReply
  | queue (q : Queue)

structure BufMan where
  num : ℕ
  copyFromBuf : Bool
  copyToBuf : Bool
  rxQueue : List IOSana2Req

structure MulticastAddressRange where
  lowerAddr : EtherAddr
  upperAddr : EtherAddr
  useCount : ℕ

/-- The unit task: between requests, with one it writes or one from its port, and in its shutdown after CTRL-C, after
the offline event and after the port has been drained. -/
inductive Task
  | waiting
  | writing (ioreq : IOSana2Req)
  | handling (ioreq : IOSana2Req)
  | stopped
  | offline
  | gone
  deriving DecidableEq

def Task.ioreq : Task → Option IOSana2Req
  | .writing ioreq | .handling ioreq => some ioreq
  | _ => none

/-- `callers` are the calls of `devBeginIO` that are about to queue their request; `issued` and `replied` count the
calls and the replies of each request. -/
structure NepClassEth where
  configured : Bool
  online : Bool
  multicasts : List MulticastAddressRange
  bufManList : List BufMan
  msgPort : List IOSana2Req
  writeQueue : List IOSana2Req
  writePending : Option IOSana2Req
  orphanQueue : List IOSana2Req
  eventList : List IOSana2Req
  task : Task
  callers : List (IOSana2Req × Queue)
  issued : ℕ → ℕ
  replied : ℕ → ℕ

/-- A received packet, with what the packet filters and the copy functions make of it. -/
structure Packet where
  pktlen : ℕ
  type : ℕ
  src : EtherAddr
  dest : EtherAddr
  accepted : IOSana2Req → Bool
  copied : IOSana2Req → Bool

def Packet.build (packet : Packet) (ioreq : IOSana2Req) : IOSana2Req :=
  let datasize := packet.pktlen - etherHeaderLen
  { ioreq with
    packetType := packet.type
    srcAddr := packet.src
    dstAddr := packet.dest
    dataLength := if ioreq.raw then datasize + etherHeaderLen + 4 else datasize }

namespace NepClassEth

variable (ncp : NepClassEth)

def start (configured : Bool) : NepClassEth :=
  ⟨configured, true, [], [], [], [], none, [], [], .waiting, [], fun _ => 0, fun _ => 0⟩

/-- `ReplyMsg`, or the return of a quick request. -/
def reply (ioreq : IOSana2Req) : NepClassEth :=
  { ncp with replied := Function.update ncp.replied ioreq.id (ncp.replied ioreq.id + 1) }

def replyAll (ioreqs : List IOSana2Req) : NepClassEth := ioreqs.foldl reply ncp

def putMsg (ioreq : IOSana2Req) : NepClassEth := { ncp with msgPort := ncp.msgPort ++ [ioreq] }

def nDoEvent (events : ℕ) : NepClassEth :=
  { ncp with eventList := ncp.eventList.filter fun ioreq => ioreq.wireError &&& events = 0 }.replyAll
    (ncp.eventList.filter fun ioreq => ¬ioreq.wireError &&& events = 0)

def nSetOnline : NepClassEth := { ncp with online := true }.nDoEvent s2eventOnline

def bufManOf (ioreq : IOSana2Req) : Option BufMan :=
  ioreq.bufMan.bind fun b => ncp.bufManList.find? fun bufman => bufman.num = b

def clearRx (b : ℕ) (bufman : BufMan) : BufMan := if bufman.num = b then { bufman with rxQueue := [] } else bufman

def rxOf (b : ℕ) (bufman : BufMan) : List IOSana2Req := if bufman.num = b then bufman.rxQueue else []

def abortRw (b : ℕ) : NepClassEth :=
  let ncp := { ncp with bufManList := ncp.bufManList.map (clearRx b) }.replyAll (ncp.bufManList.flatMap (rxOf b))
  let ncp := { ncp with orphanQueue := ncp.orphanQueue.filter fun ioreq => ¬ioreq.bufMan = some b }.replyAll
    (ncp.orphanQueue.filter fun ioreq => ioreq.bufMan = some b)
  { ncp with writeQueue := ncp.writeQueue.filter fun ioreq => ¬ioreq.bufMan = some b }.replyAll
    (ncp.writeQueue.filter fun ioreq => ioreq.bufMan = some b)

def cmdRead (ioreq : IOSana2Req) : Ret :=
  if !ncp.configured then .error .badState .notConfigured
  else if !ncp.online then .error .outOfService .unitOffline
  else
    match ncp.bufManOf ioreq with
    | none => .error .badArgument .nullPointer
    | some bufman => if bufman.copyToBuf then .queue (.rx bufman.num) else .error .badArgument .nullPointer

def cmdWrite (ioreq : IOSana2Req) : Ret × NepClassEth :=
  if !ncp.configured then (.error .badState .notConfigured, ncp)
  else if !ncp.online then (.error .outOfService .unitOffline, ncp)
  else
    match ncp.bufManOf ioreq with
    | none => (.error .badArgument .nullPointer, ncp)
    | some bufman =>
      if !bufman.copyFromBuf then (.error .badArgument .nullPointer, ncp)
      else if ioreq.dataLength > (if ioreq.raw then rawPktSize else etherPktSize) then
        (.error .mtuExceeded .genericError, ncp.nDoEvent (s2eventError ||| s2eventTx))
      else (.queue .write, ncp)

def cmdFlush (ioreq : IOSana2Req) : NepClassEth :=
  match ioreq.bufMan with
  | none => ncp
  | some b =>
    let ncp := ncp.abortRw b
    { ncp with eventList := ncp.eventList.filter fun ioreq => ¬ioreq.bufMan = some b }.replyAll
      (ncp.eventList.filter fun ioreq => ioreq.bufMan = some b)

def cmdConfigInterface (ioreq : IOSana2Req) : Ret × NepClassEth :=
  if ncp.configured then (.error .badState .isConfigured, ncp)
  else if ioreq.srcAddr[0] &&& 1 ≠ 0 then (.error .badAddress .srcAddress, ncp)
  else (.dontReply, ncp.putMsg ioreq)

/-- `mem` is whether the new node can be allocated. -/
def addMCastRange (lower upper : EtherAddr) (mem : Bool) : Ret × NepClassEth :=
  if lower[0] &&& 1 = 0 ∨ upper[0] &&& 1 = 0 then (.error .badAddress .badMulticast, ncp)
  else
    match ncp.multicasts.findIdx? fun mar => mar.lowerAddr = lower ∧ mar.upperAddr = upper with
    | none =>
      if !mem then (.error .noResources .genericError, ncp)
      else (.queue .port, { ncp with multicasts := ncp.multicasts ++ [⟨lower, upper, 1⟩] })
    | some i =>
      (.ok, { ncp with multicasts := ncp.multicasts.modify i fun mar => { mar with useCount := mar.useCount + 1 } })

def delMCastRange (lower upper : EtherAddr) : Ret × NepClassEth :=
  match ncp.multicasts.findIdx? fun mar => mar.lowerAddr = lower ∧ mar.upperAddr = upper with
  | none => (.error .badState .badMulticast, ncp)
  | some i =>
    if (ncp.multicasts[i]?.map MulticastAddressRange.useCount) = some 1 then
      (.queue .port, { ncp with multicasts := ncp.multicasts.eraseIdx i })
    else
      (.ok, { ncp with multicasts := ncp.multicasts.modify i fun mar => { mar with useCount := mar.useCount - 1 } })

def cmdMulticast (ioreq : IOSana2Req) : Ret × NepClassEth :=
  if ioreq.dstAddr[0] &&& 1 ≠ 0 then ncp.cmdWrite ioreq
  else (.error .badAddress .badMulticast, ncp.nDoEvent (s2eventError ||| s2eventTx))

def cmdOnEvent (ioreq : IOSana2Req) : Ret :=
  if ioreq.wireError &&& knownEvents ≠ ioreq.wireError then .error .notSupported .badEvent
  else if ncp.online then if ioreq.wireError &&& s2eventOnline ≠ 0 then .ok else .queue .events
  else if ioreq.wireError &&& s2eventOffline ≠ 0 then .ok
  else .queue .events

def cmdReadOrphan (ioreq : IOSana2Req) : Ret :=
  if !ncp.configured then .error .badState .notConfigured
  else if !ncp.online then .error .outOfService .unitOffline
  else
    match ncp.bufManOf ioreq with
    | none => .error .badArgument .nullPointer
    | some bufman => if bufman.copyToBuf then .queue .orphan else .error .badArgument .nullPointer

def cmdOnline (ioreq : IOSana2Req) : Ret × NepClassEth :=
  if !ncp.online then
    if !ncp.configured then (.error .badState .notConfigured, ncp) else (.dontReply, ncp.putMsg ioreq)
  else (.ok, ncp)

def cmdOffline (ioreq : IOSana2Req) : Ret × NepClassEth :=
  if ncp.online then
    let ncp := { ncp with online := false }
    let ncp :=
      match ioreq.bufMan with
      | none => ncp
      | some b => ncp.abortRw b
    (.dontReply, (ncp.nDoEvent s2eventOffline).putMsg ioreq)
  else (.ok, ncp)

def command (ioreq : IOSana2Req) (mem : Bool) : Ret × NepClassEth :=
  match ioreq.command with
  | .read => (ncp.cmdRead ioreq, ncp)
  | .write => ncp.cmdWrite ioreq
  | .multicast => ncp.cmdMulticast ioreq
  | .broadcast => ncp.cmdWrite { ioreq with dstAddr := Vector.replicate 6 0xff }
  | .flush => (.ok, ncp.cmdFlush ioreq)
  | .configInterface => ncp.cmdConfigInterface ioreq
  | .addMulticastAddress => ncp.addMCastRange ioreq.srcAddr ioreq.srcAddr mem
  | .delMulticastAddress => ncp.delMCastRange ioreq.srcAddr ioreq.srcAddr
  | .addMulticastAddresses => ncp.addMCastRange ioreq.srcAddr ioreq.dstAddr mem
  | .delMulticastAddresses => ncp.delMCastRange ioreq.srcAddr ioreq.dstAddr
  | .onEvent => (ncp.cmdOnEvent ioreq, ncp)
  | .readOrphan => (ncp.cmdReadOrphan ioreq, ncp)
  | .online => ncp.cmdOnline ioreq
  | .offline => ncp.cmdOffline ioreq
  | .query => (.ok, ncp)

def devBeginIo (ioreq : IOSana2Req) (mem : Bool) : NepClassEth :=
  let done := { ncp with issued := Function.update ncp.issued ioreq.id (ncp.issued ioreq.id + 1) }.command ioreq mem
  match done.1 with
  | .ok | .error _ _ => done.2.reply ioreq
  | .dontReply => done.2
  | .queue q => { done.2 with callers := done.2.callers ++ [(ioreq, q)] }

/-- `AddTail` to the list of an opener, which is not found once it has been freed. -/
def addRx (b : ℕ) (ioreq : IOSana2Req) : List BufMan → List BufMan
  | [] => []
  | bufman :: rest =>
    if bufman.num = b then { bufman with rxQueue := bufman.rxQueue ++ [ioreq] } :: rest else bufman :: addRx b ioreq rest

def addTail (ioreq : IOSana2Req) : Queue → NepClassEth
  | .rx b => { ncp with bufManList := addRx b ioreq ncp.bufManList }
  | .write => { ncp with writeQueue := ncp.writeQueue ++ [ioreq] }
  | .orphan => { ncp with orphanQueue := ncp.orphanQueue ++ [ioreq] }
  | .events => { ncp with eventList := ncp.eventList ++ [ioreq] }
  | .port => ncp.putMsg ioreq

def abortReq (r : ℕ) : List IOSana2Req → Option (List IOSana2Req)
  | [] => none
  | node :: rest => if node.id = r then some rest else (abortReq r rest).map (node :: ·)

def abortRead (r : ℕ) : List BufMan → Option (List BufMan)
  | [] => none
  | worknode :: rest =>
    match abortReq r worknode.rxQueue with
    | some rxQueue => some ({ worknode with rxQueue := rxQueue } :: rest)
    | none => (abortRead r rest).map (worknode :: ·)

/-- A request is an `NT_MESSAGE` until it is replied. -/
def devAbortIo (ioreq : IOSana2Req) : NepClassEth :=
  if ncp.issued ioreq.id ≤ ncp.replied ioreq.id then ncp
  else
    match ioreq.command with
    | .read =>
      match abortRead ioreq.id ncp.bufManList with
      | some bufManList => { ncp with bufManList := bufManList }.reply ioreq
      | none => ncp
    | .readOrphan =>
      match abortReq ioreq.id ncp.orphanQueue with
      | some orphanQueue => { ncp with orphanQueue := orphanQueue }.reply ioreq
      | none => ncp
    | .write | .multicast | .broadcast =>
      match abortReq ioreq.id ncp.writeQueue with
      | some writeQueue => { ncp with writeQueue := writeQueue }.reply ioreq
      | none => ncp
    | .online | .offline | .configInterface | .addMulticastAddress | .delMulticastAddress | .addMulticastAddresses
    | .delMulticastAddresses =>
      match abortReq ioreq.id ncp.msgPort with
      | some msgPort => { ncp with msgPort := msgPort }.reply ioreq
      | none => ncp
    | .onEvent =>
      match abortReq ioreq.id ncp.eventList with
      | some eventList => { ncp with eventList := eventList }.reply ioreq
      | none => ncp
    | .flush | .query => ncp

/-- `prepared` is what `cdceth_prepare_tx` returns and `copied` what the opener's copy function does. -/
def nWritePacket (ioreq : IOSana2Req) (prepared copied : Bool) : Bool × NepClassEth :=
  if !prepared then (false, ncp.nDoEvent (s2eventError ||| s2eventTx ||| s2eventBuff))
  else if !copied then (false, ncp.nDoEvent (s2eventError ||| s2eventTx ||| s2eventBuff))
  else (true, { ncp with writePending := some ioreq })

def cdcethCompleteWrite (ioerr : Bool) : NepClassEth :=
  match ncp.writePending with
  | none => ncp
  | some ioreq =>
    let ncp := if ioerr then ncp.nDoEvent (s2eventError ||| s2eventTx) else ncp
    { ncp.reply ioreq with writePending := none }

/-- Whether the packet is still dropped, and the request where the filter has left it queued. -/
def nReadIoReq (packet : Packet) (ioreq : IOSana2Req) (packetFilter dropped : Bool) :
    NepClassEth × Bool × Option IOSana2Req :=
  let ioreq := packet.build ioreq
  if packetFilter && !packet.accepted ioreq then (ncp, dropped, some ioreq)
  else if packet.copied ioreq then (ncp.reply ioreq, false, none)
  else ((ncp.nDoEvent (s2eventError ||| s2eventRx ||| s2eventBuff)).reply ioreq, dropped, none)

def readOrphan (packet : Packet) (ncp : NepClassEth) (worknode : IOSana2Req) : NepClassEth :=
  (ncp.nReadIoReq packet worknode false false).1

def wanted (packet : Packet) (ioreq : IOSana2Req) : Bool :=
  ioreq.packetType = packet.type || (packet.type < etherPktSize && ioreq.packetType < etherPktSize)

def offerQueue (packet : Packet) (ncp : NepClassEth) (dropped : Bool) :
    List IOSana2Req → NepClassEth × Bool × List IOSana2Req
  | [] => (ncp, dropped, [])
  | worknode :: rest =>
    if wanted packet worknode then
      let res := ncp.nReadIoReq packet worknode true dropped
      (res.1, res.2.1, res.2.2.toList ++ rest)
    else
      let res := offerQueue packet ncp dropped rest
      (res.1, res.2.1, worknode :: res.2.2)

def offerAll (packet : Packet) (ncp : NepClassEth) (dropped : Bool) :
    List BufMan → NepClassEth × Bool × List BufMan
  | [] => (ncp, dropped, [])
  | bufman :: rest =>
    let first := offerQueue packet ncp dropped bufman.rxQueue
    let others := offerAll packet first.1 first.2.1 rest
    (others.1, others.2.1, { bufman with rxQueue := first.2.2 } :: others.2.2)

/-- Every pending orphan read gets a packet that nobody else has taken. -/
def nReadPacket (packet : Packet) : NepClassEth :=
  if packet.pktlen < etherHeaderLen then ncp
  else if packet.pktlen ≤ etherMaxLen then
    let res := offerAll packet ncp true ncp.bufManList
    let ncp := { res.1 with bufManList := res.2.2 }
    if res.2.1 then
      (ncp.orphanQueue.foldl (readOrphan packet) { ncp with orphanQueue := [] }).nDoEvent (s2eventError ||| s2eventRx)
    else ncp
  else ncp.nDoEvent (s2eventError ||| s2eventRx)

/-- What the task does with a request from its port before it replies it. -/
def handle (ioreq : IOSana2Req) : NepClassEth :=
  match ioreq.command with
  | .configInterface =>
    let ncp := { ncp with configured := true }
    if !ncp.online then ncp.nSetOnline else ncp
  | .online => ncp.nSetOnline
  | .offline => { ncp with online := false }
  | _ => ncp

/-- The shutdown as far as it is under the first `Forbid()`. -/
def stop : NepClassEth :=
  match ncp.writePending with
  | none => { ncp with task := .stopped }
  | some ioreq => { ncp.reply ioreq with writePending := none, task := .stopped }

def nFreeEth : NepClassEth := { ncp with msgPort := [], task := .gone }.replyAll ncp.msgPort

end NepClassEth

/-- `addTail` ends a `devBeginIO` that queues its request. `takeWrite` and `getMsg` are the unit task taking a request,
`nWritePacket` and `handled` what it does with it. -/
inductive Event
  | devOpen (num : ℕ) (copyFromBuf copyToBuf : Bool)
  | devClose (num : ℕ)
  | beginIo (ioreq : IOSana2Req) (mem : Bool)
  | addTail (ioreq : IOSana2Req) (q : Queue)
  | abortIo (ioreq : IOSana2Req)
  | takeWrite
  | nWritePacket (prepared copied : Bool)
  | writeBack (ioerr : Bool)
  | readBack (packet : Packet)
  | getMsg
  | handled
  | stop
  | offlineEvent
  | nFreeEth

def step (ncp : NepClassEth) : Event → Option NepClassEth
  | .devOpen num copyFromBuf copyToBuf =>
    if ∀ bufman ∈ ncp.bufManList, bufman.num ≠ num then
      some { ncp with bufManList := ⟨num, copyFromBuf, copyToBuf, []⟩ :: ncp.bufManList }
    else none
  | .devClose num => some { ncp with bufManList := ncp.bufManList.filter fun bufman => ¬bufman.num = num }
  | .beginIo ioreq mem =>
    -- a request is issued by an opener, and not again while it is pending
    if ncp.replied ioreq.id = ncp.issued ioreq.id ∧ (ioreq.bufMan.isNone ∨ (ncp.bufManOf ioreq).isSome) then
      some (ncp.devBeginIo ioreq mem)
    else none
  | .addTail ioreq q =>
    if (ioreq, q) ∈ ncp.callers then some ({ ncp with callers := ncp.callers.erase (ioreq, q) }.addTail ioreq q)
    else none
  | .abortIo ioreq => some (ncp.devAbortIo ioreq)
  | .takeWrite =>
    match ncp.writeQueue with
    | [] => none
    | ioreq :: rest =>
      if ncp.task = .waiting ∧ ncp.writePending = none then
        some { ncp with writeQueue := rest, task := .writing ioreq }
      else none
  | .nWritePacket prepared copied =>
    match ncp.task with
    | .writing ioreq => some ({ ncp with task := .waiting }.nWritePacket ioreq prepared copied).2
    | _ => none
  | .writeBack ioerr => if ncp.task = .waiting then some (ncp.cdcethCompleteWrite ioerr) else none
  | .readBack packet => if ncp.task = .waiting then some (ncp.nReadPacket packet) else none
  | .getMsg =>
    match ncp.msgPort with
    | [] => none
    | ioreq :: rest =>
      if ncp.task = .waiting then some { ncp with msgPort := rest, task := .handling ioreq } else none
  | .handled =>
    match ncp.task with
    | .handling ioreq => some (({ ncp with task := .waiting }.handle ioreq).reply ioreq)
    | _ => none
  | .stop => if ncp.task = .waiting then some ncp.stop else none
  | .offlineEvent => if ncp.task = .stopped then some { ncp.nDoEvent s2eventOffline with task := .offline } else none
  | .nFreeEth => if ncp.task = .offline then some ncp.nFreeEth else none

namespace NepClassEth

variable (ncp : NepClassEth)

/-- The requests that somebody has: the queues, the unit task and the calls of `devBeginIO`. -/
def queued : List IOSana2Req :=
  ncp.msgPort ++ ncp.writeQueue ++ ncp.writePending.toList ++ ncp.orphanQueue ++ ncp.eventList ++
    ncp.bufManList.flatMap BufMan.rxQueue

def held : List IOSana2Req := ncp.queued ++ ncp.task.ioreq.toList ++ ncp.callers.map Prod.fst

def puts (ioreq : IOSana2Req) : Bool :=
  match ioreq.command with
  | .configInterface => !ncp.configured && ioreq.srcAddr[0] &&& 1 = 0
  | .online => !ncp.online && ncp.configured
  | .offline => ncp.online
  | _ => false

end NepClassEth

/-- Every call has been replied once or is held in one place, and nothing is queued once the unit is gone. -/
structure Answered (ncp : NepClassEth) : Prop where
  once : ∀ r, ncp.replied r + (ncp.held.map IOSana2Req.id).count r = ncp.issued r
  empty : ncp.task = .gone → ncp.queued = []

/-- No packet fails to be written, nothing is left to a unit that shuts down but the requests on its port, and no
opener goes while it has a read. -/
def Kept (ncp : NepClassEth) : Event → Prop
  | .devClose num => ∀ bufman ∈ ncp.bufManList, bufman.num = num → bufman.rxQueue = []
  | .beginIo ioreq _ => ncp.task = .gone → ncp.puts ioreq = false
  | .addTail _ q => ncp.task ≠ .gone ∧ ∀ b, q = .rx b → ∃ bufman ∈ ncp.bufManList, bufman.num = b
  | .nWritePacket prepared copied => prepared = true ∧ copied = true
  | .nFreeEth =>
    ncp.writeQueue = [] ∧ ncp.orphanQueue = [] ∧ ncp.eventList = [] ∧ ∀ bufman ∈ ncp.bufManList, bufman.rxQueue = []
  | _ => True

end EthRequests

end Neptune
