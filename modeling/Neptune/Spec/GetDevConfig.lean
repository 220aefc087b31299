import Neptune.Spec.Interfaces

/-! `pGetDevConfig`: the configurations, interfaces and endpoints that the device's configuration descriptors
describe. A reply is read through a reader, which either refuses what lies outside or gives what memory holds there.
Every node is added at the end of its list, so that `pc`, `pif`, `altif` and `pep` are each `NULL` or the last node of
theirs. -/

namespace Neptune.DevConfig

def UDT_CONFIGURATION : ℕ := 0x02
def UDT_INTERFACE : ℕ := 0x04
def UDT_ENDPOINT : ℕ := 0x05
def UDT_CS_UNDEFINED : ℕ := 0x20
def UDT_CS_ENDPOINT : ℕ := 0x25
def UDT_SUPERSPEED_EP_COMP : ℕ := 0x30
def UDT_SUPERSPEED_ISO_COMP : ℕ := 0x31

inductive TransType
  | control
  | isochronous
  | bulk
  | interrupt
  deriving DecidableEq, Repr

def TransType.ofAttributes (bmAttributes : ℕ) : TransType :=
  match bmAttributes % 4 with
  | 0 => .control
  | 1 => .isochronous
  | 2 => .bulk
  | _ => .interrupt

def TransType.toNat : TransType → ℕ
  | .control => 0
  | .isochronous => 1
  | .bulk => 2
  | .interrupt => 3

/-- `PDFF_SUPERSPEED`, `PDFF_HIGHSPEED`, `PDFF_LOWSPEED`. -/
structure Speed where
  super : Bool
  high : Bool
  low : Bool
  deriving DecidableEq, Repr

structure PsdEndpoint where
  id : ℕ
  epNum : ℕ
  direction : ℕ
  transType : TransType
  syncType : ℕ
  usageType : ℕ
  maxPktSize : ℕ
  numTransMuFr : ℕ
  interval : ℕ
  intervalRaw : ℕ
  maxBurst : ℕ
  compAttributes : ℕ
  bytesPerInterval : ℕ
  maxStreams : ℕ
  /-- The count of the shift that has been evaluated for `interval`. -/
  shift : Option ℕ
  deriving DecidableEq, Repr

/-- `ifStr`: the index of the string that is asked for. -/
structure PsdInterface where
  id : ℕ
  ifNum : ℕ
  alternate : ℕ
  numEPs : ℕ
  ifClass : ℕ
  ifSubClass : ℕ
  ifProto : ℕ
  ifStr : ℕ
  parentIf : Option ℕ
  eps : List PsdEndpoint
  deriving DecidableEq, Repr

structure MainIf where
  pif : PsdInterface
  alterIfs : List PsdInterface
  deriving DecidableEq, Repr

structure PsdConfig where
  id : ℕ
  numIfs : ℕ
  cfgNum : ℕ
  attr : ℕ
  maxPower : ℕ
  cfgStr : ℕ
  interfaces : List MainIf
  deriving DecidableEq, Repr

structure PsdDescriptor where
  length : ℕ
  type : ℕ
  csSubType : ℕ
  data : List ℕ
  config : Option ℕ
  interface : Option ℕ
  endpoint : Option ℕ
  deriving DecidableEq, Repr

def PsdEndpoint.toCtx (pep : PsdEndpoint) : Neptune.PsdEndpoint :=
  ⟨⟨pep.id, pep.epNum + if pep.direction ≠ 0 then 0x80 else 0⟩, none, 0, pep.maxStreams⟩

def PsdInterface.toCtx (pif : PsdInterface) : Neptune.PsdInterface :=
  ⟨pif.id, pif.ifNum, pif.alternate, pif.numEPs, pif.eps.map PsdEndpoint.toCtx, none, none, pif.parentIf⟩

def MainIf.toCtx (m : MainIf) : Neptune.MainIf := ⟨m.pif.toCtx, m.alterIfs.map PsdInterface.toCtx⟩

def PsdConfig.toCtx (pc : PsdConfig) : Neptune.PsdConfig := ⟨pc.cfgNum, pc.interfaces.map MainIf.toCtx⟩

inductive Fault
  | outside
  | endless
  deriving DecidableEq, Repr

abbrev Reader := ℕ → Except Fault ℕ

def Reader.le2word (get : Reader) (i : ℕ) : Except Fault ℕ := do
  let lo ← get i
  let hi ← get (i + 1)
  return lo + 2 ^ 8 * hi

def Reader.le2long (get : Reader) (i : ℕ) : Except Fault ℕ := do
  let lo ← get.le2word i
  let hi ← get.le2word (i + 2)
  return lo + 2 ^ 16 * hi

def Reader.copyMem (get : Reader) (i : ℕ) : ℕ → Except Fault (List ℕ)
  | 0 => return []
  | n + 1 => do
    let b ← get i
    let rest ← copyMem get (i + 1) n
    return b :: rest

/-- Whether the allocator has room for the node, and for the `PsdDescriptor`, of the descriptor at an offset. -/
structure Alloc where
  node : ℕ → Bool
  desc : ℕ → Bool

/-- The packet size and the interval, and the count of the shift. -/
structure Polling where
  maxPktSize : ℕ
  interval : ℕ
  shift : Option ℕ
  deriving DecidableEq, Repr

/-- `pep_Interval = 1<<(pep_Interval-1)`, of a `UBYTE` that is not zero. The processor takes the count modulo 64. -/
def shifted (maxPktSize interval : ℕ) : Polling :=
  ⟨maxPktSize, uword (2 ^ ((interval - 1) % 64)), some (interval - 1)⟩

def clampLow (bInterval : ℕ) : ℕ := if bInterval = 0 then 1 else bInterval

def clampInterval (bInterval : ℕ) : ℕ := if bInterval = 0 then 1 else if bInterval > 16 then 16 else bInterval

def clampPkt (bound maxPktSize : ℕ) : ℕ := if maxPktSize > bound then bound else maxPktSize

def polling (pd : Speed) (transType : TransType) (maxPktSize bInterval : ℕ) : Polling :=
  if pd.super then
    match transType with
    | .control | .bulk => ⟨maxPktSize, 0, none⟩
    | .isochronous => shifted (clampPkt 1024 maxPktSize) (clampInterval bInterval)
    | .interrupt => shifted maxPktSize (clampLow bInterval)
  else if pd.high then
    match transType with
    | .control | .bulk => ⟨maxPktSize, bInterval, none⟩
    | .isochronous => shifted (clampPkt 1024 maxPktSize) (clampInterval bInterval)
    | .interrupt => shifted maxPktSize (clampInterval bInterval)
  else if pd.low then
    match transType with
    | .interrupt => ⟨maxPktSize, if bInterval < 8 then 8 else bInterval, none⟩
    | .control | .bulk => ⟨maxPktSize, 0, none⟩
    | .isochronous => ⟨maxPktSize, bInterval, none⟩
  else
    match transType with
    | .interrupt => ⟨maxPktSize, clampLow bInterval, none⟩
    | .control | .bulk => ⟨maxPktSize, 0, none⟩
    | .isochronous => shifted (clampPkt 1023 maxPktSize) (clampInterval bInterval)

def endpointOf (pd : Speed) (id bEndpointAddress bmAttributes wMaxPacketSize bInterval : ℕ) : PsdEndpoint :=
  let transType := TransType.ofAttributes bmAttributes
  let maxPktSize := wMaxPacketSize % 2 ^ 11
  let numTransMuFr := wMaxPacketSize / 2 ^ 11 % 4 + 1
  let poll := polling pd transType maxPktSize bInterval
  { id := id
    epNum := bEndpointAddress % 16
    direction := bEndpointAddress / 2 ^ 7
    transType := transType
    syncType := bmAttributes / 4 % 4
    usageType := bmAttributes / 16 % 4
    maxPktSize := poll.maxPktSize
    numTransMuFr := if numTransMuFr = 4 then 1 else numTransMuFr
    interval := poll.interval
    intervalRaw := bInterval
    maxBurst := 1
    compAttributes := 0
    bytesPerInterval := maxPktSize
    maxStreams := 0
    shift := poll.shift }

def pGetMaxStreamsForEndpoint (pd : Speed) (pep : PsdEndpoint) : ℕ :=
  if !pd.super then 0
  else if pep.transType ≠ .bulk then 0
  else
    let n := pep.compAttributes % 32
    if n = 0 then 0 else if n ≥ 16 then 0xFFFF else 2 ^ n

def PsdEndpoint.companion (pd : Speed) (bMaxBurst bmAttributes wBytesPerInterval : ℕ) (pep : PsdEndpoint) :
    PsdEndpoint :=
  let pep := { pep with
    maxBurst := bMaxBurst + 1
    compAttributes := bmAttributes
    bytesPerInterval := wBytesPerInterval }
  { pep with
    maxStreams := pGetMaxStreamsForEndpoint pd pep
    numTransMuFr :=
      if pd.super && pep.transType = .isochronous then bmAttributes % 4 + 1 else pep.numTransMuFr }

def onLast {α : Type} (f : α → α) : List α → List α
  | [] => []
  | [x] => [f x]
  | x :: l => x :: onLast f l

/-- `pif`, and an interface, which becomes its alternate. -/
def MainIf.addAlternate (altif : PsdInterface) (m : MainIf) : MainIf :=
  { m with alterIfs := m.alterIfs ++ [{ altif with parentIf := some m.pif.id }] }

/-- The interface that `altif` is: the main one, or the last of its alternates. -/
def MainIf.onAltif (isAlt : Bool) (f : PsdInterface → PsdInterface) (m : MainIf) : MainIf :=
  if isAlt then { m with alterIfs := onLast f m.alterIfs } else { m with pif := f m.pif }

def PsdConfig.onMains (f : List MainIf → List MainIf) (pc : PsdConfig) : PsdConfig :=
  { pc with interfaces := f pc.interfaces }

/-- `pc`, `pif` and `pep` tell whether the pointer is not `NULL`; `altif` tells of an alternate by `true`. `base` is the
address of a descriptor at the start of the buffer. -/
structure Parse where
  configs : List PsdConfig
  descriptors : List PsdDescriptor
  base : ℕ
  pc : Bool
  pif : Bool
  altif : Option Bool
  pep : Bool
  deriving DecidableEq, Repr

namespace Parse

variable (s : Parse)

def onAltif (f : PsdInterface → PsdInterface) : Parse :=
  match s.altif with
  | none => s
  | some isAlt => { s with configs := onLast (PsdConfig.onMains (onLast (MainIf.onAltif isAlt f))) s.configs }

def curConfig : Option PsdConfig := if s.pc then s.configs.getLast? else none

def curMain : Option MainIf := s.curConfig.bind fun pc => if s.pif then pc.interfaces.getLast? else none

def curAltif : Option PsdInterface :=
  match s.altif with
  | none => none
  | some false => s.curMain.map (·.pif)
  | some true => s.curMain.bind (·.alterIfs.getLast?)

def curPep : Option PsdEndpoint := if s.pep then s.curAltif.bind (·.eps.getLast?) else none

def addConfig (pc : PsdConfig) : Parse :=
  { s with configs := s.configs ++ [pc], pc := true, pif := false, altif := none, pep := false }

/-- `pAllocInterface`, filled in and moved to the alternatives where that is possible. -/
def addInterface (altif : PsdInterface) : Parse :=
  if altif.alternate ≠ 0 ∧ s.pif = true then
    { s with
      configs := onLast (PsdConfig.onMains (onLast (MainIf.addAlternate altif))) s.configs
      altif := some true
      pep := false }
  else
    { s with
      configs := onLast (PsdConfig.onMains (· ++ [⟨altif, []⟩])) s.configs
      pif := true
      altif := some false
      pep := false }

def addEndpoint (pep : PsdEndpoint) : Parse :=
  { s.onAltif (fun altif => { altif with eps := altif.eps ++ [pep] }) with pep := true }

def onPep (f : PsdEndpoint → PsdEndpoint) : Parse :=
  s.onAltif fun altif => { altif with eps := onLast f altif.eps }

end Parse

def PsdConfig.ifs (pc : PsdConfig) : List PsdInterface := pc.interfaces.flatMap fun m => m.pif :: m.alterIfs

def Parse.ifs (s : Parse) : List PsdInterface := s.configs.flatMap (·.ifs)

def Parse.eps (s : Parse) : List PsdEndpoint := s.ifs.flatMap (·.eps)

variable (get : Reader) (w : Alloc) (pd : Speed) (pos : ℕ) (s : Parse)

def parseConfiguration : Except Fault Parse :=
  if w.node pos then do
    let bNumInterfaces ← get (pos + 4)
    let bConfigurationValue ← get (pos + 5)
    let iConfiguration ← get (pos + 6)
    let bmAttributes ← get (pos + 7)
    let bMaxPower ← get (pos + 8)
    return s.addConfig
      ⟨s.base + pos, bNumInterfaces, bConfigurationValue, bmAttributes, 2 * bMaxPower, iConfiguration, []⟩
  else return { s with pc := false, pif := false, altif := none, pep := false }

def parseInterface : Except Fault Parse :=
  if !s.pc then return { s with pep := false }
  else if w.node pos then do
    let bInterfaceNumber ← get (pos + 2)
    let bAlternateSetting ← get (pos + 3)
    let bNumEndpoints ← get (pos + 4)
    let bInterfaceClass ← get (pos + 5)
    let bInterfaceSubClass ← get (pos + 6)
    let bInterfaceProtocol ← get (pos + 7)
    let iInterface ← get (pos + 8)
    return s.addInterface
      ⟨s.base + pos, bInterfaceNumber, bAlternateSetting, bNumEndpoints, bInterfaceClass, bInterfaceSubClass,
        bInterfaceProtocol, iInterface, none, []⟩
  else return { s with altif := none, pep := false }

def parseEndpoint : Except Fault Parse :=
  if s.altif.isNone then return s
  else if w.node pos then do
    let bEndpointAddress ← get (pos + 2)
    let bmAttributes ← get (pos + 3)
    let wMaxPacketSize ← get.le2word (pos + 4)
    let bInterval ← get (pos + 6)
    return s.addEndpoint (endpointOf pd (s.base + pos) bEndpointAddress bmAttributes wMaxPacketSize bInterval)
  else return { s with pep := false }

def parseEpComp : Except Fault Parse :=
  if !s.pep then return s
  else do
    let bMaxBurst ← get (pos + 2)
    let bmAttributes ← get (pos + 3)
    let wBytesPerInterval ← get.le2word (pos + 4)
    return s.onPep (PsdEndpoint.companion pd bMaxBurst bmAttributes wBytesPerInterval)

def parseIsoComp : Except Fault Parse :=
  if !s.pep then return s
  else do
    let dwBytesPerInterval ← get.le2long (pos + 4)
    return s.onPep fun pep => { pep with bytesPerInterval := dwBytesPerInterval }

/-- The switch over `bDescriptorType`. -/
def parseType (type : ℕ) : Except Fault Parse :=
  if type = UDT_CONFIGURATION then parseConfiguration get w pos s
  else if type = UDT_INTERFACE then parseInterface get w pos s
  else if type = UDT_ENDPOINT then parseEndpoint get w pd pos s
  else if type = UDT_SUPERSPEED_EP_COMP then parseEpComp get pd pos s
  else if type = UDT_SUPERSPEED_ISO_COMP then parseIsoComp get pos s
  else return s

def isClassSpecific (type : ℕ) : Bool := UDT_CS_UNDEFINED ≤ type && type ≤ UDT_CS_ENDPOINT

def Reader.csSubType (get : Reader) (pos type : ℕ) : Except Fault ℕ :=
  if isClassSpecific type then get (pos + 2) else return 0

def pAllocDescriptor (dlen type : ℕ) : Except Fault Parse :=
  if w.desc pos then do
    let csSubType ← get.csSubType pos type
    let data ← get.copyMem pos dlen
    return { s with
      descriptors := s.descriptors ++
        [⟨dlen, type, csSubType, data, s.curConfig.map (·.id), s.curAltif.map (·.id), s.curPep.map (·.id)⟩] }
  else return s

/-- A descriptor that the end of the buffer cuts off is reported, and parsed. -/
def parseDescriptor (dlen : ℕ) : Except Fault Parse := do
  let type ← get (pos + 1)
  let s ← parseType get w pd pos s type
  pAllocDescriptor get w pos s dlen type

def parseLoop (bufend : ℕ) : ℕ → ℕ → Parse → Except Fault Parse
  | 0, pos, s => if pos < bufend then throw .endless else return s
  | rounds + 1, pos, s =>
    if pos < bufend then do
      let dlen ← get pos
      if dlen < 2 then return s
      else
        let s ← parseDescriptor get w pd pos s dlen
        parseLoop bufend rounds (pos + dlen) s
    else return s

/-- What is in the buffer of a configuration, and behind it. -/
structure Buffer where
  bytes : List UInt8
  behind : ℕ → UInt8

namespace Buffer

def inside (buf : Buffer) : Reader := fun i =>
  match buf.bytes[i]? with
  | some b => .ok b.toNat
  | none => .error .outside

def peek (buf : Buffer) (i : ℕ) : ℕ := ((buf.bytes[i]?).getD (buf.behind i)).toNat

def memory (buf : Buffer) : Reader := fun i => .ok (buf.peek i)

end Buffer

/-- How the device and the allocator answer for a configuration index. -/
structure CfgReply where
  /-- `bConfigurationValue` of the nine bytes that are asked for first, `none` for an error. -/
  header : Option ℕ
  room : Bool
  /-- The whole descriptor; `none` for an error. -/
  buffer : Option Buffer
  alloc : Alloc

/-- The loop of one configuration's buffer, from its first byte; there is a byte for each round at least. -/
def parseBuffer (mem : Buffer → Reader) (pd : Speed) (buf : Buffer) (w : Alloc) (s : Parse) : Except Fault Parse := do
  let s ← parseLoop (mem buf) w pd buf.bytes.length buf.bytes.length 0
    { s with pc := false, pif := false, altif := none, pep := false }
  return { s with base := s.base + buf.bytes.length }

def pGetDevConfig (mem : Buffer → Reader) (pd : Speed) : List CfgReply → Parse → Except Fault (Bool × Parse)
  | [], s => return (true, s)
  | r :: replies, s =>
    match r.header with
    | none => return (false, s)
    | some cfgnum =>
      if s.configs.any fun pc => pc.cfgNum = cfgnum then pGetDevConfig mem pd replies s
      else
        match r.room, r.buffer with
        | true, some buf => do
          let s ← parseBuffer mem pd buf r.alloc s
          pGetDevConfig mem pd replies s
        | _, _ => return (false, s)

def start : Parse := ⟨[], [], 0, false, false, none, false⟩

end Neptune.DevConfig
