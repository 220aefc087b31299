import Neptune.Spec.HidItem

/-! `nParseReport`: the items of a report descriptor are made into reports, collections and fields. All
allocations succeed. Physical ranges, units, designators and names are left out: they decide nothing
here. -/

namespace Neptune.Hid

abbrev ULONG := BitVec 32

def HID_PARAM_UNDEF : ULONG := 0x80000000

inductive Kind
  | input
  | output
  | feature
  deriving DecidableEq, Repr

inductive ItemTag
  | main (kind : Kind)
  | collect
  | endColl
  | usagePage
  | logMin
  | logMax
  /-- `REPORT_GLOB_PHYMIN`, `PHYMAX`, `UNITEXP` and `UNIT`. -/
  | physical
  | rpSize
  | rpID
  | rpCount
  | push
  | pop
  | usage
  | useMin
  | useMax
  /-- `REPORT_LOCL_DESIDX`, `DESMIN`, `DESMAX` and `STRIDX`. -/
  | design
  | strMin
  | strMax
  | delim
  | reserved
  deriving DecidableEq, Repr

def tagOf (item : UInt8) : ItemTag :=
  match item &&& 0xfc with
  | 0x80 => .main .input
  | 0x90 => .main .output
  | 0xb0 => .main .feature
  | 0xa0 => .collect
  | 0xc0 => .endColl
  | 0x04 => .usagePage
  | 0x14 => .logMin
  | 0x24 => .logMax
  | 0x34 | 0x44 | 0x54 | 0x64 => .physical
  | 0x74 => .rpSize
  | 0x84 => .rpID
  | 0x94 => .rpCount
  | 0xa4 => .push
  | 0xb4 => .pop
  | 0x08 => .usage
  | 0x18 => .useMin
  | 0x28 => .useMax
  | 0x38 | 0x48 | 0x58 | 0x78 => .design
  | 0x88 => .strMin
  | 0x98 => .strMax
  | 0xa8 => .delim
  | _ => .reserved

structure ShortItem where
  pos : ℕ
  tag : ItemTag
  len : ℕ
  data : LONG
  udata : ULONG
  deriving DecidableEq, Repr

def ShortItem.isMain (item : ShortItem) : Bool :=
  match item.tag with
  | .main _ | .collect | .endColl => true
  | _ => false

/-- The item at `rptr`; it may go on behind the end of the descriptor. -/
def readItem (mem : ℕ → UInt8) (rptr : ℕ) : ShortItem :=
  let tag := tagOf (mem rptr)
  let ubyte := fun i => (mem (rptr + i)).toBitVec.setWidth 32
  let byte := fun i => (mem (rptr + i)).toBitVec.signExtend 32
  match mem rptr &&& 0x03 with
  | 0 => ⟨rptr, tag, 0, 0, 0⟩
  | 1 => ⟨rptr, tag, 1, byte 1, ubyte 1⟩
  | 2 => ⟨rptr, tag, 2, ubyte 1 ||| (byte 2 <<< 8), ubyte 1 ||| (ubyte 2 <<< 8)⟩
  | _ =>
    let data := ubyte 1 ||| (ubyte 2 <<< 8) ||| (ubyte 3 <<< 16) ||| (ubyte 4 <<< 24)
    ⟨rptr, tag, 4, data, data⟩

/-- The items from `rptr` on; each takes a byte at least, so there are no more than `n`. -/
def readItems (mem : ℕ → UInt8) (rptrend : ℕ) : ℕ → ℕ → List ShortItem
  | 0, _ => []
  | n + 1, rptr =>
    if rptr < rptrend then
      let item := readItem mem rptr
      item :: readItems mem rptrend n (rptr + 1 + item.len)
    else []

structure NepHidGlobal where
  usagePage : ULONG
  logicalMin : LONG
  logicalMax : LONG
  reportID : ULONG
  reportSize : ULONG
  reportCount : ULONG
  deriving DecidableEq, Repr

/-- `nhu_Usage` and `nhu_UsageMax`. -/
abbrev NepHidUsage := ULONG × ULONG

structure ParseEnv where
  global : NepHidGlobal
  /-- `nch_HidStack`, the last one pushed first. -/
  stack : List NepHidGlobal
  usages : List NepHidUsage
  usagemin : ULONG
  usagemax : ULONG
  stringmin : ULONG
  stringmax : ULONG
  delim : ℕ
  deriving DecidableEq, Repr

def nAddUsage (list : List NepHidUsage) (umin umax : ULONG) : Option (List NepHidUsage) :=
  if umax < umin then none else some (list ++ [(umin, umax)])

namespace ParseEnv

variable (env : ParseEnv) (item : ShortItem)

/-- `udata` with the usage page, if it is short. -/
def usageData : ULONG :=
  if item.len ≤ 2 then item.udata ||| (env.global.usagePage <<< 16) else item.udata

def addRange (usagemin usagemax : ULONG) : Option ParseEnv :=
  (nAddUsage env.usages usagemin usagemax).map fun usages =>
    { env with usages := usages, usagemin := HID_PARAM_UNDEF, usagemax := HID_PARAM_UNDEF }

def addString (stringmin stringmax : ULONG) : Option ParseEnv :=
  (nAddUsage [] stringmin stringmax).map fun _ =>
    { env with stringmin := HID_PARAM_UNDEF, stringmax := HID_PARAM_UNDEF }

/-- What an item does to the globals and locals; a main item clears the usages. -/
def parse : Option ParseEnv :=
  match item.tag with
  | .main _ | .collect | .endColl => some { env with usages := [] }
  | .usagePage => some { env with global := { env.global with usagePage := item.udata } }
  | .logMin => some { env with global := { env.global with logicalMin := item.data } }
  | .logMax =>
    let data := if item.data.slt env.global.logicalMin then item.udata else item.data
    some { env with global := { env.global with logicalMax := data } }
  | .physical => some env
  | .rpSize => some { env with global := { env.global with reportSize := item.udata } }
  | .rpID => some { env with global := { env.global with reportID := item.udata } }
  | .rpCount => some { env with global := { env.global with reportCount := item.udata } }
  | .push => some { env with stack := env.global :: env.stack }
  | .pop =>
    match env.stack with
    | [] => none
    | nhg :: stack => some { env with global := nhg, stack := stack }
  | .usage =>
    let udata := env.usageData item
    (nAddUsage env.usages udata udata).map fun usages => { env with usages := usages }
  | .useMin =>
    let udata := env.usageData item
    if env.usagemax ≠ HID_PARAM_UNDEF then env.addRange udata env.usagemax
    else some { env with usagemin := udata }
  | .useMax =>
    let udata := env.usageData item
    if env.usagemin ≠ HID_PARAM_UNDEF then env.addRange env.usagemin udata
    else some { env with usagemax := udata }
  | .design => some env
  | .strMin =>
    if env.stringmax ≠ HID_PARAM_UNDEF then env.addString item.udata env.stringmax
    else some { env with stringmin := item.udata }
  | .strMax =>
    if env.stringmin ≠ HID_PARAM_UNDEF then env.addString env.stringmin item.udata
    else some { env with stringmax := item.udata }
  | .delim =>
    some { env with delim := (if item.udata ≠ 0 then env.delim + 1 else env.delim + 65535) % 65536 }
  | .reserved => none

end ParseEnv

/-- An item of a collection, with the main item it comes from: the place of that in the descriptor and
the report ID that was in force there. -/
structure DeclaredItem where
  id : ULONG
  main : ℕ
  kind : Kind
  nhi : NepHidItem
  deriving DecidableEq, Repr

structure NepHidCollection where
  usage : ULONG
  items : List DeclaredItem
  deriving DecidableEq, Repr

structure NepHidReport where
  reportID : ULONG
  inSize : ULONG
  outSize : ULONG
  featSize : ULONG
  collections : List NepHidCollection
  deriving DecidableEq, Repr

namespace NepHidReport

def empty (reportID : ULONG) : NepHidReport := ⟨reportID, 0, 0, 0, []⟩

variable (nhr : NepHidReport)

def size : Kind → ULONG
  | .input => nhr.inSize
  | .output => nhr.outSize
  | .feature => nhr.featSize

def setSize (kind : Kind) (bitpos : ULONG) : NepHidReport :=
  match kind with
  | .input => { nhr with inSize := bitpos }
  | .output => { nhr with outSize := bitpos }
  | .feature => { nhr with featSize := bitpos }

def addCollection (nhc : NepHidCollection) : NepHidReport :=
  { nhr with collections := nhr.collections ++ [nhc] }

def items : List DeclaredItem := nhr.collections.flatMap (·.items)

/-- `nhr_InItemMap`, `nhr_OutItemMap` and `nhr_FeatItemMap`. -/
def itemMap (kind : Kind) : List DeclaredItem := nhr.items.filter (·.kind = kind)

end NepHidReport

structure ParseState where
  env : ParseEnv
  reportid : ULONG
  reports : List NepHidReport
  nhr : ℕ
  nhc : List NepHidCollection
  deriving DecidableEq, Repr

def takeUsage (usageid : ULONG) : List NepHidUsage → ULONG × List NepHidUsage
  | [] => (usageid, [])
  | (usage, usageMax) :: usages =>
    (usage, if usageMax < usage + 1 then usages else (usage + 1, usageMax) :: usages)

/-- The usages of `n` fields; when there are no more, the last one goes on. -/
def takeUsages : ℕ → ULONG → List NepHidUsage → List ULONG
  | 0, _, _ => []
  | n + 1, usageid, usages =>
    (takeUsage usageid usages).1 :: takeUsages n (takeUsage usageid usages).1 (takeUsage usageid usages).2

def NepHidGlobal.logicalRange (nhg : NepHidGlobal) : LONG × LONG :=
  let top := (1 <<< nhg.reportSize.toNat) - 1
  if nhg.logicalMin = HID_PARAM_UNDEF then
    if nhg.logicalMax = HID_PARAM_UNDEF then
      if nhg.reportSize < 32 then (0, top) else (0x80000000, 0x7fffffff)
    else (0, nhg.logicalMax)
  else if nhg.logicalMax = HID_PARAM_UNDEF then (nhg.logicalMin, top)
  else (nhg.logicalMin, nhg.logicalMax)

def variableItem (nhg : NepHidGlobal) (bitpos usageid : ULONG) : NepHidItem where
  isVariable := true
  offset := bitpos.toNat % 65536
  size := nhg.reportSize.toNat % 65536
  isSigned := nhg.logicalRange.1.slt 0 || nhg.logicalRange.2.slt 0
  logicalMin := nhg.logicalRange.1
  logicalMax := nhg.logicalRange.2
  usage := usageid.toNat
  usageMap := []
  oldValue := 0
  buffer := []
  oldBuffer := []

def variableItems (nhg : NepHidGlobal) : ULONG → List ULONG → List NepHidItem
  | _, [] => []
  | bitpos, usageid :: usageids =>
    let rest := variableItems nhg (bitpos + nhg.reportSize) usageids
    if usageid = HID_PARAM_UNDEF then rest else variableItem nhg bitpos usageid :: rest

def arrayItem (nhg : NepHidGlobal) (bitpos : ULONG) (usages : List NepHidUsage) : NepHidItem :=
  let min := nhg.logicalRange.1
  let max := nhg.logicalRange.2
  let max := if max.slt min || (65535 : LONG).slt (max - min) then min else max
  let count := if nhg.reportCount.toNat > 65535 then 1 else nhg.reportCount.toNat
  let usageMap := takeUsages (max - min + 1).toNat HID_PARAM_UNDEF usages
  let first := usageMap.headD HID_PARAM_UNDEF
  { isVariable := false
    offset := bitpos.toNat % 65536
    size := nhg.reportSize.toNat % 65536
    isSigned := false
    logicalMin := min
    logicalMax := max
    usage := (if usageMap.all (· = first) then first else HID_PARAM_UNDEF).toNat
    usageMap := usageMap.map (·.toNat)
    oldValue := 0
    buffer := List.replicate count 0
    oldBuffer := List.replicate count 0 }

def ShortItem.isVariable (item : ShortItem) : Bool := item.udata &&& 2 ≠ 0

def ParseEnv.fields (env : ParseEnv) (item : ShortItem) (bitpos : ULONG) : List NepHidItem :=
  if item.isVariable then
    variableItems env.global bitpos (takeUsages env.global.reportCount.toNat HID_PARAM_UNDEF env.usages)
  else if env.usages = [] then []
  else [arrayItem env.global bitpos env.usages]

namespace ParseState

variable (s : ParseState) (item : ShortItem)

/-- The innermost collection goes to the old report, if it is not empty, and its clone is open in its
place. The loop is about to go on with the parent of the clone, which has none. -/
def cloneCollection (reports : List NepHidReport) : List NepHidReport × List NepHidCollection :=
  match s.nhc with
  | [] => (reports, [])
  | nhc :: outer =>
    if nhc.items = [] then (reports, nhc :: outer)
    else (reports.modify s.nhr (·.addCollection nhc), [⟨nhc.usage, []⟩])

def findReport (id : ULONG) : List NepHidReport × ℕ :=
  match s.reports.findIdx? (·.reportID = id) with
  | some nhr => (s.reports, nhr)
  | none => (s.reports ++ [.empty id], s.reports.length)

def switchReport : ParseState :=
  let id := s.env.global.reportID
  if s.reportid = id then s
  else if s.reportid ≠ 0 then
    let (reports, nhr) := s.findReport id
    let (reports, nhc) := s.cloneCollection reports
    { s with reportid := id, reports := reports, nhr := nhr, nhc := nhc }
  else
    { s with reportid := id, reports := s.reports.modify s.nhr fun nhr => { nhr with reportID := id } }

/-- `REPORT_MAIN_INPUT`, `REPORT_MAIN_OUTPUT` and `REPORT_MAIN_FEATURE`. -/
def declare (kind : Kind) : Option ParseState :=
  if s.env.delim ≠ 0 then some s
  else
    match s.nhc, s.reports[s.nhr]? with
    | nhc :: outer, some nhr =>
      let nhg := s.env.global
      if nhg.usagePage = HID_PARAM_UNDEF || nhg.reportSize = 0 then none
      else
        let bitpos := nhr.size kind
        let items := (s.env.fields item bitpos).map (DeclaredItem.mk nhg.reportID item.pos kind)
        some
          { s with
            nhc := { nhc with items := nhc.items ++ items } :: outer
            reports := s.reports.modify s.nhr (·.setSize kind (bitpos + nhg.reportSize * nhg.reportCount)) }
    | _, _ => none

def collect : ParseState :=
  let usage :=
    match s.env.usages, s.nhc with
    | (usage, _) :: _, _ => usage
    | [], nhc :: _ => nhc.usage
    | [], [] => 0
  { s with nhc := ⟨usage, []⟩ :: s.nhc }

def endCollect : ParseState :=
  match s.nhc with
  | [] => s
  | nhc :: outer => { s with reports := s.reports.modify s.nhr (·.addCollection nhc), nhc := outer }

def mainItem : Option ParseState :=
  match item.tag with
  | .main kind => s.switchReport.declare item kind
  | .collect => some s.switchReport.collect
  | .endColl => some s.switchReport.endCollect
  | _ => some s

def parseItem : Option ParseState :=
  match s.mainItem item, s.env.parse item with
  | some s, some env => some { s with env := env }
  | _, _ => none

def parseItems (s : ParseState) : List ShortItem → Option ParseState
  | [] => some s
  | item :: items =>
    match s.parseItem item with
    | some s => s.parseItems items
    | none => none

end ParseState

def NepHidGlobal.undef : NepHidGlobal :=
  ⟨HID_PARAM_UNDEF, HID_PARAM_UNDEF, HID_PARAM_UNDEF, 0, 0, 0⟩

def ParseEnv.start : ParseEnv :=
  ⟨.undef, [], [], HID_PARAM_UNDEF, HID_PARAM_UNDEF, HID_PARAM_UNDEF, HID_PARAM_UNDEF, 0⟩

def ParseState.start : ParseState := ⟨.start, 0, [.empty 0], 0, []⟩

/-- The reports, when the descriptor is accepted; collections that are open are lost. -/
def nParseReport (mem : ℕ → UInt8) (reportLength : ℕ) : Option (List NepHidReport) :=
  (ParseState.start.parseItems (readItems mem reportLength reportLength 0)).map (·.reports)

end Neptune.Hid
