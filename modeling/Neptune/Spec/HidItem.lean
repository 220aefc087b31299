import Neptune.Lib.BitField
import Neptune.Lib.Word

/-! Items of a HID report: how the values of one are put into a report that is sent, and how they are
taken out of one that has come and turned into events. The actions of an event, clicks and times are
left out. -/

namespace Neptune

namespace Hid

open BitField (Buf bitAt setBit lowByte writeDown readDown)

abbrev LONG := BitVec 32

structure NepHidItem where
  isVariable : Bool
  offset : ℕ
  size : ℕ
  isSigned : Bool
  logicalMin : LONG
  logicalMax : LONG
  usage : ℕ
  /-- Of an array: the usage of each value from `nhi_LogicalMin` on. -/
  usageMap : List ℕ
  oldValue : LONG
  /-- `nhi_Buffer`, which has `nhi_Count` values. -/
  buffer : List LONG
  oldBuffer : List LONG
  deriving DecidableEq, Repr

/-- What the actions of an item are told. -/
inductive HidEvent
  | value (usage : ℕ) (old new : LONG)
  /-- A value out of the logical range, for the actions that wait for one. -/
  | nan (usage : ℕ) (old : LONG)
  | up (usage : ℕ) (value : LONG)
  | down (usage : ℕ) (value : LONG)
  deriving DecidableEq, Repr

namespace NepHidItem

variable (nhi : NepHidItem)

def count : ℕ := nhi.buffer.length

def byteAligned : Bool := nhi.offset &&& 7 = 0

def inRange (value : LONG) : Bool := nhi.logicalMin.sle value && value.sle nhi.logicalMax

def clamp (value : LONG) : LONG :=
  if value.slt nhi.logicalMin then nhi.logicalMin
  else if nhi.logicalMax.slt value then nhi.logicalMax
  else value

def encodeVariable (buf : Buf) : Buf :=
  let value := nhi.clamp nhi.oldValue
  if nhi.byteAligned && nhi.size = 8 then Function.update buf (nhi.offset >>> 3) (lowByte value)
  else if nhi.size = 1 then setBit buf nhi.offset (value ≠ 0)
  else writeDown nhi.size (nhi.offset + nhi.size) value buf

def encodeBytes (count : ℕ) (buf : Buf) : List LONG → Buf
  | [] => buf
  | v :: vs => encodeBytes (uword (count + 1)) (Function.update buf count (lowByte v)) vs

def encodeFlags (ioffset : ℕ) (buf : Buf) : List LONG → Buf
  | [] => buf
  | v :: vs => encodeFlags (ioffset + 1) (setBit buf ioffset (v ≠ 0)) vs

/-- The offset goes down by the size of the value, and then up by `count`, which is 0 by then. -/
def encodeFields (isize ioffset : ℕ) (buf : Buf) : List LONG → Buf
  | [] => buf
  | v :: vs => encodeFields isize ioffset (writeDown isize (ioffset + isize) v buf) vs

def encodeArray (buf : Buf) : Buf :=
  if nhi.byteAligned && nhi.size = 8 then encodeBytes (uword (nhi.offset >>> 3)) buf nhi.buffer
  else if nhi.size = 1 then encodeFlags nhi.offset buf nhi.buffer
  else encodeFields nhi.size nhi.offset buf nhi.buffer

def nEncodeItemBuffer (buf : Buf) : Buf :=
  if nhi.isVariable then nhi.encodeVariable buf else nhi.encodeArray buf

/-- A byte as a `BYTE` or a `UBYTE`. -/
def extend (signed : Bool) (b : UInt8) : LONG :=
  if signed then b.toBitVec.signExtend 32 else b.toBitVec.setWidth 32

def bitValue (b : Bool) : LONG := (BitVec.ofBool b).setWidth 32

def extractField (buf : Buf) (isSigned : Bool) (isize ioffset : ℕ) : LONG :=
  if isSigned then
    let top := ioffset + isize - 1
    readDown buf (isize - 1) top (if bitAt buf top then -1 else 0)
  else readDown buf isize (ioffset + isize) 0

def extractVariable (buf : Buf) : LONG :=
  let bobuf := fun i => buf ((nhi.offset >>> 3) + i)
  if nhi.byteAligned && nhi.size = 8 then extend nhi.isSigned (bobuf 0)
  else if nhi.size = 1 then bitValue (bitAt buf nhi.offset)
  else if nhi.byteAligned && nhi.size = 16 then
    extend false (bobuf 0) ||| (extend nhi.isSigned (bobuf 1) <<< 8)
  else if nhi.byteAligned && nhi.size = 32 then
    extend false (bobuf 0) ||| (extend false (bobuf 1) <<< 8) ||| (extend false (bobuf 2) <<< 16) |||
      (extend false (bobuf 3) <<< 24)
  else extractField buf nhi.isSigned nhi.size nhi.offset

/-- The index of byte `i` of an array of bytes is a `UWORD`. -/
def byteAt (i : ℕ) : ℕ := uword ((nhi.offset >>> 3) + i)

/-- The value at place `i` of an array. -/
def extractElement (buf : Buf) (i : ℕ) : LONG :=
  if nhi.byteAligned && nhi.size = 8 then extend nhi.isSigned (buf (nhi.byteAt i))
  else if nhi.size = 1 then bitValue (bitAt buf (nhi.offset + i))
  else extractField buf nhi.isSigned nhi.size (nhi.offset + i * nhi.size)

def extractArray (buf : Buf) : List LONG := (List.range nhi.count).map (nhi.extractElement buf)

def processVariable (value : LONG) : NepHidItem × List HidEvent :=
  if nhi.inRange value then ({ nhi with oldValue := value }, [.value nhi.usage nhi.oldValue value])
  else (nhi, [.nan nhi.usage nhi.oldValue])

def usageOf (value : LONG) : ℕ := nhi.usageMap.getD (value - nhi.logicalMin).toNat 0

def rollOver : Bool := nhi.buffer.any fun value => nhi.inRange value && nhi.usageOf value = 0x00070001

def upEvents : List HidEvent :=
  (nhi.oldBuffer.filter fun value => nhi.inRange value && !nhi.buffer.contains value).map fun value =>
    .up (nhi.usageOf value) value

def downEvents : List HidEvent :=
  (nhi.buffer.filter fun value => nhi.inRange value && !nhi.oldBuffer.contains value).map fun value =>
    .down (nhi.usageOf value) value

def processArray (values : List LONG) : NepHidItem × List HidEvent :=
  let nhi := { nhi with buffer := values }
  if nhi.rollOver then (nhi, [])
  else
    let events := nhi.upEvents ++ nhi.downEvents
    ({ nhi with
        oldValue := if events = [] then nhi.oldValue else nhi.logicalMin - 1
        oldBuffer := nhi.buffer }, events)

def nProcessItem (buf : Buf) : NepHidItem × List HidEvent :=
  if nhi.isVariable then nhi.processVariable (nhi.extractVariable buf)
  else nhi.processArray (nhi.extractArray buf)

end NepHidItem

/-- The values of `mode`, from 0 to 5. -/
inductive ArrayMode
  | start
  | decimal
  | hex
  | ascii
  | string
  | termination
  deriving DecidableEq, Repr

inductive ArrayMsg
  /-- "Parse error: Empty array value string not allowed." -/
  | emptyString
  | noSpace
  /-- "Parse error: Syntax error in S0!", and so on by the mode. -/
  | syntaxError (mode : ArrayMode)
  /-- "Parse error: Excessive elements ignored!", a warning. -/
  | excess
  deriving DecidableEq, Repr

/-- `valptr` is an index of `nhi_Buffer`. -/
structure ArrayParser where
  buffer : List LONG
  valptr : ℕ
  acount : ℕ
  mode : ArrayMode
  issigned : Bool
  deriving DecidableEq, Repr

/-- What a round makes of a character: the loop goes on, with the next character or the one behind it,
or the parser gives up. -/
inductive ArrayRound
  | next (s : ArrayParser)
  | skip (s : ArrayParser)
  | syntaxError (s : ArrayParser) (mode : ArrayMode)

def isDigit (ch : UInt8) : Bool := 0x30 ≤ ch && ch ≤ 0x39

def character (ch : UInt8) : LONG := ch.toBitVec.setWidth 32

/-- What a digit says, counted from the digit `base`. -/
def digit (ch base : UInt8) : LONG := character (ch - base)

namespace ArrayParser

variable (s : ArrayParser)

/-- `*valptr` is changed; there is no result for a place outside `nhi_Buffer`. -/
def store (f : LONG → LONG) : Option ArrayParser :=
  if s.valptr < s.buffer.length then some { s with buffer := s.buffer.modify s.valptr f } else none

def comma : ArrayParser := { s with mode := .start, valptr := s.valptr + 1, acount := s.acount - 1 }

/-- There is no `break` behind the minus sign. -/
def inStart (ch : UInt8) (str : List UInt8) : Option ArrayRound := do
  if ch = 0x30 ∧ str.head? = some 0x78 then
    let s ← s.store fun _ => 0
    return .skip { s with mode := .hex }
  else if isDigit ch then
    let s ← s.store fun _ => digit ch 0x30
    return .next { s with mode := .decimal, issigned := false }
  else if ch = 0x2d then
    let s ← s.store fun _ => 0
    return .syntaxError { s with mode := .decimal, issigned := true } .start
  else if ch = 0x27 then return .next { s with mode := .ascii }
  else if ch = 0x22 then return .next { s with mode := .string }
  else if ch = 0x20 then return .next s
  else return .syntaxError s .start

def inDecimal (ch : UInt8) : Option ArrayRound := do
  if isDigit ch then
    let s ← s.store fun v => if s.issigned then v * 10 - digit ch 0x30 else v * 10 + digit ch 0x30
    return .next s
  else if ch = 0x20 then return .next { s with mode := .termination }
  else if ch = 0x2c then return .next s.comma
  else return .syntaxError s .decimal

def inHex (ch : UInt8) : Option ArrayRound := do
  if isDigit ch then
    let s ← s.store fun v => (v <<< 4) + digit ch 0x30
    return .next s
  else if 0x61 ≤ ch ∧ ch ≤ 0x66 then
    let s ← s.store fun v => (v <<< 4) + digit ch 0x61 + 10
    return .next s
  else if 0x41 ≤ ch ∧ ch ≤ 0x46 then
    let s ← s.store fun v => (v <<< 4) + digit ch 0x41 + 10
    return .next s
  else if ch = 0x2c then return .next s.comma
  else return .syntaxError s .hex

def inAscii (ch : UInt8) (str : List UInt8) : Option ArrayRound := do
  if str.head? = some 0x27 then
    let s ← s.store fun _ => character ch
    return .skip { s with mode := .termination }
  else return .syntaxError s .ascii

def inString (ch : UInt8) : Option ArrayRound := do
  if ch = 0x22 then return .next { s with mode := .termination }
  else
    let s ← s.store fun _ => character ch
    return .next { s with valptr := s.valptr + 1, acount := s.acount - 1 }

def inTermination (ch : UInt8) : Option ArrayRound :=
  if ch = 0x20 then some (.next s)
  else if ch = 0x2c then some (.next s.comma)
  else some (.syntaxError s .termination)

/-- `str` is what is left behind the character. -/
def round (ch : UInt8) (str : List UInt8) : Option ArrayRound :=
  match s.mode with
  | .start => s.inStart ch str
  | .decimal => s.inDecimal ch
  | .hex => s.inHex ch
  | .ascii => s.inAscii ch str
  | .string => s.inString ch
  | .termination => s.inTermination ch

def finish : List LONG × List ArrayMsg :=
  if s.mode = .ascii then (s.buffer, [.syntaxError .ascii])
  else (s.buffer, if s.acount = 0 then [.excess] else [])

def parse : List UInt8 → ArrayParser → Option (List LONG × List ArrayMsg)
  | [], s => some s.finish
  | ch :: str, s =>
    if s.acount = 0 then some (s.buffer, [.excess])
    else
      match s.round ch str with
      | none => none
      | some (.syntaxError s mode) => some (s.buffer, [.syntaxError mode])
      | some (.next s) => parse str s
      | some (.skip s) =>
        match str with
        | [] => some s.finish
        | _ :: str => parse str s

end ArrayParser

def NepHidItem.nParseArrayString (nhi : NepHidItem) (str : List UInt8) : Option (NepHidItem × List ArrayMsg) :=
  if str = [] then some (nhi, [.emptyString])
  else
    let acount := uword nhi.count
    let noSpace := if acount = 0 then [.noSpace] else []
    (ArrayParser.parse str ⟨nhi.buffer, 0, acount, .start, false⟩).map fun (buffer, msgs) =>
      ({ nhi with buffer := buffer }, noSpace ++ msgs)

end Hid

end Neptune

namespace Neptune.HidAxis

inductive Fault
  | overflow | zeroDivide
  deriving DecidableEq, Repr

def long (n : ℤ) : Except Fault ℤ := if -2 ^ 31 ≤ n ∧ n < 2 ^ 31 then .ok n else .error .overflow

/-- `/`, which rounds towards zero. -/
def quotient (n d : ℤ) : Except Fault ℤ := if d = 0 then .error .zeroDivide else long (n.tdiv d)

structure NepHidItem where
  isArray : Bool
  logicalMin : ℤ
  logicalMax : ℤ
  le : logicalMin ≤ logicalMax
  range_le : logicalMax - logicalMin < 2 ^ 16
  min_long : -2 ^ 31 ≤ logicalMin
  max_long : logicalMax < 2 ^ 31

inductive APadFeat
  | absX | absY
  deriving DecidableEq, Repr

structure NepHidAction where
  /-- `nha_APadFeat`, when the type is `HUA_ANALOGJOY`. -/
  analogJoy : Option APadFeat
  absToRel : Bool
  clipEnable : Bool
  clipMin : ℕ
  clipMax : ℕ
  clipStretch : Bool
  scaleEnable : Bool
  scaleMin : ℤ
  scaleMax : ℤ
  clipMin_le : clipMin ≤ 100
  clipMax_le : clipMax ≤ 100
  scaleMin_abs : scaleMin.natAbs < 2 ^ 15
  scaleMax_abs : scaleMax.natAbs < 2 ^ 15

/-- `value` and what is stored in `nhi_RealMin` and `nhi_RealMax`. -/
structure Axis where
  realMin : ℤ
  realMax : ℤ
  value : ℤ
  deriving DecidableEq, Repr

namespace Axis

def setAbsToRel (nhi : NepHidItem) (nha : NepHidAction) (oldValue value : ℤ) : Except Fault Axis :=
  if nha.absToRel then do
    let value ← long (value - oldValue)
    let realMin ← long (nhi.logicalMin - nhi.logicalMax)
    let realMax ← long (nhi.logicalMax - nhi.logicalMin)
    return ⟨realMin, realMax, value⟩
  else return ⟨nhi.logicalMin, nhi.logicalMax, value⟩

/-- `((clip * (nhi_RealMax - nhi_RealMin)) / 100) + nhi_RealMin`. -/
def clipBound (s : Axis) (clip : ℕ) : Except Fault ℤ := do
  let range ← long (s.realMax - s.realMin)
  let product ← long (clip * range)
  let part ← quotient product 100
  long (part + s.realMin)

/-- From the value to `nha_ClipStretch`, between two bounds. -/
def clipBetween (s : Axis) (stretch : Bool) (clipmin clipmax : ℤ) : Except Fault Axis := do
  let value := if s.value < clipmin then clipmin else if s.value > clipmax then clipmax else s.value
  let width ← long (clipmax - clipmin)
  if stretch ∧ width ≠ 0 then
    let above ← long (value - clipmin)
    let range ← long (s.realMax - s.realMin)
    let product ← long (above * range)
    let part ← quotient product width
    let value ← long (part + s.realMin)
    return { s with value }
  else return { s with value }

def clip (nha : NepHidAction) (s : Axis) : Except Fault Axis :=
  if nha.clipEnable then
    if nha.clipMin = nha.clipMax then do
      let value ← s.clipBound nha.clipMin
      return { s with value }
    else if nha.clipMin < nha.clipMax then do
      let clipmin ← s.clipBound nha.clipMin
      let clipmax ← s.clipBound nha.clipMax
      s.clipBetween nha.clipStretch clipmin clipmax
    else do
      let value ← long (s.realMax - s.value)
      let clipmin ← s.clipBound nha.clipMax
      let clipmax ← s.clipBound nha.clipMin
      { s with value }.clipBetween nha.clipStretch clipmin clipmax
  else return s

def scale (nha : NepHidAction) (s : Axis) : Except Fault Axis :=
  if nha.scaleEnable ∧ nha.scaleMax ≠ nha.scaleMin then do
    let above ← long (s.value - s.realMin)
    let scale ← long (nha.scaleMax - nha.scaleMin)
    let product ← long (above * scale)
    let range ← long (s.realMax - s.realMin)
    let part ← quotient product range
    let value ← long (part + nha.scaleMin)
    return ⟨nha.scaleMin, nha.scaleMax, value⟩
  else return s

/-- `HUA_ANALOGJOY` up to the masks. -/
def joyValue (s : Axis) : Except Fault ℤ :=
  if s.realMin ≠ 0 ∨ s.realMax ≠ 255 then do
    let above ← long (s.value - s.realMin)
    let shifted ← long (above * 2 ^ 8)
    let range ← long (s.realMax - s.realMin)
    quotient shifted range
  else return s.value

end Axis

def JP_XAXIS_MASK : BitVec 32 := 255#32 <<< 0
def JP_YAXIS_MASK : BitVec 32 := 255#32 <<< 8
def JP_TYPE_ANALOGUE : BitVec 32 := 14#32 <<< 28

/-- What is stored in `nch_LLAnalogue`. -/
def setAnalogue (feat : APadFeat) (state : BitVec 32) (value : ℤ) : BitVec 32 :=
  let value := BitVec.ofInt 32 value
  match feat with
  | .absX => state &&& ~~~JP_XAXIS_MASK ||| value &&& JP_XAXIS_MASK ||| JP_TYPE_ANALOGUE
  | .absY => state &&& ~~~JP_YAXIS_MASK ||| value <<< 8 &&& JP_YAXIS_MASK ||| JP_TYPE_ANALOGUE

def analogueField (feat : APadFeat) (state : BitVec 32) : ℕ :=
  match feat with
  | .absX => (state &&& JP_XAXIS_MASK).toNat
  | .absY => ((state &&& JP_YAXIS_MASK) >>> 8).toNat

def nDoAction (nhi : NepHidItem) (nha : NepHidAction) (oldValue value : ℤ) : Except Fault Axis := do
  let s ← Axis.setAbsToRel nhi nha oldValue value
  let s ← s.clip nha
  s.scale nha

def NepHidItem.Inside (nhi : NepHidItem) (value : ℤ) : Prop :=
  nhi.logicalMin ≤ value ∧ value ≤ nhi.logicalMax

/-- What `nhi_OldValue` can be: it is cleared with the item, `nProcessItem` keeps the last value of a
variable there that was inside the range, and sets it below the range for an array. -/
inductive OldValue (nhi : NepHidItem) : ℤ → Prop
  | cleared (h : nhi.isArray = false) : OldValue nhi 0
  | last (h : nhi.isArray = false) {value : ℤ} (hv : nhi.Inside value) : OldValue nhi value
  | array (h : nhi.isArray = true) : OldValue nhi (nhi.logicalMin - 1)

end Neptune.HidAxis
