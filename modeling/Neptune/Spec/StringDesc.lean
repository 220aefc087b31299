import Neptune.Spec.CfgForm

/-! `psdGetStringDescriptor`. A read or write outside of a buffer has no result. Words in memory are big-endian, those of
a device little-endian. -/

namespace Neptune.StringDesc

inductive IoErr
  | none
  | overflow
  | runtPacket
  | other (n : ℕ)
  deriving DecidableEq, Repr

structure Reply where
  ioerr : IoErr
  data : List UInt8
  deriving DecidableEq, Repr

def Reply.gone : Reply := ⟨.other 0, []⟩

structure PsdDevice where
  langIDArray : Option (List UInt16)
  currLangID : UInt16
  deriving DecidableEq, Repr

def words : List UInt8 → List UInt16
  | hi :: lo :: rest => .ofNat (hi.toNat * 2 ^ 8 + lo.toNat) :: words rest
  | _ => []

def leWords : List UInt8 → List UInt16
  | lo :: hi :: rest => .ofNat (hi.toNat * 2 ^ 8 + lo.toNat) :: leWords rest
  | _ => []

def AROS_LE2WORD (w : UInt16) : UInt16 := w <<< 8 ||| w >>> 8

/-- At most `len` bytes into the start of a buffer, which has to have room for them. -/
def psdDoPipe (buf : List UInt8) (len : ℕ) (reply : Reply) : Option (List UInt8) :=
  if len ≤ buf.length then
    let data := reply.data.take len
    some (data ++ buf.drop data.length)
  else none

/-- The length byte is asked for, and where that fails all that there is, of which a short one may do. -/
def readLength (runtOk : Bool) (buf : List UInt8) (replies : List Reply) : Option (List UInt8 × Bool × List Reply) := do
  let reply := replies.headD .gone
  let replies := replies.tail
  let buf ← psdDoPipe buf 2 reply
  if reply.ioerr = .none ∨ reply.ioerr = .overflow then
    return (buf, true, replies)
  let reply := replies.headD .gone
  let replies := replies.tail
  let buf ← psdDoPipe buf 256 reply
  return (buf, decide (reply.ioerr = .none ∨ runtOk ∧ reply.ioerr = .runtPacket), replies)

def setWord (array : List UInt16) (i : ℕ) (w : UInt16) : Option (List UInt16) :=
  if i < array.length then some (array.set i w) else none

/-- `tmpptr` is at `i`, `tmpbuf` one further; and the terminating 0. -/
def convertLangs : ℕ → ℕ → List UInt16 → Option (List UInt16)
  | 0, i, array => setWord array i 0
  | n + 1, i, array => do
    let w ← array[i + 1]?
    let array ← setWord array i (AROS_LE2WORD w)
    convertLangs n (i + 1) array

def findEnglish : List UInt16 → Option Bool
  | [] => none
  | w :: array => if w = 0 then some false else if w = 0x0409 then some true else findEnglish array

/-- What is done with the array of `len` bytes. -/
def setLangs (len : ℕ) (array : List UInt16) : Option PsdDevice := do
  -- `len` was at least 4, so `--len` comes from 1 or more
  let array ← if 0 < len / 2 then convertLangs (len / 2 - 1) 0 array else none
  let first ← array[0]?
  let english ← findEnglish array
  return { langIDArray := some array, currLangID := if english then 0x0409 else first }

/-- The array in words; of the memory behind the bytes that have come nothing is set. -/
def langWords (size : ℕ) (data : List UInt8) : List UInt16 :=
  words (data ++ List.replicate (size - data.length) 0)

/-- `arrayMem` is whether there is memory for the array. -/
def readLangArray (arrayMem : Bool) (pd : PsdDevice) (buf : List UInt8) (replies : List Reply) :
    Option (PsdDevice × List UInt8 × List Reply) := do
  let (buf, ok, replies) ← readLength true buf replies
  if ok then
    let len := (← buf[0]?).toNat
    if arrayMem then
      if len < 4 then
        let array := langWords 4 []
        let array ← setWord array 0 0
        let array ← setWord array 1 0x0409
        let pd ← setLangs 4 array
        return (pd, buf, replies)
      else
        let reply := replies.headD .gone
        let array := langWords len (reply.data.take len)
        if reply.ioerr = .none then
          let pd ← setLangs len array
          return (pd, buf, replies.tail)
        else
          let array ← setWord array 0 0
          return ({ pd with langIDArray := some array }, buf, replies.tail)
    else
      return (pd, buf, replies)
  else
    return ({ pd with langIDArray := if arrayMem then some [0] else none }, buf, replies)

def latin1 (widechar : UInt16) : UInt8 :=
  if widechar = 0 then 0x20
  else if widechar < 0x20 ∨ 255 < widechar then 0x3F
  else .ofNat widechar.toNat

/-- `tmpptr` is at the byte `i` of the buffer; `str` is in a buffer of `size` bytes, which gets a NUL at the end. -/
def convertString (buf : List UInt8) (size : ℕ) : ℕ → ℕ → List UInt8 → Option (List UInt8)
  | 0, _, str => if str.length < size then some str else none
  | n + 1, i, str => do
    let hi ← buf[i]?
    let lo ← buf[i + 1]?
    let widechar := AROS_LE2WORD (.ofNat (hi.toNat * 2 ^ 8 + lo.toNat))
    if str.length < size then convertString buf size n (i + 2) (str ++ [latin1 widechar]) else none

/-- The string of `len` bytes in the buffer. -/
def takeString (stringMem : Bool) (buf : List UInt8) (len : ℕ) : Option (Option (List UInt8)) :=
  if stringMem then do
    let str ← if 0 < len / 2 then convertString buf (len / 2) (len / 2 - 1) 2 [] else none
    return if str = [] then none else some str
  else some none

def readString (stringMem : Bool) (buf : List UInt8) (replies : List Reply) : Option (Option (List UInt8)) := do
  let (buf, ok, replies) ← readLength false buf replies
  if ok then
    let len := (← buf[0]?).toNat
    if 2 < len then
      let reply := replies.headD .gone
      let replies := replies.tail
      let buf ← psdDoPipe buf len reply
      match reply.ioerr with
      | .none => takeString stringMem buf len
      | .runtPacket =>
        let actual := (reply.data.take len).length
        if 3 < actual then takeString stringMem buf actual else return none
      | _ =>
        let reply := replies.headD .gone
        let buf ← psdDoPipe buf 256 reply
        if reply.ioerr = .none then takeString stringMem buf len else return none
    else
      -- `psdCopyStr("")`
      return if stringMem then some [] else none
  else
    return none

/-- The 256 bytes that the stack holds before. -/
abbrev Stack := { bytes : List UInt8 // bytes.length = 256 }

def psdGetStringDescriptor (stack : Stack) (arrayMem stringMem : Bool) (pd : PsdDevice) (replies : List Reply) :
    Option (PsdDevice × Option (List UInt8)) := do
  let buf := stack.val.set 0 0
  let (pd, buf, replies) ←
    match pd.langIDArray with
    | none => readLangArray arrayMem pd buf replies
    | some _ => some (pd, buf, replies)
  let str ← readString stringMem (buf.set 0 0) replies
  return (pd, str)

/-- The length it declares, what came with that, and the further replies. -/
def declared (runtOk : Bool) (replies : List Reply) : Option (ℕ × List UInt8) × List Reply :=
  let reply := replies.headD .gone
  let first := reply.data.take 2
  if reply.ioerr = .none ∨ reply.ioerr = .overflow then (some ((first.headD 0).toNat, first), replies.tail)
  else
    let reply := replies.tail.headD .gone
    let all := reply.data.take 256
    if reply.ioerr = .none ∨ runtOk ∧ reply.ioerr = .runtPacket then
      (some ((all.headD (first.headD 0)).toNat, all), replies.tail.tail)
    else (none, replies.tail.tail)

/-- The declared length and the bytes of a language array that is read, or none of an array that is too short; and the
further replies. -/
def langReply (arrayMem : Bool) (replies : List Reply) : Option (ℕ × List UInt8) × List Reply :=
  match declared true replies with
  | (some (len, _), replies) =>
    if !arrayMem then (none, replies)
    else if len < 4 then (some (len, []), replies)
    else
      let reply := replies.headD .gone
      (if reply.ioerr = .none then some (len, reply.data.take len) else none, replies.tail)
  | (none, replies) => (none, replies)

/-- The length that a string is taken to have, and the bytes of it that came last. -/
def stringReply (replies : List Reply) : Option (ℕ × List UInt8) :=
  match declared false replies with
  | (some (len, data), replies) =>
    if 2 < len then
      let reply := replies.headD .gone
      let data := reply.data.take len
      match reply.ioerr with
      | .none => some (len, data)
      | .runtPacket => if 3 < data.length then some (data.length, data) else none
      | _ =>
        let reply := replies.tail.headD .gone
        if reply.ioerr = .none then some (len, reply.data.take 256) else none
    else some (len, data)
  | (none, _) => none

def units (data : List UInt8) : List UInt16 := leWords (data.drop 2)

/-- The replies that the language array takes, if it is read in this call. -/
def langRead (arrayMem : Bool) (pd : PsdDevice) (replies : List Reply) : Option (ℕ × List UInt8) × List Reply :=
  match pd.langIDArray with
  | none => langReply arrayMem replies
  | some _ => (none, replies)

/-- The array lists the device's languages, and the current one is English if it is there or there are none. -/
def LangsRight (len : ℕ) (data : List UInt8) (pd : PsdDevice) : Prop :=
  (4 ≤ len → pd.langIDArray = some (units data ++ [0])) ∧
  pd.currLangID = if len < 4 ∨ 0x0409 ∈ units data then 0x0409 else (units data).headD 0

/-- The call stays inside its buffers, a string it gives is what has been received, and so is a language array. -/
def Decodes (stack : Stack) (arrayMem stringMem : Bool) (pd : PsdDevice) (replies : List Reply) : Prop :=
  ∃ pd' str, psdGetStringDescriptor stack arrayMem stringMem pd replies = some (pd', str) ∧
    (∀ read ∈ (langRead arrayMem pd replies).1, LangsRight read.1 read.2 pd') ∧
    ∀ chars ∈ str, ∃ read ∈ stringReply (langRead arrayMem pd replies).2, chars = (units read.2).map latin1

/-- The array is not too short, has all its words, and no 0 before 0x0409. -/
def WholeLangs (len : ℕ) (data : List UInt8) : Prop :=
  4 ≤ len ∧ data.length / 2 = len / 2 ∧ (0x0409 ∈ units data → 0x0409 ∈ (units data).takeWhile (· ≠ 0))

/-- As many words have come as are taken for the string; fewer than two bytes are no string. -/
def WholeString (len : ℕ) (data : List UInt8) : Prop :=
  if len ≤ 2 then data.length < 4 else 4 ≤ len → data.length / 2 = len / 2

def Whole (arrayMem stringMem : Bool) (pd : PsdDevice) (replies : List Reply) : Prop :=
  (∀ read ∈ (langRead arrayMem pd replies).1, WholeLangs read.1 read.2) ∧
  (stringMem = true → ∀ read ∈ stringReply (langRead arrayMem pd replies).2, WholeString read.1 read.2)

end Neptune.StringDesc
