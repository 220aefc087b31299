import Neptune.Spec.CfgForm

/-! Loading a prefs file, with the buffers of the forms as they are in memory. A read or a write outside a buffer has
no result, and neither has a loop that does not end. Whether an allocation succeeds comes from a list of outcomes. -/

namespace Neptune.CfgLoad

def IFFFORM_PSDCFG : UInt32 := 0x50534443

/-- `chunks` are the `pic_BufferLen` bytes of `pic_Chunks`. -/
structure PsdIFFContext where
  formId : UInt32
  chunks : List UInt8
  chunksLen : ℕ
  subForms : List PsdIFFContext

def readLong (buf : List UInt8) (p : ℕ) : Option UInt32 := getLong (buf.drop p)

def read (buf : List UInt8) (p n : ℕ) : Option (List UInt8) :=
  if p + n ≤ buf.length then some ((buf.drop p).take n) else none

def write (buf : List UInt8) (p : ℕ) (bytes : List UInt8) : Option (List UInt8) :=
  if p + bytes.length ≤ buf.length then some (buf.take p ++ bytes ++ buf.drop (p + bytes.length)) else none

namespace PsdIFFContext

def alloc (formId : UInt32) : PsdIFFContext := ⟨formId, [], 0, []⟩

/-- The loop of `pFindCfgChunk` and `pRemCfgChunk`: where the chunk is, with the length that is left there. A round
that does not fail goes on by two bytes or not at all. -/
def findLoop (chunks : List UInt8) (chnkid : UInt32) : ℕ → ℕ → ℕ → Option (Option (ℕ × ℕ))
  | 0, _, _ => none
  | fuel + 1, p, len =>
    if len = 0 then some none
    else do
      let id ← readLong chunks p
      if id = chnkid then return some (p, len)
      else
        let length ← readLong chunks (p + 4)
        findLoop chunks chnkid fuel (p + chunkLen length.toNat) (ulongSub len (chunkLen length.toNat))

variable (pic : PsdIFFContext)

def find (chnkid : UInt32) : Option (Option (ℕ × ℕ)) :=
  findLoop pic.chunks chnkid (pic.chunks.length + 1) 0 pic.chunksLen

def pFindCfgChunk (chnkid : UInt32) : Option (Option ℕ) := (pic.find chnkid).map fun found => found.map Prod.fst

def pRemCfgChunk (chnkid : UInt32) : Option PsdIFFContext := do
  match ← pic.find chnkid with
  | none => return pic
  | some (p, len) =>
    let length ← readLong pic.chunks (p + 4)
    let chlen := chunkLen length.toNat
    let len := ulongSub len chlen
    let chunks ← if len = 0 then some pic.chunks else (read pic.chunks (p + chlen) len).bind (write pic.chunks p)
    return { pic with chunks := chunks, chunksLen := ulongSub pic.chunksLen chlen }

/-- The buffer is exchanged for one of twice what is needed, where it is too small. -/
def expand (mem : List Bool) (need : ℕ) : Option (PsdIFFContext × Bool × List Bool) :=
  if need ≤ pic.chunks.length then some (pic, true, mem)
  else
    let (ok, mem) := psdAllocVec mem
    if ok then do
      let newbuf := List.replicate (ulong (2 * need)) 0
      let chunks ←
        if pic.chunksLen = 0 then some newbuf else (read pic.chunks 0 pic.chunksLen).bind (write newbuf 0)
      return ({ pic with chunks := chunks }, true, mem)
    else some (pic, false, mem)

/-- `pAddCfgChunk` of a chunk that is not a form. -/
def putChunk (mem : List Bool) (id : UInt32) (data : List UInt8) (p : ℕ) :
    Option (PsdIFFContext × Bool × List Bool) := do
  let pic ← pic.pRemCfgChunk id
  let length ← readLong data (p + 4)
  let len := chunkLen length.toNat
  let (pic, ok, mem) ← pic.expand mem (ulong (pic.chunksLen + len))
  if ok then
    let chunks ← (read data p len).bind (write pic.chunks pic.chunksLen)
    return ({ pic with chunks := chunks, chunksLen := ulong (pic.chunksLen + len) }, true, mem)
  else return (pic, false, mem)

def addSubForm (subpic : PsdIFFContext) : PsdIFFContext := { pic with subForms := pic.subForms ++ [subpic] }

end PsdIFFContext

mutual

/-- The chunk or form at `p` of the data; with whether it could be added. -/
def pAddCfgChunk (data : List UInt8) : ℕ → List Bool → PsdIFFContext → ℕ → Option (PsdIFFContext × Bool × List Bool)
  | 0, _, _, _ => none
  | fuel + 1, mem, pic, p => do
    let id ← readLong data p
    if id = ID_FORM then
      let length ← readLong data (p + 4)
      let formId ← readLong data (p + 8)
      let (ok, mem) := psdAllocVec mem
      if ok then
        let (subpic, len, mem) ← addChunks data fuel mem (.alloc formId) (p + 12) (evenDown (ulongSub length.toNat 3))
        return (pic.addSubForm subpic, len = 0, mem)
      else return (pic, false, mem)
    else pic.putChunk mem id data p

/-- The loop over the contents of a form; with the length that is left at its end. -/
def addChunks (data : List UInt8) : ℕ → List Bool → PsdIFFContext → ℕ → ℕ → Option (PsdIFFContext × ℕ × List Bool)
  | 0, _, _, _, _ => none
  | fuel + 1, mem, pic, p, len =>
    -- `len` is a `LONG`
    if 8 ≤ len ∧ len < 2 ^ 31 then do
      let (pic, ok, mem) ← pAddCfgChunk data fuel mem pic p
      if ok then
        let length ← readLong data (p + 4)
        addChunks data fuel mem pic (p + chunkLen length.toNat) (ulongSub len (chunkLen length.toNat))
      else return (pic, len, mem)
    else return (pic, len, mem)

end

def psdReadCfg (fuel : ℕ) (mem : List Bool) (pic : PsdIFFContext) (formdata : List UInt8) :
    Option (PsdIFFContext × Bool) := do
  let id ← readLong formdata 0
  let formId ← readLong formdata 8
  if id ≠ ID_FORM ∨ formId ≠ pic.formId then return (pic, false)
  else
    let length ← readLong formdata 4
    let emptied := { pic with subForms := [], chunksLen := 0 }
    let (pic, len, _) ← addChunks formdata fuel mem emptied 12 (evenDown (ulongSub length.toNat 3))
    return (pic, len = 0)

inductive Level
  | ok
  | error
  deriving DecidableEq, Repr

/-- `Read` of `n` bytes into a buffer from `p` on: with how many were read, and -1 where `n` is negative. -/
def dosRead (rest buf : List UInt8) (p n : ℕ) : Option (List UInt8 × ℕ) :=
  if n < 2 ^ 31 then do
    let buf ← write buf p (rest.take n)
    return (buf, (rest.take n).length)
  else some (buf, 2 ^ 32 - 1)

/-- A file that has been opened, up to `psdReadCfg`: the migration and `psdParseCfg` follow. -/
def pLoadCfgFile (fuel : ℕ) (mem : List Bool) (pic : PsdIFFContext) (file : List UInt8) :
    Option (PsdIFFContext × Level) :=
  match getLong file, getLong (file.drop 4), getLong (file.drop 8) with
  | some id, some length, some formId =>
    if id = ID_FORM ∧ formId = IFFFORM_PSDCFG then
      let (ok, mem) := psdAllocVec mem
      if ok then do
        let formlen := length.toNat
        let buf := List.replicate (ulong (formlen + 8)) 0
        let buf ← write buf 0 (putLong id ++ putLong length ++ putLong formId)
        let (buf, n) ← dosRead (file.drop 12) buf 12 (ulongSub formlen 4)
        if n = ulongSub formlen 4 then
          let (pic, _) ← psdReadCfg fuel mem pic buf
          return (pic, .ok)
        else return (pic, .error)
      else some (pic, .error)
    else some (pic, .error)
  | _, _, _ => some (pic, .error)

/-- The buffer begins with chunks, each with its header, its data and its pad byte, and `chunksLen` is the sum of
their padded sizes. -/
def Chunked (chunks : List UInt8) (chunksLen : ℕ) : Prop :=
  ∃ (list : List CfgChunk) (rest : List UInt8), (∀ chunk ∈ list, chunk.data.length + 9 < 2 ^ 32) ∧
    chunks = list.flatMap CfgChunk.bytes ++ rest ∧ chunksLen = (list.map CfgChunk.length).sum ∧ chunksLen < 2 ^ 32

inductive Sound : PsdIFFContext → Prop
  | mk {pic : PsdIFFContext} : Chunked pic.chunks pic.chunksLen → (∀ subpic ∈ pic.subForms, Sound subpic) → Sound pic

/-- `ps_ConfigRoot` as the library has made it. -/
structure ConfigRoot where
  pic : PsdIFFContext
  formId : pic.formId = IFFFORM_PSDCFG
  sound : Sound pic

def prefsFile (formlen : UInt32) (rest : List UInt8) : List UInt8 :=
  putLong ID_FORM ++ putLong formlen ++ putLong IFFFORM_PSDCFG ++ rest

/-- Loading ends, stays inside the buffers, and leaves the tree sound, whichever allocations fail. -/
def Loads (root : ConfigRoot) (file : List UInt8) : Prop :=
  ∀ mem, ∃ fuel pic level, pLoadCfgFile fuel mem root.pic file = some (pic, level) ∧ Sound pic

inductive End
  | done
  | corrupt
  | wraps
  deriving DecidableEq

/-- From header to header of what is at `p` with `len` bytes to go: each header is inside the data, and so is each
chunk. The walk is over at a chunk the length of which with header and pad is past 32 bits. -/
inductive Walk (data : List UInt8) : ℕ → ℕ → End → Prop
  | stop {p len : ℕ} : ¬(8 ≤ len ∧ len < 2 ^ 31) → Walk data p len (if len = 0 then .done else .corrupt)
  | chunk {p len : ℕ} {id length : UInt32} {e : End} :
      8 ≤ len ∧ len < 2 ^ 31 → readLong data p = some id → id ≠ ID_FORM → readLong data (p + 4) = some length →
        length.toNat + 9 < 2 ^ 32 → p + chunkLen length.toNat ≤ data.length →
        Walk data (p + chunkLen length.toNat) (ulongSub len (chunkLen length.toNat)) e → Walk data p len e
  | wraps {p len : ℕ} {id length : UInt32} :
      8 ≤ len ∧ len < 2 ^ 31 → readLong data p = some id → id ≠ ID_FORM → readLong data (p + 4) = some length →
        2 ^ 32 ≤ length.toNat + 9 → Walk data p len .wraps
  | form {p len : ℕ} {length formId : UInt32} {e : End} :
      8 ≤ len ∧ len < 2 ^ 31 → readLong data p = some ID_FORM → readLong data (p + 4) = some length →
        readLong data (p + 8) = some formId → Walk data (p + 12) (evenDown (ulongSub length.toNat 3)) .done →
        Walk data (p + chunkLen length.toNat) (ulongSub len (chunkLen length.toNat)) e → Walk data p len e
  | broken {p len : ℕ} {length formId : UInt32} {e : End} :
      8 ≤ len ∧ len < 2 ^ 31 → readLong data p = some ID_FORM → readLong data (p + 4) = some length →
        readLong data (p + 8) = some formId → Walk data (p + 12) (evenDown (ulongSub length.toNat 3)) e → e ≠ .done →
        Walk data p len e

/-- The length in the header leaves room for the header, and either the file cannot be read whole or the walk over
what it holds comes to the end `e`. -/
def Contained (formlen : UInt32) (rest : List UInt8) (e : End) : Prop :=
  4 ≤ formlen.toNat ∧ formlen.toNat + 8 < 2 ^ 32 ∧
    (2 ^ 31 ≤ formlen.toNat - 4 ∨ rest.length < formlen.toNat - 4 ∨
      Walk (prefsFile formlen (rest.take (formlen.toNat - 4))) 12 (evenDown (formlen.toNat - 3)) e)

end Neptune.CfgLoad
