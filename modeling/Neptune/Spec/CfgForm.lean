import Neptune.Lib.Word

/-! Forms of the settings, in memory and as bytes. Whether an allocation of a call succeeds comes
from a list of outcomes, which is used up from the front. A read past the buffer has no result. -/

namespace Neptune

def ID_FORM : UInt32 := 0x464F524D

/-- A chunk as `pic_Chunks` holds it, with its pad byte where the length is odd. -/
structure CfgChunk where
  id : UInt32
  data : List UInt8
  pad : List UInt8
  not_form : id ≠ ID_FORM
  pad_length : pad.length = data.length % 2
  deriving DecidableEq

/-- `pic_Chunks` up to `pic_ChunksLen`: chunks of distinct ids. -/
structure CfgChunks where
  list : List CfgChunk
  nodup : (list.map CfgChunk.id).Nodup
  deriving DecidableEq

structure PsdIFFContext where
  formId : UInt32
  chunks : CfgChunks
  subForms : List PsdIFFContext

def evenDown (n : ℕ) : ℕ := n / 2 * 2

def chunkLen (length : ℕ) : ℕ := evenDown (ulong (length + 9))

/-- `psdAllocVec` finds memory; every one does when the outcomes have run out. -/
def psdAllocVec : List Bool → Bool × List Bool
  | [] => (true, [])
  | ok :: mem => (ok, mem)

def putLong (n : UInt32) : List UInt8 :=
  [.ofNat (n.toNat / 2 ^ 24), .ofNat (n.toNat / 2 ^ 16), .ofNat (n.toNat / 2 ^ 8), .ofNat n.toNat]

def getLong : List UInt8 → Option UInt32
  | a :: b :: c :: d :: _ =>
    some (.ofNat (a.toNat * 2 ^ 24 + b.toNat * 2 ^ 16 + c.toNat * 2 ^ 8 + d.toNat))
  | _ => none

namespace CfgChunk

def length (chunk : CfgChunk) : ℕ := chunkLen chunk.data.length

def bytes (chunk : CfgChunk) : List UInt8 :=
  putLong chunk.id ++ putLong (.ofNat chunk.data.length) ++ chunk.data ++ chunk.pad

end CfgChunk

namespace CfgChunks

def empty : CfgChunks := ⟨[], List.nodup_nil⟩

def bytes (chunks : CfgChunks) : List UInt8 := chunks.list.flatMap CfgChunk.bytes

def find (chunks : CfgChunks) (chnkid : UInt32) : Option CfgChunk :=
  chunks.list.find? fun chunk => chunk.id = chnkid

def rem (chunks : CfgChunks) (chnkid : UInt32) : CfgChunks :=
  ⟨chunks.list.eraseP fun chunk => chunk.id = chnkid,
    chunks.nodup.sublist ((List.eraseP_sublist).map _)⟩

theorem not_mem_rem (chunks : CfgChunks) (chnkid : UInt32) :
    chnkid ∉ (chunks.rem chnkid).list.map CfgChunk.id := by
  obtain ⟨list, nodup⟩ := chunks
  induction list with
  | nil => simp [rem]
  | cons chunk list ih =>
    rw [List.map_cons, List.nodup_cons] at nodup
    by_cases h : chunk.id = chnkid
    · subst h
      simpa [rem] using nodup.1
    · have := ih nodup.2
      simp only [rem] at this ⊢
      rw [List.eraseP_cons_of_neg (by simpa using h), List.map_cons, List.mem_cons]
      exact not_or.mpr ⟨Ne.symm h, this⟩

/-- A chunk takes the place of the one of its id, behind the others. -/
def put (chunks : CfgChunks) (chunk : CfgChunk) : CfgChunks :=
  ⟨(chunks.rem chunk.id).list ++ [chunk], by
    rw [List.map_append]
    refine List.nodup_append.mpr ⟨(chunks.rem chunk.id).nodup, by simp, ?_⟩
    intro id hid id' hid' he
    obtain rfl := List.mem_singleton.mp hid'
    exact not_mem_rem chunks chunk.id (he ▸ hid)⟩

end CfgChunks

namespace PsdIFFContext

def chunksLen (pic : PsdIFFContext) : ℕ := ulong (pic.chunks.list.map CfgChunk.length).sum

def alloc (formId : UInt32) : PsdIFFContext := ⟨formId, .empty, []⟩

mutual

/-- `pic_FormLength`, as `pGetFormLength` stores it. -/
def formLength : PsdIFFContext → ℕ
  | ⟨formId, chunks, subForms⟩ =>
    ulong (evenDown (ulong (5 + chunksLen ⟨formId, chunks, []⟩)) + subFormLengths subForms)

def subFormLengths : List PsdIFFContext → ℕ
  | [] => 0
  | subpic :: subForms => ulong (formLength subpic + 8) + subFormLengths subForms

end

def pGetFormLength (pic : PsdIFFContext) : ℕ := ulong (pic.formLength + 8)

mutual

def pInternalWriteForm : PsdIFFContext → List UInt8
  | ⟨formId, chunks, subForms⟩ =>
    putLong ID_FORM ++ putLong (.ofNat (formLength ⟨formId, chunks, subForms⟩)) ++
      putLong formId ++ chunks.bytes ++ writeSubForms subForms

def writeSubForms : List PsdIFFContext → List UInt8
  | [] => []
  | subpic :: subForms => pInternalWriteForm subpic ++ writeSubForms subForms

end

def pFindCfgChunk (pic : PsdIFFContext) (chnkid : UInt32) : Option CfgChunk :=
  pic.chunks.find chnkid

def pRemCfgChunk (pic : PsdIFFContext) (chnkid : UInt32) : PsdIFFContext :=
  { pic with chunks := pic.chunks.rem chnkid }

def addSubForm (pic subpic : PsdIFFContext) : PsdIFFContext :=
  { pic with subForms := pic.subForms ++ [subpic] }

end PsdIFFContext

def chunkAt (buf : List UInt8) (id length : UInt32) (h : id ≠ ID_FORM) : Option CfgChunk :=
  let n := length.toNat
  if hn : 8 + n + n % 2 ≤ buf.length then
    some ⟨id, (buf.drop 8).take n, (buf.drop (8 + n)).take (n % 2), h, by
      simp only [List.length_take, List.length_drop]
      omega⟩
  else none

/-- `pAddCfgChunk` of a chunk that is not a form; with the form, whether there was memory where its
buffer has to be expanded, and the outcomes that are left. -/
def putChunk (mem : List Bool) (pic : PsdIFFContext) (chunk : CfgChunk) :
    PsdIFFContext × Bool × List Bool :=
  let (ok, mem) := psdAllocVec mem
  (if ok then { pic with chunks := pic.chunks.put chunk } else pic.pRemCfgChunk chunk.id, ok, mem)

open PsdIFFContext

mutual

/-- The form with the chunk added, whether it could be, and the outcomes that are left. -/
def pAddCfgChunk : ℕ → List Bool → PsdIFFContext → List UInt8 →
    Option (PsdIFFContext × Bool × List Bool)
  | 0, _, _, _ => none
  | fuel + 1, mem, pic, buf => do
    let id ← getLong buf
    let length ← getLong (buf.drop 4)
    if h : id = ID_FORM then
      let formId ← getLong (buf.drop 8)
      let (ok, mem) := psdAllocVec mem
      if ok then
        let len := evenDown (ulongSub length.toNat 3)
        let (subpic, len, mem) ← addChunks fuel mem (alloc formId) (buf.drop 12) len
        return (pic.addSubForm subpic, len = 0, mem)
      else
        return (pic, false, mem)
    else
      let chunk ← chunkAt buf id length h
      return putChunk mem pic chunk

/-- The loop over the contents of a form; with the length that is left at its end. -/
def addChunks : ℕ → List Bool → PsdIFFContext → List UInt8 → ℕ →
    Option (PsdIFFContext × ℕ × List Bool)
  | 0, _, _, _, _ => none
  | fuel + 1, mem, pic, buf, len =>
    -- `len` is a `LONG`
    if 8 ≤ len ∧ len < 2 ^ 31 then do
      let (pic, ok, mem) ← pAddCfgChunk fuel mem pic buf
      if ok then
        let length ← getLong (buf.drop 4)
        let chlen := chunkLen length.toNat
        addChunks fuel mem pic (buf.drop chlen) (ulongSub len chlen)
      else
        return (pic, len, mem)
    else
      return (pic, len, mem)

end

def psdReadCfg (fuel : ℕ) (mem : List Bool) (pic : PsdIFFContext) (formdata : List UInt8) :
    Option (PsdIFFContext × Bool × List Bool) := do
  let id ← getLong formdata
  let formId ← getLong (formdata.drop 8)
  if id ≠ ID_FORM ∨ formId ≠ pic.formId then
    return (pic, false, mem)
  let length ← getLong (formdata.drop 4)
  let len := evenDown (ulongSub length.toNat 3)
  let (pic, len, mem) ← addChunks fuel mem (alloc pic.formId) (formdata.drop 12) len
  return (pic, len = 0, mem)

end Neptune
