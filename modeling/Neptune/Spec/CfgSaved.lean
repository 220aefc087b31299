import Neptune.Spec.Migrate

/-! The hash of the settings that are saved: `pCheckCfgChanged`, `psdSaveCfgToDisk` and the calls that change the
settings. Events are left out. -/

namespace Neptune

open PsdIFFContext

def IFFCHNK_GLOBALCFG : ChunkId := ⟨0x47434647, by decide⟩

namespace CfgSaved

open Migrate

def words : List UInt8 → List UInt32
  | a :: b :: rest => .ofNat (a.toNat * 2 ^ 8 + b.toNat) :: words rest
  | _ => []

def rotate (crc word : UInt32) : UInt32 := (crc <<< 1 ||| crc >>> 31) ^^^ word

mutual

def pCalcCfgCRC : PsdIFFContext → UInt32
  | ⟨formId, chunks, subForms⟩ => subFormsCRC ((words chunks.bytes).foldl rotate formId) subForms

def subFormsCRC : UInt32 → List PsdIFFContext → UInt32
  | crc, [] => crc
  | crc, subpic :: subForms => subFormsCRC (crc ^^^ pCalcCfgCRC subpic) subForms

end

/-- `CopyMem()` over the data of a chunk, as far as both go. -/
def overwrite (chunk : CfgChunk) (data : List UInt8) : CfgChunk :=
  { chunk with
    data := data.take chunk.data.length ++ chunk.data.drop data.length
    pad_length := by
      rw [chunk.pad_length, List.length_append, List.length_take, List.length_drop]
      congr 1
      omega }

/-- `disk` is the tree that was written last or loaded, if it was written in full. It is not in the code. -/
structure PsdBase where
  root : Option PsdIFFContext
  globalCfg : CfgChunk
  insertSnd : CString
  removeSnd : CString
  checkConfigReq : Bool
  configHash : UInt32
  savedConfigHash : UInt32
  disk : Option PsdIFFContext

/-- A form that a call is for: the root, the one down a path from it, or one outside the settings. -/
inductive CfgForm
  | null
  | form (path : List ℕ)
  | alien (pic : PsdIFFContext)

section forms

variable {β : Type}

def atPath (f : PsdIFFContext → Option (PsdIFFContext × β)) : List ℕ → PsdIFFContext → Option (PsdIFFContext × β)
  | [], pic => f pic
  | i :: path, pic => do
    let subpic ← pic.subForms[i]?
    let (subpic, result) ← atPath f path subpic
    return ({ pic with subForms := pic.subForms.set i subpic }, result)

/-- `f` on the form of a call, and what it gives; nothing where there is no root to stand for `NULL`. -/
def changeForm (f : PsdIFFContext → Option (PsdIFFContext × β)) :
    CfgForm → Option PsdIFFContext → Option (Option PsdIFFContext × Option β)
  | .alien pic, root => do
    let (_, result) ← f pic
    return (root, some result)
  | .null, none => some (none, none)
  | .null, some root => do
    let (root, result) ← f root
    return (some root, some result)
  | .form _, none => none
  | .form path, some root => do
    let (root, result) ← atPath f path root
    return (some root, some result)

def remForm : List ℕ → PsdIFFContext → Option PsdIFFContext
  | [], _ => none
  | [i], pic =>
    if i < pic.subForms.length then some { pic with subForms := pic.subForms.eraseIdx i } else none
  | i :: path, pic => do
    let subpic ← pic.subForms[i]?
    let subpic ← remForm path subpic
    return { pic with subForms := pic.subForms.set i subpic }

def changeFirst (formid : UInt32) (f : PsdIFFContext → PsdIFFContext × List Bool) (mem : List Bool) :
    List PsdIFFContext → List PsdIFFContext × List Bool
  | [] => ([], mem)
  | pic :: pics =>
    if pic.formId = formid then
      let (pic, mem) := f pic
      (pic :: pics, mem)
    else
      let (pics, mem) := changeFirst formid f mem pics
      (pic :: pics, mem)

end forms

namespace PsdBase

variable (ps : PsdBase)

def addGlobals (mem : List Bool) (pic : PsdIFFContext) : PsdIFFContext × List Bool :=
  let (pic, _, mem) := putChunk mem pic ps.globalCfg
  let (pic, _, mem) := pAddStringChunk mem pic IFFCHNK_INSERTSND ps.insertSnd
  let (pic, _, mem) := pAddStringChunk mem pic IFFCHNK_REMOVESND ps.removeSnd
  (pic, mem)

def pUpdateGlobalCfg (mem : List Bool) (root : PsdIFFContext) : PsdIFFContext × List Bool :=
  let (pics, mem) := changeFirst IFFFORM_STACKCFG (ps.addGlobals mem) mem root.subForms
  ({ root with subForms := pics }, mem)

/-- `pGetStringChunk` where the string is another one; `ok` is whether there is memory for it. -/
def newString (subpic : PsdIFFContext) (chnkid : ChunkId) (str : CString) (ok : Bool) : CString :=
  if pMatchStringChunk subpic chnkid str then str
  else
    match subpic.pFindCfgChunk chnkid with
    | some chunk => if ok then stringAt chunk.data else str
    | none => str

def takeGlobals (ok ok' : Bool) (subpic : PsdIFFContext) : PsdBase :=
  { ps with
    globalCfg :=
      match subpic.pFindCfgChunk IFFCHNK_GLOBALCFG with
      | some chnk => overwrite ps.globalCfg chnk.data
      | none => ps.globalCfg
    insertSnd := newString subpic IFFCHNK_INSERTSND ps.insertSnd ok
    removeSnd := newString subpic IFFCHNK_REMOVESND ps.removeSnd ok' }

def pCheckCfgChanged (ok ok' : Bool) : PsdBase :=
  let ps := { ps with checkConfigReq := false }
  match ps.root with
  | none => ps
  | some root =>
    let crc := pCalcCfgCRC root
    if crc ≠ ps.configHash then
      let ps := { ps with configHash := crc }
      match psdFindCfgForm root IFFFORM_STACKCFG with
      | some subpic => ps.takeGlobals ok ok' subpic
      | none => ps
    else ps

def psdAddCfgEntry (behind : PsdIFFContext → List UInt8) (fuel : ℕ) (mem mem' : List Bool) (pic : CfgForm)
    (formdata : List UInt8) : Option PsdBase := do
  let add := fun pic => (pAddCfgChunk fuel mem pic formdata).map fun (pic, ok, _) => (pic, ok)
  match ← changeForm add pic ps.root with
  | (_, none) => return ps
  | (root, some _) =>
    return { ps with root := root.map fun root => (pMigrateCfg behind mem' root).1, checkConfigReq := true }

def fits (formdata : List UInt8) (pic : PsdIFFContext) : Option Bool := do
  let id ← getLong formdata
  let formId ← getLong (formdata.drop 8)
  return id = ID_FORM ∧ formId = pic.formId

def psdReadCfg (fuel : ℕ) (mem : List Bool) (pic : CfgForm) (formdata : List UInt8) : Option PsdBase := do
  let read := fun pic => do
    let fit ← fits formdata pic
    let (pic, _, _) ← Neptune.psdReadCfg fuel mem pic formdata
    return (pic, fit)
  match ← changeForm read pic ps.root with
  | (root, some true) => return { ps with root := root, checkConfigReq := true }
  | _ => return ps

def psdRemCfgForm : CfgForm → Option PsdBase
  | .alien _ => some { ps with checkConfigReq := true }
  | .null =>
    match ps.root with
    | some _ => some { ps with root := none, checkConfigReq := true }
    | none => some ps
  | .form path => do
    let root ← ps.root
    if path = [] then
      return { ps with root := none, checkConfigReq := true }
    let root ← remForm path root
    return { ps with root := some root, checkConfigReq := true }

/-- `psdSetAttrs()` on the configuration of the stack. -/
def setStackCfg (mem : List Bool) (ok ok' : Bool) (globalCfg : List UInt8) (insertSnd removeSnd : CString) : PsdBase :=
  let ps := { ps with
    globalCfg := overwrite ps.globalCfg globalCfg
    insertSnd := insertSnd
    removeSnd := removeSnd }
  let ps := { ps with root := ps.root.map fun root => (ps.pUpdateGlobalCfg mem root).1 }
  ps.pCheckCfgChanged ok ok'

/-- `psdSetUsbDevCfg` and the like. -/
def setCfg (fuel : ℕ) (mem : List Bool) (ok ok' : Bool) (call : CfgCall) : Option PsdBase := do
  let (root, _, _) ← call.run fuel mem ps.root
  return { ps with root := root }.pCheckCfgChanged ok ok'

/-- How a file fares: `dos.library` is there, it is opened, and all is written. -/
structure File where
  dos : Bool
  opened : Bool
  written : Bool
  deriving DecidableEq

def saveTo (file : File) (mem : List Bool) : PsdBase × Bool × List Bool :=
  if file.dos then
    match ps.root with
    | none => (ps, false, mem)
    | some root =>
      -- `psdWriteCfg()`
      let (root, mem) := ps.pUpdateGlobalCfg mem root
      let ps := { ps with root := some root, checkConfigReq := true }
      let (buf, mem) := psdAllocVec mem
      if buf && file.opened then
        ({ ps with
            savedConfigHash := ps.configHash
            disk := if file.written then some root else none }, true, mem)
      else (ps, false, mem)
  else (ps, false, mem)

/-- `psdSaveCfgToDisk(NULL)`. -/
def psdSaveCfgToDisk (envarc env : File) (mem : List Bool) : PsdBase × Bool :=
  let (ps, saved, mem) := ps.saveTo envarc mem
  let (ps, saved', _) := ps.saveTo env mem
  (ps, saved && saved')

end PsdBase

inductive Event
  | addCfgEntry (behind : PsdIFFContext → List UInt8) (fuel : ℕ) (mem mem' : List Bool) (pic : CfgForm)
      (formdata : List UInt8)
  | readCfg (fuel : ℕ) (mem : List Bool) (pic : CfgForm) (formdata : List UInt8)
  | remCfgForm (pic : CfgForm)
  | setAttrs (mem : List Bool) (ok ok' : Bool) (globalCfg : List UInt8) (insertSnd removeSnd : CString)
  | set (fuel : ℕ) (mem : List Bool) (ok ok' : Bool) (call : CfgCall)
  | check (ok ok' : Bool)
  | save (envarc env : PsdBase.File) (mem : List Bool)

def step (ps : PsdBase) : Event → Option PsdBase
  | .addCfgEntry behind fuel mem mem' pic formdata => ps.psdAddCfgEntry behind fuel mem mem' pic formdata
  | .readCfg fuel mem pic formdata => ps.psdReadCfg fuel mem pic formdata
  | .remCfgForm pic => ps.psdRemCfgForm pic
  | .setAttrs mem ok ok' globalCfg insertSnd removeSnd => some (ps.setStackCfg mem ok ok' globalCfg insertSnd removeSnd)
  | .set fuel mem ok ok' call => ps.setCfg fuel mem ok ok' call
  | .check ok ok' => some (ps.pCheckCfgChanged ok ok')
  | .save envarc env mem => some (ps.psdSaveCfgToDisk envarc env mem).1

/-- Right after the settings have been loaded or saved, and checked. -/
def Synced (ps : PsdBase) : Prop :=
  ∃ root, ps.root = some root ∧ ps.disk = some root ∧ ps.checkConfigReq = false ∧
    ps.configHash = pCalcCfgCRC root ∧ ps.savedConfigHash = pCalcCfgCRC root

/-- Where no check is due, equal hashes mean that what is live is on disk. -/
def Truthful (ps : PsdBase) : Prop :=
  ps.checkConfigReq = false → ps.savedConfigHash = ps.configHash → ps.root = ps.disk

/-- A file that is said to be saved is written in full, and the hash at hand is that of what is written. -/
def SavesRight (ps : PsdBase) (file : PsdBase.File) (mem : List Bool) : Prop :=
  (ps.saveTo file mem).2.1 = true →
    file.written = true ∧ ∀ root ∈ ps.root, ps.configHash = pCalcCfgCRC (ps.pUpdateGlobalCfg mem root).1

def Orderly (ps : PsdBase) : Event → Prop
  | .save envarc env mem =>
    SavesRight ps envarc mem ∧ SavesRight (ps.saveTo envarc mem).1 env (ps.saveTo envarc mem).2.2
  | .remCfgForm pic =>
    match pic with
    | .null => False
    | .form path => path ≠ []
    | .alien _ => True
  | _ => True

def Within (trees : Set PsdIFFContext) (ps : PsdBase) : Prop :=
  (∀ root ∈ ps.root, root ∈ trees) ∧ ∀ root ∈ ps.disk, root ∈ trees

end CfgSaved

end Neptune
