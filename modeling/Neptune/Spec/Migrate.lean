import Neptune.Spec.ParseCfg

/-! `pMigrateCfg`: the old names in class paths, sound paths and owners of the settings. A string is read up to its
NUL in memory, `behind` is what memory holds behind the chunks of a form. -/

namespace Neptune

open PsdIFFContext

def IFFCHNK_INSERTSND : ChunkId := ⟨0x494E5346, by decide⟩
def IFFCHNK_REMOVESND : ChunkId := ⟨0x524D5346, by decide⟩

namespace Migrate

def ascii (chars : List Char) : List UInt8 := chars.map fun c => .ofNat c.toNat

def NEP_CLASSDRAWER : CString :=
  ⟨ascii ['D', 'E', 'V', 'S', ':', 'U', 'S', 'B', 'C', 'l', 'a', 's', 's', 'e', 's'], by decide⟩

def NEP_PRESETDRAWER : CString :=
  ⟨ascii ['S', 'Y', 'S', ':', 'P', 'r', 'e', 'f', 's', '/', 'P', 'r', 'e', 's', 'e', 't', 's', '/', 'N', 'e', 'p', 't',
    'u', 'n', 'e'], by decide⟩

def NEP_PREFS_OWNER : CString := ⟨ascii ['N', 'e', 'p', 't', 'u', 'n', 'e', 'U', 'S', 'B'], by decide⟩

def NEP_OLDCLASSDRAWER : CString :=
  ⟨ascii ['S', 'Y', 'S', ':', 'C', 'l', 'a', 's', 's', 'e', 's', '/', 'U', 'S', 'B'], by decide⟩

def NEP_OLDPRESETDRAWER : CString :=
  ⟨ascii ['S', 'Y', 'S', ':', 'P', 'r', 'e', 'f', 's', '/', 'P', 'r', 'e', 's', 'e', 't', 's', '/', 'P', 'o', 's', 'e',
    'i', 'd', 'o', 'n'], by decide⟩

def NEP_OLDPREFS_OWNER : CString := ⟨ascii ['T', 'r', 'i', 'd', 'e', 'n', 't'], by decide⟩

def slash : UInt8 := 0x2F

def stringAt (mem : List UInt8) : CString :=
  ⟨mem.takeWhile (· ≠ 0), fun h => by simpa using List.all_eq_true.mp List.all_takeWhile _ h⟩

def rest (str : CString) (n : ℕ) : CString := ⟨str.chars.drop n, fun h => str.no_nul (List.mem_of_mem_drop h)⟩

def append (a b : CString) : CString :=
  ⟨a.chars ++ b.chars, fun h => (List.mem_append.mp h).elim a.no_nul b.no_nul⟩

def lowerCase (c : UInt8) : UInt8 := if 0x41 ≤ c ∧ c ≤ 0x5A then c + 32 else c

def strnicmp : List UInt8 → List UInt8 → ℕ → ℤ
  | _, _, 0 => 0
  | a, b, n + 1 =>
    let ca := lowerCase (a.headD 0)
    let cb := lowerCase (b.headD 0)
    if ca = cb ∧ ca ≠ 0 then strnicmp a.tail b.tail n else ca.toNat - cb.toNat

/-- The memory from the data of the chunk on: its own bytes, the chunks behind it in the form, and what is behind the
form's. -/
def chunkMemory (behind : PsdIFFContext → List UInt8) (pic : PsdIFFContext) (chnkid : ChunkId) : Option (List UInt8) :=
  match pic.chunks.list.dropWhile fun chunk => !decide (chunk.id = chnkid.val) with
  | [] => none
  | chunk :: chunks => some (chunk.data ++ (chunk.pad ++ (chunks.flatMap CfgChunk.bytes ++ behind pic)))

section code

variable (behind : PsdIFFContext → List UInt8)

def pMigrateCfgString (chnkid : ChunkId) (oldp newp : CString) (mem : List Bool) (pic : PsdIFFContext) :
    PsdIFFContext × Bool × List Bool :=
  match chunkMemory behind pic chnkid with
  | none => (pic, false, mem)
  | some chnk =>
    let str := stringAt chnk
    let oldlen := oldp.chars.length
    if strnicmp str.chars oldp.chars oldlen ≠ 0 then (pic, false, mem)
    else
      let rest := rest str oldlen
      if rest.chars ≠ [] ∧ rest.chars.headD 0 ≠ slash then (pic, false, mem)
      else
        -- `psdCopyStrFmt()`
        let (ok, mem) := psdAllocVec mem
        if ok then pAddStringChunk mem pic chnkid (append newp rest) else (pic, false, mem)

def eachForm (formid : UInt32) (f : List Bool → PsdIFFContext → PsdIFFContext × Bool × List Bool) (mem : List Bool) :
    List PsdIFFContext → List PsdIFFContext × Bool × List Bool
  | [] => ([], false, mem)
  | pic :: pics =>
    if pic.formId = formid then
      let (pic, changed, mem) := f mem pic
      let (pics, changed', mem) := eachForm formid f mem pics
      (pic :: pics, changed || changed', mem)
    else
      let (pics, changed, mem) := eachForm formid f mem pics
      (pic :: pics, changed, mem)

def firstForm (formid : UInt32) (f : List Bool → PsdIFFContext → PsdIFFContext × Bool × List Bool) (mem : List Bool) :
    List PsdIFFContext → List PsdIFFContext × Bool × List Bool
  | [] => ([], false, mem)
  | pic :: pics =>
    if pic.formId = formid then
      let (pic, changed, mem) := f mem pic
      (pic :: pics, changed, mem)
    else
      let (pics, changed, mem) := firstForm formid f mem pics
      (pic :: pics, changed, mem)

def inside (f : List Bool → List PsdIFFContext → List PsdIFFContext × Bool × List Bool) (mem : List Bool)
    (pic : PsdIFFContext) : PsdIFFContext × Bool × List Bool :=
  let (pics, changed, mem) := f mem pic.subForms
  ({ pic with subForms := pics }, changed, mem)

def andThen {α : Type} (f g : List Bool → α → α × Bool × List Bool) (mem : List Bool) (a : α) : α × Bool × List Bool :=
  let (a, changed, mem) := f mem a
  let (a, changed', mem) := g mem a
  (a, changed || changed', mem)

def migrateStack : List Bool → PsdIFFContext → PsdIFFContext × Bool × List Bool :=
  andThen (inside (eachForm IFFFORM_USBCLASS
      (pMigrateCfgString behind IFFCHNK_NAME NEP_OLDCLASSDRAWER NEP_CLASSDRAWER)))
    (andThen (pMigrateCfgString behind IFFCHNK_INSERTSND NEP_OLDPRESETDRAWER NEP_PRESETDRAWER)
      (pMigrateCfgString behind IFFCHNK_REMOVESND NEP_OLDPRESETDRAWER NEP_PRESETDRAWER))

def migrateOwner : List Bool → PsdIFFContext → PsdIFFContext × Bool × List Bool :=
  pMigrateCfgString behind IFFCHNK_OWNER NEP_OLDPREFS_OWNER NEP_PREFS_OWNER

def migrateDevice : List Bool → PsdIFFContext → PsdIFFContext × Bool × List Bool :=
  inside (andThen (eachForm IFFFORM_DEVCFGDATA (migrateOwner behind)) (eachForm IFFFORM_IFCFGDATA (migrateOwner behind)))

def pMigrateCfg : List Bool → PsdIFFContext → PsdIFFContext × Bool × List Bool :=
  inside (andThen (firstForm IFFFORM_STACKCFG (migrateStack behind)) (eachForm IFFFORM_DEVICECFG (migrateDevice behind)))

end code

def Leads (oldp str : CString) : Prop :=
  (str.chars.take oldp.chars.length).map lowerCase = oldp.chars.map lowerCase ∧
    (str.chars.drop oldp.chars.length = [] ∨ (str.chars.drop oldp.chars.length).head? = some slash)

instance (oldp str : CString) : Decidable (Leads oldp str) := inferInstanceAs (Decidable (_ ∧ _))

def chunkString (chunk : CfgChunk) : CString := stringAt chunk.data

def renamed (chnkid : ChunkId) (oldp newp : CString) (chunk : CfgChunk) : CfgChunk :=
  if Leads oldp (chunkString chunk) then
    stringChunk chnkid (append newp (rest (chunkString chunk) oldp.chars.length))
  else chunk

def Renamed (chnkid : ChunkId) (oldp newp : CString) (pic pic' : PsdIFFContext) : Prop :=
  pic'.pFindCfgChunk chnkid = (pic.pFindCfgChunk chnkid).map (renamed chnkid oldp newp)

/-- Nothing else than the chunks of these ids is changed of a form's own chunks. -/
def KeepsOthers (ids : List ChunkId) (pic pic' : PsdIFFContext) : Prop :=
  pic'.formId = pic.formId ∧ ∀ id, id ∉ ids.map Subtype.val → pic'.pFindCfgChunk id = pic.pFindCfgChunk id

def OnlyRenamed (chnkid : ChunkId) (oldp newp : CString) (pic pic' : PsdIFFContext) : Prop :=
  Renamed chnkid oldp newp pic pic' ∧ KeepsOthers [chnkid] pic pic' ∧ pic'.subForms = pic.subForms

def Each (formid : UInt32) (R : PsdIFFContext → PsdIFFContext → Prop) : List PsdIFFContext → List PsdIFFContext → Prop :=
  List.Forall₂ fun pic pic' => pic.formId = formid → R pic pic'

/-- The first form of an id is as it should be, and the further ones are the same. -/
def First (formid : UInt32) (R : PsdIFFContext → PsdIFFContext → Prop) : List PsdIFFContext → List PsdIFFContext → Prop
  | [], [] => True
  | pic :: pics, pic' :: pics' =>
    if pic.formId = formid then R pic pic' ∧ Each formid (fun pic pic' => pic' = pic) pics pics'
    else First formid R pics pics'
  | _, _ => False

def OthersSame (formids : List UInt32) : List PsdIFFContext → List PsdIFFContext → Prop :=
  List.Forall₂ fun pic pic' => pic'.formId = pic.formId ∧ (pic.formId ∉ formids → pic' = pic)

def StackRenamed (pic pic' : PsdIFFContext) : Prop :=
  Each IFFFORM_USBCLASS (OnlyRenamed IFFCHNK_NAME NEP_OLDCLASSDRAWER NEP_CLASSDRAWER) pic.subForms pic'.subForms ∧
  Renamed IFFCHNK_INSERTSND NEP_OLDPRESETDRAWER NEP_PRESETDRAWER pic pic' ∧
  Renamed IFFCHNK_REMOVESND NEP_OLDPRESETDRAWER NEP_PRESETDRAWER pic pic' ∧
  KeepsOthers [IFFCHNK_INSERTSND, IFFCHNK_REMOVESND] pic pic' ∧
  OthersSame [IFFFORM_USBCLASS] pic.subForms pic'.subForms

def OwnerRenamed : PsdIFFContext → PsdIFFContext → Prop :=
  OnlyRenamed IFFCHNK_OWNER NEP_OLDPREFS_OWNER NEP_PREFS_OWNER

def DeviceRenamed (pic pic' : PsdIFFContext) : Prop :=
  Each IFFFORM_DEVCFGDATA OwnerRenamed pic.subForms pic'.subForms ∧
  Each IFFFORM_IFCFGDATA OwnerRenamed pic.subForms pic'.subForms ∧
  pic'.formId = pic.formId ∧ pic'.chunks = pic.chunks ∧
  OthersSame [IFFFORM_DEVCFGDATA, IFFFORM_IFCFGDATA] pic.subForms pic'.subForms

/-- The settings with the concerned strings renamed and nothing else changed. -/
def CfgRenamed (root root' : PsdIFFContext) : Prop :=
  First IFFFORM_STACKCFG StackRenamed root.subForms root'.subForms ∧
  Each IFFFORM_DEVICECFG DeviceRenamed root.subForms root'.subForms ∧
  root'.formId = root.formId ∧ root'.chunks = root.chunks ∧
  OthersSame [IFFFORM_STACKCFG, IFFFORM_DEVICECFG] root.subForms root'.subForms

/-- The first run renames, and a second one, with whatever is in memory then, does nothing. -/
def Migrates (behind behind' : PsdIFFContext → List UInt8) (mem : List Bool) (root : PsdIFFContext) : Prop :=
  let root' := (pMigrateCfg behind mem root).1
  let again := pMigrateCfg behind' (pMigrateCfg behind mem root).2.2 root'
  CfgRenamed root root' ∧ again.1 = root' ∧ again.2.1 = false

/-- The string of the chunk is read as far as its data goes, or neither it nor what is read has the old name. -/
def Closed (behind : PsdIFFContext → List UInt8) (chnkid : ChunkId) (oldp : CString) (pic : PsdIFFContext) : Prop :=
  ∀ chnk ∈ chunkMemory behind pic chnkid, ∀ chunk ∈ pic.pFindCfgChunk chnkid,
    stringAt chnk = chunkString chunk ∨ ¬Leads oldp (chunkString chunk) ∧ ¬Leads oldp (stringAt chnk)

section closed

variable (chnkid : ChunkId) (oldp newp : CString) (pic : PsdIFFContext)

/-- The form with its string renamed, which then comes behind the other chunks. -/
def rename : PsdIFFContext :=
  match pic.pFindCfgChunk chnkid with
  | some chunk => if Leads oldp (chunkString chunk) then
      { pic with chunks := pic.chunks.put (renamed chnkid oldp newp chunk) } else pic
  | none => pic

def allocs : ℕ :=
  match pic.pFindCfgChunk chnkid with
  | some chunk => if Leads oldp (chunkString chunk) then 3 else 0
  | none => 0

end closed

def renameEach (formid : UInt32) (f : PsdIFFContext → PsdIFFContext) (pics : List PsdIFFContext) : List PsdIFFContext :=
  pics.map fun pic => if pic.formId = formid then f pic else pic

def renameFirst (formid : UInt32) (f : PsdIFFContext → PsdIFFContext) : List PsdIFFContext → List PsdIFFContext
  | [] => []
  | pic :: pics => if pic.formId = formid then f pic :: pics else pic :: renameFirst formid f pics

def allocsEach (formid : UInt32) (n : PsdIFFContext → ℕ) (pics : List PsdIFFContext) : ℕ :=
  (pics.map fun pic => if pic.formId = formid then n pic else 0).sum

def allocsFirst (formid : UInt32) (n : PsdIFFContext → ℕ) (pics : List PsdIFFContext) : ℕ :=
  ((pics.find? fun pic => pic.formId = formid).map n).getD 0

def renameInside (f : List PsdIFFContext → List PsdIFFContext) (pic : PsdIFFContext) : PsdIFFContext :=
  { pic with subForms := f pic.subForms }

def renameClasses : PsdIFFContext → PsdIFFContext :=
  renameInside (renameEach IFFFORM_USBCLASS (rename IFFCHNK_NAME NEP_OLDCLASSDRAWER NEP_CLASSDRAWER))

def renameInsert : PsdIFFContext → PsdIFFContext := rename IFFCHNK_INSERTSND NEP_OLDPRESETDRAWER NEP_PRESETDRAWER

def renameRemove : PsdIFFContext → PsdIFFContext := rename IFFCHNK_REMOVESND NEP_OLDPRESETDRAWER NEP_PRESETDRAWER

def renameStack (pic : PsdIFFContext) : PsdIFFContext := renameRemove (renameInsert (renameClasses pic))

def allocsStack (pic : PsdIFFContext) : ℕ :=
  allocsEach IFFFORM_USBCLASS (allocs IFFCHNK_NAME NEP_OLDCLASSDRAWER) pic.subForms +
    (allocs IFFCHNK_INSERTSND NEP_OLDPRESETDRAWER pic + allocs IFFCHNK_REMOVESND NEP_OLDPRESETDRAWER pic)

def renameOwner : PsdIFFContext → PsdIFFContext := rename IFFCHNK_OWNER NEP_OLDPREFS_OWNER NEP_PREFS_OWNER

def renameDevice : PsdIFFContext → PsdIFFContext :=
  renameInside fun pics => renameEach IFFFORM_IFCFGDATA renameOwner (renameEach IFFFORM_DEVCFGDATA renameOwner pics)

def allocsOwner : PsdIFFContext → ℕ := allocs IFFCHNK_OWNER NEP_OLDPREFS_OWNER

def allocsDevice (pic : PsdIFFContext) : ℕ :=
  allocsEach IFFFORM_DEVCFGDATA allocsOwner pic.subForms + allocsEach IFFFORM_IFCFGDATA allocsOwner pic.subForms

def renameCfg : PsdIFFContext → PsdIFFContext :=
  renameInside fun pics => renameEach IFFFORM_DEVICECFG renameDevice (renameFirst IFFFORM_STACKCFG renameStack pics)

def allocsCfg (root : PsdIFFContext) : ℕ :=
  allocsFirst IFFFORM_STACKCFG allocsStack root.subForms + allocsEach IFFFORM_DEVICECFG allocsDevice root.subForms

section closed

variable (behind : PsdIFFContext → List UInt8)

/-- A string is looked at in the form as it then is, with what has been renamed before. -/
def ClosedStack (pic : PsdIFFContext) : Prop :=
  (∀ subpic ∈ pic.subForms, subpic.formId = IFFFORM_USBCLASS →
    Closed behind IFFCHNK_NAME NEP_OLDCLASSDRAWER subpic) ∧
  Closed behind IFFCHNK_INSERTSND NEP_OLDPRESETDRAWER (renameClasses pic) ∧
  Closed behind IFFCHNK_REMOVESND NEP_OLDPRESETDRAWER (renameInsert (renameClasses pic))

def ClosedOwner : PsdIFFContext → Prop := Closed behind IFFCHNK_OWNER NEP_OLDPREFS_OWNER

def ClosedDevice (pic : PsdIFFContext) : Prop :=
  ∀ subpic ∈ pic.subForms, subpic.formId = IFFFORM_DEVCFGDATA ∨ subpic.formId = IFFFORM_IFCFGDATA →
    ClosedOwner behind subpic

def ClosedCfg (root : PsdIFFContext) : Prop :=
  (∀ pic ∈ root.subForms.find? fun pic => pic.formId = IFFFORM_STACKCFG, ClosedStack behind pic) ∧
  ∀ pic ∈ root.subForms, pic.formId = IFFFORM_DEVICECFG → ClosedDevice behind pic

end closed

def ClosedTwice (behind behind' : PsdIFFContext → List UInt8) (root : PsdIFFContext) : Prop :=
  ClosedCfg behind root ∧ ClosedCfg behind' (renameCfg root)

/-- The first `n` allocations succeed. -/
def Enough (n : ℕ) (mem : List Bool) : Prop := ∀ ok ∈ mem.take n, ok = true

end Migrate

end Neptune
