import Neptune.Spec.CfgForm

/-! The settings of classes and devices and the forced bindings, in the forms below the root. -/

namespace Neptune

open PsdIFFContext

def IFFFORM_PSDCFG : UInt32 := 0x50534443
def IFFFORM_STACKCFG : UInt32 := 0x53544B43
def IFFFORM_DEVICECFG : UInt32 := 0x44455643
def IFFFORM_CLASSCFG : UInt32 := 0x434C5343
def IFFFORM_CLASSDATA : UInt32 := 0x47435044
def IFFFORM_DEVCFGDATA : UInt32 := 0x44434647
def IFFFORM_DEVCLSDATA : UInt32 := 0x44435044
def IFFFORM_IFCFGDATA : UInt32 := 0x49434647
def IFFFORM_IFCLSDATA : UInt32 := 0x49435044

/-- The id of a chunk, which is not a form. -/
abbrev ChunkId := { id : UInt32 // id ≠ ID_FORM }

def IFFCHNK_OWNER : ChunkId := ⟨0x4F574E52, by decide⟩
def IFFCHNK_DEVID : ChunkId := ⟨0x44564944, by decide⟩
def IFFCHNK_IFID : ChunkId := ⟨0x49464944, by decide⟩
def IFFCHNK_FORCEDBIND : ChunkId := ⟨0x46424E44, by decide⟩

structure CString where
  chars : List UInt8
  no_nul : 0 ∉ chars
  deriving DecidableEq

/-- The loop of `pMatchStringChunk` over the data of the chunk. -/
def matchString : List UInt8 → List UInt8 → Bool
  | [], str => str = []
  | c :: data, str =>
    if c = 0 then str = []
    else
      match str with
      | [] => false
      | d :: str => d = c && matchString data str

def pMatchStringChunk (pic : PsdIFFContext) (chunkid : ChunkId) (str : CString) : Bool :=
  match pic.pFindCfgChunk chunkid with
  | some chunk => matchString chunk.data str.chars
  | none => false

def stringChunk (chunkid : ChunkId) (str : CString) : CfgChunk :=
  ⟨chunkid, str.chars ++ [0], List.replicate ((str.chars.length + 1) % 2) 0, chunkid.2, by simp⟩

def pAddStringChunk (mem : List Bool) (pic : PsdIFFContext) (chunkid : ChunkId) (str : CString) :
    PsdIFFContext × Bool × List Bool :=
  let (ok, mem) := psdAllocVec mem
  if ok then putChunk mem pic (stringChunk chunkid str) else (pic, false, mem)

def psdFindCfgForm (pic : PsdIFFContext) (formid : UInt32) : Option PsdIFFContext :=
  pic.subForms.find? fun subpic => subpic.formId = formid

/-- `f` on the forms of the walk that `p` holds of, until it gives a result. -/
def walk {α : Type} (p : PsdIFFContext → Bool)
    (f : List Bool → PsdIFFContext → Option (PsdIFFContext × Option α × List Bool))
    (mem : List Bool) : List PsdIFFContext → Option (List PsdIFFContext × Option α × List Bool)
  | [] => some ([], none, mem)
  | pic :: pics =>
    if p pic then do
      let (pic, result, mem) ← f mem pic
      match result with
      | some result => return (pic :: pics, some result, mem)
      | none =>
        let (pics, result, mem) ← walk p f mem pics
        return (pic :: pics, result, mem)
    else do
      let (pics, result, mem) ← walk p f mem pics
      return (pic :: pics, result, mem)

/-- The form gets the data of `form`, or none. -/
def store (fuel : ℕ) (mem : List Bool) (pic : PsdIFFContext) (form : Option (List UInt8)) :
    Option (PsdIFFContext × Bool × List Bool) :=
  match form with
  | some form => psdReadCfg (fuel + 1) mem pic form
  -- `psdRemCfgChunk(pic, 0)`
  | none => some (alloc pic.formId, true, mem)

def setData (fuel : ℕ) (form : Option (List UInt8)) (mem : List Bool) (pic : PsdIFFContext) :
    Option (PsdIFFContext × Option Bool × List Bool) := do
  let (pic, ok, mem) ← store fuel mem pic form
  return (pic, some ok, mem)

def isClassCfg (owner : CString) (pic : PsdIFFContext) : Bool :=
  pic.formId = IFFFORM_CLASSCFG && pMatchStringChunk pic IFFCHNK_OWNER owner

def emptyClassData : List UInt8 := putLong ID_FORM ++ putLong 4 ++ putLong IFFFORM_CLASSDATA

def setClassData (fuel : ℕ) (form : Option (List UInt8)) (mem : List Bool) (pic : PsdIFFContext) :
    Option (PsdIFFContext × Option Bool × List Bool) := do
  let (pics, result, mem) ← walk (fun pic => pic.formId = IFFFORM_CLASSDATA) (setData fuel form)
    mem pic.subForms
  return ({ pic with subForms := pics }, some (result.getD false), mem)

def psdSetClsCfg (fuel : ℕ) (mem : List Bool) (root : PsdIFFContext) (owner : CString)
    (form : Option (List UInt8)) : Option (PsdIFFContext × Bool × List Bool) := do
  let (pics, result, mem) ← walk (isClassCfg owner) (setClassData fuel form) mem root.subForms
  let root := { root with subForms := pics }
  if result.getD false then
    return (root, true, mem)
  let (ok, mem) := psdAllocVec mem
  if !ok then
    return (root, false, mem)
  let (pic, ok, mem) := pAddStringChunk mem (alloc IFFFORM_CLASSCFG) IFFCHNK_OWNER owner
  if !ok then
    return (root.addSubForm pic, false, mem)
  let (pic, ok, mem) ← pAddCfgChunk (fuel + 2) mem pic (form.getD emptyClassData)
  return (root.addSubForm pic, ok, mem)

def psdGetClsCfg (root : PsdIFFContext) (owner : CString) : Option PsdIFFContext :=
  (root.subForms.find? (isClassCfg owner)).bind fun pic => psdFindCfgForm pic IFFFORM_CLASSDATA

def isDeviceCfg (devid : CString) (pic : PsdIFFContext) : Bool :=
  pic.formId = IFFFORM_DEVICECFG && pMatchStringChunk pic IFFCHNK_DEVID devid

def cfgDataId (ifid : Option CString) : UInt32 :=
  if ifid.isSome then IFFFORM_IFCFGDATA else IFFFORM_DEVCFGDATA

def clsDataId (ifid : Option CString) : UInt32 :=
  if ifid.isSome then IFFFORM_IFCLSDATA else IFFFORM_DEVCLSDATA

def isCfgData (owner : CString) (ifid : Option CString) (mpic : PsdIFFContext) : Bool :=
  mpic.formId = cfgDataId ifid && ifid.all (pMatchStringChunk mpic IFFCHNK_IFID) &&
    pMatchStringChunk mpic IFFCHNK_OWNER owner

/-- A new form for the owner in the one of the device. There is no result where `cpic` stays
`NULL`. -/
def newCfgData (fuel : ℕ) (mem : List Bool) (pic : PsdIFFContext) (owner : CString)
    (ifid : Option CString) (form : Option (List UInt8)) :
    Option (PsdIFFContext × Option Bool × List Bool) := do
  let (ok, mem) := psdAllocVec mem
  if !ok then
    return (pic, none, mem)
  let (mpic, ok, mem) := pAddStringChunk mem (alloc (cfgDataId ifid)) IFFCHNK_OWNER owner
  if !ok then
    return (pic.addSubForm mpic, none, mem)
  let (mpic, ok, mem) :=
    match ifid with
    | some ifid => pAddStringChunk mem mpic IFFCHNK_IFID ifid
    | none => (mpic, true, mem)
  if !ok then
    return (pic.addSubForm mpic, none, mem)
  let (ok, mem) := psdAllocVec mem
  if !ok then
    return (pic.addSubForm mpic, none, mem)
  let (cpic, ok, mem) ← store fuel mem (alloc (clsDataId ifid)) form
  return (pic.addSubForm (mpic.addSubForm cpic), some ok, mem)

def setClsData (fuel : ℕ) (mem : List Bool) (mpic : PsdIFFContext) (ifid : Option CString)
    (form : Option (List UInt8)) : Option (PsdIFFContext × Option (Option Bool) × List Bool) := do
  let (cpics, result, mem) ← walk (fun cpic => cpic.formId = clsDataId ifid) (setData fuel form)
    mem mpic.subForms
  let mpic := { mpic with subForms := cpics }
  if result.isSome then
    return (mpic, some result, mem)
  let (ok, mem) := psdAllocVec mem
  if !ok then
    return (mpic, some none, mem)
  let (cpic, ok, mem) ← store fuel mem (alloc (clsDataId ifid)) form
  return (mpic.addSubForm cpic, some (some ok), mem)

def setDevData (fuel : ℕ) (mem : List Bool) (pic : PsdIFFContext) (owner : CString)
    (ifid : Option CString) (form : Option (List UInt8)) :
    Option (PsdIFFContext × Option Bool × List Bool) := do
  let (mpics, result, mem) ← walk (isCfgData owner ifid)
    (fun mem mpic => setClsData fuel mem mpic ifid form) mem pic.subForms
  let pic := { pic with subForms := mpics }
  match result.join with
  | some ok => return (pic, some ok, mem)
  | none => newCfgData fuel mem pic owner ifid form

def psdSetUsbDevCfg (fuel : ℕ) (mem : List Bool) (root : PsdIFFContext) (owner devid : CString)
    (ifid : Option CString) (form : Option (List UInt8)) :
    Option (PsdIFFContext × Bool × List Bool) := do
  let (pics, result, mem) ← walk (isDeviceCfg devid)
    (fun mem pic => setDevData fuel mem pic owner ifid form) mem root.subForms
  let root := { root with subForms := pics }
  if result.getD false then
    return (root, true, mem)
  let (ok, mem) := psdAllocVec mem
  if !ok then
    return (root, false, mem)
  let (pic, ok, mem) := pAddStringChunk mem (alloc IFFFORM_DEVICECFG) IFFCHNK_DEVID devid
  if !ok then
    return (root.addSubForm pic, false, mem)
  let (pic, result, mem) ← newCfgData fuel mem pic owner ifid form
  return (root.addSubForm pic, result.getD false, mem)

def psdGetUsbDevCfg (root : PsdIFFContext) (owner devid : CString) (ifid : Option CString) :
    Option PsdIFFContext :=
  (root.subForms.find? (isDeviceCfg devid)).bind fun pic =>
    (pic.subForms.find? (isCfgData owner ifid)).bind fun mpic => psdFindCfgForm mpic (clsDataId ifid)

def isIfCfg (ifid : CString) (mpic : PsdIFFContext) : Bool :=
  mpic.formId = IFFFORM_IFCFGDATA && pMatchStringChunk mpic IFFCHNK_IFID ifid

/-- The binding is set in the form, or cleared where there is no owner. -/
def setBind (mem : List Bool) (pic : PsdIFFContext) (owner : Option CString) :
    PsdIFFContext × Bool × List Bool :=
  match owner with
  | some owner => pAddStringChunk mem pic IFFCHNK_FORCEDBIND owner
  | none => (pic.pRemCfgChunk IFFCHNK_FORCEDBIND, true, mem)

/-- The binding of the interface in all its forms, and whether it has been done in one. -/
def setIfBinds (mem : List Bool) (ifid : CString) (owner : Option CString) :
    List PsdIFFContext → List PsdIFFContext × Bool × List Bool
  | [] => ([], false, mem)
  | mpic :: mpics =>
    if isIfCfg ifid mpic then
      let (mpic, ok, mem) := setBind mem mpic owner
      let (mpics, result, mem) := setIfBinds mem ifid owner mpics
      (mpic :: mpics, ok || result, mem)
    else
      let (mpics, result, mem) := setIfBinds mem ifid owner mpics
      (mpic :: mpics, result, mem)

def newIfBind (mem : List Bool) (pic : PsdIFFContext) (owner ifid : CString) :
    PsdIFFContext × Bool × List Bool :=
  let (ok, mem) := psdAllocVec mem
  if !ok then (pic, false, mem)
  else
    let (mpic, ok, mem) := pAddStringChunk mem (alloc IFFFORM_IFCFGDATA) IFFCHNK_OWNER owner
    if !ok then (pic.addSubForm mpic, false, mem)
    else
      let (mpic, ok, mem) := pAddStringChunk mem mpic IFFCHNK_FORCEDBIND owner
      if !ok then (pic.addSubForm mpic, false, mem)
      else
        let (mpic, ok, mem) := pAddStringChunk mem mpic IFFCHNK_IFID ifid
        (pic.addSubForm mpic, ok, mem)

def setDevBind (mem : List Bool) (pic : PsdIFFContext) (owner ifid : Option CString) :
    PsdIFFContext × Bool × List Bool :=
  match ifid with
  | none => setBind mem pic owner
  | some ifid =>
    let (mpics, result, mem) := setIfBinds mem ifid owner pic.subForms
    let pic := { pic with subForms := mpics }
    match owner with
    | none => (pic, true, mem)
    | some owner => if result then (pic, true, mem) else newIfBind mem pic owner ifid

def ownerToBind (owner : Option CString) : Option CString :=
  owner.filter fun owner => owner.chars ≠ []

def psdSetForcedBinding (mem : List Bool) (root : PsdIFFContext) (owner : Option CString)
    (devid : CString) (ifid : Option CString) : Option (PsdIFFContext × Bool × List Bool) := do
  let (pics, result, mem) ← walk (isDeviceCfg devid) (fun mem pic =>
      let (pic, ok, mem) := setDevBind mem pic (ownerToBind owner) ifid
      some (pic, some ok, mem)) mem root.subForms
  let root := { root with subForms := pics }
  match ownerToBind owner with
  | none => return (root, true, mem)
  | some owner =>
    if result.getD false then
      return (root, true, mem)
    let (ok, mem) := psdAllocVec mem
    if !ok then
      return (root, false, mem)
    let (pic, ok, mem) := pAddStringChunk mem (alloc IFFFORM_DEVICECFG) IFFCHNK_DEVID devid
    if !ok then
      return (root.addSubForm pic, false, mem)
    let (pic, ok, mem) :=
      match ifid with
      | some ifid => newIfBind mem pic owner ifid
      | none => setBind mem pic (some owner)
    return (root.addSubForm pic, ok, mem)

def boundOwner (pic : PsdIFFContext) : Option (List UInt8) :=
  (pic.pFindCfgChunk IFFCHNK_FORCEDBIND).map fun chunk => chunk.data.takeWhile (· ≠ 0)

def psdGetForcedBinding (root : PsdIFFContext) (devid : CString) (ifid : Option CString) :
    Option (List UInt8) :=
  (root.subForms.find? (isDeviceCfg devid)).bind fun pic =>
    match ifid with
    | none => boundOwner pic
    | some ifid => pic.subForms.findSome? fun mpic =>
        if isIfCfg ifid mpic then boundOwner mpic else none

inductive CfgCall
  | cls (owner : CString) (form : Option (List UInt8))
  | dev (owner devid : CString) (ifid : Option CString) (form : Option (List UInt8))
  | forced (owner : Option CString) (devid : CString) (ifid : Option CString)

/-- With the root after the call, the result of the call and the outcomes that are left. -/
def CfgCall.run (fuel : ℕ) (mem : List Bool) (call : CfgCall) :
    Option PsdIFFContext → Option (Option PsdIFFContext × Bool × List Bool)
  | some root => do
    let (root, ok, mem) ←
      match call with
      | .cls owner form => psdSetClsCfg fuel mem root owner form
      | .dev owner devid ifid form => psdSetUsbDevCfg fuel mem root owner devid ifid form
      | .forced owner devid ifid => psdSetForcedBinding mem root owner devid ifid
    return (some root, ok, mem)
  | none =>
    match call with
    | .cls .. => some (none, false, mem)
    | .dev .. => some (none, false, mem)
    | .forced owner .. => some (none, (ownerToBind owner).isNone, mem)

end Neptune
