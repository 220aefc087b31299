import Neptune.Spec.CfgStore
import Neptune.Spec.Registry

/-! `psdParseCfg`: the settings are applied to the controllers and classes that are running. What it
finds outside the lists is given: residents, libraries, what memory holds behind the data of a
chunk, and whether the steps of adding a class or a controller go well. -/

namespace Neptune

open PsdIFFContext

def IFFFORM_UHWDEVICE : UInt32 := 0x55485744
def IFFFORM_USBCLASS : UInt32 := 0x55434C53

def IFFCHNK_NAME : ChunkId := ⟨0x4E414D45, by decide⟩
def IFFCHNK_UNIT : ChunkId := ⟨0x554E4954, by decide⟩
def IFFCHNK_OFFLINE : ChunkId := ⟨0x4F46464C, by decide⟩

structure RunningHardware extends PsdHardware where
  removeMe : Bool
  deriving DecidableEq

structure RunningClass extends PsdUsbClass where
  useCnt : ℕ
  removeMe : Bool
  deriving DecidableEq

structure ParseWorld where
  behind : PsdIFFContext → CfgChunk → List UInt8
  findResident : List Char → Bool
  openLibrary : List Char → Option (List Char)
  priority : List Char → ℤ

/-- How the next step outside goes; well where the outcomes have run out. -/
def outcome : List Bool → Bool × List Bool
  | [] => (true, [])
  | ok :: out => (ok, out)

def chunkString (w : ParseWorld) (pic : PsdIFFContext) (chnk : CfgChunk) : List Char :=
  ((chnk.data ++ w.behind pic chnk).takeWhile (· ≠ 0)).map fun c => Char.ofNat c.toNat

def chunkULong (w : ParseWorld) (pic : PsdIFFContext) (chnk : CfgChunk) : ℕ :=
  ((getLong (chnk.data ++ w.behind pic chnk)).getD 0).toNat

def cfgName (w : ParseWorld) (pic : PsdIFFContext) : Option (List Char) :=
  (pic.pFindCfgChunk IFFCHNK_NAME).map (chunkString w pic)

def cfgUnit (w : ParseWorld) (pic : PsdIFFContext) : ℕ :=
  match pic.pFindCfgChunk IFFCHNK_UNIT with
  | some chnk => chunkULong w pic chnk
  | none => 0

def onlineEntry (w : ParseWorld) (pic : PsdIFFContext) : Option (List Char × ℕ) :=
  match cfgName w pic with
  | some name =>
    if (pic.pFindCfgChunk IFFCHNK_OFFLINE).isNone then some (name, cfgUnit w pic) else none
  | none => none

/-- The walk from `psdFindCfgForm` on with `psdNextCfgForm`. -/
def cfgForms (pic : PsdIFFContext) (formid : UInt32) : List PsdIFFContext :=
  pic.subForms.filter fun subpic => subpic.formId = formid

/-- `f` on the name and on what follows each `/` and `:` of it, until it gives a result; `start` says
that such a part starts here. -/
def tryParts {α : Type} (f : List Char → Option α) (start : Bool) : List Char → Option α
  | [] => none
  | c :: name =>
    match if start then f (c :: name) else none with
    | some a => some a
    | none => tryParts f (c = '/' || c = ':') name

def findClass (classes : List RunningClass) (name : List Char) : Option RunningClass :=
  classes.find? fun puc => puc.className = some name

def pFindName (classes : List RunningClass) (name : List Char) : Option RunningClass :=
  tryParts (findClass classes) true name

def matchesHw (name : List Char) (unit : ℕ) (phw : RunningHardware) : Bool :=
  psdHwMatch (some phw.devName) phw.unit (some name) unit

/-- `f` on the first node that `p` holds of. -/
def onFirst {α : Type} (p : α → Bool) (f : α → α) : List α → List α
  | [] => []
  | x :: l => if p x then f x :: l else x :: onFirst p f l

def selectHardware (removeall : Bool) (hardware : List RunningHardware) : List RunningHardware :=
  hardware.map fun phw => { phw with removeMe := removeall }

def selectClasses (w : ParseWorld) (removeclasses : Bool) (classes : List RunningClass) :
    List RunningClass :=
  classes.map fun puc =>
    { puc with removeMe :=
        if !removeclasses then false
        else if puc.className.any w.findResident then puc.useCnt = 0
        else true }

def keepHardware (w : ParseWorld) (hardware : List RunningHardware) (subpic : PsdIFFContext) :
    List RunningHardware :=
  match onlineEntry w subpic with
  | some (name, unit) => onFirst (matchesHw name unit) (fun phw => { phw with removeMe := false })
      hardware
  | none => hardware

def keepClass (w : ParseWorld) (classes : List RunningClass) (subpic : PsdIFFContext) :
    List RunningClass :=
  match (cfgName w subpic).bind (pFindName classes) with
  | some puc => onFirst (fun x => x.className = puc.className)
      (fun puc => { puc with removeMe := false }) classes
  | none => classes

/-- The lists as additions leave them; `ok` says that each has gone well. -/
structure Adding (α : Type) where
  nodes : List α
  ok : Bool
  out : List Bool

def enqueueClass (classes : List RunningClass) (puc : RunningClass) : List RunningClass :=
  classes.takeWhile (fun x => puc.pri ≤ x.pri) ++
    puc :: classes.dropWhile (fun x => puc.pri ≤ x.pri)

/-- `psdAddClass`, which goes well where the class gets its name. -/
def addClass (w : ParseWorld) (a : Adding RunningClass) (name : List Char) : Adding RunningClass :=
  match Registry.openClass w.openLibrary true name with
  | none => { a with ok := false }
  | some cls =>
    if (findClass a.nodes cls).isSome then { a with ok := false }
    else
      let (found, out) := outcome a.out
      if !found then { a with ok := false, out := out }
      else
        let (copied, out) := outcome out
        let puc : RunningClass := ⟨⟨if copied then some cls else none, w.priority cls⟩, 0, false⟩
        ⟨enqueueClass a.nodes puc, a.ok && copied, out⟩

def addMissingClass (w : ParseWorld) (a : Adding RunningClass) (subpic : PsdIFFContext) :
    Adding RunningClass :=
  match cfgName w subpic with
  | some name => if (pFindName a.nodes name).isSome then a else addClass w a name
  | none => a

/-- `psdAddHardware` and `psdEnumerateHardware`, with the removal where that fails. -/
def mountHardware (a : Adding RunningHardware) (name : List Char) (unit : ℕ) :
    Adding RunningHardware :=
  let name := psdHwFilePart name
  if (a.nodes.find? (matchesHw name unit)).isSome then { a with ok := false }
  else
    let (added, out) := outcome a.out
    if !added then { a with ok := false, out := out }
    else
      let hardware := a.nodes ++ [⟨⟨name, unit⟩, false⟩]
      let (enumerated, out) := outcome out
      if enumerated then ⟨hardware, a.ok, out⟩ else ⟨hardware.dropLast, false, out⟩

def mountMissingHardware (w : ParseWorld) (a : Adding RunningHardware) (subpic : PsdIFFContext) :
    Adding RunningHardware :=
  match onlineEntry w subpic with
  | some (name, unit) =>
    if (a.nodes.find? (matchesHw name unit)).isSome then a else mountHardware a name unit
  | none => a

/-- After the call. The removed nodes are the ones for which it has called `psdRemClass` and
`psdRemHardware` because of their marks. -/
structure Parsed where
  hardware : List RunningHardware
  classes : List RunningClass
  remHardware : List RunningHardware
  remClasses : List RunningClass
  ok : Bool

def psdParseCfg (w : ParseWorld) (out : List Bool) (root : Option PsdIFFContext)
    (hardware : List RunningHardware) (classes : List RunningClass) : Parsed :=
  match root.bind fun root => psdFindCfgForm root IFFFORM_STACKCFG with
  | none => ⟨hardware, classes, [], [], true⟩
  | some pic =>
    let removeall := (psdFindCfgForm pic IFFFORM_UHWDEVICE).isSome
    let removeclasses := (psdFindCfgForm pic IFFFORM_USBCLASS).isSome
    let hardware := selectHardware removeall hardware
    let classes := selectClasses w removeclasses classes
    let hardware := (cfgForms pic IFFFORM_UHWDEVICE).foldl (keepHardware w) hardware
    let classes := (cfgForms pic IFFFORM_USBCLASS).foldl (keepClass w) classes
    let remClasses := classes.filter RunningClass.removeMe
    let classes := classes.filter fun puc => !puc.removeMe
    let remHardware := hardware.filter RunningHardware.removeMe
    let hardware := hardware.filter fun phw => !phw.removeMe
    let addedClasses := (cfgForms pic IFFFORM_USBCLASS).foldl (addMissingClass w) ⟨classes, true, out⟩
    let mounted := (cfgForms pic IFFFORM_UHWDEVICE).foldl (mountMissingHardware w)
      ⟨hardware, true, addedClasses.out⟩
    ⟨mounted.nodes, addedClasses.nodes, remHardware, remClasses, addedClasses.ok && mounted.ok⟩

end Neptune
