import Neptune.Spec.Identity
import Neptune.Spec.ParseCfg

/-! The actions of HID items in the settings: the ids that `nReadReports`, `nAddExtraReport` and
`nDetectWacom` hand out, `nSaveItem` and `nLoadItem`. -/

namespace Neptune.HidSave

open PsdIFFContext

/-! Actions. -/

/-- A `char` array of an action with that many characters before its last NUL. -/
structure CharArray (size : ℕ) extends CString where
  length_le : chars.length ≤ size
  deriving DecidableEq

/-- `sizeof(struct NepHidActionChunk)-8`. -/
def actionSize : ℕ := 58

structure NepHidAction where
  constants : List UInt8
  soundFile : CharArray 255
  vanillaString : CharArray 79
  keyString : CharArray 79
  exeString : CharArray 79
  outArray : CharArray 255
  isDefault : Bool
  constants_length : constants.length = actionSize

/-- What `nAllocAction` sets up for the type 0: `nha_ButtonNo`, `nha_SoundVolume`, `nha_ClipMax`,
`nha_CCVar1` and `nha_CCVar2`. -/
def initialConstants : List UInt8 :=
  ((((List.replicate actionSize 0).set 8 1).set 11 64).set 19 100).set 21 0xc0 |>.set 23 0xc2

def ID_ACTN : UInt32 := 0x4143544E
def ID_ACDF : ChunkId := ⟨0x41434446, by decide⟩
def ID_SNDF : ChunkId := ⟨0x534E4446, by decide⟩
def ID_VANS : ChunkId := ⟨0x56414E53, by decide⟩
def ID_KEYS : ChunkId := ⟨0x4B455953, by decide⟩
def ID_EXES : ChunkId := ⟨0x45584553, by decide⟩
def ID_OARR : ChunkId := ⟨0x4F415252, by decide⟩

/-- `struct List` of actions, with its type. -/
structure ActionList where
  wtype : ℕ
  actions : List NepHidAction

def itemNumber (wtype idbase : ℕ) : ℕ := ulong (ulongSub wtype idbase + 1)

def itemText (wtype idbase : ℕ) : List Char := 'I' :: hexText 3 (itemNumber wtype idbase)

def itemFormId (wtype idbase : ℕ) : UInt32 :=
  (getLong ((itemText wtype idbase).map fun ch => .ofNat ch.toNat)).getD 0

def actionChunk (nha : NepHidAction) : CfgChunk :=
  ⟨ID_ACDF, nha.constants, [], ID_ACDF.2, by rw [nha.constants_length]; rfl⟩

def actionStrings (nha : NepHidAction) : List (ChunkId × CString) :=
  [(ID_SNDF, nha.soundFile.toCString), (ID_VANS, nha.vanillaString.toCString),
    (ID_KEYS, nha.keyString.toCString), (ID_EXES, nha.exeString.toCString),
    (ID_OARR, nha.outArray.toCString)]

def saveStrings : List Bool → PsdIFFContext → List (ChunkId × CString) → PsdIFFContext × List Bool
  | mem, actpic, [] => (actpic, mem)
  | mem, actpic, (chunkid, str) :: strs =>
    if str.chars = [] then saveStrings mem actpic strs
    else
      let (actpic, _, mem) := pAddStringChunk mem actpic chunkid str
      saveStrings mem actpic strs

/-- The loop over the actions, which ends where there is no memory for a form. -/
def saveActions : List Bool → PsdIFFContext → List NepHidAction → PsdIFFContext × List Bool
  | mem, itpic, [] => (itpic, mem)
  | mem, itpic, nha :: nhas =>
    let (ok, mem) := psdAllocVec mem
    if ok then
      let (actpic, _, mem) := putChunk mem (alloc ID_ACTN) (actionChunk nha)
      let (actpic, mem) := saveStrings mem actpic (actionStrings nha)
      saveActions mem (itpic.addSubForm actpic) nhas
    else (itpic, mem)

def saveInForm (mem : List Bool) (formId : UInt32) (nhas : List NepHidAction) :
    List PsdIFFContext → Option (List PsdIFFContext × List Bool)
  | [] => none
  | pic :: pics =>
    if pic.formId = formId then
      let (pic, mem) := saveActions mem pic nhas
      some (pic :: pics, mem)
    else (saveInForm mem formId nhas pics).map fun (pics, mem) => (pic :: pics, mem)

def nSaveItem (mem : List Bool) (rppic : PsdIFFContext) (lst : ActionList) (idbase : ℕ) :
    PsdIFFContext × List Bool :=
  if lst.actions.all (·.isDefault) then (rppic, mem)
  else
    let formId := itemFormId lst.wtype idbase
    match saveInForm mem formId lst.actions rppic.subForms with
    | some (pics, mem) => ({ rppic with subForms := pics }, mem)
    | none =>
      let (ok, mem) := psdAllocVec mem
      if ok then
        let (itpic, mem) := saveActions mem (alloc formId) lst.actions
        (rppic.addSubForm itpic, mem)
      else (rppic, mem)

def copied {α : Type} (mem : List Bool) : Option α → Option α × List Bool
  | some a =>
    let (ok, mem) := psdAllocVec mem
    (if ok then some a else none, mem)
  | none => (none, mem)

theorem no_nul_takeWhile (data : List UInt8) (size : ℕ) :
    0 ∉ (data.takeWhile (· ≠ 0)).take size := fun h => by
  have := List.all_eq_true.mp (List.all_takeWhile (l := data)) 0 (List.mem_of_mem_take h)
  simp at this

/-- `strncpy` of a string chunk into a cleared array. -/
def loadString (size : ℕ) (mem : List Bool) (actpic : PsdIFFContext) (chunkid : ChunkId) :
    CharArray size × List Bool :=
  match copied mem (actpic.pFindCfgChunk chunkid) with
  | (some chunk, mem) =>
    (⟨⟨(chunk.data.takeWhile (· ≠ 0)).take size, no_nul_takeWhile _ _⟩,
      List.length_take_le _ _⟩, mem)
  | (none, mem) => (⟨⟨[], List.not_mem_nil⟩, Nat.zero_le _⟩, mem)

def loadAction (mem : List Bool) (actpic : PsdIFFContext) : Option NepHidAction × List Bool :=
  match copied mem (actpic.pFindCfgChunk ID_ACDF) with
  | (none, mem) => (none, mem)
  | (some nhac, mem) =>
    let (ok, mem) := psdAllocVec mem
    if ok then
      let (soundFile, mem) := loadString 255 mem actpic ID_SNDF
      let (vanillaString, mem) := loadString 79 mem actpic ID_VANS
      let (keyString, mem) := loadString 79 mem actpic ID_KEYS
      let (exeString, mem) := loadString 79 mem actpic ID_EXES
      let (outArray, mem) := loadString 255 mem actpic ID_OARR
      (some {
        constants := nhac.data.take actionSize ++ initialConstants.drop nhac.data.length
        soundFile, vanillaString, keyString, exeString, outArray
        isDefault := false
        constants_length := by
          have : initialConstants.length = actionSize := rfl
          simp only [List.length_append, List.length_take, List.length_drop, this]
          omega }, mem)
    else (none, mem)

def loadActions : List Bool → List PsdIFFContext → List NepHidAction × List Bool
  | mem, [] => ([], mem)
  | mem, actpic :: actpics =>
    let (nha, mem) := loadAction mem actpic
    let (nhas, mem) := loadActions mem actpics
    (nha.toList ++ nhas, mem)

def nLoadItem (mem : List Bool) (rppic : PsdIFFContext) (lst : ActionList) (idbase : ℕ) :
    ActionList × Bool × List Bool :=
  match psdFindCfgForm rppic (itemFormId lst.wtype idbase) with
  | none => (lst, false, mem)
  | some itpic =>
    let (nhas, mem) := loadActions mem (cfgForms itpic ID_ACTN)
    ({ lst with actions := lst.actions ++ nhas }, true, mem)

/-- `nhi_ActionList` and, in an array, `nhi_ActionMap`, which has an entry at least. -/
inductive NepHidItem
  | variable (nhas : List NepHidAction)
  | array (nhas first : List NepHidAction) (entries : List (List NepHidAction))

def NepHidItem.lists : NepHidItem → List (List NepHidAction)
  | .variable nhas => [nhas]
  | .array nhas first entries => nhas :: first :: entries

structure NepHidReport where
  reportID : ℕ
  collections : List (List NepHidItem)

def NepHidReport.lists (nhr : NepHidReport) : List (List NepHidAction) :=
  nhr.collections.flatMap fun items => items.flatMap NepHidItem.lists

structure NumberedReport where
  reportID : ℕ
  itemIDBase : ℕ
  lists : List ActionList

def numberLists : ℕ → List (List NepHidAction) → List ActionList × ℕ
  | idnum, [] => ([], idnum)
  | idnum, nhas :: lists =>
    let (numbered, next) := numberLists (uword (idnum + 1)) lists
    (⟨idnum, nhas⟩ :: numbered, next)

def numberReports : ℕ → List NepHidReport → List NumberedReport
  | _, [] => []
  | idnum, nhr :: nhrs =>
    let (lists, next) := numberLists idnum nhr.lists
    ⟨nhr.reportID, idnum, lists⟩ :: numberReports next nhrs

def nReadReports (nhrs : List NepHidReport) : List NumberedReport := numberReports 1 nhrs

def nAddItemAction (id : ℕ) (nhas : List NepHidAction) : ActionList := ⟨uword (id + 0xf001), nhas⟩

def nAddExtraReport (initial quit : List NepHidAction) : NumberedReport :=
  ⟨0xffff, 0xf001, [nAddItemAction 0xff0 initial, nAddItemAction 0xff1 quit]⟩

inductive WacomType
  | penPartner | graphire | graphire4 | cintiq | intuos | intuos3 | pl | pl2 | plx
  deriving DecidableEq

namespace WacomType

def numbuts : WacomType → ℕ
  | penPartner | plx => 2
  | _ => 3

def hasTilt (type : WacomType) : Bool := type = intuos || type = intuos3 || type = cintiq

def hasButtons (type : WacomType) : Bool :=
  type = intuos3 || type = cintiq || type = graphire4

def hasWheel (type : WacomType) : Bool := type.hasTilt || type = graphire4 || type = graphire

/-- In the order of the calls of `nAddItemAction`. -/
def ids (type : WacomType) : List ℕ :=
  (List.range type.numbuts).map (0xfd0 + ·) ++ [0xfe1, 0xfe2] ++
    (if type.hasWheel then [0xfe0] else []) ++ [0xfe4, 0xfe5] ++
    (if type.hasTilt then [0xfe6, 0xfe7] else []) ++
    if type.hasButtons then (List.range 8).map (0xfd8 + ·) else []

end WacomType

def nDetectWacom (type : WacomType) (nhas : ℕ → List NepHidAction) : NumberedReport :=
  ⟨0xfffe, 0xf001, type.ids.map fun id => nAddItemAction id (nhas id)⟩

structure Device where
  declared : List NepHidReport
  wacom : Option (WacomType × (ℕ → List NepHidAction))
  initial : List NepHidAction
  quit : List NepHidAction

def Device.reports (dev : Device) : List NumberedReport :=
  nReadReports dev.declared ++ (dev.wacom.map fun (type, nhas) => nDetectWacom type nhas).toList ++
    [nAddExtraReport dev.initial dev.quit]

/-- What the window does with the form of a report, which is empty: it saves each list. -/
def saveReport (mem : List Bool) (rppic : PsdIFFContext) (nhr : NumberedReport) :
    PsdIFFContext × List Bool :=
  nhr.lists.foldl (fun saved lst => nSaveItem saved.2 saved.1 lst nhr.itemIDBase) (rppic, mem)

end Neptune.HidSave
