import Neptune.Lib.Run
import Neptune.Lib.Word

/-! The identity string of a device: what `psdEnumerateDevice` makes of the strings the device has
reported, and the live device lists. Texts are the characters before the terminating zero. -/

namespace Neptune

/-- `%lx` with a field width and leading zeros. -/
def hexText (width n : ℕ) : List Char :=
  let digits := (Nat.digits 16 n).reverse.map Nat.digitChar
  List.replicate (width - digits.length) '0' ++ digits

def decText (n : ℕ) : List Char := Nat.toDigits 10 n

/-- The loop of `pStripString`: the target so far and `lastgoodchar` in it. -/
def stripLoop : Bool → List Char → ℕ → List Char → List Char × ℕ
  | _, tar, good, [] => (tar, good)
  | leadingspaces, tar, good, ch :: src =>
    if ch = ' ' then
      if leadingspaces then stripLoop leadingspaces tar good src
      else stripLoop leadingspaces (tar ++ [ch]) good src
    else stripLoop false (tar ++ [ch]) (tar.length + 1) src

def pStripString (str : List Char) : List Char :=
  match stripLoop true [] 0 str with
  | (tar, good) => if good = 0 ∧ 6 < str.length then "<empty>".toList else tar.take good

/-- What a device reports. A string is `none` when it has no index, and where
`psdGetStringDescriptor` returns `NULL`. -/
structure Report where
  devClass : ℕ
  vendorID : ℕ
  productID : ℕ
  productStr : Option (List Char)
  serNumStr : Option (List Char)
  deriving DecidableEq, Repr

/-- `pd_SerNumStr` before it is stripped. -/
def Report.serial (r : Report) : List Char := r.serNumStr.getD "n/a".toList

/-- `pd_ProductStr` before it is stripped; `classname` is the table behind `psdNumToStr`. -/
def Report.product (classname : ℕ → Option (List Char)) (r : Report) : List Char :=
  match r.productStr with
  | some str => str
  | none =>
    let ids := "dr=".toList ++ hexText 4 r.vendorID ++ "/PID=".toList ++ hexText 4 r.productID
    match classname r.devClass with
    | some name => name ++ ": V".toList ++ ids
    | none => "Cls=".toList ++ decText r.devClass ++ "/V".toList ++ ids

def Report.idString (classname : ℕ → Option (List Char)) (r : Report) (cloneCount : ℕ) :
    List Char :=
  r.product classname ++ '-' :: hexText 4 r.vendorID ++ '-' :: hexText 4 r.productID ++
    '-' :: r.serial ++ '-' :: hexText 2 cloneCount

/-- A device in a live list. The last field is not stored in the code. -/
structure IdentDev where
  id : ℕ
  vendorID : ℕ
  productID : ℕ
  serNumStr : Option (List Char)
  cloneCount : ℕ
  idString : Option (List Char)
  reported : Option Report
  deriving DecidableEq, Repr

def IdentDev.blank (id : ℕ) : IdentDev := ⟨id, 0, 0, none, 0, none, none⟩

/-- The device lists of the controllers. -/
abbrev DeviceLists := List (List IdentDev)

def isClone (id : ℕ) (r : Report) (cloneCount : ℕ) (itpd : IdentDev) : Bool :=
  itpd.id ≠ id && itpd.productID = r.productID && itpd.vendorID = r.vendorID &&
    itpd.serNumStr = some r.serial && itpd.cloneCount = cloneCount

/-- The search, which starts over with the next number at each clone. Once it has found a clone for
every number of a `UWORD` it does not end. -/
def countClones (devices : List IdentDev) (id : ℕ) (r : Report) : ℕ → ℕ → Option ℕ
  | 0, _ => none
  | n + 1, cloneCount =>
    if devices.any (isClone id r cloneCount) then
      countClones devices id r n (uword (cloneCount + 1))
    else some cloneCount

inductive IdentEvent
  | add (phw id : ℕ)
  | enumerate (id : ℕ) (r : Report)
  | remove (id : ℕ)
  deriving DecidableEq, Repr

namespace DeviceLists

/-- In the order of `psdGetNextDevice`. -/
def devices (ls : DeviceLists) : List IdentDev := ls.flatten

def step (classname : ℕ → Option (List Char)) (ls : DeviceLists) :
    IdentEvent → Option DeviceLists
  | .add phw id =>
    if ls.devices.any fun pd => pd.id = id then none
    else some (ls.modify phw fun l => l ++ [.blank id])
  | .enumerate id r => do
    let pd ← ls.devices.find? fun pd => pd.id = id
    if pd.reported.isSome then none
    else
      let cloneCount ← countClones ls.devices id r (2 ^ 16) pd.cloneCount
      let pd' : IdentDev :=
        { id := id
          vendorID := r.vendorID
          productID := r.productID
          serNumStr := some (pStripString r.serial)
          cloneCount := cloneCount
          idString := some (r.idString classname cloneCount)
          reported := some r }
      some (ls.map fun l => l.map fun x => if x.id = id then pd' else x)
  | .remove id => some (ls.map fun l => l.filter fun x => x.id ≠ id)

end DeviceLists

end Neptune
