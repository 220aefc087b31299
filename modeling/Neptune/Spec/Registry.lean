import Neptune.Lib.Run

/-! `hwmatch.h`: when two names denote the same hardware entry. -/

namespace Neptune

/-- The trailing path component; `part` is where it starts as far as is known. -/
def filePart (part : List Char) : List Char → List Char
  | [] => part
  | c :: s => if c = '/' ∨ c = ':' then filePart s s else filePart part s

def psdHwFilePart (s : List Char) : List Char := filePart s s

def strieq (a b : List Char) : Bool := a.map Char.toLower = b.map Char.toLower

def psdHwNameMatch (a b : Option (List Char)) : Bool :=
  match a, b with
  | some a, some b => strieq (psdHwFilePart a) (psdHwFilePart b)
  | _, _ => false

def psdHwMatch (a : Option (List Char)) (unita : ℕ) (b : Option (List Char)) (unitb : ℕ) : Bool :=
  unita = unitb && psdHwNameMatch a b

def sep (c : Char) : Prop := c = '/' ∨ c = ':'

theorem filePart_of_clean {part s : List Char} (h : ∀ c ∈ s, ¬ sep c) : filePart part s = part := by
  induction s with
  | nil => rfl
  | cons c s ih =>
    have hc : ¬ (c = '/' ∨ c = ':') := h c (by simp)
    rw [filePart, if_neg hc]
    exact ih fun d hd => h d (by simp [hd])

theorem filePart_clean {pre s : List Char} (h : ∀ c ∈ pre, ¬ sep c) :
    ∀ c ∈ filePart (pre ++ s) s, ¬ sep c := by
  induction s generalizing pre with
  | nil => simpa [filePart] using h
  | cons c s ih =>
    rw [filePart]
    split
    · have hnil : ∀ d ∈ ([] : List Char), ¬ sep d := by simp
      exact ih hnil
    · rename_i hc
      rw [List.append_cons]
      apply ih
      intro d hd
      rcases List.mem_append.mp hd with hd | hd
      · exact h d hd
      · rwa [List.mem_singleton.mp hd]

theorem psdHwFilePart_clean (s : List Char) : ∀ c ∈ psdHwFilePart s, ¬ sep c := by
  have hnil : ∀ d ∈ ([] : List Char), ¬ sep d := by simp
  exact filePart_clean hnil

theorem psdHwFilePart_idem (s : List Char) :
    psdHwFilePart (psdHwFilePart s) = psdHwFilePart s :=
  filePart_of_clean (psdHwFilePart_clean s)

@[simp] theorem psdHwMatch_filePart (a : Option (List Char)) (n : ℕ) (b : List Char) (m : ℕ) :
    psdHwMatch a n (some (psdHwFilePart b)) m = psdHwMatch a n (some b) m := by
  cases a <;> simp [psdHwMatch, psdHwNameMatch, psdHwFilePart_idem]

theorem psdHwNameMatch_comm (a b : Option (List Char)) :
    psdHwNameMatch a b = psdHwNameMatch b a := by
  cases a <;> cases b <;> simp [psdHwNameMatch, strieq, eq_comm]

theorem psdHwMatch_comm (a : Option (List Char)) (n : ℕ) (b : Option (List Char)) (m : ℕ) :
    psdHwMatch a n b m = psdHwMatch b m a n := by
  simp [psdHwMatch, psdHwNameMatch_comm a b, eq_comm]

theorem psdHwMatch_trans {a b c : Option (List Char)} {n m k : ℕ}
    (h1 : psdHwMatch a n b m = true) (h2 : psdHwMatch b m c k = true) :
    psdHwMatch a n c k = true := by
  rcases a with - | a <;> rcases b with - | b <;> rcases c with - | c <;>
    simp_all [psdHwMatch, psdHwNameMatch, strieq]

structure PsdHardware where
  devName : List Char
  unit : ℕ
  deriving DecidableEq, Repr

def PsdHardware.same (a b : PsdHardware) : Bool :=
  psdHwMatch (some a.devName) a.unit (some b.devName) b.unit

structure PsdUsbClass where
  /-- `none` where `psdCopyStr` has found no memory. -/
  className : Option (List Char)
  pri : ℤ
  deriving DecidableEq, Repr

def PsdUsbClass.same (a b : PsdUsbClass) : Bool :=
  a.className.isSome && a.className = b.className

/-- The call is past its test. `opened` is a hardware whose driver the relay has opened. -/
inductive AddPc
  | out
  | hardware (phw : PsdHardware) (opened : Bool)
  | cls (name : List Char)
  deriving DecidableEq, Repr

structure Registry (τ : Type) where
  hardware : List PsdHardware
  classes : List PsdUsbClass
  pc : τ → AddPc

inductive AddEvent (τ : Type)
  /-- `psdAddHardware` up to its test. -/
  | addHardware (t : τ) (name : Option (List Char)) (unit : ℕ)
  | opened (t : τ)
  | linkHardware (t : τ)
  | addClass (t : τ) (name : List Char) (openLibrary : List Char → Option (List Char))
  | linkClass (t : τ) (copied : Bool) (pri : ℤ)
  | fail (t : τ)
  /-- The hardware, or class, at this place of the list is removed. -/
  | remHardware (i : ℕ)
  | remClass (i : ℕ)

namespace Registry

variable {τ : Type} [DecidableEq τ]

def pFindHardware (hardware : List PsdHardware) (name : List Char) (unit : ℕ) :
    Option PsdHardware :=
  hardware.find? fun phw => psdHwMatch (some phw.devName) phw.unit (some name) unit

def findName (classes : List PsdUsbClass) (name : List Char) : Option PsdUsbClass :=
  classes.find? fun puc => puc.className = some name

/-- The library that `psdAddClass` opens, by its `ln_Name`. It tries the name, and what follows each
`/` and `:` of it; `start` says that such a part starts here. -/
def openClass (openLibrary : List Char → Option (List Char)) (start : Bool) :
    List Char → Option (List Char)
  | [] => none
  | c :: name =>
    match if start then openLibrary (c :: name) else none with
    | some cls => some cls
    | none => openClass openLibrary (c = '/' || c = ':') name

/-- `Enqueue`: behind the nodes of the same priority. -/
def enqueue (classes : List PsdUsbClass) (puc : PsdUsbClass) : List PsdUsbClass :=
  classes.takeWhile (fun x => puc.pri ≤ x.pri) ++
    puc :: classes.dropWhile (fun x => puc.pri ≤ x.pri)

def goto (s : Registry τ) (t : τ) (pc : AddPc) : Registry τ :=
  { s with pc := Function.update s.pc t pc }

def step (s : Registry τ) : AddEvent τ → Option (Registry τ)
  | .addHardware t name unit =>
    match s.pc t, name with
    | .out, some name =>
      let name := psdHwFilePart name
      match pFindHardware s.hardware name unit with
      | some _ => some s
      | none => some (s.goto t (.hardware ⟨name, unit⟩ false))
    | .out, none => some s
    | _, _ => none
  | .opened t =>
    match s.pc t with
    | .hardware phw false => some (s.goto t (.hardware phw true))
    | _ => none
  | .linkHardware t =>
    match s.pc t with
    | .hardware phw true => some ({ s with hardware := s.hardware ++ [phw] }.goto t .out)
    | _ => none
  | .addClass t name openLibrary =>
    match s.pc t with
    | .out =>
      match openClass openLibrary true name with
      | none => some s
      | some cls =>
        match findName s.classes cls with
        | some _ => some s
        | none => some (s.goto t (.cls cls))
    | _ => none
  | .linkClass t copied pri =>
    match s.pc t with
    | .cls name =>
      let puc : PsdUsbClass := ⟨if copied then some name else none, pri⟩
      some ({ s with classes := enqueue s.classes puc }.goto t .out)
    | _ => none
  | .fail t =>
    match s.pc t with
    | .hardware _ false | .cls _ => some (s.goto t .out)
    | _ => none
  | .remHardware i => some { s with hardware := s.hardware.eraseIdx i }
  | .remClass i => some { s with classes := s.classes.eraseIdx i }

end Registry

end Neptune
