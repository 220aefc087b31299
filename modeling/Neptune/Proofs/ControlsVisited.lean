import Neptune.Spec.UvcDesc

/-! Stepping through the controls of a camera: the place in the list is a name that is looked up again. -/

namespace Neptune.Uvc

open List

namespace Controls

structure UvcControlInfo where
  id : ℕ
  unitType : ℕ
  bit : ℕ
  deriving DecidableEq, Repr

def UCI_CT : ℕ := 0x02
def UCI_PU : ℕ := 0x05

def UvcControls : List UvcControlInfo :=
  [⟨0x0101, UCI_PU, 0⟩, ⟨0x0102, UCI_PU, 18⟩, ⟨0x0103, UCI_PU, 1⟩, ⟨0x0104, UCI_PU, 3⟩, ⟨0x0105, UCI_PU, 11⟩,
    ⟨0x0106, UCI_PU, 2⟩, ⟨0x0107, UCI_PU, 4⟩, ⟨0x0108, UCI_PU, 5⟩, ⟨0x0109, UCI_PU, 9⟩, ⟨0x010a, UCI_PU, 8⟩,
    ⟨0x010b, UCI_PU, 12⟩, ⟨0x010c, UCI_PU, 6⟩, ⟨0x010d, UCI_PU, 13⟩, ⟨0x010e, UCI_PU, 7⟩, ⟨0x010f, UCI_PU, 7⟩,
    ⟨0x0110, UCI_PU, 10⟩, ⟨0x0111, UCI_PU, 14⟩, ⟨0x0112, UCI_PU, 15⟩, ⟨0x0201, UCI_CT, 1⟩, ⟨0x0202, UCI_CT, 2⟩,
    ⟨0x0203, UCI_CT, 3⟩, ⟨0x0204, UCI_CT, 7⟩, ⟨0x0205, UCI_CT, 17⟩, ⟨0x0206, UCI_CT, 5⟩, ⟨0x0207, UCI_CT, 19⟩,
    ⟨0x0208, UCI_CT, 9⟩, ⟨0x0209, UCI_CT, 11⟩, ⟨0x020a, UCI_CT, 11⟩, ⟨0x020b, UCI_CT, 13⟩, ⟨0x020c, UCI_CT, 18⟩,
    ⟨0x020d, UCI_CT, 0⟩]

def uvcControlPresent (uci : UvcControlInfo) (ue : UvcEntity) : Bool :=
  ue.type = uci.unitType && uci.bit / 8 < ue.controlSize &&
    (ue.controls.bind fun p => p.desc.byte (p.off + uci.bit / 8)).any (·.testBit (uci.bit % 8))

/-- An entity with its place in the array. -/
abbrev Entity := UvcEntity × ℕ

def entities (uf : UvcFunction) : List Entity := (uf.entities.take uf.numEntities).zipIdx

structure UsbVideoControl where
  id : ℕ
  entity : ℕ
  deriving DecidableEq, Repr

def named (uvc : UsbVideoControl) (uci : UvcControlInfo) (ue : Entity) : Bool :=
  uci.id = uvc.id && (uvc.entity = 0 || ue.1.id = uvc.entity)

def locateEntity (uvc : UsbVideoControl) (next : Bool) (uci : UvcControlInfo) (passed : Bool) :
    List Entity → Entity ⊕ Bool
  | [] => .inr passed
  | ue :: ues =>
    if !uvcControlPresent uci ue.1 then locateEntity uvc next uci passed ues
    else if passed || (named uvc uci ue && !next) then .inl ue
    else locateEntity uvc next uci (named uvc uci ue) ues

def locateRow (uvc : UsbVideoControl) (next : Bool) (ues : List Entity) (passed : Bool) :
    List UvcControlInfo → Option (UvcControlInfo × Entity)
  | [] => none
  | uci :: rows =>
    match locateEntity uvc next uci passed ues with
    | .inl ue => some (uci, ue)
    | .inr passed => locateRow uvc next ues passed rows

def uvcControlLocate (uf : UvcFunction) (uvc : UsbVideoControl) (next : Bool) : Option (UvcControlInfo × Entity) :=
  locateRow uvc next (entities uf) (next && uvc.id = 0) UvcControls

def answer (p : UvcControlInfo × Entity) : UsbVideoControl := ⟨p.1.id, p.2.1.id⟩

/-- Asked for the next control again and again. -/
inductive Walk (uf : UvcFunction) : UsbVideoControl → List (UvcControlInfo × Entity) → Prop
  | last {uvc : UsbVideoControl} : uvcControlLocate uf uvc true = none → Walk uf uvc []
  | more {uvc : UsbVideoControl} {p : UvcControlInfo × Entity} {ps : List (UvcControlInfo × Entity)} :
    uvcControlLocate uf uvc true = some p → Walk uf (answer p) ps → Walk uf uvc (p :: ps)

def present (ues : List Entity) (rows : List UvcControlInfo) : List (UvcControlInfo × Entity) :=
  rows.flatMap fun uci => (ues.filter fun ue => uvcControlPresent uci ue.1).map (uci, ·)

def controls (uf : UvcFunction) : List (UvcControlInfo × Entity) := present (entities uf) UvcControls

/-- Of two entities with one control the later one has an id of its own, which is not 0. -/
def Told (uf : UvcFunction) : Prop :=
  ∀ uci ∈ UvcControls, ((uf.entities.take uf.numEntities).filter (uvcControlPresent uci)).Pairwise
    fun ue ue' => ue'.id ≠ 0 ∧ ue.id ≠ ue'.id

variable {uvc : UsbVideoControl} {next passed : Bool} {uf : UvcFunction} {p : UvcControlInfo × Entity}
  {before behind ps : List (UvcControlInfo × Entity)} {ues : List Entity} {uci : UvcControlInfo}

def scan (uvc : UsbVideoControl) (next passed : Bool) :
    List (UvcControlInfo × Entity) → Option (UvcControlInfo × Entity)
  | [] => none
  | p :: ps => if passed || (named uvc p.1 p.2 && !next) then some p else scan uvc next (named uvc p.1 p.2) ps

theorem locateEntity_scan (uci : UvcControlInfo) (passed : Bool) (ues : List Entity)
    (ps : List (UvcControlInfo × Entity)) :
    scan uvc next passed ((ues.filter fun ue => uvcControlPresent uci ue.1).map (uci, ·) ++ ps) =
      match locateEntity uvc next uci passed ues with
      | .inl ue => some (uci, ue)
      | .inr passed => scan uvc next passed ps := by
  induction ues generalizing passed with
  | nil => rfl
  | cons ue ues ih =>
    rw [locateEntity]
    by_cases hpresent : uvcControlPresent uci ue.1 = true
    · rw [filter_cons, if_pos hpresent, map_cons, cons_append, scan, hpresent]
      split
      · rfl
      · exact ih _
    · rw [filter_cons, if_neg hpresent, ih, Bool.eq_false_iff.2 hpresent]
      rfl

theorem locateRow_scan (ues : List Entity) (passed : Bool) (rows : List UvcControlInfo) :
    locateRow uvc next ues passed rows = scan uvc next passed (present ues rows) := by
  induction rows generalizing passed with
  | nil => rfl
  | cons uci rows ih =>
    rw [locateRow, present, flatMap_cons, locateEntity_scan]
    split
    · rfl
    · exact ih _

theorem uvcControlLocate_scan (uf : UvcFunction) (uvc : UsbVideoControl) (next : Bool) :
    uvcControlLocate uf uvc next = scan uvc next (next && uvc.id = 0) (controls uf) := locateRow_scan ..

theorem scan_this (uvc : UsbVideoControl) (ps : List (UvcControlInfo × Entity)) :
    scan uvc false false ps = ps.find? fun p => named uvc p.1 p.2 := by
  induction ps with
  | nil => rfl
  | cons p ps ih =>
    rw [scan, find?_cons]
    cases hnamed : named uvc p.1 p.2
    · exact ih
    · rfl

theorem scan_first (uvc : UsbVideoControl) (next : Bool) (ps : List (UvcControlInfo × Entity)) :
    scan uvc next true ps = ps.head? := by
  cases ps <;> rfl

theorem scan_next (hbefore : ∀ q ∈ before, named uvc q.1 q.2 = false) (hp : named uvc p.1 p.2 = true) :
    scan uvc true false (before ++ p :: behind) = behind.head? := by
  induction before with
  | nil =>
    rw [nil_append, scan, hp]
    exact scan_first ..
  | cons q before ih =>
    rw [cons_append, scan, hbefore q mem_cons_self]
    exact ih fun q' hq' => hbefore q' (mem_cons_of_mem _ hq')

theorem named_answer (p : UvcControlInfo × Entity) : named (answer p) p.1 p.2 = true := by
  unfold named answer
  rw [Bool.and_eq_true, Bool.or_eq_true, decide_eq_true_iff, decide_eq_true_iff]
  exact ⟨rfl, .inr (decide_eq_true rfl)⟩

theorem id_ne_zero (hp : p ∈ controls uf) : p.1.id ≠ 0 := by
  have hrows : ∀ uci ∈ UvcControls, uci.id ≠ 0 := by decide
  obtain ⟨uci, huci, hp⟩ := mem_flatMap.1 hp
  obtain ⟨ue, -, rfl⟩ := mem_map.1 hp
  exact hrows uci huci

theorem controls_nodup (uf : UvcFunction) : (controls uf).Nodup := by
  have hplaces : (entities uf).Nodup := by
    refine Nodup.of_map Prod.snd ?_
    rw [entities, zipIdx_map_snd]
    exact nodup_range' ..
  refine nodup_flatMap.2 ⟨fun uci _ => ?_, ?_⟩
  · exact (hplaces.filter _).map fun ue ue' heq => (Prod.mk.inj heq).2
  · have hrows : UvcControls.Nodup := by decide
    refine hrows.imp fun {uci uci'} hne p hp hp' => ?_
    obtain ⟨ue, -, rfl⟩ := mem_map.1 hp
    obtain ⟨ue', -, heq⟩ := mem_map.1 hp'
    exact hne (Prod.mk.inj heq).1.symm

def Apart (ps : List (UvcControlInfo × Entity)) : Prop :=
  ps.Pairwise fun p q => named (answer q) p.1 p.2 = false

theorem told_iff (uf : UvcFunction) : Apart (controls uf) ↔ Told uf := by
  have hrows : UvcControls.Pairwise fun uci uci' => uci.id ≠ uci'.id := by decide
  have hothers : UvcControls.Pairwise fun uci uci' =>
      ∀ p ∈ ((entities uf).filter fun ue => uvcControlPresent uci ue.1).map (uci, ·),
        ∀ q ∈ ((entities uf).filter fun ue => uvcControlPresent uci' ue.1).map (uci', ·),
          named (answer q) p.1 p.2 = false := by
    refine hrows.imp fun {uci uci'} hne p hp q hq => ?_
    obtain ⟨ue, -, rfl⟩ := mem_map.1 hp
    obtain ⟨ue', -, rfl⟩ := mem_map.1 hq
    unfold named answer
    rw [decide_eq_false hne, Bool.false_and]
  unfold Apart controls present
  rw [pairwise_flatMap, and_iff_left hothers]
  refine forall₂_congr fun uci _ => ?_
  have hplaces : (uf.entities.take uf.numEntities).filter (uvcControlPresent uci) =
      ((entities uf).filter fun ue => uvcControlPresent uci ue.1).map Prod.fst := by
    have hall : uf.entities.take uf.numEntities = (entities uf).map Prod.fst := (zipIdx_map_fst ..).symm
    rw [hall, filter_map]
    rfl
  rw [hplaces, pairwise_map, pairwise_map]
  refine Pairwise.iff fun ue ue' => ?_
  unfold named answer
  rw [Bool.and_eq_false_iff, or_iff_right (by simp), Bool.or_eq_false_iff, decide_eq_false_iff_not,
    decide_eq_false_iff_not]

theorem next_of_apart (h : Apart (controls uf)) (hat : controls uf = before ++ p :: behind) :
    uvcControlLocate uf (answer p) true = behind.head? := by
  have hmem : p ∈ controls uf := hat ▸ mem_append_right _ mem_cons_self
  rw [uvcControlLocate_scan, Bool.true_and, decide_eq_false (show (answer p).id ≠ 0 from id_ne_zero hmem), hat]
  refine scan_next (fun q hq => ?_) (named_answer p)
  rw [Apart, hat, pairwise_append] at h
  exact h.2.2 q hq p mem_cons_self

theorem walk_of_apart (h : Apart (controls uf)) (hat : controls uf = before ++ p :: behind) :
    Walk uf (answer p) behind := by
  have hnext := next_of_apart h hat
  induction behind generalizing before p with
  | nil => exact .last hnext
  | cons q behind ih =>
    have hq : controls uf = (before ++ [p]) ++ q :: behind := by rw [hat, append_assoc, singleton_append]
    exact .more hnext (ih hq (next_of_apart h hq))

theorem locate_iff : (∀ p ∈ controls uf, uvcControlLocate uf (answer p) false = some p) ↔ Apart (controls uf) := by
  have hthis (p : UvcControlInfo × Entity) : uvcControlLocate uf (answer p) false = some p ↔
      ∃ before behind, controls uf = before ++ p :: behind ∧ ∀ q ∈ before, named (answer p) q.1 q.2 = false := by
    rw [uvcControlLocate_scan, Bool.false_and, scan_this, find?_eq_some_iff_append]
    simp only [named_answer, true_and, Bool.not_eq_true']
  constructor
  · intro hall
    refine pairwise_iff_getElem.2 fun i j hi hj hij => ?_
    obtain ⟨before, behind, hat, hbefore⟩ := (hthis _).1 (hall _ (getElem_mem hj))
    have hlength : before.length < (controls uf).length := by
      rw [hat, length_append, length_cons]
      omega
    have hp : (controls uf)[before.length] = (controls uf)[j] := by
      rw [getElem_of_eq hat, getElem_append_right le_rfl]
      simp
    have hbound : i < before.length := (controls_nodup uf).getElem_inj_iff.1 hp ▸ hij
    refine hbefore _ ?_
    rw [getElem_of_eq hat, getElem_append_left hbound]
    exact getElem_mem hbound
  · intro h p hp
    obtain ⟨before, behind, hat⟩ := append_of_mem hp
    refine (hthis p).2 ⟨before, behind, hat, fun q hq => ?_⟩
    rw [Apart, hat, pairwise_append] at h
    exact h.2.2 q hq p mem_cons_self

/-- The walk is over after each control once, and a control's name is its own. -/
theorem visited_iff (uf : UvcFunction) (entity : ℕ) :
    (Walk uf ⟨0, entity⟩ (controls uf) ∧ ∀ p ∈ controls uf, uvcControlLocate uf (answer p) false = some p) ↔
      Told uf := by
  rw [locate_iff, told_iff]
  refine and_iff_right_of_imp fun htold => ?_
  have hfirst : uvcControlLocate uf ⟨0, entity⟩ true = (controls uf).head? := by
    rw [uvcControlLocate_scan]
    exact scan_first ..
  cases hat : controls uf with
  | nil => exact .last (by rw [hfirst, hat]; rfl)
  | cons p behind =>
    exact .more (by rw [hfirst, hat]; rfl) (@walk_of_apart _ _ [] _ ((told_iff uf).2 htold) hat)

theorem no_end (hp : uvcControlLocate uf (answer p) true = some p) (h : Walk uf (answer p) ps) : False := by
  generalize hat : answer p = uvc at h
  induction h with
  | last hnone =>
    rw [← hat, hp] at hnone
    cases hnone
  | more hnext _ ih =>
    rw [← hat, hp] at hnext
    cases hnext
    exact ih rfl

def processing (addr : ℕ) : Desc := ⟨addr, [10, 0x24, 0x05, 5, 1, 0, 0, 1, 1, 0]⟩

def unit (addr : ℕ) : UvcEntity :=
  ⟨5, UCI_PU, 0, 1, 1, some ⟨processing addr, 4⟩, some ⟨processing addr, 8⟩, processing addr⟩

def twoUnits : UvcFunction where
  version := UVC_VERSION_10
  clockFrequency := 0
  numEntities := 2
  numStreams := 0
  numFormats := 0
  numFrames := 0
  skipped := 0
  entities := [unit 0, unit 10]
  streams := []
  formats := []
  frames := []

theorem brightness_for_ever :
    ((uvcInitFunction ⟨0, 0, 0, 0, 0⟩ 0 2 0 0).bind fun uf =>
      (uvcAddControlDesc uf (processing 0)).bind (uvcAddControlDesc · (processing 10))) = some twoUnits ∧
    ∀ ps, ¬ Walk twoUnits ⟨0, 0⟩ ps := by
  refine ⟨by decide, fun ps h => ?_⟩
  have hfirst : uvcControlLocate twoUnits ⟨0, 0⟩ true = some (⟨0x0101, UCI_PU, 0⟩, unit 0, 0) := by decide
  have hnext : uvcControlLocate twoUnits ⟨0x0101, 5⟩ true = some (⟨0x0101, UCI_PU, 0⟩, unit 10, 1) := by decide
  cases h with
  | last hnone => cases hfirst.symm.trans hnone
  | more hsome hrest =>
    cases hfirst.symm.trans hsome
    cases hrest with
    | last hnone => cases hnext.symm.trans hnone
    | more hsome hrest =>
      cases hnext.symm.trans hsome
      exact no_end hnext hrest

end Controls

end Neptune.Uvc
