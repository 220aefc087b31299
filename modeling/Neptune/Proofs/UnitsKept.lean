import Neptune.Lib.Keyed
import Neptune.Lib.Run

/-! The units of usbvideo.device, which outlive the cameras behind them. -/

namespace Neptune

open List Function

namespace VideoUnits

open Runs
open Keyed (mem_modify map_modify eq_of_key)

/-- Without its NUL. -/
abbrev CString := List {c : UInt8 // c ≠ 0}

/-- A camera and one of its streams; the numbers are `UWORD`s wherever they are. -/
structure Identity where
  vendorID : ℕ
  productID : ℕ
  ifNum : ℕ
  serialNumber : CString
  deriving DecidableEq

def Identity.stored (id : Identity) : Identity := { id with serialNumber := id.serialNumber.take 43 }

/-- The last two fields are not stored in the code: the stream behind the unit, or the last one that was, and
the one when the unit was opened. -/
structure NepVideoStream where
  unitNo : ℕ
  openCnt : ℕ
  binding : Option ℕ
  desc : Option ℕ
  /-- `ns_VendorID`, `ns_ProductID`, `ns_IfNum` and `ns_SerialNumber`. -/
  standsFor : Identity
  behind : Identity
  opened : Identity
  deriving DecidableEq

structure PsdDevice where
  vendorID : ℕ
  productID : ℕ
  serialNumber : CString

def PsdDevice.stream (pd : PsdDevice) (ifNum : ℕ) : Identity := ⟨pd.vendorID, pd.productID, ifNum, pd.serialNumber⟩

/-- A binding has its device, and the place in `uf_Streams` where `nAttachUnits` is. -/
structure NepVideoBase where
  units : List NepVideoStream
  bindings : ℕ → Option (PsdDevice × ℕ)

def nFindUnit (units : List NepVideoStream) (unitno : ℕ) : Option NepVideoStream := units.find? (·.unitNo = unitno)

def newUnit (unitno : ℕ) : NepVideoStream := ⟨unitno, 0, none, none, ⟨0, 0, 0, []⟩, ⟨0, 0, 0, []⟩, ⟨0, 0, 0, []⟩⟩

def nNewUnit (memory : Bool) (units : List NepVideoStream) (unitno : ℕ) : List NepVideoStream × Option ℕ :=
  bif memory then (units ++ [newUnit unitno], some unitno) else (units, none)

def nOwnUnit (units : List NepVideoStream) (id : Identity) : Option NepVideoStream :=
  units.find? fun ns => ns.binding = none ∧ ns.standsFor = id

def nSpareUnit (memory : Bool) (units : List NepVideoStream) (unitno : ℕ) : ℕ → List NepVideoStream × Option ℕ
  | 0 => (units, none)
  | fuel + 1 =>
    match nFindUnit units unitno with
    | none => nNewUnit memory units unitno
    | some ns =>
      if ns.binding = none ∧ ns.openCnt = 0 then (units, some ns.unitNo)
      else nSpareUnit memory units (unitno + 1) fuel

def pickUnit (memory : Bool) (units : List NepVideoStream) (id : Identity) : List NepVideoStream × Option ℕ :=
  match nOwnUnit units id with
  | some ns => (units, some ns.unitNo)
  | none => nSpareUnit memory units 0 (units.length + 1)

abbrev onUnit : ℕ → (NepVideoStream → NepVideoStream) → List NepVideoStream → List NepVideoStream :=
  Keyed.modify (·.unitNo)

def NepVideoStream.attach (ncv us : ℕ) (id : Identity) (ns : NepVideoStream) : NepVideoStream :=
  { ns with standsFor := id.stored, behind := id, binding := some ncv, desc := some us }

def attachTo (ncv us : ℕ) (id : Identity) : List NepVideoStream × Option ℕ → List NepVideoStream
  | (units, none) => units
  | (units, some unitno) => onUnit unitno (·.attach ncv us id) units

/-- Each of these happens under `Forbid()`. -/
inductive Event
  | bind (ncv : ℕ) (pd : PsdDevice)
  | attach (ncv us ifNum : ℕ) (memory : Bool)
  | detach (unitno : ℕ)
  | release (ncv : ℕ)
  | devOpen (unitno : ℕ) (streaming : Bool)
  | devClose (unitno : ℕ)

def step (nh : NepVideoBase) : Event → Option NepVideoBase
  | .bind ncv pd =>
    if nh.bindings ncv = none then some { nh with bindings := update nh.bindings ncv (some (pd, 0)) } else none
  | .attach ncv us ifNum memory =>
    match nh.bindings ncv with
    | none => none
    | some (pd, cnt) =>
      if cnt ≤ us then
        some
          { units := attachTo ncv us (pd.stream ifNum) (pickUnit memory nh.units (pd.stream ifNum).stored)
            bindings := update nh.bindings ncv (some (pd, us + 1)) }
      else none
  | .detach unitno =>
    some { nh with units := onUnit unitno (fun ns => { ns with binding := none, desc := none }) nh.units }
  | .release ncv =>
    if ∀ ns ∈ nh.units, ns.binding ≠ some ncv then some { nh with bindings := update nh.bindings ncv none } else none
  | .devOpen unitno streaming =>
    match nFindUnit nh.units unitno with
    | none => some nh
    | some ns =>
      if ns.binding = none ∨ ns.openCnt ≠ 0 ∨ streaming = true then some nh
      else
        some { nh with
          units := onUnit unitno (fun ns => { ns with openCnt := ns.openCnt + 1, opened := ns.behind })
            nh.units }
  | .devClose unitno =>
    if ∃ ns ∈ nh.units, ns.unitNo = unitno ∧ ns.openCnt ≠ 0 then
      some { nh with units := onUnit unitno (fun ns => { ns with openCnt := ns.openCnt - 1 }) nh.units }
    else none

def start : NepVideoBase := ⟨[], fun _ => none⟩

structure NepVideoStream.Kept (bindings : ℕ → Option (PsdDevice × ℕ)) (ns : NepVideoStream) : Prop where
  standsFor : ns.standsFor = ns.behind.stored
  opened : ns.openCnt ≠ 0 → ns.behind.stored = ns.opened.stored
  seen : ∀ ncv, ns.binding = some ncv → ∃ pd cnt us, bindings ncv = some (pd, cnt) ∧ ns.desc = some us ∧ us < cnt

structure Inv (nh : NepVideoBase) : Prop where
  numbers : (nh.units.map (·.unitNo)).Nodup
  kept : ∀ ns ∈ nh.units, ns.Kept nh.bindings
  apart : ∀ ns ∈ nh.units, ∀ ns' ∈ nh.units,
    ns.binding ≠ none → ns.binding = ns'.binding → ns.desc = ns'.desc → ns = ns'

variable {nh nh' : NepVideoBase} {ns : NepVideoStream} {units : List NepVideoStream} {memory : Bool} {id : Identity}
  {ncv us ifNum unitno : ℕ} {bindings : ℕ → Option (PsdDevice × ℕ)}

theorem nFindUnit_some (h : nFindUnit units unitno = some ns) : ns ∈ units ∧ ns.unitNo = unitno :=
  ⟨mem_of_find?_eq_some h, by simpa using find?_some h⟩

theorem nOwnUnit_some (h : nOwnUnit units id = some ns) : ns ∈ units ∧ ns.binding = none ∧ ns.standsFor = id :=
  ⟨mem_of_find?_eq_some h, by simpa using find?_some h⟩

/-- What a unit is picked from, and which: no camera is behind it, and it is this stream's, or nobody's. -/
structure Picked (units : List NepVideoStream) (id : Identity) (r : List NepVideoStream × Option ℕ) : Prop where
  grown : r.1 = units ∨ ∃ unitno, unitno ∉ units.map (·.unitNo) ∧ r.1 = units ++ [newUnit unitno]
  free : ∀ unitno, r.2 = some unitno → ∃ ns ∈ r.1, ns.unitNo = unitno ∧ ns.binding = none ∧
    (ns.standsFor = id ∨ ns.openCnt = 0)

theorem nSpareUnit_picked (memory : Bool) (units : List NepVideoStream) (id : Identity) (unitno fuel : ℕ) :
    Picked units id (nSpareUnit memory units unitno fuel) := by
  induction fuel generalizing unitno with
  | zero => exact ⟨.inl rfl, nofun⟩
  | succ fuel ih =>
    rw [nSpareUnit]
    split
    · rename_i hnone
      have hnew : unitno ∉ units.map (·.unitNo) := fun hmem => by
        obtain ⟨ns, hns, heq⟩ := mem_map.1 hmem
        exact find?_eq_none.1 hnone ns hns (decide_eq_true heq)
      cases memory with
      | false => exact ⟨.inl rfl, nofun⟩
      | true =>
        refine ⟨.inr ⟨unitno, hnew, rfl⟩, fun n hn => ?_⟩
        cases hn
        exact ⟨newUnit unitno, mem_append_right _ mem_cons_self, rfl, rfl, .inr rfl⟩
    · rename_i ns hsome
      split
      · rename_i hfree
        refine ⟨.inl rfl, fun n hn => ?_⟩
        cases hn
        exact ⟨ns, (nFindUnit_some hsome).1, rfl, hfree.1, .inr hfree.2⟩
      · exact ih (unitno + 1)

theorem pickUnit_picked (memory : Bool) (units : List NepVideoStream) (id : Identity) :
    Picked units id (pickUnit memory units id) := by
  unfold pickUnit
  split
  · rename_i ns hsome
    refine ⟨.inl rfl, fun n hn => ?_⟩
    cases hn
    obtain ⟨hmem, hfree, hown⟩ := nOwnUnit_some hsome
    exact ⟨ns, hmem, rfl, hfree, .inl hown⟩
  · exact nSpareUnit_picked ..

/-- The number that ends the search is at most that of the units. -/
theorem nSpareUnit_some (fuel : ℕ) (htaken : ∀ k < unitno, k ∈ units.map (·.unitNo))
    (hfuel : units.length < unitno + fuel) : ((nSpareUnit true units unitno fuel).2).isSome := by
  induction fuel generalizing unitno with
  | zero =>
    have hall : range unitno ⊆ units.map (·.unitNo) := fun k hk => htaken k (mem_range.1 hk)
    have hle := (subperm_of_subset nodup_range hall).length_le
    rw [length_range, length_map] at hle
    omega
  | succ fuel ih =>
    rw [nSpareUnit]
    split
    · rfl
    · rename_i ns hsome
      split
      · rfl
      · refine ih (fun k hk => ?_) (by omega)
        by_cases heq : k = unitno
        · subst heq
          exact mem_map.2 ⟨ns, nFindUnit_some hsome⟩
        · exact htaken k (by omega)

theorem pickUnit_some (units : List NepVideoStream) (id : Identity) : ((pickUnit true units id).2).isSome := by
  unfold pickUnit
  split
  · rfl
  · exact nSpareUnit_some _ (fun k hk => absurd hk (Nat.not_lt_zero k)) (by omega)

theorem NepVideoStream.Kept.rebound (h : ns.Kept bindings) {pd : PsdDevice} {cnt cnt' : ℕ}
    (hold : bindings ncv = none ∨ bindings ncv = some (pd, cnt)) (hle : cnt ≤ cnt') :
    ns.Kept (update bindings ncv (some (pd, cnt'))) where
  standsFor := h.standsFor
  opened := h.opened
  seen := by
    intro ncv' hbound
    obtain ⟨pd', cnt₀, us, hat, hus, hlt⟩ := h.seen ncv' hbound
    by_cases heq : ncv' = ncv
    · subst heq
      rcases hold with hold | hold
      · cases hold.symm.trans hat
      · cases hold.symm.trans hat
        exact ⟨pd, cnt', us, update_self .., hus, Nat.lt_of_lt_of_le hlt hle⟩
    · exact ⟨pd', cnt₀, us, by rw [update_of_ne heq, hat], hus, hlt⟩

/-- A unit is changed that keeps its number, and that stays with its stream or leaves it. -/
theorem Inv.modify (h : Inv nh) {f : NepVideoStream → NepVideoStream} (hnumber : ∀ ns, (f ns).unitNo = ns.unitNo)
    (hkept : ∀ ns ∈ nh.units, ns.unitNo = unitno → (f ns).Kept nh.bindings)
    (hstays : ∀ ns, (f ns).binding ≠ none → (f ns).binding = ns.binding ∧ (f ns).desc = ns.desc) :
    Inv { nh with units := onUnit unitno f nh.units } where
  numbers := by
    rw [map_modify fun ns _ _ => hnumber ns]
    exact h.numbers
  kept := by
    intro ns hns
    obtain ⟨ns, hold, rfl⟩ := mem_modify.1 hns
    split
    · exact hkept ns hold ‹_›
    · exact h.kept ns hold
  apart := by
    intro ns hns ns' hns' hbound hsame hdesc
    obtain ⟨ns, hold, rfl⟩ := mem_modify.1 hns
    obtain ⟨ns', hold', rfl⟩ := mem_modify.1 hns'
    have hstay (ns : NepVideoStream) (hb : (if ns.unitNo = unitno then f ns else ns).binding ≠ none) :
        (if ns.unitNo = unitno then f ns else ns).binding = ns.binding ∧
          (if ns.unitNo = unitno then f ns else ns).desc = ns.desc := by
      split
      · rename_i heq
        rw [if_pos heq] at hb
        exact hstays ns hb
      · exact ⟨rfl, rfl⟩
    obtain ⟨hb, hd⟩ := hstay ns hbound
    obtain ⟨hb', hd'⟩ := hstay ns' (hsame ▸ hbound)
    rw [h.apart ns hold ns' hold' (hb ▸ hbound) (hb.symm.trans (hsame.trans hb')) (hd.symm.trans (hdesc.trans hd'))]

/-- A new unit has nothing behind it. -/
theorem Inv.grow (h : Inv nh) (hnew : unitno ∉ nh.units.map (·.unitNo)) :
    Inv { nh with units := nh.units ++ [newUnit unitno] } where
  numbers := by
    rw [map_append, nodup_append_comm]
    exact nodup_cons.2 ⟨hnew, h.numbers⟩
  kept := by
    intro ns hns
    rcases mem_append.1 hns with hold | hnew
    · exact h.kept ns hold
    · obtain rfl := mem_singleton.1 hnew
      exact ⟨rfl, fun hopen => absurd rfl hopen, nofun⟩
  apart := by
    intro ns hns ns' hns' hbound hsame
    rcases mem_append.1 hns with hold | hnew
    · rcases mem_append.1 hns' with hold' | hnew'
      · exact h.apart ns hold ns' hold' hbound hsame
      · obtain rfl := mem_singleton.1 hnew'
        exact absurd hsame hbound
    · obtain rfl := mem_singleton.1 hnew
      exact absurd rfl hbound

theorem Inv.attach (h : Inv nh) {pd : PsdDevice} {cnt : ℕ} (hat : nh.bindings ncv = some (pd, cnt)) (hle : cnt ≤ us)
    (id : Identity) (memory : Bool) :
    Inv ⟨attachTo ncv us id (pickUnit memory nh.units id.stored), update nh.bindings ncv (some (pd, us + 1))⟩ := by
  obtain ⟨hgrown, hfree⟩ := pickUnit_picked memory nh.units id.stored
  generalize pickUnit memory nh.units id.stored = r at hgrown hfree
  obtain ⟨units, picked⟩ := r
  have hunits : Inv ⟨units, nh.bindings⟩ := by
    rcases hgrown with heq | ⟨unitno, hnew, heq⟩
    · cases heq
      exact h
    · cases heq
      exact h.grow hnew
  have hothers : ∀ ns ∈ units, ns.Kept (update nh.bindings ncv (some (pd, us + 1))) := fun ns hns =>
    (hunits.kept ns hns).rebound (.inr hat) (by omega)
  cases picked with
  | none => exact ⟨hunits.numbers, hothers, hunits.apart⟩
  | some unitno =>
    obtain ⟨u, hu, hnumber, hunbound, hmay⟩ := hfree unitno rfl
    refine ⟨?_, fun ns hns => ?_, fun ns hns ns' hns' hbound hsame hdesc => ?_⟩
    · show ((onUnit unitno (·.attach ncv us id) units).map (·.unitNo)).Nodup
      rw [map_modify]
      · exact hunits.numbers
      · exact fun ns _ _ => rfl
    · obtain ⟨ns, hold, rfl⟩ := mem_modify.1 hns
      split
      · rename_i heq
        obtain rfl := eq_of_key hunits.numbers hold hu (heq.trans hnumber.symm)
        have hkept := hunits.kept ns hold
        refine ⟨rfl, fun hopen => ?_, fun ncv' hb => ?_⟩
        · exact (hmay.resolve_right hopen).symm.trans (hkept.standsFor.trans (hkept.opened hopen))
        · cases hb
          exact ⟨pd, us + 1, us, update_self .., rfl, Nat.lt_succ_self us⟩
      · exact hothers ns hold
    · -- no unit has the stream yet
      have hfresh : ∀ v ∈ units, v.binding = some ncv → v.desc ≠ some us := by
        intro v hv hb hd
        obtain ⟨pd', cnt', us', hat', hus, hlt⟩ := (hunits.kept v hv).seen ncv hb
        cases hat.symm.trans hat'
        cases hd.symm.trans hus
        omega
      obtain ⟨v, hv, rfl⟩ := mem_modify.1 hns
      obtain ⟨v', hv', rfl⟩ := mem_modify.1 hns'
      by_cases heq : v.unitNo = unitno <;> by_cases heq' : v'.unitNo = unitno
      · rw [eq_of_key hunits.numbers hv hv' (heq.trans heq'.symm)]
      · rw [if_pos heq, if_neg heq'] at hsame hdesc
        exact absurd hdesc.symm (hfresh v' hv' hsame.symm)
      · rw [if_neg heq, if_pos heq'] at hsame hdesc
        exact absurd hdesc (hfresh v hv hsame)
      · rw [if_neg heq, if_neg heq'] at *
        exact hunits.apart v hv v' hv' hbound hsame hdesc

theorem attach_step (hstep : step nh (.attach ncv us ifNum memory) = some nh') :
    ∃ pd cnt, nh.bindings ncv = some (pd, cnt) ∧ cnt ≤ us ∧
      ⟨attachTo ncv us (pd.stream ifNum) (pickUnit memory nh.units (pd.stream ifNum).stored),
        update nh.bindings ncv (some (pd, us + 1))⟩ = nh' := by
  simp only [step] at hstep
  split at hstep
  · cases hstep
  · rename_i pd cnt hat
    obtain ⟨hle, rfl⟩ := of_guard hstep
    exact ⟨pd, cnt, hat, hle, rfl⟩

theorem step_inv {e : Event} (h : Inv nh) (hstep : step nh e = some nh') : Inv nh' := by
  cases e with
  | bind ncv pd =>
    obtain ⟨hnone, rfl⟩ := of_guard hstep
    exact ⟨h.numbers, fun ns hns => (h.kept ns hns).rebound (.inl hnone) (Nat.le_refl 0), h.apart⟩
  | attach ncv us ifNum memory =>
    obtain ⟨pd, cnt, hat, hle, rfl⟩ := attach_step hstep
    exact h.attach hat hle _ memory
  | detach unitno =>
    cases hstep
    refine h.modify (fun ns => rfl) (fun ns hns _ => ?_) fun ns hbound => absurd rfl hbound
    exact ⟨(h.kept ns hns).standsFor, (h.kept ns hns).opened, nofun⟩
  | release ncv =>
    obtain ⟨hgone, rfl⟩ := of_guard hstep
    refine ⟨h.numbers, fun ns hns => ?_, h.apart⟩
    refine ⟨(h.kept ns hns).standsFor, (h.kept ns hns).opened, fun ncv' hbound => ?_⟩
    obtain ⟨pd, cnt, us, hat, hrest⟩ := (h.kept ns hns).seen ncv' hbound
    have hne : ncv' ≠ ncv := fun heq => hgone ns hns (heq ▸ hbound)
    exact ⟨pd, cnt, us, (update_of_ne hne ..).trans hat, hrest⟩
  | devOpen unitno streaming =>
    simp only [step] at hstep
    split at hstep
    · cases hstep
      exact h
    · split at hstep
      · cases hstep
        exact h
      · cases hstep
        refine h.modify (fun ns => rfl) (fun ns hns _ => ?_) fun ns _ => ⟨rfl, rfl⟩
        exact ⟨(h.kept ns hns).standsFor, fun _ => rfl, (h.kept ns hns).seen⟩
  | devClose unitno =>
    obtain ⟨-, rfl⟩ := of_guard hstep
    refine h.modify (fun ns => rfl) (fun ns hns _ => ?_) fun ns _ => ⟨rfl, rfl⟩
    exact ⟨(h.kept ns hns).standsFor, fun hopen => (h.kept ns hns).opened fun hzero => hopen (by rw [hzero]),
      (h.kept ns hns).seen⟩

theorem run_inv {evs : List Event} (h : Run step anyStep start evs nh) : Inv nh := by
  have hstart : Inv start := ⟨nodup_nil, fun _ hns => absurd hns not_mem_nil, fun _ hns => absurd hns not_mem_nil⟩
  exact h.invariant Inv hstart fun _ _ _ ht _ hs => step_inv ht hs

def Stays (ns ns' : NepVideoStream) : Prop :=
  ns'.unitNo = ns.unitNo ∧
    (ns'.binding = none ∨ ns'.binding = ns.binding ∧ ns'.desc = ns.desc ∧ ns'.behind = ns.behind)

theorem Stays.refl (ns : NepVideoStream) : Stays ns ns := ⟨rfl, .inr ⟨rfl, rfl, rfl⟩⟩

theorem stays_modify {f : NepVideoStream → NepVideoStream} (hns : ns ∈ units)
    (hf : ns.unitNo = unitno → Stays ns (f ns)) :
    ∃ ns' ∈ onUnit unitno f units, Stays ns ns' := by
  refine ⟨_, mem_modify.2 ⟨ns, hns, rfl⟩, ?_⟩
  split
  · exact hf ‹_›
  · exact .refl ns

theorem stays_attach (h : Inv nh) (hns : ns ∈ nh.units) (hbound : ns.binding ≠ none) :
    ∃ ns' ∈ attachTo ncv us id (pickUnit memory nh.units id.stored), Stays ns ns' := by
  obtain ⟨hgrown, hfree⟩ := pickUnit_picked memory nh.units id.stored
  generalize pickUnit memory nh.units id.stored = r at hgrown hfree
  obtain ⟨units, picked⟩ := r
  have hunits : Inv ⟨units, nh.bindings⟩ ∧ ns ∈ units := by
    rcases hgrown with heq | ⟨unitno, hnew, heq⟩
    · cases heq
      exact ⟨h, hns⟩
    · cases heq
      exact ⟨h.grow hnew, mem_append_left _ hns⟩
  cases picked with
  | none => exact ⟨ns, hunits.2, .refl ns⟩
  | some unitno =>
    obtain ⟨u, hu, hnumber, hunbound, -⟩ := hfree unitno rfl
    refine stays_modify hunits.2 fun heq => absurd ?_ hbound
    rw [eq_of_key hunits.1.numbers hunits.2 hu (heq.trans hnumber.symm)]
    exact hunbound

theorem step_stays {e : Event} (h : Inv nh) (hstep : step nh e = some nh') (hns : ns ∈ nh.units)
    (hbound : ns.binding ≠ none) : ∃ ns' ∈ nh'.units, Stays ns ns' := by
  cases e with
  | bind ncv pd | release ncv =>
    obtain ⟨-, rfl⟩ := of_guard hstep
    exact ⟨ns, hns, .refl ns⟩
  | attach ncv us ifNum memory =>
    obtain ⟨pd, cnt, -, -, rfl⟩ := attach_step hstep
    exact stays_attach h hns hbound
  | detach unitno =>
    cases hstep
    exact stays_modify hns fun _ => ⟨rfl, .inl rfl⟩
  | devOpen unitno streaming =>
    simp only [step] at hstep
    split at hstep
    · cases hstep
      exact ⟨ns, hns, .refl ns⟩
    · split at hstep
      · cases hstep
        exact ⟨ns, hns, .refl ns⟩
      · cases hstep
        exact stays_modify hns fun _ => ⟨rfl, .inr ⟨rfl, rfl, rfl⟩⟩
  | devClose unitno =>
    obtain ⟨-, rfl⟩ := of_guard hstep
    exact stays_modify hns fun _ => ⟨rfl, .inr ⟨rfl, rfl, rfl⟩⟩

def Returns (units units' : List NepVideoStream) (ncv us : ℕ) (id : Identity) : Prop :=
  ∃ before ns after, units = before ++ ns :: after ∧ ns.binding = none ∧ ns.behind.stored = id.stored ∧
    (∀ ns' ∈ before, ns'.binding = none → ns'.behind.stored ≠ id.stored) ∧
    units' = before ++ ns.attach ncv us id :: after

theorem attach_returns (h : Inv nh) (hns : ns ∈ nh.units) (hfree : ns.binding = none) (hbehind : ns.behind = id) :
    Returns nh.units (attachTo ncv us id (pickUnit memory nh.units id.stored)) ncv us id := by
  have hfound : (nOwnUnit nh.units id.stored).isSome := by
    refine find?_isSome.2 ⟨ns, hns, decide_eq_true ⟨hfree, ?_⟩⟩
    rw [(h.kept ns hns).standsFor, hbehind]
  obtain ⟨m, hm⟩ := Option.isSome_iff_exists.1 hfound
  obtain ⟨hmem, hmfree, hmown⟩ := nOwnUnit_some hm
  obtain ⟨-, before, after, hat, hbefore⟩ := find?_eq_some_iff_append.1 hm
  have hnumbers := h.numbers
  rw [hat, map_append, map_cons, nodup_append, nodup_cons] at hnumbers
  refine ⟨before, m, after, hat, hmfree, (h.kept m hmem).standsFor.symm.trans hmown, fun u hu hufree => ?_, ?_⟩
  · have hother := hbefore u hu
    rw [← (h.kept u (hat ▸ mem_append_left _ hu)).standsFor]
    simpa [hufree] using hother
  · have hsame (l : List NepVideoStream) (hl : ∀ u ∈ l, u.unitNo ≠ m.unitNo) :
        onUnit m.unitNo (·.attach ncv us id) l = l := by
      refine (map_congr_left fun u hu => if_neg (hl u hu)).trans (map_id l)
    have hpick : pickUnit memory nh.units id.stored = (nh.units, some m.unitNo) := by
      rw [pickUnit, hm]
    rw [hpick, hat]
    show onUnit m.unitNo (·.attach ncv us id) (before ++ m :: after) = _
    rw [onUnit, Keyed.modify, map_append, map_cons, if_pos rfl]
    congr 1
    · refine hsame before fun u hu heq => ?_
      exact hnumbers.2.2 _ (mem_map_of_mem hu) _ mem_cons_self heq
    · congr 1
      exact hsame after fun u hu heq => hnumbers.2.1.1 (heq ▸ mem_map_of_mem hu)

theorem attach_gets (units : List NepVideoStream) :
    ∃ ns ∈ attachTo ncv us id (pickUnit true units id.stored),
      ns.binding = some ncv ∧ ns.desc = some us ∧ ns.behind = id := by
  obtain ⟨unitno, hpicked⟩ := Option.isSome_iff_exists.1 (pickUnit_some units id.stored)
  obtain ⟨-, hfree⟩ := pickUnit_picked true units id.stored
  obtain ⟨ns, hns, hnumber, -⟩ := hfree unitno hpicked
  generalize pickUnit true units id.stored = r at hpicked hns
  obtain ⟨units', picked⟩ := r
  cases hpicked
  refine ⟨_, mem_modify.2 ⟨ns, hns, rfl⟩, ?_⟩
  rw [if_pos hnumber]
  exact ⟨rfl, rfl, rfl⟩

structure Sound (nh : NepVideoBase) : Prop where
  numbers : (nh.units.map (·.unitNo)).Nodup
  apart : ∀ ns ∈ nh.units, ∀ ns' ∈ nh.units,
    ns.binding ≠ none → ns.binding = ns'.binding → ns.desc = ns'.desc → ns = ns'
  stays : ∀ e nh', step nh e = some nh' → ∀ ns ∈ nh.units, ns.binding ≠ none → ∃ ns' ∈ nh'.units, Stays ns ns'
  waits : ∀ ns ∈ nh.units, ns.openCnt ≠ 0 → ns.behind.stored = ns.opened.stored
  attached : ∀ ncv us ifNum memory nh', step nh (.attach ncv us ifNum memory) = some nh' →
    ∃ pd cnt, nh.bindings ncv = some (pd, cnt) ∧
      ((∃ ns ∈ nh.units, ns.binding = none ∧ ns.behind = pd.stream ifNum) →
        Returns nh.units nh'.units ncv us (pd.stream ifNum)) ∧
      (memory = true → ∃ ns ∈ nh'.units, ns.binding = some ncv ∧ ns.desc = some us ∧ ns.behind = pd.stream ifNum)

theorem units_kept {evs : List Event} (h : Run step anyStep start evs nh) : Sound nh := by
  have hinv := run_inv h
  refine ⟨hinv.numbers, hinv.apart, fun e nh' hstep ns hns hbound => step_stays hinv hstep hns hbound,
    fun ns hns => (hinv.kept ns hns).opened, fun ncv us ifNum memory nh' hstep => ?_⟩
  obtain ⟨pd, cnt, hat, -, rfl⟩ := attach_step hstep
  refine ⟨pd, cnt, hat, fun ⟨ns, hns, hfree, hbehind⟩ => attach_returns hinv hns hfree hbehind, fun hmemory => ?_⟩
  subst hmemory
  exact attach_gets nh.units

def camera (last : {c : UInt8 // c ≠ 0}) : PsdDevice := ⟨0x046d, 0x0825, replicate 43 ⟨0x30, by decide⟩ ++ [last]⟩

def exchanged : List Event :=
  [.bind 0 (camera ⟨0x31, by decide⟩), .attach 0 0 1 true, .devOpen 0 false, .detach 0, .release 0,
    .bind 1 (camera ⟨0x32, by decide⟩), .attach 1 0 1 true]

theorem units_kept_exchanged : Sound ((exec step start exchanged).get (by decide)) :=
  units_kept (Run.get (show (exec step start exchanged).isSome by decide))

def nameless : PsdDevice := ⟨0x046d, 0x0825, []⟩

def twins : List Event :=
  [.bind 0 nameless, .attach 0 0 1 true, .bind 1 nameless, .attach 1 0 1 true, .detach 0, .release 0, .detach 1,
    .release 1, .bind 2 nameless, .attach 2 0 1 true]

/-- The open unit has another camera, and the second of the two has the unit of the first. -/
theorem exchanged_and_twins :
    ((exec step start exchanged).map fun nh => nh.units.map fun ns =>
      (ns.openCnt, ns.binding, decide (ns.behind.serialNumber = ns.opened.serialNumber))) = some [(1, some 1, false)] ∧
    ((exec step start twins).map fun nh => nh.units.map fun ns => (ns.unitNo, ns.binding)) =
      some [(0, some 2), (1, none)] := by
  decide

end VideoUnits

end Neptune
