import Neptune.Spec.Medium

/-! Whose medium a geometry or a block shift is from. -/

namespace Neptune.Medium

open Option

open BlockIo (IOStdReq)
open NepClassMS (GeometryRun fakesPage)

variable {s t : NepClassMS} {g : GeometryRun} {c : Capacity} {e : Event} {n k : ℕ}

def Stale (capacityAt : Option ℕ) (changes : ℕ) : Prop := ∃ m, capacityAt = some m ∧ m < changes

/-- A geometry is of the medium there is; and a block address is not made for a former one, where
`TD_GETGEOMETRY` has been answered since the change. -/
def Entry.Good : Entry → Prop
  | .geometry _ _ capacityAt changes => capacityAt = some changes
  | .transfer _ capacityAt answeredAt changes => answeredAt = some changes → ¬ Stale capacityAt changes

def Entry.Fresh : Entry → Prop
  | .geometry _ _ capacityAt changes => ¬ Stale capacityAt changes
  | .transfer _ capacityAt _ changes => ¬ Stale capacityAt changes

/-- Steps in which no change is taken for seen: none is counted between a READ CAPACITY and the mark of
the cache, no page is made up over a cache that is out of date, and the count does not come round. -/
def Seen (s : NepClassMS) : Event → Prop
  | .changed => s.changes + 1 < 0xffffffff
  | .getGeometry g => g.counted = 0 ∧ s.changes + g.capacity.counted < 0xffffffff
  | .modeSense6 page g =>
    s.changes + g.capacity.counted + g.counted < 0xffffffff ∧
      (s.simpleScsi = true → fakesPage page = true → g.counted = 0 ∧
        (s.blockSize ≠ 0 → s.totalSectors ≠ 0 → s.cached = true))
  | .transfer _ c counted => s.changes + c.counted + counted < 0xffffffff
  | .patch _ => True

instance : Decidable (Seen s e) :=
  match e with
  | .changed => inferInstanceAs (Decidable (_ < _))
  | .getGeometry _ => inferInstanceAs (Decidable (_ ∧ _))
  | .modeSense6 _ _ => inferInstanceAs (Decidable (_ ∧ (_ → _ → _ ∧ (_ → _ → _))))
  | .transfer _ _ _ => inferInstanceAs (Decidable (_ < _))
  | .patch _ => inferInstanceAs (Decidable True)

structure Inv (s : NepClassMS) : Prop where
  small : s.changes < 0xffffffff
  marked : s.geoChangeCount = 0xffffffff ∨ s.geoChangeCount ≤ s.changes
  cached : s.geoChangeCount = s.changes → s.totalSectors ≠ 0 → s.capacityAt = some s.changes
  known : ∀ m, s.capacityAt = some m → m ≤ s.changes
  answered : ∀ m, s.answeredAt = some m → m ≤ s.changes
  /-- What has been answered since the change has been read since. -/
  fresh : s.answeredAt = some s.changes → s.capacityAt = none ∨ s.capacityAt = some s.changes
  good : ∀ e ∈ s.log, e.Good

theorem changeCount_eq (h : s.changes < 0xffffffff) : s.changeCount = s.changes := by
  unfold NepClassMS.changeCount ulong
  omega

theorem cached_iff (h : s.changes < 0xffffffff) :
    s.cached = true ↔ s.geoChangeCount = s.changes ∧ s.totalSectors ≠ 0 := by
  unfold NepClassMS.cached
  rw [changeCount_eq h]
  simp

theorem bound_inv (simple isCd : Bool) (totalSectors : ℕ) (hn : n < 0xffffffff) :
    Inv (bound simple isCd totalSectors n) where
  small := hn
  marked := Or.inl rfl
  cached := fun h => absurd (show (0xffffffff : ℕ) = n from h) (by omega)
  known := nofun
  answered := nofun
  fresh := nofun
  good := nofun

theorem Inv.count (h : Inv s) (hk : s.changes + k < 0xffffffff) : Inv (s.count k) where
  small := hk
  marked := h.marked.imp id fun hle => hle.trans (Nat.le_add_right _ _)
  cached := by
    change s.geoChangeCount = s.changes + k → s.totalSectors ≠ 0 → s.capacityAt = some (s.changes + k)
    intro hgeo htotal
    have hmarked := h.marked
    have hk' : k = 0 := by omega
    rw [hk', Nat.add_zero] at hgeo ⊢
    exact h.cached hgeo htotal
  known := fun m hm => (h.known m hm).trans (Nat.le_add_right _ _)
  answered := fun m hm => (h.answered m hm).trans (Nat.le_add_right _ _)
  fresh := by
    change s.answeredAt = some (s.changes + k) →
      s.capacityAt = none ∨ s.capacityAt = some (s.changes + k)
    intro hanswered
    have hle := h.answered _ hanswered
    have hk' : k = 0 := by omega
    rw [hk', Nat.add_zero] at hanswered ⊢
    exact h.fresh hanswered
  good := h.good

theorem Inv.readCapacity (h : Inv s) (size total : ℕ) : Inv (s.readCapacity size total) where
  small := h.small
  marked := h.marked
  cached := fun _ _ => rfl
  known := by
    intro m hm
    exact (some.inj hm).ge
  answered := h.answered
  fresh := fun _ => Or.inr rfl
  good := h.good

section

variable (h : Inv s) (hat : s.capacityAt = some s.changes)
include h hat

theorem Inv.estimate (total : ℕ) :
    Inv { s with totalSectors := total } where
  small := h.small
  marked := h.marked
  cached := fun _ _ => hat
  known := h.known
  answered := h.answered
  fresh := h.fresh
  good := h.good

theorem Inv.mark :
    Inv { s with geoChangeCount := s.changeCount } where
  small := h.small
  marked := Or.inr (changeCount_eq h.small).le
  cached := fun _ _ => hat
  known := h.known
  answered := h.answered
  fresh := h.fresh
  good := h.good

theorem Inv.answer : Inv s.answer where
  small := h.small
  marked := h.marked
  cached := h.cached
  known := h.known
  answered := by
    intro m hm
    exact (some.inj hm).ge
  fresh := fun _ => Or.inr hat
  good := by
    intro e he
    rcases List.mem_append.mp he with he | he
    · exact h.good e he
    · obtain rfl := List.mem_singleton.mp he
      exact hat

end

theorem Inv.nGetBlockSize (h : Inv s) (hk : s.changes + c.counted < 0xffffffff) :
    Inv (s.nGetBlockSize c) := by
  have hcount := h.count hk
  unfold NepClassMS.nGetBlockSize
  simp only
  split
  · split
    · exact ⟨hcount.small, hcount.marked, fun _ hne => absurd rfl hne, nofun, hcount.answered,
        fun _ => Or.inl rfl, hcount.good⟩
    · exact ⟨hcount.small, hcount.marked, fun _ hne => absurd rfl hne, hcount.known, hcount.answered,
        hcount.fresh, hcount.good⟩
  · exact hcount.readCapacity _ _

theorem nGetBlockSize_total (h : (s.nGetBlockSize c).totalSectors ≠ 0) :
    (s.nGetBlockSize c).capacityAt = some (s.nGetBlockSize c).changes := by
  revert h
  unfold NepClassMS.nGetBlockSize
  simp only
  split
  · exact fun h => absurd rfl h
  · exact fun _ => rfl

theorem Inv.nGetGeometry (h : Inv s) (hseen : Seen s (.getGeometry g)) : Inv (s.nGetGeometry g) := by
  obtain ⟨hlate, hk⟩ := hseen
  unfold NepClassMS.nGetGeometry
  simp only
  split
  · rename_i hcached
    obtain ⟨hgeo, htotal⟩ := (cached_iff h.small).mp hcached
    exact h.answer (h.cached hgeo htotal)
  split
  · exact h.count hk
  · have hread := (h.count hk).readCapacity g.capacity.sectorSize
      (NepClassMS.sectorsOf g.capacity.lastSector)
    rw [hlate]
    have hestimate := hread.estimate rfl (g.estimate (NepClassMS.sectorsOf g.capacity.lastSector))
    exact (hestimate.answer rfl).mark rfl

theorem Inv.modeSense6 {page : ℕ} (h : Inv s) (hseen : Seen s (.modeSense6 page g)) :
    Inv (s.modeSense6 page g) := by
  obtain ⟨hk, hfake⟩ := hseen
  unfold NepClassMS.modeSense6
  split
  · rename_i hsimple
    split
    · rename_i hpage
      obtain ⟨hlate, hcached⟩ := hfake hsimple hpage
      -- the capacity is that of the medium, or has just been read
      have hread : ∀ s', s' = (if s.blockSize ≠ 0 ∧ s.totalSectors ≠ 0 then s
          else s.nGetBlockSize g.capacity) →
          Inv s' ∧ (s'.totalSectors ≠ 0 → s'.capacityAt = some s'.changes) := by
        rintro s' rfl
        split
        · rename_i hknown
          obtain ⟨hgeo, htotal⟩ := (cached_iff h.small).mp (hcached hknown.1 hknown.2)
          exact ⟨h, fun _ => h.cached hgeo htotal⟩
        · exact ⟨h.nGetBlockSize (by omega), nGetBlockSize_total⟩
      simp only
      obtain ⟨hinv, hat⟩ := hread _ rfl
      generalize (if s.blockSize ≠ 0 ∧ s.totalSectors ≠ 0 then s
        else s.nGetBlockSize g.capacity) = s' at hinv hat ⊢
      split
      · rename_i htotal
        rw [hlate]
        exact (hinv.estimate (hat htotal) _).mark (hat htotal)
      · exact hinv
    · exact h
  · exact h.count (by omega)

theorem Inv.transfer {io : IOStdReq} (h : Inv s) (hseen : Seen s (.transfer io c k)) :
    Inv (s.transfer io c k) := by
  have hk : s.changes + c.counted + k < 0xffffffff := hseen
  have hread : ∀ s', s' = (if s.blockSize = 0 then s.nGetBlockSize c else s) →
      Inv s' ∧ s'.changes + k < 0xffffffff := by
    rintro s' rfl
    split
    · refine ⟨h.nGetBlockSize (by omega), ?_⟩
      unfold NepClassMS.nGetBlockSize
      simp only
      split
      · split <;> exact hk
      · exact hk
    · exact ⟨h, by omega⟩
  unfold NepClassMS.transfer
  simp only
  obtain ⟨hinv, hlt⟩ := hread _ rfl
  generalize (if s.blockSize = 0 then s.nGetBlockSize c else s) = s' at hinv hlt ⊢
  refine Inv.count ⟨hinv.small, hinv.marked, hinv.cached, hinv.known, hinv.answered, hinv.fresh, ?_⟩ hlt
  intro e he
  rcases List.mem_append.mp he with he | he
  · exact hinv.good e he
  · obtain rfl := List.mem_singleton.mp he
    rintro hanswered ⟨m, hm, hlt⟩
    rcases hinv.fresh hanswered with hnone | hsome
    · exact nomatch hnone.symm.trans hm
    · exact absurd (some.inj (hsome.symm.trans hm)) hlt.ne'

theorem step_inv (h : Inv s) (hseen : Seen s e) (hstep : step s e = some t) : Inv t := by
  cases e with
  | changed =>
    obtain rfl := some.inj hstep
    exact h.count hseen
  | getGeometry g =>
    obtain rfl := some.inj hstep
    exact h.nGetGeometry hseen
  | modeSense6 page g =>
    obtain rfl := some.inj hstep
    exact h.modeSense6 hseen
  | transfer io c k =>
    obtain rfl := some.inj hstep
    exact h.transfer hseen
  | patch _ =>
    obtain rfl := some.inj hstep
    exact ⟨h.small, h.marked, h.cached, h.known, h.answered, h.fresh, h.good⟩

/-- In every run of the unit whose steps take no change for seen. -/
theorem medium_fresh (simple isCd : Bool) (totalSectors : ℕ) (hn : n < 0xffffffff) {evs : List Event}
    (hrun : Runs.Run step Seen (bound simple isCd totalSectors n) evs t) : ∀ e ∈ t.log, e.Good := by
  have hinv : Inv t := by
    apply hrun.invariant Inv
    · exact bound_inv simple isCd totalSectors hn
    · exact fun _ _ _ hi hseen hstep => step_inv hi hseen hstep
  exact hinv.good

def geometry₀ (size : ℕ) : GeometryRun := ⟨⟨0, 0, 999, size⟩, id, 0⟩

def read₀ : Event :=
  .transfer ⟨2048, 4096, 0, 0, by decide, by decide, Nat.two_pow_pos _⟩ ⟨0, 0, 0, 0⟩ 0

def swap₀ : List Event := [.getGeometry (geometry₀ 512), .changed, .getGeometry (geometry₀ 2048), read₀]

def swapped₀ : NepClassMS := (Runs.exec step (bound false false 0 0) swap₀).get rfl

theorem medium_fresh_swap : swapped₀.log.length = 3 ∧ ∀ e ∈ swapped₀.log, e.Good := by
  refine ⟨rfl, ?_⟩
  apply medium_fresh false false 0 (n := 0) (by decide)
  exact Runs.Run.get_meets (by decide) rfl

/-- Where the capacity is not read after the change, the shift is that of the former medium. -/
theorem medium_stale :
    ¬ ∀ (simple isCd : Bool) (totalSectors n : ℕ) (evs : List Event) (t : NepClassMS),
      Runs.Run step Runs.anyStep (bound simple isCd totalSectors n) evs t → ∀ e ∈ t.log, e.Fresh := by
  intro hfresh
  have hrun : Runs.Run step Runs.anyStep (bound false false 0 0)
      [.getGeometry (geometry₀ 512), .changed, read₀] _ := Runs.Run.get rfl
  have hlog := hfresh false false 0 0 _ _ hrun (.transfer 8 (some 0) (some 0) 1) (by decide)
  exact hlog ⟨0, rfl, by decide⟩

end Neptune.Medium
