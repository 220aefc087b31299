import Neptune.Proofs.LockSafe

/-! How many times a task holds a lock, exclusively and shared, and what each call does to that.
A lock call adds one hold of its task or waits, an unlock call takes one away, and nobody
else's holds move. -/

namespace Neptune.PsdLockSem

variable {τ ι : Type} [DecidableEq τ] {p q : PsdLockSem τ} {t u v : τ}

def exclHeld (p : PsdLockSem τ) (u : τ) : ℕ := if p.owner = some u then p.exclLockCount else 0

def sharedHeld (p : PsdLockSem τ) (u : τ) : ℕ := ((p.readLock u).map (·.count)).getD 0

def held (p : PsdLockSem τ) (u : τ) : ℕ := p.exclHeld u + p.sharedHeld u

structure SameHolds (u : τ) (p q : PsdLockSem τ) : Prop where
  excl : q.exclHeld u = p.exclHeld u
  shared : q.sharedHeld u = p.sharedHeld u

structure Gained (u : τ) (e : Bool) (p q : PsdLockSem τ) : Prop where
  excl : q.exclHeld u = p.exclHeld u + if e then 1 else 0
  shared : q.sharedHeld u = p.sharedHeld u + if e then 0 else 1

theorem SameHolds.refl (u : τ) (p : PsdLockSem τ) : SameHolds u p p := ⟨rfl, rfl⟩

theorem SameHolds.held (h : SameHolds u p q) : q.held u = p.held u := by
  rw [PsdLockSem.held, PsdLockSem.held, h.excl, h.shared]

variable {e : Bool} {r : PsdReadLock τ}

theorem Gained.held (h : Gained u e p q) : q.held u = p.held u + 1 := by
  rw [PsdLockSem.held, PsdLockSem.held, h.excl, h.shared]
  cases e <;> simp <;> omega

theorem sharedHeld_of_mem (hc : p.Counted) (hr : r ∈ p.readLocks) :
    p.sharedHeld r.task = r.count := by
  rw [sharedHeld, readLock, Keyed.find_key hc.tasks hr]
  rfl

theorem sharedHeld_of_noRecord (h : p.NoRecord u) : p.sharedHeld u = 0 := by
  have hr : p.readLock u = none := by simpa [readLock, NoRecord] using h
  simp [sharedHeld, hr]

theorem noRecord_of_sharedHeld (hc : p.Counted) (h : p.sharedHeld u = 0) : p.NoRecord u := by
  rintro r hr rfl
  rw [sharedHeld_of_mem hc hr] at h
  exact absurd h (hc.count r hr).ne'

theorem exists_of_sharedHeld (h : 0 < p.sharedHeld u) :
    ∃ r ∈ p.readLocks, r.task = u ∧ r.count = p.sharedHeld u := by
  unfold sharedHeld at h ⊢
  cases hr : p.readLock u with
  | none => simp [hr] at h
  | some r =>
    obtain ⟨hm, ht⟩ := readLock_some hr
    exact ⟨r, hm, ht, rfl⟩

theorem exclHeld_pos_iff (hc : p.Counted) : 0 < p.exclHeld u ↔ p.owner = some u := by
  unfold exclHeld
  split
  · rename_i h
    simpa [h] using hc.excl_pos h
  · rename_i h
    simpa using h

theorem Frame.sharedHeld (h : Frame u p q) : q.sharedHeld u = p.sharedHeld u := by
  rw [PsdLockSem.sharedHeld, PsdLockSem.sharedHeld, h.readLock]

theorem exclHeld_congr (ho : q.owner = p.owner) (he : q.exclLockCount = p.exclLockCount) (u : τ) :
    q.exclHeld u = p.exclHeld u := by
  rw [exclHeld, exclHeld, ho, he]

theorem takeExcl_gained (hc : p.Counted) (ho : p.owner = none ∨ p.owner = some u)
    (hr : p.owner = some u → p.exclLockCount + 1 < 2 ^ 16) : Gained u true p (p.takeExcl u) := by
  refine ⟨?_, rfl⟩
  rcases ho with ho | ho
  · have h0 := hc.excl_zero ho
    simp [exclHeld, takeExcl, ho, h0, uword]
  · have := hr ho
    simp [exclHeld, takeExcl, ho, uword_of_lt this]

theorem takeExcl_others (ho : p.owner = none ∨ p.owner = some u) (hv : v ≠ u) :
    SameHolds v p (p.takeExcl u) := by
  refine ⟨?_, rfl⟩
  rcases ho with ho | ho <;> simp [exclHeld, takeExcl, ho, hv.symm]

theorem takeShared_gained (h : p.NoRecord u) : Gained u false p (p.takeShared u) := by
  refine ⟨exclHeld_congr rfl rfl u, ?_⟩
  rw [sharedHeld_of_noRecord h]
  simp [sharedHeld, readLock, takeShared]

theorem takeShared_others (hv : v ≠ u) : SameHolds v p (p.takeShared u) :=
  ⟨exclHeld_congr rfl rfl v, Frame.sharedHeld ⟨rfl, by simp [takeShared, hv.symm]⟩⟩

section

variable (hc : p.Counted) (hr : r ∈ p.readLocks)
include hc hr

theorem sharedHeld_setCount {n : ℕ}
    (hn : 0 < n) (hw : n < 2 ^ 16) : (p.setCount r.addr n).sharedHeld r.task = n := by
  have hm : { r with count := n } ∈ (p.setCount r.addr n).readLocks :=
    Keyed.mem_modify.mpr ⟨r, hr, by simp⟩
  exact sharedHeld_of_mem (hc.setCount r.addr hn hw) hm

theorem setCount_others (hv : v ≠ r.task) (n : ℕ) : SameHolds v p (p.setCount r.addr n) := by
  refine ⟨exclHeld_congr rfl rfl v, Frame.sharedHeld (.setCount n fun x hx ha => ?_)⟩
  rw [hc.addr_inj hx hr ha]
  exact hv.symm

theorem dropReadLock_others (hv : v ≠ r.task) : SameHolds v p (p.dropReadLock r.addr) := by
  refine ⟨exclHeld_congr rfl rfl v, Frame.sharedHeld (.dropReadLock fun x hx ha => ?_)⟩
  rw [hc.addr_inj hx hr ha]
  exact hv.symm

end

/-- What a call for `u` leaves: with the lock, one more hold of the kind `e` tells;
without it, the same lock but for the queue. -/
structure CallHeld (u : τ) (p : PsdLockSem τ) (r : PsdLockSem τ × Got) (e : Bool) : Prop where
  others : ∀ v ≠ u, SameHolds v p r.1
  locked : r.2 = .locked → Gained u e p r.1
  waits : ∀ e', r.2 = .wait e' → r.1.owner = p.owner ∧ r.1.exclLockCount = p.exclLockCount ∧
    r.1.readLocks = p.readLocks

theorem SameHolds.of_eq (ho : q.owner = p.owner) (he : q.exclLockCount = p.exclLockCount)
    (hr : q.readLocks = p.readLocks) (u : τ) : SameHolds u p q :=
  ⟨exclHeld_congr ho he u, by rw [sharedHeld, sharedHeld, readLock, readLock, hr]⟩

theorem CallHeld.of_setQueue {x : List (PsdReadLock τ)} {r : PsdLockSem τ × Got}
    (h : CallHeld u { p with waitQueue := x } r e) : CallHeld u p r e :=
  ⟨fun v hv => ⟨(h.others v hv).excl, (h.others v hv).shared⟩,
    fun hl => ⟨(h.locked hl).excl, (h.locked hl).shared⟩, h.waits⟩

theorem pLockSemExcl_held (hc : p.Counted) (hr : p.owner = some u → p.exclLockCount + 1 < 2 ^ 16) :
    CallHeld u p (p.pLockSemExcl u) true := by
  unfold pLockSemExcl
  split
  · rename_i hm
    have ho : p.owner = none ∨ p.owner = some u :=
      ((mayLockExcl_iff hc).mp hm).elim Or.inr fun h => Or.inl h.1
    exact ⟨fun v hv => takeExcl_others ho hv, fun _ => takeExcl_gained hc ho hr, by simp⟩
  · exact ⟨fun v _ => ⟨rfl, rfl⟩, by simp, fun _ _ => ⟨rfl, rfl, rfl⟩⟩

theorem sharedPass_held (hc : p.Counted) (hn : p.NoRecord u) (e : Bool) :
    CallHeld u p (p.sharedPass u e) e := by
  unfold sharedPass
  split
  · exact ⟨fun v _ => ⟨rfl, rfl⟩, by simp, fun _ _ => ⟨rfl, rfl, rfl⟩⟩
  · rename_i ho
    have ho : p.owner = none := by simpa using ho
    cases e
    · exact ⟨fun v hv => takeShared_others hv, fun _ => takeShared_gained hn, by simp⟩
    · refine ⟨fun v hv => takeExcl_others (Or.inl ho) hv, fun _ => ?_, by simp⟩
      exact takeExcl_gained hc (Or.inl ho) fun h => by rw [ho] at h; cases h

theorem pLockSemShared_held (hc : p.Counted) (hr : p.Room u 1 0) {mem : Bool}
    {r : PsdLockSem τ × Got} (hs : p.pLockSemShared u mem = some r) :
    CallHeld u p r (p.owner = some u) := by
  unfold pLockSemShared at hs
  split at hs
  · rename_i ho
    cases hs
    have hg := takeExcl_gained hc (Or.inr ho) hr.excl
    simp only [ho, decide_true]
    refine ⟨fun v hv => ?_, fun _ => ⟨?_, rfl⟩, by simp⟩
    · exact ⟨by simp [exclHeld, ho, hv.symm], rfl⟩
    · rw [← hg.excl]
      simp [exclHeld, takeExcl]
  · rename_i ho
    simp only [ho, decide_false]
    split at hs
    · rename_i prl hprl
      obtain ⟨hm, rfl⟩ := readLock_some hprl
      cases hs
      have h1 := hr.count ho prl hm rfl
      refine ⟨fun v hv => setCount_others hc hm hv _, fun _ => ⟨exclHeld_congr rfl rfl _, ?_⟩,
        by simp⟩
      rw [sharedHeld_setCount hc hm (by rw [uword_of_lt h1]; omega) (uword_lt _),
        sharedHeld_of_mem hc hm, uword_of_lt h1]
      rfl
    · rename_i hprl
      split at hs
      · cases hs
        exact sharedPass_held hc (readLock_none hprl) false
      · cases hs

theorem wake_held (hc : p.Counted)
    (hr : if e then p.Room u 0 1 else p.Room u 1 0) (hn : e = false → p.NoRecord u) :
    CallHeld u p (p.wake u e) (e || p.promoted u) := by
  unfold wake
  have hd : (p.dequeue u).Counted := hc.setQueue _
  cases e with
  | true => exact (pLockSemExcl_held hd hr.excl).of_setQueue
  | false => exact (sharedPass_held hd (hn rfl) _).of_setQueue

theorem pUnlockSem_others (hc : p.Counted) (hv : v ≠ u) : SameHolds v p (p.pUnlockSem u).1 := by
  unfold pUnlockSem
  split
  · rename_i o ho
    split
    · exact .refl v p
    · rename_i hou
      have hou : o = u := by simpa using hou
      subst hou
      split
      · exact ⟨by simp [exclHeld, ho, hv.symm], rfl⟩
      · exact ⟨by simp [exclHeld, ho, hv.symm], rfl⟩
  · split
    · exact .refl v p
    · split
      · exact .refl v p
      · rename_i prl hprl
        obtain ⟨hm, rfl⟩ := readLock_some hprl
        split
        · exact setCount_others hc hm hv _
        · exact dropReadLock_others hc hm hv

/-- The owner gives up an exclusive hold, a reader of a free lock a shared one. -/
structure Dropped (u : τ) (p q : PsdLockSem τ) : Prop where
  excl : q.exclHeld u = p.exclHeld u - 1
  shared : q.sharedHeld u = if p.owner = some u then p.sharedHeld u else p.sharedHeld u - 1

theorem pUnlockSem_dropped (hc : p.Counted)
    (h : p.owner = some u ∨ (p.owner = none ∧ ¬ p.NoRecord u)) :
    Dropped u p (p.pUnlockSem u).1 := by
  unfold pUnlockSem
  rcases h with ho | ⟨ho, hn⟩
  · have hpos := hc.excl_pos ho
    simp only [ho, ne_eq, not_true_eq_false, if_false]
    have hsub : usub p.exclLockCount 1 = p.exclLockCount - 1 := usub_of_le hpos hc.exclWord
    split
    · exact ⟨by simp [exclHeld, ho, hsub], by simp [ho]; rfl⟩
    · rename_i h0
      refine ⟨?_, by simp [ho]; rfl⟩
      simp only [exclHeld, ho, if_true]
      simp only [hsub, not_not] at h0
      simp [h0]
  · cases hprl : p.readLock u with
    | none => exact absurd (readLock_none hprl) hn
    | some prl =>
      obtain ⟨hm, rfl⟩ := readLock_some hprl
      have hs : p.sharedLockCount ≠ 0 := by
        rw [hc.shared]
        exact (List.length_pos_of_mem hm).ne'
      have hpos := hc.count prl hm
      have hsub : usub prl.count 1 = prl.count - 1 := usub_of_le hpos (hc.countWord prl hm)
      simp only [ho, hs, if_false]
      have hno : ¬ (none : Option τ) = some prl.task := by simp
      split
      · rename_i h0
        refine ⟨by simp [exclHeld, PsdLockSem.setCount, ho], ?_⟩
        rw [sharedHeld_setCount hc hm (Nat.pos_of_ne_zero h0) (usub_lt _ _), hsub,
          sharedHeld_of_mem hc hm, ho, if_neg hno]
      · rename_i h0
        refine ⟨by simp [exclHeld, PsdLockSem.dropReadLock, ho], ?_⟩
        rw [sharedHeld_of_noRecord (dropReadLock_noRecord hc hm), sharedHeld_of_mem hc hm, ho,
          if_neg hno]
        simp only [hsub, not_not] at h0
        exact h0.symm

theorem Dropped.held (h : Dropped u p q) (hc : p.Counted) (hpos : 0 < p.held u)
    (ho : p.owner = some u ∨ p.owner = none) : q.held u + 1 = p.held u := by
  unfold PsdLockSem.held at hpos ⊢
  rw [h.excl, h.shared]
  rcases ho with ho | ho
  · have := (exclHeld_pos_iff hc).mpr ho
    rw [if_pos ho]
    omega
  · have h0 : p.exclHeld u = 0 := by simp [exclHeld, ho]
    rw [ho, if_neg (by simp)]
    omega

theorem pUnlockSem_waitQueue (p : PsdLockSem τ) (u : τ) :
    (p.pUnlockSem u).1.waitQueue = p.waitQueue := by
  unfold pUnlockSem
  split
  · split
    · rfl
    · split <;> rfl
  · split
    · rfl
    · split
      · rfl
      · split <;> rfl

theorem pUnlockSem_refused (h1 : p.owner ≠ some u) (h2 : p.owner = none → p.NoRecord u) :
    (p.pUnlockSem u).1 = p := by
  unfold pUnlockSem
  split
  · rename_i o ho
    rw [if_pos (fun he => h1 (by rw [ho, he]))]
  · rename_i ho
    have hr : p.readLock u = none := by simpa [readLock, NoRecord] using h2 ho
    split
    · rfl
    · simp [hr]

end Neptune.PsdLockSem
