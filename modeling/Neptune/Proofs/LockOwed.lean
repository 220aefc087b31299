import Neptune.Proofs.LockLoan

/-! One lock between the loan and the lender's return: what is still owed to the lender, and what
a lock or unlock call of any task does to that. -/

namespace Neptune.PsdLockSem

open List

variable {τ ι : Type} [DecidableEq τ] {p q : PsdLockSem τ} {t task u v : τ} {l : ι}
  {e c a : ℕ} {F : Prop}

/-- A lock call of `u` that went from `p` to `r`; `w` tells that it woke up promoted. -/
structure Call (u : τ) (w : Bool) (p : PsdLockSem τ) (r : PsdLockSem τ × Got) : Prop where
  counted : r.1.Counted
  ok : p.Ok → (w = true → p.owner ≠ none) → r.1.Ok
  frame : ∀ v ≠ u, Frame v p r.1
  held : ∃ e, CallHeld u p r e ∧ (p.owner = some u → r.2 = .locked → e = true)
  keeps : ∀ x ∈ p.readLocks, ∃ y ∈ r.1.readLocks, y.addr = x.addr ∧ y.task = x.task
  leaves : r.2 = .locked → r.1.queued u = false
  waits : r.2 = .wait false → r.1.WaitsOn u ∧ (w = false → r.1.promoted u = false)

theorem queued_of_not_promoted (h : p.queued u = false) : p.promoted u = false := by
  simp only [queued, any_eq_false, decide_eq_true_eq] at h
  simp only [promoted, any_eq_false, Bool.and_eq_true, decide_eq_true_eq, not_and]
  exact fun r hr ht => absurd ht (h r hr)

theorem dequeue_queued (p : PsdLockSem τ) (u : τ) : (p.dequeue u).queued u = false := by
  simp only [queued, dequeue, any_eq_false, Keyed.mem_drop, decide_eq_true_eq]
  exact fun r hr => hr.2

theorem pLockSemExcl_keeps (p : PsdLockSem τ) (u : τ) :
    (p.pLockSemExcl u).1.readLocks = p.readLocks := by
  unfold pLockSemExcl; split <;> rfl

theorem pLockSemExcl_leaves (hq : p.queued u = false) (h : (p.pLockSemExcl u).2 = .locked) :
    (p.pLockSemExcl u).1.queued u = false := by
  unfold pLockSemExcl at h ⊢
  split at h
  · rename_i hm
    rw [if_pos hm]
    exact hq
  · cases h

theorem sharedPass_leaves {e : Bool} (hq : p.queued u = false)
    (h : (p.sharedPass u e).2 = .locked) : (p.sharedPass u e).1.queued u = false := by
  unfold sharedPass at h ⊢
  split at h
  · cases h
  · rename_i ho
    rw [if_neg ho]
    split <;> exact hq

theorem sharedPass_promoted {e : Bool} (hq : p.queued u = false)
    (h : (p.sharedPass u e).2 = .wait false) : (p.sharedPass u e).1.promoted u = e := by
  have hp := queued_of_not_promoted hq
  unfold sharedPass at h ⊢
  split at h
  · rename_i ho
    rw [if_pos ho]
    simp only [promoted] at hp ⊢
    rw [any_append, hp]
    simp
  · split at h <;> cases h

theorem Call.pLockSemExcl (hc : p.Counted) (hq : p.queued u = false)
    (hr : p.owner = some u → p.exclLockCount + 1 < 2 ^ 16) :
    Call u false p (p.pLockSemExcl u) where
  counted := hc.pLockSemExcl hr
  ok h _ := ⟨h.mutex.pLockSemExcl hc, hc.pLockSemExcl hr⟩
  frame _ hv := .pLockSemExcl hv.symm
  held := ⟨true, pLockSemExcl_held hc hr, fun _ _ => rfl⟩
  keeps x hx := ⟨x, by rwa [pLockSemExcl_keeps], rfl, rfl⟩
  leaves := pLockSemExcl_leaves hq
  waits hw := absurd (pLockSemExcl_wait hw) (by simp)

variable {ks : List Bool} {r : PsdLockSem τ × Got}

theorem Call.pLockSemShared (hc : p.Counted) (hq : p.queued u = false) (hr : p.Room u 1 0)
    {mem : Bool} (hs : p.pLockSemShared u mem = some r) :
    Call u false p r where
  counted := hc.pLockSemShared hr hs
  ok h _ := ⟨h.mutex.pLockSemShared hs, hc.pLockSemShared hr hs⟩
  frame _ hv := .pLockSemShared hc hv.symm hs
  held := ⟨_, pLockSemShared_held hc hr hs, fun ho _ => by simpa using ho⟩
  keeps x hx := by
    unfold PsdLockSem.pLockSemShared at hs
    split at hs
    · cases hs; exact ⟨x, hx, rfl, rfl⟩
    · split at hs
      · cases hs
        refine ⟨_, Keyed.mem_modify.mpr ⟨x, hx, rfl⟩, ?_, ?_⟩ <;> split <;> rfl
      · split at hs
        · cases hs; exact ⟨x, sharedPass_keeps p u false x hx, rfl, rfl⟩
        · cases hs
  leaves hl := by
    unfold PsdLockSem.pLockSemShared at hs
    split at hs
    · cases hs; exact hq
    · split at hs
      · cases hs; exact hq
      · split at hs
        · cases hs; exact sharedPass_leaves hq hl
        · cases hs
  waits hw := by
    unfold PsdLockSem.pLockSemShared at hs
    split at hs
    · cases hs; cases hw
    · split at hs
      · cases hs; cases hw
      · rename_i hprl
        split at hs
        · cases hs
          exact ⟨sharedPass_waitsOn (readLock_none hprl) hw,
            fun _ => sharedPass_promoted hq hw⟩
        · cases hs

theorem Call.wake (hc : p.Counted) {e : Bool}
    (hr : if e then p.Room u 0 1 else p.Room u 1 0) (hn : e = false → p.NoRecord u) :
    Call u (!e && p.promoted u) p (p.wake u e) where
  counted := hc.wake hr hn
  ok h hw := by
    refine ⟨h.mutex.wake hc fun he hp ho => ?_, hc.wake hr hn⟩
    exact absurd ho (hw (by simp [he, hp]))
  frame _ hv := .wake hv.symm e
  held := by
    refine ⟨_, wake_held hc hr hn, fun ho hl => ?_⟩
    cases e with
    | true => rfl
    | false =>
      -- an owner does not get past the loop
      simp only [PsdLockSem.wake, Bool.false_eq_true, if_false, sharedPass, dequeue, ho,
        Option.isSome_some, if_true] at hl
      cases hl
  keeps x hx := by
    unfold PsdLockSem.wake
    split
    · exact ⟨x, by rw [pLockSemExcl_keeps]; exact hx, rfl, rfl⟩
    · exact ⟨x, sharedPass_keeps _ _ _ x hx, rfl, rfl⟩
  leaves hl := by
    unfold PsdLockSem.wake at hl ⊢
    split at hl
    · rename_i he
      rw [if_pos he]
      exact pLockSemExcl_leaves (dequeue_queued p u) hl
    · rename_i he
      rw [if_neg he]
      exact sharedPass_leaves (dequeue_queued p u) hl
  waits hw := by
    unfold PsdLockSem.wake at hw ⊢
    cases e with
    | true => exact absurd (pLockSemExcl_wait hw) (by simp)
    | false =>
      have hnd : (p.dequeue u).NoRecord u := hn rfl
      rw [if_neg (by simp)] at hw ⊢
      refine ⟨sharedPass_waitsOn hnd hw, fun hp => ?_⟩
      rw [sharedPass_promoted (dequeue_queued p u) hw]
      simpa using hp

/-- `ks` are the lock calls for the lock that the lender still has to make, `e` and `c` what it
held: it holds the rest already, or everything has to come back exclusively, because there was no
memory for a record. -/
inductive Owed (F : Prop) (e c : ℕ) (t : τ) (p : PsdLockSem τ) : List Bool → Prop
  | asBefore {n m : ℕ} : p.sharedHeld t + n = c → p.exclHeld t + m = e →
      (0 < n → p.exclHeld t = 0) → Owed F e c t p (List.replicate n false ++ List.replicate m true)
  | exclusive {ks : List Bool} : F → p.sharedHeld t = 0 → p.exclHeld t + ks.length = e + c →
      (0 < p.exclHeld t ∨ ks.head? = some true) → Owed F e c t p ks

theorem Owed.same (h : Owed F e c t p ks) (hs : SameHolds t p q) :
    Owed F e c t q ks := by
  cases h with
  | asBefore h1 h2 h3 =>
    refine .asBefore (by rwa [hs.shared]) (by rwa [hs.excl]) (by rwa [hs.excl])
  | exclusive f h1 h2 h3 =>
    exact .exclusive f (by rwa [hs.shared]) (by rwa [hs.excl]) (by rwa [hs.excl])

theorem Owed.mono {G : Prop} (h : Owed F e c t p ks) (hFG : F → G) :
    Owed G e c t p ks := by
  cases h with
  | asBefore h1 h2 h3 => exact .asBefore h1 h2 h3
  | exclusive f h1 h2 h3 => exact .exclusive (hFG f) h1 h2 h3

theorem Owed.excl (h : Owed F e c t p (true :: ks)) (hg : Gained t true p q) :
    Owed F e c t q ks := by
  have h1 := hg.excl
  have h2 := hg.shared
  simp only [if_true, Nat.add_zero] at h1 h2
  generalize hk : true :: ks = k at h
  cases h with
  | @asBefore n m g1 g2 g3 =>
    cases n with
    | succ n => simp [replicate_succ] at hk
    | zero =>
      cases m with
      | zero => simp at hk
      | succ m =>
        have hks : ks = replicate 0 false ++ replicate m true := by
          simpa [replicate_succ] using hk
        rw [hks]
        exact .asBefore (by omega) (by omega) (by simp)
  | exclusive f g1 g2 g3 =>
    subst hk
    simp only [length_cons] at g2
    exact .exclusive f (by omega) (by omega) (Or.inl (by omega))

theorem Owed.shared {x : Bool} (h : Owed F e c t p (false :: ks))
    (hg : Gained t x p q) (hx : x = true ↔ 0 < p.exclHeld t) : Owed F e c t q ks := by
  have h1 := hg.excl
  have h2 := hg.shared
  generalize hk : false :: ks = k at h
  cases h with
  | @asBefore n m g1 g2 g3 =>
    cases n with
    | zero =>
      cases m with
      | zero => simp at hk
      | succ m => simp [replicate_succ] at hk
    | succ n =>
      have h0 := g3 (by omega)
      have hx : x = false := by simpa [h0] using hx
      subst hx
      simp only [Bool.false_eq_true, if_false, Nat.add_zero] at h1 h2
      have hks : ks = replicate n false ++ replicate m true := by
        simpa [replicate_succ] using hk
      rw [hks]
      exact .asBefore (by omega) (by omega) (fun _ => by omega)
  | exclusive f g1 g2 g3 =>
    subst hk
    have hpos : 0 < p.exclHeld t := by simpa using g3
    have hx := hx.mpr hpos
    subst hx
    simp only [if_true, Nat.add_zero] at h1 h2
    simp only [length_cons] at g2
    exact .exclusive f (by omega) (by omega) (Or.inl (by omega))

theorem Owed.fallBack (h : Owed F e c t p (false :: ks)) (f : F)
    (h0 : p.sharedHeld t = 0) : Owed F e c t p (true :: ks) := by
  generalize hk : false :: ks = k at h
  cases h with
  | @asBefore n m g1 g2 g3 =>
    have hlen := congrArg length hk
    simp only [length_cons, length_append, length_replicate] at hlen
    exact .exclusive f h0 (by simp only [length_cons]; omega) (Or.inr rfl)
  | exclusive _ g1 g2 _ =>
    subst hk
    exact .exclusive f h0 g2 (Or.inr rfl)

theorem Owed.done (h : Owed F e c t p []) :
    (p.exclHeld t = e ∧ p.sharedHeld t = c) ∨
      (F ∧ p.exclHeld t = e + c ∧ p.sharedHeld t = 0) := by
  generalize hk : ([] : List Bool) = k at h
  cases h with
  | @asBefore n m g1 g2 g3 =>
    have hlen := congrArg length hk
    simp only [length_nil, length_append, length_replicate] at hlen
    exact Or.inl ⟨by omega, by omega⟩
  | exclusive f g1 g2 _ =>
    subst hk
    exact Or.inr ⟨f, by simpa using g2, g1⟩

theorem Lent.call {w : Bool} (h : Lent t task e c a p) (hc : p.Counted)
    (hr : Call u w p r) (hu : u ≠ t) : Lent t task e c a r.1 := by
  obtain ⟨x, hh, hx⟩ := hr.held
  have ht := hh.others t hu.symm
  have hkeep (hpos : 0 < c) : ∃ y ∈ r.1.readLocks, y.addr = a ∧ y.task = task := by
    obtain ⟨-, y, hy, hya, hyt⟩ := h.shared hpos
    obtain ⟨z, hz, hza, hzt⟩ := hr.keeps y hy
    exact ⟨z, hz, hza.trans hya, hzt.trans hyt⟩
  have key : p.exclHeld task ≤ r.1.exclHeld task ∧ p.sharedHeld task ≤ r.1.sharedHeld task ∧
      (0 < p.exclHeld task → r.1.sharedHeld task = p.sharedHeld task) := by
    by_cases hut : u = task
    · subst hut
      cases hg : r.2 with
      | locked =>
        have hgain := hh.locked hg
        refine ⟨by rw [hgain.excl]; omega, by rw [hgain.shared]; omega, fun hpos => ?_⟩
        rw [hgain.shared, hx ((exclHeld_pos_iff hc).mp hpos) hg]
        rfl
      | wait e' =>
        obtain ⟨h1, h2, h3⟩ := hh.waits e' hg
        have hs := SameHolds.of_eq h1 h2 h3 u
        exact ⟨hs.excl.ge, hs.shared.ge, fun _ => hs.shared⟩
    · have hs := hh.others task (Ne.symm hut)
      exact ⟨hs.excl.ge, hs.shared.ge, fun _ => hs.shared⟩
  refine ⟨ht.excl.trans h.noExcl, ht.shared.trans h.noShared, fun he => ?_, fun hpos => ?_⟩
  · obtain ⟨hle, hsh⟩ := h.excl he
    exact ⟨hle.trans key.1, (key.2.2 (he.trans_le hle)).trans hsh⟩
  · exact ⟨(h.shared hpos).1.trans key.2.1, hkeep hpos⟩

theorem Lent.pUnlockSem (h : Lent t task e c a p) (hok : p.Ok) (hu : u ≠ t)
    (hown : u = task → e + c < p.held task) : Lent t task e c a (p.pUnlockSem u).1 := by
  have hc := hok.counted
  have hcu := hc.pUnlockSem (t := u)
  have ht := pUnlockSem_others (u := u) hc hu.symm
  by_cases hut : u = task
  · subst hut
    have hlt := hown rfl
    by_cases ho : p.owner = some u
    · have hd := pUnlockSem_dropped hc (Or.inl ho)
      have hxs := hd.shared
      rw [if_pos ho] at hxs
      refine ⟨ht.excl.trans h.noExcl, ht.shared.trans h.noShared, fun he => ?_, fun hpos => ?_⟩
      · obtain ⟨hle, hsh⟩ := h.excl he
        rw [hd.excl, hxs]
        unfold held at hlt
        exact ⟨by omega, hsh⟩
      · obtain ⟨hle, y, hy, hya, hyt⟩ := h.shared hpos
        refine ⟨hle.trans hxs.ge, ?_⟩
        unfold PsdLockSem.pUnlockSem
        simp only [ho, ne_eq, not_true_eq_false, if_false]
        split <;> exact ⟨y, hy, hya, hyt⟩
    · have hx0 : p.exclHeld u = 0 := by
        by_contra hne
        exact ho ((exclHeld_pos_iff hc).mp (Nat.pos_of_ne_zero hne))
      have he0 : e = 0 := by
        by_contra hne
        have := (h.excl (Nat.pos_of_ne_zero hne)).1
        omega
      subst he0
      have hshp : c < p.sharedHeld u := by
        unfold held at hlt
        omega
      obtain ⟨y, hpy, hy, hyt, hyc⟩ := readLock_isSome hc (by omega : 0 < p.sharedHeld u)
      have hfree : p.owner = none := by
        cases hown' : p.owner with
        | none => rfl
        | some o =>
          have := hok.mutex o hown' y hy
          exact absurd (by rw [hown', ← this, hyt]) ho
      have hd := pUnlockSem_dropped hc
        (Or.inr ⟨hfree, fun hn => hn y hy hyt⟩ : p.owner = some u ∨ _)
      have hxs := hd.shared
      rw [if_neg ho] at hxs
      refine ⟨ht.excl.trans h.noExcl, ht.shared.trans h.noShared, fun he => absurd he (by simp),
        fun hpos => ⟨by omega, ?_⟩⟩
      obtain ⟨-, z, hz, hza, hzt⟩ := h.shared hpos
      obtain rfl : y = z := hc.task_inj hy hz (hyt.trans hzt.symm)
      have hsub : usub y.count 1 = y.count - 1 :=
        usub_of_le (hc.count y hy) (hc.countWord y hy)
      have hne : usub y.count 1 ≠ 0 := by omega
      unfold PsdLockSem.pUnlockSem
      simp only [hfree, hc.shared_ne_zero hy, if_false, hpy, hne, ne_eq, not_false_eq_true, if_true]
      exact ⟨_, Keyed.mem_modify.mpr ⟨y, hy, rfl⟩, by simpa using hza, by simpa using hzt⟩
  · have hs := pUnlockSem_others (u := u) hc (Ne.symm hut)
    refine ⟨ht.excl.trans h.noExcl, ht.shared.trans h.noShared, fun he => ?_, fun hpos => ?_⟩
    · rw [hs.excl, hs.shared]
      exact h.excl he
    · rw [hs.shared]
      obtain ⟨hle, y, hy, hya, hyt⟩ := h.shared hpos
      have hf := (Frame.pUnlockSem (t := u) hc hut).records
      have hmem : y ∈ (p.pUnlockSem u).1.readLocks.filter (·.task = task) := by
        rw [hf]
        exact mem_filter.mpr ⟨hy, by simpa using hyt⟩
      exact ⟨hle, y, (mem_filter.mp hmem).1, hya, hyt⟩

end Neptune.PsdLockSem
