import Neptune.Proofs.LockHeld

/-! One lock over a loan: what the holds of lender and target are when the lock has been lent,
and when it has been taken back. -/

namespace Neptune.PsdLockSem

open List Keyed

variable {τ ι : Type} [DecidableEq τ] {p q : PsdLockSem τ} {t task u v : τ} {l : ι} {e c a : ℕ}

def exclEntry (l : ι) (e : ℕ) : List (PsdBorrowLock ι) := if e = 0 then [] else [⟨l, e, 0, 0⟩]

def sharedEntry (l : ι) (c a : ℕ) : List (PsdBorrowLock ι) := if c = 0 then [] else [⟨l, 0, c, a⟩]

/-- The lender's `e` and `c` holds are with the target: all of its shared holds where the
ownership has moved as well, else in its record at `a`. -/
structure Lent (t task : τ) (e c a : ℕ) (p : PsdLockSem τ) : Prop where
  noExcl : p.exclHeld t = 0
  noShared : p.sharedHeld t = 0
  excl : 0 < e → e ≤ p.exclHeld task ∧ p.sharedHeld task = c
  shared : 0 < c → c ≤ p.sharedHeld task ∧ ∃ r ∈ p.readLocks, r.addr = a ∧ r.task = task

theorem readLock_isSome (hc : p.Counted) (h : 0 < p.sharedHeld t) :
    ∃ r, p.readLock t = some r ∧ r ∈ p.readLocks ∧ r.task = t ∧ r.count = p.sharedHeld t := by
  cases hr : p.readLock t with
  | none => simp [sharedHeld, hr] at h
  | some r =>
    obtain ⟨hm, rfl⟩ := readLock_some hr
    exact ⟨r, rfl, hm, rfl, (sharedHeld_of_mem hc hm).symm⟩

theorem readLock_eq_none (hc : p.Counted) (h : p.sharedHeld t = 0) : p.readLock t = none := by
  have := noRecord_of_sharedHeld hc h
  simpa [readLock, NoRecord] using this

theorem lendExcl_handed (hc : p.Counted) (hq : p.queued task = true) :
    (lendExcl t task true l p .empty).2 = ⟨[], exclEntry l (p.exclHeld t)⟩ ∧
      (lendExcl t task true l p .empty).1.exclHeld t = 0 ∧
      (∀ v ≠ t, (lendExcl t task true l p .empty).1.exclHeld v = p.exclHeld v) ∧
      (p.exclHeld t = 0 → (lendExcl t task true l p .empty).1 = p) := by
  unfold lendExcl
  by_cases ho : p.owner = some t
  · have hpos := hc.excl_pos ho
    simp only [ho, hq, if_true]
    refine ⟨?_, by simp [exclHeld], fun v hv => by simp [exclHeld, ho, hv.symm], fun h0 => ?_⟩
    · simp [exclEntry, exclHeld, ho, hpos.ne', Borrow.empty]
    · simp [exclHeld, ho] at h0
      omega
  · simp [ho, exclHeld, exclEntry, Borrow.empty]

theorem lendExcl_moved (hc : p.Counted) (hne : task ≠ t) (hq : p.queued task = false) :
    (lendExcl t task true l p .empty).2 = ⟨exclEntry l (p.exclHeld t), []⟩ ∧
      (lendExcl t task true l p .empty).1.exclHeld t = 0 ∧
      (∀ v ≠ t, (lendExcl t task true l p .empty).1.exclHeld v =
        p.exclHeld v + if v = task then p.exclHeld t else 0) ∧
      (lendExcl t task true l p .empty).1.waitQueue = p.waitQueue := by
  unfold lendExcl
  by_cases ho : p.owner = some t
  · have hpos := hc.excl_pos ho
    simp only [ho, hq, Bool.false_eq_true, if_false, if_true]
    refine ⟨by simp [exclEntry, exclHeld, ho, hpos.ne', Borrow.empty], by simp [exclHeld, hne],
      fun v hv => ?_, trivial⟩
    by_cases hvt : v = task
    · subst hvt
      simp [exclHeld, ho, hne.symm]
    · simp [exclHeld, ho, hv.symm, hvt, Ne.symm hvt]
  · simp [ho, exclHeld, exclEntry, Borrow.empty]

theorem promoted_of_toHead (h : (p.toHead task false).promoted u = true) : p.promoted u = true := by
  unfold toHead at h
  split at h
  · exact h
  · rename_i r hr
    simp only [promoted, any_cons, Bool.or_false, Bool.or_eq_true, any_eq_true] at h ⊢
    rcases h with h | ⟨x, hx, h⟩
    · exact ⟨r, mem_of_find?_eq_some hr, h⟩
    · exact ⟨x, (mem_drop.mp hx).1, h⟩

theorem sharedHeld_congr (h : q.readLocks = p.readLocks) (u : τ) :
    q.sharedHeld u = p.sharedHeld u := by
  rw [sharedHeld, sharedHeld, readLock, readLock, h]

theorem lendShared_handed (hc : p.Counted) (hq : p.queued task = true) (b : Borrow ι) :
    (∃ a, (lendShared t task true l p b).2 =
        ⟨b.borrows, sharedEntry l (p.sharedHeld t) a ++ b.reclaims⟩) ∧
      (lendShared t task true l p b).1.sharedHeld t = 0 ∧
      (∀ v ≠ t, SameHolds v p (lendShared t task true l p b).1) ∧
      (lendShared t task true l p b).1.owner = p.owner ∧
      (lendShared t task true l p b).1.exclLockCount = p.exclLockCount := by
  by_cases h0 : p.sharedHeld t = 0
  · rw [lendShared_of_noRecord (noRecord_of_sharedHeld hc h0)]
    exact ⟨⟨0, by simp [sharedEntry, h0]⟩, h0, fun v _ => .refl v p, rfl, rfl⟩
  · obtain ⟨r, hr, hm, rfl, hcnt⟩ := readLock_isSome hc (Nat.pos_of_ne_zero h0)
    have hct : (p.toHead task false).Counted := hc.toHead task false
    have hmt : r ∈ (p.toHead task false).readLocks := by rwa [toHead_readLocks]
    have he : (p.toHead task false).exclLockCount = p.exclLockCount := by
      unfold toHead; split <;> rfl
    have hres : lendShared r.task task true l p b =
        ((p.toHead task false).dropReadLock r.addr,
          { b with reclaims := ⟨l, 0, r.count, r.addr⟩ :: b.reclaims }) := by
      simp [lendShared, hc.shared_ne_zero hm, hr, hq]
    rw [hres]
    refine ⟨⟨r.addr, by simp [sharedEntry, ← hcnt, (hc.count r hm).ne']⟩, ?_, fun v hv => ?_,
      toHead_owner p task false, he⟩
    · exact sharedHeld_of_noRecord (dropReadLock_noRecord hct hmt)
    · have hd := dropReadLock_others hct hmt hv
      exact ⟨hd.excl.trans (exclHeld_congr (toHead_owner p task false) he v),
        hd.shared.trans (sharedHeld_congr (toHead_readLocks p task false) v)⟩

theorem lendShared_moved (hc : p.Counted) (hne : task ≠ t) (hq : p.queued task = false)
    (hm : p.MergeRoom t task) (b : Borrow ι) :
    ∃ a, (lendShared t task true l p b).2 =
        ⟨b.borrows ++ sharedEntry l (p.sharedHeld t) a, b.reclaims⟩ ∧
      (lendShared t task true l p b).1.sharedHeld t = 0 ∧
      (∀ v ≠ t, (lendShared t task true l p b).1.sharedHeld v =
        p.sharedHeld v + if v = task then p.sharedHeld t else 0) ∧
      (0 < p.sharedHeld t → ∃ r ∈ (lendShared t task true l p b).1.readLocks,
        r.addr = a ∧ r.task = task) ∧
      (lendShared t task true l p b).1.owner = p.owner ∧
      (lendShared t task true l p b).1.exclLockCount = p.exclLockCount ∧
      (lendShared t task true l p b).1.waitQueue = p.waitQueue := by
  by_cases h0 : p.sharedHeld t = 0
  · rw [lendShared_of_noRecord (noRecord_of_sharedHeld hc h0), h0]
    exact ⟨0, by simp [sharedEntry], rfl, fun v _ => by simp, by simp, rfl, rfl, rfl⟩
  · obtain ⟨r, hr, hrm, rfl, hcnt⟩ := readLock_isSome hc (Nat.pos_of_ne_zero h0)
    have hs := hc.shared_ne_zero hrm
    have hpos := hc.count r hrm
    by_cases h2 : p.sharedHeld task = 0
    · -- the record is renamed
      have hr2 := readLock_eq_none hc h2
      have hres : lendShared r.task task true l p b =
          (p.setTask r.addr task,
            { b with borrows := b.borrows ++ [⟨l, 0, r.count, r.addr⟩] }) := by
        simp [lendShared, hs, hr, hq, hr2]
      have hct : (p.setTask r.addr task).Counted :=
        hc.setTask hrm fun x hx _ => noRecord_of_sharedHeld hc h2 x hx
      have hin : { r with task := task } ∈ (p.setTask r.addr task).readLocks :=
        mem_modify.mpr ⟨r, hrm, by simp⟩
      rw [hres]
      refine ⟨r.addr, by simp [sharedEntry, ← hcnt, hpos.ne'], ?_, fun v hv => ?_,
        fun _ => ⟨_, hin, rfl, rfl⟩, rfl, rfl, rfl⟩
      · refine sharedHeld_of_noRecord fun x hx he => ?_
        obtain ⟨x', hx', rfl⟩ := mem_modify.mp hx
        split at he
        · exact hne he
        · rename_i hk
          exact hk (by rw [hc.task_inj hx' hrm he])
      · by_cases hvt : v = task
        · subst hvt
          rw [h2, if_pos rfl, ← hcnt, Nat.zero_add]
          exact sharedHeld_of_mem hct hin
        · rw [if_neg hvt, Nat.add_zero]
          refine Frame.sharedHeld (.setTask (Ne.symm hvt) fun x hx ha => ?_)
          rw [hc.addr_inj hx hrm ha]
          exact hv.symm
    · -- the record goes into the target's
      obtain ⟨r2, hr2, hrm2, rfl, hcnt2⟩ := readLock_isSome hc (Nat.pos_of_ne_zero h2)
      have hroom := hm r hrm r2 hrm2 rfl rfl
      have hres : lendShared r.task r2.task true l p b =
          ((p.dropReadLock r.addr).setCount r2.addr (uword (r2.count + r.count)),
            { b with borrows := b.borrows ++ [⟨l, 0, r.count, r2.addr⟩] }) := by
        simp [lendShared, hs, hr, hq, hr2]
      have hcd : (p.dropReadLock r.addr).Counted := hc.dropReadLock hrm
      have hmd : r2 ∈ (p.dropReadLock r.addr).readLocks :=
        mem_drop.mpr ⟨hrm2, fun ha => hne (by rw [hc.addr_inj hrm2 hrm ha])⟩
      rw [hres, uword_of_lt hroom]
      refine ⟨r2.addr, by simp [sharedEntry, ← hcnt, hpos.ne'], ?_, fun v hv => ?_,
        fun _ => ⟨_, mem_modify.mpr ⟨r2, hmd, rfl⟩, by simp, by simp⟩, rfl, rfl, rfl⟩
      · rw [(setCount_others hcd hmd hne.symm _).shared]
        exact sharedHeld_of_noRecord (dropReadLock_noRecord hc hrm)
      · by_cases hvt : v = r2.task
        · subst hvt
          rw [if_pos rfl, ← hcnt, ← hcnt2]
          exact sharedHeld_setCount hcd hmd (by omega) hroom
        · rw [if_neg hvt, Nat.add_zero, (setCount_others hcd hmd hvt _).shared,
            (dropReadLock_others hc hrm hv).shared]

theorem lend_handed (hc : p.Counted) (hq : p.queued task = true) :
    (∃ a, (lend t task true true l p .empty).2 =
        ⟨[], sharedEntry l (p.sharedHeld t) a ++ exclEntry l (p.exclHeld t)⟩) ∧
      (lend t task true true l p .empty).1.exclHeld t = 0 ∧
      (lend t task true true l p .empty).1.sharedHeld t = 0 ∧
      ∀ v ≠ t, SameHolds v p (lend t task true true l p .empty).1 := by
  obtain ⟨h1, h2, h3, -⟩ := lendExcl_handed (t := t) (l := l) hc hq
  have hr : (lendExcl t task true l p .empty).1.readLocks = p.readLocks :=
    lendExcl_readLocks p .empty
  have hs (v : τ) := sharedHeld_congr hr v
  have hce : (lendExcl t task true l p .empty).1.Counted := hc.lendExcl .empty
  obtain ⟨⟨a, g1⟩, g2, g3, g4, g5⟩ := lendShared_handed (t := t) (l := l) hce
    ((lendExcl_queued p .empty).trans hq) (lendExcl t task true l p .empty).2
  unfold lend
  dsimp only
  refine ⟨⟨a, ?_⟩, ?_, g2, fun v hv => ⟨?_, ?_⟩⟩
  · rw [g1, h1, hs]
  · rw [exclHeld_congr g4 g5, h2]
  · rw [exclHeld_congr g4 g5, h3 v hv]
  · rw [(g3 v hv).shared, hs]

theorem lend_moved_holds (h : p.Ok) (hne : task ≠ t) (hq : p.queued task = false)
    (hm : p.MergeRoom t task) :
    ∃ a, (lend t task true true l p .empty).2 =
        ⟨exclEntry l (p.exclHeld t) ++ sharedEntry l (p.sharedHeld t) a, []⟩ ∧
      Lent t task (p.exclHeld t) (p.sharedHeld t) a (lend t task true true l p .empty).1 ∧
      (∀ v ≠ t, (lend t task true true l p .empty).1.held v =
        p.held v + if v = task then p.held t else 0) ∧
      (lend t task true true l p .empty).1.waitQueue = p.waitQueue := by
  have hc := h.counted
  obtain ⟨h1, h2, h3, h4⟩ := lendExcl_moved (t := t) (l := l) hc hne hq
  have hr : (lendExcl t task true l p .empty).1.readLocks = p.readLocks :=
    lendExcl_readLocks p .empty
  have hs (v : τ) := sharedHeld_congr hr v
  have hce : (lendExcl t task true l p .empty).1.Counted := hc.lendExcl .empty
  obtain ⟨a, g1, g2, g3, g4, g5, g6, g7⟩ := lendShared_moved (t := t) (l := l) hce hne
    ((lendExcl_queued p .empty).trans hq) (by unfold MergeRoom; rwa [hr])
    (lendExcl t task true l p .empty).2
  rw [hs] at g1 g3 g4
  have he (v : τ) := exclHeld_congr g5 g6 v
  unfold lend
  dsimp only
  refine ⟨a, ?_, ⟨?_, g2, fun hpos => ⟨?_, ?_⟩, fun hpos => ⟨?_, g4 hpos⟩⟩, fun v hv => ?_,
    g7.trans h4⟩
  · rw [g1, h1]
  · rw [he, h2]
  · rw [he, h3 task hne, if_pos rfl]
    omega
  · -- the owner's lock has no record of another
    have ho := (exclHeld_pos_iff hc).mp hpos
    have h0 : p.sharedHeld task = 0 := by
      refine sharedHeld_of_noRecord fun r hr hrt => hne ?_
      rw [← hrt, h.mutex t ho r hr]
    rw [g3 task hne, hs, h0, if_pos rfl, Nat.zero_add]
  · rw [g3 task hne, if_pos rfl]
    omega
  · rw [held, he, h3 v hv, g3 v hv, hs, held, held]
    split <;> omega

theorem takeBack_excl_holds (hc : p.Counted) (hne : task ≠ t) (he : 0 < e)
    (hle : e ≤ p.exclHeld task) (rs : List (PsdBorrowLock ι)) :
    (takeBack t task ⟨l, e, 0, 0⟩ p rs).1.readLocks = p.readLocks ∧
      (∀ v ≠ t, (takeBack t task ⟨l, e, 0, 0⟩ p rs).1.exclHeld v =
        p.exclHeld v - if v = task then e else 0) ∧
      ∃ m, (takeBack t task ⟨l, e, 0, 0⟩ p rs).2 = rs ++ exclEntry l m ∧
        (takeBack t task ⟨l, e, 0, 0⟩ p rs).1.exclHeld t + m = e ∧
        ((m = 0 ∧ (takeBack t task ⟨l, e, 0, 0⟩ p rs).1.owner = some t) ∨
          (m = e ∧ (takeBack t task ⟨l, e, 0, 0⟩ p rs).1.owner = some task)) := by
  have ho := (exclHeld_pos_iff hc).mp (he.trans_le hle)
  have hx : p.exclHeld task = p.exclLockCount := by simp [exclHeld, ho]
  rw [hx] at hle
  by_cases hw : e = p.exclLockCount
  · rw [takeBack_whole he.ne' hw]
    refine ⟨rfl, fun v hv => ?_, 0, by simp [exclEntry], by simp [exclHeld, hw], Or.inl ⟨rfl, rfl⟩⟩
    by_cases hvt : v = task
    · subst hvt
      simp [exclHeld, hne.symm, ho, hw]
    · simp [exclHeld, hv.symm, ho, hvt, Ne.symm hvt]
  · rw [takeBack_part he.ne' hw]
    refine ⟨rfl, fun v hv => ?_, e, by simp [exclEntry, he.ne'], ?_, Or.inr ⟨rfl, ho⟩⟩
    · by_cases hvt : v = task
      · subst hvt
        simp only [exclHeld, ho, if_true]
        exact usub_of_le hle hc.exclWord
      · simp [exclHeld, ho, hvt, Ne.symm hvt]
    · simp [exclHeld, ho, hne]

theorem takeBack_shared_holds (hc : p.Counted) (hne : task ≠ t) (hpos : 0 < c)
    (hno : p.sharedHeld t = 0) {r : PsdReadLock τ} (hr : r ∈ p.readLocks) (ha : r.addr = a)
    (hrt : r.task = task) (hle : c ≤ p.sharedHeld task) (rs : List (PsdBorrowLock ι)) :
    (takeBack t task ⟨l, 0, c, a⟩ p rs).1.owner = p.owner ∧
      (takeBack t task ⟨l, 0, c, a⟩ p rs).1.exclLockCount = p.exclLockCount ∧
      (∀ v ≠ t, (takeBack t task ⟨l, 0, c, a⟩ p rs).1.sharedHeld v =
        p.sharedHeld v - if v = task then c else 0) ∧
      ∃ n, (takeBack t task ⟨l, 0, c, a⟩ p rs).2 = sharedEntry l n a ++ rs ∧
        (takeBack t task ⟨l, 0, c, a⟩ p rs).1.sharedHeld t + n = c ∧
        (p.owner ≠ some task → c = p.sharedHeld task → n = 0) := by
  subst ha hrt
  rw [sharedHeld_of_mem hc hr] at hle ⊢
  rw [PsdLockSem.takeBack_shared hc rfl hr rfl]
  have hother (v : τ) (hv : v ≠ r.task) (q : PsdLockSem τ) (hq : SameHolds v p q) :
      q.sharedHeld v = p.sharedHeld v - if v = r.task then c else 0 := by
    rw [if_neg hv, hq.shared, Nat.sub_zero]
  -- the record is left to the target with what it added
  have hpart (hcnt : c ≠ r.count) :
      (p.setCount r.addr (usub r.count c)).sharedHeld t = 0 ∧
        ∀ v ≠ t, (p.setCount r.addr (usub r.count c)).sharedHeld v =
          p.sharedHeld v - if v = r.task then c else 0 := by
    have hsub : usub r.count c = r.count - c := usub_of_le hle (hc.countWord r hr)
    refine ⟨(setCount_others hc hr hne.symm _).shared.trans hno, fun v hv => ?_⟩
    by_cases hvt : v = r.task
    · subst hvt
      rw [if_pos rfl, sharedHeld_setCount hc hr (by rw [hsub]; omega) (usub_lt _ _), hsub,
        sharedHeld_of_mem hc hr]
    · exact hother v hvt _ (setCount_others hc hr hvt _)
  split_ifs with ho hcnt hcnt
  · have hcnt : c = r.count := hcnt
    refine ⟨rfl, rfl, fun v hv => ?_, c, by simp [sharedEntry, hpos.ne'], ?_,
      fun h => absurd ho h⟩
    · by_cases hvt : v = r.task
      · subst hvt
        rw [if_pos rfl, sharedHeld_of_noRecord (dropReadLock_noRecord hc hr),
          sharedHeld_of_mem hc hr]
        omega
      · exact hother v hvt _ (dropReadLock_others hc hr hvt)
    · rw [(dropReadLock_others hc hr hne.symm).shared, hno, Nat.zero_add]
  · obtain ⟨h1, h2⟩ := hpart hcnt
    exact ⟨rfl, rfl, h2, c, by simp [sharedEntry, hpos.ne'], by rw [h1, Nat.zero_add],
      fun h => absurd ho h⟩
  · have hcnt : c = r.count := hcnt
    have hnt := noRecord_of_sharedHeld hc hno
    have hct : (p.setTask r.addr t).Counted := hc.setTask hr fun x hx _ => hnt x hx
    have hin : { r with task := t } ∈ (p.setTask r.addr t).readLocks :=
      mem_modify.mpr ⟨r, hr, by simp⟩
    refine ⟨rfl, rfl, fun v hv => ?_, 0, by simp [sharedEntry], ?_, fun _ _ => rfl⟩
    · by_cases hvt : v = r.task
      · subst hvt
        rw [if_pos rfl, sharedHeld_of_mem hc hr, hcnt, Nat.sub_self]
        refine sharedHeld_of_noRecord fun x hx he => ?_
        obtain ⟨x', hx', rfl⟩ := mem_modify.mp hx
        split at he
        · exact hv he.symm
        · rename_i hk
          exact hk (by rw [hc.task_inj hx' hr he])
      · rw [if_neg hvt, Nat.sub_zero]
        refine Frame.sharedHeld (.setTask (Ne.symm hv) fun x hx hxa => ?_)
        rw [hc.addr_inj hx hr hxa]
        exact Ne.symm hvt
    · rw [Nat.add_zero, hcnt]
      exact sharedHeld_of_mem hct hin
  · obtain ⟨h1, h2⟩ := hpart hcnt
    exact ⟨rfl, rfl, h2, c, by simp [sharedEntry, hpos.ne'], by rw [h1, Nat.zero_add],
      fun _ h => absurd h hcnt⟩

theorem Lent.returnable (h : Lent t task e c a p) (hok : p.Ok) :
    Returnable t task (exclEntry l e ++ sharedEntry l c a) p := by
  have hc := hok.counted
  have hE {b : PsdBorrowLock ι} (hb : b ∈ exclEntry l e) : 0 < e ∧ b = ⟨l, e, 0, 0⟩ := by
    unfold exclEntry at hb
    split at hb
    · cases hb
    · rename_i h0
      exact ⟨Nat.pos_of_ne_zero h0, mem_singleton.mp hb⟩
  have hS {b : PsdBorrowLock ι} (hb : b ∈ sharedEntry l c a) : 0 < c ∧ b = ⟨l, 0, c, a⟩ := by
    unfold sharedEntry at hb
    split at hb
    · cases hb
    · rename_i h0
      exact ⟨Nat.pos_of_ne_zero h0, mem_singleton.mp hb⟩
  have hown (he : 0 < e) : p.owner = some task ∧ p.exclHeld task = p.exclLockCount := by
    have ho := (exclHeld_pos_iff hc).mp (he.trans_le (h.excl he).1)
    exact ⟨ho, by simp [exclHeld, ho]⟩
  refine ⟨fun b hb hne => ?_, fun b hb hne hw r hr => ?_, fun b hb h0 => ?_⟩
  · rcases mem_append.mp hb with hb | hb
    · obtain ⟨he, rfl⟩ := hE hb
      exact ⟨(hown he).1, (hown he).2 ▸ (h.excl he).1⟩
    · obtain ⟨-, rfl⟩ := hS hb
      exact absurd rfl hne
  · rcases mem_append.mp hb with hb | hb
    · obtain ⟨he, rfl⟩ := hE hb
      -- a record left on the lock is the target's, with the lender's count
      have hrt := hok.mutex task (hown he).1 r hr
      have hcnt : r.count = c := by
        rw [← (h.excl he).2, ← hrt, sharedHeld_of_mem hc hr]
      have hpos : 0 < c := hcnt ▸ hc.count r hr
      obtain ⟨-, x, hx, hxa, hxt⟩ := h.shared hpos
      refine ⟨⟨l, 0, c, a⟩, mem_append_right _ (by simp [sharedEntry, hpos.ne']), rfl, ?_,
        hcnt.symm⟩
      rw [hc.task_inj hr hx (hrt.trans hxt.symm), hxa]
    · obtain ⟨-, rfl⟩ := hS hb
      exact absurd rfl hne
  · rcases mem_append.mp hb with hb | hb
    · obtain ⟨he, rfl⟩ := hE hb
      exact absurd h0 he.ne'
    · obtain ⟨hpos, rfl⟩ := hS hb
      obtain ⟨hle, x, hx, hxa, hxt⟩ := h.shared hpos
      refine ⟨noRecord_of_sharedHeld hc h.noShared, x, hx, hxa, hxt, ?_⟩
      rwa [← hxt, sharedHeld_of_mem hc hx] at hle

theorem moved_entries (l : ι) (e c a : ℕ) : Moved (exclEntry l e ++ sharedEntry l c a) := by
  unfold exclEntry sharedEntry
  split_ifs with he hc hc
  · exact .nothing
  · exact .shared rfl
  · exact .excl he
  · exact .both he rfl

/-- What is left to reclaim when the entries of a lock have been taken back. -/
structure TakenBack (t task : τ) (e c a : ℕ) (l : ι) (p : PsdLockSem τ)
    (r : PsdLockSem τ × List (PsdBorrowLock ι)) (n m : ℕ) : Prop where
  entries : r.2 = sharedEntry l n a ++ exclEntry l m
  shared : r.1.sharedHeld t + n = c
  excl : r.1.exclHeld t + m = e
  order : 0 < n → r.1.exclHeld t = 0
  target : r.1.held task + (e + c) = p.held task
  others : ∀ v ≠ t, v ≠ task → SameHolds v p r.1

theorem Lent.takeBackOne (h : Lent t task e c a p) (hok : p.Ok) (hne : task ≠ t) :
    ∃ n m, TakenBack t task e c a l p
      (takeBackOne t task (exclEntry l e ++ sharedEntry l c a) p []) n m := by
  have hc := hok.counted
  rcases Nat.eq_zero_or_pos e with rfl | he
  · rcases Nat.eq_zero_or_pos c with rfl | hpos
    · exact ⟨0, 0, rfl, h.noShared, h.noExcl, by simp, rfl, fun v _ _ => .refl v p⟩
    · obtain ⟨hle, r, hr, ha, hrt⟩ := h.shared hpos
      obtain ⟨g1, g2, g3, n, g4, g5, -⟩ := takeBack_shared_holds (l := l) hc hne hpos h.noShared hr ha
        hrt hle []
      have hx (v : τ) := exclHeld_congr g1 g2 v
      have hone : PsdLockSem.takeBackOne t task (exclEntry l 0 ++ sharedEntry l c a) p [] =
          takeBack t task ⟨l, 0, c, a⟩ p [] := by
        simp [exclEntry, sharedEntry, hpos.ne', PsdLockSem.takeBackOne]
      rw [hone]
      refine ⟨n, 0, by simpa [exclEntry] using g4, g5, (hx t).trans h.noExcl,
        fun _ => (hx t).trans h.noExcl, ?_, fun v hv hvt => ⟨hx v, ?_⟩⟩
      · rw [held, hx, g3 task hne, if_pos rfl, held]
        omega
      · rw [g3 v hv, if_neg hvt, Nat.sub_zero]
  · obtain ⟨hle, hsh⟩ := h.excl he
    obtain ⟨f1, f2, m, f3, f4, f5⟩ := takeBack_excl_holds (l := l) hc hne he hle []
    have hs (v : τ) := sharedHeld_congr f1 v
    rcases Nat.eq_zero_or_pos c with rfl | hpos
    · have hone : PsdLockSem.takeBackOne t task (exclEntry l e ++ sharedEntry l 0 a) p [] =
          takeBack t task ⟨l, e, 0, 0⟩ p [] := by
        simp [exclEntry, sharedEntry, he.ne', PsdLockSem.takeBackOne]
      rw [hone]
      refine ⟨0, m, by simpa [sharedEntry] using f3, (hs t).trans h.noShared, f4, by simp, ?_,
        fun v hv hvt => ⟨?_, hs v⟩⟩
      · rw [held, hs, f2 task hne, if_pos rfl, held]
        omega
      · rw [f2 v hv, if_neg hvt, Nat.sub_zero]
    · -- both holds are with the target
      have hcE := hc.takeBack_excl (t := t) (b := ⟨l, e, 0, 0⟩) [] he.ne'
        ((exclHeld_pos_iff hc).mp (he.trans_le hle))
        (by simpa [exclHeld, (exclHeld_pos_iff hc).mp (he.trans_le hle)] using hle)
      obtain ⟨-, r, hr, ha, hrt⟩ := h.shared hpos
      obtain ⟨g1, g2, g3, n, g4, g5, g6⟩ := takeBack_shared_holds (l := l) hcE hne hpos
        ((hs t).trans h.noShared) (by rwa [f1]) ha hrt (by rw [hs, hsh])
        (takeBack t task ⟨l, e, 0, 0⟩ p []).2
      have hx (v : τ) := exclHeld_congr g1 g2 v
      have hone : PsdLockSem.takeBackOne t task (exclEntry l e ++ sharedEntry l c a) p [] =
          takeBack t task ⟨l, 0, c, a⟩ (takeBack t task ⟨l, e, 0, 0⟩ p []).1
            (takeBack t task ⟨l, e, 0, 0⟩ p []).2 := by
        simp [exclEntry, sharedEntry, he.ne', hpos.ne', PsdLockSem.takeBackOne]
      rw [hone]
      refine ⟨n, m, by rw [g4, f3]; rfl, g5, by rw [hx, f4], fun hn => ?_, ?_,
        fun v hv hvt => ⟨?_, ?_⟩⟩
      · rcases f5 with ⟨-, hown⟩ | ⟨hm, hown⟩
        · -- the ownership has come back whole, and the record with it
          have := g6 (by rw [hown]; simpa using hne.symm) (by rw [hs, hsh])
          omega
        · simp [exclHeld, g1, hown, hne]
      · rw [held, hx, f2 task hne, g3 task hne, if_pos rfl, if_pos rfl, hs, held]
        omega
      · rw [hx, f2 v hv, if_neg hvt, Nat.sub_zero]
      · rw [g3 v hv, if_neg hvt, Nat.sub_zero, hs]

end Neptune.PsdLockSem
