import Neptune.Proofs.LockSafe

/-! Wake-ups. A release by `pUnlockSem` signals everybody who waits. A lender that drops its hold
signals the target only, which is enough exactly when the target can use it. -/

namespace Neptune

open Runs PsdLockSem

variable {τ ι : Type} [DecidableEq τ]

namespace PsdLockSem

variable {p : PsdLockSem τ} {t task u : τ} {l : ι} {memE memS : Bool}

def Granted (p : PsdLockSem τ) (u : τ) (excl : Bool) : Prop :=
  p.owner = none ∧ (excl = true → ∀ r ∈ p.readLocks, r.task = u)

def LastHold (p : PsdLockSem τ) (t : τ) : Prop :=
  (p.owner = some t ∧ p.exclLockCount = 1) ∨
    (p.owner = none ∧ p.sharedLockCount ≠ 0 ∧ (p.readLock t).map (·.count) = some 1)

def HandsExcl (p : PsdLockSem τ) (t task : τ) (memE : Bool) : Prop :=
  p.queued task = true ∧ p.owner = some t ∧ memE = true

def HandsShared (p : PsdLockSem τ) (t task : τ) (memS : Bool) : Prop :=
  p.queued task = true ∧ p.sharedLockCount ≠ 0 ∧ (p.readLock t).isSome ∧ memS = true

def GrantedAfter (p : PsdLockSem τ) (t task : τ) (memE memS : Bool) (u : τ) (excl : Bool) : Prop :=
  (p.owner = none ∨ p.HandsExcl t task memE) ∧
    (excl = true → ∀ r ∈ p.readLocks, r.task = u ∨
      (p.HandsShared t task memS ∧ (p.readLock t).map (·.addr) = some r.addr))

theorem pUnlockSem_of_lastHold (h : p.LastHold t) : (p.pUnlockSem t).2 = true := by
  have h0 : usub 1 1 = 0 := by decide
  unfold pUnlockSem
  rcases h with ⟨ho, h1⟩ | ⟨ho, hs, hr⟩
  · simp [ho, h1, h0]
  · obtain ⟨r, hr, h1⟩ := Option.map_eq_some_iff.mp hr
    simp [ho, hs, hr, h1, h0]

theorem takeBackOne_owned {bs rs : List (PsdBorrowLock ι)} (h : p.owner.isSome) :
    (takeBackOne t task bs p rs).1.owner.isSome := by
  induction bs generalizing p rs with
  | nil => exact h
  | cons b bs ih =>
    refine ih ?_
    unfold takeBack
    split
    · split
      · rfl
      · exact h
    · split
      · exact h
      · split <;> split <;> exact h

theorem pLockSemExcl_owned (h : p.owner.isSome) : (p.pLockSemExcl t).1.owner.isSome := by
  unfold pLockSemExcl
  split
  · rfl
  · exact h

theorem reclaimOne_owned {mem excl : Bool} (h : p.owner.isSome) :
    (Sys.reclaimOne p t mem excl).1.owner.isSome := by
  unfold Sys.reclaimOne
  split
  · exact pLockSemExcl_owned h
  · unfold pLockSemShared
    split
    · exact h
    · split
      · exact h
      · split
        · simp [sharedPass, h]
        · exact pLockSemExcl_owned h

theorem lendExcl_of_queued (hq : p.queued task = true) (b : Borrow ι) :
    (lendExcl t task memE l p b).1.owner = (if p.owner = some t ∧ memE = true then none
      else p.owner) := by
  unfold lendExcl
  by_cases ho : p.owner = some t
  · cases memE <;> simp [ho, hq, toHead_owner]
  · simp [ho]

theorem toHead_sharedLockCount (p : PsdLockSem τ) (task : τ) (promote : Bool) :
    (p.toHead task promote).sharedLockCount = p.sharedLockCount := by
  unfold toHead; split <;> rfl

theorem lendExcl_sharedLockCount (p : PsdLockSem τ) (b : Borrow ι) :
    (lendExcl t task memE l p b).1.sharedLockCount = p.sharedLockCount := by
  unfold lendExcl
  split_ifs <;> simp [toHead_sharedLockCount]

theorem readLock_congr {q : PsdLockSem τ} (h : q.readLocks = p.readLocks) (t : τ) :
    q.readLock t = p.readLock t := by
  simp [readLock, h]

theorem lendShared_of_queued (hq : p.queued task = true) (b : Borrow ι) :
    (lendShared t task memS l p b).1.owner = p.owner ∧
      (∀ r, r ∈ (lendShared t task memS l p b).1.readLocks ↔ r ∈ p.readLocks ∧
        ¬ (p.HandsShared t task memS ∧ (p.readLock t).map (·.addr) = some r.addr)) ∧
      ((lendShared t task memS l p b).2.reclaims = [] ↔
        b.reclaims = [] ∧ ¬ p.HandsShared t task memS) := by
  unfold lendShared
  split
  · rename_i h0
    simp [HandsShared, h0]
  · rename_i h0
    cases hr : p.readLock t with
    | none => simp [HandsShared, hr]
    | some prl =>
      cases memS
      · simp [HandsShared, hq, toHead_owner, toHead_readLocks]
      · simp only [HandsShared, hq, hr, if_true]
        refine ⟨toHead_owner p task false, fun r => ?_, by simp [h0]⟩
        simp only [dropReadLock, Keyed.mem_drop, toHead_readLocks]
        simp [h0, eq_comm]

theorem handsShared_lendExcl (p : PsdLockSem τ) (b : Borrow ι) :
    (lendExcl t task memE l p b).1.HandsShared t task memS ↔ p.HandsShared t task memS := by
  unfold HandsShared
  rw [lendExcl_queued, lendExcl_sharedLockCount, readLock_congr (lendExcl_readLocks p b)]

theorem granted_lend_iff (hq : p.queued task = true) (b : Borrow ι) (excl : Bool) :
    (lend t task memE memS l p b).1.Granted u excl ↔
      p.GrantedAfter t task memE memS u excl := by
  have ho : (lendExcl t task memE l p b).1.owner =
      if p.owner = some t ∧ memE = true then none else p.owner := lendExcl_of_queued hq b
  have hq' : (lendExcl t task memE l p b).1.queued task = true :=
    (lendExcl_queued p b).trans hq
  have hr : (lendExcl t task memE l p b).1.readLocks = p.readLocks := lendExcl_readLocks p b
  obtain ⟨h1, h2, -⟩ : (lendShared t task memS l (lendExcl t task memE l p b).1
      (lendExcl t task memE l p b).2).1.owner = _ ∧ _ ∧ _ := lendShared_of_queued hq' _
  simp only [readLock_congr hr, handsShared_lendExcl, hr] at h2
  unfold Granted GrantedAfter lend
  rw [h1, ho]
  refine and_congr ?_ ?_
  · unfold HandsExcl
    split_ifs with h <;> simp [hq, h]
  · refine imp_congr_right fun _ => ⟨fun h r hm => ?_, fun h r hm => ?_⟩
    · by_cases hd : p.HandsShared t task memS ∧ (p.readLock t).map (·.addr) = some r.addr
      · exact Or.inr hd
      · exact Or.inl (h r ((h2 r).mpr ⟨hm, hd⟩))
    · obtain ⟨hm, hd⟩ := (h2 r).mp hm
      exact (h r hm).resolve_right hd

theorem lend_reclaims_of_queued (hq : p.queued task = true) :
    (lend t task memE memS l p .empty).2.reclaims = [] ↔
      ¬ p.HandsExcl t task memE ∧ ¬ p.HandsShared t task memS := by
  have hq' : (lendExcl t task memE l p .empty).1.queued task = true :=
    (lendExcl_queued p .empty).trans hq
  obtain ⟨-, -, h3⟩ : (lendShared t task memS l (lendExcl t task memE l p .empty).1
      (lendExcl t task memE l p .empty).2).1.owner = _ ∧ _ ∧ _ := lendShared_of_queued hq' _
  refine h3.trans (and_congr ?_ (not_congr (handsShared_lendExcl p _)))
  unfold lendExcl HandsExcl
  split_ifs <;> simp_all [Borrow.empty]

end PsdLockSem

namespace Sys

variable [DecidableEq ι] {s s' : Sys τ ι} {t task u : τ} {l : ι} {memE memS : ι → Bool}

def waiter (s : Sys τ ι) (l : ι) (u : τ) : Option Bool :=
  match s.pc u with
  | .wait e l' _ => if l' = l ∧ (s.sem l).queued u = true then some e else none
  | _ => none

/-- No waiter of `l` that would be given the lock sleeps on while no signalled waiter can take
it. -/
def NoLostWakeUp (s : Sys τ ι) (l : ι) : Prop :=
  ∀ u e, s.waiter l u = some e → (s.sem l).Granted u e → s.sig u = false →
    ∃ v e', s.waiter l v = some e' ∧ s.sig v = true ∧ (s.sem l).Granted v e'

/-- The step gives up a hold on `l`: the last unlock, a lender's hand-over, or a lender that
takes its lent record off a lock the borrower has promoted. -/
def Releases (s : Sys τ ι) (l : ι) : Event τ ι → Prop
  | .unlock t l' => l' = l ∧ (s.sem l).LastHold t
  | .borrow t task memE memS => l ∈ s.registered.1 ∧
      ((s.sem l).HandsExcl t task (memE l) ∨ (s.sem l).HandsShared t task (memS l))
  | .giveBack t _ =>
    match s.pc t with
    | .borrowing task bs _ => (s.sem l).owner = some task ∧
        ∃ b ∈ bs, b.lockSem = l ∧ b.exclLockCount = 0
    | _ => False
  | _ => False

/-- Dropping the lender's holds on `l` strands nobody: the target can take the lock then, or a
waiter that has been signalled can, or no waiter can. -/
def HandOverOk (s : Sys τ ι) (l : ι) (t task : τ) (memE memS : Bool) : Prop :=
  (∃ e, s.waiter l task = some e ∧ (s.sem l).GrantedAfter t task memE memS task e) ∨
    (∃ v e, s.waiter l v = some e ∧ s.sig v = true ∧
      (s.sem l).GrantedAfter t task memE memS v e) ∨
    ∀ u e, s.waiter l u = some e → ¬ (s.sem l).GrantedAfter t task memE memS u e

def LosesNone (s : Sys τ ι) (e : Event τ ι) (s' : Sys τ ι) : Prop :=
  ∀ l, s.Releases l e → s'.NoLostWakeUp l

def WakeCond (s : Sys τ ι) : Event τ ι → Prop
  | .borrow t task memE memS => ∀ l, s.Releases l (.borrow t task memE memS) →
      s.HandOverOk l t task (memE l) (memS l)
  | _ => True

theorem borrow_waiter (hpc : s.pc t = .running) (l : ι) (u : τ) :
    (s.borrow t task memE memS).waiter l u = s.waiter l u := by
  have hon := (lendAll_on t task s.registered.2 memE memS s.sem ⟨[], []⟩
    (fun l _ => ⟨rfl, rfl⟩) l).1
  have hq : ((s.borrow t task memE memS).sem l).queued u = (s.sem l).queued u := by
    simp only [Sys.borrow]
    rw [hon]
    split
    · exact lend_queued _ _
    · rfl
  by_cases hu : u = t
  · subst hu
    simp [waiter, hpc, Sys.borrow]
  · simp only [waiter, hq]
    simp [Sys.borrow, hu]

theorem borrow_noLostWakeUp (hpc : s.pc t = .running)
    (hr : s.Releases l (.borrow t task memE memS)) :
    (s.borrow t task memE memS).NoLostWakeUp l ↔ s.HandOverOk l t task (memE l) (memS l) := by
  obtain ⟨hl, hr⟩ := hr
  have hq : (s.sem l).queued task = true := hr.elim (·.1) (·.1)
  obtain ⟨h1, -, h3⟩ := lendAll_on t task s.registered.2 memE memS s.sem ⟨[], []⟩
    (fun l _ => ⟨rfl, rfl⟩) l
  rw [if_pos hl] at h1 h3
  have hsig (v : τ) : (s.borrow t task memE memS).sig v = true ↔ v = task ∨ s.sig v = true := by
    have hne : (lendAll t task memE memS s.registered.1 s.sem ⟨[], []⟩).2.reclaims ≠ [] := by
      intro h
      rw [h] at h3
      have := (lend_reclaims_of_queued hq).mp h3.symm
      tauto
    simp only [Sys.borrow, if_neg hne, Function.update_apply]
    split_ifs with h <;> simp [h]
  have hg (v : τ) (e : Bool) : ((s.borrow t task memE memS).sem l).Granted v e ↔
      (s.sem l).GrantedAfter t task (memE l) (memS l) v e := by
    simp only [Sys.borrow]
    rw [h1]
    exact granted_lend_iff hq _ e
  unfold NoLostWakeUp HandOverOk
  simp only [borrow_waiter hpc, hg, hsig, ← Bool.not_eq_true]
  constructor
  · intro h
    by_cases hex : ∃ u e, s.waiter l u = some e ∧
        (s.sem l).GrantedAfter t task (memE l) (memS l) u e
    · obtain ⟨u, e, hu, hgu⟩ := hex
      by_cases hs : u = task ∨ s.sig u = true
      · rcases hs with rfl | hs
        · exact Or.inl ⟨e, hu, hgu⟩
        · exact Or.inr (Or.inl ⟨u, e, hu, hs, hgu⟩)
      · obtain ⟨v, e', hv, rfl | hs, hgv⟩ := h u e hu hgu hs
        · exact Or.inl ⟨e', hv, hgv⟩
        · exact Or.inr (Or.inl ⟨v, e', hv, hs, hgv⟩)
    · exact Or.inr (Or.inr fun u e hu hgu => hex ⟨u, e, hu, hgu⟩)
  · rintro (⟨e, hw, hgw⟩ | ⟨v, e, hw, hs, hgw⟩ | hno) u e' hu hgu -
    · exact ⟨task, e, hw, Or.inl rfl, hgw⟩
    · exact ⟨v, e, hw, Or.inr hs, hgw⟩
    · exact absurd hgu (hno u e' hu)

theorem unlock_noLostWakeUp (h : (s.sem l).LastHold t) : (s.unlock t l).NoLostWakeUp l := by
  intro u e hu _ hsig
  have hn := pUnlockSem_of_lastHold h
  simp only [Sys.unlock, hn, Bool.true_and, Bool.or_eq_false_iff] at hsig
  -- whoever waits has been signalled
  simp only [waiter, Sys.unlock, Sys.setSem, Sys.setOwn, Function.update_self, hsig.2] at hu
  split at hu <;> simp_all

theorem reclaim_owned {mem : ι → Bool} {reqs : List (Req ι)} (h : (s.sem l).owner.isSome) :
    ((reclaim t mem reqs s).sem l).owner.isSome := by
  induction reqs generalizing s with
  | nil => exact h
  | cons r rest ih =>
    have hown : ((s.setSem r.lock (reclaimOne (s.sem r.lock) t (mem r.lock) r.excl).1).sem
        l).owner.isSome := by
      by_cases hl : l = r.lock
      · subst hl
        simpa [Sys.setSem] using reclaimOne_owned h
      · simpa [Sys.setSem, hl] using h
    rw [Sys.reclaim]
    generalize reclaimOne (s.sem r.lock) t (mem r.lock) r.excl = x at hown
    obtain ⟨p, g⟩ := x
    cases g with
    | locked => exact ih hown
    | wait e => exact hown

theorem giveBack_noLostWakeUp {bs rs : List (PsdBorrowLock ι)} {mem : ι → Bool}
    (h : (s.sem l).owner.isSome) : (s.giveBack t task bs rs mem).NoLostWakeUp l := by
  intro u e _ hg
  have hown : ((s.giveBack t task bs rs mem).sem l).owner.isSome := by
    refine reclaim_owned ?_
    have hon := congrArg Prod.fst (takeBackAll_on t task l bs s.sem rs)
    dsimp only at hon ⊢
    rw [hon]
    exact takeBackOne_owned h
  rw [hg.1] at hown
  cases hown

theorem release_noLostWakeUp {e : Event τ ι} (hs : s.step e = some s') :
    s.LosesNone e s' ↔ s.WakeCond e := by
  cases e with
  | unlock t l =>
    simp only [Sys.step] at hs
    split at hs <;> cases hs
    refine iff_of_true (fun l' hr => ?_) trivial
    obtain ⟨rfl, hr⟩ := hr
    exact unlock_noLostWakeUp hr
  | borrow t task memE memS =>
    simp only [Sys.step] at hs
    split at hs <;> cases hs
    rename_i hpc
    exact forall₂_congr fun l hr => borrow_noLostWakeUp hpc.1 hr
  | giveBack t mem =>
    simp only [Sys.step] at hs
    split at hs <;> cases hs
    rename_i task bs rs hpc
    refine iff_of_true (fun l hr => ?_) trivial
    simp only [Releases, hpc] at hr
    exact giveBack_noLostWakeUp (by rw [hr.1]; rfl)
  | lockExcl t l | lockShared t l mem | fallback t | wake t mem | signal t =>
    exact iff_of_true (fun l' hr => hr.elim) trivial

/-- No release of a run loses a wake-up exactly when its hand-overs strand nobody. -/
theorem no_lost_wake_up (reg : { ls : List ι // ls.Nodup }) (evs : List (Event τ ι)) :
    Always step LosesNone (Sys.init reg) evs ↔
      Always step (fun s e _ => s.WakeCond e) (Sys.init reg) evs :=
  Always.congr (P := LosesNone) (Q := fun s e _ => s.WakeCond e)
    (fun _ _ _ hs => release_noLostWakeUp hs) _ evs

def thirdReader : List (Event (Fin 3) Unit) :=
  [.lockShared 0 () true, .lockShared 1 () true, .lockExcl 1 (), .lockExcl 2 ()]

/-- When reader 0 lends to task 2, only task 2 is signalled, and it finds the record of reader 1,
which sleeps on as the sole reader. -/
theorem no_lost_wake_up_fails :
    ¬ Always step LosesNone oneLock
      (thirdReader ++ [.borrow 0 2 (fun _ => true) fun _ => true]) := by
  intro h
  have hl := h.step_at (Option.some_get (by decide)).symm (Option.some_get (by decide)).symm ()
    ⟨by decide, Or.inr ⟨by decide, by decide, by decide, rfl⟩⟩
  obtain ⟨v, e, hv, hs, -, hg⟩ := hl 1 true (by decide) ⟨by decide, by decide⟩ (by decide)
  -- the one signalled waiter is task 2
  fin_cases v
  · exact absurd hv (by decide +revert)
  · exact absurd hs (by decide)
  · have he : e = true := by
      cases e
      · exact absurd hv (by decide)
      · rfl
    exact absurd (hg he) (by decide)

end Sys

end Neptune
