import Neptune.Proofs.LockLend

/-! Mutual exclusion over whole runs, under the condition that keeps it. -/

namespace Neptune

open Runs PsdLockSem

variable {τ ι : Type}

structure PsdLockSem.WellLocked (p : PsdLockSem τ) : Prop where
  exclusion : ∀ t, p.owner = some t → ∀ r ∈ p.readLocks, r.task = t
  exclCount : 0 < p.exclLockCount ↔ p.owner.isSome
  sharedCount : p.sharedLockCount = p.readLocks.length
  oneEach : (p.readLocks.map (·.task)).Nodup
  count : ∀ r ∈ p.readLocks, 0 < r.count

theorem PsdLockSem.Ok.wellLocked {p : PsdLockSem τ} (h : p.Ok) : p.WellLocked :=
  ⟨h.mutex, h.counted.excl, h.counted.shared, h.counted.tasks, h.counted.count⟩

def Cont.reqs : Cont ι → List (Req ι)
  | .caller => []
  | .reclaim rest => rest

def Pc.reqs : Pc τ ι → List (Req ι)
  | .running => []
  | .fallback l => [⟨true, l⟩]
  | .wait e l k => ⟨e, l⟩ :: k.reqs
  | .borrowing _ bs rs => (bs ++ rs).flatMap PsdBorrowLock.reqs

namespace Sys

variable [DecidableEq ι] {s s' : Sys τ ι} {t task u : τ} {l : ι}

def RoomFor (s : Sys τ ι) (t : τ) (reqs : List (Req ι)) : Prop :=
  ∀ l, (s.sem l).Room t (sharedReqs l reqs) (exclReqs l reqs)

theorem sharedReqs_cons (l : ι) (r : Req ι) (reqs : List (Req ι)) :
    sharedReqs l (r :: reqs) =
      sharedReqs l reqs + if r.lock = l ∧ r.excl = false then 1 else 0 := by
  simp [sharedReqs, List.countP_cons]

theorem exclReqs_cons (l : ι) (r : Req ι) (reqs : List (Req ι)) :
    exclReqs l (r :: reqs) = exclReqs l reqs + if r.lock = l ∧ r.excl = true then 1 else 0 := by
  simp [exclReqs, List.countP_cons]

variable {r : Req ι} {mem : ι → Bool} {rest : List (Req ι)} {bs rs : List (PsdBorrowLock ι)}

theorem RoomFor.head {e : Bool} (h : s.RoomFor t (⟨e, l⟩ :: rest)) :
    if e then (s.sem l).Room t (sharedReqs l rest) (exclReqs l rest + 1)
    else (s.sem l).Room t (sharedReqs l rest + 1) (exclReqs l rest) := by
  have := h l
  rw [sharedReqs_cons, exclReqs_cons] at this
  cases e <;> simpa using this

theorem RoomFor.tail (h : s.RoomFor t (r :: rest))
    (hr : r.lock = l) {p : PsdLockSem τ} (hp : p.Room t (sharedReqs l rest) (exclReqs l rest)) :
    (s.setSem l p).RoomFor t rest := by
  intro l'
  by_cases hl : l' = l
  · subst hl; simpa [Sys.setSem] using hp
  · have := h l'
    rw [sharedReqs_cons, exclReqs_cons, hr] at this
    simpa [Sys.setSem, hl, Ne.symm hl] using this

variable [DecidableEq τ]

/-- Nobody has come between: a waiter that a lender has promoted finds no reader, and what a
lender takes back is still with the borrower. -/
def Undisturbed (s : Sys τ ι) (t : τ) : Pc τ ι → Prop
  | .running => True
  | .fallback _ => True
  | .wait e l _ => e = false → (s.sem l).promoted t = true → (s.sem l).owner = none →
      ∀ r ∈ (s.sem l).readLocks, r.task = t
  | .borrowing task bs _ => ∀ l, Returnable t task (on l bs) (s.sem l)

def MayResume (s : Sys τ ι) (t : τ) : Prop :=
  s.RoomFor t (s.pc t).reqs ∧ s.Undisturbed t (s.pc t)

/-- The condition on a step, read off the state before it: no counter wraps, lending a lock that
is held both ways moves both holds or none, and a task goes on only when it may. -/
def LockCond (s : Sys τ ι) : Event τ ι → Prop
  | .lockExcl t l => s.RoomFor t [⟨true, l⟩]
  | .lockShared t l _ => s.RoomFor t [⟨false, l⟩]
  | .fallback t => s.MayResume t
  | .wake t _ => s.MayResume t
  | .giveBack t _ => s.MayResume t
  | .borrow t task memE memS =>
    ∀ l ∈ s.registered.1, (s.sem l).queued task = false →
      ((s.sem l).owner = some t → ¬ (s.sem l).NoRecord t → memE l = memS l) ∧
        (memS l = true → (s.sem l).MergeRoom t task)
  | .unlock _ _ => True
  | .signal _ => True

structure InvBut (t : τ) (s : Sys τ ι) : Prop where
  ok : ∀ l, (s.sem l).Ok
  waits : ∀ u ≠ t, ∀ l k, s.pc u = .wait false l k → (s.sem l).WaitsOn u
  moved : ∀ u ≠ t, ∀ task bs rs, s.pc u = .borrowing task bs rs →
    task ≠ u ∧ ∀ l, Moved (on l bs)

structure Inv (s : Sys τ ι) : Prop where
  ok : ∀ l, (s.sem l).Ok
  waits : ∀ u l k, s.pc u = .wait false l k → (s.sem l).WaitsOn u
  moved : ∀ u task bs rs, s.pc u = .borrowing task bs rs → task ≠ u ∧ ∀ l, Moved (on l bs)

theorem Inv.init (reg : { ls : List ι // ls.Nodup }) : (Sys.init reg : Sys τ ι).Inv :=
  ⟨fun _ => pInitSem_ok, by simp [Sys.init], by simp [Sys.init]⟩

theorem Inv.but (h : s.Inv) (t : τ) : s.InvBut t :=
  ⟨h.ok, fun u _ => h.waits u, fun u _ => h.moved u⟩

theorem InvBut.setSem (h : s.InvBut t) {p : PsdLockSem τ} (hok : p.Ok)
    (hf : ∀ u ≠ t, (s.sem l).WaitsOn u → p.WaitsOn u) : (s.setSem l p).InvBut t where
  ok l' := by
    by_cases hl : l' = l
    · subst hl; simpa [Sys.setSem] using hok
    · simpa [Sys.setSem, hl] using h.ok l'
  waits u hu l' k hpc := by
    have hw := h.waits u hu l' k hpc
    by_cases hl : l' = l
    · subst hl; simpa [Sys.setSem] using hf u hu hw
    · simpa [Sys.setSem, hl] using hw
  moved := h.moved

theorem InvBut.setPc (h : s.InvBut t) {c : Pc τ ι}
    (hw : ∀ l k, c = .wait false l k → (s.sem l).WaitsOn t)
    (hm : ∀ task bs rs, c = .borrowing task bs rs → task ≠ t ∧ ∀ l, Moved (on l bs)) :
    (s.setPc t c).Inv where
  ok := h.ok
  waits u l k hpc := by
    by_cases hu : u = t
    · subst hu
      exact hw l k (by simpa [Sys.setPc] using hpc)
    · exact h.waits u hu l k (by simpa [Sys.setPc, hu] using hpc)
  moved u task bs rs hpc := by
    by_cases hu : u = t
    · subst hu
      exact hm task bs rs (by simpa [Sys.setPc] using hpc)
    · exact h.moved u hu task bs rs (by simpa [Sys.setPc, hu] using hpc)

theorem InvBut.run (h : s.InvBut t) : (s.setPc t .running).Inv :=
  h.setPc (by simp) (by simp)

theorem InvBut.sleep (h : s.InvBut t) {e : Bool} {k : Cont ι}
    (hw : e = false → (s.sem l).WaitsOn t) : (s.sleep t (.wait e l k)).Inv := by
  have := h.setPc (c := .wait e l k) (by rintro l k ⟨⟩; exact hw rfl) (by simp)
  exact ⟨this.ok, this.waits, this.moved⟩

structure CallOk (t : τ) (p : PsdLockSem τ) (r : PsdLockSem τ × Got) : Prop where
  ok : r.1.Ok
  frame : ∀ u ≠ t, PsdLockSem.Frame u p r.1
  waits : r.2 = .wait false → r.1.WaitsOn t

section call

variable {p : PsdLockSem τ}

theorem CallOk.pLockSemExcl (h : p.Ok) (hr : p.Room t 0 1) : CallOk t p (p.pLockSemExcl t) where
  ok := ⟨h.mutex.pLockSemExcl h.counted, h.counted.pLockSemExcl hr.excl⟩
  frame _ hu := .pLockSemExcl hu.symm
  waits hw := absurd (pLockSemExcl_wait hw) (by simp)

theorem CallOk.pLockSemShared (h : p.Ok) (hr : p.Room t 1 0) {mem : Bool}
    {r : PsdLockSem τ × Got} (hs : p.pLockSemShared t mem = some r) : CallOk t p r where
  ok := ⟨h.mutex.pLockSemShared hs, h.counted.pLockSemShared hr hs⟩
  frame _ hu := .pLockSemShared h.counted hu.symm hs
  waits hw := by
    unfold PsdLockSem.pLockSemShared at hs
    split at hs
    · cases hs; cases hw
    · split at hs
      · cases hs; cases hw
      · rename_i hprl
        split at hs
        · cases hs
          exact sharedPass_waitsOn (readLock_none hprl) hw
        · cases hs

theorem CallOk.wake (h : p.Ok) {e : Bool} (hr : if e then p.Room t 0 1 else p.Room t 1 0)
    (hn : e = false → p.NoRecord t)
    (he : e = false → p.promoted t = true → p.owner = none → ∀ r ∈ p.readLocks, r.task = t) :
    CallOk t p (p.wake t e) where
  ok := ⟨h.mutex.wake h.counted he, h.counted.wake hr hn⟩
  frame _ hu := .wake hu.symm e
  waits hw := by
    cases e with
    | true => exact absurd (pLockSemExcl_wait hw) (by simp)
    | false => exact sharedPass_waitsOn (hn rfl) hw

end call

theorem reclaimOne_room (mem : Bool)
    (hc : (s.sem r.lock).Counted) (hr : s.RoomFor t (r :: rest)) :
    (s.setSem r.lock (reclaimOne (s.sem r.lock) t mem r.excl).1).RoomFor t rest := by
  obtain ⟨e, l⟩ := r
  have hh := hr.head
  cases e with
  | true =>
    exact hr.tail (l := l) rfl (hh.pLockSemExcl hc le_rfl (by omega) (by omega))
  | false =>
    simp only [reclaimOne, Bool.false_eq_true, if_false]
    cases hs : (s.sem l).pLockSemShared t mem with
    | some x => exact hr.tail (l := l) rfl (hh.pLockSemShared hs)
    | none => exact hr.tail (l := l) rfl (hh.pLockSemExcl hc (by omega) le_rfl (by omega))

theorem CallOk.reclaimOne (mem : Bool) (h : (s.sem r.lock).Ok)
    (hr : s.RoomFor t (r :: rest)) :
    CallOk t (s.sem r.lock) (reclaimOne (s.sem r.lock) t mem r.excl) := by
  obtain ⟨e, l⟩ := r
  have hh := hr.head
  cases e with
  | true =>
    exact .pLockSemExcl h (hh.mono (by omega) (by omega))
  | false =>
    simp only [Sys.reclaimOne, Bool.false_eq_true, if_false]
    cases hs : (s.sem l).pLockSemShared t mem with
    | some x => exact .pLockSemShared h (hh.mono (by omega) (by omega)) hs
    | none => exact .pLockSemExcl h hh.fallBack

theorem InvBut.reclaim {reqs : List (Req ι)} (h : s.InvBut t)
    (hr : s.RoomFor t reqs) : (reclaim t mem reqs s).Inv := by
  induction reqs generalizing s with
  | nil => exact h.run
  | cons r rest ih =>
    have hcall : CallOk t (s.sem r.lock) _ := .reclaimOne (mem r.lock) (h.ok r.lock) hr
    have hrest := reclaimOne_room (mem r.lock) (h.ok r.lock).counted hr
    have hb := h.setSem hcall.ok fun u hu hw => (hcall.frame u hu).waitsOn hw
    rw [Sys.reclaim]
    generalize reclaimOne (s.sem r.lock) t (mem r.lock) r.excl = x at hcall hrest hb
    obtain ⟨p, g⟩ := x
    cases g with
    | locked => exact ih hb hrest
    | wait e =>
      refine hb.sleep fun he => ?_
      subst he
      simpa [Sys.setSem] using hcall.waits rfl

theorem InvBut.settle {k : Cont ι} {r : PsdLockSem τ × Got} (h : s.InvBut t)
    (hcall : CallOk t (s.sem l) r) (hr : (s.setSem l r.1).RoomFor t k.reqs) :
    (s.settle t mem l k r).Inv := by
  have hb := h.setSem hcall.ok fun u hu hw => (hcall.frame u hu).waitsOn hw
  obtain ⟨p, g⟩ := r
  cases g with
  | locked =>
    cases k with
    | caller =>
      have := hb.run
      exact ⟨this.ok, this.waits, this.moved⟩
    | reclaim rest => exact hb.reclaim hr
  | wait e =>
    refine hb.sleep fun he => ?_
    subst he
    simpa [Sys.setSem] using hcall.waits rfl

theorem Inv.borrow (h : s.Inv) (hne : task ≠ t) {memE memS : ι → Bool}
    (hc : s.LockCond (.borrow t task memE memS)) : (s.borrow t task memE memS).Inv := by
  have hon := lendAll_on t task s.registered.2 memE memS s.sem ⟨[], []⟩
    (fun l _ => ⟨rfl, rfl⟩)
  have hb : ({ s with sem := (lendAll t task memE memS s.registered.1 s.sem ⟨[], []⟩).1 } :
      Sys τ ι).InvBut t := by
    refine ⟨fun l => ?_, fun u hu l k hpc => ?_, fun u _ => h.moved u⟩
    · dsimp only
      rw [(hon l).1]
      split
      · rename_i hl
        refine (h.ok l).lend hne (fun ho hq hn => ((hc l hl hq).1 ho hn)) ?_ _
        exact fun hm hq => (hc l hl hq).2 hm
      · exact h.ok l
    · dsimp only
      rw [(hon l).1]
      split
      · exact (h.waits u l k hpc).lend _
      · exact h.waits u l k hpc
  have := hb.setPc (c := .borrowing task
    (lendAll t task memE memS s.registered.1 s.sem ⟨[], []⟩).2.borrows
    (lendAll t task memE memS s.registered.1 s.sem ⟨[], []⟩).2.reclaims) (by simp) (by
      rintro task' bs rs ⟨⟩
      refine ⟨hne, fun l => ?_⟩
      rw [(hon l).2.1]
      split
      · exact lend_moved (h.ok l).counted _ _
      · exact .nothing)
  exact ⟨this.ok, this.waits, this.moved⟩

theorem takeBackAll_room
    (h : s.RoomFor t ((bs ++ rs).flatMap PsdBorrowLock.reqs)) (hne : task ≠ t)
    (hl : ∀ l, (s.sem l).Counted ∧ Moved (on l bs) ∧ Returnable t task (on l bs) (s.sem l)) :
    RoomFor { s with sem := (takeBackAll t task bs s.sem rs).1 } t
      ((takeBackAll t task bs s.sem rs).2.flatMap PsdBorrowLock.reqs) := by
  intro l
  have hon := takeBackAll_on t task l bs s.sem rs
  have h1 := congrArg Prod.fst hon
  have h2 := congrArg Prod.snd hon
  have hr := h l
  rw [(reqs_flatMap ..).1, (reqs_flatMap ..).2, on_append] at hr
  dsimp only at h1 h2 ⊢
  rw [(reqs_flatMap ..).1, (reqs_flatMap ..).2, h2, h1]
  exact Room.takeBackOne (by simpa using hr) (hl l).1 hne (hl l).2.1 (hl l).2.2

theorem Inv.giveBack (h : s.Inv)
    (hpc : s.pc t = .borrowing task bs rs)
    (hc : s.LockCond (.giveBack t mem)) : (s.giveBack t task bs rs mem).Inv := by
  simp only [LockCond, MayResume, hpc, Pc.reqs, Undisturbed] at hc
  obtain ⟨hroom, hret⟩ := hc
  obtain ⟨hne, hmoved⟩ := h.moved t task bs rs hpc
  have hon (l : ι) := takeBackAll_on t task l bs s.sem rs
  have h1 (l : ι) := congrArg Prod.fst (hon l)
  dsimp only at h1
  have hb : ({ s with sem := (takeBackAll t task bs s.sem rs).1 } : Sys τ ι).InvBut t := by
    refine ⟨fun l => ?_, fun u hu l k hw => ?_, fun u _ => h.moved u⟩
    · dsimp only
      rw [h1]
      exact (h.ok l).takeBackOne hne (hmoved l) (hret l)
    · dsimp only
      rw [h1]
      exact (h.waits u l k hw).takeBackOne hu.symm
  exact hb.reclaim (takeBackAll_room hroom hne fun l => ⟨(h.ok l).counted, hmoved l, hret l⟩)

theorem Inv.excl_settle (h : s.Inv) (hc : s.RoomFor t [⟨true, l⟩]) :
    (s.settle t mem l .caller ((s.sem l).pLockSemExcl t)).Inv := by
  have hh : (s.sem l).Room t 0 1 := hc.head
  exact (h.but t).settle (.pLockSemExcl (h.ok l) hh) (hc.tail (l := l) rfl
    (hh.pLockSemExcl (h.ok l).counted le_rfl (by simp [exclReqs]) (by simp [exclReqs, sharedReqs])))

theorem Inv.step {e : Event τ ι} (h : s.Inv) (hc : s.LockCond e) (hs : s.step e = some s') :
    s'.Inv := by
  cases e with
  | lockExcl t l =>
    simp only [Sys.step] at hs
    split at hs <;> cases hs
    exact h.excl_settle hc
  | lockShared t l mem =>
    simp only [Sys.step] at hs
    split at hs
    · have hh : (s.sem l).Room t 1 0 := hc.head
      split at hs <;> cases hs
      · rename_i r hr
        have hcall : CallOk t (s.sem l) r := .pLockSemShared (h.ok l) hh hr
        exact (h.but t).settle hcall (hc.tail (l := l) rfl (hh.pLockSemShared hr))
      · exact (h.but t).setPc (by simp) (by simp)
    · cases hs
  | fallback t =>
    simp only [Sys.step] at hs
    split at hs <;> cases hs
    rename_i l hpc
    simp only [LockCond, MayResume, hpc, Pc.reqs] at hc
    exact h.excl_settle hc.1
  | unlock t l =>
    simp only [Sys.step] at hs
    split at hs <;> cases hs
    have hok : ((s.sem l).pUnlockSem t).1.Ok :=
      ⟨(h.ok l).mutex.pUnlockSem, (h.ok l).counted.pUnlockSem⟩
    rename_i hpc
    have hb := (h.but t).setSem hok fun u hu hw =>
      (PsdLockSem.Frame.pUnlockSem (h.ok l).counted hu.symm).waitsOn hw
    refine ⟨hb.ok, fun u l' k hw => ?_, fun u task bs rs hw => ?_⟩
    all_goals
      have hu : u ≠ t := by
        rintro rfl
        exact absurd (hpc.1.symm.trans hw) (by simp)
    · exact hb.waits u hu l' k hw
    · exact hb.moved u hu task bs rs hw
  | wake t mem =>
    simp only [Sys.step] at hs
    split at hs
    · rename_i e l k hpc
      split at hs <;> cases hs
      simp only [LockCond, MayResume, hpc, Pc.reqs, Undisturbed] at hc
      obtain ⟨hroom, hprom⟩ := hc
      have hn : e = false → (s.sem l).NoRecord t := by
        rintro rfl
        exact (h.waits t l k hpc).noRecord
      have hh := hroom.head
      have hr1 : if e then (s.sem l).Room t 0 1 else (s.sem l).Room t 1 0 := by
        cases e
        · exact Room.mono (by simpa using hh) (by omega) (by omega)
        · exact Room.mono (by simpa using hh) (by omega) (by omega)
      have hcall : CallOk t (s.sem l) ((s.sem l).wake t e) := .wake (h.ok l) hr1 hn hprom
      have hb : ({ s with sig := Function.update s.sig t false } : Sys τ ι).InvBut t :=
        ⟨h.ok, fun u _ => h.waits u, fun u _ => h.moved u⟩
      exact hb.settle hcall (hroom.tail (l := l) rfl (Room.wake hh (h.ok l).counted hn))
    · cases hs
  | borrow t task memE memS =>
    simp only [Sys.step] at hs
    split at hs <;> cases hs
    rename_i hpc
    exact h.borrow hpc.2 hc
  | giveBack t mem =>
    simp only [Sys.step] at hs
    split at hs <;> cases hs
    rename_i hpc
    exact h.giveBack hpc hc
  | signal t =>
    cases hs
    exact ⟨h.ok, h.waits, h.moved⟩

/-- Every lock of every run that keeps to the condition. -/
theorem lock_mutual_exclusion {reg : { ls : List ι // ls.Nodup }} {evs : List (Event τ ι)}
    (h : Run step LockCond (Sys.init reg) evs s) (l : ι) : (s.sem l).WellLocked :=
  (h.invariant Inv (Inv.init reg) fun _ _ _ hi hc hs => hi.step hc hs).ok l |>.wellLocked

instance RoomFor.decidable [Fintype ι] (s : Sys τ ι) (t : τ) (reqs : List (Req ι)) :
    Decidable (s.RoomFor t reqs) :=
  inferInstanceAs (Decidable (∀ l, (s.sem l).Room t (sharedReqs l reqs) (exclReqs l reqs)))

instance Undisturbed.decidable [Fintype ι] (s : Sys τ ι) (t : τ) :
    ∀ c, Decidable (s.Undisturbed t c)
  | .running => .isTrue trivial
  | .fallback _ => .isTrue trivial
  | .wait e l _ => inferInstanceAs (Decidable (e = false → (s.sem l).promoted t = true →
      (s.sem l).owner = none → ∀ r ∈ (s.sem l).readLocks, r.task = t))
  | .borrowing task bs _ =>
    inferInstanceAs (Decidable (∀ l, Returnable t task (on l bs) (s.sem l)))

instance MayResume.decidable [Fintype ι] (s : Sys τ ι) (t : τ) : Decidable (s.MayResume t) :=
  inferInstanceAs (Decidable (_ ∧ _))

instance LockCond.decidable [Fintype ι] (s : Sys τ ι) : ∀ e, Decidable (s.LockCond e)
  | .lockExcl t l => inferInstanceAs (Decidable (s.RoomFor t [⟨true, l⟩]))
  | .lockShared t l _ => inferInstanceAs (Decidable (s.RoomFor t [⟨false, l⟩]))
  | .fallback t => inferInstanceAs (Decidable (s.MayResume t))
  | .wake t _ => inferInstanceAs (Decidable (s.MayResume t))
  | .giveBack t _ => inferInstanceAs (Decidable (s.MayResume t))
  | .borrow t task memE memS => inferInstanceAs
      (Decidable (∀ l ∈ s.registered.1, (s.sem l).queued task = false →
        ((s.sem l).owner = some t → ¬ (s.sem l).NoRecord t → memE l = memS l) ∧
          (memS l = true → (s.sem l).MergeRoom t task)))
  | .unlock _ _ => .isTrue trivial
  | .signal _ => .isTrue trivial

instance : NeZero 3 := ⟨by decide⟩

def oneLock : Sys (Fin 3) Unit := Sys.init ⟨[()], by decide⟩

/-- Task 0 hands its exclusive lock over to the queued reader 1, which takes it promoted and
unlocks it, and gets it back. -/
def handOver : List (Event (Fin 3) Unit) :=
  [.lockExcl 0 (), .lockShared 1 () true, .borrow 0 1 (fun _ => true) fun _ => true,
    .wake 1 fun _ => true, .unlock 1 (), .giveBack 0 fun _ => true]

theorem lock_mutual_exclusion_handOver :
    (((exec step oneLock handOver).get (by decide)).sem ()).WellLocked :=
  lock_mutual_exclusion (.get_meets (by decide) (by decide)) ()

def stolen : List (Event (Fin 3) Unit) :=
  [.lockExcl 0 (), .lockShared 1 () true, .borrow 0 1 (fun _ => true) fun _ => true,
    .lockShared 2 () true, .wake 1 fun _ => true]

/-- Only the owner is tested after the wake-up, so the promoted waiter owns a lock with a
reader on it. -/
theorem lock_mutual_exclusion_fails :
    ∃ s, Run step anyStep oneLock stolen s ∧ ¬ (s.sem ()).WellLocked := by
  refine ⟨_, .get (by decide), fun h => ?_⟩
  exact absurd (h.exclusion 1 (by decide) ⟨0, false, 2, 1⟩ (by decide)) (by decide)

end Sys

end Neptune
