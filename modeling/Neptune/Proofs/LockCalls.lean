import Neptune.Proofs.LockReturn

/-! Lock and unlock calls outside `psdBorrowLocksWait`: what one of them does to the whole state,
and that a lender may start after any run of them. -/

namespace Neptune.Sys

open Runs PsdLockSem

variable {τ ι : Type} [DecidableEq τ] [DecidableEq ι]

def Acting : Pc τ ι → Prop
  | .running => True
  | .fallback _ => True
  | .wait _ _ .caller => True
  | _ => False

def WaitsShared (s : Sys τ ι) (l : ι) (u : τ) : Prop := ∃ k, s.pc u = .wait false l k

structure Lendable (s : Sys τ ι) : Prop where
  ok : ∀ l, (s.sem l).Ok
  waits : ∀ u l k, s.pc u = .wait false l k → (s.sem l).WaitsOn u
  unpromoted : ∀ u l k, s.pc u = .wait false l k → (s.sem l).promoted u = false
  queued : ∀ u l, (s.sem l).queued u = true → ∃ e k, s.pc u = .wait e l k
  balanced : ∀ u, Acting (s.pc u) → ∀ l, s.own u l ≤ (s.sem l).held u

def Calling (s : Sys τ ι) : Event τ ι → Prop
  | .lockExcl u l => s.RoomFor u [⟨true, l⟩]
  | .lockShared u l _ => s.RoomFor u [⟨false, l⟩]
  | .fallback u => s.RoomFor u (s.pc u).reqs
  | .unlock _ _ => True
  | .wake u _ => Acting (s.pc u) ∧ s.RoomFor u (s.pc u).reqs
  | .signal _ => True
  | .borrow _ _ _ _ => False
  | .giveBack _ _ => False

variable {s s' : Sys τ ι} {t u v : τ} {l : ι} {r : PsdLockSem τ × Got} {w : Bool}

structure Calls (s s' : Sys τ ι) (u : τ) (l : ι) (r : PsdLockSem τ × Got) : Prop where
  sem : ∀ l', s'.sem l' = if l' = l then r.1 else s.sem l'
  pc : ∀ v ≠ u, s'.pc v = s.pc v
  own : ∀ v l', s'.own v l' = s.own v l' + if l' = l ∧ v = u ∧ r.2 = .locked then 1 else 0
  locked : r.2 = .locked → s'.pc u = .running
  wait : ∀ e, r.2 = .wait e → s'.pc u = .wait e l .caller

theorem Calls.settle {mem : ι → Bool} : Calls s (s.settle u mem l .caller r) u l r := by
  obtain ⟨p, g⟩ := r
  refine ⟨fun l' => ?_, fun v hv => ?_, fun v l' => ?_, fun hg => ?_, fun e hg => ?_⟩
  · cases g <;> by_cases hl : l' = l <;> simp [Sys.settle, Sys.setSem, Sys.setOwn, Sys.setPc,
      Sys.sleep, hl]
  · cases g <;> simp [Sys.settle, Sys.setSem, Sys.setOwn, Sys.setPc, Sys.sleep, hv]
  · cases g <;> by_cases hv : v = u <;> by_cases hl : l' = l <;>
      simp [Sys.settle, Sys.setSem, Sys.setOwn, Sys.setPc, Sys.sleep, hv, hl]
  · subst hg
    simp [Sys.settle, Sys.setPc]
  · subst hg
    simp [Sys.settle, Sys.setPc, Sys.sleep]

namespace Calls

section

variable (h : Calls s s' u l r)
include h

theorem acting : Acting (s'.pc u) := by
  cases hg : r.2 with
  | locked => rw [h.locked hg]; trivial
  | wait e => rw [h.wait e hg]; trivial

theorem shared {l' : ι} {k : Cont ι} (hk : s'.pc u = .wait false l' k) :
    r.2 = .wait false ∧ l' = l := by
  cases hg : r.2 with
  | locked => rw [h.locked hg] at hk; cases hk
  | wait e => rw [h.wait e hg] at hk; cases hk; exact ⟨rfl, rfl⟩

theorem waitsShared {l' : ι} (hv : v ≠ u) (hs : s'.WaitsShared l' v) :
    s.WaitsShared l' v := by
  obtain ⟨k, hk⟩ := hs
  exact ⟨k, by rw [← h.pc v hv, hk]⟩

theorem frame (hr : Call u w (s.sem l) r) (hv : v ≠ u) (l' : ι) :
    PsdLockSem.Frame v (s.sem l') (s'.sem l') := by
  rw [h.sem]
  split
  · rename_i hl
    subst hl
    exact hr.frame v hv
  · exact .refl v _

theorem waits (hr : Call u w (s.sem l) r)
    (hw : v ≠ u → ∀ l k, s.pc v = .wait false l k → (s.sem l).WaitsOn v) (l' : ι) (k : Cont ι)
    (hvw : s'.pc v = .wait false l' k) : (s'.sem l').WaitsOn v := by
  by_cases hvu : v = u
  · subst hvu
    obtain ⟨hg, rfl⟩ := h.shared hvw
    rw [h.sem, if_pos rfl]
    exact (hr.waits hg).1
  · rw [h.pc v hvu] at hvw
    exact (h.frame hr hvu l').waitsOn (hw hvu l' k hvw)

theorem queued (hr : Call u w (s.sem l) r)
    (hq : ∀ l', (s.sem l').queued u = true → l' = l)
    (hp : v ≠ u → ∀ l, (s.sem l).queued v = true → ∃ e k, s.pc v = .wait e l k) (l' : ι)
    (hqv : (s'.sem l').queued v = true) : ∃ e k, s'.pc v = .wait e l' k := by
  by_cases hvu : v = u
  · subst hvu
    obtain rfl : l' = l := by
      by_contra hl
      rw [h.sem, if_neg hl] at hqv
      exact hl (hq l' hqv)
    cases hg : r.2 with
    | wait e => exact ⟨e, .caller, h.wait e hg⟩
    | locked =>
      rw [h.sem, if_pos rfl, hr.leaves hg] at hqv
      cases hqv
  · rw [(h.frame hr hvu l').queued] at hqv
    obtain ⟨e, k, hk⟩ := hp hvu l' hqv
    exact ⟨e, k, (h.pc v hvu).trans hk⟩

end

end Calls

theorem unlock_sem (s : Sys τ ι) (u : τ) (l l' : ι) :
    (s.unlock u l).sem l' = if l' = l then ((s.sem l).pUnlockSem u).1 else s.sem l' := by
  by_cases hl : l' = l <;> simp [Sys.unlock, Sys.setSem, Sys.setOwn, hl]

theorem unlock_own (s : Sys τ ι) (u v : τ) (l l' : ι) :
    (s.unlock u l).own v l' = s.own v l' - if l' = l ∧ v = u then 1 else 0 := by
  by_cases hv : v = u <;> by_cases hl : l' = l <;>
    simp [Sys.unlock, Sys.setSem, Sys.setOwn, hv, hl]

theorem unlock_frame (hc : (s.sem l).Counted) (hv : v ≠ u) (l' : ι) :
    PsdLockSem.Frame v (s.sem l') ((s.unlock u l).sem l') := by
  rw [unlock_sem]
  split
  · rename_i hl
    subst hl
    exact .pUnlockSem hc hv.symm
  · exact .refl v _

theorem unlock_queued (hc : (s.sem l).Counted) (v : τ) (l' : ι) :
    ((s.unlock u l).sem l').queued v = (s.sem l').queued v := by
  rw [unlock_sem]
  split
  · rename_i hl
    subst hl
    rw [PsdLockSem.queued, pUnlockSem_waitQueue]
    rfl
  · rfl

namespace Lendable

omit [DecidableEq ι] in
theorem init (reg : { ls : List ι // ls.Nodup }) : (Sys.init reg : Sys τ ι).Lendable :=
  ⟨fun _ => pInitSem_ok, by simp [Sys.init], by simp [Sys.init],
    by simp [Sys.init, PsdLockSem.queued, pInitSem], by simp [Sys.init]⟩

theorem settle (h : s.Lendable) (hact : Acting (s.pc u)) (hr : Call u w (s.sem l) r)
    (hw : w = true → s.WaitsShared l u ∧ (s.sem l).promoted u = true)
    (hq : ∀ l', (s.sem l').queued u = true → l' = l) (mem : ι → Bool) :
    (s.settle u mem l .caller r).Lendable := by
  have hs : Calls s (s.settle u mem l .caller r) u l r := .settle
  generalize s.settle u mem l .caller r = s' at hs
  have hwf : w = false := by
    cases w with
    | false => rfl
    | true =>
      obtain ⟨⟨k, hk⟩, hp⟩ := hw rfl
      rw [h.unpromoted u l k hk] at hp
      cases hp
  refine ⟨fun l' => ?_, fun v => hs.waits hr fun _ => h.waits v, fun v l' k hk => ?_,
    fun v => hs.queued hr hq fun _ => h.queued v, fun v ha l' => ?_⟩
  · rw [hs.sem]
    split
    · exact hr.ok (h.ok l) (by simp [hwf])
    · exact h.ok l'
  · by_cases hvu : v = u
    · subst hvu
      obtain ⟨hg, rfl⟩ := hs.shared hk
      rw [hs.sem, if_pos rfl]
      exact (hr.waits hg).2 hwf
    · rw [(hs.frame hr hvu l').promoted]
      rw [hs.pc v hvu] at hk
      exact h.unpromoted v l' k hk
  · have hb : s.own v l' ≤ (s.sem l').held v := by
      by_cases hvu : v = u
      · subst hvu
        exact h.balanced v hact l'
      · rw [hs.pc v hvu] at ha
        exact h.balanced v ha l'
    by_cases hl : l' = l
    · subst hl
      rw [hs.sem, if_pos rfl]
      have hown (v : τ) : s'.own v l' = s.own v l' + if v = u ∧ r.2 = .locked then 1 else 0 := by
        simpa using hs.own v l'
      have := hr.held_own hown v
      omega
    · simpa [hs.sem, hs.own, hl] using hb

omit [DecidableEq ι] in
theorem goFallback (h : s.Lendable) (hpc : s.pc u = .running) :
    (s.setPc u (.fallback l)).Lendable := by
  have hpcv (v : τ) {e : Bool} {l' : ι} {k : Cont ι}
      (hk : (s.setPc u (.fallback l)).pc v = .wait e l' k) : s.pc v = .wait e l' k := by
    by_cases hvu : v = u
    · subst hvu
      simp [Sys.setPc] at hk
    · simpa [Sys.setPc, hvu] using hk
  refine ⟨h.ok, fun v l' k hk => h.waits v l' k (hpcv v hk),
    fun v l' k hk => h.unpromoted v l' k (hpcv v hk), fun v l' hq => ?_, fun v ha => ?_⟩
  · obtain ⟨e, k, hk⟩ := h.queued v l' hq
    have hvu : v ≠ u := by
      rintro rfl
      rw [hpc] at hk
      cases hk
    exact ⟨e, k, by simpa [Sys.setPc, hvu] using hk⟩
  · by_cases hvu : v = u
    · subst hvu
      exact h.balanced v (by rw [hpc]; trivial)
    · exact h.balanced v (by simpa [Sys.setPc, hvu] using ha)

theorem unlock (h : s.Lendable) (hpc : s.pc u = .running) (hpos : 0 < s.own u l) :
    (s.unlock u l).Lendable := by
  have hc := (h.ok l).counted
  have hne {v : τ} {e : Bool} {l' : ι} {k : Cont ι} (hk : s.pc v = .wait e l' k) : v ≠ u := by
    rintro rfl
    rw [hpc] at hk
    cases hk
  refine ⟨fun l' => ?_, fun v l' k hk => ?_, fun v l' k hk => ?_, fun v l' hq => ?_,
    fun v ha l' => ?_⟩
  · rw [unlock_sem]
    split
    · exact ⟨(h.ok l).mutex.pUnlockSem, hc.pUnlockSem⟩
    · exact h.ok l'
  · exact (unlock_frame hc (hne hk) l').waitsOn (h.waits v l' k hk)
  · rw [(unlock_frame hc (hne hk) l').promoted]
    exact h.unpromoted v l' k hk
  · rw [unlock_queued hc] at hq
    exact h.queued v l' hq
  · have hb := h.balanced v ha l'
    rw [unlock_own]
    by_cases hl : l' = l
    · subst hl
      rw [unlock_sem, if_pos rfl]
      by_cases hvu : v = u
      · subst hvu
        have := pUnlockSem_held hc ((h.ok l').holder (hpos.trans_le hb))
        simp only [true_and, if_true]
        omega
      · rw [(pUnlockSem_others hc hvu).held]
        simpa [hvu] using hb
    · simpa [unlock_sem, hl] using hb

omit [DecidableEq ι] in
theorem not_queued (h : s.Lendable) (hw : ∀ e l k, s.pc u ≠ .wait e l k) (l : ι) :
    (s.sem l).queued u = false := by
  by_contra hq
  obtain ⟨e, k, hk⟩ := h.queued u l (by simpa using hq)
  exact hw e l k hk

theorem lockExcl (h : s.Lendable) (hact : Acting (s.pc u)) (hw : ∀ e l k, s.pc u ≠ .wait e l k)
    (hroom : s.RoomFor u [⟨true, l⟩]) (mem : ι → Bool) :
    (s.settle u mem l .caller ((s.sem l).pLockSemExcl u)).Lendable := by
  have hq := h.not_queued hw
  have hr : (s.sem l).Room u 0 1 := hroom.head
  exact h.settle hact (.pLockSemExcl (h.ok l).counted (hq l) hr.excl) (by simp)
    (fun l' hq' => by rw [hq l'] at hq'; cases hq') mem

theorem step {e : Event τ ι} (h : s.Lendable) (hc : s.Calling e) (hs : s.step e = some s') :
    s'.Lendable := by
  cases e with
  | lockExcl u l =>
    simp only [Sys.step] at hs
    split at hs <;> cases hs
    rename_i hpc
    exact h.lockExcl (by rw [hpc]; trivial) (by simp [hpc]) hc _
  | lockShared u l mem =>
    simp only [Sys.step] at hs
    split at hs
    · rename_i hpc
      have hq := h.not_queued (u := u) (by simp [hpc])
      have hr : (s.sem l).Room u 1 0 := RoomFor.head hc
      split at hs <;> cases hs
      · rename_i r hrs
        exact h.settle (by rw [hpc]; trivial) (.pLockSemShared (h.ok l).counted (hq l) hr hrs)
          (by simp) (fun l' hq' => by rw [hq l'] at hq'; cases hq') _
      · exact h.goFallback hpc
    · cases hs
  | fallback u =>
    simp only [Sys.step] at hs
    split at hs <;> cases hs
    rename_i l hpc
    have hroom : s.RoomFor u (s.pc u).reqs := hc
    rw [hpc] at hroom
    exact h.lockExcl (by rw [hpc]; trivial) (by simp [hpc]) hroom _
  | unlock u l =>
    simp only [Sys.step] at hs
    split at hs <;> cases hs
    rename_i hpc
    exact h.unlock hpc.1 hpc.2
  | wake u mem =>
    simp only [Sys.step] at hs
    split at hs
    · rename_i e l k hpc
      split at hs <;> cases hs
      obtain ⟨hact, hroom⟩ := hc
      rw [hpc] at hact hroom
      cases k with
      | reclaim rest => exact hact.elim
      | caller =>
        have hr : if e then (s.sem l).Room u 0 1 else (s.sem l).Room u 1 0 := hroom.head
        have hcall : Call u (!e && (s.sem l).promoted u) (s.sem l) ((s.sem l).wake u e) :=
          .wake (h.ok l).counted hr fun he => (h.waits u l .caller (he ▸ hpc)).noRecord
        have h' : Lendable { s with sig := Function.update s.sig u false } :=
          ⟨h.ok, h.waits, h.unpromoted, h.queued, h.balanced⟩
        refine h'.settle (by simp [hpc, Acting]) hcall (fun hw => ?_) (fun l' hq => ?_) mem
        · simp only [Bool.and_eq_true, Bool.not_eq_true'] at hw
          obtain ⟨rfl, hp⟩ := hw
          exact ⟨⟨_, hpc⟩, hp⟩
        · obtain ⟨e', k', hk⟩ := h.queued u l' hq
          rw [hpc] at hk
          cases hk
          rfl
    · cases hs
  | borrow u task memE memS => exact hc.elim
  | giveBack u mem => exact hc.elim
  | signal u =>
    cases hs
    exact ⟨h.ok, h.waits, h.unpromoted, h.queued, h.balanced⟩

theorem of_run {reg : { ls : List ι // ls.Nodup }} {evs : List (Event τ ι)}
    (h : Run Sys.step Calling (Sys.init reg) evs s) : s.Lendable :=
  h.invariant Lendable (init reg) fun _ _ _ ht hc hs => ht.step hc hs

end Lendable

end Neptune.Sys
