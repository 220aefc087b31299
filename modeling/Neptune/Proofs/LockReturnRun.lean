import Neptune.Proofs.LockCalls

/-! A loan over all locks: from `psdBorrowLocksWait` of one task, through any lock and unlock
calls of the others, to its return. -/

namespace Neptune.Sys

open Runs PsdLockSem

variable {τ ι : Type} [DecidableEq τ] [DecidableEq ι]

def kinds (l : ι) (reqs : List (Req ι)) : List Bool := (reqs.filter (·.lock = l)).map (·.excl)

def lentOn (l : ι) : Pc τ ι → List (PsdBorrowLock ι)
  | .borrowing _ bs _ => on l bs
  | _ => []

def owedOn (l : ι) : Pc τ ι → List Bool
  | .borrowing _ _ rs => kinds l (rs.flatMap PsdBorrowLock.reqs)
  | .wait e l' k => kinds l (⟨e, l'⟩ :: k.reqs)
  | _ => []

/-- The steps while the lender is away: lock and unlock calls of the others, and its own
return; no counter wraps. -/
def Returning (t : τ) (s : Sys τ ι) : Event τ ι → Prop
  | .lockExcl u l => u ≠ t ∧ s.RoomFor u [⟨true, l⟩]
  | .lockShared u l _ => u ≠ t ∧ s.RoomFor u [⟨false, l⟩]
  | .fallback u => u ≠ t ∧ s.RoomFor u (s.pc u).reqs
  | .unlock u _ => u ≠ t
  | .wake u _ => (u = t ∨ Acting (s.pc u)) ∧ s.RoomFor u (s.pc u).reqs
  | .giveBack u _ => u = t ∧ s.RoomFor u (s.pc u).reqs
  | .signal _ => True
  | .borrow _ _ _ _ => False

def NoMemory (t : τ) (l : ι) : Event τ ι → Prop
  | .wake u mem => u = t ∧ mem l = false
  | .giveBack u mem => u = t ∧ mem l = false
  | _ => False

/-- The loan, but for where the lender stands: what is lent and owed is given. -/
structure BackBut (F : ι → Prop) (s₀ : Sys τ ι) (t task : τ) (s : Sys τ ι)
    (lent : ι → List (PsdBorrowLock ι)) (owed : ι → List Bool) : Prop where
  waits : ∀ u ≠ t, ∀ l k, s.pc u = .wait false l k → (s.sem l).WaitsOn u
  acting : ∀ u ≠ t, Acting (s.pc u) → ∀ l, s₀.own u l ≤ (s₀.sem l).held u
  idle : ∀ u ≠ t, ¬ Acting (s.pc u) → s.own u = s₀.own u
  queued : ∀ u ≠ t, ∀ l, (s.sem l).queued u = true → ∃ e k, s.pc u = .wait e l k
  lock : ∀ l, LockInv (F l) (s₀.sem l) (fun u => s₀.own u l) t task l (s.sem l)
    (fun u => s.own u l) (s.WaitsShared l) (lent l) (owed l)

def LenderAt (t task : τ) (s : Sys τ ι) : Pc τ ι → Prop
  | .running => ∀ l, (s.sem l).queued t = false
  | .borrowing task' bs rs => task' = task ∧ (∀ l, (s.sem l).queued t = false) ∧
      ∀ l, on l bs = [] ∨ on l rs = []
  | .wait e l (.reclaim _) => (∀ l' ≠ l, (s.sem l').queued t = false) ∧
      (e = false → (s.sem l).NoRecord t ∧ (s.sem l).promoted t = false)
  | _ => False

structure Back (F : ι → Prop) (s₀ : Sys τ ι) (t task : τ) (s : Sys τ ι) : Prop where
  but : BackBut F s₀ t task s (fun l => lentOn l (s.pc t)) (fun l => owedOn l (s.pc t))
  lender : LenderAt t task s (s.pc t)

variable {F : ι → Prop} {s₀ s s' : Sys τ ι} {t task u : τ} {l : ι}
  {lent : ι → List (PsdBorrowLock ι)} {owed : ι → List Bool}

theorem kinds_cons_self (e : Bool) (l : ι) (rest : List (Req ι)) :
    kinds l (⟨e, l⟩ :: rest) = e :: kinds l rest := by
  simp [kinds]

theorem kinds_cons_ne {l' : ι} (h : l' ≠ l) (e : Bool) (rest : List (Req ι)) :
    kinds l (⟨e, l'⟩ :: rest) = kinds l rest := by
  simp [kinds, h]

theorem kinds_flatMap (l : ι) (rs : List (PsdBorrowLock ι)) :
    kinds l (rs.flatMap PsdBorrowLock.reqs) = entryKinds (on l rs) := by
  induction rs with
  | nil => rfl
  | cons b rs ih =>
    unfold kinds at ih ⊢
    rw [List.flatMap_cons, List.filter_append, List.map_append, ih]
    by_cases hb : b.lockSem = l
    · rw [on_cons_self b rs hb]
      simp [entryKinds, PsdBorrowLock.reqs, List.filter_append, hb]
    · rw [on_cons_ne b rs hb]
      simp [PsdBorrowLock.reqs, List.filter_append, hb]

omit [DecidableEq ι] in
theorem BackBut.counted (h : BackBut F s₀ t task s lent owed) (l : ι) : (s.sem l).Counted :=
  (h.lock l).counted

omit [DecidableEq ι] in
theorem BackBut.own_le (h : BackBut F s₀ t task s lent owed) (hu : u ≠ t) (l : ι) :
    s₀.own u l ≤ s.own u l + (s₀.sem l).held u := by
  by_cases ha : Acting (s.pc u)
  · have := h.acting u hu ha l
    omega
  · rw [h.idle u hu ha]
    omega

structure LenderFrame (t : τ) (s s' : Sys τ ι) : Prop where
  pc : s'.pc t = s.pc t
  sem : ∀ l, PsdLockSem.Frame t (s.sem l) (s'.sem l)

theorem LenderFrame.lenderAt (h : LenderFrame t s s') {c : Pc τ ι} (hl : LenderAt t task s c) :
    LenderAt t task s' c := by
  have hq (l : ι) := (h.sem l).queued
  cases c with
  | running => exact fun l => (hq l).trans (hl l)
  | fallback l => exact hl
  | borrowing task' bs rs => exact ⟨hl.1, fun l => (hq l).trans (hl.2.1 l), hl.2.2⟩
  | wait e l k =>
    cases k with
    | caller => exact hl
    | reclaim rest =>
      refine ⟨fun l' hl' => (hq l').trans (hl.1 l' hl'), fun he => ?_⟩
      obtain ⟨h1, h2⟩ := hl.2 he
      exact ⟨(h.sem l).noRecord.mpr h1, (h.sem l).promoted.trans h2⟩

theorem Back.of_but (h : Back F s₀ t task s) (hf : LenderFrame t s s')
    (hb : BackBut F s₀ t task s' (fun l => lentOn l (s.pc t)) (fun l => owedOn l (s.pc t))) :
    Back F s₀ t task s' :=
  ⟨by rw [hf.pc]; exact hb, by rw [hf.pc]; exact hf.lenderAt h.lender⟩

variable {e : Bool} {mem : ι → Bool} {rest : List (Req ι)} {p : PsdLockSem τ} {r : PsdLockSem τ × Got}

theorem Back.settle (h : Back F s₀ t task s) (hu : u ≠ t) (hact : Acting (s.pc u)) {w : Bool} (hr : Call u w (s.sem l) r)
    (hw : w = true → s.WaitsShared l u ∧ (s.sem l).promoted u = true)
    (hq : ∀ l', (s.sem l').queued u = true → l' = l) (mem : ι → Bool) :
    Back F s₀ t task (s.settle u mem l .caller r) := by
  have hs : Calls s (s.settle u mem l .caller r) u l r := .settle
  generalize s.settle u mem l .caller r = s' at hs
  refine h.of_but ⟨hs.pc t hu.symm, hs.frame hr hu.symm⟩ ⟨?_, ?_, ?_, ?_, ?_⟩
  · exact fun v hv => hs.waits hr fun _ => h.but.waits v hv
  · intro v hv ha
    by_cases hvu : v = u
    · subst hvu
      exact h.but.acting v hv hact
    · rw [hs.pc v hvu] at ha
      exact h.but.acting v hv ha
  · intro v hv ha
    have hvu : v ≠ u := fun he => ha (he ▸ hs.acting)
    rw [hs.pc v hvu] at ha
    rw [← h.but.idle v hv ha]
    funext l'
    simp [hs.own, hvu]
  · exact fun v hv => hs.queued hr hq fun _ => h.but.queued v hv
  · intro l'
    by_cases hl : l' = l
    · subst hl
      rw [hs.sem, if_pos rfl]
      exact (h.but.lock l').call hr hu (fun v => by simpa using hs.own v l') hw
        (fun v => hs.waitsShared) fun ⟨k, hk⟩ => (hs.shared hk).1
    · rw [hs.sem, if_neg hl]
      refine (h.but.lock l').elsewhere (fun v _ => by simp [hs.own, hl]) fun v _ hv => ?_
      by_cases hvu : v = u
      · subst hvu
        obtain ⟨k, hk⟩ := hv
        exact absurd (hs.shared hk).2 hl
      · exact hs.waitsShared hvu hv

theorem Back.goFallback (h : Back F s₀ t task s) (hu : u ≠ t) (hpc : s.pc u = .running) :
    Back F s₀ t task (s.setPc u (.fallback l)) := by
  have hpcu : (s.setPc u (.fallback l)).pc u = .fallback l := by simp [Sys.setPc]
  have hpcv (v : τ) (hv : v ≠ u) : (s.setPc u (.fallback l)).pc v = s.pc v := by
    simp [Sys.setPc, hv]
  have hact : Acting (s.pc u) := by rw [hpc]; trivial
  refine h.of_but ⟨hpcv t hu.symm, fun _ => .refl t _⟩ ⟨?_, ?_, ?_, ?_, ?_⟩
  · intro v hv l' k hvw
    by_cases hvu : v = u
    · rw [hvu, hpcu] at hvw
      cases hvw
    · rw [hpcv v hvu] at hvw
      exact h.but.waits v hv l' k hvw
  · intro v hv ha
    by_cases hvu : v = u
    · subst hvu
      exact h.but.acting v hv hact
    · rw [hpcv v hvu] at ha
      exact h.but.acting v hv ha
  · intro v hv ha
    by_cases hvu : v = u
    · rw [hvu, hpcu] at ha
      exact absurd trivial ha
    · rw [hpcv v hvu] at ha
      exact h.but.idle v hv ha
  · intro v hv l' hqv
    obtain ⟨e, k, hk⟩ := h.but.queued v hv l' hqv
    have hvu : v ≠ u := by
      rintro rfl
      rw [hpc] at hk
      cases hk
    exact ⟨e, k, (hpcv v hvu).trans hk⟩
  · intro l'
    refine (h.but.lock l').elsewhere (fun _ _ => rfl) fun v _ hwait => ?_
    obtain ⟨k, hk⟩ := hwait
    by_cases hvu : v = u
    · rw [hvu, hpcu] at hk
      cases hk
    · exact ⟨k, by rw [← hpcv v hvu, hk]⟩

theorem Back.wakeOther {k : Cont ι} (h : Back F s₀ t task s) (hu : u ≠ t)
    (hact : Acting (s.pc u)) (hpc : s.pc u = .wait e l k) (hroom : s.RoomFor u (⟨e, l⟩ :: k.reqs))
    (mem : ι → Bool) : Back F s₀ t task (s.settle u mem l k ((s.sem l).wake u e)) := by
  obtain rfl : k = .caller := by
    rw [hpc] at hact
    cases k with
    | caller => rfl
    | reclaim rest => exact hact.elim
  have hr : if e then (s.sem l).Room u 0 1 else (s.sem l).Room u 1 0 := hroom.head
  have hcall : Call u (!e && (s.sem l).promoted u) (s.sem l) ((s.sem l).wake u e) := by
    refine .wake (h.but.counted l) hr fun he => ?_
    subst he
    exact (h.but.waits u hu l _ hpc).noRecord
  refine h.settle hu hact hcall (fun hw => ?_) (fun l' hq => ?_) mem
  · simp only [Bool.and_eq_true, Bool.not_eq_true'] at hw
    obtain ⟨rfl, hp⟩ := hw
    exact ⟨⟨_, hpc⟩, hp⟩
  · obtain ⟨e', k', hk⟩ := h.but.queued u hu l' hq
    rw [hpc] at hk
    cases hk
    rfl

theorem Back.unlock (h : Back F s₀ t task s) (hu : u ≠ t) (hpc : s.pc u = .running)
    (hpos : 0 < s.own u l) : Back F s₀ t task (s.unlock u l) := by
  have hact : Acting (s.pc u) := by rw [hpc]; trivial
  have hc := (h.but.lock l).counted
  have hnw (l' : ι) : ¬ s.WaitsShared l' u := by
    rintro ⟨k, hk⟩
    rw [hpc] at hk
    cases hk
  refine h.of_but ⟨rfl, unlock_frame hc hu.symm⟩ ⟨?_, h.but.acting, ?_, ?_, ?_⟩
  · intro v hv l' k hvw
    have hvu : v ≠ u := fun he => hnw l' ⟨k, he ▸ hvw⟩
    exact (unlock_frame hc hvu l').waitsOn (h.but.waits v hv l' k hvw)
  · intro v hv ha
    have hvu : v ≠ u := fun he => ha (he ▸ hact)
    rw [← h.but.idle v hv ha]
    funext l'
    simp [unlock_own, hvu]
  · intro v hv l' hqv
    rw [unlock_queued hc] at hqv
    exact h.but.queued v hv l' hqv
  · intro l'
    by_cases hl : l' = l
    · subst hl
      rw [unlock_sem, if_pos rfl]
      exact (h.but.lock l').pUnlockSem hu (h.but.acting u hu hact l') hpos (hnw l')
        fun v => by simpa using unlock_own s u v l' l'
    · rw [unlock_sem, if_neg hl]
      exact (h.but.lock l').elsewhere (fun v _ => by simp [unlock_own, hl]) fun v _ hs => hs

theorem BackBut.setSem (h : BackBut F s₀ t task s lent owed)
    (hf : ∀ u ≠ t, PsdLockSem.Frame u (s.sem l) p) {owed' : ι → List Bool}
    (hl : LockInv (F l) (s₀.sem l) (fun u => s₀.own u l) t task l p (fun u => s.own u l)
      (s.WaitsShared l) (lent l) (owed' l))
    (ho : ∀ l' ≠ l, owed' l' = owed l') : BackBut F s₀ t task (s.setSem l p) lent owed' := by
  have hsem (l' : ι) : (s.setSem l p).sem l' = if l' = l then p else s.sem l' := by
    by_cases hl : l' = l <;> simp [Sys.setSem, hl]
  have hframe (v : τ) (hv : v ≠ t) (l' : ι) : PsdLockSem.Frame v (s.sem l') ((s.setSem l p).sem l') := by
    rw [hsem]
    split
    · rename_i hl
      subst hl
      exact hf v hv
    · exact .refl v _
  refine ⟨fun v hv l' k hvw => (hframe v hv l').waitsOn (h.waits v hv l' k hvw), h.acting, h.idle,
    fun v hv l' hqv => ?_, fun l' => ?_⟩
  · rw [(hframe v hv l').queued] at hqv
    exact h.queued v hv l' hqv
  · rw [hsem]
    split
    · rename_i hl'
      subst hl'
      exact hl
    · rename_i hl'
      rw [ho l' hl']
      exact h.lock l'

omit [DecidableEq ι] in
theorem BackBut.congr (h : BackBut F s₀ t task s lent owed) (hsem : s'.sem = s.sem)
    (hown : s'.own = s.own) (hpc : ∀ u ≠ t, s'.pc u = s.pc u) :
    BackBut F s₀ t task s' lent owed := by
  refine ⟨fun v hv l k hw => ?_, fun v hv ha => ?_, fun v hv ha => ?_, fun v hv l hq => ?_,
    fun l => ?_⟩
  · rw [hpc v hv] at hw
    rw [hsem]
    exact h.waits v hv l k hw
  · rw [hpc v hv] at ha
    exact h.acting v hv ha
  · rw [hpc v hv] at ha
    rw [hown]
    exact h.idle v hv ha
  · rw [hsem] at hq
    rw [hpc v hv]
    exact h.queued v hv l hq
  · rw [hsem, hown]
    refine (h.lock l).elsewhere (fun _ _ => rfl) fun v hv hs => ?_
    obtain ⟨k, hk⟩ := hs
    exact ⟨k, by rw [← hpc v hv, hk]⟩

theorem BackBut.done (h : BackBut F s₀ t task s (fun _ => []) (fun _ => []))
    (hq : ∀ l, (s.sem l).queued t = false) : Back F s₀ t task (s.setPc t .running) := by
  have hpc : (s.setPc t .running).pc t = .running := by simp [Sys.setPc]
  refine ⟨?_, by rw [hpc]; exact hq⟩
  rw [hpc]
  exact h.congr rfl rfl fun u hu => by simp [Sys.setPc, hu]

section

variable (h : BackBut F s₀ t task s (fun _ => []) fun l' => kinds l' (⟨e, l⟩ :: rest))
include h

theorem BackBut.wait (hq : ∀ l' ≠ l, (s.sem l').queued t = false)
    (he : e = false → (s.sem l).NoRecord t ∧ (s.sem l).promoted t = false) :
    Back F s₀ t task (s.sleep t (.wait e l (.reclaim rest))) := by
  have hpc : (s.sleep t (.wait e l (.reclaim rest))).pc t = .wait e l (.reclaim rest) := by
    simp [Sys.sleep, Sys.setPc]
  refine ⟨?_, by rw [hpc]; exact ⟨hq, he⟩⟩
  rw [hpc]
  exact h.congr rfl rfl fun u hu => by simp [Sys.sleep, Sys.setPc, hu]

theorem BackBut.lenderCall (hr : LenderCall (F l) (s₀.sem l) (fun u => s₀.own u l) t task l (fun u => s.own u l)
      (s.WaitsShared l) (s.sem l) (kinds l rest) r) :
    (r.2 = .locked → BackBut F s₀ t task (s.setSem l r.1) (fun _ => []) fun l' => kinds l' rest) ∧
      ∀ e', r.2 = .wait e' →
        BackBut F s₀ t task (s.setSem l r.1) (fun _ => []) fun l' => kinds l' (⟨e', l⟩ :: rest) := by
  refine ⟨fun hg => ?_, fun e' hg => ?_⟩
  · exact h.setSem hr.call.frame (hr.locked hg) fun l' hl => (kinds_cons_ne (Ne.symm hl) e rest).symm
  · refine h.setSem hr.call.frame ?_ fun l' hl => ?_
    · rw [kinds_cons_self]
      exact hr.waits e' hg
    · rw [kinds_cons_ne (Ne.symm hl), kinds_cons_ne (Ne.symm hl)]

end

theorem BackBut.reclaim {reqs : List (Req ι)}
    (h : BackBut F s₀ t task s (fun _ => []) fun l => kinds l reqs)
    (hq : ∀ l, (s.sem l).queued t = false) (hr : s.RoomFor t reqs)
    (hF : ∀ l, mem l = false → F l) : Back F s₀ t task (reclaim t mem reqs s) := by
  induction reqs generalizing s with
  | nil => exact h.done hq
  | cons r rest ih =>
    obtain ⟨e, l⟩ := r
    have hroom := reclaimOne_room (mem l) (h.counted l) hr
    have hlock := h.lock l
    rw [kinds_cons_self] at hlock
    have hcall : LenderCall (F l) (s₀.sem l) (fun u => s₀.own u l) t task l (fun u => s.own u l)
        (s.WaitsShared l) (s.sem l) (kinds l rest) (reclaimOne (s.sem l) t (mem l) e) := by
      refine .reclaimOne hlock (hq l) ?_ (hF l) fun u hu => h.own_le hu l
      have := hr.head
      cases e
      · exact Room.mono (by simpa using this) (by omega) (by omega)
      · exact Room.mono (by simpa using this) (by omega) (by omega)
    obtain ⟨h1, h2⟩ := h.lenderCall hcall
    rw [Sys.reclaim]
    generalize reclaimOne (s.sem l) t (mem l) e = x at hroom hcall h1 h2
    obtain ⟨p, g⟩ := x
    have hq' (l' : ι) (hl : l' ≠ l) : ((s.setSem l p).sem l').queued t = false := by
      simpa [Sys.setSem, hl] using hq l'
    cases g with
    | locked =>
      refine ih (h1 rfl) (fun l' => ?_) hroom
      by_cases hl : l' = l
      · subst hl
        simpa [Sys.setSem] using hcall.call.leaves rfl
      · exact hq' l' hl
    | wait e' =>
      refine (h2 e' rfl).wait hq' fun he => ?_
      subst he
      obtain ⟨hw, hp⟩ := hcall.call.waits rfl
      simpa [Sys.setSem] using And.intro hw.noRecord (hp rfl)

theorem Back.wakeLender
    (h : Back F s₀ t task s) (hpc : s.pc t = .wait e l (.reclaim rest))
    (hr : s.RoomFor t (⟨e, l⟩ :: rest)) (hF : ∀ l, mem l = false → F l) :
    Back F s₀ t task (s.settle t mem l (.reclaim rest) ((s.sem l).wake t e)) := by
  have hb := h.but
  have hq := h.lender
  rw [hpc] at hb hq
  obtain ⟨hq, hn⟩ := hq
  have hb : BackBut F s₀ t task s (fun _ => []) fun l' => kinds l' (⟨e, l⟩ :: rest) := hb
  have hlock := hb.lock l
  rw [kinds_cons_self] at hlock
  have hroom : (s.setSem l ((s.sem l).wake t e).1).RoomFor t rest :=
    hr.tail (l := l) rfl (Room.wake hr.head (hb.counted l) fun he => (hn he).1)
  have hcall : LenderCall (F l) (s₀.sem l) (fun u => s₀.own u l) t task l (fun u => s.own u l)
      (s.WaitsShared l) (s.sem l) (kinds l rest) ((s.sem l).wake t e) := by
    refine .wake hlock hn ?_ fun u hu => hb.own_le hu l
    have := hr.head
    cases e
    · exact Room.mono (by simpa using this) (by omega) (by omega)
    · exact Room.mono (by simpa using this) (by omega) (by omega)
  obtain ⟨h1, h2⟩ := hb.lenderCall hcall
  generalize (s.sem l).wake t e = x at hroom hcall h1 h2
  obtain ⟨p, g⟩ := x
  have hq' (l' : ι) (hl : l' ≠ l) : ((s.setSem l p).sem l').queued t = false := by
    simpa [Sys.setSem, hl] using hq l' hl
  cases g with
  | locked =>
    refine (h1 rfl).reclaim (fun l' => ?_) hroom hF
    by_cases hl : l' = l
    · subst hl
      simpa [Sys.setSem] using hcall.call.leaves rfl
    · exact hq' l' hl
  | wait e' =>
    refine (h2 e' rfl).wait hq' fun he => ?_
    subst he
    obtain ⟨hw, hp⟩ := hcall.call.waits rfl
    simpa [Sys.setSem] using And.intro hw.noRecord (hp rfl)

omit [DecidableEq ι] in
theorem takeBackOne_queued (t task u : τ) (bs rs : List (PsdBorrowLock ι)) (p : PsdLockSem τ) :
    (takeBackOne t task bs p rs).1.queued u = p.queued u := by
  rw [queued, takeBackOne_waitQueue]
  rfl

theorem Back.giveBack {bs rs : List (PsdBorrowLock ι)}
    (h : Back F s₀ t task s) (hne : task ≠ t) (hpc : s.pc t = .borrowing task bs rs)
    (hr : s.RoomFor t ((bs ++ rs).flatMap PsdBorrowLock.reqs)) (hF : ∀ l, mem l = false → F l) :
    Back F s₀ t task (s.giveBack t task bs rs mem) := by
  have hb := h.but
  have hq := h.lender
  rw [hpc] at hb hq
  obtain ⟨-, hq, hor⟩ := hq
  have hlock (l : ι) : LockInv (F l) (s₀.sem l) (fun u => s₀.own u l) t task l (s.sem l)
      (fun u => s.own u l) (s.WaitsShared l) (on l bs) (entryKinds (on l rs)) := by
    rw [← kinds_flatMap]
    exact hb.lock l
  have hon (l : ι) := takeBackAll_on t task l bs s.sem rs
  have h1 (l : ι) := congrArg Prod.fst (hon l)
  have h2 (l : ι) := congrArg Prod.snd (hon l)
  dsimp only at h1 h2
  have hroom := takeBackAll_room hr hne fun l =>
    ⟨hb.counted l, (hlock l).moved, (hlock l).returnable⟩
  refine BackBut.reclaim ⟨fun v hv l k hw => ?_, hb.acting, hb.idle, fun v hv l hqv => ?_,
    fun l => ?_⟩ (fun l => ?_) hroom hF
  · dsimp only
    rw [h1]
    exact (hb.waits v hv l k hw).takeBackOne hv.symm
  · dsimp only at hqv
    rw [h1, takeBackOne_queued] at hqv
    exact hb.queued v hv l hqv
  · dsimp only
    rw [kinds_flatMap, h1, h2]
    exact (hlock l).takeBackOne hne (hor l)
  · dsimp only
    rw [h1, takeBackOne_queued]
    exact hq l

omit [DecidableEq ι] in
theorem LockInv.of_handed {p' : PsdLockSem τ} {F : Prop} {own : τ → ℕ} {W : τ → Prop} {a : ℕ}
    (hok : p'.Ok) (hx : p'.exclHeld t = 0) (hs : p'.sharedHeld t = 0)
    (hv : ∀ v ≠ t, SameHolds v p p')
    (hU : p.exclHeld t = 0 → ∀ u ≠ t, W u → p'.promoted u = false) :
    LockInv F p own t task l p' own W []
      (entryKinds (sharedEntry l (p.sharedHeld t) a ++ exclEntry l (p.exclHeld t))) := by
  rw [entryKinds_entries]
  have howed : Owed F (p.exclHeld t) (p.sharedHeld t) t p'
      (List.replicate (p.sharedHeld t) false ++ List.replicate (p.exclHeld t) true) :=
    .asBefore (by omega) (by omega) (fun _ => hx)
  rcases Nat.eq_zero_or_pos (p.exclHeld t) with h0 | hpos
  · refine .settled hok (Or.inr (hU h0)) howed fun u hu => ?_
    rw [(hv u hu).held]
    simp only [ite_self]
    omega
  · refine .handed hok.counted hx ?_ howed fun u hu => ?_
    · simp [hpos.ne']
    · rw [(hv u hu).held]
      omega

omit [DecidableEq ι] in
theorem lend_unpromoted (hc : p.Counted) (hq : p.queued task = true)
    (h0 : p.exclHeld t = 0) (h : (lend t task true true l p .empty).1.promoted u = true) :
    p.promoted u = true := by
  have hid := (lendExcl_handed (t := t) (l := l) hc hq).2.2.2 h0
  unfold lend at h
  dsimp only at h
  rw [hid] at h
  unfold lendShared at h
  split at h
  · exact h
  · split at h
    · exact h
    · simp only [if_true] at h
      exact promoted_of_toHead h

theorem Lendable.back (h : s₀.Lendable) (hpc : s₀.pc t = .running) (hne : task ≠ t)
    (hm : ∀ l ∈ s₀.registered.1, (s₀.sem l).queued task = false → (s₀.sem l).MergeRoom t task) :
    Back F s₀ t task (s₀.borrow t task (fun _ => true) fun _ => true) := by
  have hon (l : ι) := lendAll_on t task s₀.registered.2 (fun _ => true) (fun _ => true) s₀.sem
    ⟨[], []⟩ (fun l _ => ⟨rfl, rfl⟩) l
  have hpct : (s₀.borrow t task (fun _ => true) fun _ => true).pc t = .borrowing task
      (lendAll t task (fun _ => true) (fun _ => true) s₀.registered.1 s₀.sem ⟨[], []⟩).2.borrows
      (lendAll t task (fun _ => true) (fun _ => true) s₀.registered.1 s₀.sem
        ⟨[], []⟩).2.reclaims := by
    simp [Sys.borrow]
  have hpcu (u : τ) (hu : u ≠ t) :
      (s₀.borrow t task (fun _ => true) fun _ => true).pc u = s₀.pc u := by
    simp [Sys.borrow, hu]
  have hsem (l : ι) : (s₀.borrow t task (fun _ => true) fun _ => true).sem l =
      if l ∈ s₀.registered.1 then (lend t task true true l (s₀.sem l) .empty).1 else s₀.sem l :=
    (hon l).1
  have hown : (s₀.borrow t task (fun _ => true) fun _ => true).own = s₀.own := rfl
  have hqt (l : ι) : (s₀.sem l).queued t = false := by
    by_contra hq
    obtain ⟨e, k, hk⟩ := h.queued t l (by simpa using hq)
    rw [hpc] at hk
    cases hk
  have hq (u : τ) (l : ι) : ((s₀.borrow t task (fun _ => true) fun _ => true).sem l).queued u =
      (s₀.sem l).queued u := by
    rw [hsem]
    split
    · exact lend_queued _ _
    · rfl
  generalize s₀.borrow t task (fun _ => true) (fun _ => true) = s at hpct hpcu hsem hown hq
  have hW (u : τ) (hu : u ≠ t) (l : ι) (hs : s.WaitsShared l u) : (s₀.sem l).promoted u = false := by
    obtain ⟨k, hk⟩ := hs
    rw [hpcu u hu] at hk
    exact h.unpromoted u l k hk
  refine ⟨⟨fun v hv l k hw => ?_, fun v hv ha => ?_, fun v hv _ => by rw [hown], fun v hv l hqv => ?_,
    fun l => ?_⟩, ?_⟩
  · rw [hpcu v hv] at hw
    rw [hsem]
    split
    · exact (h.waits v l k hw).lend _
    · exact h.waits v l k hw
  · rw [hpcu v hv] at ha
    exact h.balanced v ha
  · rw [hq] at hqv
    rw [hpcu v hv]
    exact h.queued v l hqv
  · rw [hpct, hown]
    simp only [lentOn, owedOn, kinds_flatMap]
    rw [hsem, (hon l).2.1, (hon l).2.2]
    by_cases hl : l ∈ s₀.registered.1
    · simp only [if_pos hl]
      have hok : (lend t task true true l (s₀.sem l) .empty).1.Ok :=
        (h.ok l).lend hne (fun _ _ _ => rfl) (fun _ => hm l hl) _
      cases hqu : (s₀.sem l).queued task with
      | true =>
        obtain ⟨⟨a, g1⟩, g2, g3, g4⟩ := lend_handed (t := t) (l := l) (h.ok l).counted hqu
        rw [g1]
        refine LockInv.of_handed hok g2 g3 g4 fun h0 u hu hw => ?_
        by_contra hp
        have := lend_unpromoted (h.ok l).counted hqu h0 (by simpa using hp)
        rw [hW u hu l hw] at this
        cases this
      | false =>
        obtain ⟨a, g1, g2, g3, g4⟩ := lend_moved_holds (l := l) (h.ok l) hne hqu (hm l hl hqu)
        rw [g1]
        refine .lent hok (Or.inr fun u hu hw => ?_) g2 fun u hu => ?_
        · rw [promoted, g4]
          exact hW u hu l hw
        · rw [g3 u hu]
          unfold held
          omega
    · simp only [if_neg hl]
      refine .settled (h.ok l) (Or.inr fun u hu hw => hW u hu l hw) ?_ fun u hu => ?_
      · exact .asBefore (n := 0) (m := 0) rfl rfl (by simp)
      · simp only [ite_self]
        omega
  · rw [hpct]
    refine ⟨rfl, fun l => (hq t l).trans (hqt l), fun l => ?_⟩
    rw [(hon l).2.1, (hon l).2.2]
    by_cases hl : l ∈ s₀.registered.1
    · simp only [if_pos hl]
      cases hqu : (s₀.sem l).queued task with
      | true =>
        obtain ⟨⟨a, g1⟩, -⟩ := lend_handed (t := t) (l := l) (h.ok l).counted hqu
        exact Or.inl (by rw [g1])
      | false =>
        obtain ⟨a, g1, -⟩ := lend_moved_holds (l := l) (h.ok l) hne hqu (hm l hl hqu)
        exact Or.inr (by rw [g1])
    · simp only [if_neg hl]
      exact Or.inl rfl

theorem Back.mono {G : ι → Prop} (h : Back F s₀ t task s) (hFG : ∀ l, F l → G l) :
    Back G s₀ t task s :=
  ⟨⟨h.but.waits, h.but.acting, h.but.idle, h.but.queued, fun l => (h.but.lock l).mono (hFG l)⟩,
    h.lender⟩

theorem Back.step {e : Event τ ι} (h : Back F s₀ t task s) (hne : task ≠ t)
    (hc : Returning t s e) (hF : ∀ l, NoMemory t l e → F l) (hs : s.step e = some s') :
    Back F s₀ t task s' := by
  -- a task that makes a lock call is in no queue
  have hfree (u : τ) (hu : u ≠ t) (hw : ∀ e l k, s.pc u ≠ .wait e l k) (l : ι) :
      (s.sem l).queued u = false := by
    by_contra hq
    obtain ⟨e, k, hk⟩ := h.but.queued u hu l (by simpa using hq)
    exact hw e l k hk
  have hexcl (u : τ) (l : ι) (hu : u ≠ t) (hact : Acting (s.pc u))
      (hw : ∀ e l k, s.pc u ≠ .wait e l k) (hroom : s.RoomFor u [⟨true, l⟩]) :
      Back F s₀ t task
        (s.settle u (fun _ => true) l .caller ((s.sem l).pLockSemExcl u)) := by
    have hq := hfree u hu hw
    have hr : (s.sem l).Room u 0 1 := hroom.head
    exact h.settle hu hact (.pLockSemExcl (h.but.counted l) (hq l) hr.excl) (by simp)
      (fun l' hq' => by rw [hq l'] at hq'; cases hq') _
  cases e with
  | lockExcl u l =>
    simp only [Sys.step] at hs
    split at hs <;> cases hs
    rename_i hpc
    exact hexcl u l hc.1 (by rw [hpc]; trivial) (by simp [hpc]) hc.2
  | lockShared u l mem =>
    simp only [Sys.step] at hs
    obtain ⟨hu, hroom⟩ := hc
    split at hs
    · rename_i hpc
      have hq := hfree u hu (by simp [hpc])
      have hr : (s.sem l).Room u 1 0 := hroom.head
      split at hs <;> cases hs
      · rename_i r hrs
        exact h.settle hu (by rw [hpc]; trivial) (.pLockSemShared (h.but.counted l) (hq l) hr hrs)
          (by simp) (fun l' hq' => by rw [hq l'] at hq'; cases hq') _
      · exact h.goFallback hu hpc
    · cases hs
  | fallback u =>
    simp only [Sys.step] at hs
    split at hs <;> cases hs
    rename_i l hpc
    obtain ⟨hu, hroom⟩ := hc
    rw [hpc] at hroom
    exact hexcl u l hu (by rw [hpc]; trivial) (by simp [hpc]) hroom
  | unlock u l =>
    simp only [Sys.step] at hs
    split at hs <;> cases hs
    rename_i hpc
    exact h.unlock hc hpc.1 hpc.2
  | wake u mem =>
    simp only [Sys.step] at hs
    split at hs
    · rename_i e l k hpc
      split at hs <;> cases hs
      obtain ⟨hu, hroom⟩ := hc
      rw [hpc] at hroom
      have h' : Back F s₀ t task { s with sig := Function.update s.sig u false } :=
        ⟨h.but.congr rfl rfl fun _ _ => rfl, h.lender⟩
      by_cases hut : u = t
      · subst hut
        cases k with
        | caller =>
          have := h.lender
          rw [hpc] at this
          exact this.elim
        | reclaim rest => exact h'.wakeLender hpc hroom fun l hm => hF l ⟨rfl, hm⟩
      · exact h'.wakeOther hut (hu.resolve_left hut) hpc hroom mem
    · cases hs
  | borrow u task memE memS => exact hc.elim
  | giveBack u mem =>
    simp only [Sys.step] at hs
    split at hs <;> cases hs
    rename_i task' bs rs hpc
    obtain ⟨rfl, hroom⟩ := hc
    have hl := h.lender
    rw [hpc] at hl hroom
    obtain ⟨rfl, -⟩ := hl
    exact h.giveBack hne hpc hroom fun l hm => hF l ⟨rfl, hm⟩
  | signal u =>
    cases hs
    exact ⟨h.but.congr rfl rfl fun _ _ => rfl, h.lender⟩

/-- A lender that returns holds what it held before, or, where there was no record left for it,
as many exclusive locks; the others hold what they held and got themselves. -/
theorem locks_returned {s₁ : Sys τ ι} {evs : List (Event τ ι)} (h₀ : s₀.Lendable)
    (hm : ∀ l ∈ s₀.registered.1, (s₀.sem l).queued task = false → (s₀.sem l).MergeRoom t task)
    (hb : s₀.step (.borrow t task (fun _ => true) fun _ => true) = some s₁)
    (h : Run Sys.step (Returning t) s₁ evs s) (hret : s.pc t = .running) (l : ι) :
    (((s.sem l).exclHeld t = (s₀.sem l).exclHeld t ∧
        (s.sem l).sharedHeld t = (s₀.sem l).sharedHeld t) ∨
      ((∃ e ∈ evs, NoMemory t l e) ∧ (s.sem l).sharedHeld t = 0 ∧
        (s.sem l).exclHeld t = (s₀.sem l).exclHeld t + (s₀.sem l).sharedHeld t)) ∧
    ∀ u ≠ t, (s.sem l).held u + s₀.own u l = s.own u l + (s₀.sem l).held u := by
  simp only [Sys.step] at hb
  split at hb <;> cases hb
  rename_i hpc
  have hback : Back (fun l => ∃ e ∈ evs, NoMemory t l e) s₀ t task s := by
    refine h.invariant_trace (fun evs s => Back (fun l => ∃ e ∈ evs, NoMemory t l e) s₀ t task s)
      (h₀.back hpc.1 hpc.2 hm) fun evs s e s' hs hc he => ?_
    have hmono := hs.mono (G := fun l => ∃ e' ∈ evs ++ [e], NoMemory t l e')
      fun l hno => hno.imp fun e' he' => ⟨List.mem_append_left _ he'.1, he'.2⟩
    exact hmono.step hpc.2 hc (fun l hn => ⟨e, by simp, hn⟩) he
  have hlock := hback.but.lock l
  rw [hret] at hlock
  generalize hk : owedOn l (Pc.running : Pc τ ι) = ks at hlock
  generalize hl : lentOn l (Pc.running : Pc τ ι) = bs at hlock
  have hbal {x : ℕ} (hx : x = 0)
      (hbal : Balanced (s₀.sem l) (fun u => s₀.own u l) t task (s.sem l) (fun u => s.own u l) x) :
      ∀ u ≠ t, (s.sem l).held u + s₀.own u l = s.own u l + (s₀.sem l).held u := fun u hu => by
    have := hbal u hu
    subst hx
    simpa using this
  cases hlock with
  | lent h1 h2 h3 h4 =>
    -- an empty list of lent locks: there was nothing to lend
    simp only [lentOn] at hl
    have he : (s₀.sem l).exclHeld t = 0 := by
      by_contra hne
      simp [exclEntry, hne] at hl
    have hs : (s₀.sem l).sharedHeld t = 0 := by
      by_contra hne
      simp [exclEntry, sharedEntry, hne] at hl
    exact ⟨Or.inl ⟨h3.noExcl.trans he.symm, h3.noShared.trans hs.symm⟩, hbal (by omega) h4⟩
  | settled h1 h2 h3 h4 =>
    subst hk
    exact ⟨h3.done.imp_right fun hno => ⟨hno.1, hno.2.2, hno.2.1⟩, hbal rfl h4⟩
  | handed h1 h2 h3 =>
    subst hk
    cases h3

instance Acting.decidable : ∀ c : Pc τ ι, Decidable (Acting c)
  | .running => .isTrue trivial
  | .fallback _ => .isTrue trivial
  | .wait _ _ .caller => .isTrue trivial
  | .wait _ _ (.reclaim _) => .isFalse id
  | .borrowing _ _ _ => .isFalse id

instance Calling.decidable [Fintype ι] (s : Sys τ ι) : ∀ e, Decidable (s.Calling e)
  | .lockExcl u l => inferInstanceAs (Decidable (s.RoomFor u [⟨true, l⟩]))
  | .lockShared u l _ => inferInstanceAs (Decidable (s.RoomFor u [⟨false, l⟩]))
  | .fallback u => inferInstanceAs (Decidable (s.RoomFor u (s.pc u).reqs))
  | .unlock _ _ => .isTrue trivial
  | .wake u _ => inferInstanceAs (Decidable (Acting (s.pc u) ∧ s.RoomFor u (s.pc u).reqs))
  | .signal _ => .isTrue trivial
  | .borrow _ _ _ _ => .isFalse id
  | .giveBack _ _ => .isFalse id

instance Returning.decidable [Fintype ι] (t : τ) (s : Sys τ ι) : ∀ e, Decidable (Returning t s e)
  | .lockExcl u l => inferInstanceAs (Decidable (u ≠ t ∧ s.RoomFor u [⟨true, l⟩]))
  | .lockShared u l _ => inferInstanceAs (Decidable (u ≠ t ∧ s.RoomFor u [⟨false, l⟩]))
  | .fallback u => inferInstanceAs (Decidable (u ≠ t ∧ s.RoomFor u (s.pc u).reqs))
  | .unlock u _ => inferInstanceAs (Decidable (u ≠ t))
  | .wake u _ =>
    inferInstanceAs (Decidable ((u = t ∨ Acting (s.pc u)) ∧ s.RoomFor u (s.pc u).reqs))
  | .giveBack u _ => inferInstanceAs (Decidable (u = t ∧ s.RoomFor u (s.pc u).reqs))
  | .signal _ => .isTrue trivial
  | .borrow _ _ _ _ => .isFalse id

def reader : Sys (Fin 3) Unit :=
  (exec step oneLock [.lockExcl 0 (), .lockShared 1 () true]).get (by decide)

def lentToReader : Sys (Fin 3) Unit :=
  (reader.step (.borrow 0 1 (fun _ => true) fun _ => true)).get (by decide)

def readerDone : Sys (Fin 3) Unit :=
  (exec step lentToReader [.wake 1 fun _ => true, .unlock 1 (), .giveBack 0 fun _ => true]).get
    (by decide)

theorem locks_returned_reader :
    (((readerDone.sem ()).exclHeld 0 = (reader.sem ()).exclHeld 0 ∧
        (readerDone.sem ()).sharedHeld 0 = (reader.sem ()).sharedHeld 0) ∨
      ((∃ e ∈ [Event.wake 1 (fun _ => true), .unlock 1 (), .giveBack 0 fun _ => true],
          NoMemory (0 : Fin 3) () e) ∧
        (readerDone.sem ()).sharedHeld 0 = 0 ∧
        (readerDone.sem ()).exclHeld 0 =
          (reader.sem ()).exclHeld 0 + (reader.sem ()).sharedHeld 0)) ∧
    ∀ u ≠ 0, (readerDone.sem ()).held u + reader.own u () =
      readerDone.own u () + (reader.sem ()).held u :=
  locks_returned (t := 0) (.of_run (.get_meets (by decide) (by decide))) (by decide)
    (Option.some_get (by decide)).symm (.get_meets (by decide) (by decide)) (by decide) ()

/-- Reader 0 lends its lock, the borrower locks it once more, and on the return there is no record
left. -/
def noRecordLeft : List (Event (Fin 3) Unit) :=
  [.borrow 0 1 (fun _ => true) fun _ => true, .lockShared 1 () true, .giveBack 0 fun _ => false,
    .unlock 1 (), .wake 0 fun _ => true]

def promotedReader : List (Event (Fin 3) Unit) :=
  [.lockExcl 0 (), .lockShared 1 () true, .borrow 0 1 (fun _ => true) fun _ => true,
    .giveBack 0 fun _ => true, .unlock 0 (), .lockShared 2 () true]

/-- Task 2 lends the lock to task 0, which locks and unlocks it while the reader takes it. -/
def staleReader : List (Event (Fin 3) Unit) :=
  [.borrow 2 0 (fun _ => true) fun _ => true, .lockShared 0 () true, .wake 1 fun _ => true,
    .unlock 0 (), .giveBack 2 fun _ => true, .unlock 1 (), .wake 2 fun _ => true]

def fullRecord : Sys (Fin 3) Unit :=
  { oneLock with
    sem := fun _ => ⟨[], [⟨1, false, 1, 2⟩, ⟨0, false, 0, 65535⟩], none, 0, 2, 2⟩
    own := fun t _ => if t = 0 then 65535 else if t = 1 then 2 else 0 }

def wrapped : List (Event (Fin 3) Unit) :=
  [.borrow 0 1 (fun _ => true) fun _ => true, .unlock 1 (), .giveBack 0 fun _ => true]

theorem fullRecord_lendable : fullRecord.Lendable := by
  have hc : (fullRecord.sem ()).Counted :=
    ⟨by decide, by decide, by decide, by decide, rfl, by decide, by decide, by decide, by decide⟩
  refine ⟨fun _ => ⟨fun _ ht => (by cases ht), hc⟩, ?_, ?_, fun u l hq => ?_, fun u _ => ?_⟩
  · simp [fullRecord, oneLock, Sys.init]
  · simp [fullRecord, oneLock, Sys.init]
  · cases hq
  · fin_cases u <;> decide

/-- The lender comes back with an exclusive lock for its shared one; the borrower keeps a hold it
has unlocked; the lender comes back without its locks. -/
theorem locks_not_returned :
    (∃ s₀ s, Run step anyStep oneLock [.lockShared 0 () true] s₀ ∧
      Run step anyStep s₀ noRecordLeft s ∧ s.pc 0 = .running ∧
      (s₀.sem ()).sharedHeld 0 = 1 ∧ (s.sem ()).sharedHeld 0 = 0) ∧
    (∃ s₀ s, Run step anyStep oneLock promotedReader s₀ ∧ Run step anyStep s₀ staleReader s ∧
      s.pc 2 = .running ∧ s₀.own 0 () = (s₀.sem ()).held 0 ∧ s.own 0 () = 0 ∧
      (s.sem ()).held 0 = 1) ∧
    (fullRecord.Lendable ∧ ∃ s, Run step anyStep fullRecord wrapped s ∧ s.pc 0 = .running ∧
      (fullRecord.sem ()).sharedHeld 0 = 65535 ∧ (s.sem ()).sharedHeld 0 = 0) := by
  refine ⟨⟨_, _, .get (by decide), .get (by decide), ?_⟩,
    ⟨_, _, .get (by decide), .get (by decide), ?_⟩, fullRecord_lendable, ⟨_, .get (by decide), ?_⟩⟩
  · decide
  · decide
  · decide

end Neptune.Sys
