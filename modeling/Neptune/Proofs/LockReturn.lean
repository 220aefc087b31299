import Neptune.Proofs.LockOwed

/-! A loan from its start to the lender's return. While the lender waits, a lock is lent to the
target, or the lender has still lock calls to make for it; where the ownership has been handed
over, the exclusion may be broken until the lender has it back. -/

namespace Neptune.PsdLockSem

open Runs PsdLockSem

variable {τ ι : Type} [DecidableEq τ]

variable {F : Prop} {p₀ p q : PsdLockSem τ} {own₀ own own' : τ → ℕ} {t task u : τ} {l : ι}
  {W W' : τ → Prop} {bs : List (PsdBorrowLock ι)} {ks : List Bool}

/-- Every hold of another task is one it had or got itself, but for the `x` lent to the
target. -/
def Balanced (p₀ : PsdLockSem τ) (own₀ : τ → ℕ) (t task : τ) (p : PsdLockSem τ) (own : τ → ℕ)
    (x : ℕ) : Prop :=
  ∀ u ≠ t, p.held u + own₀ u = own u + p₀.held u + if u = task then x else 0

def Covered (p₀ : PsdLockSem τ) (own₀ : τ → ℕ) (t : τ) (p : PsdLockSem τ) (own : τ → ℕ) : Prop :=
  ∀ u ≠ t, own u + p₀.held u ≤ p.held u + own₀ u

def Unpromoted (t : τ) (p : PsdLockSem τ) (W : τ → Prop) : Prop :=
  p.owner = some t ∨ ∀ u ≠ t, W u → p.promoted u = false

/-- One lock during the loan: `p₀` and `own₀` from before it, `p` and `own` now, and `W` for the
shared waiters. The two lists are what of it is lent and the calls owed for it. -/
inductive LockInv (F : Prop) (p₀ : PsdLockSem τ) (own₀ : τ → ℕ) (t task : τ) (l : ι)
    (p : PsdLockSem τ) (own : τ → ℕ) (W : τ → Prop) : List (PsdBorrowLock ι) → List Bool → Prop
  | lent {a : ℕ} : p.Ok → Unpromoted t p W →
      Lent t task (p₀.exclHeld t) (p₀.sharedHeld t) a p →
      Balanced p₀ own₀ t task p own (p₀.exclHeld t + p₀.sharedHeld t) →
      LockInv F p₀ own₀ t task l p own W
        (exclEntry l (p₀.exclHeld t) ++ sharedEntry l (p₀.sharedHeld t) a) []
  | settled {ks : List Bool} : p.Ok → Unpromoted t p W →
      Owed F (p₀.exclHeld t) (p₀.sharedHeld t) t p ks → Balanced p₀ own₀ t task p own 0 →
      LockInv F p₀ own₀ t task l p own W [] ks
  | handed {ks : List Bool} : p.Counted → p.exclHeld t = 0 → true ∈ ks →
      Owed F (p₀.exclHeld t) (p₀.sharedHeld t) t p ks → Covered p₀ own₀ t p own →
      LockInv F p₀ own₀ t task l p own W [] ks

theorem LockInv.counted (h : LockInv F p₀ own₀ t task l p own W bs ks) : p.Counted := by
  cases h with
  | lent hok => exact hok.counted
  | settled hok => exact hok.counted
  | handed hc => exact hc

theorem LockInv.mono {G : Prop} (h : LockInv F p₀ own₀ t task l p own W bs ks) (hFG : F → G) :
    LockInv G p₀ own₀ t task l p own W bs ks := by
  cases h with
  | lent h1 h2 h3 h4 => exact .lent h1 h2 h3 h4
  | settled h1 h2 h3 h4 => exact .settled h1 h2 (h3.mono hFG) h4
  | handed h1 h2 h3 h4 h5 => exact .handed h1 h2 h3 (h4.mono hFG) h5

theorem LockInv.elsewhere (h : LockInv F p₀ own₀ t task l p own W bs ks)
    (hown : ∀ u ≠ t, own' u = own u) (hW : ∀ u ≠ t, W' u → W u) :
    LockInv F p₀ own₀ t task l p own' W' bs ks := by
  have hU (h : Unpromoted t p W) : Unpromoted t p W' :=
    h.imp_right fun h u hu hw => h u hu (hW u hu hw)
  have hB {x : ℕ} (h : Balanced p₀ own₀ t task p own x) : Balanced p₀ own₀ t task p own' x :=
    fun u hu => by rw [hown u hu]; exact h u hu
  cases h with
  | lent h1 h2 h3 h4 => exact .lent h1 (hU h2) h3 (hB h4)
  | settled h1 h2 h3 h4 => exact .settled h1 (hU h2) h3 (hB h4)
  | handed h1 h2 h3 h4 h5 =>
    exact .handed h1 h2 h3 h4 fun u hu => by rw [hown u hu]; exact h5 u hu

variable {e w : Bool} {r : PsdLockSem τ × Got}

theorem Unpromoted.call (h : Unpromoted t p W)
    (hc : p.Counted) (hr : Call u w p r) (hu : u ≠ t)
    (hw : w = true → W u ∧ p.promoted u = true)
    (hW : ∀ v ≠ u, W' v → W v) (hWu : W' u → r.2 = .wait false) : Unpromoted t r.1 W' := by
  obtain ⟨e, hh, -⟩ := hr.held
  rcases h with ho | h
  · left
    rw [← exclHeld_pos_iff hr.counted, (hh.others t hu.symm).excl]
    exact (exclHeld_pos_iff hc).mpr ho
  · right
    intro v hv hwv
    by_cases hvu : v = u
    · subst hvu
      refine (hr.waits (hWu hwv)).2 ?_
      cases w with
      | false => rfl
      | true =>
        obtain ⟨h1, h2⟩ := hw rfl
        rw [h v hu h1] at h2
        cases h2
    · rw [(hr.frame v hvu).promoted]
      exact h v hv (hW v hvu hwv)

theorem Unpromoted.free (h : Unpromoted t p W) (hu : u ≠ t)
    (hw : w = true → W u ∧ p.promoted u = true) : w = true → p.owner ≠ none := by
  intro hwt
  obtain ⟨h1, h2⟩ := hw hwt
  rcases h with ho | h
  · simp [ho]
  · rw [h u hu h1] at h2
    cases h2

theorem Call.held_own (hr : Call u w p r)
    (hown : ∀ v, own' v = own v + if v = u ∧ r.2 = .locked then 1 else 0) (v : τ) :
    r.1.held v + own v = p.held v + own' v := by
  obtain ⟨e, hh, -⟩ := hr.held
  rw [hown v]
  by_cases hvu : v = u
  · subst hvu
    cases hg : r.2 with
    | locked =>
      rw [(hh.locked hg).held]
      simp only [and_self, if_true]
      omega
    | wait e' =>
      obtain ⟨h1, h2, h3⟩ := hh.waits e' hg
      rw [(SameHolds.of_eq h1 h2 h3 v).held]
      simp
  · rw [(hh.others v hvu).held]
    simp [hvu]

theorem LockInv.call
    (h : LockInv F p₀ own₀ t task l p own W bs ks) (hr : Call u w p r) (hu : u ≠ t)
    (hown : ∀ v, own' v = own v + if v = u ∧ r.2 = .locked then 1 else 0)
    (hw : w = true → W u ∧ p.promoted u = true)
    (hW : ∀ v ≠ u, W' v → W v) (hWu : W' u → r.2 = .wait false) :
    LockInv F p₀ own₀ t task l r.1 own' W' bs ks := by
  have hc := h.counted
  obtain ⟨e, hh, -⟩ := hr.held
  have ht := hh.others t hu.symm
  have hbal := hr.held_own hown
  have hB {x : ℕ} (h : Balanced p₀ own₀ t task p own x) :
      Balanced p₀ own₀ t task r.1 own' x := fun v hv => by
    have h1 := h v hv
    have h2 := hbal v
    omega
  cases h with
  | lent h1 h2 h3 h4 =>
    exact .lent (hr.ok h1 (h2.free hu hw)) (h2.call hc hr hu hw hW hWu) (h3.call hc hr hu) (hB h4)
  | settled h1 h2 h3 h4 =>
    exact .settled (hr.ok h1 (h2.free hu hw)) (h2.call hc hr hu hw hW hWu) (h3.same ht) (hB h4)
  | handed h1 h2 h3 h4 h5 =>
    refine .handed hr.counted (ht.excl.trans h2) h3 (h4.same ht) fun v hv => ?_
    have h1 := h5 v hv
    have h2 := hbal v
    omega

theorem Ok.holder (h : p.Ok) (hpos : 0 < p.held u) :
    p.owner = some u ∨ (p.owner = none ∧ ¬ p.NoRecord u) := by
  by_cases ho : p.owner = some u
  · exact Or.inl ho
  · have hx : p.exclHeld u = 0 := by simp [exclHeld, ho]
    have hs : 0 < p.sharedHeld u := by unfold held at hpos; omega
    obtain ⟨r, hr, hrt, -⟩ := exists_of_sharedHeld hs
    refine Or.inr ⟨?_, fun hn => hn r hr hrt⟩
    cases hown : p.owner with
    | none => rfl
    | some o => exact absurd (by rw [hown, ← h.mutex o hown r hr, hrt]) ho

theorem pUnlockSem_held (hc : p.Counted)
    (h : p.owner = some u ∨ (p.owner = none ∧ ¬ p.NoRecord u)) :
    (p.pUnlockSem u).1.held u + 1 = p.held u := by
  have hd := pUnlockSem_dropped hc h
  refine hd.held hc ?_ (h.imp_right And.left)
  unfold held
  rcases h with ho | ⟨-, hn⟩
  · have := (exclHeld_pos_iff hc).mpr ho
    omega
  · have : p.sharedHeld u ≠ 0 := fun h0 => hn (noRecord_of_sharedHeld hc h0)
    omega

theorem Unpromoted.pUnlockSem (h : Unpromoted t p W) (hc : p.Counted) (hu : u ≠ t)
    (hWu : ¬ W u) : Unpromoted t (p.pUnlockSem u).1 W := by
  rcases h with ho | h
  · left
    rw [← exclHeld_pos_iff (hc.pUnlockSem), (pUnlockSem_others hc hu.symm).excl]
    exact (exclHeld_pos_iff hc).mpr ho
  · right
    intro v hv hwv
    by_cases hvu : v = u
    · exact absurd (hvu ▸ hwv) hWu
    · rw [(Frame.pUnlockSem hc (Ne.symm hvu)).promoted]
      exact h v hv hwv

theorem LockInv.pUnlockSem (h : LockInv F p₀ own₀ t task l p own W bs ks) (hu : u ≠ t)
    (hle : own₀ u ≤ p₀.held u) (hpos : 0 < own u) (hWu : ¬ W u)
    (hown : ∀ v, own' v = own v - if v = u then 1 else 0) :
    LockInv F p₀ own₀ t task l (p.pUnlockSem u).1 own' W bs ks := by
  have hc := h.counted
  have ht := pUnlockSem_others (u := u) hc hu.symm
  have hB {x : ℕ} (hok : p.Ok) (h : Balanced p₀ own₀ t task p own x) :
      Balanced p₀ own₀ t task (p.pUnlockSem u).1 own' x := fun v hv => by
    have h1 := h v hv
    rw [hown v]
    by_cases hvu : v = u
    · subst hvu
      have h2 := pUnlockSem_held hc (hok.holder (u := v) (by omega))
      rw [if_pos rfl]
      omega
    · rw [(pUnlockSem_others hc hvu).held, if_neg hvu]
      omega
  have hok' (hok : p.Ok) : (p.pUnlockSem u).1.Ok := ⟨hok.mutex.pUnlockSem, hc.pUnlockSem⟩
  cases h with
  | lent h1 h2 h3 h4 =>
    refine .lent (hok' h1) (h2.pUnlockSem hc hu hWu) (h3.pUnlockSem h1 hu ?_) (hB h1 h4)
    rintro rfl
    have := h4 u hu
    rw [if_pos rfl] at this
    omega
  | settled h1 h2 h3 h4 =>
    exact .settled (hok' h1) (h2.pUnlockSem hc hu hWu) (h3.same ht) (hB h1 h4)
  | handed h1 h2 h3 h4 h5 =>
    refine .handed hc.pUnlockSem (ht.excl.trans h2) h3 (h4.same ht) fun v hv => ?_
    have h6 := h5 v hv
    rw [hown v]
    by_cases hvu : v = u
    · subst hvu
      rw [if_pos rfl]
      by_cases hh : p.owner = some v ∨ (p.owner = none ∧ ¬ p.NoRecord v)
      · have := pUnlockSem_held hc hh
        omega
      · -- the code refuses the unlock
        push Not at hh
        rw [pUnlockSem_refused hh.1 hh.2]
        omega
    · rw [(pUnlockSem_others hc hvu).held, if_neg hvu]
      omega

theorem Unpromoted.lenderCall (h : Unpromoted t p W)
    (hc : p.Counted) (hr : Call t w p r) : Unpromoted t r.1 W := by
  obtain ⟨e, hh, -⟩ := hr.held
  rcases h with ho | h
  · left
    rw [← exclHeld_pos_iff hr.counted]
    have hpos := (exclHeld_pos_iff hc).mpr ho
    cases hg : r.2 with
    | locked =>
      rw [(hh.locked hg).excl]
      omega
    | wait e' =>
      obtain ⟨h1, h2, -⟩ := hh.waits e' hg
      rwa [exclHeld_congr h1 h2]
  · right
    intro v hv hwv
    rw [(hr.frame v hv).promoted]
    exact h v hv hwv

theorem LockInv.lenderExcl
    (h : LockInv F p₀ own₀ t task l p own W [] (true :: ks)) (hr : Call t false p r)
    (hh : CallHeld t p r true) (hg : r.2 = .locked) (hle : ∀ u ≠ t, own₀ u ≤ own u + p₀.held u)
    (hsole : p.owner = some t ∨ (p.owner = none ∧ ∀ x ∈ p.readLocks, x.task = t))
    (hmutex : (∀ x ∈ p.readLocks, x.task = t) → r.1.Mutex) :
    LockInv F p₀ own₀ t task l r.1 own W [] ks := by
  have hgain := hh.locked hg
  generalize hk : true :: ks = kk at h
  generalize hb : ([] : List (PsdBorrowLock ι)) = bb at h
  cases h with
  | lent => cases hk
  | settled h1 h2 h3 h4 =>
    subst hk
    refine .settled (hr.ok h1 (by simp)) (h2.lenderCall h1.counted hr) (h3.excl hgain) ?_
    exact fun u hu => by rw [(hh.others u hu).held]; exact h4 u hu
  | handed h1 h2 h3 h4 h5 =>
    subst hk
    have hno : p.owner ≠ some t := fun ho => by
      have := (exclHeld_pos_iff h1).mpr ho
      omega
    obtain ⟨ho, hall⟩ := hsole.resolve_left hno
    have hown : r.1.owner = some t := by
      rw [← exclHeld_pos_iff hr.counted, hgain.excl]
      simp
    refine .settled ⟨hmutex hall, hr.counted⟩ (Or.inl hown) (h4.excl hgain) fun u hu => ?_
    have h0 : p.held u = 0 := by
      have hn : p.NoRecord u := fun x hx he => hu (he.symm.trans (hall x hx))
      simp [held, exclHeld, ho, sharedHeld_of_noRecord hn]
    have h6 := h5 u hu
    have h7 := hle u hu
    rw [(hh.others u hu).held, h0]
    simp only [ite_self]
    omega

theorem LockInv.lenderShared {x : Bool}
    (h : LockInv F p₀ own₀ t task l p own W [] (false :: ks)) (hr : Call t false p r)
    (hh : CallHeld t p r x) (hg : r.2 = .locked) (hx : x = true ↔ 0 < p.exclHeld t) :
    LockInv F p₀ own₀ t task l r.1 own W [] ks := by
  have hgain := hh.locked hg
  generalize hk : false :: ks = kk at h
  generalize hb : ([] : List (PsdBorrowLock ι)) = bb at h
  cases h with
  | lent => cases hk
  | settled h1 h2 h3 h4 =>
    subst hk
    refine .settled (hr.ok h1 (by simp)) (h2.lenderCall h1.counted hr) (h3.shared hgain hx) ?_
    exact fun u hu => by rw [(hh.others u hu).held]; exact h4 u hu
  | handed h1 h2 h3 h4 h5 =>
    subst hk
    have hxf : x = false := by simpa [h2] using hx
    have h3' : true ∈ ks := by simpa using h3
    refine .handed hr.counted ?_ h3' (h4.shared hgain hx) fun u hu => ?_
    · rw [hgain.excl, h2, hxf]; rfl
    · rw [(hh.others u hu).held]; exact h5 u hu

theorem LockInv.lenderWait {e' : Bool}
    (h : LockInv F p₀ own₀ t task l p own W [] ks) (hr : Call t false p r)
    (hh : CallHeld t p r e) (hg : r.2 = .wait e') :
    LockInv F p₀ own₀ t task l r.1 own W [] ks := by
  obtain ⟨g1, g2, g3⟩ := hh.waits e' hg
  have hs (u : τ) := SameHolds.of_eq g1 g2 g3 u
  generalize hb : ([] : List (PsdBorrowLock ι)) = bb at h
  cases h with
  | lent h1 h2 h3 h4 =>
    refine .lent (hr.ok h1 (by simp)) (h2.lenderCall h1.counted hr) ?_ ?_
    · refine ⟨(hs t).excl.trans h3.noExcl, (hs t).shared.trans h3.noShared, fun he => ?_,
        fun hc => ?_⟩
      · rw [(hs task).excl, (hs task).shared]; exact h3.excl he
      · rw [(hs task).shared, g3]; exact h3.shared hc
    · exact fun u hu => by rw [(hs u).held]; exact h4 u hu
  | settled h1 h2 h3 h4 =>
    refine .settled (hr.ok h1 (by simp)) (h2.lenderCall h1.counted hr) (h3.same (hs t)) ?_
    exact fun u hu => by rw [(hs u).held]; exact h4 u hu
  | handed h1 h2 h3 h4 h5 =>
    refine .handed hr.counted ((hs t).excl.trans h2) h3 (h4.same (hs t)) ?_
    exact fun u hu => by rw [(hs u).held]; exact h5 u hu

theorem LockInv.fallBack (h : LockInv F p₀ own₀ t task l p own W [] (false :: ks)) (f : F)
    (h0 : p.sharedHeld t = 0) : LockInv F p₀ own₀ t task l p own W [] (true :: ks) := by
  generalize hk : false :: ks = kk at h
  generalize hb : ([] : List (PsdBorrowLock ι)) = bb at h
  cases h with
  | lent => cases hk
  | settled h1 h2 h3 h4 => subst hk; exact .settled h1 h2 (h3.fallBack f h0) h4
  | handed h1 h2 h3 h4 h5 => subst hk; exact .handed h1 h2 (by simp) (h4.fallBack f h0) h5

theorem pLockSemExcl_sole (hc : p.Counted) (h : (p.pLockSemExcl t).2 = .locked) :
    p.owner = some t ∨ (p.owner = none ∧ ∀ x ∈ p.readLocks, x.task = t) := by
  unfold pLockSemExcl at h
  split at h
  · rename_i hm
    exact (mayLockExcl_iff hc).mp hm
  · cases h

theorem pLockSemExcl_mutex (hall : ∀ x ∈ p.readLocks, x.task = t)
    (h : (p.pLockSemExcl t).2 = .locked) : (p.pLockSemExcl t).1.Mutex := by
  unfold pLockSemExcl at h ⊢
  split at h
  · rename_i hm
    rw [if_pos hm]
    exact Mutex.takeExcl hall
  · cases h

structure LenderCall (F : Prop) (p₀ : PsdLockSem τ) (own₀ : τ → ℕ) (t task : τ) (l : ι)
    (own : τ → ℕ) (W : τ → Prop) (p : PsdLockSem τ) (ks : List Bool) (r : PsdLockSem τ × Got) :
    Prop where
  call : Call t false p r
  locked : r.2 = .locked → LockInv F p₀ own₀ t task l r.1 own W [] ks
  waits : ∀ e, r.2 = .wait e → LockInv F p₀ own₀ t task l r.1 own W [] (e :: ks)

theorem LenderCall.pLockSemExcl (h : LockInv F p₀ own₀ t task l p own W [] (true :: ks))
    (hq : p.queued t = false) (hr : p.Room t 0 1) (hle : ∀ u ≠ t, own₀ u ≤ own u + p₀.held u) :
    LenderCall F p₀ own₀ t task l own W p ks (p.pLockSemExcl t) := by
  have hc := h.counted
  have hcall := Call.pLockSemExcl hc hq hr.excl
  have hh := pLockSemExcl_held hc hr.excl
  refine ⟨hcall, fun hg => ?_, fun e hg => ?_⟩
  · exact h.lenderExcl hcall hh hg hle (pLockSemExcl_sole hc hg) fun hall =>
      pLockSemExcl_mutex hall hg
  · rw [pLockSemExcl_wait hg]
    exact h.lenderWait hcall hh hg

theorem LenderCall.reclaimOne {mem : Bool}
    (h : LockInv F p₀ own₀ t task l p own W [] (e :: ks)) (hq : p.queued t = false)
    (hr : if e then p.Room t 0 1 else p.Room t 1 0) (hF : mem = false → F)
    (hle : ∀ u ≠ t, own₀ u ≤ own u + p₀.held u) :
    LenderCall F p₀ own₀ t task l own W p ks (Sys.reclaimOne p t mem e) := by
  have hc := h.counted
  cases e with
  | true => exact .pLockSemExcl h hq hr hle
  | false =>
    have hr : p.Room t 1 0 := hr
    simp only [Sys.reclaimOne, Bool.false_eq_true, if_false]
    cases hs : p.pLockSemShared t mem with
    | some r =>
      have hcall := Call.pLockSemShared hc hq hr hs
      have hh := pLockSemShared_held hc hr hs
      refine ⟨hcall, fun hg => h.lenderShared hcall hh hg ?_, fun e' hg => ?_⟩
      · rw [exclHeld_pos_iff hc, decide_eq_true_eq]
      · have he : e' = false := pLockSemShared_wait hs hg
        rw [he]
        exact h.lenderWait hcall hh hg
    | none =>
      -- no memory for a record
      obtain ⟨hm, hn⟩ := pLockSemShared_eq_none hs
      exact .pLockSemExcl (h.fallBack (hF hm) (sharedHeld_of_noRecord hn)) hq
        (hr.fallBack (n := 0)) hle

theorem LenderCall.wake (h : LockInv F p₀ own₀ t task l p own W [] (e :: ks))
    (hn : e = false → p.NoRecord t ∧ p.promoted t = false)
    (hr : if e then p.Room t 0 1 else p.Room t 1 0)
    (hle : ∀ u ≠ t, own₀ u ≤ own u + p₀.held u) :
    LenderCall F p₀ own₀ t task l own W p ks (p.wake t e) := by
  have hc := h.counted
  have hh := wake_held hc hr fun he => (hn he).1
  have hw : (!e && p.promoted t) = false := by
    cases e
    · simp [(hn rfl).2]
    · rfl
  have hcall : Call t false p (p.wake t e) := hw ▸ Call.wake hc hr fun he => (hn he).1
  cases e with
  | true =>
    have hd : (p.dequeue t).Counted := hc.setQueue _
    have hwk : p.wake t true = (p.dequeue t).pLockSemExcl t := rfl
    rw [hwk] at hcall hh ⊢
    refine ⟨hcall, fun hg => ?_, fun e' hg => ?_⟩
    · exact h.lenderExcl hcall hh hg hle (pLockSemExcl_sole (p := p.dequeue t) hd hg) fun hall =>
        pLockSemExcl_mutex (p := p.dequeue t) hall hg
    · rw [pLockSemExcl_wait hg]
      exact h.lenderWait hcall hh hg
  | false =>
    have hwk : p.wake t false = (p.dequeue t).sharedPass t (p.promoted t) := rfl
    rw [hwk] at hcall hh ⊢
    refine ⟨hcall, fun hg => h.lenderShared hcall hh hg ?_, fun e' hg => ?_⟩
    · have ho : p.owner = none := sharedPass_locked (p := p.dequeue t) hg
      simp [(hn rfl).2, exclHeld, ho]
    · rw [sharedPass_wait hg]
      exact h.lenderWait hcall hh hg

theorem takeBackOne_waitQueue (t task : τ) (bs rs : List (PsdBorrowLock ι)) (p : PsdLockSem τ) :
    (takeBackOne t task bs p rs).1.waitQueue = p.waitQueue := by
  induction bs generalizing p rs with
  | nil => rfl
  | cons b bs ih =>
    refine (ih _ _).trans ?_
    unfold takeBack
    split
    · split <;> rfl
    · split
      · rfl
      · split <;> split <;> rfl

def entryKinds (rs : List (PsdBorrowLock ι)) : List Bool :=
  rs.flatMap fun b => List.replicate b.count false ++ List.replicate b.exclLockCount true

theorem entryKinds_entries (l : ι) (n m a : ℕ) :
    entryKinds (sharedEntry l n a ++ exclEntry l m) =
      List.replicate n false ++ List.replicate m true := by
  unfold entryKinds sharedEntry exclEntry
  split_ifs with h1 h2 h2 <;> simp [h1, h2]

theorem LockInv.takeBackOne {rs : List (PsdBorrowLock ι)} (hne : task ≠ t)
    (hor : bs = [] ∨ rs = [])
    (h : LockInv F p₀ own₀ t task l p own W bs (entryKinds rs)) :
    LockInv F p₀ own₀ t task l (takeBackOne t task bs p rs).1 own W []
      (entryKinds (takeBackOne t task bs p rs).2) := by
  generalize hk : entryKinds rs = ks at h
  cases h with
  | settled h1 h2 h3 h4 =>
    subst hk
    exact .settled h1 h2 h3 h4
  | handed h1 h2 h3 h4 h5 =>
    subst hk
    exact .handed h1 h2 h3 h4 h5
  | @lent a h1 h2 h3 h4 =>
    rcases hor with hnil | rfl
    · -- nothing was lent
      have he : p₀.exclHeld t = 0 := by
        by_contra h0
        simp [exclEntry, h0] at hnil
      have hs : p₀.sharedHeld t = 0 := by
        by_contra h0
        simp [sharedEntry, h0] at hnil
      rw [hnil]
      simp only [PsdLockSem.takeBackOne, hk]
      rw [he, hs] at h4
      refine .settled h1 h2 ?_ h4
      exact .asBefore (n := 0) (m := 0) (by rw [h3.noShared, hs]) (by rw [h3.noExcl, he]) (by simp)
    · obtain ⟨n, m, g⟩ := h3.takeBackOne (l := l) h1 hne
      have hok : (PsdLockSem.takeBackOne t task
          (exclEntry l (p₀.exclHeld t) ++ sharedEntry l (p₀.sharedHeld t) a) p []).1.Ok :=
        h1.takeBackOne hne (moved_entries l _ _ a) (h3.returnable h1)
      rw [g.entries, entryKinds_entries]
      refine .settled hok (Or.inr fun u hu hw => ?_) (.asBefore g.shared g.excl g.order)
        fun u hu => ?_
      · have hno : p.owner ≠ some t := fun ho => by
          have := (exclHeld_pos_iff h1.counted).mpr ho
          have := h3.noExcl
          omega
        rw [promoted, takeBackOne_waitQueue]
        exact h2.resolve_left hno u hu hw
      · have h5 := h4 u hu
        by_cases hut : u = task
        · subst hut
          have h6 := g.target
          rw [if_pos rfl] at h5
          simp only [ite_self]
          omega
        · rw [(g.others u hu hut).held]
          rw [if_neg hut] at h5
          simpa using h5

theorem LockInv.moved (h : LockInv F p₀ own₀ t task l p own W bs ks) : Moved bs := by
  cases h with
  | @lent a => exact moved_entries l _ _ a
  | settled => exact .nothing
  | handed => exact .nothing

theorem LockInv.returnable (h : LockInv F p₀ own₀ t task l p own W bs ks) :
    Returnable t task bs p := by
  cases h with
  | lent h1 _ h3 => exact h3.returnable h1
  | settled => exact ⟨by simp, by simp, by simp⟩
  | handed => exact ⟨by simp, by simp, by simp⟩

end Neptune.PsdLockSem
