import Neptune.Spec.LockSem

/-! What holds of one lock, and how each of the calls keeps it. `Counted` ties the counters to
the owner and the records; `Mutex` is the exclusion proper, which the calls keep as long as a
promoted waiter finds no reader. -/

namespace Neptune.PsdLockSem

open List Keyed

variable {τ ι : Type} {p : PsdLockSem τ} {t u : τ}

def Mutex (p : PsdLockSem τ) : Prop :=
  ∀ t, p.owner = some t → ∀ r ∈ p.readLocks, r.task = t

def NoRecord (p : PsdLockSem τ) (t : τ) : Prop := ∀ r ∈ p.readLocks, r.task ≠ t

structure Counted (p : PsdLockSem τ) : Prop where
  exclWord : p.exclLockCount < 2 ^ 16
  sharedWord : p.sharedLockCount < 2 ^ 16
  countWord : ∀ r ∈ p.readLocks, r.count < 2 ^ 16
  excl : 0 < p.exclLockCount ↔ p.owner.isSome
  shared : p.sharedLockCount = p.readLocks.length
  tasks : (p.readLocks.map (·.task)).Nodup
  count : ∀ r ∈ p.readLocks, 0 < r.count
  addrs : (p.readLocks.map (·.addr)).Nodup
  fresh : ∀ r ∈ p.readLocks, r.addr < p.nextAddr

structure Ok (p : PsdLockSem τ) : Prop where
  mutex : p.Mutex
  counted : p.Counted

/-- `n` shared and `m` exclusive lock calls of `t` wrap no counter of the lock. -/
structure Room (p : PsdLockSem τ) (t : τ) (n m : ℕ) : Prop where
  excl : p.owner = some t → p.exclLockCount + n + m < 2 ^ 16
  count : p.owner ≠ some t → ∀ r ∈ p.readLocks, r.task = t → r.count + n < 2 ^ 16
  shared : 0 < n → p.owner = none → p.NoRecord t → p.sharedLockCount + 1 < 2 ^ 16
  small : n + m < 2 ^ 16

variable {m n : ℕ} {e mem : Bool} {q : PsdLockSem τ × Got}

theorem Room.mono {n' m' : ℕ} (h : p.Room t n m) (hn : n' ≤ n) (hm : m' ≤ m) :
    p.Room t n' m' where
  excl ho := by have := h.excl ho; omega
  count ho r hr ht := by have := h.count ho r hr ht; omega
  shared hp := h.shared (by omega)
  small := by have := h.small; omega

theorem Room.fallBack (h : p.Room t (n + 1) m) : p.Room t 0 1 := by
  refine ⟨fun ho => ?_, fun ho r hr hrt => ?_, fun h0 => absurd h0 (by omega), by omega⟩
  · have := h.excl ho; omega
  · have := h.count ho r hr hrt; omega

theorem Room.setQueue (h : p.Room t n m) (q : List (PsdReadLock τ)) :
    Room { p with waitQueue := q } t n m :=
  ⟨h.excl, h.count, h.shared, h.small⟩

theorem pInitSem_ok : (pInitSem : PsdLockSem τ).Ok :=
  ⟨by simp [Mutex, pInitSem], by constructor <;> simp [pInitSem]⟩

theorem setCount_task (p : PsdLockSem τ) (addr n : ℕ) :
    (p.setCount addr n).readLocks.map (·.task) = p.readLocks.map (·.task) :=
  map_modify fun _ _ _ => rfl

theorem setCount_addr (p : PsdLockSem τ) (addr n : ℕ) :
    (p.setCount addr n).readLocks.map (·.addr) = p.readLocks.map (·.addr) :=
  map_modify fun _ _ _ => rfl

theorem setTask_addr (p : PsdLockSem τ) (addr : ℕ) (t : τ) :
    (p.setTask addr t).readLocks.map (·.addr) = p.readLocks.map (·.addr) :=
  map_modify fun _ _ _ => rfl

namespace Counted

theorem owner_none (h : p.Counted) (h0 : p.exclLockCount = 0) : p.owner = none := by
  have := h.excl
  rw [h0] at this
  simpa using this

theorem excl_zero (h : p.Counted) (h0 : p.owner = none) : p.exclLockCount = 0 := by
  have := h.excl
  rw [h0] at this
  simpa using this

theorem excl_pos (h : p.Counted) (h0 : p.owner = some t) : 0 < p.exclLockCount :=
  h.excl.mpr (by simp [h0])

variable {r : PsdReadLock τ}

section

variable (h : p.Counted)
include h

theorem task_inj {r' : PsdReadLock τ} (hr : r ∈ p.readLocks)
    (hr' : r' ∈ p.readLocks) (he : r.task = r'.task) : r = r' :=
  eq_of_key h.tasks hr hr' he

theorem addr_inj {r' : PsdReadLock τ} (hr : r ∈ p.readLocks)
    (hr' : r' ∈ p.readLocks) (he : r.addr = r'.addr) : r = r' :=
  eq_of_key h.addrs hr hr' he

theorem shared_ne_zero (hr : r ∈ p.readLocks) :
    p.sharedLockCount ≠ 0 := by
  rw [h.shared]
  exact (length_pos_of_mem hr).ne'

theorem setQueue (q : List (PsdReadLock τ)) :
    Counted { p with waitQueue := q } :=
  { h with }

theorem setOwner {o : Option τ} {n : ℕ} (hn : 0 < n ↔ o.isSome)
    (hw : n < 2 ^ 16) : Counted { p with owner := o, exclLockCount := n } :=
  { h with excl := hn, exclWord := hw }

theorem setCount (addr : ℕ) {n : ℕ} (hn : 0 < n) (hw : n < 2 ^ 16) :
    (p.setCount addr n).Counted where
  exclWord := h.exclWord
  sharedWord := h.sharedWord
  countWord r hr := by
    obtain ⟨r', hr', rfl⟩ := mem_modify.mp hr
    split
    · exact hw
    · exact h.countWord r' hr'
  excl := h.excl
  shared := by simpa [PsdLockSem.setCount, modify_length] using h.shared
  tasks := by rw [setCount_task]; exact h.tasks
  count r hr := by
    obtain ⟨r', hr', rfl⟩ := mem_modify.mp hr
    split
    · exact hn
    · exact h.count r' hr'
  addrs := by rw [setCount_addr]; exact h.addrs
  fresh r hr := by
    obtain ⟨r', hr', rfl⟩ := mem_modify.mp hr
    split <;> exact h.fresh r' hr'

theorem setTask (hr : r ∈ p.readLocks)
    (hn : ∀ x ∈ p.readLocks, x ≠ r → x.task ≠ t) : (p.setTask r.addr t).Counted where
  exclWord := h.exclWord
  sharedWord := h.sharedWord
  countWord x hx := by
    obtain ⟨x', hx', rfl⟩ := mem_modify.mp hx
    split <;> exact h.countWord x' hx'
  excl := h.excl
  shared := by simpa [PsdLockSem.setTask, modify_length] using h.shared
  tasks := by
    refine nodup_map_modify h.addrs h.tasks fun x hx hk y hy hyx => ?_
    cases h.addr_inj hx hr hk
    exact hn y hy hyx
  count x hx := by
    obtain ⟨x', hx', rfl⟩ := mem_modify.mp hx
    split <;> exact h.count x' hx'
  addrs := by rw [setTask_addr]; exact h.addrs
  fresh x hx := by
    obtain ⟨x', hx', rfl⟩ := mem_modify.mp hx
    split <;> exact h.fresh x' hx'

theorem dropReadLock (hr : r ∈ p.readLocks) :
    (p.dropReadLock r.addr).Counted where
  exclWord := h.exclWord
  sharedWord := usub_lt _ _
  countWord x hx := h.countWord x (mem_drop.mp hx).1
  excl := h.excl
  shared := by
    have hl := length_drop h.addrs hr
    have h0 := h.shared
    have hp : 0 < p.sharedLockCount := by omega
    simp only [PsdLockSem.dropReadLock]
    rw [usub_of_le hp h.sharedWord]
    omega
  tasks := h.tasks.sublist ((drop_sublist _ _ _).map _)
  count x hx := h.count x (mem_drop.mp hx).1
  addrs := h.addrs.sublist ((drop_sublist _ _ _).map _)
  fresh x hx := h.fresh x (mem_drop.mp hx).1

theorem takeExcl (ho : p.owner = none ∨ p.owner = some t)
    (hr : p.owner = some t → p.exclLockCount + 1 < 2 ^ 16) : (p.takeExcl t).Counted := by
  have hlt : p.exclLockCount + 1 < 2 ^ 16 := by
    rcases ho with ho | ho
    · rw [h.excl_zero ho]; norm_num
    · exact hr ho
  exact h.setOwner (by simp [uword_of_lt hlt]) (uword_lt _)

theorem takeShared (hn : p.NoRecord t) (hr : p.sharedLockCount + 1 < 2 ^ 16) :
    (p.takeShared t).Counted where
  exclWord := h.exclWord
  sharedWord := uword_lt _
  countWord r hr := by
    rcases mem_cons.mp hr with rfl | hr
    · norm_num
    · exact h.countWord r hr
  excl := h.excl
  shared := by
    simp only [PsdLockSem.takeShared, length_cons]
    rw [uword_of_lt hr, h.shared]
  tasks := by
    simp only [PsdLockSem.takeShared, map_cons, nodup_cons, mem_map, not_exists,
      not_and]
    exact ⟨hn, h.tasks⟩
  count r hr := by
    rcases mem_cons.mp hr with rfl | hr
    · exact Nat.one_pos
    · exact h.count r hr
  addrs := by
    simp only [PsdLockSem.takeShared, map_cons, nodup_cons, mem_map, not_exists,
      not_and]
    exact ⟨fun r hr he => absurd (h.fresh r hr) (by omega), h.addrs⟩
  fresh r hr := by
    rcases mem_cons.mp hr with rfl | hr
    · simp [PsdLockSem.takeShared]
    · have := h.fresh r hr
      simp only [PsdLockSem.takeShared]
      omega

end

end Counted

namespace Mutex

theorem setCount (h : p.Mutex) (addr n : ℕ) : (p.setCount addr n).Mutex := by
  intro o ho r hr
  obtain ⟨r', hr', rfl⟩ := mem_modify.mp hr
  have := h o ho r' hr'
  split <;> exact this

theorem dropReadLock (h : p.Mutex) (addr : ℕ) : (p.dropReadLock addr).Mutex :=
  fun o ho r hr => h o ho r (mem_drop.mp hr).1

theorem of_owner_none (h : p.owner = none) : p.Mutex := by
  intro o ho
  rw [h] at ho
  cases ho

theorem takeExcl (h : ∀ r ∈ p.readLocks, r.task = t) : (p.takeExcl t).Mutex := by
  intro o ho
  cases ho
  exact h

end Mutex

theorem NoRecord.setCount (h : p.NoRecord u) (addr n : ℕ) : (p.setCount addr n).NoRecord u := by
  intro r hr
  obtain ⟨r', hr', rfl⟩ := mem_modify.mp hr
  have := h r' hr'
  split <;> exact this

theorem NoRecord.dropReadLock (h : p.NoRecord u) (addr : ℕ) : (p.dropReadLock addr).NoRecord u :=
  fun r hr => h r (mem_drop.mp hr).1

theorem NoRecord.setTask (h : p.NoRecord u) (addr : ℕ) (ht : t ≠ u) :
    (p.setTask addr t).NoRecord u := by
  intro r hr
  obtain ⟨r', hr', rfl⟩ := mem_modify.mp hr
  split
  · exact ht
  · exact h r' hr'

theorem dropReadLock_noRecord (hc : p.Counted) {r : PsdReadLock τ} (hr : r ∈ p.readLocks) :
    (p.dropReadLock r.addr).NoRecord r.task := by
  intro x hx he
  obtain ⟨hx, ha⟩ := mem_drop.mp hx
  exact ha (by rw [hc.task_inj hx hr he])

theorem Counted.sharedPass (h : p.Counted) (hr : p.Room t 1 0) (hn : p.NoRecord t) (e : Bool) :
    (p.sharedPass t e).1.Counted := by
  unfold PsdLockSem.sharedPass
  split
  · exact h.setQueue _
  · rename_i ho
    have ho : p.owner = none := by simpa using ho
    split
    · exact h.takeExcl (Or.inl ho) hr.excl
    · exact h.takeShared hn (hr.shared Nat.one_pos ho hn)

theorem Mutex.sharedPass (h : p.Mutex)
    (he : e = true → p.owner = none → ∀ r ∈ p.readLocks, r.task = t) :
    (p.sharedPass t e).1.Mutex := by
  unfold PsdLockSem.sharedPass
  split
  · exact h
  · rename_i ho
    have ho : p.owner = none := by simpa using ho
    split
    · rename_i he'
      exact Mutex.takeExcl (he he' ho)
    · exact Mutex.of_owner_none ho

theorem sharedPass_keeps (p : PsdLockSem τ) (u : τ) (e : Bool) :
    ∀ x ∈ p.readLocks, x ∈ (p.sharedPass u e).1.readLocks := by
  intro x hx
  unfold sharedPass
  split
  · exact hx
  · split
    · exact hx
    · exact mem_cons_of_mem _ hx

theorem sharedPass_wait {e' : Bool} (h : (p.sharedPass t e).2 = .wait e') : e' = false := by
  unfold sharedPass at h
  split at h
  · simpa using h.symm
  · split at h <;> cases h

theorem sharedPass_locked (h : (p.sharedPass t e).2 = .locked) : p.owner = none := by
  unfold sharedPass at h
  split at h
  · cases h
  · rename_i ho
    simpa using ho

variable [DecidableEq τ]

instance NoRecord.decidable (p : PsdLockSem τ) (t : τ) : Decidable (p.NoRecord t) :=
  inferInstanceAs (Decidable (∀ r ∈ p.readLocks, r.task ≠ t))

instance Room.decidable (p : PsdLockSem τ) (t : τ) (n m : ℕ) : Decidable (p.Room t n m) :=
  decidable_of_iff
    ((p.owner = some t → p.exclLockCount + n + m < 2 ^ 16) ∧
      (p.owner ≠ some t → ∀ r ∈ p.readLocks, r.task = t → r.count + n < 2 ^ 16) ∧
      (0 < n → p.owner = none → p.NoRecord t → p.sharedLockCount + 1 < 2 ^ 16) ∧
      n + m < 2 ^ 16)
    ⟨fun ⟨h1, h2, h3, h4⟩ => ⟨h1, h2, h3, h4⟩, fun ⟨h1, h2, h3, h4⟩ => ⟨h1, h2, h3, h4⟩⟩

theorem readLock_some {r : PsdReadLock τ} (h : p.readLock t = some r) :
    r ∈ p.readLocks ∧ r.task = t := by
  refine ⟨mem_of_find?_eq_some h, ?_⟩
  simpa using find?_some h

theorem readLock_none (h : p.readLock t = none) : p.NoRecord t := by
  simpa [readLock, NoRecord] using h

theorem mayLockExcl_iff (h : p.Counted) :
    p.mayLockExcl t = true ↔
      p.owner = some t ∨ (p.owner = none ∧ ∀ r ∈ p.readLocks, r.task = t) := by
  have hn : p.exclLockCount = 0 ↔ p.owner = none := ⟨h.owner_none, h.excl_zero⟩
  simp only [mayLockExcl, decide_eq_true_eq, hn, h.shared]
  refine or_congr_right (and_congr_right fun _ => ?_)
  match hl : p.readLocks with
  | [] => simp
  | [r] => simp
  | r :: r' :: rs =>
    -- two records belong to two tasks
    have hne : r.task ≠ r'.task := by
      have := h.tasks
      rw [hl] at this
      simp only [map_cons, nodup_cons, mem_cons, not_or] at this
      exact this.1.1
    constructor
    · rintro (h | ⟨h, -⟩) <;> simp at h
    · intro hall
      exact absurd ((hall r (by simp)).trans (hall r' (by simp)).symm) hne

theorem Counted.pLockSemExcl (h : p.Counted)
    (hr : p.owner = some t → p.exclLockCount + 1 < 2 ^ 16) : (p.pLockSemExcl t).1.Counted := by
  unfold PsdLockSem.pLockSemExcl
  split
  · rename_i hm
    refine h.takeExcl ?_ hr
    rcases (mayLockExcl_iff h).mp hm with ho | ⟨ho, -⟩
    · exact Or.inr ho
    · exact Or.inl ho
  · exact h.setQueue _

theorem Counted.pLockSemShared (h : p.Counted) (hr : p.Room t 1 0) (hq : p.pLockSemShared t mem = some q) : q.1.Counted := by
  unfold PsdLockSem.pLockSemShared at hq
  split at hq
  · rename_i ho
    cases hq
    have := h.takeExcl (Or.inr ho) hr.excl
    rwa [PsdLockSem.takeExcl, ← ho] at this
  · rename_i ho
    split at hq
    · rename_i prl hprl
      cases hq
      obtain ⟨hm, ht⟩ := readLock_some hprl
      have := hr.count ho prl hm ht
      exact h.setCount _ (by rw [uword_of_lt this]; omega) (uword_lt _)
    · rename_i hprl
      split at hq
      · cases hq
        exact h.sharedPass hr (readLock_none hprl) false
      · cases hq

theorem Counted.wake (h : p.Counted)
    (hr : if e then p.Room t 0 1 else p.Room t 1 0) (hn : e = false → p.NoRecord t) :
    (p.wake t e).1.Counted := by
  unfold PsdLockSem.wake
  have hd : (p.dequeue t).Counted := h.setQueue _
  cases e with
  | true => exact hd.pLockSemExcl hr.excl
  | false =>
    have hr : p.Room t 1 0 := hr
    exact hd.sharedPass (hr.setQueue _) (hn rfl) _

theorem Room.pLockSemExcl {n' m' : ℕ} (h : p.Room t n m) (hc : p.Counted) (hn : n' ≤ n)
    (hm : m' ≤ m) (hlt : n' + m' < n + m) : (p.pLockSemExcl t).1.Room t n' m' := by
  have hs := h.small
  unfold PsdLockSem.pLockSemExcl
  split
  · rename_i hmay
    refine ⟨fun _ => ?_, fun ho => absurd rfl ho, fun _ ho => absurd ho (by simp [takeExcl]),
      by omega⟩
    have hle : uword (p.exclLockCount + 1) ≤ p.exclLockCount + 1 := Nat.mod_le _ _
    simp only [takeExcl]
    rcases (mayLockExcl_iff hc).mp hmay with ho | ⟨ho, -⟩
    · have := h.excl ho
      omega
    · have := hc.excl_zero ho
      omega
  · exact (h.mono hn hm).setQueue _

theorem Room.pLockSemShared (h : p.Room t (n + 1) m) (hq : p.pLockSemShared t mem = some q) : q.1.Room t n m := by
  have hs := h.small
  unfold PsdLockSem.pLockSemShared at hq
  split at hq
  · rename_i ho
    cases hq
    have := h.excl ho
    refine ⟨fun _ => ?_, fun ho' => absurd ho ho', fun _ ho' => ?_, by omega⟩
    · dsimp only
      rw [uword_of_lt (by omega)]
      omega
    · exact absurd (ho.symm.trans ho') (by simp)
  · rename_i ho
    split at hq
    · rename_i prl hprl
      obtain ⟨hm, ht⟩ := readLock_some hprl
      cases hq
      have hno : ¬ (p.setCount prl.addr (uword (prl.count + 1))).NoRecord t := by
        intro hno
        exact hno _ (mem_modify.mpr ⟨prl, hm, rfl⟩) (by simpa using ht)
      refine ⟨fun ho' => absurd ho' ho, fun _ r hr hrt => ?_, fun _ _ hno' => absurd hno' hno,
        by omega⟩
      obtain ⟨r', hr', rfl⟩ := mem_modify.mp hr
      have h1 := h.count ho prl hm ht
      split
      · dsimp only
        rw [uword_of_lt (by omega)]
        omega
      · rename_i hk
        rw [if_neg hk] at hrt
        have := h.count ho r' hr' hrt
        omega
    · rename_i hprl
      split at hq
      · cases hq
        unfold sharedPass
        split
        · exact ⟨fun ho' => absurd ho' ho, fun _ r hr hrt => absurd hrt (readLock_none hprl r hr),
            fun _ => h.shared (by omega), by omega⟩
        · have hno : ¬ (p.takeShared t).NoRecord t := fun hno => hno _ (mem_cons_self ..) rfl
          refine ⟨fun ho' => absurd ho' ho, fun _ r hr hrt => ?_, fun _ _ hno' => absurd hno' hno,
            by omega⟩
          rcases mem_cons.mp hr with rfl | hr
          · dsimp only; omega
          · exact absurd hrt (readLock_none hprl r hr)
      · cases hq

theorem Room.wake
    (h : if e then p.Room t n (m + 1) else p.Room t (n + 1) m) (hc : p.Counted)
    (hn : e = false → p.NoRecord t) : (p.wake t e).1.Room t n m := by
  unfold PsdLockSem.wake
  have hd : (p.dequeue t).Counted := hc.setQueue _
  cases e with
  | true =>
    have h : p.Room t n (m + 1) := h
    exact (h.setQueue _).pLockSemExcl hd le_rfl (by omega) (by omega)
  | false =>
    have h : p.Room t (n + 1) m := h
    have hs := h.small
    have hn := hn rfl
    simp only [Bool.false_eq_true, if_false]
    unfold sharedPass
    split
    · exact (h.mono (by omega) le_rfl).setQueue _
    · rename_i ho
      have ho : p.owner = none := by simpa [dequeue] using ho
      have h0 := hc.excl_zero ho
      split
      · refine ⟨fun _ => ?_, fun ho => absurd rfl ho, fun _ ho => absurd ho (by simp [takeExcl]),
          by omega⟩
        have hle : uword (p.exclLockCount + 1) ≤ p.exclLockCount + 1 := Nat.mod_le _ _
        simp only [takeExcl, dequeue]
        omega
      · have hno : ¬ ((p.dequeue t).takeShared t).NoRecord t :=
          fun hno => hno _ (mem_cons_self ..) rfl
        refine ⟨fun ho' => absurd (ho.symm.trans ho') (by simp), fun _ r hr hrt => ?_,
          fun _ _ hno' => absurd hno' hno, by omega⟩
        rcases mem_cons.mp hr with rfl | hr
        · dsimp only; omega
        · exact absurd hrt (hn r hr)

theorem Mutex.pLockSemExcl (h : p.Mutex) (hc : p.Counted) : (p.pLockSemExcl t).1.Mutex := by
  unfold PsdLockSem.pLockSemExcl
  split
  · rename_i hm
    refine Mutex.takeExcl ?_
    rcases (mayLockExcl_iff hc).mp hm with ho | ⟨-, ho⟩
    · exact h t ho
    · exact ho
  · exact h

theorem Mutex.pLockSemShared (h : p.Mutex)
    (hq : p.pLockSemShared t mem = some q) : q.1.Mutex := by
  unfold PsdLockSem.pLockSemShared at hq
  split at hq
  · cases hq; exact h
  · split at hq
    · cases hq; exact h.setCount _ _
    · split at hq
      · cases hq; exact h.sharedPass (by simp)
      · cases hq

theorem Mutex.wake (h : p.Mutex) (hc : p.Counted)
    (he : e = false → p.promoted t = true → p.owner = none → ∀ r ∈ p.readLocks, r.task = t) :
    (p.wake t e).1.Mutex := by
  unfold PsdLockSem.wake
  have hd : (p.dequeue t).Mutex := h
  split
  · exact hd.pLockSemExcl (hc.setQueue _)
  · rename_i hf
    exact hd.sharedPass (he (by simpa using hf))

theorem Counted.pUnlockSem (h : p.Counted) : (p.pUnlockSem t).1.Counted := by
  unfold PsdLockSem.pUnlockSem
  split
  · rename_i o ho
    split
    · exact h
    · split
      · rename_i hn
        exact h.setOwner (by simp [ho, Nat.pos_of_ne_zero hn]) (usub_lt _ _)
      · rename_i hn
        exact h.setOwner (by simpa using hn) (usub_lt _ _)
  · split
    · exact h
    · split
      · exact h
      · rename_i prl hprl
        obtain ⟨hm, -⟩ := readLock_some hprl
        split
        · rename_i hn
          exact h.setCount _ (Nat.pos_of_ne_zero hn) (usub_lt _ _)
        · exact h.dropReadLock hm

theorem Mutex.pUnlockSem (h : p.Mutex) : (p.pUnlockSem t).1.Mutex := by
  unfold PsdLockSem.pUnlockSem
  split
  · split
    · exact h
    · split
      · exact fun o ho r hr => h o ho r hr
      · exact Mutex.of_owner_none rfl
  · split
    · exact h
    · split
      · exact h
      · split
        · exact h.setCount _ _
        · exact h.dropReadLock _

end Neptune.PsdLockSem

namespace Neptune.PsdLockSem

open List

variable {τ ι : Type} [DecidableEq τ] {p q r : PsdLockSem τ} {t task u : τ}

structure Frame (u : τ) (p q : PsdLockSem τ) : Prop where
  queue : q.waitQueue.filter (·.task = u) = p.waitQueue.filter (·.task = u)
  records : q.readLocks.filter (·.task = u) = p.readLocks.filter (·.task = u)

structure WaitsOn (p : PsdLockSem τ) (u : τ) : Prop where
  queued : p.queued u = true
  noRecord : p.NoRecord u

theorem queued_iff : p.queued u = true ↔ p.waitQueue.filter (·.task = u) ≠ [] := by
  simp [queued, filter_eq_nil_iff]

theorem noRecord_iff : p.NoRecord u ↔ p.readLocks.filter (·.task = u) = [] := by
  simp [NoRecord, filter_eq_nil_iff]

theorem readLock_eq_head (p : PsdLockSem τ) (u : τ) :
    p.readLock u = (p.readLocks.filter (·.task = u)).head? := by
  simp [readLock, List.head?_filter]

namespace Frame

theorem refl (u : τ) (p : PsdLockSem τ) : Frame u p p := ⟨rfl, rfl⟩

section

variable (h : Frame u p q)
include h

theorem trans (h' : Frame u q r) : Frame u p r :=
  ⟨h'.queue.trans h.queue, h'.records.trans h.records⟩

theorem queued : q.queued u = p.queued u := by
  rw [Bool.eq_iff_iff, queued_iff, queued_iff, h.queue]

theorem noRecord : q.NoRecord u ↔ p.NoRecord u := by
  rw [noRecord_iff, noRecord_iff, h.records]

theorem readLock : q.readLock u = p.readLock u := by
  rw [readLock_eq_head, readLock_eq_head, h.records]

theorem promoted : q.promoted u = p.promoted u := by
  have hf (x : PsdLockSem τ) :
      x.promoted u = (x.waitQueue.filter (·.task = u)).any (·.isExcl) := by
    simp [PsdLockSem.promoted, List.any_filter]
  rw [hf, hf, h.queue]

theorem waitsOn (hw : p.WaitsOn u) : q.WaitsOn u :=
  ⟨h.queued.trans hw.queued, h.noRecord.mpr hw.noRecord⟩

end

variable {addr : ℕ}

theorem setCount (n : ℕ) (hr : ∀ r ∈ p.readLocks, r.addr = addr → r.task ≠ u) :
    Frame u p (p.setCount addr n) :=
  ⟨rfl, Keyed.filter_modify fun r hm hk => by simp [hr r hm hk]⟩

theorem setTask (ht : t ≠ u) (hr : ∀ r ∈ p.readLocks, r.addr = addr → r.task ≠ u) :
    Frame u p (p.setTask addr t) :=
  ⟨rfl, Keyed.filter_modify fun r hm hk => by simp [hr r hm hk, ht]⟩

theorem dropReadLock (hr : ∀ r ∈ p.readLocks, r.addr = addr → r.task ≠ u) :
    Frame u p (p.dropReadLock addr) :=
  ⟨rfl, Keyed.filter_drop fun r hm hk => by simp [hr r hm hk]⟩

theorem dequeue (ht : t ≠ u) : Frame u p (p.dequeue t) :=
  ⟨Keyed.filter_drop fun r _ hk => by simp [hk, ht], rfl⟩

theorem pLockSemExcl (ht : t ≠ u) : Frame u p (p.pLockSemExcl t).1 := by
  unfold PsdLockSem.pLockSemExcl
  split
  · exact ⟨rfl, rfl⟩
  · exact ⟨by simp [ht], rfl⟩

theorem sharedPass (ht : t ≠ u) (e : Bool) : Frame u p (p.sharedPass t e).1 := by
  unfold PsdLockSem.sharedPass
  split
  · exact ⟨by simp [filter_append, ht], rfl⟩
  · split
    · exact ⟨rfl, rfl⟩
    · exact ⟨rfl, by simp [takeShared, ht]⟩

theorem addr_of_readLock (hc : p.Counted) {prl : PsdReadLock τ} (h : p.readLock t = some prl)
    (ht : t ≠ u) : ∀ r ∈ p.readLocks, r.addr = prl.addr → r.task ≠ u := by
  intro r hr ha
  obtain ⟨hm, rfl⟩ := readLock_some h
  rwa [hc.addr_inj hr hm ha]

theorem pLockSemShared (hc : p.Counted) (ht : t ≠ u) {mem : Bool} {x : PsdLockSem τ × Got}
    (h : p.pLockSemShared t mem = some x) : Frame u p x.1 := by
  unfold PsdLockSem.pLockSemShared at h
  split at h
  · cases h; exact ⟨rfl, rfl⟩
  · split at h
    · rename_i prl hprl
      cases h
      exact setCount _ (addr_of_readLock hc hprl ht)
    · split at h
      · cases h; exact sharedPass ht false
      · cases h

theorem wake (ht : t ≠ u) (e : Bool) : Frame u p (p.wake t e).1 := by
  unfold PsdLockSem.wake
  split
  · exact (dequeue ht).trans (pLockSemExcl ht)
  · exact (dequeue ht).trans (sharedPass ht _)

theorem pUnlockSem (hc : p.Counted) (ht : t ≠ u) : Frame u p (p.pUnlockSem t).1 := by
  unfold PsdLockSem.pUnlockSem
  split
  · split
    · exact refl u p
    · split <;> exact ⟨rfl, rfl⟩
  · split
    · exact refl u p
    · split
      · exact refl u p
      · rename_i prl hprl
        have ha := addr_of_readLock hc hprl ht
        split
        · exact setCount _ ha
        · exact dropReadLock ha

end Frame

variable {e : Bool}

theorem pLockSemExcl_wait (h : (p.pLockSemExcl t).2 = .wait e) : e = true := by
  unfold pLockSemExcl at h
  split at h <;> simp_all

theorem sharedPass_waitsOn {e' : Bool} (hn : p.NoRecord t) (h : (p.sharedPass t e).2 = .wait e') :
    (p.sharedPass t e).1.WaitsOn t := by
  unfold sharedPass at h ⊢
  split
  · exact ⟨by simp [queued], hn⟩
  · split at h <;> simp_all
    split at h <;> simp_all

theorem pLockSemShared_wait {mem : Bool} {x : PsdLockSem τ × Got}
    (hs : p.pLockSemShared t mem = some x) (h : x.2 = .wait e) : e = false := by
  unfold pLockSemShared at hs
  split at hs
  · cases hs; cases h
  · split at hs
    · cases hs; cases h
    · split at hs
      · cases hs; exact sharedPass_wait h
      · cases hs

theorem pLockSemShared_eq_none {mem : Bool} (hs : p.pLockSemShared t mem = none) :
    mem = false ∧ p.NoRecord t := by
  unfold pLockSemShared at hs
  split at hs
  · cases hs
  · split at hs
    · cases hs
    · rename_i hprl
      split at hs
      · cases hs
      · rename_i hm
        exact ⟨by simpa using hm, readLock_none hprl⟩

end Neptune.PsdLockSem
