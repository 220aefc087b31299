import Neptune.Proofs.LockOk

/-! Lending the holds on one lock and taking them back, and how the loops over all locks come
down to one lock. -/

namespace Neptune

open List

variable {τ ι : Type} [DecidableEq τ]

def Borrow.empty : Borrow ι := ⟨[], []⟩

namespace PsdLockSem

variable {p : PsdLockSem τ} {t task u : τ} {l : ι} {memE memS : Bool}

/-- What a lender moved of one lock: its ownership, its record, both or nothing. -/
inductive Moved : List (PsdBorrowLock ι) → Prop
  | nothing : Moved []
  | excl {e : PsdBorrowLock ι} : e.exclLockCount ≠ 0 → Moved [e]
  | shared {s : PsdBorrowLock ι} : s.exclLockCount = 0 → Moved [s]
  | both {e s : PsdBorrowLock ι} : e.exclLockCount ≠ 0 → s.exclLockCount = 0 → Moved [e, s]

/-- The entries `bs` on the lock can be taken back as they are: the borrower still has what was
moved to it, the lender has no record of its own besides, and no record stays when the
ownership returns. -/
structure Returnable (t task : τ) (bs : List (PsdBorrowLock ι)) (p : PsdLockSem τ) : Prop where
  excl : ∀ b ∈ bs, b.exclLockCount ≠ 0 →
    p.owner = some task ∧ b.exclLockCount ≤ p.exclLockCount
  whole : ∀ b ∈ bs, b.exclLockCount ≠ 0 → b.exclLockCount = p.exclLockCount →
    ∀ r ∈ p.readLocks, ∃ b' ∈ bs, b'.exclLockCount = 0 ∧ b'.readLock = r.addr ∧ b'.count = r.count
  shared : ∀ b ∈ bs, b.exclLockCount = 0 →
    p.NoRecord t ∧ ∃ r ∈ p.readLocks, r.addr = b.readLock ∧ r.task = task ∧ b.count ≤ r.count

instance Returnable.decidable (t task : τ) (bs : List (PsdBorrowLock ι)) (p : PsdLockSem τ) :
    Decidable (Returnable t task bs p) :=
  decidable_of_iff
    ((∀ b ∈ bs, b.exclLockCount ≠ 0 →
        p.owner = some task ∧ b.exclLockCount ≤ p.exclLockCount) ∧
      (∀ b ∈ bs, b.exclLockCount ≠ 0 → b.exclLockCount = p.exclLockCount →
        ∀ r ∈ p.readLocks,
          ∃ b' ∈ bs, b'.exclLockCount = 0 ∧ b'.readLock = r.addr ∧ b'.count = r.count) ∧
      ∀ b ∈ bs, b.exclLockCount = 0 → p.NoRecord t ∧
        ∃ r ∈ p.readLocks, r.addr = b.readLock ∧ r.task = task ∧ b.count ≤ r.count)
    ⟨fun ⟨h1, h2, h3⟩ => ⟨h1, h2, h3⟩, fun ⟨h1, h2, h3⟩ => ⟨h1, h2, h3⟩⟩

theorem Counted.toHead (h : p.Counted) (task : τ) (promote : Bool) :
    (p.toHead task promote).Counted := by
  unfold PsdLockSem.toHead
  split
  · exact h
  · exact h.setQueue _

section

variable (p : PsdLockSem τ)

theorem toHead_owner (task : τ) (promote : Bool) :
    (p.toHead task promote).owner = p.owner := by
  unfold toHead; split <;> rfl

theorem toHead_readLocks (task : τ) (promote : Bool) :
    (p.toHead task promote).readLocks = p.readLocks := by
  unfold toHead; split <;> rfl

theorem toHead_queued (task u : τ) (promote : Bool) :
    (p.toHead task promote).queued u = p.queued u := by
  unfold toHead
  split
  · rfl
  · rename_i r hr
    have hrt : r.task = task := by simpa using List.find?_some hr
    have hrm := List.mem_of_find?_eq_some hr
    rw [Bool.eq_iff_iff]
    simp only [queued, List.any_eq_true, mem_cons, Keyed.mem_drop, decide_eq_true_eq]
    constructor
    · rintro ⟨x, rfl | ⟨hx, -⟩, hu⟩
      · exact ⟨r, hrm, hu⟩
      · exact ⟨x, hx, hu⟩
    · rintro ⟨x, hx, hu⟩
      by_cases hxt : x.task = task
      · exact ⟨_, Or.inl rfl, by rw [← hu, hxt]; exact hrt⟩
      · exact ⟨x, Or.inr ⟨hx, hxt⟩, hu⟩

theorem lendExcl_readLocks (b : Borrow ι) :
    (lendExcl t task memE l p b).1.readLocks = p.readLocks := by
  unfold lendExcl
  split_ifs <;> simp [toHead_readLocks]

theorem lendExcl_queued (b : Borrow ι) :
    (lendExcl t task memE l p b).1.queued u = p.queued u := by
  unfold lendExcl
  split_ifs
  · exact toHead_queued p task u true
  · exact toHead_queued p task u true
  all_goals rfl

end

theorem Counted.lendExcl (h : p.Counted) (b : Borrow ι) :
    (lendExcl t task memE l p b).1.Counted := by
  unfold PsdLockSem.lendExcl
  split_ifs with ho
  · exact (h.toHead task true).setOwner (by simp) (by norm_num)
  · exact h.toHead task true
  · exact h.setOwner (by simpa using h.excl_pos ho) h.exclWord
  · exact h
  · exact h

def MergeRoom (p : PsdLockSem τ) (t task : τ) : Prop :=
  ∀ r ∈ p.readLocks, ∀ r' ∈ p.readLocks, r.task = t → r'.task = task →
    r'.count + r.count < 2 ^ 16

instance MergeRoom.decidable (p : PsdLockSem τ) (t task : τ) : Decidable (p.MergeRoom t task) :=
  inferInstanceAs (Decidable (∀ r ∈ p.readLocks, ∀ r' ∈ p.readLocks, r.task = t →
    r'.task = task → r'.count + r.count < 2 ^ 16))

theorem Counted.lendShared (h : p.Counted)
    (hm : memS = true → p.queued task = false → p.MergeRoom t task)
    (b : Borrow ι) : (lendShared t task memS l p b).1.Counted := by
  unfold PsdLockSem.lendShared
  split
  · exact h
  · split
    · exact h
    · rename_i prl hprl
      obtain ⟨hmem, ht⟩ := readLock_some hprl
      split
      · split
        · refine (h.toHead task false).dropReadLock ?_
          rwa [toHead_readLocks]
        · exact h.toHead task false
      · rename_i hq
        split
        · rename_i prl2 hprl2
          obtain ⟨hmem2, ht2⟩ := readLock_some hprl2
          split
          · rename_i hms
            have hr := hm hms (by simpa using hq) prl hmem prl2 hmem2 ht ht2
            have h2 := h.count prl2 hmem2
            exact (h.dropReadLock hmem).setCount _ (by rw [uword_of_lt hr]; omega) (uword_lt _)
          · exact h
        · rename_i hprl2
          split
          · exact h.setTask hmem fun x hx _ => readLock_none hprl2 x hx
          · exact h

theorem Mutex.lendShared_of_owner_none (ho : p.owner = none) (b : Borrow ι) :
    (lendShared t task memS l p b).1.Mutex := by
  refine Mutex.of_owner_none ?_
  unfold PsdLockSem.lendShared
  split
  · exact ho
  · split
    · exact ho
    · split
      · split
        · exact (toHead_owner p task false).trans ho
        · exact (toHead_owner p task false).trans ho
      · split <;> split <;> exact ho

theorem lendShared_of_noRecord (h : p.NoRecord t) (b : Borrow ι) :
    lendShared t task memS l p b = (p, b) := by
  have hr : p.readLock t = none := by
    simpa [readLock, NoRecord] using h
  unfold lendShared
  simp [hr]

theorem Mutex.toHead (h : p.Mutex) (task : τ) (promote : Bool) :
    (p.toHead task promote).Mutex := by
  intro o ho r hr
  rw [toHead_owner] at ho
  rw [toHead_readLocks] at hr
  exact h o ho r hr

theorem Mutex.lendShared_of_queued (h : p.Mutex) (hq : p.queued task = true) (b : Borrow ι) :
    (lendShared t task memS l p b).1.Mutex := by
  unfold PsdLockSem.lendShared
  simp only [hq, if_true]
  split
  · exact h
  · split
    · exact h
    · split
      · exact (h.toHead task false).dropReadLock _
      · exact h.toHead task false

theorem lendShared_of_no_mem (hq : p.queued task = false) (b : Borrow ι) :
    lendShared t task false l p b = (p, b) := by
  unfold lendShared
  simp only [hq, Bool.false_eq_true, if_false]
  split
  · rfl
  · split
    · rfl
    · split <;> rfl

theorem Mutex.lendShared_of_moved (hc : p.Counted) (hne : task ≠ t) (ho : p.owner = some task)
    (hall : ∀ r ∈ p.readLocks, r.task = t) (hq : p.queued task = false) (b : Borrow ι) :
    (lendShared t task true l p b).1.Mutex := by
  have hnt : p.readLock task = none := by
    simp only [readLock, List.find?_eq_none, decide_eq_true_eq]
    exact fun r hr he => hne (he.symm.trans (hall r hr))
  have hnil (h : p.NoRecord t) : p.Mutex := fun o _ r hr => absurd (hall r hr) (h r hr)
  unfold PsdLockSem.lendShared
  simp only [hq, hnt, Bool.false_eq_true, if_false, if_true]
  split
  · rename_i hz
    refine hnil fun r hr => ?_
    have hl : p.readLocks = [] := eq_nil_of_length_eq_zero (hc.shared ▸ hz)
    rw [hl] at hr
    cases hr
  · split
    · rename_i hnone
      exact hnil (readLock_none hnone)
    · rename_i prl hprl
      obtain ⟨hm, ht⟩ := readLock_some hprl
      intro o ho' r hr
      obtain rfl : task = o := Option.some.inj (ho.symm.trans ho')
      obtain ⟨r', hr', rfl⟩ := Keyed.mem_modify.mp hr
      have hone : r' = prl := hc.task_inj hr' hm ((hall r' hr').trans ht.symm)
      simp [hone]

theorem Mutex.lend (h : p.Mutex) (hc : p.Counted) (hne : task ≠ t)
    (hmem : p.owner = some t → p.queued task = false → ¬ p.NoRecord t → memE = memS)
    (b : Borrow ι) : (PsdLockSem.lend t task memE memS l p b).1.Mutex := by
  unfold PsdLockSem.lend
  by_cases ho : p.owner = some t
  · have hall := h t ho
    by_cases hq : p.queued task = true
    · cases memE
      · simp only [PsdLockSem.lendExcl, ho, hq, if_true, Bool.false_eq_true, if_false]
        exact (h.toHead task true).lendShared_of_queued ((toHead_queued p task task true).trans hq) b
      · exact Mutex.lendShared_of_owner_none (by simp [PsdLockSem.lendExcl, ho, hq]) _
    · have hq : p.queued task = false := by simpa using hq
      by_cases hn : p.NoRecord t
      · -- the lock has no record at all
        have hn' : (PsdLockSem.lendExcl t task memE l p b).1.NoRecord t := by
          unfold NoRecord
          rwa [lendExcl_readLocks]
        dsimp only
        rw [lendShared_of_noRecord hn']
        intro o _ r hr
        rw [lendExcl_readLocks] at hr
        exact absurd (hall r hr) (hn r hr)
      · obtain rfl := hmem ho hq hn
        cases memE
        · simp only [PsdLockSem.lendExcl, ho, hq, if_true, Bool.false_eq_true, if_false]
          rwa [lendShared_of_no_mem hq]
        · simp only [PsdLockSem.lendExcl, ho, hq, if_true, Bool.false_eq_true, if_false]
          exact Mutex.lendShared_of_moved
            (hc.setOwner (by simpa using hc.excl_pos ho) hc.exclWord) hne rfl hall hq _
  · simp only [PsdLockSem.lendExcl, ho, if_false]
    cases hown : p.owner with
    | none => exact Mutex.lendShared_of_owner_none hown _
    | some o =>
      rw [lendShared_of_noRecord]
      · exact h
      · exact fun r hr he => ho (by rw [hown, ← h o hown r hr, he])

theorem Ok.lend (h : p.Ok) (hne : task ≠ t)
    (hmem : p.owner = some t → p.queued task = false → ¬ p.NoRecord t → memE = memS)
    (hr : memS = true → p.queued task = false → p.MergeRoom t task) (b : Borrow ι) :
    (PsdLockSem.lend t task memE memS l p b).1.Ok := by
  refine ⟨h.mutex.lend h.counted hne hmem b, (h.counted.lendExcl b).lendShared ?_ _⟩
  unfold MergeRoom
  rwa [lendExcl_readLocks, lendExcl_queued]

theorem lendShared_queued (p : PsdLockSem τ) (b : Borrow ι) :
    (lendShared t task memS l p b).1.queued u = p.queued u := by
  unfold lendShared
  split
  · rfl
  · split
    · rfl
    · split
      · split <;> exact toHead_queued p task u false
      · split <;> split <;> rfl

theorem lend_queued (p : PsdLockSem τ) (b : Borrow ι) :
    (lend t task memE memS l p b).1.queued u = p.queued u :=
  (lendShared_queued _ _).trans (lendExcl_queued p b)

theorem NoRecord.lend (h : p.NoRecord u) (hu : task = u → p.queued u = true) (b : Borrow ι) :
    (PsdLockSem.lend t task memE memS l p b).1.NoRecord u := by
  unfold PsdLockSem.lend
  have h' : (PsdLockSem.lendExcl t task memE l p b).1.NoRecord u := by
    unfold NoRecord
    rwa [lendExcl_readLocks]
  have hq : (PsdLockSem.lendExcl t task memE l p b).1.queued u = p.queued u :=
    lendExcl_queued p b
  generalize PsdLockSem.lendExcl t task memE l p b = x at h' hq
  dsimp only
  have hh : (x.1.toHead task false).NoRecord u := by
    unfold NoRecord
    rwa [toHead_readLocks]
  unfold lendShared
  split
  · exact h'
  · split
    · exact h'
    · split
      · split
        · exact hh.dropReadLock _
        · exact hh
      · rename_i hnq
        split <;> split
        · exact (h'.dropReadLock _).setCount _ _
        · exact h'
        · refine h'.setTask _ fun he => hnq ?_
          rw [he, hq]
          exact hu he
        · exact h'

theorem WaitsOn.lend (h : p.WaitsOn u) (b : Borrow ι) :
    (PsdLockSem.lend t task memE memS l p b).1.WaitsOn u :=
  ⟨(lend_queued p b).trans h.queued, h.noRecord.lend (fun _ => h.queued) b⟩

theorem lend_moved {p : PsdLockSem τ} (h : p.Counted) (memE memS : Bool) :
    Moved (lend t task memE memS l p .empty).2.borrows := by
  have hE : (lendExcl t task memE l p .empty).2.borrows = [] ∨
      ∃ e : PsdBorrowLock ι, e.exclLockCount ≠ 0 ∧
        (lendExcl t task memE l p .empty).2.borrows = [e] := by
    unfold lendExcl
    split_ifs with ho
    · exact Or.inl rfl
    · exact Or.inl rfl
    · exact Or.inr ⟨_, (h.excl_pos ho).ne', rfl⟩
    · exact Or.inl rfl
    · exact Or.inl rfl
  have hS (x : PsdLockSem τ × Borrow ι) : (lendShared t task memS l x.1 x.2).2.borrows =
        x.2.borrows ∨
      ∃ b : PsdBorrowLock ι, b.exclLockCount = 0 ∧
        (lendShared t task memS l x.1 x.2).2.borrows = x.2.borrows ++ [b] := by
    unfold lendShared
    split
    · exact Or.inl rfl
    · split
      · exact Or.inl rfl
      · split
        · split <;> exact Or.inl rfl
        · split <;> split
          · exact Or.inr ⟨_, rfl, rfl⟩
          · exact Or.inl rfl
          · exact Or.inr ⟨_, rfl, rfl⟩
          · exact Or.inl rfl
  unfold lend
  rcases hS (lendExcl t task memE l p .empty) with h2 | ⟨b, hb, h2⟩ <;>
    rcases hE with h1 | ⟨e, he, h1⟩ <;> rw [h2, h1]
  · exact .nothing
  · exact .excl he
  · exact .shared hb
  · exact .both he hb

def takeBackOne (t task : τ) :
    List (PsdBorrowLock ι) → PsdLockSem τ → List (PsdBorrowLock ι) →
      PsdLockSem τ × List (PsdBorrowLock ι)
  | [], p, rs => (p, rs)
  | b :: bs, p, rs =>
    let r := takeBack t task b p rs
    takeBackOne t task bs r.1 r.2

section takeBack

variable {b : PsdBorrowLock ι} {bs rs : List (PsdBorrowLock ι)} {r : PsdReadLock τ}

theorem takeBack_whole (he : b.exclLockCount ≠ 0) (hw : b.exclLockCount = p.exclLockCount) :
    takeBack t task b p rs = ({ p with owner := some t }, rs) := by
  simp [takeBack, ← hw, he]

theorem takeBack_part (he : b.exclLockCount ≠ 0) (hw : b.exclLockCount ≠ p.exclLockCount) :
    takeBack t task b p rs =
      ({ p with exclLockCount := usub p.exclLockCount b.exclLockCount }, rs ++ [b]) := by
  simp [takeBack, he, hw]

theorem takeBack_shared (hc : p.Counted) (he : b.exclLockCount = 0) (hr : r ∈ p.readLocks)
    (ha : r.addr = b.readLock) :
    takeBack t task b p rs =
      if p.owner = some task then
        if b.count = r.count then (p.dropReadLock r.addr, b :: rs)
        else (p.setCount r.addr (usub r.count b.count), b :: rs)
      else if b.count = r.count then (p.setTask r.addr t, rs)
      else (p.setCount r.addr (usub r.count b.count), b :: rs) := by
  have hf : p.readLocks.find? (fun x => x.addr = b.readLock) = some r :=
    (Keyed.find_key_iff hc.addrs).mpr ⟨hr, ha⟩
  simp [takeBack, he, hf]

theorem Counted.takeBack_excl (h : p.Counted) (rs : List (PsdBorrowLock ι))
    (he : b.exclLockCount ≠ 0) (ho : p.owner = some task)
    (hle : b.exclLockCount ≤ p.exclLockCount) :
    (takeBack t task b p rs).1.Counted := by
  by_cases hw : b.exclLockCount = p.exclLockCount
  · rw [takeBack_whole he hw]
    exact h.setOwner (by simpa using h.excl_pos ho) h.exclWord
  · rw [takeBack_part he hw]
    refine h.setOwner ?_ (usub_lt _ _)
    rw [usub_of_le hle h.exclWord, ho]
    simp only [Option.isSome_some, iff_true]
    omega

theorem Counted.takeBack_shared (h : p.Counted) (he : b.exclLockCount = 0) (hn : p.NoRecord t)
    (hr : r ∈ p.readLocks) (ha : r.addr = b.readLock) (hle : b.count ≤ r.count) :
    (takeBack t task b p rs).1.Counted := by
  have hset (hne : b.count ≠ r.count) :
      (p.setCount r.addr (usub r.count b.count)).Counted := by
    refine h.setCount _ ?_ (usub_lt _ _)
    rw [usub_of_le hle (h.countWord r hr)]
    omega
  rw [PsdLockSem.takeBack_shared h he hr ha]
  split_ifs with ho hcnt hcnt
  · exact h.dropReadLock hr
  · exact hset hcnt
  · exact h.setTask hr fun x hx _ => hn x hx
  · exact hset hcnt

theorem Mutex.takeBack_shared (h : p.Mutex) (hc : p.Counted) (he : b.exclLockCount = 0)
    (hr : r ∈ p.readLocks) (ha : r.addr = b.readLock) (ht : r.task = task) :
    (takeBack t task b p rs).1.Mutex := by
  rw [PsdLockSem.takeBack_shared hc he hr ha]
  split_ifs with ho hcnt hcnt
  · exact h.dropReadLock _
  · exact h.setCount _ _
  · cases hown : p.owner with
    | none => exact Mutex.of_owner_none hown
    | some o => exact absurd (by rw [hown, ← h o hown r hr, ht]) ho
  · exact h.setCount _ _

theorem Ok.takeBackOne (h : p.Ok) (hne : task ≠ t) (hm : Moved bs)
    (hr : Returnable t task bs p) : (takeBackOne t task bs p rs).1.Ok := by
  cases hm with
  | nothing => exact h
  | @excl e he =>
    obtain ⟨ho, hle⟩ := hr.excl e (by simp) he
    refine ⟨?_, h.counted.takeBack_excl rs he ho hle⟩
    show (takeBack t task e p rs).1.Mutex
    by_cases hw : e.exclLockCount = p.exclLockCount
    · rw [takeBack_whole he hw]
      intro o _ r hrm
      obtain ⟨b', hb', h0, -⟩ := hr.whole e (by simp) he hw r hrm
      rw [mem_singleton.mp hb'] at h0
      exact absurd h0 he
    · rw [takeBack_part he hw]
      exact fun o ho r hr => h.mutex o ho r hr
  | @shared s he =>
    obtain ⟨hn, r, hrm, ha, ht, hle⟩ := hr.shared s (by simp) he
    exact ⟨h.mutex.takeBack_shared h.counted he hrm ha ht,
      h.counted.takeBack_shared he hn hrm ha hle⟩
  | @both e s he hs =>
    obtain ⟨ho, hle⟩ := hr.excl e (by simp) he
    obtain ⟨hn, r, hrm, ha, ht, hle'⟩ := hr.shared s (by simp) hs
    have hc := h.counted.takeBack_excl (t := t) rs he ho hle
    show (takeBack t task s (takeBack t task e p rs).1 (takeBack t task e p rs).2).1.Ok
    by_cases hw : e.exclLockCount = p.exclLockCount
    · -- the ownership is back, and so is the only record
      rw [takeBack_whole he hw] at hc ⊢
      refine ⟨?_, hc.takeBack_shared hs hn hrm ha hle'⟩
      have hone : ∀ x ∈ p.readLocks, x = r := by
        intro x hx
        obtain ⟨b', hb', h0, hax, -⟩ := hr.whole e (by simp) he hw x hx
        have hb' : b' = s := by
          rcases mem_cons.mp hb' with rfl | hb'
          · exact absurd h0 he
          · exact mem_singleton.mp hb'
        exact h.counted.addr_inj hx hrm (by rw [← hax, hb', ha])
      obtain ⟨b', hb', h0, hax, hcnt⟩ := hr.whole e (by simp) he hw r hrm
      have hb' : b' = s := by
        rcases mem_cons.mp hb' with rfl | hb'
        · exact absurd h0 he
        · exact mem_singleton.mp hb'
      subst hb'
      rw [PsdLockSem.takeBack_shared hc hs hrm ha, if_neg (by simpa using hne.symm), if_pos hcnt]
      intro o ho' x hx
      cases ho'
      obtain ⟨x', hx', rfl⟩ := Keyed.mem_modify.mp hx
      simp [hone x' hx']
    · rw [takeBack_part he hw] at hc ⊢
      exact ⟨Mutex.takeBack_shared (fun o ho r hr => h.mutex o ho r hr) hc hs hrm ha ht,
        hc.takeBack_shared hs hn hrm ha hle'⟩

theorem Frame.takeBack (ht : t ≠ u)
    (hb : ∀ r ∈ p.readLocks, r.addr = b.readLock → r.task ≠ u) :
    Frame u p (takeBack t task b p rs).1 := by
  unfold PsdLockSem.takeBack
  split
  · split <;> exact ⟨rfl, rfl⟩
  · split
    · exact .refl u p
    · rename_i prl hprl
      have ha : prl.addr = b.readLock := by simpa using List.find?_some hprl
      rw [← ha] at hb
      split
      · split
        · exact .dropReadLock hb
        · exact .setCount _ hb
      · split
        · exact .setTask ht hb
        · exact .setCount _ hb

theorem WaitsOn.takeBackOne (h : p.WaitsOn u) (ht : t ≠ u) :
    (takeBackOne t task bs p rs).1.WaitsOn u := by
  induction bs generalizing p rs with
  | nil => exact h
  | cons b bs ih => exact ih ((Frame.takeBack ht fun r hr _ => h.noRecord r hr).waitsOn h)

def sharedCalls (rs : List (PsdBorrowLock ι)) : ℕ := (rs.map (·.count)).sum

def exclCalls (rs : List (PsdBorrowLock ι)) : ℕ := (rs.map (·.exclLockCount)).sum

@[simp] theorem sharedCalls_cons (b : PsdBorrowLock ι) (rs : List (PsdBorrowLock ι)) :
    sharedCalls (b :: rs) = b.count + sharedCalls rs := rfl

@[simp] theorem exclCalls_cons (b : PsdBorrowLock ι) (rs : List (PsdBorrowLock ι)) :
    exclCalls (b :: rs) = b.exclLockCount + exclCalls rs := rfl

@[simp] theorem sharedCalls_append (bs rs : List (PsdBorrowLock ι)) :
    sharedCalls (bs ++ rs) = sharedCalls bs + sharedCalls rs := by
  simp [sharedCalls]

@[simp] theorem exclCalls_append (bs rs : List (PsdBorrowLock ι)) :
    exclCalls (bs ++ rs) = exclCalls bs + exclCalls rs := by
  simp [exclCalls]

@[simp] theorem sharedCalls_nil : sharedCalls ([] : List (PsdBorrowLock ι)) = 0 := rfl

@[simp] theorem exclCalls_nil : exclCalls ([] : List (PsdBorrowLock ι)) = 0 := rfl

variable {n m : ℕ}

theorem Room.takeBack_excl (rs : List (PsdBorrowLock ι))
    (h : p.Room t (n + sharedCalls (b :: rs)) (m + exclCalls (b :: rs))) (hne : task ≠ t)
    (he : b.exclLockCount ≠ 0) (ho : p.owner = some task) :
    (takeBack t task b p rs).1.Room t (n + sharedCalls (takeBack t task b p rs).2)
      (m + exclCalls (takeBack t task b p rs).2) := by
  have hs := h.small
  simp only [sharedCalls_cons, exclCalls_cons] at hs
  by_cases hw : b.exclLockCount = p.exclLockCount
  · rw [takeBack_whole he hw]
    refine ⟨fun _ => ?_, fun ho' => absurd rfl ho', fun _ ho' => absurd ho' (by simp), ?_⟩
    all_goals dsimp only; omega
  · rw [takeBack_part he hw]
    have h' : p.Room t (n + sharedCalls (rs ++ [b])) (m + exclCalls (rs ++ [b])) :=
      h.mono (by simp; omega) (by simp; omega)
    exact ⟨fun ho' => absurd (Option.some.inj (ho.symm.trans ho')) hne, h'.count, h'.shared,
      h'.small⟩

theorem Room.takeBack_shared (task : τ) (rs : List (PsdBorrowLock ι))
    (h : p.Room t (n + sharedCalls (b :: rs)) (m + exclCalls (b :: rs))) (hc : p.Counted)
    (he : b.exclLockCount = 0) (hr : r ∈ p.readLocks) (ha : r.addr = b.readLock)
    (hno : p.NoRecord t) :
    (takeBack t task b p rs).1.Room t (n + sharedCalls (takeBack t task b p rs).2)
      (m + exclCalls (takeBack t task b p rs).2) := by
  have hpos : 0 < p.sharedLockCount := by
    rw [hc.shared]; exact length_pos_of_mem hr
  have hdrop : (p.dropReadLock r.addr).Room t (n + sharedCalls (b :: rs))
      (m + exclCalls (b :: rs)) := by
    refine ⟨h.excl, fun _ x hx hxt => absurd hxt (hno.dropReadLock _ x hx), fun _ _ _ => ?_,
      h.small⟩
    simp only [dropReadLock]
    rw [usub_of_le hpos hc.sharedWord]
    have := hc.sharedWord
    omega
  have hset (k : ℕ) : (p.setCount r.addr k).Room t (n + sharedCalls (b :: rs))
      (m + exclCalls (b :: rs)) :=
    ⟨h.excl, fun _ x hx hxt => absurd hxt (hno.setCount _ _ x hx),
      fun hp ho _ => h.shared hp ho hno, h.small⟩
  rw [PsdLockSem.takeBack_shared hc he hr ha]
  split_ifs with ho hcnt hcnt
  · exact hdrop
  · exact hset _
  · -- the only record of `t` is the one given back
    have hs := h.small
    simp only [sharedCalls_cons, exclCalls_cons] at hs
    refine ⟨fun ho' => ?_, fun _ x hx hxt => ?_, fun _ _ hno' => ?_, by dsimp only; omega⟩
    · have := h.excl ho'
      simp only [sharedCalls_cons, exclCalls_cons] at this
      dsimp only [setTask]; omega
    · obtain ⟨x', hx', rfl⟩ := Keyed.mem_modify.mp hx
      split at hxt
      · rename_i hk
        rw [hc.addr_inj hx' hr hk]
        simp only [if_true]
        omega
      · exact absurd hxt (hno x' hx')
    · have hin : { r with task := t } ∈ (p.setTask r.addr t).readLocks :=
        Keyed.mem_modify.mpr ⟨r, hr, by simp⟩
      exact absurd rfl (hno' _ hin)
  · exact hset _

theorem Room.takeBackOne
    (h : p.Room t (sharedCalls bs + sharedCalls rs) (exclCalls bs + exclCalls rs))
    (hc : p.Counted) (hne : task ≠ t) (hm : Moved bs) (hr : Returnable t task bs p) :
    (takeBackOne t task bs p rs).1.Room t (sharedCalls (takeBackOne t task bs p rs).2)
      (exclCalls (takeBackOne t task bs p rs).2) := by
  cases hm with
  | nothing => simpa [PsdLockSem.takeBackOne] using h
  | @excl e he =>
    obtain ⟨ho, -⟩ := hr.excl e (by simp) he
    have h1 := Room.takeBack_excl (n := 0) (m := 0) (b := e) rs (by simpa using h) hne he ho
    simpa [PsdLockSem.takeBackOne] using h1
  | @shared s he =>
    obtain ⟨hn, r, hrm, ha, -⟩ := hr.shared s (by simp) he
    have h1 := Room.takeBack_shared (n := 0) (m := 0) (b := s) task rs
      (by simpa using h) hc he hrm ha hn
    simpa [PsdLockSem.takeBackOne] using h1
  | @both e s he hs =>
    obtain ⟨ho, hle⟩ := hr.excl e (by simp) he
    obtain ⟨hn, r, hrm, ha, -⟩ := hr.shared s (by simp) hs
    have h1 := Room.takeBack_excl (n := s.count) (m := s.exclLockCount) (b := e) rs
      (h.mono (by simp; omega) (by simp; omega)) hne he ho
    have hc1 := hc.takeBack_excl (t := t) rs he ho hle
    have hl : (takeBack t task e p rs).1.readLocks = p.readLocks := by
      by_cases hw : e.exclLockCount = p.exclLockCount
      · rw [takeBack_whole he hw]
      · rw [takeBack_part he hw]
    have h2 := Room.takeBack_shared (n := 0) (m := 0) (b := s) task
      (takeBack t task e p rs).2 (h1.mono (by simp) (by simp)) hc1 hs
      (by rwa [hl]) ha (by unfold NoRecord; rwa [hl])
    simpa [PsdLockSem.takeBackOne] using h2

end takeBack

end PsdLockSem

namespace Sys

open PsdLockSem

variable [DecidableEq ι] {t task : τ} {l : ι}

def on (l : ι) (bs : List (PsdBorrowLock ι)) : List (PsdBorrowLock ι) :=
  bs.filter (·.lockSem = l)

theorem on_append (l : ι) (bs rs : List (PsdBorrowLock ι)) : on l (bs ++ rs) = on l bs ++ on l rs :=
  filter_append ..

theorem on_cons_self (b : PsdBorrowLock ι) (bs : List (PsdBorrowLock ι)) (h : b.lockSem = l) :
    on l (b :: bs) = b :: on l bs := by
  simp [on, h]

theorem on_cons_ne (b : PsdBorrowLock ι) (bs : List (PsdBorrowLock ι)) (h : b.lockSem ≠ l) :
    on l (b :: bs) = on l bs := by
  simp [on, h]

theorem on_takeBack_self {b : PsdBorrowLock ι} (h : b.lockSem = l) (p : PsdLockSem τ)
    (rs : List (PsdBorrowLock ι)) :
    takeBack t task b p (on l rs) =
      ((takeBack t task b p rs).1, on l (takeBack t task b p rs).2) := by
  unfold takeBack
  split
  · split
    · rfl
    · simp [on, h]
  · split
    · rfl
    · split <;> split <;> simp [on, h]

theorem on_takeBack_ne {b : PsdBorrowLock ι} (h : b.lockSem ≠ l) (p : PsdLockSem τ)
    (rs : List (PsdBorrowLock ι)) : on l (takeBack t task b p rs).2 = on l rs := by
  unfold takeBack
  split
  · split
    · rfl
    · simp [on, h]
  · split
    · rfl
    · split <;> split <;> simp [on, h]

theorem takeBackAll_on (t task : τ) (l : ι) (bs : List (PsdBorrowLock ι))
    (sem : ι → PsdLockSem τ) (rs : List (PsdBorrowLock ι)) :
    ((takeBackAll t task bs sem rs).1 l, on l (takeBackAll t task bs sem rs).2) =
      takeBackOne t task (on l bs) (sem l) (on l rs) := by
  induction bs generalizing sem rs with
  | nil => rfl
  | cons b bs ih =>
    rw [takeBackAll, ih]
    by_cases hb : b.lockSem = l
    · rw [on_cons_self b bs hb, takeBackOne, on_takeBack_self hb, ← hb]
      simp
    · rw [on_cons_ne b bs hb, on_takeBack_ne hb, Function.update_of_ne (Ne.symm hb)]

def sharedReqs (l : ι) (reqs : List (Req ι)) : ℕ := reqs.countP fun r => r.lock = l ∧ r.excl = false

def exclReqs (l : ι) (reqs : List (Req ι)) : ℕ := reqs.countP fun r => r.lock = l ∧ r.excl = true

theorem reqs_flatMap (l : ι) (rs : List (PsdBorrowLock ι)) :
    sharedReqs l (rs.flatMap PsdBorrowLock.reqs) = sharedCalls (on l rs) ∧
      exclReqs l (rs.flatMap PsdBorrowLock.reqs) = exclCalls (on l rs) := by
  induction rs with
  | nil => exact ⟨rfl, rfl⟩
  | cons b rs ih =>
    rw [sharedReqs, exclReqs] at ih ⊢
    rw [flatMap_cons, countP_append, countP_append, ih.1, ih.2]
    by_cases hb : b.lockSem = l
    · rw [on_cons_self b rs hb, sharedCalls_cons, exclCalls_cons]
      simp [PsdBorrowLock.reqs, countP_append, countP_replicate, hb]
    · rw [on_cons_ne b rs hb]
      simp [PsdBorrowLock.reqs, countP_append, countP_replicate, hb]

theorem lend_on_self (t task : τ) (l : ι) (memE memS : Bool) (p : PsdLockSem τ) (b : Borrow ι) :
    lend t task memE memS l p ⟨on l b.borrows, on l b.reclaims⟩ =
      ((lend t task memE memS l p b).1, ⟨on l (lend t task memE memS l p b).2.borrows,
        on l (lend t task memE memS l p b).2.reclaims⟩) := by
  have hE : lendExcl t task memE l p ⟨on l b.borrows, on l b.reclaims⟩ =
      ((lendExcl t task memE l p b).1, ⟨on l (lendExcl t task memE l p b).2.borrows,
        on l (lendExcl t task memE l p b).2.reclaims⟩) := by
    unfold lendExcl
    split_ifs <;> simp [on]
  unfold lend
  rw [hE]
  generalize lendExcl t task memE l p b = x
  dsimp only
  unfold lendShared
  split
  · rfl
  · split
    · rfl
    · split
      · split <;> simp [on]
      · split <;> split <;> simp [on]

theorem lend_on_ne {l' : ι} (h : l' ≠ l) (memE memS : Bool) (p : PsdLockSem τ) (b : Borrow ι) :
    on l (lend t task memE memS l' p b).2.borrows = on l b.borrows ∧
      on l (lend t task memE memS l' p b).2.reclaims = on l b.reclaims := by
  have hE : on l (lendExcl t task memE l' p b).2.borrows = on l b.borrows ∧
      on l (lendExcl t task memE l' p b).2.reclaims = on l b.reclaims := by
    unfold lendExcl
    split_ifs <;> simp [on, h]
  unfold lend
  rw [← hE.1, ← hE.2]
  generalize lendExcl t task memE l' p b = x
  dsimp only
  unfold lendShared
  split
  · exact ⟨rfl, rfl⟩
  · split
    · exact ⟨rfl, rfl⟩
    · split
      · split <;> simp [on, h]
      · split <;> split <;> simp [on, h]

theorem lendAll_on (t task : τ) {ls : List ι} (hn : ls.Nodup) (memE memS : ι → Bool) (sem : ι → PsdLockSem τ)
    (b : Borrow ι) (hb : ∀ l ∈ ls, on l b.borrows = [] ∧ on l b.reclaims = []) (l : ι) :
    (lendAll t task memE memS ls sem b).1 l =
        (if l ∈ ls then (lend t task (memE l) (memS l) l (sem l) .empty).1 else sem l) ∧
      on l (lendAll t task memE memS ls sem b).2.borrows =
        (if l ∈ ls then (lend t task (memE l) (memS l) l (sem l) .empty).2.borrows
        else on l b.borrows) ∧
      on l (lendAll t task memE memS ls sem b).2.reclaims =
        (if l ∈ ls then (lend t task (memE l) (memS l) l (sem l) .empty).2.reclaims
        else on l b.reclaims) := by
  induction ls generalizing sem b with
  | nil => exact ⟨rfl, rfl, rfl⟩
  | cons l' ls ih =>
    obtain ⟨hl', hn⟩ := nodup_cons.mp hn
    have ih := ih hn (Function.update sem l'
      (lend t task (memE l') (memS l') l' (sem l') b).1)
      (lend t task (memE l') (memS l') l' (sem l') b).2 fun k hk => by
        have hne : l' ≠ k := fun he => hl' (he ▸ hk)
        rw [(lend_on_ne hne _ _ _ b).1, (lend_on_ne hne _ _ _ b).2]
        exact hb k (mem_cons_of_mem _ hk)
    refine ⟨ih.1.trans ?_, ih.2.1.trans ?_, ih.2.2.trans ?_⟩
    all_goals
      by_cases hl : l' = l
      · subst hl
        -- there is no entry of it so far
        have hon := lend_on_self t task l' (memE l') (memS l') (sem l') b
        rw [(hb l' (by simp)).1, (hb l' (by simp)).2] at hon
        simp [hl', Borrow.empty, hon]
      · simp [Ne.symm hl, lend_on_ne hl]

end Sys

end Neptune
