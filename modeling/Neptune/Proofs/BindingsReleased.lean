import Neptune.Spec.AfterDos

/-! When all the bindings of the boot classes are released without a `NULL` device being read. -/

namespace Neptune.AfterDos

open List Option

section device

variable (puc : ℕ)

def PsdInterface.cleared (pif : PsdInterface) : PsdInterface := if pif.boundTo puc then ⟨false, none⟩ else pif

def reads (reset : Bool) (n : ℕ) : Bool := decide (0 < n ∧ 1 < n + reset.toNat)

theorem reads_add (reset : Bool) (n m : ℕ) :
    (reads reset n || reads (reset || decide (0 < n)) m) = reads reset (n + m) := by
  cases reset <;> cases n <;> cases m <;> simp [reads]
  omega

theorem releaseIfs_spec (pifs : List PsdInterface) (w : IfWalk) :
    (releaseIfs puc pifs w).1 = pifs.map (PsdInterface.cleared puc) ∧
    (releaseIfs puc pifs w).2.reset = (w.reset || decide (0 < pifs.countP (PsdInterface.boundTo puc))) ∧
    (releaseIfs puc pifs w).2.nullRead = (w.nullRead || reads w.reset (pifs.countP (PsdInterface.boundTo puc))) := by
  induction pifs generalizing w with
  | nil => simp [releaseIfs, reads]
  | cons pif pifs ih =>
    rw [releaseIfs]
    by_cases h : pif.boundTo puc = true
    · rw [if_pos h, countP_cons_of_pos h, map_cons, PsdInterface.cleared, if_pos h]
      obtain ⟨h1, h2, h3⟩ := ih ⟨true, usub w.useCnt 1, w.nullRead || w.reset⟩
      refine ⟨by rw [← h1], by simp [h2], ?_⟩
      rw [h3, Bool.or_assoc]
      congr 1
      have hone : w.reset = reads w.reset 1 := by cases w.reset <;> rfl
      have hadd := reads_add w.reset 1 (pifs.countP (PsdInterface.boundTo puc))
      rw [← hone, Nat.add_comm] at hadd
      rw [← hadd]
      simp
    · rw [if_neg h, countP_cons_of_neg h, map_cons, PsdInterface.cleared, if_neg h]
      obtain ⟨h1, h2, h3⟩ := ih w
      exact ⟨by rw [← h1], h2, h3⟩

theorem releaseConfigs_spec (pcs : List (List PsdInterface)) (w : IfWalk) :
    (releaseConfigs puc pcs w).1 = pcs.map (map (PsdInterface.cleared puc)) ∧
    (releaseConfigs puc pcs w).2.reset = (w.reset || decide (0 < pcs.flatten.countP (PsdInterface.boundTo puc))) ∧
    (releaseConfigs puc pcs w).2.nullRead =
      (w.nullRead || reads w.reset (pcs.flatten.countP (PsdInterface.boundTo puc))) := by
  induction pcs generalizing w with
  | nil => simp [releaseConfigs, reads]
  | cons pc pcs ih =>
    rw [releaseConfigs]
    obtain ⟨h1, h2, h3⟩ := releaseIfs_spec puc pc w
    obtain ⟨h4, h5, h6⟩ := ih (releaseIfs puc pc w).2
    rw [flatten_cons, countP_append, ← reads_add]
    refine ⟨by rw [map_cons, ← h1, ← h4], ?_, ?_⟩
    · rw [h5, h2, Bool.or_assoc, ← Bool.decide_or]
      congr 2
      exact propext (by omega)
    · rw [h6, h3, h2, Bool.or_assoc]

namespace PsdDevice

variable (pd : PsdDevice)

def cleared : PsdDevice :=
  { pd with
    devBinding := pd.devBinding && !pd.releasable puc
    clsBinding := if pd.releasable puc then none else pd.clsBinding
    configs := pd.configs.map (List.map (PsdInterface.cleared puc)) }

def busy : ℕ := (pd.releasable puc).toNat + (decide (0 < pd.boundIfs puc)).toNat

def unbound : PsdDevice := { pd with devBinding := false, clsBinding := none }

def unboundIfs : PsdDevice := { pd with configs := pd.configs.map (List.map (PsdInterface.cleared puc)) }

end PsdDevice

theorem cleared_boundTo (pif : PsdInterface) : (pif.cleared puc).boundTo puc = false := by
  unfold PsdInterface.cleared
  split
  · rfl
  · next h => exact eq_false_of_ne_true h

theorem boundIfs_cleared (pcs : List (List PsdInterface)) :
    (pcs.map (map (PsdInterface.cleared puc))).flatten.countP (PsdInterface.boundTo puc) = 0 := by
  rw [countP_eq_zero]
  intro pif hpif
  obtain ⟨pc, hpc, hpif⟩ := mem_flatten.mp hpif
  obtain ⟨pc, -, rfl⟩ := mem_map.mp hpc
  obtain ⟨pif, -, rfl⟩ := mem_map.mp hpif
  rw [cleared_boundTo]
  exact Bool.false_ne_true

variable {puc} {pd : PsdDevice}

theorem releasable_unbound : pd.unbound.releasable puc = false := rfl

theorem busy_unbound (h : pd.releasable puc = true) : pd.unbound.busy puc < pd.busy puc := by
  have hifs : pd.unbound.boundIfs puc = pd.boundIfs puc := rfl
  unfold PsdDevice.busy
  rw [hifs, releasable_unbound, h, Bool.toNat_false, Bool.toNat_true]
  omega

theorem cleared_unbound (h : pd.releasable puc = true) : pd.unbound.cleared puc = pd.cleared puc := by
  unfold PsdDevice.cleared
  rw [releasable_unbound, h]
  simp [PsdDevice.unbound]

theorem busy_unboundIfs (h : 0 < pd.boundIfs puc) : (pd.unboundIfs puc).busy puc < pd.busy puc := by
  have hrel : (pd.unboundIfs puc).releasable puc = pd.releasable puc := rfl
  have hzero : (pd.unboundIfs puc).boundIfs puc = 0 := boundIfs_cleared puc pd.configs
  unfold PsdDevice.busy
  rw [hrel, hzero, decide_eq_true h, Bool.toNat_true]
  exact Nat.lt_succ_self _

theorem cleared_cleared (pif : PsdInterface) : (pif.cleared puc).cleared puc = pif.cleared puc := by
  rw [PsdInterface.cleared, if_neg]
  rw [cleared_boundTo]
  exact Bool.false_ne_true

theorem cleared_unboundIfs : (pd.unboundIfs puc).cleared puc = pd.cleared puc := by
  have hrel : (pd.unboundIfs puc).releasable puc = pd.releasable puc := rfl
  have hconfigs : (pd.unboundIfs puc).configs.map (map (PsdInterface.cleared puc)) =
      pd.configs.map (map (PsdInterface.cleared puc)) := by
    simp [PsdDevice.unboundIfs, cleared_cleared]
  unfold PsdDevice.cleared
  rw [hrel, hconfigs]
  rfl

theorem configs_of_none (h : pd.boundIfs puc = 0) : pd.configs.map (map (PsdInterface.cleared puc)) = pd.configs := by
  refine (map_congr_left fun pc hpc => ?_).trans (map_id _)
  refine (map_congr_left fun pif hpif => ?_).trans (map_id _)
  have hno := countP_eq_zero.mp h pif (mem_flatten.mpr ⟨pc, hpc, hpif⟩)
  rw [PsdInterface.cleared, if_neg hno]
  rfl

theorem cleared_of_busy (h : pd.busy puc = 0) : pd.cleared puc = pd ∧ pd.boundIfs puc = 0 := by
  obtain ⟨hrel, hifs⟩ := Nat.eq_zero_of_add_eq_zero h
  have hrel' : pd.releasable puc = false := by simpa using hrel
  have hifs' : pd.boundIfs puc = 0 := by simpa using hifs
  refine ⟨?_, hifs'⟩
  unfold PsdDevice.cleared
  rw [hrel', configs_of_none hifs']
  simp

end device

section loop

variable {puc : ℕ}

def twoIfs (puc : ℕ) (pd : PsdDevice) : Bool := decide (1 < pd.boundIfs puc)

theorem set_middle {α : Type} (l l' : List α) (a b : α) : (l ++ a :: l').set l.length b = l ++ b :: l' := by simp

theorem releaseLoop_spec (k : ℕ) : ∀ (l l' : List PsdDevice) (useCnt : ℕ) (nullRead : Bool) (pd : Option ℕ),
    pd.elim 0 (· + 1) = l.length → (∀ dev ∈ l, dev.busy puc = 0) →
    ((l ++ l').map (PsdDevice.busy puc)).sum * ((l ++ l').length + 1) + l'.length < k →
    ∃ useCnt', ∀ fuel, k ≤ fuel → releaseLoop puc fuel ⟨l ++ l', useCnt, nullRead⟩ pd =
      some ⟨(l ++ l').map (PsdDevice.cleared puc), useCnt', nullRead || (l ++ l').any (twoIfs puc)⟩ := by
  induction k with
  | zero => exact fun _ _ _ _ _ _ _ h => absurd h (Nat.not_lt_zero _)
  | succ k ih =>
    intro l l' useCnt nullRead pd hpd hclear hk
    cases l' with
    | nil =>
      refine ⟨useCnt, fun fuel hfuel => ?_⟩
      obtain ⟨fuel, rfl⟩ := Nat.exists_eq_add_of_lt hfuel
      have hnext : psdGetNextDevice (l ++ []) pd = none := by simp [psdGetNextDevice, hpd]
      have hmap : (l ++ []).map (PsdDevice.cleared puc) = l ++ [] := by
        rw [append_nil]
        exact (map_congr_left fun dev hdev => (cleared_of_busy (hclear dev hdev)).1).trans (List.map_id l)
      have hany : (l ++ []).any (twoIfs puc) = false := by
        rw [append_nil, List.any_eq_false]
        intro dev hdev
        simp [twoIfs, (cleared_of_busy (hclear dev hdev)).2]
      rw [releaseLoop, hnext, hmap, hany, Bool.or_false]
    | cons dev l' =>
      have hnext : psdGetNextDevice (l ++ dev :: l') pd = some l.length := by simp [psdGetNextDevice, hpd]
      have hdev : (l ++ dev :: l')[l.length]? = some dev := by simp
      -- the device replaced by one with less to release, and from the start
      have hrestart : ∀ dev' : PsdDevice, dev'.busy puc < dev.busy puc → dev'.cleared puc = dev.cleared puc →
          ∀ (useCnt : ℕ) (nullRead : Bool), ∃ useCnt', ∀ fuel, k ≤ fuel →
          releaseLoop puc fuel ⟨l ++ dev' :: l', useCnt, nullRead⟩ none =
            some ⟨(l ++ dev :: l').map (PsdDevice.cleared puc), useCnt',
              nullRead || (l ++ dev' :: l').any (twoIfs puc)⟩ := by
        intro dev' hbusy hcleared useCnt nullRead
        have hmap : (l ++ dev' :: l').map (PsdDevice.cleared puc) = (l ++ dev :: l').map (PsdDevice.cleared puc) := by
          simp [hcleared]
        rw [← hmap]
        refine ih [] (l ++ dev' :: l') useCnt nullRead none rfl nofun ?_
        simp only [nil_append, map_append, map_cons, sum_append, sum_cons, length_append,
          length_cons] at hk ⊢
        set a := (l.map (PsdDevice.busy puc)).sum
        set b := (l'.map (PsdDevice.busy puc)).sum
        have hle : a + (dev'.busy puc + b) + 1 ≤ a + (dev.busy puc + b) := by omega
        have hmul := Nat.mul_le_mul_right (l.length + (l'.length + 1) + 1) hle
        rw [Nat.add_mul, Nat.one_mul] at hmul
        omega
      by_cases hrel : dev.releasable puc = true
      · obtain ⟨useCnt', hloop⟩ := hrestart dev.unbound (busy_unbound hrel) (cleared_unbound hrel) (usub useCnt 1) nullRead
        refine ⟨useCnt', fun fuel hfuel => ?_⟩
        obtain ⟨fuel, rfl⟩ := Nat.exists_eq_add_of_lt hfuel
        rw [releaseLoop, hnext]
        dsimp only
        rw [hdev]
        dsimp only
        rw [if_pos hrel, set_middle]
        have hsame : (l ++ dev.unbound :: l').any (twoIfs puc) = (l ++ dev :: l').any (twoIfs puc) := by
          rw [any_append, any_append, any_cons, any_cons]
          rfl
        rw [← hsame]
        exact hloop _ (by omega)
      · obtain ⟨hconfigs, hreset, hnull⟩ := releaseConfigs_spec puc dev.configs ⟨false, useCnt, nullRead⟩
        have hread : reads false (dev.boundIfs puc) = twoIfs puc dev := by
          unfold reads twoIfs
          rw [Bool.toNat_false, Nat.add_zero, decide_eq_decide]
          omega
        replace hnull := hnull.trans (congrArg (nullRead || ·) hread)
        by_cases hifs : 0 < dev.boundIfs puc
        · obtain ⟨useCnt', hloop⟩ := hrestart (dev.unboundIfs puc) (busy_unboundIfs hifs) cleared_unboundIfs
            (releaseConfigs puc dev.configs ⟨false, useCnt, nullRead⟩).2.useCnt (nullRead || twoIfs puc dev)
          refine ⟨useCnt', fun fuel hfuel => ?_⟩
          obtain ⟨fuel, rfl⟩ := Nat.exists_eq_add_of_lt hfuel
          rw [releaseLoop, hnext]
          dsimp only
          rw [hdev]
          dsimp only
          rw [if_neg hrel, set_middle, hconfigs, hreset, hnull]
          have hpos : (false || decide (0 < dev.configs.flatten.countP (PsdInterface.boundTo puc))) = true :=
            decide_eq_true hifs
          have hsame : (nullRead || twoIfs puc dev || (l ++ dev.unboundIfs puc :: l').any (twoIfs puc)) =
              (nullRead || (l ++ dev :: l').any (twoIfs puc)) := by
            have hzero : twoIfs puc (dev.unboundIfs puc) = false := by
              unfold twoIfs
              rw [show (dev.unboundIfs puc).boundIfs puc = 0 from boundIfs_cleared puc dev.configs]
              rfl
            rw [any_append, any_append, any_cons, any_cons, hzero, Bool.false_or, Bool.or_assoc]
            congr 1
            rw [Bool.or_left_comm]
          rw [if_pos hpos, ← hsame]
          exact hloop _ (by omega)
        · have hzero : dev.boundIfs puc = 0 := Nat.eq_zero_of_not_pos hifs
          have hbusy : dev.busy puc = 0 := by
            unfold PsdDevice.busy
            rw [eq_false_of_ne_true hrel, hzero]
            rfl
          obtain ⟨useCnt', hloop⟩ := ih (l ++ [dev]) l'
            (releaseConfigs puc dev.configs ⟨false, useCnt, nullRead⟩).2.useCnt nullRead (some l.length) (by simp)
            (fun d hd => (mem_append.mp hd).elim (hclear d) fun h => mem_singleton.mp h ▸ hbusy)
            (by simp only [append_assoc, singleton_append, length_cons] at hk ⊢; omega)
          rw [append_assoc, singleton_append] at hloop
          refine ⟨useCnt', fun fuel hfuel => ?_⟩
          obtain ⟨fuel, rfl⟩ := Nat.exists_eq_add_of_lt hfuel
          rw [releaseLoop, hnext]
          dsimp only
          rw [hdev]
          dsimp only
          rw [if_neg hrel, set_middle, hconfigs, hreset, hnull, configs_of_none hzero]
          have hno : ¬(false || decide (0 < dev.configs.flatten.countP (PsdInterface.boundTo puc))) = true :=
            fun h => hifs (of_decide_eq_true h)
          have htwo : twoIfs puc dev = false := by
            unfold twoIfs
            rw [hzero]
            rfl
          rw [if_neg hno, htwo, Bool.or_false]
          exact hloop _ (by omega)

end loop

theorem releaseLoop_ends (puc : ℕ) (devices : List PsdDevice) (useCnt : ℕ) (nullRead : Bool) :
    ∃ n useCnt', ∀ fuel, n ≤ fuel → releaseLoop puc fuel ⟨devices, useCnt, nullRead⟩ none =
      some ⟨devices.map (PsdDevice.cleared puc), useCnt', nullRead || devices.any (twoIfs puc)⟩ :=
  ⟨_, releaseLoop_spec _ [] devices useCnt nullRead none rfl nofun (Nat.lt_succ_self _)⟩

def PsdDevice.clearedBy : ℕ → List PsdUsbClass → PsdDevice → PsdDevice
  | _, [], pd => pd
  | k, puc :: pucs, pd => clearedBy (k + 1) pucs (if puc.restarts then pd.cleared k else pd)

def twoOf (devices : List PsdDevice) : ℕ → List PsdUsbClass → Bool
  | _, [] => false
  | k, puc :: pucs => puc.restarts && devices.any (twoIfs k) || twoOf devices (k + 1) pucs

section classes

variable {j k : ℕ} {pd : PsdDevice} {devices devices' : List PsdDevice} {pucs pucs' : List PsdUsbClass}

theorem cleared_boundTo_ne (h : j ≠ k) (pif : PsdInterface) : (pif.cleared j).boundTo k = pif.boundTo k := by
  unfold PsdInterface.cleared
  split
  · next hb =>
    have hcls := of_decide_eq_true (Bool.and_eq_true_iff.mp hb).2
    have hno : pif.boundTo k = false := by
      unfold PsdInterface.boundTo
      rw [decide_eq_false fun hk => h (some.inj (hcls.symm.trans hk)), Bool.and_false]
    rw [hno]
    rfl
  · rfl

theorem boundIfs_cleared_ne (h : j ≠ k) : (pd.cleared j).boundIfs k = pd.boundIfs k := by
  show (pd.configs.map (map (PsdInterface.cleared j))).flatten.countP (PsdInterface.boundTo k) = _
  rw [← map_flatten, countP_map]
  exact countP_congr fun pif _ => by rw [Function.comp_apply, cleared_boundTo_ne h]

theorem any_boundTo (pd : PsdDevice) (k : ℕ) :
    pd.configs.flatten.any (PsdInterface.boundTo k) = decide (0 < pd.boundIfs k) := by
  rw [Bool.eq_iff_iff, decide_eq_true_iff, PsdDevice.boundIfs, countP_pos_iff, List.any_eq_true]

def devBoundTo (k : ℕ) (pd : PsdDevice) : Bool := pd.devBinding && decide (pd.clsBinding = some k)

theorem boundTo_eq (pd : PsdDevice) (k : ℕ) : pd.boundTo k = (devBoundTo k pd || decide (0 < pd.boundIfs k)) := by
  rw [← any_boundTo]
  rfl

theorem cleared_of_releasable (h : pd.releasable j = true) :
    (pd.cleared j).devBinding = false ∧ pd.devBinding = true ∧ pd.clsBinding = some j ∧ pd.appBinding = false := by
  obtain ⟨h1, happ⟩ := Bool.and_eq_true_iff.mp h
  obtain ⟨hdev, hcls⟩ := Bool.and_eq_true_iff.mp h1
  refine ⟨?_, hdev, of_decide_eq_true hcls, by simpa using happ⟩
  show (pd.devBinding && !pd.releasable j) = false
  rw [h, Bool.not_true, Bool.and_false]

theorem cleared_of_not_releasable (h : pd.releasable j = false) :
    (pd.cleared j).devBinding = pd.devBinding ∧ (pd.cleared j).clsBinding = pd.clsBinding := by
  refine ⟨?_, if_neg (by rw [h]; exact Bool.false_ne_true)⟩
  show (pd.devBinding && !pd.releasable j) = pd.devBinding
  rw [h, Bool.not_false, Bool.and_true]

theorem devBoundTo_cleared_ne (h : j ≠ k) : devBoundTo k (pd.cleared j) = devBoundTo k pd := by
  unfold devBoundTo
  cases hrel : pd.releasable j with
  | true =>
    obtain ⟨hclear, -, hcls, -⟩ := cleared_of_releasable hrel
    rw [hclear, hcls, decide_eq_false fun hk => h (some.inj hk), Bool.and_false, Bool.false_and]
  | false =>
    obtain ⟨hdev, hcls⟩ := cleared_of_not_releasable hrel
    rw [hdev, hcls]

theorem devBoundTo_cleared_self : devBoundTo k (pd.cleared k) = (devBoundTo k pd && pd.appBinding) := by
  unfold devBoundTo
  cases hrel : pd.releasable k with
  | true =>
    obtain ⟨hclear, -, -, happ⟩ := cleared_of_releasable hrel
    rw [hclear, happ, Bool.false_and, Bool.and_false]
  | false =>
    obtain ⟨hdev, hcls⟩ := cleared_of_not_releasable hrel
    rw [hdev, hcls]
    unfold PsdDevice.releasable at hrel
    cases happ : pd.appBinding with
    | true => rw [Bool.and_true]
    | false =>
      rw [happ, Bool.not_false, Bool.and_true] at hrel
      rw [hrel, Bool.false_and]

theorem boundTo_cleared_ne (h : j ≠ k) : (pd.cleared j).boundTo k = pd.boundTo k := by
  rw [boundTo_eq, boundTo_eq, devBoundTo_cleared_ne h, boundIfs_cleared_ne h]

theorem boundTo_cleared_self : (pd.cleared k).boundTo k = (devBoundTo k pd && pd.appBinding) := by
  have hzero : (pd.cleared k).boundIfs k = 0 := boundIfs_cleared k pd.configs
  rw [boundTo_eq, hzero, devBoundTo_cleared_self]
  exact Bool.or_false _

theorem clearedBy_before : ∀ (pucs : List PsdUsbClass) (j : ℕ) (pd : PsdDevice), k < j →
    (pd.clearedBy j pucs).boundTo k = pd.boundTo k
  | [], _, _, _ => rfl
  | puc :: pucs, j, pd, h => by
    rw [PsdDevice.clearedBy, clearedBy_before pucs (j + 1) _ (Nat.lt_succ_of_lt h)]
    split
    · exact boundTo_cleared_ne (Nat.ne_of_gt h)
    · rfl

theorem clearedBy_boundTo {puc : PsdUsbClass} : ∀ (pucs : List PsdUsbClass) (j i : ℕ) (pd : PsdDevice),
    pucs[i]? = some puc → (pd.clearedBy j pucs).boundTo (j + i) =
      if puc.restarts then devBoundTo (j + i) pd && pd.appBinding else pd.boundTo (j + i)
  | [], _, _, _, h => absurd h nofun
  | puc' :: pucs, j, 0, pd, h => by
    cases h
    rw [PsdDevice.clearedBy, Nat.add_zero, clearedBy_before pucs (j + 1) _ (Nat.lt_succ_self j)]
    split
    · exact boundTo_cleared_self
    · rfl
  | puc' :: pucs, j, i + 1, pd, h => by
    have hne : j ≠ j + 1 + i := by omega
    rw [PsdDevice.clearedBy, show j + (i + 1) = j + 1 + i by omega, clearedBy_boundTo pucs (j + 1) i _ h]
    split
    · split
      · rw [devBoundTo_cleared_ne hne]
        rfl
      · rfl
    · split
      · exact boundTo_cleared_ne hne
      · rfl

theorem twoOf_congr (h : ∀ i, k ≤ i → devices.any (twoIfs i) = devices'.any (twoIfs i)) :
    twoOf devices k pucs = twoOf devices' k pucs := by
  induction pucs generalizing k with
  | nil => rfl
  | cons puc pucs ih => rw [twoOf, twoOf, h k (Nat.le_refl k), ih fun i hi => h i (Nat.le_of_succ_le hi)]

theorem twoOf_cleared : twoOf (devices.map (PsdDevice.cleared k)) (k + 1) pucs = twoOf devices (k + 1) pucs := by
  refine twoOf_congr fun i hi => ?_
  rw [List.any_map]
  congr 1
  funext pd
  rw [Function.comp_apply, twoIfs, twoIfs, boundIfs_cleared_ne (Nat.ne_of_lt hi)]

theorem twoOf_iff : twoOf devices k pucs = true ↔
    ∃ i puc, pucs[i]? = some puc ∧ puc.restarts = true ∧ devices.any (twoIfs (k + i)) = true := by
  induction pucs generalizing k with
  | nil => simp [twoOf]
  | cons puc pucs ih =>
    rw [twoOf, Bool.or_eq_true, Bool.and_eq_true, ih]
    constructor
    · rintro (⟨h1, h2⟩ | ⟨i, p, h1, h2, h3⟩)
      · exact ⟨0, puc, rfl, h1, h2⟩
      · exact ⟨i + 1, p, h1, h2, by rwa [← Nat.add_assoc, Nat.add_right_comm]⟩
    · rintro ⟨i, p, h1, h2, h3⟩
      cases i with
      | zero =>
        cases h1
        exact .inl ⟨h2, h3⟩
      | succ i => exact .inr ⟨i, p, h1, h2, by rwa [← Nat.add_assoc, Nat.add_right_comm] at h3⟩

def SameClasses : List PsdUsbClass → List PsdUsbClass → Prop :=
  fun pucs pucs' => pucs'.map PsdUsbClass.afterDOSRestart = pucs.map PsdUsbClass.afterDOSRestart

theorem releaseClasses_spec (pucs : List PsdUsbClass) (k : ℕ) (devices : List PsdDevice) (nullRead : Bool) :
    ∃ n, ∀ fuel, n ≤ fuel → ∃ pucs', SameClasses pucs pucs' ∧ releaseClasses fuel k pucs devices nullRead =
      some (pucs', devices.map (PsdDevice.clearedBy k pucs), nullRead || twoOf devices k pucs) := by
  induction pucs generalizing k devices nullRead with
  | nil =>
    refine ⟨0, fun fuel _ => ⟨[], rfl, ?_⟩⟩
    have hid : devices.map (PsdDevice.clearedBy k []) = devices := List.map_id devices
    rw [releaseClasses, hid, twoOf, Bool.or_false]
  | cons puc pucs ih =>
    cases hrestarts : puc.restarts with
    | true =>
      obtain ⟨n, useCnt', hloop⟩ := releaseLoop_ends k devices puc.useCnt nullRead
      obtain ⟨m, hrest⟩ := ih (k + 1) (devices.map (PsdDevice.cleared k)) (nullRead || devices.any (twoIfs k))
      refine ⟨max n m, fun fuel hfuel => ?_⟩
      obtain ⟨pucs', hsame, hrun⟩ := hrest fuel (le_of_max_le_right hfuel)
      refine ⟨{ puc with useCnt := useCnt' } :: pucs', congrArg (puc.afterDOSRestart :: ·) hsame, ?_⟩
      have hmap : (devices.map (PsdDevice.cleared k)).map (PsdDevice.clearedBy (k + 1) pucs) =
          devices.map (PsdDevice.clearedBy k (puc :: pucs)) := by
        rw [List.map_map]
        refine map_congr_left fun pd _ => ?_
        rw [PsdDevice.clearedBy, if_pos hrestarts]
        rfl
      rw [hmap, twoOf_cleared, Bool.or_assoc] at hrun
      simp only [releaseClasses, hloop fuel (le_of_max_le_left hfuel), hrun, twoOf, hrestarts,
        bind_eq_bind, bind_some, Option.pure_def, Bool.true_and, if_true]
    | false =>
      obtain ⟨m, hrest⟩ := ih (k + 1) devices nullRead
      refine ⟨m, fun fuel hfuel => ?_⟩
      obtain ⟨pucs', hsame, hrun⟩ := hrest fuel hfuel
      refine ⟨puc :: pucs', congrArg (puc.afterDOSRestart :: ·) hsame, ?_⟩
      have hno : ¬puc.restarts = true := by rw [hrestarts]; exact Bool.false_ne_true
      have hmap : devices.map (PsdDevice.clearedBy (k + 1) pucs) = devices.map (PsdDevice.clearedBy k (puc :: pucs)) := by
        refine map_congr_left fun pd _ => ?_
        rw [PsdDevice.clearedBy, if_neg hno]
      rw [hmap] at hrun
      simp only [releaseClasses, hrun, twoOf, hrestarts, bind_eq_bind, bind_some, Option.pure_def,
        Bool.false_and, Bool.false_or, Bool.false_eq_true, if_false]

end classes

theorem pReleaseAfterDOSBindings_spec (ps : PsdBase) : ∃ n, ∀ fuel, n ≤ fuel → ∃ pucs', SameClasses ps.classes pucs' ∧
    pReleaseAfterDOSBindings fuel ps =
      some (⟨pucs', ps.devices.map (PsdDevice.clearedBy 0 ps.classes)⟩, twoOf ps.devices 0 ps.classes) := by
  obtain ⟨n, hrun⟩ := releaseClasses_spec ps.classes 0 ps.devices false
  refine ⟨n, fun fuel hfuel => ?_⟩
  obtain ⟨pucs', hsame, hrun⟩ := hrun fuel hfuel
  refine ⟨pucs', hsame, ?_⟩
  simp only [pReleaseAfterDOSBindings, hrun, bind_eq_bind, bind_some, Option.pure_def, Bool.false_or]

theorem released_iff (ps : PsdBase) (pucs' : List PsdUsbClass) (hsame : SameClasses ps.classes pucs') :
    Released ⟨pucs', ps.devices.map (PsdDevice.clearedBy 0 ps.classes)⟩ ↔
      ∀ (k : ℕ) (puc : PsdUsbClass), ps.classes[k]? = some puc → puc.afterDOSRestart = true → ∀ pd ∈ ps.devices,
        if puc.useCnt = 0 then pd.boundTo k = false else (devBoundTo k pd && pd.appBinding) = false := by
  have hleft : ∀ (k : ℕ) (puc : PsdUsbClass), ps.classes[k]? = some puc → puc.afterDOSRestart = true →
      ∀ pd, (pd.clearedBy 0 ps.classes).boundTo k = false ↔
        if puc.useCnt = 0 then pd.boundTo k = false else (devBoundTo k pd && pd.appBinding) = false := by
    intro k puc hk hrestart pd
    have h := clearedBy_boundTo ps.classes 0 k pd hk
    rw [Nat.zero_add] at h
    rw [h]
    by_cases hz : puc.useCnt = 0
    · simp [PsdUsbClass.restarts, hz]
    · simp [PsdUsbClass.restarts, hz, hrestart]
  have hclass : ∀ k : ℕ, (pucs'[k]?).map PsdUsbClass.afterDOSRestart = (ps.classes[k]?).map PsdUsbClass.afterDOSRestart := by
    intro k
    rw [← getElem?_map, ← getElem?_map, hsame]
  constructor
  · intro h k puc hk hrestart pd hpd
    have hk' := hclass k
    rw [hk, map_some] at hk'
    obtain ⟨puc', hpuc', hre⟩ := map_eq_some_iff.mp hk'
    exact (hleft k puc hk hrestart pd).mp (h k puc' hpuc' (hre.trans hrestart) _ (mem_map_of_mem hpd))
  · intro h k puc' hk' hrestart pd' hpd'
    obtain ⟨pd, hpd, rfl⟩ := mem_map.mp hpd'
    have hk := (hclass k).symm
    rw [show pucs'[k]? = some puc' from hk', map_some] at hk
    obtain ⟨puc, hpuc, hre⟩ := map_eq_some_iff.mp hk
    exact (hleft k puc hpuc (hre.trans hrestart) pd).mpr (h k puc hpuc (hre.trans hrestart) pd hpd)

/-- All is released, and no `NULL` device read, exactly where no class that lets go has two interfaces of a device, or one
that is counted as none or as an application's. -/
theorem hands_over_iff (ps : PsdBase) : HandsOver ps ↔ Single ps := by
  obtain ⟨n, hrun⟩ := pReleaseAfterDOSBindings_spec ps
  have hiff : HandsOver ps ↔ twoOf ps.devices 0 ps.classes = false ∧
      ∀ (k : ℕ) (puc : PsdUsbClass), ps.classes[k]? = some puc → puc.afterDOSRestart = true → ∀ pd ∈ ps.devices,
        if puc.useCnt = 0 then pd.boundTo k = false else (devBoundTo k pd && pd.appBinding) = false := by
    constructor
    · rintro ⟨m, h⟩
      obtain ⟨ps', he, hrel⟩ := h (max n m) (le_max_right n m)
      obtain ⟨pucs', hsame, he'⟩ := hrun (max n m) (le_max_left n m)
      rw [he'] at he
      obtain ⟨rfl, htwo⟩ := Prod.mk.inj (some.inj he)
      exact ⟨htwo, (released_iff ps pucs' hsame).mp hrel⟩
    · rintro ⟨htwo, h⟩
      refine ⟨n, fun fuel hfuel => ?_⟩
      obtain ⟨pucs', hsame, he⟩ := hrun fuel hfuel
      exact ⟨_, htwo ▸ he, (released_iff ps pucs' hsame).mpr h⟩
  rw [hiff]
  constructor
  · rintro ⟨htwo, h⟩ k puc hk hrestart pd hpd
    have hleft := h k puc hk hrestart pd hpd
    split at hleft
    · next hz => rwa [if_pos hz]
    · next hz =>
      rw [if_neg hz]
      constructor
      · by_contra hle
        have hyes : twoOf ps.devices 0 ps.classes = true :=
          twoOf_iff.mpr ⟨k, puc, hk, by simp [PsdUsbClass.restarts, hrestart, hz], List.any_eq_true.mpr
            ⟨pd, hpd, by rw [Nat.zero_add]; exact decide_eq_true (not_le.mp hle)⟩⟩
        rw [htwo] at hyes
        exact Bool.false_ne_true hyes
      · rintro ⟨h1, h2, h3⟩
        simp [devBoundTo, h1, h2, h3] at hleft
  · intro h
    constructor
    · by_contra htwo
      obtain ⟨k, puc, hk, hrestarts, hany⟩ := twoOf_iff.mp (eq_true_of_ne_false htwo)
      obtain ⟨pd, hpd, htwo⟩ := List.any_eq_true.mp hany
      obtain ⟨hrestart, hz⟩ := Bool.and_eq_true_iff.mp hrestarts
      have hsingle := h k puc hk hrestart pd hpd
      rw [if_neg (of_decide_eq_true hz)] at hsingle
      rw [Nat.zero_add] at htwo
      exact absurd hsingle.1 (not_le.mpr (of_decide_eq_true htwo))
    · intro k puc hk hrestart pd hpd
      have hsingle := h k puc hk hrestart pd hpd
      split
      · next hz => rwa [if_pos hz] at hsingle
      · next hz =>
        rw [if_neg hz] at hsingle
        by_contra hne
        obtain ⟨hdev, happ⟩ := Bool.and_eq_true_iff.mp (eq_true_of_ne_false hne)
        obtain ⟨hdev, hcls⟩ := Bool.and_eq_true_iff.mp hdev
        exact hsingle.2 ⟨hdev, of_decide_eq_true hcls, happ⟩

def combo : PsdBase :=
  ⟨[⟨true, 2⟩], [⟨false, none, false, [[⟨true, some 0⟩, ⟨true, some 0⟩]]⟩]⟩

theorem null_read : ¬HandsOver combo := by
  rintro ⟨n, h⟩
  obtain ⟨m, hrun⟩ := pReleaseAfterDOSBindings_spec combo
  obtain ⟨ps', he, -⟩ := h (max n m) (le_max_left n m)
  obtain ⟨pucs', -, he'⟩ := hrun (max n m) (le_max_right n m)
  rw [he'] at he
  have hflag : twoOf combo.devices 0 combo.classes = false := (Prod.mk.inj (some.inj he)).2
  exact absurd hflag (by decide)

end Neptune.AfterDos
