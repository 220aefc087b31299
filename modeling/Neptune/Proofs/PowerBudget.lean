import Neptune.Spec.PowerCalc

/-! The power calculation reaches every device once, and no hub gives more than it has. -/

namespace Neptune.PowerCalc

open List Function

open Forest

variable {phw : PsdHardware}

abbrev PsdHardware.hub (phw : PsdHardware) (pd : Fin phw.n) : Option (Fin phw.n) := (phw.devices pd).hub

abbrev PsdHardware.children (phw : PsdHardware) (pd : Fin phw.n) : List (Fin phw.n) := PowerCalc.children phw.devices pd

theorem PsdHardware.hub_acyclic (phw : PsdHardware) : Acyclic phw.hub := phw.acyclic

variable {n : ℕ} {c pd : Fin phw.n}

theorem mem_children : c ∈ phw.children pd ↔ phw.hub c = some pd := by
  rw [PsdHardware.children, children, mem_filter, decide_eq_true_eq, and_iff_right (mem_finRange c)]

theorem children_nodup (pd : Fin phw.n) : (phw.children pd).Nodup := (nodup_finRange phw.n).filter _

theorem rank_lt_n (pd : Fin phw.n) : rank phw.hub pd < phw.n := by
  simpa using rank_lt_card phw.hub_acyclic pd

theorem fuel_of_child (hc : c ∈ phw.children pd) {fuel : ℕ}
    (h : phw.n ≤ fuel + 1 + rank phw.hub pd) : phw.n ≤ fuel + rank phw.hub c := by
  have := rank_lt phw.hub_acyclic (mem_children.mp hc)
  omega

theorem ports_lt (pd : Fin phw.n) : ((phw.children pd).map fun c => 1 + (phw.children c).length).sum + 1 ≤ phw.n := by
  simpa using family_le phw.hub_acyclic children_nodup (fun _ _ hc => mem_children.mp hc) pd

theorem countPorts_eq (pd : Fin phw.n) : (countPorts phw pd).toNat = (phw.children pd).length := by
  have hcount : ∀ (l : List (Fin phw.n)) (k : UInt16),
      l.foldl (fun ports nextpd => if (phw.devices nextpd).hub = some pd then ports + 1 else ports) k =
        k + .ofNat (l.filter fun nextpd => (phw.devices nextpd).hub = some pd).length := by
    intro l
    induction l with
    | nil => exact fun k => (UInt16.add_zero k).symm
    | cons c l ih =>
      intro k
      rw [foldl_cons, ih]
      by_cases hc : (phw.devices c).hub = some pd
      · rw [if_pos hc, filter_cons_of_pos (by simpa using hc), length_cons, UInt16.ofNat_add, UInt16.add_assoc,
          UInt16.add_comm 1]
        rfl
      · rw [if_neg hc, filter_cons_of_neg (by simpa using hc)]
  have hle := phw.ports pd
  rw [countPorts, hcount, UInt16.zero_add, UInt16.toNat_ofNat']
  exact Nat.mod_eq_of_lt (lt_of_le_of_lt hle (by decide))

theorem maxPower_le (pc : PsdConfig) : pc.maxPower ≤ 510 := by
  have := pc.bMaxPower.toNat_lt
  rw [PsdConfig.maxPower, Nat.shiftLeft_eq]
  omega

theorem maxdrain_busPowered {pd : PsdDevice n} {pc : PsdConfig} (h : pd.busPowered = some pc) :
    pd.maxdrain = 100 := by
  unfold PsdDevice.busPowered at h
  split at h
  · cases h
  · next hself => rw [PsdDevice.maxdrain, h, if_pos (Option.isSome_some), if_neg hself]

def Drained (phw : PsdHardware) (p p' : Power phw.n) : Prop :=
  p' = { p with powerDrain := p'.powerDrain, overflow := p'.overflow } ∧ (phw.n ≤ 127 → p'.overflow = p.overflow)

theorem Drained.refl (p : Power phw.n) : Drained phw p p := ⟨rfl, fun _ => rfl⟩

theorem Drained.trans {p q r : Power phw.n} (h : Drained phw p q) (h' : Drained phw q r) : Drained phw p r := by
  refine ⟨?_, fun hn => (h'.2 hn).trans (h.2 hn)⟩
  rw [h'.1, h.1]

theorem setDrain_of_ne {pd d : Fin n} (h : d ≠ pd) (drain : ℕ) (mem : Mem n) : setDrain pd drain mem d = mem d :=
  update_of_ne h ..

theorem setDrain_self (pd : Fin n) (drain : ℕ) (mem : Mem n) : setDrain pd drain mem pd =
    { mem pd with powerDrain := .ofNat drain, overflow := (mem pd).overflow || decide (2 ^ 16 ≤ drain) } :=
  update_self ..

theorem setDrain_drained (pd : Fin phw.n) (drain : ℕ) (mem : Mem phw.n) (h : phw.n ≤ 127 → drain < 2 ^ 16) :
    Drained phw (mem pd) (setDrain pd drain mem pd) ∧
      (phw.n ≤ 127 → (setDrain pd drain mem pd).powerDrain.toNat = drain) := by
  rw [setDrain_self]
  refine ⟨⟨rfl, fun hn => ?_⟩, fun hn => ?_⟩
  · rw [decide_eq_false (not_le.mpr (h hn)), Bool.or_false]
  · exact (UInt16.toNat_ofNat' ..).trans (Nat.mod_eq_of_lt (h hn))

def share (phw : PsdHardware) (maxdrain : ℕ) (c : Fin phw.n) : ℕ := min maxdrain (510 * (1 + (phw.children c).length))

theorem shares_le_max (maxdrain : ℕ) (l : List (Fin phw.n)) : (l.map (share phw maxdrain)).sum ≤ maxdrain * l.length := by
  induction l with
  | nil => exact Nat.zero_le _
  | cons c l ih =>
    have : share phw maxdrain c ≤ maxdrain := min_le_left ..
    rw [map_cons, sum_cons, length_cons, Nat.mul_succ]
    omega

theorem shares_le (maxdrain : ℕ) (pd : Fin phw.n) :
    ((phw.children pd).map (share phw maxdrain)).sum + 510 ≤ 510 * phw.n := by
  have hfamily := ports_lt pd
  have hle : ∀ l : List (Fin phw.n), (l.map (share phw maxdrain)).sum ≤
      510 * (l.map fun c => 1 + (phw.children c).length).sum := by
    intro l
    induction l with
    | nil => exact le_rfl
    | cons c l ih =>
      have : share phw maxdrain c ≤ 510 * (1 + (phw.children c).length) := min_le_right ..
      rw [map_cons, map_cons, sum_cons, sum_cons]
      omega
  have := hle (phw.children pd)
  omega

def DrainWalk (phw : PsdHardware) (pd : Fin phw.n) (mem mem' : Mem phw.n) : Prop :=
  (∀ d, Below phw.hub pd d → Drained phw (mem d) (mem' d)) ∧ (∀ d, ¬Below phw.hub pd d → mem' d = mem d) ∧
    (phw.n ≤ 127 → (mem' pd).powerDrain.toNat ≤ 510 * (1 + (phw.children pd).length))

theorem drain_child (hhub : phw.hub c = some pd) {maxdrain total more : ℕ} {mem mem₁ mem₂ : Mem phw.n}
    (hwalk : DrainWalk phw c mem₁ mem₂) (htotal : total + 510 ≤ 510 * phw.n) (hown : Drained phw (mem pd) (mem₁ pd))
    (hdrain : phw.n ≤ 127 → (mem₁ pd).powerDrain.toNat + (share phw maxdrain c + more) ≤ total) {mem' : Mem phw.n}
    (hmem' : mem' = setDrain pd ((mem₂ pd).powerDrain.toNat + min (mem₂ c).powerDrain.toNat maxdrain) mem₂) :
    (Drained phw (mem pd) (mem' pd) ∧ (phw.n ≤ 127 → (mem' pd).powerDrain.toNat + more ≤ total)) ∧
      (∀ d, Below phw.hub c d → Drained phw (mem₁ d) (mem' d)) ∧
      ∀ d, d ≠ pd → ¬Below phw.hub c d → mem' d = mem₁ d := by
  obtain ⟨hin, hout, hbound⟩ := hwalk
  have hpd : mem₂ pd = mem₁ pd := hout pd (not_below_parent phw.hub_acyclic hhub)
  have hshare : phw.n ≤ 127 → min (mem₂ c).powerDrain.toNat maxdrain ≤ share phw maxdrain c := fun hn =>
    le_min (min_le_right ..) ((min_le_left ..).trans (hbound hn))
  obtain ⟨hadd, hnew⟩ := setDrain_drained pd ((mem₂ pd).powerDrain.toNat + min (mem₂ c).powerDrain.toNat maxdrain) mem₂
    fun hn => by
      have := hshare hn
      have := hdrain hn
      rw [hpd]
      omega
  rw [← hmem'] at hadd hnew
  refine ⟨⟨hown.trans (hpd ▸ hadd), fun hn => ?_⟩, fun d hd => ?_, fun d hd hno => ?_⟩
  · have := hshare hn
    have := hdrain hn
    rw [hnew hn, hpd]
    omega
  · rw [hmem', setDrain_of_ne (not_below_of_child phw.hub_acyclic hhub hd)]
    exact hin d hd
  · rw [hmem', setDrain_of_ne hd]
    exact hout d hno

theorem drain_children (fuel : ℕ) (maxdrain : ℕ)
    (hwalk : ∀ c ∈ phw.children pd, ∀ mem, ∃ mem', pPowerRecurseDrain phw fuel c mem = some mem' ∧ DrainWalk phw c mem mem')
    {mem : Mem phw.n} (hzero : (mem pd).powerDrain.toNat = 0) :
    ∃ mem', (List.finRange phw.n).foldlM (fun mem nextpd =>
        if (phw.devices nextpd).hub = some pd then (pPowerRecurseDrain phw fuel nextpd mem).bind fun mem =>
          some (setDrain pd ((mem pd).powerDrain.toNat + min (mem nextpd).powerDrain.toNat maxdrain) mem)
        else some mem) mem = some mem' ∧
      (∀ d, Below phw.hub pd d → Drained phw (mem d) (mem' d)) ∧ (∀ d, ¬Below phw.hub pd d → mem' d = mem d) ∧
      (phw.n ≤ 127 → (mem' pd).powerDrain.toNat ≤ ((phw.children pd).map (share phw maxdrain)).sum) := by
  have htotal := shares_le maxdrain pd
  generalize hsum : ((phw.children pd).map (share phw maxdrain)).sum = total at htotal
  rw [foldlM_if (fun nextpd => (phw.devices nextpd).hub = some pd)]
  obtain ⟨mem', hrun, ⟨hown, hdrain⟩, hin, hout⟩ := foldlM_children phw.hub_acyclic (fun mem nextpd =>
      (pPowerRecurseDrain phw fuel nextpd mem).bind fun mem =>
        some (setDrain pd ((mem pd).powerDrain.toNat + min (mem nextpd).powerDrain.toNat maxdrain) mem))
    (fun _ => Drained phw) (fun rest mem' => Drained phw (mem pd) (mem' pd) ∧
      (phw.n ≤ 127 → (mem' pd).powerDrain.toNat + (rest.map (share phw maxdrain)).sum ≤ total))
    (children_nodup pd) (fun _ => mem_children)
    (fun c hc rest mem₁ ⟨hown, hdrain⟩ => by
      obtain ⟨mem₂, hrun, hwalk⟩ := hwalk c hc mem₁
      rw [map_cons, sum_cons] at hdrain
      exact ⟨_, by rw [hrun]; rfl, drain_child (mem_children.mp hc) hwalk htotal hown hdrain rfl⟩)
    mem ⟨Drained.refl _, fun _ => by rw [hzero, Nat.zero_add, hsum]⟩
  refine ⟨mem', hrun, fun d hd => ?_, hout, fun hn => hdrain hn⟩
  by_cases he : d = pd
  · rw [he]
    exact hown
  · exact hin d he hd

theorem pPowerRecurseDrain_walks : ∀ (fuel : ℕ) (pd : Fin phw.n) (mem : Mem phw.n), phw.n ≤ fuel + rank phw.hub pd →
    ∃ mem', pPowerRecurseDrain phw fuel pd mem = some mem' ∧ DrainWalk phw pd mem mem' := by
  intro fuel
  induction fuel with
  | zero =>
    intro pd mem hfuel
    have := rank_lt_n pd
    omega
  | succ fuel ih =>
    intro pd mem hfuel
    -- what is set of the device itself, before and after the loop
    have hset : ∀ (mem₁ : Mem phw.n) (drain : ℕ), (phw.n ≤ 127 → drain < 2 ^ 16) →
        (phw.n ≤ 127 → drain ≤ 510 * (1 + (phw.children pd).length)) →
        (∀ d, Below phw.hub pd d → Drained phw (mem d) (mem₁ d)) → (∀ d, ¬Below phw.hub pd d → mem₁ d = mem d) →
        DrainWalk phw pd mem (setDrain pd drain mem₁) := by
      intro mem₁ drain hfits hle hin hout
      obtain ⟨hown, hnew⟩ := setDrain_drained pd drain mem₁ hfits
      refine ⟨fun d hd => ?_, fun d hd => ?_, fun hn => (hnew hn).le.trans (hle hn)⟩
      · by_cases he : d = pd
        · subst he
          exact (hin d hd).trans hown
        · rw [setDrain_of_ne he]
          exact hin d hd
      · rw [setDrain_of_ne (ne_of_not_below hd)]
        exact hout d hd
    obtain ⟨hin, hout, -⟩ := hset mem 0 (fun _ => by decide) (fun _ => Nat.zero_le _) (fun d _ => Drained.refl _)
      fun d _ => rfl
    have hzero : (setDrain pd 0 mem pd).powerDrain.toNat = 0 := by
      rw [setDrain_self]
      rfl
    obtain ⟨mem', hrun, hin', hout', hdrain⟩ := drain_children fuel (phw.devices pd).maxdrain (fun c hc mem =>
      ih c mem (fuel_of_child hc hfuel)) hzero
    have hwalked : ∀ d, Below phw.hub pd d → Drained phw (mem d) (mem' d) := fun d hd => (hin d hd).trans (hin' d hd)
    have hleft : ∀ d, ¬Below phw.hub pd d → mem' d = mem d := fun d hd => (hout' d hd).trans (hout d hd)
    rw [pPowerRecurseDrain]
    split
    · next pc hconf hsusp =>
      refine ⟨_, rfl, hset _ _ (fun _ => ?_) (fun _ => ?_) hin hout⟩
      · split <;> decide
      · split <;> omega
    · dsimp only [Option.bind_eq_bind]
      rw [hrun]
      dsimp only [Option.bind_some]
      cases hbus : (phw.devices pd).busPowered with
      | none => exact ⟨_, rfl, hset _ _ (fun _ => by decide) (fun _ => Nat.zero_le _) hwalked hleft⟩
      | some pc =>
        have hpower := maxPower_le pc
        have hshares := shares_le_max 100 (phw.children pd)
        have hports := shares_le 100 pd
        rw [maxdrain_busPowered hbus] at hdrain
        refine ⟨_, rfl, hset _ _ (fun hn => ?_) (fun hn => ?_) hwalked hleft⟩
        · have := hdrain hn
          omega
        · have := hdrain hn
          omega

theorem Budgeted.of_same {p q p' : Power phw.n} (h : Budgeted phw pd q p') (hlow : q.lowPower = p.lowPower)
    (hmsgs : q.msgs = p.msgs) (hgiven : q.given = p.given) (hfits : phw.n ≤ 127 → q.overflow = p.overflow) :
    Budgeted phw pd p p' where
  low := h.low
  event := by
    rw [h.event, hlow, hmsgs]
  budget := by
    rw [← hgiven]
    exact h.budget
  fits := fun hn => (h.fits hn).trans (hfits hn)

theorem checkPower_checks (p : Power phw.n) :
    ((checkPower p).lowPower = true ↔ (checkPower p).powerSupply < (checkPower p).powerDrain) ∧
      (checkPower p).msgs.count (.sendEvent EHMB_DEVICELOWPW) = p.msgs.count (.sendEvent EHMB_DEVICELOWPW) +
        (if p.lowPower = false ∧ (checkPower p).lowPower = true then 1 else 0) ∧
      (checkPower p).powerSupply = p.powerSupply ∧ (checkPower p).given = p.given ∧
      (checkPower p).overflow = p.overflow := by
  unfold checkPower
  by_cases hdrain : p.powerSupply < p.powerDrain <;> cases hlow : p.lowPower <;> simp [hdrain, hlow]

theorem portSupply_budget {pc : PsdConfig} {supply : UInt16}
    (hbus : (phw.devices pd).busPowered = some pc) (h : pc.maxPower ≤ supply.toNat) :
    (phw.children pd).length * (portSupply (phw.devices pd) (countPorts phw pd) supply).toNat + pc.maxPower ≤
      supply.toNat := by
  have hports := countPorts_eq pd
  rw [portSupply, hbus]
  dsimp only
  rw [if_pos h]
  by_cases hzero : countPorts phw pd = 0
  · rw [hzero] at hports
    rw [← hports]
    simpa using h
  · have hlt : (supply.toNat - pc.maxPower) / (countPorts phw pd).toNat < 2 ^ 16 :=
      lt_of_le_of_lt ((Nat.div_le_self ..).trans (Nat.sub_le ..)) supply.toNat_lt
    have hword : (UInt16.ofNat ((supply.toNat - pc.maxPower) / (countPorts phw pd).toNat)).toNat =
        (supply.toNat - pc.maxPower) / (countPorts phw pd).toNat := (UInt16.toNat_ofNat' ..).trans (Nat.mod_eq_of_lt hlt)
    have hdiv : (phw.children pd).length * ((supply.toNat - pc.maxPower) / (countPorts phw pd).toNat) ≤
        supply.toNat - pc.maxPower := by
      rw [hports]
      exact Nat.mul_div_le ..
    have hle : ∀ a b : UInt16, (if a < b then a else b).toNat ≤ b.toNat := by
      intro a b
      split
      · next hab => exact (UInt16.lt_iff_toNat_lt.mp hab).le
      · exact le_rfl
    have hmul := Nat.mul_le_mul_left (phw.children pd).length
      (hle 100 (.ofNat ((supply.toNat - pc.maxPower) / (countPorts phw pd).toNat)))
    rw [hword] at hmul
    rw [if_pos hzero]
    omega

theorem children_length_le (pd : Fin phw.n) : (phw.children pd).length ≤ phw.n :=
  (length_filter_le ..).trans length_finRange.le

theorem ownSupply_of_ne {d : Fin phw.n} (h : d ≠ pd) (mem : Mem phw.n) :
    ownSupply phw pd (countPorts phw pd) mem d = mem d := by
  unfold ownSupply
  cases (phw.devices pd).busPowered with
  | some pc => rfl
  | none =>
    cases (phw.devices pd).currentConfig with
    | some pc => exact update_of_ne h ..
    | none => rfl

theorem ownSupply_self (pd : Fin phw.n) (mem : Mem phw.n) : ∃ supply overflow,
    ownSupply phw pd (countPorts phw pd) mem pd = { mem pd with powerSupply := supply, overflow := overflow } ∧
      (phw.n ≤ 127 → overflow = (mem pd).overflow) := by
  unfold ownSupply
  cases (phw.devices pd).busPowered with
  | some pc => exact ⟨_, _, rfl, fun _ => rfl⟩
  | none =>
    cases (phw.devices pd).currentConfig with
    | none => exact ⟨_, _, rfl, fun _ => rfl⟩
    | some pc =>
      refine ⟨_, _, update_self .., fun hn => ?_⟩
      have hlength := children_length_le pd
      have hpower := maxPower_le pc
      rw [decide_eq_false, Bool.or_false]
      rw [countPorts_eq]
      split <;> omega

section Give

variable {n : ℕ} {pd c d : Fin n} (supply : UInt16) (mem : Mem n)

theorem give_hub (h : pd ≠ c) :
    give pd c supply mem pd = { mem pd with given := (mem pd).given ++ [(c, supply)] } := by
  unfold give
  rw [update_of_ne h, update_self]

theorem give_child (h : c ≠ pd) : give pd c supply mem c = { mem c with powerSupply := supply } := by
  unfold give
  rw [update_self, update_of_ne h]

theorem give_of_ne (h : d ≠ pd) (hc : d ≠ c) : give pd c supply mem d = mem d := by
  unfold give
  rw [update_of_ne hc, update_of_ne h]

end Give

def SupplyWalk (phw : PsdHardware) (pd : Fin phw.n) (mem mem' : Mem phw.n) : Prop :=
  (∀ d, Below phw.hub pd d → Budgeted phw d (mem d) (mem' d)) ∧ ∀ d, ¬Below phw.hub pd d → mem' d = mem d

theorem supply_children (fuel : ℕ) (supply : UInt16)
    (hwalk : ∀ c ∈ phw.children pd, ∀ mem, ∃ mem', pPowerRecurseSupply phw fuel c mem = some mem' ∧ SupplyWalk phw c mem mem')
    (mem : Mem phw.n) :
    ∃ mem', (phw.children pd).foldlM (fun mem nextpd => pPowerRecurseSupply phw fuel nextpd (give pd nextpd supply mem)) mem =
        some mem' ∧
      mem' pd = { mem pd with given := (mem pd).given ++ (phw.children pd).map (·, supply) } ∧
      (∀ d, d ≠ pd → Below phw.hub pd d → Budgeted phw d (mem d) (mem' d)) ∧
      ∀ d, ¬Below phw.hub pd d → mem' d = mem d := by
  obtain ⟨mem', hrun, ⟨done, hdone, hown⟩, hin, hout⟩ := foldlM_children phw.hub_acyclic
    (fun mem nextpd => pPowerRecurseSupply phw fuel nextpd (give pd nextpd supply mem))
    (Budgeted phw) (fun rest mem' => ∃ done, done ++ rest = phw.children pd ∧
      mem' pd = { mem pd with given := (mem pd).given ++ done.map (·, supply) })
    (children_nodup pd) (fun _ => mem_children)
    (fun c hc rest mem₁ ⟨done, hdone, hown⟩ => by
      have hhub := mem_children.mp hc
      have hne : c ≠ pd := not_below_of_child phw.hub_acyclic hhub (below_refl c)
      obtain ⟨mem₂, hrun, hin, hout⟩ := hwalk c hc (give pd c supply mem₁)
      refine ⟨mem₂, hrun, ⟨done ++ [c], ?_, ?_⟩, fun d hd => ?_, fun d hd hno => ?_⟩
      · rw [append_assoc, singleton_append, hdone]
      · rw [hout pd (not_below_parent phw.hub_acyclic hhub), give_hub _ _ hne.symm, hown, map_append,
          append_assoc]
        rfl
      · have hbudget := hin d hd
        by_cases he : d = c
        · subst he
          rw [give_child _ _ hne] at hbudget
          exact hbudget.of_same rfl rfl rfl fun _ => rfl
        · rwa [give_of_ne _ _ (not_below_of_child phw.hub_acyclic hhub hd) he] at hbudget
      · rw [hout d hno, give_of_ne _ _ hd (ne_of_not_below hno)])
    mem ⟨[], rfl, by rw [map_nil, append_nil]⟩
  rw [append_nil] at hdone
  exact ⟨mem', hrun, hdone ▸ hown, hin, hout⟩

theorem sum_given (supply : UInt16) (l : List (Fin phw.n)) :
    ((l.map (·, supply)).map fun g => g.2.toNat).sum = l.length * supply.toNat := by
  induction l with
  | nil => exact (Nat.zero_mul _).symm
  | cons c l ih =>
    rw [map_cons, map_cons, sum_cons, ih, length_cons, Nat.succ_mul, Nat.add_comm]

theorem pPowerRecurseSupply_walks : ∀ (fuel : ℕ) (pd : Fin phw.n) (mem : Mem phw.n), phw.n ≤ fuel + rank phw.hub pd →
    ∃ mem', pPowerRecurseSupply phw fuel pd mem = some mem' ∧ SupplyWalk phw pd mem mem' := by
  intro fuel
  induction fuel with
  | zero =>
    intro pd mem hfuel
    have := rank_lt_n pd
    omega
  | succ fuel ih =>
    intro pd mem hfuel
    obtain ⟨own, overflow, hself, hfits⟩ := ownSupply_self pd mem
    generalize hmem : ownSupply phw pd (countPorts phw pd) mem = mem₁ at hself
    generalize hsupply : portSupply (phw.devices pd) (countPorts phw pd) (mem₁ pd).powerSupply = supply
    obtain ⟨mem₂, hrun, hgiven, hin, hout⟩ := supply_children fuel supply (fun c hc mem =>
      ih c mem (fuel_of_child hc hfuel)) mem₁
    obtain ⟨hlow, hevent, hsame, hgiven', hover⟩ := checkPower_checks (mem₂ pd)
    refine ⟨update mem₂ pd (checkPower (mem₂ pd)), ?_, fun d hd => ?_, fun d hd => ?_⟩
    · rw [pPowerRecurseSupply]
      dsimp only
      rw [hmem, hsupply]
      by_cases hzero : countPorts phw pd = 0
      · have hports := countPorts_eq pd
        rw [hzero] at hports
        rw [length_eq_zero_iff.mp hports.symm] at hrun
        cases hrun
        exact if_neg (not_not.mpr hzero)
      · rw [if_pos hzero, foldlM_if (fun nextpd => (phw.devices nextpd).hub = some pd)]
        exact congrArg (Option.bind · fun mem => some (update mem pd (checkPower (mem pd)))) hrun
    · by_cases he : d = pd
      · subst he
        rw [update_self]
        have hsupply' : (checkPower (mem₂ d)).powerSupply = (mem₁ d).powerSupply := by rw [hsame, hgiven]
        refine ⟨hlow, ?_, fun pc hpc hle => ⟨(phw.children d).map (·, supply), ?_, ?_, ?_⟩, fun hn => ?_⟩
        · rw [hevent, hgiven, hself]
        · rw [hgiven', hgiven, hself]
        · rw [List.map_map]
          exact List.map_id _
        · rw [hsupply'] at hle ⊢
          rw [sum_given, ← hsupply]
          exact portSupply_budget hpc hle
        · rw [hover, hgiven, hself]
          exact hfits hn
      · rw [update_of_ne he]
        have hbudget := hin d he hd
        rwa [← hmem, ownSupply_of_ne he] at hbudget
    · rw [update_of_ne (ne_of_not_below hd), hout d hd, ← hmem, ownSupply_of_ne (ne_of_not_below hd)]

/-- After a calculation every device has its flag by its drain and supply, with one event where the flag is new, no
bus-powered hub gives more than it has, and with at most 127 devices no sum overflows. -/
theorem psdCalculatePower_budgets (phw : PsdHardware) (mem : Mem phw.n) :
    ∃ mem', psdCalculatePower phw mem = some mem' ∧ ∀ pd, Budgeted phw pd (mem pd) (mem' pd) := by
  obtain ⟨mem', hrun, hbudgets⟩ := foldlM_roots phw.hub_acyclic (fun mem roothub => do
      let mem := update mem roothub { mem roothub with powerDrain := 0, powerSupply := 500 }
      let mem ← pPowerRecurseDrain phw phw.n roothub mem
      pPowerRecurseSupply phw phw.n roothub mem)
    (Budgeted phw) ((nodup_finRange phw.n).filter fun pd => phw.hub pd = none) (fun r => by
      rw [mem_filter, decide_eq_true_eq, and_iff_right (mem_finRange r)])
    (fun r hr mem₁ => by
      obtain ⟨mem₂, hdrain, hin₂, hout₂, -⟩ := pPowerRecurseDrain_walks phw.n r
        (update mem₁ r { mem₁ r with powerDrain := 0, powerSupply := 500 }) (Nat.le_add_right ..)
      obtain ⟨mem₃, hsupply, hin₃, hout₃⟩ := pPowerRecurseSupply_walks phw.n r mem₂ (Nat.le_add_right ..)
      refine ⟨mem₃, ?_, fun d hd => ?_, fun d hno => ?_⟩
      · dsimp only
        rw [hdrain]
        exact hsupply
      · have hbudget := hin₃ d hd
        obtain ⟨hdrained, hfits⟩ := hin₂ d hd
        by_cases he : d = r
        · subst he
          rw [update_self] at hdrained hfits
          rw [hdrained] at hbudget
          exact hbudget.of_same rfl rfl rfl hfits
        · rw [update_of_ne he] at hdrained hfits
          rw [hdrained] at hbudget
          exact hbudget.of_same rfl rfl rfl hfits
      · rw [hout₃ d hno, hout₂ d hno, update_of_ne (ne_of_not_below hno)])
    mem
  exact ⟨mem', (foldlM_if (fun pd => phw.hub pd = none) _ _ mem).trans hrun, hbudgets⟩

end Neptune.PowerCalc
