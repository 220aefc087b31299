import Neptune.Proofs.Dealt

/-! When the geometry that `nFakeGeometry` invents is exact. -/

namespace Neptune.FakeGeometry

open List

theorem flat_power (prime n : ℕ) : flat (power prime n) = replicate n prime := by
  unfold power
  split
  · next h => rw [h, replicate_zero]; rfl
  · exact append_nil _

theorem flat_pairs (a b q : ℕ) :
    flat (pairs a b q) = replicate a 2 ++ replicate b 3 ++ if q = 1 then [] else [q] := by
  have happend : ∀ l l' : List (ℕ × ℕ), flat (l ++ l') = flat l ++ flat l' := fun _ _ => flatMap_append
  rw [pairs, happend, happend, flat_power, flat_power]
  split <;> rfl

variable {a b q : ℕ} {ncm : NepClassMS} {tddg : DriveGeometry}

theorem dealt_exact (htwo : q % 2 ≠ 0) (hlt : 2 ^ a * 3 ^ b * q < 2 ^ 32) :
    (dealAll ⟨1, 1, 2 ^ a * 3 ^ b * q⟩ (flat (pairs a b q))).blocks = 2 ^ a * 3 ^ b * q ↔
      q < 2 ^ 16 ∨ q % 2 ^ 16 ∣ q ∨ ¬Fits (2 ^ a * 3 ^ b) (q % 2 ^ 16) := by
  rw [flat_pairs]
  by_cases hq : q < 2 ^ 16
  · refine iff_of_true ?_ (.inl hq)
    have hrest : (if q = 1 then [] else [q]).prod = q := by
      split
      · next h => exact h.symm
      · exact prod_singleton
    have hprimes : ∀ prime ∈ replicate a 2 ++ replicate b 3 ++ (if q = 1 then [] else [q]),
        0 < prime ∧ prime < 2 ^ 16 := by
      intro prime hprime
      obtain hprime | hprime := mem_append.mp hprime
      · exact two_three_small a b prime hprime
      · split at hprime
        · cases hprime
        · rw [mem_singleton.mp hprime]
          omega
    have hdvd : (replicate a 2 ++ replicate b 3 ++ if q = 1 then [] else [q]).prod * 1 ∣
        2 ^ a * 3 ^ b * q := by
      rw [prod_append, hrest, two_three_prod, Nat.mul_one]
    rw [(dealAll_blocks _ _ 1 hprimes hdvd (start_small _)).1, Deal.blocks, Nat.mul_one, Nat.mul_one]
  · rw [or_iff_right hq, if_neg (by omega)]
    exact large_exact htwo (not_lt.mp hq) hlt

theorem dealAll_small : ∀ (primes : List ℕ) (d : Deal), (∀ prime ∈ primes, 0 < uword prime) → d.Small →
    (dealAll d primes).Small := by
  intro primes
  induction primes with
  | nil => exact fun _ _ hd => hd
  | cons prime primes ih =>
    intro d hprimes hd
    obtain ⟨hpos, hrest⟩ := forall_mem_cons.mp hprimes
    exact ih _ hrest (dealOne_small hd hpos)

theorem sumFactors_spec {f : Factors} {l : List (ℕ × ℕ)} (hf : f.Are l) (hlen : f.curpos ≤ 32)
    (hsum : (l.map Prod.snd).sum < 2 ^ 16) : sumFactors f = some (l.map Prod.snd).sum := by
  have hloop : ∀ k ≤ l.length, (range k).foldlM (fun totfactors cnt => do
      let n ← rd f.count cnt
      some (uword (totfactors + n))) 0 = some ((l.take k).map Prod.snd).sum := by
    intro k
    induction k with
    | zero => exact fun _ => rfl
    | succ k ih =>
      intro hk
      have hget : l[k]? = some l[k] := getElem?_eq_getElem hk
      have hle : ((l.take k).map Prod.snd).sum + l[k].2 ≤ (l.map Prod.snd).sum := by
        conv_rhs => rw [← take_append_drop (k + 1) l]
        rw [map_append, sum_append, take_succ_eq_append_getElem hk, map_append, sum_append]
        exact Nat.le_add_right _ _
      have hlt : k < 32 := by
        rw [hf.2] at hlen
        omega
      rw [range_succ, foldlM_append, ih (by omega), take_succ_eq_append_getElem hk, map_append,
        sum_append]
      have hstep : uword (((l.take k).map Prod.snd).sum + f.count k) = ((l.take k).map Prod.snd).sum + l[k].2 := by
        rw [(hf.1 k _ hget).2]
        exact uword_of_lt (by omega)
      simpa [rd_of_lt hlt] using hstep
  have := hloop l.length le_rfl
  rwa [take_length, ← hf.2] at this

theorem exists_parts {n : ℕ} (h : n ≠ 0) : ∃ a b q, n = 2 ^ a * 3 ^ b * q ∧ q % 2 ≠ 0 ∧ q % 3 ≠ 0 := by
  obtain ⟨a, m, hm, rfl⟩ := Nat.exists_eq_pow_mul_and_not_dvd h 2 (by decide)
  have hm0 : m ≠ 0 := fun hzero => hm (hzero ▸ Nat.dvd_zero 2)
  obtain ⟨b, q, hq, rfl⟩ := Nat.exists_eq_pow_mul_and_not_dvd hm0 3 (by decide)
  refine ⟨a, b, q, (Nat.mul_assoc ..).symm, fun htwo => ?_, fun hthree => hq (Nat.dvd_of_mod_eq_zero hthree)⟩
  exact hm ((Nat.dvd_of_mod_eq_zero htwo).trans (Nat.dvd_mul_left ..))

theorem pairs_ne_nil (htwo : q % 2 ≠ 0) (hthree : q % 3 ≠ 0) (h : ¬Stubborn (2 ^ a * 3 ^ b * q)) :
    pairs a b q ≠ [] := by
  intro hnil
  rw [pairs, append_eq_nil_iff, append_eq_nil_iff, power_eq_nil, power_eq_nil] at hnil
  obtain ⟨⟨ha, hb⟩, hq⟩ := hnil
  refine h ((stubborn_iff htwo hthree).mpr ⟨ha, hb, ?_, ?_⟩)
  · rintro rfl
    exact absurd hq (by decide)
  · rintro rfl
    exact absurd hq (by decide)

section

variable (f : Factors) (ncm : NepClassMS)

theorem attempts_found (tddg : DriveGeometry)
    (hn : tddg.totalSectors = 2 ^ a * 3 ^ b * q) (htwo : q % 2 ≠ 0) (hthree : q % 3 ≠ 0)
    (hlt : tddg.totalSectors < 2 ^ 32) (h : ¬Stubborn tddg.totalSectors) :
    ∃ f', f'.Are (pairs a b q) ∧ ∀ fuel ≥ 65, attempts fuel f ncm tddg = some (ncm, tddg, some f') := by
  rw [hn] at hlt h
  obtain ⟨f', hrun, hf'⟩ := factorise_spec f htwo hthree hlt
  rw [if_neg h] at hf'
  refine ⟨f', hf', fun fuel hfuel => ?_⟩
  obtain ⟨fuel, rfl⟩ := Nat.exists_eq_succ_of_ne_zero (by omega : fuel ≠ 0)
  have hcurpos : f'.curpos ≠ 0 := by
    rw [hf'.2]
    exact fun hzero => pairs_ne_nil htwo hthree h (length_eq_zero_iff.mp hzero)
  rw [attempts, hn, hrun fuel (by omega)]
  exact if_pos hcurpos

theorem attempts_stubborn (tddg : DriveGeometry) (hlt : tddg.totalSectors < 2 ^ 32)
    (h : Stubborn tddg.totalSectors) : ∃ f' ncm', ∀ fuel ≥ 64, attempts (fuel + 1) f ncm tddg =
      if ncm.fixCapacity then
        if ncm.noFallback then some (ncm', tddg, none)
        else attempts fuel f' ncm' { tddg with totalSectors := ulong (tddg.totalSectors + 1) }
      else attempts fuel f' ncm' { tddg with totalSectors := ulongSub tddg.totalSectors 1 } := by
  have hzero : tddg.totalSectors ≠ 0 := fun hzero => h.1 (by rw [hzero])
  obtain ⟨a, b, q, hn, htwo, hthree⟩ := exists_parts hzero
  rw [hn] at hlt
  obtain ⟨f', hrun, hf'⟩ := factorise_spec f htwo hthree hlt
  rw [if_pos (hn ▸ h)] at hf'
  have hattempt : ∀ fuel ≥ 64, attempts (fuel + 1) f ncm tddg =
      (let ncm := psdAddErrorMsg RETURN_WARN "FakeGeometry: Total number of blocks is a prime number!" ncm
      if ncm.fixCapacity then
        let fell := nApplyFallback false RETURN_ERROR ncm
        if !fell.1 then some (fell.2, tddg, none)
        else attempts fuel f' fell.2 { tddg with totalSectors := ulong (tddg.totalSectors + 1) }
      else
        attempts fuel f' (nApplyFallback true RETURN_WARN ncm).2 { tddg with totalSectors := ulongSub tddg.totalSectors 1 }) := by
    intro fuel hfuel
    rw [attempts, hn, hrun fuel hfuel]
    exact if_neg (not_not.mpr hf')
  refine ⟨f', (nApplyFallback (!ncm.fixCapacity) (if ncm.fixCapacity then RETURN_ERROR else RETURN_WARN)
    (psdAddErrorMsg RETURN_WARN "FakeGeometry: Total number of blocks is a prime number!" ncm)).2, fun fuel hfuel => ?_⟩
  rw [hattempt fuel hfuel]
  cases hfix : ncm.fixCapacity with
  | false => simp [psdAddErrorMsg, hfix]
  | true =>
    cases hno : ncm.noFallback with
    | false => simp [psdAddErrorMsg, nApplyFallback, hfix, hno]
    | true => cases hadv : ncm.advised <;> simp [psdAddErrorMsg, nApplyFallback, hfix, hno, hadv]

theorem attempts_zero (h : tddg.totalSectors = 0) (fuel : ℕ) :
    attempts fuel f ncm tddg = none := by
  cases fuel with
  | zero => rfl
  | succ fuel =>
    rw [attempts, h, factorise_zero]
    rfl

end

theorem mem_power {prime n : ℕ} {pc : ℕ × ℕ} (h : pc ∈ power prime n) : pc = (prime, n) := by
  unfold power at h
  split at h
  · cases h
  · exact mem_singleton.mp h

theorem power_sum (prime n : ℕ) : ((power prime n).map Prod.snd).sum = n := by
  unfold power
  split
  · next h => exact h.symm
  · exact Nat.add_zero n

section Pairs

variable {a b q : ℕ}

theorem pairs_words (htwo : q % 2 ≠ 0) : ∀ pc ∈ pairs a b q, 0 < uword pc.1 := by
  intro pc hpc
  obtain hpc | hpc := mem_append.mp hpc
  · obtain hpc | hpc := mem_append.mp hpc
    · rw [mem_power hpc]
      exact (by decide : 0 < uword 2)
    · rw [mem_power hpc]
      exact (by decide : 0 < uword 3)
  · split at hpc
    · cases hpc
    · rw [mem_singleton.mp hpc, uword]
      omega

theorem pairs_length_le : (pairs a b q).length ≤ 3 := by
  have htwo := power_length_le 2 a
  have hthree := power_length_le 3 b
  have hrest : (if q = 1 then [] else [(q, 1)]).length ≤ 1 := by split <;> simp
  rw [pairs, length_append, length_append]
  omega

theorem pairs_sum_le : ((pairs a b q).map Prod.snd).sum ≤ a + b + 1 := by
  have hrest : ((if q = 1 then [] else [(q, 1)]).map Prod.snd).sum ≤ 1 := by split <;> simp
  rw [pairs, map_append, map_append, sum_append, sum_append, power_sum, power_sum]
  omega

end Pairs

def described (ncm : NepClassMS) (tddg : DriveGeometry) : DriveGeometry :=
  { tddg with
    deviceType := ncm.deviceType
    flags := if ncm.removable then DGF_REMOVABLE else 0
    bufMemType := MEMF_PUBLIC
    reserved := 0 }

theorem nFakeGeometry_dealt {stack : Factors} {ncm' : NepClassMS} {tddg' : DriveGeometry} {f' : Factors} (hpos : tddg.totalSectors ≠ 0) (hf : f'.Are (pairs a b q))
    (hn : tddg'.totalSectors = 2 ^ a * 3 ^ b * q) (htwo : q % 2 ≠ 0) (hlt : tddg'.totalSectors < 2 ^ 32)
    (hrun : ∀ fuel ≥ 66, attempts fuel stack ncm (described ncm tddg) = some (ncm', tddg', some f')) :
    ∃ faked enough, (∀ fuel ≥ enough, nFakeGeometry fuel stack ncm tddg = some faked) ∧ faked.early = false ∧
      faked.tddg.totalSectors = tddg'.totalSectors ∧
      faked.tddg.cylSectors = faked.tddg.heads * faked.tddg.trackSectors ∧
      (faked.tddg.cylinders * faked.tddg.heads * faked.tddg.trackSectors = faked.tddg.totalSectors ↔
        q < 2 ^ 16 ∨ q % 2 ^ 16 ∣ q ∨ ¬Fits (2 ^ a * 3 ^ b) (q % 2 ^ 16)) := by
  rw [hn] at hlt
  obtain ⟨ha, hb⟩ := exponents_lt htwo hlt
  have hcurpos : f'.curpos < 32 := by
    have hlength : (pairs a b q).length ≤ 3 := pairs_length_le
    rw [hf.2]
    omega
  have hsum : ((pairs a b q).map Prod.snd).sum ≤ a + b + 1 := pairs_sum_le
  obtain ⟨k, hdeal⟩ := deal_spec _ f' _ ⟨1, 1, 2 ^ a * 3 ^ b * q⟩ hf hcurpos rfl (pairs_words htwo) (start_small _)
  have hexact := dealt_exact (a := a) (b := b) htwo hlt
  have hsmall : (dealAll ⟨1, 1, 2 ^ a * 3 ^ b * q⟩ (flat (pairs a b q))).Small := by
    refine dealAll_small _ _ (fun prime hprime => ?_) (start_small _)
    obtain ⟨pc, hpc, hprime⟩ := mem_flatMap.mp hprime
    rw [eq_of_mem_replicate hprime]
    exact pairs_words htwo pc hpc
  generalize dealAll ⟨1, 1, 2 ^ a * 3 ^ b * q⟩ (flat (pairs a b q)) = d at *
  refine ⟨⟨ncm', { tddg' with
    trackSectors := d.trackSectors
    heads := d.heads
    cylinders := d.remfact
    cylSectors := ulong (d.trackSectors * d.heads) }, false⟩, 66 + k, fun fuel hfuel => ?_, rfl, rfl, ?_, ?_⟩
  · obtain ⟨fuel, rfl⟩ : ∃ n, fuel = n + k := ⟨fuel - k, by omega⟩
    rw [nFakeGeometry, if_neg hpos]
    change (attempts (fuel + k) stack ncm (described ncm tddg)).bind _ = _
    rw [hrun _ (by omega), Option.bind_some]
    dsimp only
    rw [sumFactors_spec hf (by omega) (by omega), hn]
    dsimp only [Option.bind_eq_bind, Option.bind_some]
    rw [hdeal fuel (by omega)]
    rfl
  · have hcyl : d.trackSectors * d.heads ≤ 256 * 16 := Nat.mul_le_mul hsmall.tracks.le hsmall.heads
    rw [ulong_of_lt (by omega), Nat.mul_comm]
  · rw [hn]
    exact hexact

theorem invents_iff_dealable {stack : Factors} (n : ℕ)
    (hpos : tddg.totalSectors ≠ 0) (hn : n ≠ 0) (hlt : n < 2 ^ 32) (hup : n ≤ tddg.totalSectors + 1)
    (hdown : tddg.totalSectors ≤ n + 1)
    (hrun : ∀ a b q, n = 2 ^ a * 3 ^ b * q → q % 2 ≠ 0 → q % 3 ≠ 0 → ∃ f' ncm' tddg', f'.Are (pairs a b q) ∧
      tddg'.totalSectors = n ∧
      ∀ fuel ≥ 66, attempts fuel stack ncm (described ncm tddg) = some (ncm', tddg', some f')) :
    Invents stack ncm tddg ↔ Dealable n := by
  have hdealt : ∀ a b q, n = 2 ^ a * 3 ^ b * q → q % 2 ≠ 0 → q % 3 ≠ 0 →
      ∃ faked enough, (∀ fuel ≥ enough, nFakeGeometry fuel stack ncm tddg = some faked) ∧ faked.early = false ∧
        (Exact tddg faked.tddg ↔ q < 2 ^ 16 ∨ q % 2 ^ 16 ∣ q ∨ ¬Fits (2 ^ a * 3 ^ b) (q % 2 ^ 16)) := by
    intro a b q hq htwo hthree
    obtain ⟨f', ncm', tddg', hf, htotal, hattempts⟩ := hrun a b q hq htwo hthree
    obtain ⟨faked, enough, hfaked, hearly, hsame, hcyl, hiff⟩ :=
      nFakeGeometry_dealt hpos hf (htotal.trans hq) htwo (htotal.symm ▸ hlt) hattempts
    refine ⟨faked, enough, hfaked, hearly, ?_⟩
    rw [Exact, hiff, hcyl, hsame, htotal]
    exact and_iff_left ⟨rfl, hup, hdown⟩
  constructor
  · rintro ⟨enough, hruns⟩ a b q hq htwo hthree
    obtain ⟨faked, enough', hfaked, hearly, hiff⟩ := hdealt a b q hq htwo hthree
    obtain ⟨faked', hrun', hexact⟩ := hruns (max enough enough') (le_max_left ..)
    cases (hfaked _ (le_max_right ..)).symm.trans hrun'
    exact hiff.mp (hexact.resolve_left (by rw [hearly]; decide))
  · intro hdealable
    obtain ⟨a, b, q, hq, htwo, hthree⟩ := exists_parts hn
    obtain ⟨faked, enough, hfaked, -, hiff⟩ := hdealt a b q hq htwo hthree
    exact ⟨enough, fun fuel hfuel => ⟨faked, hfaked fuel hfuel, .inr (hiff.mpr (hdealable a b q hq htwo hthree))⟩⟩

theorem invents_iff_found {stack : Factors} (hpos : tddg.totalSectors ≠ 0)
    (hlt : tddg.totalSectors < 2 ^ 32) (h : ¬Stubborn tddg.totalSectors) :
    Invents stack ncm tddg ↔ Dealable tddg.totalSectors := by
  refine invents_iff_dealable tddg.totalSectors hpos hpos hlt (Nat.le_succ _) (Nat.le_succ _) ?_
  intro a b q hn htwo hthree
  obtain ⟨f', hf, hrun⟩ := attempts_found stack ncm (described ncm tddg) hn htwo hthree hlt h
  exact ⟨f', ncm, described ncm tddg, hf, rfl, fun fuel hfuel => hrun fuel (by omega)⟩

theorem invents_iff_again {stack f₁ : Factors} {ncm₁ : NepClassMS} (n : ℕ)
    (hpos : tddg.totalSectors ≠ 0) (hn : n ≠ 0) (heven : n % 2 = 0) (hlt : n < 2 ^ 32) (hup : n ≤ tddg.totalSectors + 1)
    (hdown : tddg.totalSectors ≤ n + 1)
    (hfirst : ∀ fuel ≥ 64, attempts (fuel + 1) stack ncm (described ncm tddg) =
      attempts fuel f₁ ncm₁ { described ncm tddg with totalSectors := n }) :
    Invents stack ncm tddg ↔ n ≠ 0 ∧ Dealable n := by
  rw [and_iff_right hn, invents_iff_dealable n hpos hn hlt hup hdown]
  intro a b q hq htwo hthree
  obtain ⟨f', hf, hrun⟩ := attempts_found f₁ ncm₁ { described ncm tddg with totalSectors := n } hq htwo hthree hlt
    fun h => h.1 heven
  refine ⟨f', ncm₁, { described ncm tddg with totalSectors := n }, hf, rfl, fun fuel hfuel => ?_⟩
  obtain ⟨fuel, rfl⟩ := Nat.exists_eq_succ_of_ne_zero (by omega : fuel ≠ 0)
  exact (hfirst fuel (by omega)).trans (hrun fuel (by omega))

/-- The geometry is exact unless a single block is to be one less, or what is left of the blocks without their twos and
threes does not go into a `UWORD` and what does of it goes to the tracks or heads without dividing it. -/
theorem invents_iff (stack : Factors) (ncm : NepClassMS) (tddg : DriveGeometry) (hpos : 0 < tddg.totalSectors)
    (hlt : tddg.totalSectors < 2 ^ 32) : Invents stack ncm tddg ↔ Sound ncm tddg.totalSectors := by
  unfold Sound factored
  by_cases h : Stubborn tddg.totalSectors
  · obtain ⟨f₁, ncm₁, hfirst⟩ := attempts_stubborn stack ncm (described ncm tddg) hlt h
    have hsectors : (described ncm tddg).totalSectors = tddg.totalSectors := rfl
    have htwo := h.1
    have hthree := h.2.1
    rw [if_pos h]
    rw [hsectors] at hfirst
    cases hfix : ncm.fixCapacity with
    | true =>
      simp only [hfix, if_true] at hfirst ⊢
      cases hno : ncm.noFallback with
      | true =>
        -- the early return
        simp only [hno, if_true] at hfirst
        refine iff_of_true ⟨65, fun fuel hfuel => ?_⟩ (.inl ⟨h, trivial, rfl⟩)
        obtain ⟨fuel, rfl⟩ := Nat.exists_eq_succ_of_ne_zero (by omega : fuel ≠ 0)
        refine ⟨⟨ncm₁, described ncm tddg, true⟩, ?_, .inl rfl⟩
        rw [nFakeGeometry, if_neg hpos.ne']
        change (attempts (fuel + 1) stack ncm (described ncm tddg)).bind _ = _
        rw [hfirst fuel (by omega)]
        rfl
      | false =>
        have hnext : ulong (tddg.totalSectors + 1) = tddg.totalSectors + 1 := ulong_of_lt (by omega)
        simp only [hno, Bool.false_eq_true, if_false, hnext] at hfirst
        rw [or_iff_right fun hc => absurd hc.2.2 (by decide)]
        exact invents_iff_again _ hpos.ne' (by omega) (by omega) (by omega) le_rfl (by omega) hfirst
    | false =>
      have hnext : ulongSub tddg.totalSectors 1 = tddg.totalSectors - 1 := ulongSub_of_le hpos hlt
      simp only [hfix, Bool.false_eq_true, if_false, hnext] at hfirst ⊢
      rw [or_iff_right fun hc => hc.2.1]
      by_cases hone : tddg.totalSectors = 1
      · -- a single block is taken down to none, of which no factor is found
        rw [hone]
        refine iff_of_false ?_ fun hc => hc.1 rfl
        rintro ⟨enough, hruns⟩
        obtain ⟨faked, hrun, -⟩ := hruns (max enough 64 + 1) (by omega)
        rw [nFakeGeometry, if_neg hpos.ne'] at hrun
        change (attempts (max enough 64 + 1) stack ncm (described ncm tddg)).bind _ = _ at hrun
        rw [hfirst _ (le_max_right ..), attempts_zero _ _ (by dsimp only; omega)] at hrun
        cases hrun
      · exact invents_iff_again _ hpos.ne' (by omega) (by omega) (by omega) (by omega) (by omega) hfirst
  · rw [if_neg h, invents_iff_found hpos.ne' hlt h]
    exact ⟨fun hd => .inr ⟨hpos.ne', hd⟩, fun hs => (hs.resolve_left fun hc => h hc.1).2⟩

def disk (n : ℕ) : DriveGeometry := ⟨n, 0, 0, 0, 0, 0, 0, 0, 0⟩

def stack : Factors := ⟨fun _ => 0, fun _ => 0, 0⟩

def unit : NepClassMS := ⟨false, false, false, 0, false, []⟩

theorem invents_iff_floppy : Invents stack unit (disk 2880) := by
  refine (invents_iff stack unit (disk 2880) (by decide) (by decide)).mpr (.inr ⟨by decide, fun a b q hq _ _ => .inl ?_⟩)
  have hle : q ≤ 2880 := Nat.le_of_dvd (by decide) ⟨2 ^ a * 3 ^ b, hq.trans (Nat.mul_comm ..)⟩
  omega

/-- The factor 65539 is dealt as 3. -/
theorem factor_truncated : ¬Invents stack unit (disk (2 * 65539)) := by
  intro h
  have hdealable := (invents_iff_found (by decide) (by decide) (by decide)).mp h
  obtain hlt | hdvd | hfits := hdealable 1 0 65539 rfl (by decide) (by decide)
  · exact absurd hlt (by decide)
  · exact absurd hdvd (by decide)
  · exact hfits (.inl (by decide))

end Neptune.FakeGeometry
