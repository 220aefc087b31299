import Neptune.Proofs.Factorised

/-! Where the factors of `nFakeGeometry` go. -/

namespace Neptune.FakeGeometry

open List Option Function

structure Deal.Small (d : Deal) : Prop where
  tracksPos : 0 < d.trackSectors
  tracks : d.trackSectors < 256
  headsPos : 0 < d.heads
  heads : d.heads ≤ 16

def dealOne (d : Deal) (factor : ℕ) : Deal :=
  if d.trackSectors * factor < 256 ∧ d.trackSectors * factor < d.remfact then
    { d with trackSectors := d.trackSectors * factor, remfact := d.remfact / factor }
  else if d.heads * factor ≤ 16 ∧ d.heads * d.heads * factor * factor < d.trackSectors then
    { d with heads := d.heads * factor, remfact := d.remfact / factor }
  else d

variable {factor n prime q : ℕ} {d : Deal} {f : Factors} {rest zeros : List (ℕ × ℕ)}

theorem dealOne_small (h : d.Small) (hpos : 0 < factor) : (dealOne d factor).Small := by
  unfold dealOne
  split
  · next ht => exact ⟨Nat.mul_pos h.tracksPos hpos, ht.1, h.headsPos, h.heads⟩
  · split
    · next hh => exact ⟨h.tracksPos, h.tracks, Nat.mul_pos h.headsPos hpos, hh.1⟩
    · exact h

theorem ulong_of_lt (h : n < 2 ^ 32) : ulong n = n := Nat.mod_eq_of_lt h

theorem dealFactor_eq (h : d.Small) (hpos : 0 < factor) (hlt : factor < 2 ^ 16)
    (curpos tries : ℕ) : ∃ taken, dealFactor curpos tries factor d = some (dealOne d factor, taken) ∧
      (taken = false → dealOne d factor = d ∧ tries ≤ curpos) := by
  have htracks : d.trackSectors * factor < 2 ^ 8 * 2 ^ 16 := Nat.mul_lt_mul'' h.tracks hlt
  have hheads : d.heads * factor ≤ 16 * 2 ^ 16 := Nat.mul_le_mul h.heads hlt.le
  have hboth : d.heads * d.trackSectors ≤ 16 * 2 ^ 8 := Nat.mul_le_mul h.heads h.tracks.le
  have hquot : quot d.remfact factor = some (d.remfact / factor) := if_pos (by omega)
  unfold dealFactor dealOne
  rw [ulong_of_lt (by omega : d.trackSectors * factor < 2 ^ 32), ulong_of_lt (by omega : d.heads * factor < 2 ^ 32),
    ulong_of_lt (by omega : d.heads * d.trackSectors < 2 ^ 32), hquot]
  by_cases ht : d.trackSectors * factor < 256 ∧ d.trackSectors * factor < d.remfact
  · rw [if_pos ht, if_pos ht]
    exact ⟨true, rfl, nofun⟩
  · rw [if_neg ht, if_neg ht]
    have hsquare : d.heads * factor ≤ 16 → ulong (d.heads * d.heads * factor * factor) =
        d.heads * d.heads * factor * factor := by
      intro hle
      have hfour : d.heads * d.heads * factor * factor = (d.heads * factor) * (d.heads * factor) := by ring
      have := Nat.mul_le_mul hle hle
      exact ulong_of_lt (by omega)
    by_cases hh : d.heads * factor ≤ 16 ∧ d.heads * d.heads * factor * factor < d.trackSectors
    · rw [if_pos hh, if_pos ⟨hh.1, (hsquare hh.1).symm ▸ hh.2⟩]
      exact ⟨true, rfl, nofun⟩
    · have hh' : ¬(d.heads * factor ≤ 16 ∧ ulong (d.heads * d.heads * factor * factor) < d.trackSectors) :=
        fun hc => hh ⟨hc.1, hsquare hc.1 ▸ hc.2⟩
      rw [if_neg hh, if_neg hh']
      refine ⟨_, rfl, fun hfalse => ⟨rfl, ?_⟩⟩
      rw [decide_eq_false_iff_not] at hfalse
      omega

theorem Factors.Are.get (hf : f.Are (zeros ++ (prime, n) :: rest)) :
    f.primes zeros.length = prime ∧ f.count zeros.length = n :=
  hf.1 zeros.length (prime, n) (by rw [getElem?_append_right le_rfl, Nat.sub_self]; rfl)

theorem Factors.Are.set (hf : f.Are (zeros ++ (prime, n) :: rest))
    (n' : ℕ) : Factors.Are { f with count := update f.count zeros.length n' } (zeros ++ (prime, n') :: rest) := by
  refine ⟨fun i pc hi => ?_, ?_⟩
  · by_cases he : i = zeros.length
    · subst he
      rw [getElem?_append_right le_rfl, Nat.sub_self] at hi
      cases hi
      exact ⟨hf.get.1, update_self ..⟩
    · have hsame : (zeros ++ (prime, n) :: rest)[i]? = some pc := by
        rw [getElem?_append] at hi ⊢
        split
        · next hlt => rwa [if_pos hlt] at hi
        · next hge =>
          rw [if_neg hge] at hi
          obtain ⟨k, hk⟩ := Nat.exists_eq_succ_of_ne_zero (by omega : i - zeros.length ≠ 0)
          rw [hk] at hi ⊢
          exact hi
      refine (hf.1 i pc hsame).imp id fun hc => ?_
      exact (update_of_ne he ..).trans hc
  · rw [hf.2, length_append, length_append]
    rfl

section

variable (hf : f.Are (zeros ++ (prime, n + 1) :: rest)) (hlen : f.curpos < 32) (hzeros : ∀ pc ∈ zeros, pc.2 = 0)
include hf hlen hzeros

theorem firstFactor_spec :
    ∀ fuel cnt, cnt ≤ zeros.length → zeros.length < cnt + fuel → firstFactor f fuel cnt = some zeros.length := by
  have hcurpos : zeros.length < f.curpos := by
    rw [hf.2, length_append, length_cons]
    omega
  intro fuel
  induction fuel with
  | zero =>
    omega
  | succ fuel ih =>
    intro cnt hle hlt
    rw [firstFactor, rd_of_lt (by omega)]
    dsimp only [bind_eq_bind, bind_some]
    by_cases he : cnt = zeros.length
    · rw [he, hf.get.2, if_pos (Nat.succ_ne_zero n)]
    · have hzero : f.count cnt = 0 := by
        have hget : (zeros ++ (prime, n + 1) :: rest)[cnt]? = some zeros[cnt] := by
          rw [getElem?_append_left (by omega), getElem?_eq_getElem]
        rw [(hf.1 cnt _ hget).2]
        exact hzeros _ (getElem_mem _)
      rw [if_neg (not_not.mpr hzero), if_neg (by omega)]
      exact ih (cnt + 1) (by omega) (by omega)

theorem deal_factor (hprime : 0 < uword prime) (hd : d.Small) (totfactors : ℕ) :
    ∀ left tries, tries + left = f.curpos + 1 → ∃ k, ∀ fuel ≥ 32, deal (fuel + k) f (totfactors + 1) tries d =
      deal fuel { f with count := update f.count zeros.length n } totfactors 0 (dealOne d (uword prime)) := by
  have hcurpos : zeros.length < f.curpos := by
    rw [hf.2, length_append, length_cons]
    omega
  have hstep : ∀ tries, ∃ taken, (taken = false → dealOne d (uword prime) = d ∧ tries ≤ f.curpos) ∧
      ∀ fuel ≥ 32, deal (fuel + 1) f (totfactors + 1) tries d = if taken then
        deal fuel { f with count := update f.count zeros.length n } totfactors 0 (dealOne d (uword prime))
        else deal fuel f (totfactors + 1) (uword (tries + 1)) (dealOne d (uword prime)) := by
    intro tries
    obtain ⟨taken, hdeal, hfalse⟩ := dealFactor_eq hd hprime (uword_lt prime) f.curpos tries
    refine ⟨taken, hfalse, fun fuel hfuel => ?_⟩
    rw [deal, if_neg (Nat.succ_ne_zero totfactors), firstFactor_spec hf hlen hzeros fuel 0 (Nat.zero_le _) (by omega)]
    dsimp only [bind_eq_bind, bind_some]
    rw [rd_of_lt (by omega), bind_some, hf.get.1, hdeal]
    dsimp only [bind_some]
    rw [rd_of_lt (by omega), bind_some, wr_of_lt (by omega), hf.get.2]
    rfl
  intro left
  induction left with
  | zero =>
    intro tries htries
    obtain ⟨taken, hfalse, hrun⟩ := hstep tries
    cases taken with
    | true => exact ⟨1, hrun⟩
    | false =>
      have := (hfalse rfl).2
      omega
  | succ left ih =>
    intro tries htries
    obtain ⟨taken, hfalse, hrun⟩ := hstep tries
    cases taken with
    | true => exact ⟨1, hrun⟩
    | false =>
      obtain ⟨k, hk⟩ := ih (tries + 1) (by omega)
      refine ⟨k + 1, fun fuel hfuel => ?_⟩
      have hwrap : uword (tries + 1) = tries + 1 := uword_of_lt (by omega)
      have hagain := hrun (fuel + k) (by omega)
      rw [if_neg (by decide), hwrap] at hagain
      rw [← Nat.add_assoc, hagain, (hfalse rfl).1, hk fuel hfuel, (hfalse rfl).1]

end

def flat (l : List (ℕ × ℕ)) : List ℕ := l.flatMap fun pc => List.replicate pc.2 pc.1

theorem exists_first : ∀ l : List (ℕ × ℕ), (l.map Prod.snd).sum ≠ 0 →
    ∃ zeros prime n rest, l = zeros ++ (prime, n + 1) :: rest ∧ ∀ pc ∈ zeros, pc.2 = 0
  | [], h => absurd rfl h
  | (prime, n + 1) :: l, _ => ⟨[], prime, n, l, rfl, nofun⟩
  | (prime, 0) :: l, h => by
    rw [map_cons, sum_cons, Nat.zero_add] at h
    obtain ⟨zeros, prime', n, rest, rfl, hzeros⟩ := exists_first l h
    exact ⟨(prime, 0) :: zeros, prime', n, rest, rfl, forall_mem_cons.mpr ⟨rfl, hzeros⟩⟩

theorem flat_zeros {l : List (ℕ × ℕ)} (h : ∀ pc ∈ l, pc.2 = 0) : flat l = [] := by
  rw [flat, flatMap_eq_nil_iff]
  intro pc hpc
  rw [h pc hpc, replicate_zero]

theorem flat_first (hzeros : ∀ pc ∈ zeros, pc.2 = 0) (prime n : ℕ) :
    flat (zeros ++ (prime, n + 1) :: rest) = prime :: flat (zeros ++ (prime, n) :: rest) := by
  have happend : ∀ n, flat (zeros ++ (prime, n) :: rest) = flat zeros ++ (replicate n prime ++ flat rest) := fun n =>
    flatMap_append
  rw [happend, happend, flat_zeros hzeros, nil_append, nil_append, replicate_succ, cons_append]

def dealAll (d : Deal) (primes : List ℕ) : Deal := primes.foldl (fun d prime => dealOne d (uword prime)) d

theorem deal_spec : ∀ (totfactors : ℕ) (f : Factors) (l : List (ℕ × ℕ)) (d : Deal), f.Are l → f.curpos < 32 →
    (l.map Prod.snd).sum = totfactors → (∀ pc ∈ l, 0 < uword pc.1) → d.Small →
    ∃ k, ∀ fuel ≥ 32, deal (fuel + k) f totfactors 0 d = some (dealAll d (flat l)) := by
  intro totfactors
  induction totfactors with
  | zero =>
    intro f l d _ _ hsum _ _
    refine ⟨0, fun fuel hfuel => ?_⟩
    obtain ⟨fuel, rfl⟩ := Nat.exists_eq_succ_of_ne_zero (by omega : fuel ≠ 0)
    have hzeros : ∀ pc ∈ l, pc.2 = 0 := fun pc hpc =>
      List.sum_eq_zero_iff_forall_eq_nat.mp hsum _ (List.mem_map_of_mem hpc)
    rw [Nat.add_zero, deal, if_pos rfl, flat_zeros hzeros]
    rfl
  | succ totfactors ih =>
    intro f l d hf hlen hsum hprimes hd
    obtain ⟨zeros, prime, n, rest, rfl, hzeros⟩ := exists_first l (by omega)
    have hprime : 0 < uword prime := hprimes (prime, n + 1) (mem_append_right _ mem_cons_self)
    obtain ⟨k, hfirst⟩ := deal_factor hf hlen hzeros hprime hd totfactors (f.curpos + 1) 0 (Nat.zero_add _)
    obtain ⟨k', hrest⟩ := ih _ _ (dealOne d (uword prime)) (hf.set n) hlen (by
      rw [map_append, map_cons, sum_append, sum_cons] at hsum ⊢
      omega) (fun pc hpc => by
      obtain hpc | hpc := mem_append.mp hpc
      · exact hprimes pc (mem_append_left _ hpc)
      · obtain rfl | hpc := mem_cons.mp hpc
        · exact hprime
        · exact hprimes pc (mem_append_right _ (mem_cons_of_mem _ hpc))) (dealOne_small hd hprime)
    refine ⟨k' + k, fun fuel hfuel => ?_⟩
    rw [← Nat.add_assoc, hfirst (fuel + k') (by omega), hrest fuel hfuel, flat_first hzeros]
    rfl

def Deal.blocks (d : Deal) : ℕ := d.remfact * d.heads * d.trackSectors

theorem dealOne_blocks (h : factor ∣ d.remfact) : (dealOne d factor).blocks = d.blocks := by
  obtain ⟨c, hc⟩ := h
  by_cases hpos : factor = 0
  · subst hpos
    unfold dealOne Deal.blocks
    split
    · simp [hc]
    · split <;> simp [hc]
  · have hdiv : d.remfact / factor = c := by rw [hc, Nat.mul_div_cancel_left c (Nat.pos_of_ne_zero hpos)]
    unfold dealOne Deal.blocks
    split
    · rw [hdiv, hc]
      ring
    · split
      · rw [hdiv, hc]
        ring
      · rfl

theorem dealOne_dvd {more : ℕ} (hpos : 0 < factor) (h : factor * more ∣ d.remfact) :
    more ∣ (dealOne d factor).remfact := by
  have hdiv : more ∣ d.remfact / factor := by
    obtain ⟨c, hc⟩ := h
    refine ⟨c, ?_⟩
    rw [hc, Nat.mul_assoc, Nat.mul_div_cancel_left _ hpos]
  unfold dealOne
  split
  · exact hdiv
  · split
    · exact hdiv
    · exact (Nat.dvd_mul_left more factor).trans h

theorem dealAll_blocks : ∀ (primes : List ℕ) (d : Deal) (more : ℕ), (∀ prime ∈ primes, 0 < prime ∧ prime < 2 ^ 16) →
    primes.prod * more ∣ d.remfact → d.Small →
    (dealAll d primes).blocks = d.blocks ∧ more ∣ (dealAll d primes).remfact ∧ (dealAll d primes).Small := by
  intro primes
  induction primes with
  | nil =>
    intro d more _ hdvd hd
    rw [prod_nil, one_mul] at hdvd
    exact ⟨rfl, hdvd, hd⟩
  | cons prime primes ih =>
    intro d more hprimes hdvd hd
    obtain ⟨⟨hpos, hlt⟩, hrest⟩ := forall_mem_cons.mp hprimes
    rw [prod_cons, Nat.mul_assoc] at hdvd
    have hword : uword prime = prime := uword_of_lt hlt
    obtain ⟨hblocks, hmore, hsmall⟩ := ih (dealOne d prime) more hrest (dealOne_dvd hpos hdvd) (dealOne_small hd hpos)
    have hcons : dealAll d (prime :: primes) = dealAll (dealOne d prime) primes := by
      rw [dealAll, foldl_cons, hword]
      rfl
    rw [hcons]
    exact ⟨hblocks.trans (dealOne_blocks ((Nat.dvd_mul_right ..).trans hdvd)), hmore, hsmall⟩

def place (place : ℕ × ℕ) (factor : ℕ) : ℕ × ℕ :=
  if place.1 * factor < 256 then (place.1 * factor, place.2)
  else if place.2 * factor ≤ 16 ∧ place.2 * place.2 * factor * factor < place.1 then (place.1, place.2 * factor)
  else place

theorem dealOne_place (h : 256 ≤ d.remfact) (factor : ℕ) :
    ((dealOne d factor).trackSectors, (dealOne d factor).heads) = place (d.trackSectors, d.heads) factor := by
  unfold dealOne place
  by_cases ht : d.trackSectors * factor < 256
  · rw [if_pos ⟨ht, by omega⟩, if_pos ht]
  · rw [if_neg fun hc => ht hc.1, if_neg ht]
    split <;> rfl

theorem dealAll_place (hq : 256 ≤ q) : ∀ (primes : List ℕ) (d : Deal),
    (∀ prime ∈ primes, 0 < prime ∧ prime < 2 ^ 16) → primes.prod * q ∣ d.remfact → d.remfact ≠ 0 → d.Small →
    ((dealAll d primes).trackSectors, (dealAll d primes).heads) = primes.foldl place (d.trackSectors, d.heads) := by
  intro primes
  induction primes with
  | nil => exact fun _ _ _ _ _ => rfl
  | cons prime primes ih =>
    intro d hprimes hdvd hrem hd
    obtain ⟨⟨hpos, hlt⟩, hrest⟩ := forall_mem_cons.mp hprimes
    have hlarge : 256 ≤ d.remfact :=
      hq.trans (Nat.le_of_dvd (Nat.pos_of_ne_zero hrem) ((Nat.dvd_mul_left ..).trans hdvd))
    rw [prod_cons, Nat.mul_assoc] at hdvd
    have hrem' : (dealOne d prime).remfact ≠ 0 := by
      intro hzero
      have hblocks : (dealOne d prime).blocks = d.blocks := dealOne_blocks ((Nat.dvd_mul_right ..).trans hdvd)
      rw [Deal.blocks, hzero, Nat.zero_mul, Nat.zero_mul] at hblocks
      exact Nat.mul_ne_zero (Nat.mul_ne_zero hrem hd.headsPos.ne') hd.tracksPos.ne' hblocks.symm
    have hword : uword prime = prime := uword_of_lt hlt
    have hcons : dealAll d (prime :: primes) = dealAll (dealOne d prime) primes := by
      rw [dealAll, foldl_cons, hword]
      rfl
    rw [hcons, ih (dealOne d prime) hrest (dealOne_dvd hpos hdvd) hrem' (dealOne_small hd hpos), foldl_cons,
      dealOne_place hlarge]

/-- What the twos and threes of `s` come to, as far as it matters for a factor behind them. -/
def Placed (s : ℕ) (th : ℕ × ℕ) : Prop :=
  (s < 256 → th = (s, 1)) ∧
  (256 ≤ s → 86 ≤ th.1 ∧ th.1 ≤ 49 * th.2 * th.2 ∧
    (th.2 * 3 ≤ 16 ∧ th.2 * th.2 * 3 * 3 < th.1 ↔ s < 768 ∧ s ≠ 512) ∧
    (th.2 * 5 ≤ 16 ∧ th.2 * th.2 * 5 * 5 < th.1 ↔ s = 256 ∨ s = 729) ∧
    (s < 768 ∧ s ≠ 512 → th.1 * th.2 = s))

instance (s : ℕ) (th : ℕ × ℕ) : Decidable (Placed s th) := inferInstanceAs (Decidable (_ ∧ _))

theorem placed : ∀ a < 16, ∀ b < 11, 2 ^ a * 3 ^ b < 2 ^ 16 →
    Placed (2 ^ a * 3 ^ b) ((replicate a 2 ++ replicate b 3).foldl place (1, 1)) := by
  decide +kernel

theorem fits_iff {s r : ℕ} {th : ℕ × ℕ} (h : Placed s th) (hodd : r % 2 ≠ 0) (hone : r ≠ 1) :
    (th.1 * r < 256 ∨ th.2 * r ≤ 16 ∧ th.2 * th.2 * r * r < th.1 ↔ Fits s r) ∧ (Fits s r → th.1 * th.2 = s) := by
  obtain ⟨t, w⟩ := th
  by_cases hs : s < 256
  · cases h.1 hs
    have hsquare : r * r < s → r ≤ 16 := by
      intro hlt
      by_contra hgt
      have := Nat.mul_le_mul (not_le.mp hgt).le (not_le.mp hgt).le
      omega
    rw [Fits]
    constructor
    · rw [one_mul, one_mul, one_mul]
      constructor
      · rintro (hfit | ⟨-, hlt⟩)
        · exact .inl hfit
        · exact .inr (.inl ⟨hs, hlt⟩)
      · rintro (hfit | ⟨-, hlt⟩ | hrest | hrest)
        · exact .inl hfit
        · exact .inr ⟨hsquare hlt, hlt⟩
        · omega
        · omega
    · exact fun _ => Nat.mul_one s
  · obtain ⟨ht, hw, h3, h5, hall⟩ := h.2 (not_lt.mp hs)
    dsimp only at *
    have htracks : ¬t * r < 256 := by
      have := Nat.mul_le_mul ht (by omega : 3 ≤ r)
      omega
    have hnot : ¬s * r < 256 := by
      have := Nat.mul_le_mul (not_lt.mp hs) (by omega : 1 ≤ r)
      omega
    rw [Fits, or_iff_right htracks, or_iff_right hnot, or_iff_right fun hc => hs hc.1]
    obtain rfl | rfl | hr : r = 3 ∨ r = 5 ∨ 7 ≤ r := by omega
    · rw [h3]
      exact ⟨⟨fun hc => .inl ⟨rfl, not_lt.mp hs, hc⟩, by omega⟩, fun hc => hall (by omega)⟩
    · rw [h5]
      exact ⟨⟨fun hc => .inr ⟨rfl, hc⟩, by omega⟩, fun hc => hall (by omega)⟩
    · have hheads : ¬w * w * r * r < t := by
        have hfour : w * w * r * r = w * w * (r * r) := by ring
        have hmul := Nat.mul_le_mul_left (w * w) (Nat.mul_le_mul hr hr)
        have hseven : w * w * (7 * 7) = 49 * w * w := by ring
        omega
      exact ⟨⟨fun hc => absurd hc.2 hheads, by omega⟩, fun hc => by omega⟩

theorem two_three_prod (a b : ℕ) : (replicate a 2 ++ replicate b 3).prod = 2 ^ a * 3 ^ b := by
  rw [prod_append, prod_replicate, prod_replicate]

theorem two_three_small (a b : ℕ) : ∀ prime ∈ replicate a 2 ++ replicate b 3, 0 < prime ∧ prime < 2 ^ 16 := by
  intro prime hprime
  obtain hprime | hprime := mem_append.mp hprime
  · rw [eq_of_mem_replicate hprime]
    decide
  · rw [eq_of_mem_replicate hprime]
    decide

theorem dealOne_last {r s : ℕ} (hs : 0 < s) (hblocks : d.blocks = s * q) (hlarge : 256 ≤ d.remfact)
    (hplaced : Placed s (d.trackSectors, d.heads)) (hodd : r % 2 ≠ 0) :
    (dealOne d r).blocks = s * q ↔ r ∣ q ∨ ¬Fits s r := by
  by_cases hone : r = 1
  · subst hone
    rw [dealOne_blocks (one_dvd _)]
    exact iff_of_true hblocks (.inl (one_dvd q))
  · obtain ⟨hfits, hfull⟩ := fits_iff hplaced hodd hone
    dsimp only at hfits hfull
    by_cases hfit : Fits s r
    · -- tracks and heads hold the twos and threes, the rest is all that is left
      have hth := hfull hfit
      have hrem : d.remfact = q := by
        rw [Deal.blocks, Nat.mul_assoc, Nat.mul_comm d.heads, hth, Nat.mul_comm] at hblocks
        exact Nat.eq_of_mul_eq_mul_left hs hblocks
      have hdealt : (dealOne d r).blocks = s * (q / r * r) := by
        rw [dealOne, Deal.blocks, ← hth]
        by_cases ht : d.trackSectors * r < 256
        · rw [if_pos ⟨ht, by omega⟩, hrem]
          ring
        · rw [if_neg fun h => ht h.1, if_pos ((hfits.mpr hfit).resolve_left ht), hrem]
          ring
      rw [hdealt, or_iff_left (not_not.mpr hfit), Nat.dvd_iff_div_mul_eq]
      exact ⟨fun h => Nat.eq_of_mul_eq_mul_left hs h, fun h => by rw [h]⟩
    · have hnone : dealOne d r = d := by
        have hno := fun h => hfit (hfits.mp h)
        rw [dealOne, if_neg fun h => hno (.inl h.1), if_neg fun h => hno (.inr h)]
      rw [hnone]
      exact iff_of_true hblocks (.inr hfit)

theorem start_small (n : ℕ) : Deal.Small ⟨1, 1, n⟩ :=
  ⟨Nat.one_pos, (by decide : 1 < 256), Nat.one_pos, (by decide : 1 ≤ 16)⟩

theorem large_exact {a b : ℕ} (htwo : q % 2 ≠ 0) (hq : 2 ^ 16 ≤ q) (hlt : 2 ^ a * 3 ^ b * q < 2 ^ 32) :
    (dealAll ⟨1, 1, 2 ^ a * 3 ^ b * q⟩ (replicate a 2 ++ replicate b 3 ++ [q])).blocks = 2 ^ a * 3 ^ b * q ↔
      q % 2 ^ 16 ∣ q ∨ ¬Fits (2 ^ a * 3 ^ b) (q % 2 ^ 16) := by
  generalize hr : q % 2 ^ 16 = r
  have hodd : r % 2 ≠ 0 := by omega
  have hs : 2 ^ a * 3 ^ b < 2 ^ 16 := by
    by_contra hge
    have := Nat.mul_le_mul (not_lt.mp hge) hq
    omega
  have hstart := start_small (2 ^ a * 3 ^ b * q)
  have hdvd : (replicate a 2 ++ replicate b 3).prod * q ∣ 2 ^ a * 3 ^ b * q := by rw [two_three_prod]
  have hn : 2 ^ a * 3 ^ b * q ≠ 0 := Nat.mul_ne_zero (by positivity) (by omega)
  have hplaced : Placed (2 ^ a * 3 ^ b) ((replicate a 2 ++ replicate b 3).foldl place (1, 1)) := by
    have ha : 2 ^ a < 2 ^ 16 := (Nat.le_mul_of_pos_right _ (by positivity)).trans_lt hs
    have hb : 3 ^ b < 3 ^ 11 := ((Nat.le_mul_of_pos_left _ (by positivity)).trans_lt hs).trans (by decide)
    exact placed a ((Nat.pow_lt_pow_iff_right (by decide)).mp ha) b ((Nat.pow_lt_pow_iff_right (by decide)).mp hb) hs
  obtain ⟨hblocks, ⟨c, hc⟩, hsmall⟩ := dealAll_blocks _ ⟨1, 1, 2 ^ a * 3 ^ b * q⟩ q (two_three_small a b) hdvd hstart
  have hplace := dealAll_place (by omega : 256 ≤ q) _ ⟨1, 1, 2 ^ a * 3 ^ b * q⟩ (two_three_small a b) hdvd hn hstart
  have hlast : dealAll ⟨1, 1, 2 ^ a * 3 ^ b * q⟩ (replicate a 2 ++ replicate b 3 ++ [q]) =
      dealOne (dealAll ⟨1, 1, 2 ^ a * 3 ^ b * q⟩ (replicate a 2 ++ replicate b 3)) r := by
    rw [dealAll, foldl_append, ← hr]
    rfl
  rw [hlast]
  generalize dealAll ⟨1, 1, 2 ^ a * 3 ^ b * q⟩ (replicate a 2 ++ replicate b 3) = d at *
  rw [← hplace] at hplaced
  have hrem : d.remfact ≠ 0 := by
    intro hzero
    rw [Deal.blocks, hzero, Nat.zero_mul, Nat.zero_mul] at hblocks
    exact hn ((Nat.mul_one _).symm.trans (hblocks.symm ▸ (Nat.mul_one _).symm))
  have hlarge := Nat.le_of_dvd (Nat.pos_of_ne_zero hrem) ⟨c, hc⟩
  refine dealOne_last (by positivity) ?_ (by omega) hplaced hodd
  rw [hblocks, Deal.blocks, Nat.mul_one, Nat.mul_one]

end Neptune.FakeGeometry
