import Neptune.Spec.FakeGeometry

/-! The factors that `nFakeGeometry` finds: the twos, the threes, and all that is left as one. -/

namespace Neptune.FakeGeometry

open List Option Function

def Holds (primes count : ℕ → ℕ) (l : List (ℕ × ℕ)) : Prop :=
  ∀ i pc, l[i]? = some pc → primes i = pc.1 ∧ count i = pc.2

theorem Holds.nil (primes count : ℕ → ℕ) : Holds primes count [] := nofun

variable {a b prime q : ℕ} {count primes : ℕ → ℕ} {s s' : Search} {l : List (ℕ × ℕ)}

theorem Holds.congr {primes' count' : ℕ → ℕ} (h : Holds primes count l)
    (hp : ∀ i < l.length, primes' i = primes i) (hc : ∀ i < l.length, count' i = count i) : Holds primes' count' l := by
  intro i pc hi
  have hlt := (List.getElem?_eq_some_iff.mp hi).1
  rw [hp i hlt, hc i hlt]
  exact h i pc hi

theorem Holds.snoc (h : Holds primes count l) :
    Holds primes count (l ++ [(primes l.length, count l.length)]) := by
  intro i pc hi
  by_cases hlt : i < l.length
  · rw [List.getElem?_append_left hlt] at hi
    exact h i pc hi
  · have hle := (List.getElem?_eq_some_iff.mp hi).1
    rw [length_append, length_singleton] at hle
    obtain rfl : i = l.length := by omega
    rw [List.getElem?_concat_length] at hi
    cases hi
    exact ⟨rfl, rfl⟩

theorem Holds.push (h : Holds primes count l) (prime n : ℕ) :
    Holds (update primes l.length prime) (update count l.length n) (l ++ [(prime, n)]) := by
  have hsnoc := (h.congr (fun i hi => update_of_ne hi.ne prime primes)
    fun i hi => update_of_ne hi.ne n count).snoc
  rwa [update_self, update_self] at hsnoc

theorem rd_of_lt {i : ℕ} (h : i < 32) (array : ℕ → ℕ) : rd array i = some (array i) := if_pos h

theorem wr_of_lt {i : ℕ} (h : i < 32) (array : ℕ → ℕ) (v : ℕ) : wr array i v = some (update array i v) := if_pos h

theorem halve_spec (m : ℕ) (hm : m % 2 ≠ 0) : ∀ (a fuel : ℕ) (count : ℕ → ℕ), a < fuel → count 0 + a < 2 ^ 16 →
    halve fuel count (2 ^ a * m) = some (update count 0 (count 0 + a), m) := by
  intro a
  induction a with
  | zero =>
    intro fuel count hfuel _
    obtain ⟨fuel, rfl⟩ := Nat.exists_eq_succ_of_ne_zero (by omega : fuel ≠ 0)
    rw [pow_zero, one_mul, halve, if_neg hm, Nat.add_zero, update_eq_self]
  | succ a ih =>
    intro fuel count hfuel hcount
    obtain ⟨fuel, rfl⟩ := Nat.exists_eq_succ_of_ne_zero (by omega : fuel ≠ 0)
    have htwo : 2 ^ (a + 1) * m = 2 * (2 ^ a * m) := by rw [pow_succ, Nat.mul_comm (2 ^ a) 2, Nat.mul_assoc]
    have hone : uword (count 0 + 1) = count 0 + 1 := uword_of_lt (by omega)
    rw [htwo, halve, if_pos (Nat.mul_mod_right 2 _), Nat.mul_div_cancel_left _ (by decide), hone,
      ih fuel _ (by omega) (by rw [update_self]; omega), update_self, update_idem, Nat.add_assoc,
      Nat.add_comm 1 a]

theorem halve_zero (count : ℕ → ℕ) (fuel : ℕ) : halve fuel count 0 = none := by
  induction fuel generalizing count with
  | zero => rfl
  | succ fuel ih =>
    exact ih _

theorem searchStep_divides (h : s.remblks % s.curprime = 0) (hpos : s.curpos < 32)
    (hcount : s.count s.curpos + 1 < 2 ^ 16) : searchStep s = some
      ({ s with
        count := update s.count s.curpos (s.count s.curpos + 1)
        remblks := s.remblks / s.curprime }, false) := by
  rw [searchStep, if_neg (not_not.mpr h), rd_of_lt hpos]
  dsimp only [bind_eq_bind, bind_some]
  rw [wr_of_lt hpos, uword_of_lt hcount]
  rfl

theorem searchStep_breaks (h : s.remblks % s.curprime ≠ 0) (hsq : s.curprimesq ≤ s.remblks) :
    searchStep s = some (s, true) := by
  rw [searchStep, if_pos h, if_pos hsq]

theorem searchStep_next (h : s.remblks % s.curprime ≠ 0) (hsq : s.remblks < s.curprimesq)
    (hpos : s.curpos < 30) {rest : List ℕ} (htable : s.primetblptr = prime :: rest) :
    ∃ curpos count, curpos = (if s.count s.curpos ≠ 0 then s.curpos + 1 else s.curpos) ∧
      (∀ i < curpos, count i = s.count i) ∧ count curpos = 0 ∧
      searchStep s = some ({ s with
        primes := update s.primes curpos prime
        count := count
        curpos := curpos
        curprime := prime
        curprimesq := ulong (prime * prime)
        primetblptr := rest }, false) := by
  refine ⟨if s.count s.curpos ≠ 0 then s.curpos + 1 else s.curpos,
    if s.count s.curpos ≠ 0 then update s.count (s.curpos + 1) 0 else s.count, rfl, ?_⟩
  rw [searchStep, if_pos h, if_neg (not_le.mpr hsq), rd_of_lt (by omega)]
  dsimp only [bind_eq_bind, bind_some]
  rw [htable]
  by_cases hn : s.count s.curpos = 0
  · simp only [hn, ne_eq, not_true, if_false, false_and, nextPrime]
    refine ⟨fun _ _ => trivial, trivial, ?_⟩
    rw [wr_of_lt (by omega)]
    rfl
  · simp only [hn, ne_eq, not_false_eq_true, if_true, true_and]
    refine ⟨fun i hi => update_of_ne hi.ne .., update_self .., ?_⟩
    rw [wr_of_lt (by omega), bind_some, if_neg (by omega : ¬s.curpos + 1 = 31)]
    dsimp only [nextPrime]
    rw [wr_of_lt (by omega)]
    rfl

theorem search_breaks (h : searchStep s = some (s', true)) (fuel : ℕ) : search (fuel + 1) s = some s' := by
  rw [search, h]
  simp

theorem search_goesOn (h : searchStep s = some (s', false)) (hone : 1 < s'.remblks)
    (hprime : s'.curprime ≤ s'.remblks) (fuel : ℕ) : search (fuel + 1) s = search fuel s' := by
  rw [search, h]
  exact if_pos ⟨rfl, hone, hprime⟩

theorem search_ends (h : searchStep s = some (s', false)) (hone : s'.remblks ≤ 1) (fuel : ℕ) :
    search (fuel + 1) s = some s' := by
  rw [search, h]
  exact if_neg fun hb => absurd hb.2.1 (not_lt.mpr hone)

theorem search_threes (hq : 3 ≤ q) : ∀ (b fuel : ℕ) (s : Search), s.curprime = 3 → s.remblks = 3 ^ b * q →
    s.curpos < 32 → s.count s.curpos + b < 2 ^ 16 → search (fuel + b) s = search fuel
      { s with count := update s.count s.curpos (s.count s.curpos + b), remblks := q } := by
  intro b
  induction b with
  | zero =>
    intro fuel s _ hrem _ _
    rw [pow_zero, one_mul] at hrem
    rw [Nat.add_zero, Nat.add_zero, update_eq_self, ← hrem]
  | succ b ih =>
    intro fuel s hprime hrem hpos hcount
    have hthree : s.remblks = 3 * (3 ^ b * q) := by rw [hrem, pow_succ, Nat.mul_comm (3 ^ b) 3, Nat.mul_assoc]
    have hdiv : s.remblks / s.curprime = 3 ^ b * q := by
      rw [hprime, hthree]
      exact Nat.mul_div_cancel_left _ (by decide)
    have hle : 3 ≤ 3 ^ b * q := hq.trans (Nat.le_mul_of_pos_left q (Nat.pos_of_ne_zero (by positivity)))
    have hstep := searchStep_divides (by rw [hprime, hthree]; exact Nat.mul_mod_right ..) hpos (by omega)
    rw [hdiv] at hstep
    have hrest := ih fuel
      { s with
        count := update s.count s.curpos (s.count s.curpos + 1)
        remblks := 3 ^ b * q } hprime rfl hpos (by dsimp only; rw [update_self]; omega)
    dsimp only at hrest
    rw [update_self, update_idem, Nat.add_assoc, Nat.add_comm 1 b] at hrest
    rw [← Nat.add_assoc, search_goesOn hstep (by dsimp only; omega) (by dsimp only; omega), hrest]

def Search.filled (s : Search) : ℕ := if s.count s.curpos ≠ 0 then s.curpos + 1 else s.curpos

def Search.Has (s : Search) (l : List (ℕ × ℕ)) : Prop := Holds s.primes s.count l ∧ s.filled = l.length

theorem Search.Has.next (hs : s.Has l) (h : s.remblks % s.curprime ≠ 0)
    (hsq : s.remblks < s.curprimesq) (hpos : s.curpos < 30) {rest : List ℕ}
    (htable : s.primetblptr = prime :: rest) :
    ∃ s', searchStep s = some (s', false) ∧ s'.Has l ∧ s'.curpos = l.length ∧ s'.count l.length = 0 ∧
      s'.primes l.length = prime ∧ s'.remblks = s.remblks ∧ s'.curprime = prime ∧
      s'.curprimesq = ulong (prime * prime) ∧ s'.primetblptr = rest := by
  obtain ⟨curpos, count, hcurpos, hbelow, hzero, hstep⟩ := searchStep_next h hsq hpos htable
  obtain rfl : curpos = l.length := hcurpos.trans hs.2
  refine ⟨_, hstep, ⟨hs.1.congr (fun i hi => update_of_ne hi.ne ..) hbelow, ?_⟩, rfl, hzero,
    update_self .., rfl, rfl, rfl, rfl⟩
  exact if_neg (not_not.mpr hzero)

theorem Search.Has.last (hs : s.Has l) (hcurpos : s.curpos = l.length)
    (hlen : l.length < 32) (hzero : s.count l.length = 0) (hprimes : s.primes l.length = q) (hq : 0 < q)
    (hprime : s.curprime = q) (hrem : s.remblks = q) :
    ∃ s', (∀ fuel, search (fuel + 1) s = some s') ∧ s'.Has (l ++ [(q, 1)]) ∧ s'.remblks = 1 := by
  have hone : s.remblks / s.curprime = 1 := by rw [hprime, hrem, Nat.div_self hq]
  have hstep := searchStep_divides (by rw [hprime, hrem, Nat.mod_self]) (hcurpos ▸ hlen) (by rw [hcurpos, hzero]; decide)
  rw [hone, hcurpos, hzero] at hstep
  refine ⟨_, fun fuel => search_ends hstep le_rfl fuel, ⟨?_, ?_⟩, rfl⟩
  · have hpush := hs.1.push q 1
    rwa [← hprimes, update_eq_self, hprimes] at hpush
  · rw [length_append, length_singleton, Search.filled]
    have hone : update s.count l.length (0 + 1) l.length ≠ 0 := by
      rw [update_self]
      decide
    exact if_pos hone

theorem primeTable_eq : PrimeTable = 5 :: 7 :: PrimeTable.drop 2 := rfl

theorem search_rest (hs : s.Has l) (hprime : s.curprime = 3) (hsq : s.curprimesq = 9)
    (htable : s.primetblptr = PrimeTable) (hpos : s.curpos < 30) (hlen : l.length < 30) (htwo : s.remblks % 2 ≠ 0)
    (hthree : s.remblks % 3 ≠ 0) :
    ∃ s', (∀ fuel, search (fuel + 3) s = some s') ∧
      (s'.Has l ∧ s'.remblks = s.remblks ∧ s.remblks ≠ 5 ∧ s.remblks ≠ 7 ∨
        s'.Has (l ++ [(s.remblks, 1)]) ∧ s'.remblks = 1 ∧ (s.remblks = 5 ∨ s.remblks = 7)) := by
  by_cases hlarge : 9 ≤ s.remblks
  · exact ⟨s, fun fuel => search_breaks (searchStep_breaks (hprime ▸ hthree) (hsq ▸ hlarge)) (fuel + 2),
      .inl ⟨hs, rfl, by omega, by omega⟩⟩
  · obtain ⟨s₁, hstep, hs₁, hcurpos₁, hzero₁, hprimes₁, hrem₁, hprime₁, hsq₁, htable₁⟩ := hs.next (hprime ▸ hthree)
      (by omega) hpos (htable.trans primeTable_eq)
    obtain hq | hq | hq : s.remblks = 1 ∨ s.remblks = 5 ∨ s.remblks = 7 := by omega
    · exact ⟨s₁, fun fuel => search_ends hstep (by omega) (fuel + 2), .inl ⟨hs₁, hrem₁, by omega, by omega⟩⟩
    · obtain ⟨s₂, hrun, hs₂, hrem₂⟩ := hs₁.last hcurpos₁ (by omega) hzero₁ hprimes₁ (by decide) hprime₁ (hrem₁.trans hq)
      refine ⟨s₂, fun fuel => ?_, .inr ⟨hq ▸ hs₂, hrem₂, .inl hq⟩⟩
      rw [search_goesOn hstep (by omega) (by omega) (fuel + 2)]
      exact hrun (fuel + 1)
    · have hsq₁' : s₁.curprimesq = 25 := hsq₁
      obtain ⟨s₂, hstep₂, hs₂, hcurpos₂, hzero₂, hprimes₂, hrem₂, hprime₂, -, -⟩ := hs₁.next
        (by rw [hrem₁, hq, hprime₁]; decide) (by omega) (by omega) htable₁
      obtain ⟨s₃, hrun, hs₃, hrem₃⟩ := hs₂.last hcurpos₂ (by omega) hzero₂ hprimes₂ (by decide) hprime₂
        (hrem₂.trans (hrem₁.trans hq))
      refine ⟨s₃, fun fuel => ?_, .inr ⟨hq ▸ hs₃, hrem₃, .inr hq⟩⟩
      rw [search_goesOn hstep (by omega) (by omega) (fuel + 2), search_goesOn hstep₂ (by omega) (by omega) (fuel + 1)]
      exact hrun fuel

def power (prime n : ℕ) : List (ℕ × ℕ) := if n = 0 then [] else [(prime, n)]

section Threes

variable {primes count : ℕ → ℕ} {l : List (ℕ × ℕ)}

theorem has_threes (hl : Holds primes count l) (hzero : count l.length = 0) (hthree : primes l.length = 3) (b q : ℕ) :
    Search.Has ⟨primes, update count l.length b, l.length, q, 3, 9, PrimeTable⟩ (l ++ power 3 b) := by
  by_cases hb : b = 0
  · rw [hb, ← hzero, update_eq_self, power, if_pos hzero, append_nil]
    exact ⟨hl, if_neg (not_not.mpr hzero)⟩
  · have hpush := hl.push 3 b
    rw [← hthree, update_eq_self, hthree] at hpush
    have hfilled : update count l.length b l.length ≠ 0 := by rwa [update_self]
    rw [power, if_neg hb]
    refine ⟨hpush, ?_⟩
    rw [length_append, length_singleton]
    exact if_pos hfilled

theorem search_spec (hl : Holds primes count l) (hzero : count l.length = 0) (hprimes : primes l.length = 3)
    (hlen : l.length < 29) {b q : ℕ} (hb : b < 2 ^ 16) (htwo : q % 2 ≠ 0) (hthree : q % 3 ≠ 0) :
    ∃ s', (∀ fuel, search (fuel + 3 + b) ⟨primes, count, l.length, 3 ^ b * q, 3, 9, PrimeTable⟩ = some s') ∧
      (s'.Has (l ++ power 3 b) ∧ s'.remblks = q ∧ q ≠ 5 ∧ q ≠ 7 ∨
        s'.Has (l ++ power 3 b ++ [(q, 1)]) ∧ s'.remblks = 1 ∧ (q = 5 ∨ q = 7)) := by
  have hrun : ∀ (b q fuel : ℕ), 3 ≤ q → b < 2 ^ 16 →
      search (fuel + b) ⟨primes, count, l.length, 3 ^ b * q, 3, 9, PrimeTable⟩ =
        search fuel ⟨primes, update count l.length b, l.length, q, 3, 9, PrimeTable⟩ := by
    intro b q fuel hq hb
    have := search_threes hq b fuel ⟨primes, count, l.length, 3 ^ b * q, 3, 9, PrimeTable⟩ rfl rfl (by dsimp only; omega)
      (by dsimp only; omega)
    dsimp only at this
    rwa [hzero, Nat.zero_add] at this
  by_cases hone : q = 1 ∧ b ≠ 0
  · -- the last of the threes ends the search
    obtain ⟨rfl, hb0⟩ := hone
    obtain ⟨b, rfl⟩ := Nat.exists_eq_succ_of_ne_zero hb0
    have hstep : searchStep ⟨primes, update count l.length b, l.length, 3, 3, 9, PrimeTable⟩ = some
        (⟨primes, update count l.length (b + 1), l.length, 1, 3, 9, PrimeTable⟩, false) := by
      rw [searchStep_divides (Nat.mod_self 3) (by dsimp only; omega) (by dsimp only; rw [update_self]; omega)]
      dsimp only
      rw [update_self, update_idem]
    refine ⟨_, fun fuel => ?_, .inl ⟨has_threes hl hzero hprimes (b + 1) 1, rfl, by decide, by decide⟩⟩
    have := hrun b 3 (fuel + 3 + 1) le_rfl (by omega)
    rw [Nat.add_succ, ← Nat.succ_add, mul_one, pow_succ, this, search_ends hstep le_rfl]
  · have hlength : (l ++ power 3 b).length ≤ l.length + 1 := by
      rw [length_append, power]
      split <;> simp
    obtain ⟨s', hs', hrest⟩ := search_rest (has_threes hl hzero hprimes b q) rfl rfl rfl (by dsimp only; omega) (by omega)
      htwo hthree
    refine ⟨s', fun fuel => ?_, hrest.imp (fun h => ?_) fun h => ?_⟩
    · by_cases hb0 : b = 0
      · have hs := hs' fuel
        rw [hb0, ← hzero, update_eq_self] at hs
        rw [hb0, Nat.add_zero, pow_zero, one_mul]
        exact hs
      · rw [hrun b q (fuel + 3) (by omega) hb, hs']
    · exact h
    · exact h

end Threes

def pairs (a b q : ℕ) : List (ℕ × ℕ) := power 2 a ++ power 3 b ++ if q = 1 then [] else [(q, 1)]

def Factors.Are (f : Factors) (l : List (ℕ × ℕ)) : Prop := Holds f.primes f.count l ∧ f.curpos = l.length

theorem stubborn_iff (htwo : q % 2 ≠ 0) (hthree : q % 3 ≠ 0) :
    Stubborn (2 ^ a * 3 ^ b * q) ↔ a = 0 ∧ b = 0 ∧ q ≠ 5 ∧ q ≠ 7 := by
  constructor
  · rintro ⟨h2, h3, h5, h7⟩
    have ha : a = 0 := by
      by_contra h
      obtain ⟨a, rfl⟩ := Nat.exists_eq_succ_of_ne_zero h
      rw [pow_succ, Nat.mul_comm (2 ^ a), Nat.mul_assoc, Nat.mul_assoc, Nat.mul_mod_right] at h2
      exact h2 rfl
    have hb : b = 0 := by
      by_contra h
      obtain ⟨b, rfl⟩ := Nat.exists_eq_succ_of_ne_zero h
      rw [pow_succ, Nat.mul_comm (3 ^ b), Nat.mul_left_comm, Nat.mul_assoc, Nat.mul_mod_right] at h3
      exact h3 rfl
    subst ha hb
    rw [pow_zero, pow_zero, one_mul, one_mul] at h5 h7
    exact ⟨rfl, rfl, h5, h7⟩
  · rintro ⟨rfl, rfl, h5, h7⟩
    rw [pow_zero, pow_zero, one_mul, one_mul]
    exact ⟨htwo, hthree, h5, h7⟩

theorem power_length (prime n : ℕ) : (power prime n).length = if n ≠ 0 then 1 else 0 := by
  unfold power
  by_cases h : n = 0
  · rw [if_pos h, if_neg (not_not.mpr h)]
    rfl
  · rw [if_neg h, if_pos h]
    rfl

theorem power_length_le (prime n : ℕ) : (power prime n).length ≤ 1 := by
  rw [power_length]
  split <;> decide

theorem power_eq_nil {n : ℕ} : power prime n = [] ↔ n = 0 := by
  rw [← length_eq_zero_iff, power_length]
  split <;> omega

theorem holds_twos (primes count : ℕ → ℕ) (a : ℕ) :
    let l := power 2 a
    Holds (update (update primes 0 2) l.length 3) (update (update count 0 a) l.length 0) l := by
  by_cases ha : a = 0
  · rw [power_eq_nil.mpr ha]
    exact .nil _ _
  · have hpush := (Holds.nil primes count).push 2 a
    rw [power, if_neg ha]
    exact hpush.congr (fun i hi => update_of_ne hi.ne ..) fun i hi => update_of_ne hi.ne ..

theorem exponents_lt (hq : q % 2 ≠ 0) (hlt : 2 ^ a * 3 ^ b * q < 2 ^ 32) : a < 32 ∧ b < 32 := by
  have hpos : 0 < q := Nat.pos_of_ne_zero fun h => hq (by rw [h])
  have ha : 2 ^ a ≤ 2 ^ a * 3 ^ b * q := by
    rw [Nat.mul_assoc]
    exact Nat.le_mul_of_pos_right _ (by positivity)
  have hb : 2 ^ b ≤ 2 ^ a * 3 ^ b * q := by
    refine (Nat.pow_le_pow_left (by decide : 2 ≤ 3) b).trans ?_
    rw [Nat.mul_comm (2 ^ a), Nat.mul_assoc]
    exact Nat.le_mul_of_pos_right _ (by positivity)
  exact ⟨(Nat.pow_lt_pow_iff_right (by decide)).mp (ha.trans_lt hlt),
    (Nat.pow_lt_pow_iff_right (by decide)).mp (hb.trans_lt hlt)⟩

theorem odd_threes (hq : q % 2 ≠ 0) : (3 ^ b * q) % 2 ≠ 0 := by
  rw [Nat.mod_two_ne_zero] at hq ⊢
  exact Nat.odd_iff.mp ((Odd.pow (by decide)).mul (Nat.odd_iff.mpr hq))

section

variable (f : Factors) (htwo : q % 2 ≠ 0) (hthree : q % 3 ≠ 0) (hlt : 2 ^ a * 3 ^ b * q < 2 ^ 32)
include htwo hthree hlt

theorem factorise_search : ∃ s : Search,
      (∀ fuel ≥ 64, factorise fuel f (2 ^ a * 3 ^ b * q) =
        if 1 < s.remblks ∧ s.filled ≠ 0 then do
          let count ← wr s.count s.filled 1
          let primes ← wr s.primes s.filled s.remblks
          some ⟨primes, count, s.filled + 1⟩
        else some ⟨s.primes, s.count, s.filled⟩) ∧
      (s.Has (power 2 a ++ power 3 b) ∧ s.remblks = q ∧ q ≠ 5 ∧ q ≠ 7 ∨
        s.Has (power 2 a ++ power 3 b ++ [(q, 1)]) ∧ s.remblks = 1 ∧ (q = 5 ∨ q = 7)) := by
  obtain ⟨ha, hb⟩ := exponents_lt htwo hlt
  have hlength := power_length 2 a
  have hle := power_length_le 2 a
  obtain ⟨s, hsearch, hs⟩ := search_spec (holds_twos f.primes f.count a) (update_self ..)
    (update_self ..) (by omega) (by omega : b < 2 ^ 16) htwo hthree
  have hcurpos : s.curpos < 32 := by
    have hle3 := power_length_le 3 b
    have hfilled : s.curpos ≤ s.filled := by
      rw [Search.filled]
      split <;> omega
    obtain ⟨hhas, -⟩ | ⟨hhas, -⟩ := hs
    · have := hhas.2
      rw [length_append] at this
      omega
    · have := hhas.2
      rw [length_append, length_append, length_singleton] at this
      omega
  refine ⟨s, fun fuel hfuel => ?_, hs⟩
  have hhalve : halve fuel (update f.count 0 0) (2 ^ a * 3 ^ b * q) =
      some (update f.count 0 a, 3 ^ b * q) := by
    rw [Nat.mul_assoc, halve_spec _ (odd_threes htwo) a fuel _ (by omega) (by rw [update_self]; omega),
      update_self, update_idem, Nat.zero_add]
  obtain ⟨k, rfl⟩ : ∃ k, fuel = k + 3 + b := ⟨fuel - 3 - b, by omega⟩
  have hcur : (if update f.count 0 a 0 ≠ 0 then 1 else 0) = (power 2 a).length := by
    rw [hlength]
    simp
  rw [factorise, wr_of_lt (by decide), wr_of_lt (by decide)]
  dsimp only [bind_eq_bind, bind_some]
  rw [hhalve]
  dsimp only [bind_some]
  rw [hcur, wr_of_lt (by omega), wr_of_lt (by omega)]
  dsimp only [bind_some]
  rw [hsearch k, bind_some, rd_of_lt hcurpos]
  rfl

theorem factorise_spec : ∃ f', (∀ fuel ≥ 64, factorise fuel f (2 ^ a * 3 ^ b * q) = some f') ∧
      if Stubborn (2 ^ a * 3 ^ b * q) then f'.curpos = 0 else f'.Are (pairs a b q) := by
  obtain ⟨s, hrun, ⟨hhas, hrem, h5, h7⟩ | ⟨hhas, hrem, h57⟩⟩ := factorise_search f htwo hthree hlt
  · have hfull := hhas.2
    have hstubborn := stubborn_iff (a := a) (b := b) htwo hthree
    have hnil : (power 2 a ++ power 3 b).length = 0 ↔ Stubborn (2 ^ a * 3 ^ b * q) := by
      rw [hstubborn, length_eq_zero_iff, append_eq_nil_iff, power_eq_nil, power_eq_nil]
      exact ⟨fun h => ⟨h.1, h.2, h5, h7⟩, fun h => ⟨h.1, h.2.1⟩⟩
    by_cases hmore : 1 < s.remblks ∧ s.filled ≠ 0
    · -- what is left is one more factor
      have hwr : s.filled < 32 := by
        have := power_length_le 2 a
        have := power_length_le 3 b
        rw [hfull, length_append]
        omega
      refine ⟨⟨update s.primes s.filled s.remblks, update s.count s.filled 1, s.filled + 1⟩,
        fun fuel hfuel => ?_, ?_⟩
      · rw [hrun fuel hfuel, if_pos hmore, wr_of_lt hwr, wr_of_lt hwr]
        rfl
      · rw [if_neg fun h => hmore.2 (hfull.trans (hnil.mpr h)), pairs, if_neg (by omega), hfull, hrem]
        refine ⟨hhas.1.push q 1, ?_⟩
        have hlength : (power 2 a ++ power 3 b ++ [(q, 1)]).length = (power 2 a ++ power 3 b).length + 1 :=
          length_append
        exact hlength.symm
    · refine ⟨⟨s.primes, s.count, s.filled⟩, fun fuel hfuel => ?_, ?_⟩
      · rw [hrun fuel hfuel, if_neg hmore]
      · split
        · next h => exact hfull.trans (hnil.mpr h)
        · next h =>
          have hone : q = 1 := by
            have : s.filled ≠ 0 := fun hf => h (hnil.mp (hfull.symm.trans hf))
            omega
          rw [pairs, if_pos hone, append_nil]
          exact hhas
  · refine ⟨⟨s.primes, s.count, s.filled⟩, fun fuel hfuel => ?_, ?_⟩
    · rw [hrun fuel hfuel, if_neg fun h => absurd h.1 (by omega)]
    · rw [if_neg fun h => ?_]
      · rw [pairs, if_neg (by omega)]
        exact hhas
      · obtain ⟨-, -, h5, h7⟩ := (stubborn_iff htwo hthree).mp h
        omega

end

theorem factorise_zero (f : Factors) (fuel : ℕ) : factorise fuel f 0 = none := by
  rw [factorise, wr_of_lt (by decide), wr_of_lt (by decide)]
  dsimp only [bind_eq_bind, bind_some]
  rw [halve_zero]
  rfl

end Neptune.FakeGeometry
