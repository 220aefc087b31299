import Mathlib

/-! The levels of a feature unit, in 1/256 dB, and AHI's linear factors: neither way leaves 32 bits or the table, both
are monotone, and there and back again a level stays near. A result outside a `LONG` or a `ULONG` is none. -/

namespace Neptune.UsbAudio.Levels

def LONG (n : ℤ) : Option ℤ := if -2 ^ 31 ≤ n ∧ n < 2 ^ 31 then some n else none

def ULONG (n : ℤ) : Option ℕ := if 0 ≤ n ∧ n < 2 ^ 32 then some n.toNat else none

def volumeDb256Min : ℤ := -32767

def pow2Table : List ℕ :=
  [65536, 66971, 68438, 69936, 71468, 73032, 74632, 76266, 77936, 79642, 81386, 83169, 84990, 86851, 88752, 90696,
    92682, 94711, 96785, 98905, 101070, 103283, 105545, 107856, 110218, 112631, 115098, 117618, 120194, 122825, 125515,
    128263, 131072]

def nDbToFixed (db256 : ℤ) : Option ℤ := do
  let log2q16 := (← LONG (db256 * 43541)) / 1024
  let whole := log2q16 / 65536
  let frac := (log2q16 % 65536).toNat
  let idx := frac / 2048
  let rem := frac % 2048
  let low ← pow2Table[idx]?
  let high ← pow2Table[idx + 1]?
  let step ← ULONG (high - low)
  let part ← ULONG (step * rem)
  let mant ← ULONG (low + (part / 2048 : ℕ))
  if whole ≥ 15 then some 0x7fffffff
  else if whole ≥ 0 then LONG (mant * 2 ^ whole.toNat)
  else if whole < -17 then some 1
  else
    let mant := mant / 2 ^ (-whole).toNat
    some (if mant = 0 then 1 else mant : ℕ)

def tableStep (mant : ℕ) : ℕ → ℕ → Option ℕ
  | 0, _ => none
  | fuel + 1, idx => do
    let high ← pow2Table[idx + 1]?
    if mant ≥ high then tableStep mant fuel (idx + 1) else some idx

def scaled (g bit : ℕ) : Option ℕ := if bit ≥ 16 then some (g / 2 ^ (bit - 16)) else ULONG (g * 2 ^ (16 - bit))

def nFixedToDb (gain : ℤ) : Option ℤ :=
  if gain ≤ 0 then some volumeDb256Min
  else do
    let g := gain.toNat
    let bit := g.log2
    let mant ← scaled g bit
    let idx ← tableStep mant 33 0
    let low ← pow2Table[idx]?
    let high ← pow2Table[idx + 1]?
    let past ← ULONG (mant - low)
    let part ← ULONG (past * 2048)
    let step ← ULONG (high - low)
    let frac ← ULONG (idx * 2048 + (part / step : ℕ))
    let log2q16 ← LONG ((bit - 16) * 65536 + frac)
    return (← LONG (log2q16 * 1541)) / 65536

def entry (i : ℕ) : ℕ := pow2Table.getD i 0

theorem entry_step : ∀ i < 32, entry i + 1435 ≤ entry (i + 1) ∧ entry (i + 1) ≤ entry i + 2809 := by decide

theorem getElem?_entry {i : ℕ} (h : i < 33) : pow2Table[i]? = some (entry i) := by
  unfold entry
  rw [List.getD_eq_getElem?_getD]
  have hlt : i < pow2Table.length := h
  rw [List.getElem?_eq_getElem hlt]
  rfl

def curve (frac : ℕ) : ℕ :=
  entry (frac / 2048) * 2048 + (entry (frac / 2048 + 1) - entry (frac / 2048)) * (frac % 2048)

theorem step_frac {i r : ℕ} (h : r < 2048) : (i * 2048 + r) / 2048 = i ∧ (i * 2048 + r) % 2048 = r := by omega

theorem curve_eq {idx r : ℕ} (h : r ≤ 2048) (hidx : idx < 32) :
    curve (idx * 2048 + r) = entry idx * 2048 + (entry (idx + 1) - entry idx) * r := by
  unfold curve
  rcases h.lt_or_eq with hlt | rfl
  · rw [(step_frac hlt).1, (step_frac hlt).2]
  · obtain ⟨hstep, -⟩ := entry_step idx hidx
    have hnext := step_frac (i := idx + 1) (show 0 < 2048 by decide)
    rw [Nat.add_zero, Nat.add_one_mul] at hnext
    rw [hnext.1, hnext.2]
    omega

theorem curve_succ {f : ℕ} (h : f < 65536) : curve f + 1435 ≤ curve (f + 1) := by
  have hidx : f / 2048 < 32 := by omega
  have hr : f % 2048 < 2048 := Nat.mod_lt _ (by decide)
  have hf : f = f / 2048 * 2048 + f % 2048 := by omega
  have hcurve := curve_eq hr.le hidx
  have hnext := curve_eq (r := f % 2048 + 1) hr hidx
  rw [← Nat.add_assoc, ← hf, Nat.mul_add] at hnext
  rw [← hf] at hcurve
  obtain ⟨hstep, -⟩ := entry_step (f / 2048) hidx
  omega

theorem curve_add {f f' : ℕ} (h : f ≤ f') (h' : f' ≤ 65536) : curve f + 1435 * (f' - f) ≤ curve f' := by
  induction f', h using Nat.le_induction with
  | base => simp
  | succ f' h ih =>
    have hstep := curve_succ (show f' < 65536 by omega)
    omega

theorem lt_of_curve {f f' : ℕ} (h : curve f < curve f') (hf : f ≤ 65536) : f < f' := by
  by_contra hle
  have := curve_add (not_lt.mp hle) hf
  omega

def mantOf (frac : ℕ) : ℕ := curve frac / 2048

theorem mantOf_eq (f : ℕ) : mantOf f =
    entry (f / 2048) + (entry (f / 2048 + 1) - entry (f / 2048)) * (f % 2048) / 2048 := by
  unfold mantOf curve
  rw [Nat.add_comm, Nat.add_mul_div_right _ _ (by decide), Nat.add_comm]

theorem mantOf_bounds {f : ℕ} (h : f < 65536) : 65536 ≤ mantOf f ∧ mantOf f < 131072 := by
  have hlow := curve_add (Nat.zero_le f) h.le
  have hhigh := curve_add h.le le_rfl
  have h0 : curve 0 = 65536 * 2048 := by decide
  have h1 : curve 65536 = 131072 * 2048 := by decide
  unfold mantOf
  omega

theorem tableStep_spec {mant : ℕ} (hlt : mant < 131072) :
    ∀ fuel idx, idx + fuel = 33 → idx < 32 → entry idx ≤ mant →
      ∃ i < 32, tableStep mant fuel idx = some i ∧ entry i ≤ mant ∧ mant < entry (i + 1) := by
  intro fuel
  induction fuel with
  | zero => intro idx hfuel hidx; omega
  | succ fuel ih =>
    intro idx hfuel hidx hle
    unfold tableStep
    rw [getElem?_entry (by omega)]
    dsimp only [Option.bind_eq_bind, Option.bind_some]
    by_cases hstep : mant ≥ entry (idx + 1)
    · rw [if_pos hstep]
      refine ih (idx + 1) (by omega) ?_ hstep
      by_contra hno
      rw [show idx = 31 by omega] at hstep
      exact absurd hlt (not_lt.mpr hstep)
    · rw [if_neg hstep]
      exact ⟨idx, hidx, rfl, hle, not_le.mp hstep⟩

/-- The fraction that is found of a mantissa is the last one whose point of the curve is not above it. -/
theorem frac_spec {mant idx frac : ℕ} (hidx : idx < 32) (hlow : entry idx ≤ mant) (hhigh : mant < entry (idx + 1))
    (hfrac : frac = idx * 2048 + (mant - entry idx) * 2048 / (entry (idx + 1) - entry idx)) :
    frac < 65536 ∧ curve frac ≤ mant * 2048 ∧ mant * 2048 < curve (frac + 1) := by
  subst hfrac
  generalize hr : (mant - entry idx) * 2048 / (entry (idx + 1) - entry idx) = r
  have hpos : 0 < entry (idx + 1) - entry idx := by omega
  have hlt : r < 2048 := by
    rw [← hr, Nat.div_lt_iff_lt_mul hpos, Nat.mul_comm 2048]
    exact Nat.mul_lt_mul_of_pos_right (by omega) (by decide)
  have hle : (entry (idx + 1) - entry idx) * r ≤ (mant - entry idx) * 2048 := by
    rw [← hr]
    exact Nat.mul_div_le ..
  have hgt : (mant - entry idx) * 2048 < (entry (idx + 1) - entry idx) * (r + 1) := by
    rw [← hr]
    exact Nat.lt_mul_div_succ _ hpos
  rw [curve_eq hlt.le hidx, Nat.add_assoc, curve_eq (r := r + 1) hlt hidx]
  omega

theorem LONG_eq {n : ℤ} (h : -2 ^ 31 ≤ n) (h' : n < 2 ^ 31) : LONG n = some n := if_pos ⟨h, h'⟩

theorem ULONG_eq {n : ℕ} (h : n < 2 ^ 32) : ULONG n = some n := if_pos ⟨by omega, by omega⟩

def gainOf (whole : ℤ) (frac : ℕ) : ℕ :=
  if whole ≥ 15 then 0x7fffffff
  else if whole < -17 then 1
  else max 1 (mantOf frac * 2 ^ (whole + 17).toNat / 2 ^ 17)

def log2Of (db256 : ℤ) : ℤ := db256 * 43541 / 1024

theorem scale_eq (w : ℤ) {f : ℕ} (hf : f < 65536) :
    (if w ≥ 15 then some 0x7fffffff
    else if w ≥ 0 then LONG (mantOf f * 2 ^ w.toNat)
    else if w < -17 then some 1
    else some ((if mantOf f / 2 ^ (-w).toNat = 0 then 1 else mantOf f / 2 ^ (-w).toNat : ℕ) : ℤ)) =
      some (gainOf w f : ℤ) := by
  obtain ⟨hm, hm'⟩ := mantOf_bounds hf
  unfold gainOf
  by_cases h15 : w ≥ 15
  · simp only [if_pos h15, Nat.cast_ofNat]
  · rw [if_neg h15, if_neg h15]
    by_cases h0 : w ≥ 0
    · have hpow : 2 ^ w.toNat ≤ 2 ^ 14 := Nat.pow_le_pow_right (by decide) (by omega)
      have hprod : mantOf f * 2 ^ w.toNat ≤ 131071 * 2 ^ 14 := Nat.mul_le_mul (by omega) hpow
      have hone : 1 * 1 ≤ mantOf f * 2 ^ w.toNat := Nat.mul_le_mul (by omega) Nat.one_le_two_pow
      have hcast : (mantOf f : ℤ) * 2 ^ w.toNat = (mantOf f * 2 ^ w.toNat : ℕ) := by push_cast; rfl
      rw [if_pos h0, if_neg (by omega), show (w + 17).toNat = w.toNat + 17 by omega, Nat.pow_add, ← Nat.mul_assoc,
        Nat.mul_div_cancel _ (by decide), max_eq_right (by omega), hcast, LONG_eq (by omega) (by omega)]
    · rw [if_neg h0]
      by_cases hsmall : w < -17
      · simp only [if_pos hsmall, Nat.cast_one]
      · rw [if_neg hsmall, if_neg hsmall]
        have hpow : 2 ^ 17 = 2 ^ (-w).toNat * 2 ^ (w + 17).toNat := by
          rw [← Nat.pow_add]
          congr 1
          omega
        rw [hpow, Nat.mul_div_mul_right _ _ (Nat.two_pow_pos _)]
        split
        · next hz => rw [hz, max_eq_left (by decide)]
        · next hz => rw [max_eq_right (Nat.one_le_iff_ne_zero.mpr hz)]

theorem nDbToFixed_eq {d : ℤ} (h : -2 ^ 15 ≤ d) (h' : d < 2 ^ 15) :
    nDbToFixed d = some (gainOf (log2Of d / 65536) (log2Of d % 65536).toNat : ℤ) := by
  unfold nDbToFixed
  rw [LONG_eq (by omega) (by omega)]
  simp only [Option.bind_eq_bind, Option.bind_some]
  unfold log2Of
  have hf : (d * 43541 / 1024 % 65536).toNat < 65536 := by omega
  generalize d * 43541 / 1024 / 65536 = w
  generalize (d * 43541 / 1024 % 65536).toNat = f at hf
  have hidx : f / 2048 < 32 := by omega
  have hstep := entry_step _ hidx
  have hm := (mantOf_bounds hf).2
  have hscale := scale_eq w hf
  rw [getElem?_entry (by omega), getElem?_entry (by omega), ← hscale]
  rw [mantOf_eq] at hm ⊢
  generalize entry (f / 2048) = low at hstep hm
  generalize entry (f / 2048 + 1) = high at hstep hm
  obtain ⟨step, rfl⟩ := Nat.le.dest (show low ≤ high by omega)
  rw [Nat.add_sub_cancel_left] at hm ⊢
  have hsub : ((low + step : ℕ) : ℤ) - low = step := by omega
  rw [Option.bind_some, Option.bind_some, hsub, ULONG_eq (by omega), Option.bind_some, ← Nat.cast_mul,
    ULONG_eq (by omega), Option.bind_some, ← Nat.cast_add, ULONG_eq (by omega), Option.bind_some]

theorem mantOf_mono {f f' : ℕ} (h : f ≤ f') (h' : f' ≤ 65536) : mantOf f ≤ mantOf f' :=
  Nat.div_le_div_right ((Nat.le_add_right _ _).trans (curve_add h h'))

theorem gainOf_pos (w : ℤ) (f : ℕ) : 0 < gainOf w f := by
  unfold gainOf
  split
  · decide
  · split
    · decide
    · exact Nat.lt_of_lt_of_le Nat.one_pos (le_max_left ..)

/-- A fraction is less than a doubling. -/
theorem gainOf_mono {w w' : ℤ} {f f' : ℕ} (hf : f < 65536) (hf' : f' < 65536) (hw : w ≤ w') (h : w = w' → f ≤ f') :
    gainOf w f ≤ gainOf w' f' := by
  have hpos := gainOf_pos w' f'
  obtain ⟨hm, hm'⟩ := mantOf_bounds hf
  unfold gainOf at hpos ⊢
  by_cases h15 : w' ≥ 15
  · split
    · exact le_rfl
    · split
      · decide
      · have hpow : 2 ^ (w + 17).toNat ≤ 2 ^ 31 := Nat.pow_le_pow_right (by decide) (by omega)
        have hprod : mantOf f * 2 ^ (w + 17).toNat ≤ 131071 * 2 ^ 31 := Nat.mul_le_mul (by omega) hpow
        exact max_le (by decide) (by omega)
  · rw [if_neg h15] at hpos ⊢
    rw [if_neg (by omega)]
    by_cases hsmall : w < -17
    · rw [if_pos hsmall]
      exact hpos
    · rw [if_neg hsmall, if_neg (by omega)]
      refine max_le_max le_rfl (Nat.div_le_div_right ?_)
      rcases hw.lt_or_eq with hlt | rfl
      · have hpow : 2 * 2 ^ (w + 17).toNat ≤ 2 ^ (w' + 17).toNat := by
          rw [← Nat.pow_succ']
          exact Nat.pow_le_pow_right (by decide) (by omega)
        calc mantOf f * 2 ^ (w + 17).toNat ≤ 131072 * 2 ^ (w + 17).toNat := Nat.mul_le_mul_right _ hm'.le
          _ = 65536 * (2 * 2 ^ (w + 17).toNat) := by rw [← Nat.mul_assoc]
          _ ≤ mantOf f' * 2 ^ (w' + 17).toNat := Nat.mul_le_mul (mantOf_bounds hf').1 hpow
      · exact Nat.mul_le_mul_right _ (mantOf_mono (h rfl) hf'.le)

def mantissa (g : ℕ) : ℕ := if g.log2 ≥ 16 then g / 2 ^ (g.log2 - 16) else g * 2 ^ (16 - g.log2)

theorem mantissa_bounds {g : ℕ} (h : g ≠ 0) : 65536 ≤ mantissa g ∧ mantissa g < 131072 := by
  have hle := Nat.log2_self_le h
  have hlt := @Nat.lt_log2_self g
  unfold mantissa
  split
  · next hbit =>
    rw [Nat.le_div_iff_mul_le (Nat.two_pow_pos _), Nat.div_lt_iff_lt_mul (Nat.two_pow_pos _),
      show 65536 = 2 ^ 16 from rfl, show 131072 = 2 ^ 17 from rfl, ← Nat.pow_add, ← Nat.pow_add,
      show 16 + (g.log2 - 16) = g.log2 by omega, show 17 + (g.log2 - 16) = g.log2 + 1 by omega]
    exact ⟨hle, hlt⟩
  · next hbit =>
    have hscale := Nat.mul_le_mul_right (2 ^ (16 - g.log2)) hle
    have hscale' := Nat.mul_lt_mul_of_pos_right hlt (Nat.two_pow_pos (16 - g.log2))
    rw [← Nat.pow_add] at hscale hscale'
    rw [show g.log2 + (16 - g.log2) = 16 by omega] at hscale
    rw [show g.log2 + 1 + (16 - g.log2) = 17 by omega] at hscale'
    exact ⟨hscale, hscale'⟩

def levelOf (bit frac : ℕ) : ℤ := (((bit : ℤ) - 16) * 65536 + frac) * 1541 / 65536

theorem nFixedToDb_spec {g : ℕ} (h0 : g ≠ 0) (h : g < 2 ^ 31) : ∃ f < 65536, nFixedToDb g = some (levelOf g.log2 f) ∧
    curve f ≤ mantissa g * 2048 ∧ mantissa g * 2048 < curve (f + 1) := by
  obtain ⟨hm, hm'⟩ := mantissa_bounds h0
  have hbit : g.log2 < 31 := (Nat.log2_lt h0).mpr h
  obtain ⟨idx, hidx, hstep, hlow, hhigh⟩ := tableStep_spec hm' 33 0 rfl (by decide) hm
  obtain ⟨hf, hcurve, hcurve'⟩ := frac_spec hidx hlow hhigh rfl
  refine ⟨_, hf, ?_, hcurve, hcurve'⟩
  have hmant : scaled g g.log2 = some (mantissa g) := by
    unfold mantissa at hm' ⊢
    unfold scaled
    split
    · rfl
    · next hno =>
      rw [if_neg hno] at hm'
      have hcast : (g : ℤ) * 2 ^ (16 - g.log2) = (g * 2 ^ (16 - g.log2) : ℕ) := by push_cast; rfl
      rw [hcast, ULONG_eq (by omega)]
  have hentry := entry_step idx hidx
  unfold nFixedToDb levelOf
  rw [if_neg (by omega)]
  dsimp only [Option.bind_eq_bind]
  rw [Int.toNat_natCast, hmant, Option.bind_some, hstep, Option.bind_some, getElem?_entry (by omega),
    getElem?_entry (by omega), Option.bind_some, Option.bind_some]
  clear hcurve hcurve' hstep hmant
  generalize g.log2 = bit at hbit
  generalize entry idx = low at hf hlow hentry
  generalize entry (idx + 1) = high at hf hhigh hentry
  obtain ⟨past, hpast⟩ := Nat.le.dest hlow
  obtain ⟨step, rfl⟩ := Nat.le.dest (show low ≤ high by omega)
  rw [← hpast, Nat.add_sub_cancel_left, Nat.add_sub_cancel_left] at hf ⊢
  have hlt : past < 2 ^ 32 ∧ past * 2048 < 2 ^ 32 ∧ step < 2 ^ 32 := by
    omega
  have hpast' : (past : ℤ) * 2048 = (past * 2048 : ℕ) := by push_cast; rfl
  rw [Nat.cast_add, Nat.cast_add, add_sub_cancel_left, add_sub_cancel_left, ULONG_eq hlt.1, Option.bind_some, hpast',
    ULONG_eq hlt.2.1, Option.bind_some, ULONG_eq hlt.2.2, Option.bind_some]
  generalize past * 2048 / step = q at hf
  have hidx' : (idx : ℤ) * 2048 + q = (idx * 2048 + q : ℕ) := by push_cast; rfl
  rw [hidx', ULONG_eq (by omega), Option.bind_some, LONG_eq (by omega) (by omega), Option.bind_some,
    LONG_eq (by omega) (by omega), Option.bind_some]
  rfl

theorem gainOf_lt (w : ℤ) {f : ℕ} (hf : f < 65536) : gainOf w f < 2 ^ 31 := by
  by_cases hw : w ≤ 15
  · have hle := gainOf_mono hf hf hw fun _ => le_rfl
    rw [show gainOf 15 f = 0x7fffffff from if_pos le_rfl] at hle
    omega
  · unfold gainOf
    rw [if_pos (by omega)]
    decide

theorem mantissa_mono {g g' : ℕ} (h : g ≤ g') (hbit : g.log2 = g'.log2) : mantissa g ≤ mantissa g' := by
  unfold mantissa
  rw [hbit]
  split
  · exact Nat.div_le_div_right h
  · exact Nat.mul_le_mul_right _ h

theorem nFixedToDb_mono {a b : ℤ} (h : a ≤ b) (hb : b < 2 ^ 31) :
    ∃ x y, nFixedToDb a = some x ∧ nFixedToDb b = some y ∧ x ≤ y := by
  by_cases hb0 : b ≤ 0
  · exact ⟨_, _, if_pos (h.trans hb0), if_pos hb0, le_rfl⟩
  · obtain ⟨g', rfl⟩ := Int.eq_ofNat_of_zero_le (show 0 ≤ b by omega)
    obtain ⟨f', hf', hy, -, hcurve'⟩ := nFixedToDb_spec (g := g') (by omega) (by omega)
    by_cases ha0 : a ≤ 0
    · refine ⟨_, _, if_pos ha0, hy, ?_⟩
      unfold volumeDb256Min levelOf
      omega
    · obtain ⟨g, rfl⟩ := Int.eq_ofNat_of_zero_le (show 0 ≤ a by omega)
      obtain ⟨f, hf, hx, hcurve, -⟩ := nFixedToDb_spec (g := g) (by omega) (by omega)
      have hbit : g.log2 ≤ g'.log2 := (Nat.le_log2 (by omega)).mpr ((Nat.log2_self_le (by omega)).trans (by omega))
      have hle : g.log2 = g'.log2 → f < f' + 1 := fun heq =>
        lt_of_curve (hcurve.trans_lt ((Nat.mul_le_mul_right _ (mantissa_mono (by omega) heq)).trans_lt hcurve')) hf.le
      refine ⟨_, _, hx, hy, ?_⟩
      unfold levelOf
      generalize g.log2 = bit at hbit hle
      generalize g'.log2 = bit' at hbit hle
      omega

/-- The mantissa of a factor is short of the one it was made with by what was shifted out. -/
theorem mantissa_gainOf {w : ℤ} {f : ℕ} (hf : f < 65536) (hlow : 256 ≤ gainOf w f) (hhigh : gainOf w f < 0x7fffffff) :
    w < 15 ∧ ((gainOf w f).log2 : ℤ) - 16 = w ∧ mantissa (gainOf w f) ≤ mantOf f ∧
      mantOf f < mantissa (gainOf w f) + if 65536 ≤ gainOf w f then 1 else 256 := by
  obtain ⟨hm, hm'⟩ := mantOf_bounds hf
  have h15 : w < 15 := by
    by_contra hno
    unfold gainOf at hhigh
    rw [if_pos (not_lt.mp hno)] at hhigh
    exact absurd hhigh (by decide)
  have hsmall : ¬w < -17 := by
    intro hsmall
    unfold gainOf at hlow
    rw [if_neg (not_le.mpr h15), if_pos hsmall] at hlow
    exact absurd hlow (by decide)
  have hg : gainOf w f = mantOf f * 2 ^ (w + 17).toNat / 2 ^ 17 := by
    unfold gainOf at hlow ⊢
    rw [if_neg (not_le.mpr h15), if_neg hsmall] at hlow ⊢
    omega
  rw [hg] at hlow ⊢
  obtain ⟨E, rfl⟩ : ∃ E : ℕ, w = E - 17 := ⟨(w + 17).toNat, by omega⟩
  rw [show ((E : ℤ) - 17 + 17).toNat = E by omega] at hlow ⊢
  have hlt : mantOf f * 2 ^ E / 2 ^ 17 < 2 ^ E := by
    rw [Nat.div_lt_iff_lt_mul (by decide), Nat.mul_comm (2 ^ E)]
    exact Nat.mul_lt_mul_of_pos_right hm' (Nat.two_pow_pos E)
  have hE : 8 < E := (Nat.pow_lt_pow_iff_right (show 1 < 2 by decide)).mp (hlow.trans_lt hlt)
  have hle : 2 ^ (E - 1) ≤ mantOf f * 2 ^ E / 2 ^ 17 := by
    rw [Nat.le_div_iff_mul_le (by decide), ← Nat.pow_add, show E - 1 + 17 = 16 + E by omega, Nat.pow_add]
    exact Nat.mul_le_mul_right _ hm
  have hbit : (mantOf f * 2 ^ E / 2 ^ 17).log2 = E - 1 :=
    (Nat.log2_eq_iff (by omega)).mpr ⟨hle, by rwa [show E - 1 + 1 = E by omega]⟩
  refine ⟨h15, by omega, ?_⟩
  unfold mantissa
  rw [hbit]
  by_cases h17 : 17 ≤ E
  · have hscale : mantOf f * 2 ^ E / 2 ^ 17 = mantOf f * 2 ^ (E - 17) := by
      have hsplit := Nat.pow_add 2 (E - 17) 17
      rw [show E - 17 + 17 = E by omega] at hsplit
      rw [hsplit, ← Nat.mul_assoc, Nat.mul_div_cancel _ (by decide)]
    have hbig : 65536 ≤ mantOf f * 2 ^ E / 2 ^ 17 :=
      (Nat.pow_le_pow_right (by decide) (show 16 ≤ E - 1 by omega)).trans hle
    rw [if_pos (by omega), if_pos hbig, hscale, show E - 1 - 16 = E - 17 by omega,
      Nat.mul_div_cancel _ (Nat.two_pow_pos _)]
    omega
  · have hscale : mantOf f * 2 ^ E / 2 ^ 17 = mantOf f / 2 ^ (17 - E) := by
      have hsplit := Nat.pow_add 2 (17 - E) E
      rw [show 17 - E + E = 17 by omega] at hsplit
      rw [hsplit, Nat.mul_div_mul_right _ _ (Nat.two_pow_pos E)]
    have hsmall : ¬65536 ≤ mantOf f * 2 ^ E / 2 ^ 17 :=
      not_le.mpr (hlt.trans_le (Nat.pow_le_pow_right (by decide) (show E ≤ 16 by omega)))
    have hpow : 2 ^ (17 - E) ≤ 256 := Nat.pow_le_pow_right (by decide) (show 17 - E ≤ 8 by omega)
    have hdiv := Nat.div_add_mod (mantOf f) (2 ^ (17 - E))
    rw [if_neg (by omega), if_neg hsmall, hscale, show 16 - (E - 1) = 17 - E by omega, Nat.mul_comm]
    omega

theorem nDbToFixed_mono {d d' : ℤ} {g g' : ℕ} (h : -2 ^ 15 ≤ d) (hle : d ≤ d') (h' : d' < 2 ^ 15)
    (hg : nDbToFixed d = some (g : ℤ)) (hg' : nDbToFixed d' = some (g' : ℤ)) : g ≤ g' := by
  rw [nDbToFixed_eq h (by omega), Option.some_inj, Nat.cast_inj] at hg
  rw [nDbToFixed_eq (by omega) h', Option.some_inj, Nat.cast_inj] at hg'
  rw [← hg, ← hg']
  have hlog : log2Of d ≤ log2Of d' := by
    unfold log2Of
    omega
  exact gainOf_mono (by omega) (by omega) (by omega) fun _ => by omega

/-- There and back again, a level comes out lower by what the shifts cut off. -/
theorem near {d : ℤ} (h : -2 ^ 15 ≤ d) (h' : d < 2 ^ 15) : ∃ g : ℕ, nDbToFixed d = some (g : ℤ) ∧ 0 < g ∧ g < 2 ^ 31 ∧
    ∃ e, nFixedToDb g = some e ∧ (0x10000 ≤ g → g < 0x7fffffff → e ≤ d + 8 ∧ d ≤ e + 8) ∧
      (256 ≤ g → g < 0x10000 → e ≤ d + 16 ∧ d ≤ e + 16) := by
  have hf : (log2Of d % 65536).toNat < 65536 := by omega
  obtain ⟨f, hlog⟩ : ∃ f, (log2Of d % 65536).toNat = f := ⟨_, rfl⟩
  rw [hlog] at hf
  refine ⟨_, nDbToFixed_eq h h', gainOf_pos _ _, gainOf_lt _ (hlog ▸ hf), ?_⟩
  rw [hlog]
  have hpos := gainOf_pos (log2Of d / 65536) f
  have hlt := gainOf_lt (log2Of d / 65536) hf
  obtain ⟨F, hF, he, hcurve, hcurve'⟩ := nFixedToDb_spec hpos.ne' hlt
  refine ⟨_, he, ?_⟩
  by_cases hin : 256 ≤ gainOf (log2Of d / 65536) f ∧ gainOf (log2Of d / 65536) f < 0x7fffffff
  · obtain ⟨h15, hbit, hle, hshort⟩ := mantissa_gainOf hf hin.1 hin.2
    have hmant : mantOf f * 2048 ≤ curve f ∧ curve f < mantOf f * 2048 + 2048 := by
      unfold mantOf
      omega
    have hFf : F ≤ f := by
      by_contra hlt
      have := curve_add (not_le.mp hlt).le hF.le
      omega
    have hfF : F + 1 ≤ f → curve (F + 1) + 1435 * (f - (F + 1)) ≤ curve f := fun h => curve_add h hf.le
    have hd : 1024 * log2Of d ≤ d * 43541 ∧ d * 43541 < 1024 * log2Of d + 1024 := by
      unfold log2Of
      omega
    have hlevel : levelOf (gainOf (log2Of d / 65536) f).log2 F = (log2Of d / 65536 * 65536 + F) * 1541 / 65536 := by
      unfold levelOf
      rw [hbit]
    generalize mantissa (gainOf (log2Of d / 65536) f) = mant at *
    generalize curve F = c at *
    generalize curve (F + 1) = c' at *
    generalize curve f = c'' at *
    generalize mantOf f = m at *
    generalize gainOf (log2Of d / 65536) f = g at *
    generalize log2Of d = x at *
    by_cases hbig : 65536 ≤ g
    · rw [if_pos hbig] at hshort
      refine ⟨fun _ _ => ?_, fun _ h => absurd hbig (not_le.mpr h)⟩
      omega
    · rw [if_neg hbig] at hshort
      refine ⟨fun h => absurd h hbig, fun _ _ => ?_⟩
      omega
  · exact ⟨fun h1 h2 => absurd ⟨by omega, h2⟩ hin, fun h1 h2 => absurd ⟨h1, by omega⟩ hin⟩

structure NepAudioUnit where
  volCtrlMask : ℕ
  minVolDb : Int16
  maxVolDb : Int16
  minVolume : ℤ
  maxVolume : ℤ

def nFindLogVolume (nau : NepAudioUnit) : Option NepAudioUnit := do
  let nau :=
    if nau.minVolDb > nau.maxVolDb then { nau with minVolDb := nau.maxVolDb, maxVolDb := nau.minVolDb } else nau
  return { nau with
    minVolume := ← nDbToFixed nau.minVolDb.toInt
    maxVolume := ← nDbToFixed nau.maxVolDb.toInt }

def fuChannels : ℕ := 3

/-- The Volume Controls that are set for a level, and `wVolume` of each: with a master Control the channels get 0 dB. -/
def volumes (nau : NepAudioUnit) (db : ℤ) : List (ℕ × List UInt8) :=
  ((List.range fuChannels).filter fun chan => nau.volCtrlMask.testBit chan).map fun chan =>
    let level := if nau.volCtrlMask.testBit 0 ∧ chan ≠ 0 then 0 else db
    (chan, [UInt8.ofInt level, UInt8.ofInt (level / 256)])

def nSetVolume (nau : NepAudioUnit) (gain : ℤ) : Option (List (ℕ × List UInt8)) := do
  let db ← nFixedToDb gain
  let db :=
    if db < nau.minVolDb.toInt then nau.minVolDb.toInt
    else if db > nau.maxVolDb.toInt then nau.maxVolDb.toInt
    else db
  return volumes nau db

theorem int16_bounds (d : Int16) : -2 ^ 15 ≤ d.toInt ∧ d.toInt < 2 ^ 15 := ⟨d.le_toInt, d.toInt_lt⟩

/-- There and back again, with the level clipped to the range. -/
theorem nSetVolume_near (nau : NepAudioUnit) {d : Int16} {v : ℤ} (hv : nDbToFixed d.toInt = some v) (hlow : 256 ≤ v)
    (hhigh : v < 0x7fffffff) (hd : nau.minVolDb ≤ d ∧ d ≤ nau.maxVolDb) :
    ∃ level, nau.minVolDb.toInt ≤ level ∧ level ≤ nau.maxVolDb.toInt ∧ |level - d.toInt| ≤ 16 ∧
      nSetVolume nau v = some (volumes nau level) := by
  rw [Int16.le_iff_toInt_le, Int16.le_iff_toInt_le] at hd
  obtain ⟨g, hg, -, -, e, he, h8, h16⟩ := near (int16_bounds d).1 (int16_bounds d).2
  obtain rfl : v = g := Option.some.inj (hv.symm.trans hg)
  unfold nSetVolume
  rw [he]
  simp only [abs_sub_le_iff]
  refine ⟨_, ?_, ?_, ?_, rfl⟩ <;> split <;> try split
  all_goals omega

theorem nFindLogVolume_spec (nau : NepAudioUnit) : ∃ nau', nFindLogVolume nau = some nau' ∧
    nau'.minVolDb ≤ nau'.maxVolDb ∧ nDbToFixed nau'.minVolDb.toInt = some nau'.minVolume ∧
      nDbToFixed nau'.maxVolDb.toInt = some nau'.maxVolume ∧ nau'.minVolume ≤ nau'.maxVolume := by
  unfold nFindLogVolume
  obtain ⟨g, hg, -⟩ := near (int16_bounds nau.minVolDb).1 (int16_bounds nau.minVolDb).2
  obtain ⟨g', hg', -⟩ := near (int16_bounds nau.maxVolDb).1 (int16_bounds nau.maxVolDb).2
  dsimp only
  split
  · next h =>
    have hle := Int16.le_of_lt h
    have hmono := nDbToFixed_mono (int16_bounds _).1 (Int16.le_iff_toInt_le.mp hle) (int16_bounds _).2 hg' hg
    rw [hg, hg']
    exact ⟨_, rfl, hle, hg', hg, Int.ofNat_le.mpr hmono⟩
  · next h =>
    have hle := Int16.not_lt.mp h
    have hmono := nDbToFixed_mono (int16_bounds _).1 (Int16.le_iff_toInt_le.mp hle) (int16_bounds _).2 hg hg'
    rw [hg, hg']
    exact ⟨_, rfl, hle, hg, hg', Int.ofNat_le.mpr hmono⟩

end Neptune.UsbAudio.Levels
