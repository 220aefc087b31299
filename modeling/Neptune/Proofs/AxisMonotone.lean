import Neptune.Spec.HidItem

/-! When the value of an axis stays in its range, is never computed wrong on the way and keeps its
order. -/

namespace Neptune.HidAxis

def part (clip : ℕ) (span : ℤ) : ℤ := clip * span / 100

section shares

variable {clip clip' : ℕ} {span a b k k' : ℤ}

theorem part_nonneg (h : 0 ≤ span) : 0 ≤ part clip span :=
  Int.ediv_nonneg (mul_nonneg (by omega) h) (by decide)

theorem part_mono (h : 0 ≤ span) (hc : clip ≤ clip') : part clip span ≤ part clip' span :=
  Int.ediv_le_ediv (by decide) (mul_le_mul_of_nonneg_right (by exact_mod_cast hc) h)

theorem part_le (h : 0 ≤ span) (hc : clip ≤ 100) : part clip span ≤ span := by
  have hfull : part 100 span = span := Int.mul_ediv_cancel_left span (by decide)
  exact (part_mono h hc).trans hfull.le

def stretched (span a b k : ℤ) : ℤ := (k - a) * span / (b - a)

theorem stretched_nonneg (h : 0 ≤ span) (hk : a ≤ k) (hab : a < b) : 0 ≤ stretched span a b k :=
  Int.ediv_nonneg (mul_nonneg (by omega) h) (by omega)

theorem stretched_mono (h : 0 ≤ span) (hab : a < b) (hk : k ≤ k') :
    stretched span a b k ≤ stretched span a b k' :=
  Int.ediv_le_ediv (by omega) (mul_le_mul_of_nonneg_right (by omega) h)

theorem stretched_top (hab : a < b) : stretched span a b b = span :=
  Int.mul_ediv_cancel_left span (by omega)

theorem stretched_le (h : 0 ≤ span) (hab : a < b) (hk : k ≤ b) : stretched span a b k ≤ span :=
  (stretched_mono h hab hk).trans (stretched_top hab).le

theorem stretched_strict (hw : b - a ≤ span) (hab : a < b) (hk : k < k') :
    stretched span a b k < stretched span a b k' := by
  have hmul : (k - a) * span + (b - a) ≤ (k' - a) * span := by
    have hspan : 0 ≤ span := by omega
    have := mul_le_mul_of_nonneg_right (show k - a + 1 ≤ k' - a by omega) hspan
    linarith
  have hdiv := Int.ediv_le_ediv (show 0 < b - a by omega) hmul
  rw [Int.add_ediv_of_dvd_right (dvd_refl _), Int.ediv_self (by omega)] at hdiv
  exact Int.lt_of_add_one_le hdiv

end shares

theorem long_ok {n : ℤ} (h : -2 ^ 31 ≤ n) (h' : n < 2 ^ 31) : long n = .ok n := if_pos ⟨h, h'⟩

theorem long_iff {n m : ℤ} : long n = .ok m ↔ (-2 ^ 31 ≤ n ∧ n < 2 ^ 31) ∧ n = m := by
  unfold long
  split
  · rename_i h
    exact ⟨fun he => ⟨h, Except.ok.inj he⟩, fun he => congrArg _ he.2⟩
  · rename_i h
    exact ⟨nofun, fun he => absurd he.1 h⟩

theorem quotient_nonneg {n d : ℤ} (hn : 0 ≤ n) (hn' : n < 2 ^ 31) (hd : 0 < d) :
    quotient n d = .ok (n / d) := by
  have hle : n / d ≤ n := Int.ediv_le_self d hn
  have hge : 0 ≤ n / d := Int.ediv_nonneg hn hd.le
  rw [quotient, if_neg hd.ne', Int.tdiv_eq_ediv_of_nonneg hn, long_ok (by omega) (by omega)]

def Axis.span (s : Axis) : ℤ := s.realMax - s.realMin

structure Axis.Sized (s : Axis) : Prop where
  span_nonneg : 0 ≤ s.span
  span_lt : s.span < 2 ^ 17
  min_long : -2 ^ 31 ≤ s.realMin
  max_long : s.realMax < 2 ^ 31

theorem clipBound_eq {s : Axis} {clip : ℕ} (h : s.Sized) (hc : clip ≤ 100) :
    s.clipBound clip = .ok (part clip s.span + s.realMin) := by
  obtain ⟨hnonneg, hlt, hmin, hmax⟩ := h
  have hpart := @part_nonneg clip _ hnonneg
  have hle := part_le hnonneg hc
  have hproduct : (clip : ℤ) * s.span ≤ 100 * s.span :=
    mul_le_mul_of_nonneg_right (by exact_mod_cast hc) hnonneg
  have hproduct' : 0 ≤ (clip : ℤ) * s.span := mul_nonneg (by omega) hnonneg
  have hspan : s.realMax - s.realMin = s.span := rfl
  have hsum : part clip s.span + s.realMin ≤ s.realMax := by
    omega
  unfold Axis.clipBound
  rw [hspan, long_ok (by omega) (by omega)]
  change (long (clip * s.span) >>= _) = _
  rw [long_ok (by omega) (by omega)]
  change (quotient (clip * s.span) 100 >>= _) = _
  rw [quotient_nonneg hproduct' (by omega) (by decide)]
  exact long_ok (by unfold part at hpart; omega) (by unfold part at hsum; omega)

def clamped (a b k : ℤ) : ℤ := max a (min k b)

def shaped (stretch : Bool) (span a b k : ℤ) : ℤ :=
  if stretch ∧ a ≠ b then stretched span a b (clamped a b k) else clamped a b k

def Stretches (stretch : Bool) (span a b k : ℤ) : Prop :=
  stretch = true → a ≠ b → (clamped a b k - a) * span < 2 ^ 31

section bounds

variable {stretch : Bool} {span a b k k' : ℤ}

theorem clamped_bounds (h : a ≤ b) : a ≤ clamped a b k ∧ clamped a b k ≤ b := by
  unfold clamped
  omega

theorem clamped_mono (h : k ≤ k') : clamped a b k ≤ clamped a b k' := by
  unfold clamped
  omega

theorem shaped_mono (hs : 0 ≤ span) (hab : a ≤ b) (h : k ≤ k') :
    shaped stretch span a b k ≤ shaped stretch span a b k' := by
  unfold shaped
  split
  · rename_i hc
    exact stretched_mono hs (lt_of_le_of_ne hab hc.2) (clamped_mono h)
  · exact clamped_mono h

theorem shaped_bounds (hs : 0 ≤ span) (ha : 0 ≤ a) (hab : a ≤ b) (hb : b ≤ span) :
    0 ≤ shaped stretch span a b k ∧ shaped stretch span a b k ≤ span := by
  obtain ⟨h1, h2⟩ := clamped_bounds (k := k) hab
  unfold shaped
  split
  · rename_i hc
    have hlt := lt_of_le_of_ne hab hc.2
    exact ⟨stretched_nonneg hs h1 hlt, stretched_le hs hlt h2⟩
  · omega

theorem shaped_inj (hw : b - a ≤ span) (hab : a ≤ b)
    (h : shaped stretch span a b k = shaped stretch span a b k') :
    clamped a b k = clamped a b k' := by
  unfold shaped at h
  split at h
  · rename_i hc
    have hlt := lt_of_le_of_ne hab hc.2
    rcases lt_trichotomy (clamped a b k) (clamped a b k') with hk | hk | hk
    · exact absurd h (stretched_strict hw hlt hk).ne
    · exact hk
    · exact absurd h (stretched_strict hw hlt hk).ne'
  · exact h

theorem stretches_of_wide (hs : 0 ≤ span) (hab : a ≤ b)
    (h : stretch = true → (b - a) * span < 2 ^ 31) : Stretches stretch span a b k := by
  intro hst _
  have hle : clamped a b k - a ≤ b - a := by
    have := (clamped_bounds (k := k) hab).2
    omega
  exact (mul_le_mul_of_nonneg_right hle hs).trans_lt (h hst)

end bounds

theorem clipBetween_eq {s : Axis} {stretch : Bool} {a b k : ℤ} (h : s.Sized)
    (hv : s.value = k + s.realMin) (ha : 0 ≤ a) (hab : a ≤ b) (hb : b ≤ s.span) :
    (Stretches stretch s.span a b k ∧
      s.clipBetween stretch (a + s.realMin) (b + s.realMin) =
        .ok { s with value := shaped stretch s.span a b k + s.realMin }) ∨
    (¬ Stretches stretch s.span a b k ∧
      s.clipBetween stretch (a + s.realMin) (b + s.realMin) = .error .overflow) := by
  obtain ⟨hnonneg, hlt, hmin, hmax⟩ := h
  obtain ⟨hk, hk'⟩ := clamped_bounds (k := k) hab
  have hspan : s.realMax - s.realMin = s.span := rfl
  have hvalue : (if s.value < a + s.realMin then a + s.realMin
      else if s.value > b + s.realMin then b + s.realMin else s.value) =
      clamped a b k + s.realMin := by
    unfold clamped
    split_ifs <;> omega
  have hwidth : b + s.realMin - (a + s.realMin) = b - a := by omega
  have habove : clamped a b k + s.realMin - (a + s.realMin) = clamped a b k - a := by omega
  unfold Axis.clipBetween
  simp only [hvalue, hwidth]
  rw [long_ok (by omega) (by omega)]
  change (Stretches stretch s.span a b k ∧ (if stretch = true ∧ b - a ≠ 0 then _ else _) = _) ∨
    (_ ∧ (if stretch = true ∧ b - a ≠ 0 then _ else _) = _)
  by_cases hc : stretch = true ∧ a ≠ b
  · have hc' : stretch = true ∧ b - a ≠ 0 := ⟨hc.1, by omega⟩
    have hwide : 0 < b - a := by omega
    have hproduct : 0 ≤ (clamped a b k - a) * s.span := mul_nonneg (by omega) hnonneg
    simp only [if_pos hc', habove, hspan]
    rw [long_ok (by omega) (by omega)]
    rw [long_ok (by omega) (by omega)]
    change (_ ∧ (long ((clamped a b k - a) * s.span) >>= _) = _) ∨
      (_ ∧ (long ((clamped a b k - a) * s.span) >>= _) = _)
    by_cases hover : (clamped a b k - a) * s.span < 2 ^ 31
    · refine Or.inl ⟨fun _ _ => hover, ?_⟩
      have hnn := stretched_nonneg hnonneg hk (by omega : a < b)
      have hle := stretched_le hnonneg (by omega : a < b) hk'
      rw [long_ok (by omega) hover]
      change (quotient ((clamped a b k - a) * s.span) (b - a) >>= _) = _
      rw [quotient_nonneg hproduct hover hwide]
      change (long (stretched s.span a b (clamped a b k) + s.realMin) >>= _) = _
      rw [long_ok (by omega) (by omega), shaped, if_pos hc]
      rfl
    · refine Or.inr ⟨fun hs => hover (hs hc.1 hc.2), ?_⟩
      rw [long, if_neg (by omega)]
      rfl
  · have hc' : ¬ (stretch = true ∧ b - a ≠ 0) := fun h => hc ⟨h.1, by omega⟩
    refine Or.inl ⟨fun hs hne => absurd ⟨hs, hne⟩ hc, ?_⟩
    rw [if_neg hc', shaped, if_neg hc]
    rfl

def Axis.InRange (s : Axis) : Prop := s.realMin ≤ s.value ∧ s.value ≤ s.realMax

def low (nha : NepHidAction) (span : ℤ) : ℤ := part (min nha.clipMin nha.clipMax) span

def high (nha : NepHidAction) (span : ℤ) : ℤ := part (max nha.clipMin nha.clipMax) span

theorem bounds_low_high (nha : NepHidAction) {span : ℤ} (h : 0 ≤ span) :
    0 ≤ low nha span ∧ low nha span ≤ high nha span ∧ high nha span ≤ span :=
  ⟨part_nonneg h, part_mono h (by omega),
    part_le h (by have := nha.clipMin_le; have := nha.clipMax_le; omega)⟩

def position (nha : NepHidAction) (s : Axis) : ℤ :=
  if nha.clipMax < nha.clipMin then s.realMax - s.value - s.realMin else s.value - s.realMin

def Clips (nha : NepHidAction) (s : Axis) : Prop :=
  nha.clipEnable = true →
    Stretches nha.clipStretch s.span (low nha s.span) (high nha s.span) (position nha s)

def clipped (nha : NepHidAction) (s : Axis) : ℤ :=
  if nha.clipEnable then
    shaped nha.clipStretch s.span (low nha s.span) (high nha s.span) (position nha s)
  else s.value - s.realMin

theorem shaped_point {stretch : Bool} {span a k : ℤ} : shaped stretch span a a k = a := by
  unfold shaped clamped
  rw [if_neg fun h => h.2 rfl]
  omega

theorem clip_cases (nha : NepHidAction) {s : Axis} (h : s.Sized) (hr : s.InRange) :
    (Clips nha s ∧ s.clip nha = .ok { s with value := clipped nha s + s.realMin }) ∨
      (¬ Clips nha s ∧ s.clip nha = .error .overflow) := by
  obtain ⟨hlow, hle, hhigh⟩ := bounds_low_high nha h.span_nonneg
  unfold Axis.clip clipped Clips
  by_cases hc : nha.clipEnable = true
  · simp only [hc, forall_const, if_true]
    rcases lt_trichotomy nha.clipMin nha.clipMax with hlt | heq | hgt
    · -- normal clipping
      have hpos : position nha s = s.value - s.realMin := if_neg (by omega)
      have hlo : low nha s.span = part nha.clipMin s.span := by
        unfold low
        rw [min_eq_left hlt.le]
      have hhi : high nha s.span = part nha.clipMax s.span := by
        unfold high
        rw [max_eq_right hlt.le]
      rw [if_neg hlt.ne, if_pos hlt, clipBound_eq h nha.clipMin_le, clipBound_eq h nha.clipMax_le,
        ← hlo, ← hhi]
      exact clipBetween_eq h (by omega) hlow hle hhigh
    · -- a point
      have hsame : low nha s.span = high nha s.span := by
        unfold low high
        rw [heq, min_self, max_self]
      refine Or.inl ⟨fun _ hne => absurd hsame hne, ?_⟩
      have hpoint : part nha.clipMin s.span = high nha s.span := by
        unfold high
        rw [heq, max_self]
      rw [if_pos heq, clipBound_eq h nha.clipMin_le, hsame, shaped_point, hpoint]
      rfl
    · -- inverse clipping
      have hpos : position nha s = s.realMax - s.value - s.realMin := if_pos hgt
      have hlo : low nha s.span = part nha.clipMax s.span := by
        unfold low
        rw [min_eq_right hgt.le]
      have hhi : high nha s.span = part nha.clipMin s.span := by
        unfold high
        rw [max_eq_left hgt.le]
      obtain ⟨hnonneg, hlt, hmin, hmax⟩ := h
      obtain ⟨hr, hr'⟩ := hr
      have hspan : s.realMax - s.realMin = s.span := rfl
      rw [if_neg hgt.ne', if_neg (show ¬ nha.clipMin < nha.clipMax by omega),
        long_ok (by omega) (by omega),
        clipBound_eq ⟨hnonneg, hlt, hmin, hmax⟩ nha.clipMin_le,
        clipBound_eq ⟨hnonneg, hlt, hmin, hmax⟩ nha.clipMax_le, ← hlo, ← hhi]
      exact @clipBetween_eq { s with value := s.realMax - s.value } _ _ _ _
        ⟨hnonneg, hlt, hmin, hmax⟩ (by rw [hpos]; exact (Int.sub_add_cancel _ _).symm) hlow hle hhigh
  · refine Or.inl ⟨fun he => absurd he hc, ?_⟩
    rw [if_neg hc, if_neg hc, Int.sub_add_cancel]
    rfl

section share

variable {span scale k k' : ℤ}

theorem share_nonneg (hk : 0 ≤ k) (hs : 0 ≤ scale) :
    (k * scale).tdiv span = k * scale / span :=
  Int.tdiv_eq_ediv_of_nonneg (mul_nonneg hk hs)

theorem share_bounds (h : 0 < span) (hk : 0 ≤ k) (hk' : k ≤ span) :
    (0 ≤ scale → 0 ≤ (k * scale).tdiv span ∧ (k * scale).tdiv span ≤ scale) ∧
      (scale ≤ 0 → scale ≤ (k * scale).tdiv span ∧ (k * scale).tdiv span ≤ 0) := by
  have hup (n : ℤ) (hn : 0 ≤ n) : 0 ≤ (k * n).tdiv span ∧ (k * n).tdiv span ≤ n := by
    rw [share_nonneg hk hn]
    refine ⟨Int.ediv_nonneg (mul_nonneg hk hn) h.le, ?_⟩
    exact Int.ediv_le_of_le_mul h (by rw [mul_comm n]; exact mul_le_mul_of_nonneg_right hk' hn)
  refine ⟨hup scale, fun hs => ?_⟩
  have hneg := hup (-scale) (by omega)
  rw [mul_neg, Int.neg_tdiv] at hneg
  omega

theorem share_mono (h : 0 < span) (hs : 0 ≤ scale) (hk : 0 ≤ k) (hle : k ≤ k') :
    (k * scale).tdiv span ≤ (k' * scale).tdiv span := by
  rw [share_nonneg hk hs, share_nonneg (hk.trans hle) hs]
  exact Int.ediv_le_ediv h (mul_le_mul_of_nonneg_right hle hs)

end share

def Scaled (nha : NepHidAction) : Prop := nha.scaleEnable = true ∧ nha.scaleMax ≠ nha.scaleMin

instance (nha : NepHidAction) : Decidable (Scaled nha) := inferInstanceAs (Decidable (_ ∧ _))

def Scales (nha : NepHidAction) (span k : ℤ) : Prop :=
  Scaled nha → 0 < span ∧ -2 ^ 31 ≤ k * (nha.scaleMax - nha.scaleMin) ∧
    k * (nha.scaleMax - nha.scaleMin) < 2 ^ 31

def scaled (nha : NepHidAction) (s : Axis) (k : ℤ) : Axis :=
  if Scaled nha then ⟨nha.scaleMin, nha.scaleMax,
    (k * (nha.scaleMax - nha.scaleMin)).tdiv s.span + nha.scaleMin⟩
  else s

theorem scale_cases (nha : NepHidAction) {s : Axis} (h : s.Sized) (hr : s.InRange) :
    (Scales nha s.span (s.value - s.realMin) ∧
      s.scale nha = .ok (scaled nha s (s.value - s.realMin))) ∨
    (¬ Scales nha s.span (s.value - s.realMin) ∧ ∃ fault, s.scale nha = .error fault) := by
  obtain ⟨hnonneg, hlt, hmin, hmax⟩ := h
  obtain ⟨hr, hr'⟩ := hr
  have hspan : s.realMax - s.realMin = s.span := rfl
  unfold Axis.scale scaled Scales
  by_cases hc : Scaled nha
  · have hc' : nha.scaleEnable = true ∧ nha.scaleMax ≠ nha.scaleMin := hc
    have hsmin := nha.scaleMin_abs
    have hsmax := nha.scaleMax_abs
    simp only [if_pos hc', hc, forall_const, if_true]
    generalize hk : s.value - s.realMin = k
    generalize hscale : nha.scaleMax - nha.scaleMin = scale
    rw [long_ok (by omega) (by omega)]
    rw [long_ok (by omega) (by omega)]
    change (_ ∧ (long (k * scale) >>= _) = _) ∨ (_ ∧ ∃ fault, (long (k * scale) >>= _) = _)
    by_cases hover : -2 ^ 31 ≤ k * scale ∧ k * scale < 2 ^ 31
    · rw [long_ok hover.1 hover.2]
      rw [hspan, long_ok (by omega) (by omega)]
      change (_ ∧ (quotient (k * scale) s.span >>= _) = _) ∨
        (_ ∧ ∃ fault, (quotient (k * scale) s.span >>= _) = _)
      by_cases hzero : s.span = 0
      · refine Or.inr ⟨fun hs => by omega, .zeroDivide, ?_⟩
        rw [quotient, if_pos hzero]
        rfl
      · refine Or.inl ⟨⟨by omega, hover⟩, ?_⟩
        have hshare := @share_bounds s.span scale k (by omega) (by omega) (by omega)
        have hpart : -2 ^ 31 ≤ (k * scale).tdiv s.span ∧ (k * scale).tdiv s.span < 2 ^ 31 := by
          omega
        rw [quotient, if_neg hzero, long_ok hpart.1 hpart.2]
        change (long ((k * scale).tdiv s.span + nha.scaleMin) >>= _) = _
        rw [long_ok (by omega) (by omega)]
        rfl
    · refine Or.inr ⟨fun hs => hover hs.2, .overflow, ?_⟩
      rw [long, if_neg hover]
      rfl
  · refine Or.inl ⟨fun he => absurd he hc, ?_⟩
    rw [if_neg hc, if_neg (show ¬ (_ ∧ _) from hc)]
    rfl

def NepHidItem.realMin (nhi : NepHidItem) (nha : NepHidAction) : ℤ :=
  if nha.absToRel then nhi.logicalMin - nhi.logicalMax else nhi.logicalMin

def NepHidItem.realMax (nhi : NepHidItem) (nha : NepHidAction) : ℤ :=
  if nha.absToRel then nhi.logicalMax - nhi.logicalMin else nhi.logicalMax

def NepHidItem.span (nhi : NepHidItem) (nha : NepHidAction) : ℤ :=
  nhi.realMax nha - nhi.realMin nha

def Comparable (nhi : NepHidItem) (nha : NepHidAction) : Prop :=
  nha.absToRel = true → nhi.isArray = false ∧ nhi.Inside 0

def Reached (nhi : NepHidItem) (nha : NepHidAction) (s : Axis) : Prop :=
  ∃ oldValue value, OldValue nhi oldValue ∧ nhi.Inside value ∧
    Axis.setAbsToRel nhi nha oldValue value = .ok s

section relative

variable {nhi : NepHidItem} {nha : NepHidAction} {oldValue value : ℤ} {s : Axis}

theorem oldValue_inside (h : Comparable nhi nha) (hrel : nha.absToRel = true)
    (hold : OldValue nhi oldValue) : nhi.Inside oldValue := by
  obtain ⟨hvar, hzero⟩ := h hrel
  cases hold with
  | cleared => exact hzero
  | last _ hv => exact hv
  | array ha =>
    rw [hvar] at ha
    cases ha

theorem setAbsToRel_abs (hrel : ¬ nha.absToRel = true) :
    Axis.setAbsToRel nhi nha oldValue value = .ok ⟨nhi.logicalMin, nhi.logicalMax, value⟩ := by
  rw [Axis.setAbsToRel, if_neg hrel]
  rfl

theorem setAbsToRel_rel (hrel : nha.absToRel = true) :
    Axis.setAbsToRel nhi nha oldValue value = (long (value - oldValue)).map fun value =>
      ⟨nhi.logicalMin - nhi.logicalMax, nhi.logicalMax - nhi.logicalMin, value⟩ := by
  have hle := nhi.le
  have hlt := nhi.range_le
  rw [Axis.setAbsToRel, if_pos hrel, long_ok (n := nhi.logicalMin - _) (by omega) (by omega),
    long_ok (n := nhi.logicalMax - _) (by omega) (by omega)]
  cases long (value - oldValue) <;> rfl

theorem setAbsToRel_range (h : Axis.setAbsToRel nhi nha oldValue value = .ok s) :
    s.realMin = nhi.realMin nha ∧ s.realMax = nhi.realMax nha := by
  unfold NepHidItem.realMin NepHidItem.realMax
  by_cases hrel : nha.absToRel = true
  · rw [setAbsToRel_rel hrel] at h
    rw [if_pos hrel, if_pos hrel]
    cases hl : long (value - oldValue) with
    | error fault =>
      rw [hl] at h
      cases h
    | ok n =>
      rw [hl] at h
      obtain rfl := Except.ok.inj h
      exact ⟨rfl, rfl⟩
  · rw [setAbsToRel_abs hrel] at h
    rw [if_neg hrel, if_neg hrel]
    obtain rfl := Except.ok.inj h
    exact ⟨rfl, rfl⟩

theorem sized_of_range (h : s.realMin = nhi.realMin nha ∧ s.realMax = nhi.realMax nha) :
    s.Sized := by
  have hle := nhi.le
  have hlt := nhi.range_le
  have hmin := nhi.min_long
  have hmax := nhi.max_long
  obtain ⟨h1, h2⟩ := h
  unfold NepHidItem.realMin at h1
  unfold NepHidItem.realMax at h2
  have hspan : s.span = s.realMax - s.realMin := rfl
  split at h1 <;> split at h2 <;> first | contradiction | constructor <;> omega

theorem setAbsToRel_inRange (h : Comparable nhi nha) (hold : OldValue nhi oldValue)
    (hv : nhi.Inside value) :
    ∃ s, Axis.setAbsToRel nhi nha oldValue value = .ok s ∧ s.InRange := by
  obtain ⟨hv, hv'⟩ := hv
  by_cases hrel : nha.absToRel = true
  · obtain ⟨ho, ho'⟩ := oldValue_inside h hrel hold
    have hlt := nhi.range_le
    rw [setAbsToRel_rel hrel, long_ok (by omega) (by omega)]
    refine ⟨_, rfl, ?_, ?_⟩
    · change nhi.logicalMin - nhi.logicalMax ≤ value - oldValue
      omega
    · change value - oldValue ≤ nhi.logicalMax - nhi.logicalMin
      omega
  · exact ⟨_, setAbsToRel_abs hrel, hv, hv'⟩

theorem reached_of_inRange (h : Comparable nhi nha)
    (hr : s.realMin = nhi.realMin nha ∧ s.realMax = nhi.realMax nha) (hs : s.InRange) :
    Reached nhi nha s := by
  obtain ⟨h1, h2⟩ := hr
  obtain ⟨hs, hs'⟩ := hs
  unfold NepHidItem.realMin at h1
  unfold NepHidItem.realMax at h2
  by_cases hrel : nha.absToRel = true
  · rw [if_pos hrel] at h1 h2
    have hlt := nhi.range_le
    -- from the minimum up, or down to it
    have hinside : nhi.Inside (max nhi.logicalMin (nhi.logicalMin + s.value)) := by
      constructor <;> omega
    have hinside' : nhi.Inside (max nhi.logicalMin (nhi.logicalMin + s.value) - s.value) := by
      constructor <;> omega
    refine ⟨_, _, .last (h hrel).1 hinside', hinside, ?_⟩
    rw [setAbsToRel_rel hrel, long_ok (by omega) (by omega), Int.sub_sub_self, ← h1, ← h2]
    rfl
  · rw [if_neg hrel] at h1 h2
    have hinside : nhi.Inside s.value := by
      constructor <;> omega
    have hold : ∃ oldValue, OldValue nhi oldValue := by
      cases harr : nhi.isArray with
      | false => exact ⟨_, .cleared harr⟩
      | true => exact ⟨_, .array harr⟩
    obtain ⟨oldValue, hold⟩ := hold
    refine ⟨oldValue, s.value, hold, hinside, ?_⟩
    rw [setAbsToRel_abs hrel, ← h1, ← h2]

end relative

def joyField (feat : APadFeat) (state : BitVec 32) (s : Axis) : Except Fault ℕ :=
  s.joyValue.map fun value => analogueField feat (setAnalogue feat state value)

/-- The position that the range is mapped to rises from 0 to 255, which is all its field holds. -/
structure JoyMapped (realMin realMax : ℤ) (feat : APadFeat) (state : BitVec 32) : Prop where
  bottom : joyField feat state ⟨realMin, realMax, realMin⟩ = .ok 0
  top : joyField feat state ⟨realMin, realMax, realMax⟩ = .ok 255
  rises : ∀ k k', 0 ≤ k → k ≤ k' → k' ≤ |realMax - realMin| →
    ∃ n n', n ≤ n' ∧ n' ≤ 255 ∧
      joyField feat state ⟨realMin, realMax, realMin + k * (realMax - realMin).sign⟩ = .ok n ∧
      joyField feat state ⟨realMin, realMax, realMin + k' * (realMax - realMin).sign⟩ = .ok n'

theorem put_masked {mask type : BitVec 32} (h : type &&& mask = 0#32) (state value : BitVec 32) :
    (state &&& ~~~mask ||| value &&& mask ||| type) &&& mask = value &&& mask := by
  rw [BitVec.and_or_distrib_right, BitVec.and_or_distrib_right, BitVec.and_assoc,
    BitVec.not_and_self, BitVec.and_assoc, BitVec.and_self, h]
  simp

theorem toNat_lowByte (value : ℤ) :
    (BitVec.ofInt 32 value &&& 255#32).toNat = (value % 256).toNat := by
  change (value % (2 ^ 32 : ℕ)).toNat &&& 2 ^ 8 - 1 = _
  rw [Nat.and_two_pow_sub_one_eq_mod]
  omega

theorem setAnalogue_field (feat : APadFeat) (state : BitVec 32) (value : ℤ) :
    analogueField feat (setAnalogue feat state value) = (value % 256).toNat := by
  cases feat with
  | absX =>
    change ((_ &&& _ ||| _ &&& _ ||| _) &&& JP_XAXIS_MASK).toNat = _
    rw [put_masked (by decide)]
    exact toNat_lowByte value
  | absY =>
    change (((_ &&& _ ||| _ &&& _ ||| _) &&& JP_YAXIS_MASK) >>> 8).toNat = _
    rw [put_masked (by decide), JP_YAXIS_MASK, ← BitVec.shiftLeft_and_distrib,
      BitVec.toNat_ushiftRight, BitVec.toNat_shiftLeft, toNat_lowByte, Nat.shiftLeft_eq,
      Nat.shiftRight_eq_div_pow]
    omega

theorem joyValue_top {realMin realMax value : ℤ} (hne : realMin ≠ 0 ∨ realMax ≠ 255)
    (h : Axis.joyValue ⟨realMin, realMax, realMax⟩ = .ok value) : value = 256 := by
  rw [Axis.joyValue, if_pos hne] at h
  cases habove : long (realMax - realMin) with
  | error fault =>
    rw [habove] at h
    cases h
  | ok above =>
    obtain ⟨-, rfl⟩ := long_iff.mp habove
    simp only [habove] at h
    change (long ((realMax - realMin) * 2 ^ 8) >>= _) = _ at h
    cases hshifted : long ((realMax - realMin) * 2 ^ 8) with
    | error fault =>
      rw [hshifted] at h
      cases h
    | ok shifted =>
      obtain ⟨-, rfl⟩ := long_iff.mp hshifted
      rw [hshifted] at h
      change quotient ((realMax - realMin) * 2 ^ 8) (realMax - realMin) = _ at h
      unfold quotient at h
      split at h
      · cases h
      · rename_i hzero
        rw [Int.mul_tdiv_cancel_left _ hzero] at h
        exact (long_iff.mp h).2.symm

theorem joyMapped_iff (realMin realMax : ℤ) (feat : APadFeat) (state : BitVec 32) :
    JoyMapped realMin realMax feat state ↔ realMin = 0 ∧ realMax = 255 := by
  constructor
  · intro h
    by_contra hne
    have htop := h.top
    unfold joyField at htop
    cases hvalue : Axis.joyValue ⟨realMin, realMax, realMax⟩ with
    | error fault =>
      rw [hvalue] at htop
      cases htop
    | ok value =>
      -- the position at the maximum is 256, and its field 0
      obtain rfl := joyValue_top (by tauto) hvalue
      rw [hvalue] at htop
      have hfield := (setAnalogue_field feat state 256).symm.trans (Except.ok.inj htop)
      cases hfield
  · rintro ⟨rfl, rfl⟩
    have hfield (value : ℤ) : joyField feat state ⟨0, 255, value⟩ = .ok (value % 256).toNat :=
      congrArg Except.ok (setAnalogue_field feat state value)
    refine ⟨hfield 0, hfield 255, fun k k' hk hle hk' => ?_⟩
    have hsign : (255 - 0 : ℤ).sign = 1 := rfl
    have htop : |(255 - 0 : ℤ)| = 255 := rfl
    rw [hsign, hfield, hfield]
    exact ⟨_, _, by omega, by omega, rfl, rfl⟩

def NepHidAction.swapped (nha : NepHidAction) : NepHidAction :=
  { nha with
    clipMin := nha.clipMax
    clipMax := nha.clipMin
    clipMin_le := nha.clipMax_le
    clipMax_le := nha.clipMin_le }

def Axis.mirrored (s : Axis) : Axis := { s with value := s.realMin + s.realMax - s.value }

def Axis.Between (s : Axis) : Prop :=
  min s.realMin s.realMax ≤ s.value ∧ s.value ≤ max s.realMin s.realMax

structure Meets (nhi : NepHidItem) (nha : NepHidAction) : Prop where
  relative : ∀ oldValue value, OldValue nhi oldValue → nhi.Inside value →
    ∃ s, Axis.setAbsToRel nhi nha oldValue value = .ok s ∧ s.Between
  clip_total : ∀ s, Reached nhi nha s → ∃ s', s.clip nha = .ok s' ∧ s'.Between
  scale_total : ∀ s s', Reached nhi nha s → s.clip nha = .ok s' →
    ∃ s'', s'.scale nha = .ok s'' ∧ s''.Between
  clip_rises : nha.clipMin ≤ nha.clipMax → ∀ s t s' t', Reached nhi nha s → Reached nhi nha t →
    s.clip nha = .ok s' → t.clip nha = .ok t' → s.value ≤ t.value → s'.value ≤ t'.value
  scale_rises : nha.scaleMin < nha.scaleMax → ∀ s t s' t' s'' t'', Reached nhi nha s →
    Reached nhi nha t → s.clip nha = .ok s' → t.clip nha = .ok t' → s'.scale nha = .ok s'' →
    t'.scale nha = .ok t'' → s'.value ≤ t'.value → s''.value ≤ t''.value
  mirrors : nha.clipEnable = true → nha.clipMax < nha.clipMin → ∀ s, Reached nhi nha s →
    s.clip nha = s.mirrored.clip nha.swapped
  joystick : ∀ feat ∈ nha.analogJoy, ∀ s s' s'', Reached nhi nha s → s.clip nha = .ok s' →
    s'.scale nha = .ok s'' → ∀ state, JoyMapped s''.realMin s''.realMax feat state

def reach (nha : NepHidAction) (span : ℤ) : ℤ :=
  if nha.clipEnable then
    if nha.clipStretch ∧ low nha span ≠ high nha span then span else high nha span
  else span

structure Sound (nhi : NepHidItem) (nha : NepHidAction) : Prop where
  comparable : Comparable nhi nha
  mirror : nha.clipEnable = true → nha.clipMax < nha.clipMin →
    nhi.realMin nha = 0 ∨ low nha (nhi.span nha) = high nha (nhi.span nha)
  stretch : nha.clipEnable = true → nha.clipStretch = true →
    (high nha (nhi.span nha) - low nha (nhi.span nha)) * nhi.span nha < 2 ^ 31
  scale : Scales nha (nhi.span nha) (reach nha (nhi.span nha))
  joystick : nha.analogJoy.isSome = true →
    if Scaled nha then nha.scaleMin = 0 ∧ nha.scaleMax = 255
    else nhi.realMin nha = 0 ∧ nhi.realMax nha = 255

section steps

variable {nhi : NepHidItem} {nha : NepHidAction} {s t s' t' s'' : Axis}

theorem reached_range (h : Reached nhi nha s) :
    s.realMin = nhi.realMin nha ∧ s.realMax = nhi.realMax nha := by
  obtain ⟨oldValue, value, -, -, he⟩ := h
  exact setAbsToRel_range he

theorem reached_span (h : Reached nhi nha s) : s.span = nhi.span nha := by
  obtain ⟨h1, h2⟩ := reached_range h
  rw [Axis.span, h1, h2, NepHidItem.span]

theorem reached_inRange (hc : Comparable nhi nha) (h : Reached nhi nha s) : s.InRange := by
  obtain ⟨oldValue, value, hold, hv, he⟩ := h
  obtain ⟨s', he', hr⟩ := setAbsToRel_inRange hc hold hv
  obtain rfl := Except.ok.inj (he.symm.trans he')
  exact hr

theorem reached_sized (h : Reached nhi nha s) : s.Sized := sized_of_range (reached_range h)

section

variable (hc : Comparable nhi nha) (h : Reached nhi nha s)
include hc h

theorem clip_ok (he : s.clip nha = .ok s') :
    Clips nha s ∧ s' = { s with value := clipped nha s + s.realMin } := by
  rcases clip_cases nha (reached_sized h) (reached_inRange hc h) with ⟨hclips, he'⟩ | ⟨-, he'⟩
  · exact ⟨hclips, Except.ok.inj (he.symm.trans he')⟩
  · rw [he] at he'
    cases he'

theorem clipped_bounds :
    0 ≤ clipped nha s ∧ clipped nha s ≤ reach nha s.span ∧ clipped nha s ≤ s.span := by
  obtain ⟨hr, hr'⟩ := reached_inRange hc h
  have hs := (reached_sized h).span_nonneg
  obtain ⟨hlow, hle, hhigh⟩ := bounds_low_high nha hs
  obtain ⟨hk, hk'⟩ := @shaped_bounds nha.clipStretch _ _ _ (position nha s) hs hlow hle hhigh
  have hcl := clamped_bounds (k := position nha s) hle
  unfold clipped reach
  split
  · refine ⟨hk, ?_, hk'⟩
    split
    · exact hk'
    · rename_i hst
      rw [shaped, if_neg hst]
      exact hcl.2
  · unfold Axis.span
    omega

theorem clipped_inRange (he : s.clip nha = .ok s') : s'.Sized ∧ s'.InRange ∧ s'.span = s.span ∧
      s'.value - s'.realMin = clipped nha s := by
  obtain ⟨-, rfl⟩ := clip_ok hc h he
  obtain ⟨hk, -, hk'⟩ := clipped_bounds hc h
  have hspan : s.span = s.realMax - s.realMin := rfl
  obtain ⟨h1, h2, h3, h4⟩ := reached_sized h
  refine ⟨⟨h1, h2, h3, h4⟩, ⟨?_, ?_⟩, rfl, Int.add_sub_cancel _ _⟩
  · change s.realMin ≤ clipped nha s + s.realMin
    omega
  · change clipped nha s + s.realMin ≤ s.realMax
    omega

theorem scale_ok (he : s.clip nha = .ok s')
    (he' : s'.scale nha = .ok s'') :
    Scales nha s.span (clipped nha s) ∧ s'' = scaled nha s' (clipped nha s) := by
  obtain ⟨hsized, hrange, hspan, hvalue⟩ := clipped_inRange hc h he
  have hcases := scale_cases nha hsized hrange
  rw [hspan, hvalue] at hcases
  rcases hcases with ⟨hscales, hok⟩ | ⟨-, fault, herr⟩
  · exact ⟨hscales, Except.ok.inj (he'.symm.trans hok)⟩
  · rw [he'] at herr
    cases herr

end

theorem between_of_inRange (h : s.InRange) : s.Between :=
  ⟨(min_le_left _ _).trans h.1, h.2.trans (le_max_right _ _)⟩

theorem scaled_between (h : s.InRange) {k : ℤ} (hk : 0 ≤ k) (hk' : k ≤ s.span)
    (hs : Scales nha s.span k) : (scaled nha s k).Between := by
  unfold scaled
  split
  · rename_i hsc
    have hshare := @share_bounds s.span (nha.scaleMax - nha.scaleMin) k (hs hsc).1 hk hk'
    constructor
    · change min nha.scaleMin nha.scaleMax ≤ _ + nha.scaleMin
      omega
    · change _ + nha.scaleMin ≤ max nha.scaleMin nha.scaleMax
      omega
  · exact between_of_inRange h

theorem Sound.clips (h : Sound nhi nha) (hr : Reached nhi nha s) : Clips nha s := by
  intro hclip
  have hs := (reached_sized hr).span_nonneg
  refine stretches_of_wide hs (bounds_low_high nha hs).2.1 fun hst => ?_
  rw [reached_span hr]
  exact h.stretch hclip hst

theorem scales_of_le {span k k' : ℤ} (h : Scales nha span k') (hk : 0 ≤ k) (hle : k ≤ k') :
    Scales nha span k := by
  intro hsc
  obtain ⟨hspan, hmin, hmax⟩ := h hsc
  refine ⟨hspan, ?_⟩
  rcases le_total 0 (nha.scaleMax - nha.scaleMin) with hs | hs
  · have := mul_le_mul_of_nonneg_right hle hs
    have := mul_nonneg hk hs
    omega
  · have := mul_le_mul_of_nonpos_right hle hs
    have := mul_nonpos_of_nonneg_of_nonpos hk hs
    omega

theorem Sound.clip_eq (h : Sound nhi nha) (hr : Reached nhi nha s) :
    s.clip nha = .ok { s with value := clipped nha s + s.realMin } := by
  rcases clip_cases nha (reached_sized hr) (reached_inRange h.comparable hr) with ⟨-, he⟩ | ⟨hn, -⟩
  · exact he
  · exact absurd (h.clips hr) hn

theorem Sound.scales (h : Sound nhi nha) (hr : Reached nhi nha s) :
    Scales nha s.span (clipped nha s) := by
  obtain ⟨hk, hk', -⟩ := clipped_bounds h.comparable hr
  have := h.scale
  rw [← reached_span hr] at this
  exact scales_of_le this hk hk'

theorem swapped_low (nha : NepHidAction) (span : ℤ) : low nha.swapped span = low nha span := by
  unfold low NepHidAction.swapped
  rw [min_comm]

theorem swapped_high (nha : NepHidAction) (span : ℤ) : high nha.swapped span = high nha span := by
  unfold high NepHidAction.swapped
  rw [max_comm]

theorem clip_mirrored (hclip : nha.clipEnable = true) (hinv : nha.clipMax < nha.clipMin)
    (hr : Reached nhi nha s) (hin : s.InRange) :
    (Stretches nha.clipStretch s.span (low nha s.span) (high nha s.span) (s.realMax - s.value) ∧
      s.mirrored.clip nha.swapped = .ok ⟨s.realMin, s.realMax, shaped nha.clipStretch s.span
        (low nha s.span) (high nha s.span) (s.realMax - s.value) + s.realMin⟩) ∨
    (¬ Stretches nha.clipStretch s.span (low nha s.span) (high nha s.span) (s.realMax - s.value) ∧
      s.mirrored.clip nha.swapped = .error .overflow) := by
  have hpos : position nha.swapped s.mirrored = s.realMax - s.value := by
    have hnormal : ¬ nha.swapped.clipMax < nha.swapped.clipMin := not_lt_of_gt hinv
    rw [position, if_neg hnormal]
    change s.realMin + s.realMax - s.value - s.realMin = _
    omega
  obtain ⟨h1, h2, h3, h4⟩ := reached_sized hr
  obtain ⟨hv, hv'⟩ := hin
  have hrange : s.mirrored.InRange := by
    constructor
    · change s.realMin ≤ s.realMin + s.realMax - s.value
      omega
    · change s.realMin + s.realMax - s.value ≤ s.realMax
      omega
  have hclip' : nha.swapped.clipEnable = true := hclip
  have hspan : s.mirrored.span = s.span := rfl
  have hcases := clip_cases nha.swapped (s := s.mirrored) ⟨h1, h2, h3, h4⟩ hrange
  rw [Clips, clipped, if_pos hclip', hpos, hspan, swapped_low, swapped_high] at hcases
  rcases hcases with ⟨hst, he⟩ | ⟨hst, he⟩
  · exact Or.inl ⟨hst hclip', he⟩
  · exact Or.inr ⟨fun h => hst fun _ => h, he⟩

theorem Sound.mirrors (h : Sound nhi nha) (hclip : nha.clipEnable = true)
    (hinv : nha.clipMax < nha.clipMin) (hr : Reached nhi nha s) :
    s.clip nha = s.mirrored.clip nha.swapped := by
  have hs := (reached_sized hr).span_nonneg
  have hle := (bounds_low_high nha hs).2.1
  have hwide : Stretches nha.clipStretch s.span (low nha s.span) (high nha s.span)
      (s.realMax - s.value) := by
    refine stretches_of_wide hs hle fun hst => ?_
    rw [reached_span hr]
    exact h.stretch hclip hst
  have hsame : clipped nha s = shaped nha.clipStretch s.span (low nha s.span) (high nha s.span)
      (s.realMax - s.value) := by
    rw [clipped, if_pos hclip, position, if_pos hinv]
    rcases h.mirror hclip hinv with hzero | hpoint
    · rw [(reached_range hr).1, hzero, Int.sub_zero]
    · rw [← reached_span hr] at hpoint
      rw [hpoint, shaped_point, shaped_point]
  rw [h.clip_eq hr, hsame]
  rcases clip_mirrored hclip hinv hr (reached_inRange h.comparable hr) with ⟨-, he⟩ | ⟨hn, -⟩
  · rw [he]
  · exact absurd hwide hn

theorem clip_rises (hc : Comparable nhi nha) (hnormal : nha.clipMin ≤ nha.clipMax)
    (hs : Reached nhi nha s) (ht : Reached nhi nha t) (he : s.clip nha = .ok s')
    (he' : t.clip nha = .ok t') (hle : s.value ≤ t.value) : s'.value ≤ t'.value := by
  obtain ⟨-, rfl⟩ := clip_ok hc hs he
  obtain ⟨-, rfl⟩ := clip_ok hc ht he'
  have hmin : s.realMin = t.realMin := (reached_range hs).1.trans (reached_range ht).1.symm
  have hspan : s.span = t.span := (reached_span hs).trans (reached_span ht).symm
  have hpos : position nha s ≤ position nha t := by
    rw [position, position, if_neg (not_lt_of_ge hnormal), if_neg (not_lt_of_ge hnormal)]
    omega
  change clipped nha s + s.realMin ≤ clipped nha t + t.realMin
  have hclipped : clipped nha s ≤ clipped nha t := by
    have hnonneg := (reached_sized ht).span_nonneg
    unfold clipped
    rw [hspan]
    split
    · exact shaped_mono hnonneg (bounds_low_high nha hnonneg).2.1 hpos
    · omega
  omega

theorem scale_rises (hc : Comparable nhi nha) (hup : nha.scaleMin < nha.scaleMax)
    {t'' : Axis} (hs : Reached nhi nha s) (ht : Reached nhi nha t) (he : s.clip nha = .ok s')
    (he' : t.clip nha = .ok t') (hsc : s'.scale nha = .ok s'') (hsc' : t'.scale nha = .ok t'')
    (hle : s'.value ≤ t'.value) : s''.value ≤ t''.value := by
  obtain ⟨hscales, rfl⟩ := scale_ok hc hs he hsc
  obtain ⟨-, rfl⟩ := scale_ok hc ht he' hsc'
  obtain ⟨-, -, hspan, hvalue⟩ := clipped_inRange hc hs he
  obtain ⟨-, -, hspan', hvalue'⟩ := clipped_inRange hc ht he'
  obtain ⟨hk, -, -⟩ := clipped_bounds hc hs
  have hmin : s'.realMin = t'.realMin := by
    obtain ⟨-, rfl⟩ := clip_ok hc hs he
    obtain ⟨-, rfl⟩ := clip_ok hc ht he'
    exact (reached_range hs).1.trans (reached_range ht).1.symm
  have hsame : s'.span = t'.span := by
    rw [hspan, hspan', reached_span hs, reached_span ht]
  unfold scaled
  split
  · rename_i hactive
    have hpos := (hscales hactive).1
    rw [← hspan, hsame] at hpos
    have := @share_mono t'.span (nha.scaleMax - nha.scaleMin) (clipped nha s) (clipped nha t) hpos
      (by omega) hk (by omega)
    rw [hsame]
    exact Int.add_le_add_right this _
  · exact hle

theorem scaled_range (hr : Reached nhi nha s) (hc : Comparable nhi nha)
    (he : s.clip nha = .ok s') (k : ℤ) :
    ((scaled nha s' k).realMin = 0 ∧ (scaled nha s' k).realMax = 255) ↔
      if Scaled nha then nha.scaleMin = 0 ∧ nha.scaleMax = 255
      else nhi.realMin nha = 0 ∧ nhi.realMax nha = 255 := by
  obtain ⟨-, rfl⟩ := clip_ok hc hr he
  obtain ⟨h1, h2⟩ := reached_range hr
  unfold scaled
  split
  · rfl
  · rw [← h1, ← h2]

theorem Sound.meets (h : Sound nhi nha) : Meets nhi nha where
  relative oldValue value hold hv := by
    obtain ⟨s, he, hr⟩ := setAbsToRel_inRange h.comparable hold hv
    exact ⟨s, he, between_of_inRange hr⟩
  clip_total s hs := by
    have he := h.clip_eq hs
    exact ⟨_, he, between_of_inRange (clipped_inRange h.comparable hs he).2.1⟩
  scale_total s s' hs he := by
    obtain ⟨hsized, hrange, hspan, hvalue⟩ := clipped_inRange h.comparable hs he
    obtain ⟨hk, -, hk'⟩ := clipped_bounds h.comparable hs
    have hscales := h.scales hs
    rw [← hspan] at hscales hk'
    rcases scale_cases nha hsized hrange with ⟨-, hok⟩ | ⟨hn, -⟩
    · rw [hvalue] at hok
      exact ⟨_, hok, scaled_between hrange hk hk' hscales⟩
    · rw [hvalue] at hn
      exact absurd hscales hn
  clip_rises hn _ _ _ _ hs ht he he' hle := clip_rises h.comparable hn hs ht he he' hle
  scale_rises hup _ _ _ _ _ _ hs ht he he' hsc hsc' hle :=
    scale_rises h.comparable hup hs ht he he' hsc hsc' hle
  mirrors hclip hinv _ hs := h.mirrors hclip hinv hs
  joystick feat hfeat s s' s'' hs he hsc state := by
    obtain ⟨-, rfl⟩ := scale_ok h.comparable hs he hsc
    rw [joyMapped_iff, scaled_range hs h.comparable he]
    exact h.joystick (Option.isSome_of_mem hfeat)

theorem Meets.comparable (h : Meets nhi nha) : Comparable nhi nha := by
  intro hrel
  have hle := nhi.le
  have hinside (oldValue value : ℤ) (hold : OldValue nhi oldValue) (hv : nhi.Inside value) :
      nhi.logicalMin - nhi.logicalMax ≤ value - oldValue ∧
        value - oldValue ≤ nhi.logicalMax - nhi.logicalMin := by
    obtain ⟨s, he, hs, hs'⟩ := h.relative oldValue value hold hv
    rw [setAbsToRel_rel hrel] at he
    cases hl : long (value - oldValue) with
    | error fault =>
      rw [hl] at he
      cases he
    | ok n =>
      obtain ⟨-, rfl⟩ := long_iff.mp hl
      rw [hl] at he
      obtain rfl := Except.ok.inj he
      simp only at hs hs'
      omega
  have htop : nhi.Inside nhi.logicalMax := ⟨hle, le_rfl⟩
  have hbottom : nhi.Inside nhi.logicalMin := ⟨le_rfl, hle⟩
  cases harr : nhi.isArray with
  | true =>
    have := hinside _ _ (.array harr) htop
    omega
  | false =>
    have h1 := hinside _ _ (.cleared harr) htop
    have h2 := hinside _ _ (.cleared harr) hbottom
    exact ⟨rfl, by omega, by omega⟩

theorem reached_of_above (hc : Comparable nhi nha) {k : ℤ} (hk : 0 ≤ k)
    (hk' : k ≤ nhi.span nha) :
    Reached nhi nha ⟨nhi.realMin nha, nhi.realMax nha, k + nhi.realMin nha⟩ := by
  have hspan : nhi.span nha = nhi.realMax nha - nhi.realMin nha := rfl
  refine reached_of_inRange hc ⟨rfl, rfl⟩ ⟨?_, ?_⟩
  · change nhi.realMin nha ≤ k + nhi.realMin nha
    omega
  · change k + nhi.realMin nha ≤ nhi.realMax nha
    omega

theorem Meets.mirror (h : Meets nhi nha) (hclip : nha.clipEnable = true)
    (hinv : nha.clipMax < nha.clipMin) :
    nhi.realMin nha = 0 ∨ low nha (nhi.span nha) = high nha (nhi.span nha) := by
  have hc := h.comparable
  have hspan : nhi.span nha = nhi.realMax nha - nhi.realMin nha := rfl
  have hnonneg : 0 ≤ nhi.span nha :=
    (sized_of_range (s := ⟨nhi.realMin nha, nhi.realMax nha, 0⟩) ⟨rfl, rfl⟩).span_nonneg
  obtain ⟨hlow, hle, hhigh⟩ := bounds_low_high nha hnonneg
  -- the mirrored value is the one that is clipped, off by the minimum of the range
  have hsame (k : ℤ) (hk : 0 ≤ k) (hk' : k ≤ nhi.span nha) :
      clamped (low nha (nhi.span nha)) (high nha (nhi.span nha)) (k - nhi.realMin nha) =
        clamped (low nha (nhi.span nha)) (high nha (nhi.span nha)) k := by
    have hs := reached_of_above hc (k := nhi.span nha - k) (by omega) (by omega)
    have hsp := reached_span hs
    obtain ⟨s', he, -⟩ := h.clip_total _ hs
    have hmirror := h.mirrors hclip hinv _ hs
    rw [he] at hmirror
    obtain ⟨-, rfl⟩ := clip_ok hc hs he
    rcases clip_mirrored hclip hinv hs (reached_inRange hc hs) with ⟨-, he'⟩ | ⟨-, he'⟩
    · rw [he'] at hmirror
      have hvalue := congrArg Axis.value (Except.ok.inj hmirror)
      have hshaped := add_right_cancel hvalue
      rw [clipped, if_pos hclip, position, if_pos hinv] at hshaped
      have hclamped := shaped_inj (by rw [hsp]; omega) (by rw [hsp]; exact hle) hshaped
      have hvalue : nhi.realMax nha - (nhi.span nha - k + nhi.realMin nha) = k := by omega
      simp only [hvalue] at hclamped
      exact hclamped
    · rw [he'] at hmirror
      cases hmirror
  have hbottom := hsame _ hlow (hle.trans hhigh)
  have htop := hsame _ (hlow.trans hle) hhigh
  unfold clamped at hbottom htop
  omega

theorem Meets.extreme (h : Meets nhi nha) : ∃ s, Reached nhi nha s ∧
    clipped nha s = reach nha (nhi.span nha) ∧ (nha.clipEnable = true →
      low nha (nhi.span nha) = high nha (nhi.span nha) ∨ clamped (low nha (nhi.span nha))
        (high nha (nhi.span nha)) (position nha s) = high nha (nhi.span nha)) := by
  have hc := h.comparable
  have hspan : nhi.span nha = nhi.realMax nha - nhi.realMin nha := rfl
  have hnonneg : 0 ≤ nhi.span nha :=
    (sized_of_range (s := ⟨nhi.realMin nha, nhi.realMax nha, 0⟩) ⟨rfl, rfl⟩).span_nonneg
  obtain ⟨hlow, hle, hhigh⟩ := bounds_low_high nha hnonneg
  have hall (s : Axis) (hs : Reached nhi nha s) (hclip : nha.clipEnable = true)
      (hpos : low nha (nhi.span nha) = high nha (nhi.span nha) ∨
        position nha s = nhi.span nha) :
      clipped nha s = reach nha (nhi.span nha) ∧ (nha.clipEnable = true →
        low nha (nhi.span nha) = high nha (nhi.span nha) ∨ clamped (low nha (nhi.span nha))
          (high nha (nhi.span nha)) (position nha s) = high nha (nhi.span nha)) := by
    rw [clipped, reach, if_pos hclip, if_pos hclip, reached_span hs]
    rcases hpos with hpoint | hpos
    · refine ⟨?_, fun _ => Or.inl hpoint⟩
      rw [if_neg fun hst => hst.2 hpoint, hpoint, shaped_point]
    · have htop : clamped (low nha (nhi.span nha)) (high nha (nhi.span nha))
          (position nha s) = high nha (nhi.span nha) := by
        unfold clamped
        omega
      refine ⟨?_, fun _ => Or.inr htop⟩
      unfold shaped
      rw [htop]
      split
      · rename_i hst
        exact stretched_top (lt_of_le_of_ne hle hst.2)
      · rfl
  by_cases hinv : nha.clipEnable = true ∧ nha.clipMax < nha.clipMin
  · have hs := reached_of_above hc le_rfl hnonneg
    refine ⟨_, hs, hall _ hs hinv.1 ?_⟩
    rcases h.mirror hinv.1 hinv.2 with hzero | hpoint
    · refine Or.inr ?_
      rw [position, if_pos hinv.2]
      change nhi.realMax nha - (0 + nhi.realMin nha) - nhi.realMin nha = _
      omega
    · exact Or.inl hpoint
  · have hs := reached_of_above hc hnonneg le_rfl
    have habove : nhi.span nha + nhi.realMin nha - nhi.realMin nha = nhi.span nha := by omega
    refine ⟨_, hs, ?_⟩
    by_cases hclip : nha.clipEnable = true
    · refine hall _ hs hclip (Or.inr ?_)
      rw [position, if_neg fun hlt => hinv ⟨hclip, hlt⟩]
      exact habove
    · refine ⟨?_, fun hcl => absurd hcl hclip⟩
      rw [clipped, reach, if_neg hclip, if_neg hclip]
      exact habove

theorem Meets.sound (h : Meets nhi nha) : Sound nhi nha := by
  have hc := h.comparable
  obtain ⟨s, hs, hreach, htop⟩ := h.extreme
  obtain ⟨s', he, -⟩ := h.clip_total s hs
  obtain ⟨s'', he', -⟩ := h.scale_total s s' hs he
  obtain ⟨hclips, -⟩ := clip_ok hc hs he
  obtain ⟨hscales, hfinal⟩ := scale_ok hc hs he he'
  refine ⟨hc, h.mirror, fun hclip hst => ?_, ?_, fun hjoy => ?_⟩
  · have hstretch := hclips hclip hst
    rw [reached_span hs] at hstretch
    rcases htop hclip with hpoint | hhigh
    · rw [hpoint, sub_self, zero_mul]
      decide
    · by_cases hpoint : low nha (nhi.span nha) = high nha (nhi.span nha)
      · rw [hpoint, sub_self, zero_mul]
        decide
      · have := hstretch hpoint
        rwa [hhigh] at this
  · rw [reached_span hs, hreach] at hscales
    exact hscales
  · obtain ⟨feat, hfeat⟩ := Option.isSome_iff_exists.mp hjoy
    have := (joyMapped_iff _ _ _ _).mp (h.joystick feat hfeat s s' s'' hs he he' 0)
    rw [hfinal] at this
    exact (scaled_range hs hc he _).mp this

end steps

/-- The steps do what is expected of them when the values before are those of the range, an inverse
clip starts at zero or is one to a point, the products are small, what is scaled has a range, and a
joystick gets the range it has. -/
theorem axis_iff (nhi : NepHidItem) (nha : NepHidAction) : Meets nhi nha ↔ Sound nhi nha :=
  ⟨Meets.sound, Sound.meets⟩

/-- A signed axis on a joystick: its maximum is stored as 0. -/
theorem joystick_wraps : ¬ Meets
    ⟨false, -127, 127, by decide, by decide, by decide, by decide⟩
    ⟨some .absX, false, false, 0, 100, false, false, 0, 0, by decide, by decide, by decide,
      by decide⟩ := fun h => by
  have hrange := h.sound.joystick rfl
  exact absurd hrange (by decide)

end Neptune.HidAxis
