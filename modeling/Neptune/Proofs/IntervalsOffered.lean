import Neptune.Proofs.DescInside
import Neptune.Spec.UvcCtrl

/-! The frame intervals that are handed out, against those that the frame has. -/

namespace Neptune.UvcCtrl

open Option List

open Uvc

def numHeld (ufr : UvcFrame) : ℕ := if ufr.numIntervals ≠ 0 then ufr.numIntervals else 3

def intervals (ufr : UvcFrame) : List ℕ := (List.range (numHeld ufr)).filterMap (uvcFrameInterval ufr)

def Has (ufr : UvcFrame) (x : ℕ) : Prop :=
  if ufr.numIntervals ≠ 0 then x ∈ intervals ufr
  else ∃ shortest longest step, intervals ufr = [shortest, longest, step] ∧ shortest ≤ x ∧ x ≤ longest ∧
    (step ∣ x - shortest ∨ x = longest)

def Nearest (ufr : UvcFrame) (interval x : ℕ) : Prop :=
  if ufr.numIntervals ≠ 0 then ∀ y ∈ intervals ufr, distance x interval ≤ distance y interval
  else ∀ shortest longest step, intervals ufr = [shortest, longest, step] →
    ∀ y, shortest ≤ y → y ≤ longest → distance x interval ≤ distance y interval + step / 2

def Unwrapped (ufr : UvcFrame) (interval : ℕ) : Prop :=
  ufr.numIntervals = 0 → ∀ shortest longest step, intervals ufr = [shortest, longest, step] →
    shortest < interval → interval < longest →
    step ≠ 0 ∧ interval - shortest + step / 2 < 2 ^ 32 ∧
      shortest + (interval - shortest + step / 2) / step * step < 2 ^ 32

structure Offered (ufr : UvcFrame) (interval x : ℕ) : Prop where
  has : Has ufr x
  nearest : interval ≠ 0 → Nearest ufr interval x
  unwrapped : Unwrapped ufr interval

/-- In a list, a default between the first and the last interval is listed. In a range, the maximum is not
below the minimum, a default between them is on a step, and a request between them is not rounded up beyond
the maximum. -/
def Fits (ufr : UvcFrame) (default interval : ℕ) : Prop :=
  if ufr.numIntervals ≠ 0 then
    interval = 0 → ∀ first last, (intervals ufr).head? = some first → (intervals ufr).getLast? = some last →
      first ≤ default → default ≤ last → default ∈ intervals ufr
  else ∀ shortest longest step, intervals ufr = [shortest, longest, step] →
    shortest ≤ longest ∧
      (interval = 0 → shortest ≤ default → default ≤ longest → step ∣ default - shortest ∨ default = longest) ∧
      (shortest < interval → interval < longest → interval - shortest + step / 2 < 2 ^ 32 ∧
        ((interval - shortest) % step + step / 2 < step ∨
          interval - (interval - shortest) % step + step ≤ longest))

structure Holds (ufr : UvcFrame) (default : ℕ) (held : ℕ → ℕ) : Prop where
  get : ∀ i < numHeld ufr, uvcFrameInterval ufr i = some (held i)
  pos : ∀ i < numHeld ufr, 1 ≤ held i
  isUlong : ∀ i < numHeld ufr, held i < 2 ^ 32
  default : ufr.defInterval =
    min (max default (held 0)) (held (if ufr.numIntervals ≠ 0 then ufr.numIntervals - 1 else 1))

variable {ufr : UvcFrame} {up : UvcPayload} {d : Desc} {default interval : ℕ} {held : ℕ → ℕ}

theorem long_lt {i n : ℕ} (h : d.long i = some n) : n < 2 ^ 32 := by
  have hbyte (i b : ℕ) (hb : d.byte i = some b) : b < 256 := by
    obtain ⟨c, -, rfl⟩ := map_eq_some_iff.1 hb
    exact c.toNat_lt
  have hword (i w : ℕ) (hw : d.word i = some w) : w < 65536 := by
    simp only [Desc.word, bind_eq_bind, bind_eq_some_iff] at hw
    obtain ⟨low, hlow, high, hhigh, hw⟩ := hw
    cases hw
    have := hbyte i low hlow
    have := hbyte (i + 1) high hhigh
    omega
  simp only [Desc.long, bind_eq_bind, bind_eq_some_iff] at h
  obtain ⟨low, hlow, high, hhigh, h⟩ := h
  cases h
  have := hword i low hlow
  have := hword (i + 2) high hhigh
  omega

theorem uvcFrameInterval_bounds {i n : ℕ} (h : uvcFrameInterval ufr i = some n) : 1 ≤ n ∧ n < 2 ^ 32 := by
  simp only [uvcFrameInterval, bind_eq_bind, bind_eq_some_iff] at h
  obtain ⟨interval, hread, h⟩ := h
  have hlt := long_lt hread
  cases h
  split <;> omega

theorem uvcFrameOf_holds (h : uvcFrameOf up d = some (some ufr)) :
    ∃ default, d.long up.defInterval = some default ∧ ∃ held, Holds ufr default held := by
  unfold uvcFrameOf at h
  split at h
  · cases h
  · simp only [bind_eq_bind, bind_eq_some_iff] at h
    obtain ⟨n, -, h⟩ := h
    by_cases hroom : d.len < up.intervals + 4 * (if n ≠ 0 then n else 3)
    · rw [if_pos hroom] at h
      cases h
    · rw [if_neg hroom] at h
      simp only [bind_eq_some_iff] at h
      obtain ⟨index, -, width, -, height, -, interval, hinterval, shortest, hshortest, longest, hlongest, h⟩ := h
      cases h
      refine ⟨interval, hinterval, ?_⟩
      have hread (i : ℕ) (hi : i < if n ≠ 0 then n else 3) : ∃ m, uvcFrameInterval
          ⟨index, n, width, height, min (max interval shortest) longest, ⟨d, up.intervals⟩⟩ i = some m := by
        refine uvcFrameInterval_inside _ i ?_
        dsimp only
        omega
      refine ⟨fun i => (uvcFrameInterval
        ⟨index, n, width, height, min (max interval shortest) longest, ⟨d, up.intervals⟩⟩ i).getD 0,
        fun i hi => ?_, fun i hi => ?_, fun i hi => ?_, ?_⟩
      · obtain ⟨m, hm⟩ := hread i hi
        rw [hm]
        rfl
      · obtain ⟨m, hm⟩ := hread i hi
        rw [hm]
        exact (uvcFrameInterval_bounds hm).1
      · obtain ⟨m, hm⟩ := hread i hi
        rw [hm]
        exact (uvcFrameInterval_bounds hm).2
      · have hfirst : uvcFrameInterval
            ⟨index, n, width, height, min (max interval shortest) longest, ⟨d, up.intervals⟩⟩ 0 = some shortest :=
          hshortest
        have hlast : uvcFrameInterval
            ⟨index, n, width, height, min (max interval shortest) longest, ⟨d, up.intervals⟩⟩
            (if n ≠ 0 then n - 1 else 1) = some longest := hlongest
        rw [hfirst, hlast]
        rfl

theorem Holds.intervals (h : Holds ufr default held) : intervals ufr = (range (numHeld ufr)).map held := by
  rw [← filterMap_eq_map]
  exact filterMap_congr fun i hi => h.get i (mem_range.1 hi)

theorem Holds.mem (h : Holds ufr default held) {x : ℕ} : x ∈ UvcCtrl.intervals ufr ↔ ∃ i < numHeld ufr, held i = x := by
  rw [h.intervals, List.mem_map]
  exact exists_congr fun i => and_congr_left' List.mem_range

theorem nearestFrom_spec (h : Holds ufr default held) (n cnt best : ℕ) (hcnt : cnt + n ≤ numHeld ufr) :
    ∃ x, nearestFrom ufr interval best cnt n = some x ∧ (x = best ∨ ∃ i < numHeld ufr, held i = x) ∧
      distance x interval ≤ distance best interval ∧
      ∀ i, cnt ≤ i → i < cnt + n → distance x interval ≤ distance (held i) interval := by
  induction n generalizing cnt best with
  | zero => exact ⟨best, rfl, .inl rfl, le_rfl, fun i _ _ => by omega⟩
  | succ n ih =>
    rw [nearestFrom, h.get cnt (by omega)]
    obtain ⟨x, hx, hof, hbest, hrest⟩ := ih (cnt + 1)
      (if distance (held cnt) interval < distance best interval then held cnt else best) (by omega)
    have hboth : distance (if distance (held cnt) interval < distance best interval then held cnt else best) interval ≤
        distance best interval ∧
        distance (if distance (held cnt) interval < distance best interval then held cnt else best) interval ≤
          distance (held cnt) interval := by
      split <;> omega
    refine ⟨x, hx, ?_, hbest.trans hboth.1, fun i hlow hhigh => ?_⟩
    · rcases hof with rfl | hin
      · split
        · exact .inr ⟨cnt, by omega, rfl⟩
        · exact .inl rfl
      · exact .inr hin
    · by_cases hi : i = cnt
      · subst hi
        exact hbest.trans hboth.2
      · exact hrest i (by omega) (by omega)

theorem Holds.snap_list (h : Holds ufr default held) (hlist : ufr.numIntervals ≠ 0) (interval : ℕ) :
    ∃ x, uvcSnapInterval ufr interval = some x ∧ (Offered ufr interval x ↔ Fits ufr default interval) := by
  have hheld : numHeld ufr = ufr.numIntervals := if_pos hlist
  have hunwrapped : Unwrapped ufr interval := fun hnone => absurd hnone hlist
  unfold uvcSnapInterval Fits
  rw [if_pos hlist]
  by_cases hzero : interval = 0
  · have hfirst : (UvcCtrl.intervals ufr).head? = some (held 0) := by
      rw [h.intervals, hheld, head?_map, head?_range, if_neg hlist]
      rfl
    have hlast : (UvcCtrl.intervals ufr).getLast? = some (held (ufr.numIntervals - 1)) := by
      rw [h.intervals, hheld, getLast?_map, getLast?_range, if_neg hlist]
      rfl
    have hin (i : ℕ) (hi : i < ufr.numIntervals) : held i ∈ UvcCtrl.intervals ufr := h.mem.2 ⟨i, hheld.symm ▸ hi, rfl⟩
    have hdefault := h.default
    rw [if_pos hlist] at hdefault
    rw [if_pos hzero]
    refine ⟨_, rfl, ⟨fun hoffered _ first last hf hl hlow hhigh => ?_, fun hfits => ⟨?_, fun hnot => absurd hzero hnot,
      hunwrapped⟩⟩⟩
    · cases hfirst.symm.trans hf
      cases hlast.symm.trans hl
      have hhas := hoffered.has
      rw [Has, if_pos hlist, hdefault, max_eq_left hlow, min_eq_left hhigh] at hhas
      exact hhas
    · rw [Has, if_pos hlist, hdefault]
      rcases le_total (held 0) default with hlow | hlow
      · rcases le_total default (held (ufr.numIntervals - 1)) with hhigh | hhigh
        · rw [max_eq_left hlow, min_eq_left hhigh]
          exact hfits hzero _ _ hfirst hlast hlow hhigh
        · rw [max_eq_left hlow, min_eq_right hhigh]
          exact hin _ (by omega)
      · rw [max_eq_right hlow]
        rcases min_choice (held 0) (held (ufr.numIntervals - 1)) with heq | heq
        · rw [heq]
          exact hin 0 (by omega)
        · rw [heq]
          exact hin _ (by omega)
  · obtain ⟨x, hx, hof, hbest, hrest⟩ := @nearestFrom_spec ufr default interval held h (ufr.numIntervals - 1) 1 (held 0)
      (by omega)
    rw [if_neg hzero, if_neg hlist, h.get 0 (by omega)]
    refine ⟨x, hx, iff_of_true ⟨?_, fun _ => ?_, hunwrapped⟩ fun hnot => absurd hnot hzero⟩
    · rw [Has, if_pos hlist]
      rcases hof with rfl | hin
      · exact h.mem.2 ⟨0, by omega, rfl⟩
      · exact h.mem.2 hin
    · rw [Nearest, if_pos hlist]
      intro y hy
      obtain ⟨i, hi, rfl⟩ := h.mem.1 hy
      by_cases hfirst : i = 0
      · subst hfirst
        exact hbest
      · exact hrest i (by omega) (by omega)

theorem rounded {n step : ℕ} (hstep : 1 ≤ step) :
    (n + step / 2) / step * step = if n % step + step / 2 < step then n - n % step else n - n % step + step := by
  have hparts := Nat.div_add_mod n step
  have hmod : n % step < step := Nat.mod_lt _ hstep
  have hdiv : (n + step / 2) / step = (n % step + step / 2) / step + n / step := by
    conv_lhs => rw [← hparts, Nat.add_assoc, Nat.add_comm, Nat.add_mul_div_left _ _ hstep]
  have hmul : n / step * step = n - n % step := by
    rw [Nat.mul_comm]
    omega
  rw [hdiv, Nat.add_mul, hmul]
  split
  · rename_i hdown
    rw [Nat.div_eq_of_lt hdown]
    omega
  · have hone : (n % step + step / 2) / step = 1 := Nat.div_eq_of_lt_le (by omega) (by omega)
    rw [hone]
    omega

theorem Holds.range (h : Holds ufr default held) (hrange : ufr.numIntervals = 0) :
    UvcCtrl.intervals ufr = [held 0, held 1, held 2] := by
  rw [h.intervals, numHeld, if_neg (not_not.2 hrange)]
  rfl

section range

variable {shortest longest step x : ℕ} (hrange : ufr.numIntervals = 0)
  (hthree : intervals ufr = [shortest, longest, step])

include hrange hthree

theorem has_range : Has ufr x ↔ shortest ≤ x ∧ x ≤ longest ∧ (step ∣ x - shortest ∨ x = longest) := by
  rw [Has, if_neg (not_not.2 hrange)]
  constructor
  · rintro ⟨a, b, c, heq, hx⟩
    cases hthree.symm.trans heq
    exact hx
  · exact fun hx => ⟨_, _, _, hthree, hx⟩

theorem nearest_range : Nearest ufr interval x ↔
    ∀ y, shortest ≤ y → y ≤ longest → distance x interval ≤ distance y interval + step / 2 := by
  rw [Nearest, if_neg (not_not.2 hrange)]
  constructor
  · exact fun hall => hall _ _ _ hthree
  · intro hall a b c heq
    cases hthree.symm.trans heq
    exact hall

theorem unwrapped_range : Unwrapped ufr interval ↔ (shortest < interval → interval < longest →
    step ≠ 0 ∧ interval - shortest + step / 2 < 2 ^ 32 ∧
      shortest + (interval - shortest + step / 2) / step * step < 2 ^ 32) := by
  constructor
  · exact fun hall => hall hrange _ _ _ hthree
  · intro hall _ a b c heq
    cases hthree.symm.trans heq
    exact hall

theorem fits_range : Fits ufr default interval ↔ shortest ≤ longest ∧
    (interval = 0 → shortest ≤ default → default ≤ longest → step ∣ default - shortest ∨ default = longest) ∧
    (shortest < interval → interval < longest → interval - shortest + step / 2 < 2 ^ 32 ∧
      ((interval - shortest) % step + step / 2 < step ∨
        interval - (interval - shortest) % step + step ≤ longest)) := by
  rw [Fits, if_neg (not_not.2 hrange)]
  constructor
  · exact fun hall => hall _ _ _ hthree
  · intro hall a b c heq
    cases hthree.symm.trans heq
    exact hall

end range

theorem distance_le {x y m : ℕ} (hxy : x ≤ y + m) (hyx : y ≤ x + m) : distance x y ≤ m := by
  unfold distance
  split <;> omega

theorem Holds.snap_between (h : Holds ufr default held) (hrange : ufr.numIntervals = 0) (hlow : held 0 < interval)
    (hhigh : interval < held 1) :
    Offered ufr interval
        (ulong (held 0 + ulong (ulong (interval - held 0 + held 2 / 2) / held 2 * held 2))) ↔
      Fits ufr default interval := by
  have hthree := h.range hrange
  have hheld : numHeld ufr = 3 := if_neg (not_not.2 hrange)
  have hstep : 1 ≤ held 2 := h.pos 2 (by omega)
  have hlongest : held 1 < 2 ^ 32 := h.isUlong 1 (by omega)
  have hround := @rounded (interval - held 0) (held 2) hstep
  have hmul : (interval - held 0 + held 2 / 2) / held 2 * held 2 ≤ interval - held 0 + held 2 / 2 :=
    Nat.div_mul_le_self ..
  have hmod : (interval - held 0) % held 2 ≤ interval - held 0 := Nat.mod_le ..
  have hrest : (interval - held 0) % held 2 < held 2 := Nat.mod_lt _ hstep
  rw [fits_range hrange hthree]
  constructor
  · rintro ⟨hhas, -, hunwrapped⟩
    obtain ⟨-, hsum, hplace⟩ := (unwrapped_range hrange hthree).1 hunwrapped hlow hhigh
    have hexact : ulong (held 0 + ulong (ulong (interval - held 0 + held 2 / 2) / held 2 * held 2)) =
        held 0 + (interval - held 0 + held 2 / 2) / held 2 * held 2 := by
      unfold ulong
      rw [Nat.mod_eq_of_lt hsum, Nat.mod_eq_of_lt (hmul.trans_lt hsum), Nat.mod_eq_of_lt hplace]
    rw [hexact, has_range hrange hthree, hround] at hhas
    refine ⟨by omega, fun hzero => by omega, fun _ _ => ⟨hsum, ?_⟩⟩
    by_cases hdown : (interval - held 0) % held 2 + held 2 / 2 < held 2
    · exact .inl hdown
    · rw [if_neg hdown] at hhas
      exact .inr (by omega)
  · rintro ⟨-, -, hfits⟩
    obtain ⟨hsum, hin⟩ := hfits hlow hhigh
    have hplace : held 0 + (interval - held 0 + held 2 / 2) / held 2 * held 2 ≤ held 1 := by
      rw [hround]
      split <;> omega
    have hexact : ulong (held 0 + ulong (ulong (interval - held 0 + held 2 / 2) / held 2 * held 2)) =
        held 0 + (interval - held 0 + held 2 / 2) / held 2 * held 2 := by
      unfold ulong
      rw [Nat.mod_eq_of_lt hsum, Nat.mod_eq_of_lt (hmul.trans_lt hsum), Nat.mod_eq_of_lt (hplace.trans_lt hlongest)]
    rw [hexact]
    refine ⟨(has_range hrange hthree).2 ⟨Nat.le_add_right .., hplace, .inl ?_⟩, fun _ => ?_, ?_⟩
    · rw [Nat.add_sub_cancel_left]
      exact Nat.dvd_mul_left ..
    · refine (nearest_range hrange hthree).2 fun y _ _ => (distance_le ?_ ?_).trans (Nat.le_add_left ..)
      · rw [hround]
        split <;> omega
      · rw [hround]
        split <;> omega
    · exact (unwrapped_range hrange hthree).2 fun _ _ => ⟨by omega, hsum, hplace.trans_lt hlongest⟩

theorem Holds.snap_range (h : Holds ufr default held) (hrange : ufr.numIntervals = 0) (interval : ℕ) :
    ∃ x, uvcSnapInterval ufr interval = some x ∧ (Offered ufr interval x ↔ Fits ufr default interval) := by
  have hthree := h.range hrange
  have hheld : numHeld ufr = 3 := if_neg (not_not.2 hrange)
  unfold uvcSnapInterval
  by_cases hzero : interval = 0
  · have hdefault := h.default
    rw [if_neg (not_not.2 hrange)] at hdefault
    have hquiet : Unwrapped ufr interval := (unwrapped_range hrange hthree).2 fun hpos => by omega
    rw [if_pos hzero]
    refine ⟨_, rfl, ?_⟩
    rw [fits_range hrange hthree, hdefault]
    constructor
    · rintro ⟨hhas, -, -⟩
      rw [has_range hrange hthree] at hhas
      refine ⟨by omega, fun _ hlow hhigh => ?_, fun hpos => by omega⟩
      rw [max_eq_left hlow, min_eq_left hhigh] at hhas
      exact hhas.2.2
    · rintro ⟨hends, hfits, -⟩
      refine ⟨(has_range hrange hthree).2 ⟨by omega, min_le_right .., ?_⟩, fun hnot => absurd hzero hnot, hquiet⟩
      rcases le_total (held 0) default with hlow | hlow
      · rcases le_total default (held 1) with hhigh | hhigh
        · rw [max_eq_left hlow, min_eq_left hhigh]
          exact hfits hzero hlow hhigh
        · exact .inr (min_eq_right (hhigh.trans (le_max_left ..)))
      · rw [max_eq_right hlow, min_eq_left hends, Nat.sub_self]
        exact .inl (Nat.dvd_zero _)
  · rw [if_neg hzero, if_pos hrange]
    have hmin : uvcFrameMinInterval ufr = some (held 0) := h.get 0 (by omega)
    have hmax : uvcFrameMaxInterval ufr = some (held 1) := by
      unfold uvcFrameMaxInterval
      rw [if_neg (not_not.2 hrange)]
      exact h.get 1 (by omega)
    rw [hmin, hmax, h.get 2 (by omega)]
    dsimp only [bind_eq_bind, bind_some]
    by_cases hlow : interval ≤ held 0
    · rw [if_pos hlow]
      refine ⟨_, rfl, ?_⟩
      rw [fits_range hrange hthree]
      constructor
      · rintro ⟨hhas, -, -⟩
        rw [has_range hrange hthree] at hhas
        exact ⟨by omega, fun hnot => absurd hnot hzero, fun hpos => by omega⟩
      · rintro ⟨hends, -, -⟩
        refine ⟨(has_range hrange hthree).2 ⟨le_rfl, hends, .inl ?_⟩, fun _ => ?_, ?_⟩
        · rw [Nat.sub_self]
          exact Nat.dvd_zero _
        · refine (nearest_range hrange hthree).2 fun y hy _ => ?_
          unfold distance
          split <;> split <;> omega
        · exact (unwrapped_range hrange hthree).2 fun hpos => by omega
    · rw [if_neg hlow]
      by_cases hhigh : held 1 ≤ interval
      · rw [if_pos hhigh]
        refine ⟨_, rfl, ?_⟩
        rw [fits_range hrange hthree]
        constructor
        · rintro ⟨hhas, -, -⟩
          rw [has_range hrange hthree] at hhas
          exact ⟨by omega, fun hnot => absurd hnot hzero, fun _ hless => by omega⟩
        · rintro ⟨hends, -, -⟩
          refine ⟨(has_range hrange hthree).2 ⟨hends, le_rfl, .inr rfl⟩, fun _ => ?_, ?_⟩
          · refine (nearest_range hrange hthree).2 fun y _ hy => ?_
            unfold distance
            split <;> split <;> omega
          · exact (unwrapped_range hrange hthree).2 fun _ hless => by omega
      · rw [if_neg hhigh]
        exact ⟨_, rfl, h.snap_between hrange (by omega) (by omega)⟩

theorem Holds.snap (h : Holds ufr default held) (interval : ℕ) :
    ∃ x, uvcSnapInterval ufr interval = some x ∧ (Offered ufr interval x ↔ Fits ufr default interval) := by
  by_cases hlist : ufr.numIntervals = 0
  · exact h.snap_range hlist interval
  · exact h.snap_list hlist interval

/-- What the descriptor states decides whether the interval is one of the frame's. -/
theorem interval_offered_iff (h : uvcFrameOf up d = some (some ufr)) (width height interval : ℕ) :
    ∃ default, d.long up.defInterval = some default ∧
      (∃ x, uvcSnapInterval ufr interval = some x ∧ (Offered ufr interval x ↔ Fits ufr default interval)) ∧
      ∃ x, uvcDefaultInterval ufr width height interval = some x ∧
        (Offered ufr (if ufr.width = width ∧ ufr.height = height then interval else 0) x ↔
          Fits ufr default (if ufr.width = width ∧ ufr.height = height then interval else 0)) := by
  obtain ⟨default, hdefault, held, hheld⟩ := uvcFrameOf_holds h
  exact ⟨default, hdefault, hheld.snap interval, hheld.snap _⟩

def uneven : Desc :=
  ⟨0, [38, 0x24, 0x07, 1, 0, 64, 1, 240, 0, 0, 0, 0, 0, 0, 0, 0, 0, 0, 0, 0, 0, 13, 0, 0, 0, 0,
    10, 0, 0, 0, 17, 0, 0, 0, 4, 0, 0, 0]⟩

def two : Desc :=
  ⟨0, [34, 0x24, 0x07, 1, 0, 64, 1, 240, 0, 0, 0, 0, 0, 0, 0, 0, 0, 0, 0, 0, 0, 13, 0, 0, 0, 2,
    10, 0, 0, 0, 17, 0, 0, 0]⟩

theorem interval_offered_iff_two : ∃ default, two.long 21 = some default ∧
    (∃ x, uvcSnapInterval ⟨1, 2, 320, 240, 13, ⟨two, 26⟩⟩ 0 = some x ∧
      (Offered ⟨1, 2, 320, 240, 13, ⟨two, 26⟩⟩ 0 x ↔ Fits ⟨1, 2, 320, 240, 13, ⟨two, 26⟩⟩ default 0)) ∧
    ∃ x, uvcDefaultInterval ⟨1, 2, 320, 240, 13, ⟨two, 26⟩⟩ 320 240 0 = some x ∧
      (Offered ⟨1, 2, 320, 240, 13, ⟨two, 26⟩⟩ (if 320 = 320 ∧ 240 = 240 then 0 else 0) x ↔
        Fits ⟨1, 2, 320, 240, 13, ⟨two, 26⟩⟩ default (if 320 = 320 ∧ 240 = 240 then 0 else 0)) :=
  @interval_offered_iff ⟨1, 2, 320, 240, 13, ⟨two, 26⟩⟩ rowMjpeg two (by decide) 320 240 0

/-- The default that is not listed, and the request that is rounded up beyond the maximum. -/
theorem handed_out_without_it :
    (∃ ufr, uvcFrameOf rowMjpeg two = some (some ufr) ∧ uvcDefaultInterval ufr 0 0 0 = some 13 ∧ ¬ Has ufr 13) ∧
    ∃ ufr, uvcFrameOf rowMjpeg uneven = some (some ufr) ∧ uvcSnapInterval ufr 16 = some 18 ∧ ¬ Has ufr 18 := by
  refine ⟨⟨⟨1, 2, 320, 240, 13, ⟨two, 26⟩⟩, by decide, by decide, ?_⟩,
    ⟨1, 0, 320, 240, 13, ⟨uneven, 26⟩⟩, by decide, by decide, ?_⟩
  · rw [Has, if_pos (by decide)]
    decide
  · rw [has_range rfl (show intervals ⟨1, 0, 320, 240, 13, ⟨uneven, 26⟩⟩ = [10, 17, 4] by decide)]
    decide

end Neptune.UvcCtrl
