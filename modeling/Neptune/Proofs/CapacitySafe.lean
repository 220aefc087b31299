import Neptune.Proofs.GeometryExact
import Neptune.Spec.Capacity

/-! When the capacity and the mode pages of a device do no harm. -/

namespace Neptune

open Option

namespace FakeGeometry

/-! Of what `nFakeGeometry` does it is the end and the number of sectors that matter here. -/

theorem nFakeGeometry_ends (stack : Factors) (ncm : NepClassMS) (tddg : DriveGeometry)
    (hlt : tddg.totalSectors < 2 ^ 32) (h : ¬(tddg.totalSectors = 1 ∧ ncm.fixCapacity = false)) :
    ∃ faked enough, (∀ fuel ≥ enough, nFakeGeometry fuel stack ncm tddg = some faked) ∧
      (faked.tddg.totalSectors = tddg.totalSectors ∨
        Stubborn tddg.totalSectors ∧ (ncm.fixCapacity = false ∧ faked.tddg.totalSectors + 1 = tddg.totalSectors ∨
          ncm.fixCapacity = true ∧ faked.tddg.totalSectors = tddg.totalSectors + 1)) := by
  by_cases hpos : tddg.totalSectors = 0
  · refine ⟨⟨ncm, tddg, false⟩, 0, fun fuel _ => ?_, .inl rfl⟩
    rw [nFakeGeometry, if_pos hpos]
  have hsectors : (described ncm tddg).totalSectors = tddg.totalSectors := rfl
  by_cases hstubborn : Stubborn tddg.totalSectors
  · obtain ⟨f₁, ncm₁, hfirst⟩ := attempts_stubborn stack ncm (described ncm tddg) hlt hstubborn
    rw [hsectors] at hfirst
    have htwo := hstubborn.1
    have hthree := hstubborn.2.1
    -- the second attempt, at an even number next to it
    have hagain : ∀ n, n ≠ 0 → n % 2 = 0 → n < 2 ^ 32 →
        (∀ fuel ≥ 64, attempts (fuel + 1) stack ncm (described ncm tddg) =
          attempts fuel f₁ ncm₁ { described ncm tddg with totalSectors := n }) →
        ∃ faked enough, (∀ fuel ≥ enough, nFakeGeometry fuel stack ncm tddg = some faked) ∧
          faked.tddg.totalSectors = n := by
      intro n hn heven hnlt hsecond
      obtain ⟨a, b, q, hq, hqtwo, hqthree⟩ := exists_parts hn
      obtain ⟨f', hf, hrun⟩ := attempts_found f₁ ncm₁ { described ncm tddg with totalSectors := n } hq hqtwo hqthree
        hnlt fun hbad => hbad.1 heven
      obtain ⟨faked, enough, hfaked, -, htotal, -⟩ :=
        nFakeGeometry_dealt hpos hf (show ({ described ncm tddg with totalSectors := n } : DriveGeometry).totalSectors = _
          from hq) hqtwo hnlt
          fun fuel hfuel => by
            obtain ⟨fuel, rfl⟩ := Nat.exists_eq_succ_of_ne_zero (by omega : fuel ≠ 0)
            exact (hsecond fuel (by omega)).trans (hrun fuel (by omega))
      exact ⟨faked, enough, hfaked, htotal⟩
    cases hfix : ncm.fixCapacity with
    | true =>
      simp only [hfix, if_true] at hfirst
      cases hno : ncm.noFallback with
      | true =>
        simp only [hno, if_true] at hfirst
        refine ⟨⟨ncm₁, described ncm tddg, true⟩, 65, fun fuel hfuel => ?_, .inl rfl⟩
        obtain ⟨fuel, rfl⟩ := Nat.exists_eq_succ_of_ne_zero (by omega : fuel ≠ 0)
        rw [nFakeGeometry, if_neg hpos]
        change (attempts (fuel + 1) stack ncm (described ncm tddg)).bind _ = _
        rw [hfirst fuel (by omega)]
        rfl
      | false =>
        have hnext : ulong (tddg.totalSectors + 1) = tddg.totalSectors + 1 := ulong_of_lt (by omega)
        simp only [hno, Bool.false_eq_true, if_false, hnext] at hfirst
        obtain ⟨faked, enough, hfaked, htotal⟩ := hagain _ (by omega) (by omega) (by omega) hfirst
        exact ⟨faked, enough, hfaked, .inr ⟨hstubborn, .inr ⟨rfl, htotal⟩⟩⟩
    | false =>
      have hnext : ulongSub tddg.totalSectors 1 = tddg.totalSectors - 1 := ulongSub_of_le (by omega) hlt
      simp only [hfix, Bool.false_eq_true, if_false, hnext] at hfirst
      have hone : tddg.totalSectors ≠ 1 := fun hone => h ⟨hone, hfix⟩
      obtain ⟨faked, enough, hfaked, htotal⟩ := hagain _ (by omega) (by omega) (by omega) hfirst
      exact ⟨faked, enough, hfaked, .inr ⟨hstubborn, .inl ⟨rfl, by omega⟩⟩⟩
  · obtain ⟨a, b, q, hq, htwo, hthree⟩ := exists_parts hpos
    obtain ⟨f', hf, hrun⟩ := attempts_found stack ncm (described ncm tddg) hq htwo hthree hlt hstubborn
    obtain ⟨faked, enough, hfaked, -, htotal, -⟩ :=
      nFakeGeometry_dealt hpos hf (show (described ncm tddg).totalSectors = _ from hq) htwo hlt
        fun fuel hfuel => hrun fuel (by omega)
    exact ⟨faked, enough, hfaked, .inl htotal⟩

theorem nFakeGeometry_single (stack : Factors) (ncm : NepClassMS) (tddg : DriveGeometry) (hone : tddg.totalSectors = 1)
    (hfix : ncm.fixCapacity = false) {fuel : ℕ} (hfuel : 65 ≤ fuel) : nFakeGeometry fuel stack ncm tddg = none := by
  have hsectors : (described ncm tddg).totalSectors = 1 := hone
  obtain ⟨f₁, ncm₁, hfirst⟩ := attempts_stubborn stack ncm (described ncm tddg) (by rw [hsectors]; decide)
    (by rw [hsectors]; decide)
  obtain ⟨fuel, rfl⟩ := Nat.exists_eq_succ_of_ne_zero (by omega : fuel ≠ 0)
  rw [nFakeGeometry, if_neg (by omega)]
  change (attempts (fuel + 1) stack ncm (described ncm tddg)).bind _ = _
  rw [hfirst fuel (by omega), hfix, hsectors, if_neg Bool.false_ne_true, attempts_zero _ _ rfl]
  rfl

end FakeGeometry

namespace Capacity

open FakeGeometry (Factors DriveGeometry Stubborn ulong_of_lt nFakeGeometry_ends nFakeGeometry_single)

variable {k : ℕ} {ans : ModeSense} {ncm ncm' : NepClassMS}

theorem shiftLoop_lt {blockSize : ℕ} : ∀ left blockShift, shiftLoop blockSize left blockShift = some k →
    k < blockShift + left := by
  intro left
  induction left with
  | zero => exact fun _ h => nomatch h
  | succ left ih =>
    intro blockShift h
    rw [shiftLoop] at h
    split at h
    · have := ih _ h
      omega
    · cases h
      omega

theorem shiftLoop_pow : ∀ left blockShift, blockShift ≤ k → k < blockShift + left →
    shiftLoop (2 ^ k) left blockShift = some k := by
  intro left
  induction left with
  | zero => exact fun _ hle hlt => absurd hlt (by omega)
  | succ left ih =>
    intro blockShift hle hlt
    rw [shiftLoop]
    by_cases heq : blockShift = k
    · rw [heq, if_neg (lt_irrefl _)]
    · rw [if_pos (Nat.pow_lt_pow_right (by decide) (by omega))]
      exact ih _ (by omega) (by omega)

theorem shiftOf_pow (hk : k < 32) : shiftOf (2 ^ k) = some k := shiftLoop_pow 32 0 (Nat.zero_le _) (by omega)

theorem nGetBlockSize_iff (data : CapacityData) (ncm : NepClassMS) :
    (∃ r, nGetBlockSize data ncm = some r ∧ (r.1 ≠ 0 ∨ r.2.Shifted)) ↔
      (data.ioerr = 0 → ∃ k < 32, data.sectorSize.toNat = 2 ^ k) := by
  by_cases hok : data.ioerr = 0
  · rw [nGetBlockSize, if_neg (not_not.mpr hok)]
    constructor
    · rintro ⟨r, hr, hshifted⟩ -
      obtain ⟨k, hk, hr⟩ := bind_eq_some_iff.mp hr
      cases hr
      have hlt : k < 32 := by simpa using shiftLoop_lt 32 0 hk
      exact ⟨k, hlt, hshifted.resolve_left (fun h => h rfl)⟩
    · intro h
      obtain ⟨k, hk, hsize⟩ := h hok
      exact ⟨_, bind_eq_some_iff.mpr ⟨k, hsize ▸ shiftOf_pow hk, rfl⟩, .inr hsize⟩
  · rw [nGetBlockSize, if_pos hok]
    exact iff_of_true ⟨_, rfl, .inl hok⟩ fun h => absurd h hok

theorem nGetBlockSize_total {data : CapacityData} {r : ℤ × NepClassMS}
    (h : nGetBlockSize data ncm = some r) (hok : data.ioerr = 0) :
    r.2.geometry.totalSectors = ulong (data.sectorCount.toNat + 1) := by
  rw [nGetBlockSize, if_neg (not_not.mpr hok)] at h
  obtain ⟨k, -, hr⟩ := bind_eq_some_iff.mp h
  cases hr
  rfl

def total (data : CapacityData) : ℕ :=
  if data.sectorCount = 0xffffffff then 2 ^ 32 - 1 else data.sectorCount.toNat + 1

structure Kept (ncm ncm' : NepClassMS) : Prop where
  fixCapacity : ncm'.fixCapacity = ncm.fixCapacity
  noFallback : ncm'.noFallback = ncm.noFallback
  blockSize : ncm'.blockSize = ncm.blockSize
  blockShift : ncm'.blockShift = ncm.blockShift
  total : ncm'.geometry.totalSectors = ncm.geometry.totalSectors

theorem Kept.refl (ncm : NepClassMS) : Kept ncm ncm := ⟨rfl, rfl, rfl, rfl, rfl⟩

theorem Kept.trans {ncm'' : NepClassMS} (h : Kept ncm ncm') (h' : Kept ncm' ncm'') : Kept ncm ncm'' :=
  ⟨h'.fixCapacity.trans h.fixCapacity, h'.noFallback.trans h.noFallback, h'.blockSize.trans h.blockSize,
    h'.blockShift.trans h.blockShift, h'.total.trans h.total⟩

theorem Kept.shifted (h : Kept ncm ncm') (hncm : ncm.Shifted) : ncm'.Shifted := by
  rw [NepClassMS.Shifted, h.blockSize, h.blockShift]
  exact hncm

structure Same (ncm ncm' : NepClassMS) : Prop extends Kept ncm ncm' where
  geometry : ncm'.geometry = ncm.geometry

section

variable (ncm : NepClassMS)

theorem Same.refl : Same ncm ncm := ⟨.refl ncm, rfl⟩

theorem same_enableSimpleScsi : Same ncm ncm.enableSimpleScsi := by
  unfold NepClassMS.enableSimpleScsi NepClassMS.nApplyFallback
  split
  · exact .refl ncm
  · split
    · split
      · exact .refl ncm
      · exact ⟨⟨rfl, rfl, rfl, rfl, rfl⟩, rfl⟩
    · exact ⟨⟨rfl, rfl, rfl, rfl, rfl⟩, rfl⟩

theorem same_enableModeXlate : Same ncm ncm.enableModeXlate := by
  unfold NepClassMS.enableModeXlate NepClassMS.nApplyFallback
  split
  · exact .refl ncm
  · split
    · split
      · exact .refl ncm
      · exact ⟨⟨rfl, rfl, rfl, rfl, rfl⟩, rfl⟩
    · exact ⟨⟨rfl, rfl, rfl, rfl, rfl⟩, rfl⟩

theorem same_refused (ioerr : ℤ) : Same ncm (ncm.refused ioerr) := by
  unfold NepClassMS.refused
  split
  · split
    · exact same_enableModeXlate ncm
    · exact same_enableSimpleScsi ncm
  · exact .refl ncm

theorem refused_ladder (ioerr : ℤ) :
    ((ncm.refused ioerr).readsPages = true ↔
      ncm.readsPages = true ∧ ¬(ncm.noFallback = false ∧ ncm.modeXlate = true ∧ ioerr = HFERR_Phase)) ∧
    ((ncm.refused ioerr).modeXlate = true ↔ ncm.modeXlate = true ∨ ncm.noFallback = false ∧ ioerr = HFERR_Phase) := by
  unfold NepClassMS.refused
  by_cases hphase : ioerr = HFERR_Phase
  · cases hmode : ncm.modeXlate <;> cases hno : ncm.noFallback <;> cases hsimple : ncm.simpleScsi <;>
      cases hadvised : ncm.modeAdvised <;> cases hadvised' : ncm.simpleAdvised <;>
      simp [NepClassMS.enableModeXlate, NepClassMS.enableSimpleScsi, NepClassMS.nApplyFallback,
        NepClassMS.psdAddErrorMsg, FakeGeometry.psdAddErrorMsg, NepClassMS.readsPages, *]
  · simp [hphase]

end

theorem peek_of_lt {buf : ℕ → UInt8} {i : ℕ} (h : i < 256) : peek buf i = some (buf i).toNat := if_pos h

theorem peek_of_ge {buf : ℕ → UInt8} {i : ℕ} (h : 256 ≤ i) : peek buf i = none := if_neg (not_lt.mpr h)

theorem nGetModePage_eq (page : ℕ) (ans : ModeSense) (ncm : NepClassMS) : nGetModePage page ans ncm =
    if (ans.Long → ans.start < 256) ∧ (ans.Headed page → ans.start + 1 < 256) then
      some (ncm.refused ans.ioerr, if ans.Held page then some ans.start else none)
    else none := by
  unfold nGetModePage
  by_cases hok : ans.ioerr = 0
  · have hrefused : ncm.refused ans.ioerr = ncm := if_neg (by rw [hok]; decide)
    rw [if_neg (not_not.mpr hok), peek_of_lt (by decide), hrefused]
    dsimp only [bind_eq_bind, bind_some]
    by_cases hlong : ans.Long
    · have hactual : ¬(ans.actual.toNat < 6 ∨ ans.actual.toNat < (ans.buf 3).toNat + 6) := by
        have := hlong.2
        unfold ModeSense.byte at this
        omega
      rw [if_neg hactual]
      by_cases hstart : ans.start < 256
      · have hpeek : peek ans.buf ((ans.buf 3).toNat + 4) = some (ans.byte ans.start) := peek_of_lt hstart
        rw [hpeek, bind_some]
        by_cases hcode : ans.byte ans.start % 64 = page % 64
        · rw [if_neg (not_not.mpr hcode)]
          by_cases hlength : ans.start + 1 < 256
          · have hpeek : peek ans.buf ((ans.buf 3).toNat + 5) = some (ans.byte (ans.start + 1)) := peek_of_lt hlength
            have hrest : ans.actual.toNat - (ans.buf 3).toNat - 4 = ans.actual.toNat - ans.start := Nat.sub_sub ..
            rw [hpeek, bind_some, hrest]
            refine Eq.trans ?_ (if_pos ⟨fun _ => hstart, fun _ => hlength⟩).symm
            by_cases hheld : ans.Held page
            · rw [if_pos hheld, if_neg (not_lt.mpr hheld.2)]
              rfl
            · rw [if_neg hheld, if_pos (not_le.mp fun h => hheld ⟨⟨hlong, hcode⟩, h⟩)]
          · have hpeek : peek ans.buf ((ans.buf 3).toNat + 5) = none := peek_of_ge (not_lt.mp hlength)
            rw [hpeek, if_neg fun h => hlength (h.2 ⟨hlong, hcode⟩)]
            rfl
        · rw [if_pos hcode, if_pos ⟨fun _ => hstart, fun h => absurd h.2 hcode⟩, if_neg fun h => hcode h.1.2]
      · have hpeek : peek ans.buf ((ans.buf 3).toNat + 4) = none := peek_of_ge (not_lt.mp hstart)
        rw [hpeek, if_neg fun h => hstart (h.1 hlong)]
        rfl
    · have hactual : ans.actual.toNat < 6 ∨ ans.actual.toNat < (ans.buf 3).toNat + 6 := by
        by_contra h
        exact hlong ⟨hok, by unfold ModeSense.byte; omega⟩
      rw [if_pos hactual, if_pos ⟨fun h => absurd h hlong, fun h => absurd h.1 hlong⟩, if_neg fun h => hlong h.1.1]
  · rw [if_pos hok, if_pos ⟨fun h => absurd h.1 hok, fun h => absurd h.1.1 hok⟩, if_neg fun h => hok h.1.1.1]

def NepClassMS.heard (ncm : NepClassMS) (ioerr : ℤ) : NepClassMS :=
  if ncm.readsPages = true then ncm.refused ioerr else ncm

theorem same_heard (ncm : NepClassMS) (ioerr : ℤ) : Same ncm (ncm.heard ioerr) := by
  unfold NepClassMS.heard
  split
  · exact same_refused ncm ioerr
  · exact .refl ncm

theorem readPage_eq {page last value : ℕ} {use : (ℕ → Option ℕ) → Reading → Option Reading}
    {take : Reading → Reading} (hvalue : ¬ans.Held page → value = 0)
    (huse : ∀ r, ans.Held page → use (fun i => peek ans.buf (ans.start + i)) r =
      if ans.start + last < 256 then some (if value ≠ 0 then take r else r) else none) (ncm : NepClassMS) (got : Got) :
    readPage page ans use (ncm, got) =
      if ncm.readsPages = true → ans.Inside page last then
        some (if (if ncm.readsPages = true then value else 0) ≠ 0 then take (ncm.heard ans.ioerr, got)
          else (ncm.heard ans.ioerr, got))
      else none := by
  unfold readPage NepClassMS.heard
  by_cases hreads : ncm.readsPages = true
  · rw [if_pos hreads, nGetModePage_eq]
    by_cases hheader : (ans.Long → ans.start < 256) ∧ (ans.Headed page → ans.start + 1 < 256)
    · rw [if_pos hheader]
      dsimp only [bind_eq_bind, bind_some]
      by_cases hheld : ans.Held page
      · simp only [hheld, if_true, hreads, forall_const]
        rw [huse _ hheld]
        exact if_congr ⟨fun h => ⟨hheader.1, hheader.2, fun _ => h⟩, fun h => h.2.2 hheld⟩ rfl rfl
      · simp only [hheld, if_false, hreads, if_true, forall_const, hvalue hheld]
        exact (if_pos ⟨hheader.1, hheader.2, fun h => absurd h hheld⟩).symm
    · rw [if_neg hheader, if_neg fun h => hheader ⟨(h hreads).1, (h hreads).2.1⟩]
      rfl
  · simp [hreads]

theorem usePage3_eq (ans : ModeSense) (r : Reading) (h : ans.Held 3) :
    usePage3 (fun i => peek ans.buf (ans.start + i)) r =
      if ans.start + 11 < 256 then some (if ans.tracks3 ≠ 0 then takeTracks ans.tracks3 r else r) else none := by
  dsimp only [usePage3]
  unfold ModeSense.tracks3
  rw [if_pos h]
  by_cases hlast : ans.start + 11 < 256
  · rw [peek_of_lt (by omega), peek_of_lt hlast, if_pos hlast]
    exact (apply_ite some ..).symm
  · rw [peek_of_ge (not_lt.mp hlast), if_neg hlast]
    cases peek ans.buf (ans.start + 10) <;> rfl

theorem usePage4_eq (ans : ModeSense) (r : Reading) (h : ans.Held 4) :
    usePage4 (fun i => peek ans.buf (ans.start + i)) r =
      if ans.start + (if ans.cylinders4 ≠ 0 then 5 else 4) < 256 then
        some (if ans.cylinders4 ≠ 0 then takeCylinders ans.cylinders4 ans.heads4 r else r)
      else none := by
  dsimp only [usePage4]
  unfold ModeSense.cylinders4
  rw [if_pos h]
  by_cases hlast : ans.start + 4 < 256
  · rw [peek_of_lt (by omega), peek_of_lt (by omega), peek_of_lt hlast]
    dsimp only [bind_eq_bind, bind_some]
    change (if ans.byte (ans.start + 2) * 65536 + ans.byte (ans.start + 3) * 256 + ans.byte (ans.start + 4) ≠ 0 then _
      else _) = _
    split
    · by_cases hheads : ans.start + 5 < 256
      · rw [peek_of_lt hheads, if_pos hheads]
        rfl
      · rw [peek_of_ge (not_lt.mp hheads), if_neg hheads]
        rfl
    · rfl
  · rw [if_neg (by split <;> omega), peek_of_ge (not_lt.mp hlast)]
    cases peek ans.buf (ans.start + 2) <;> cases peek ans.buf (ans.start + 3) <;> rfl

theorem usePage5_eq (ans : ModeSense) (r : Reading) (h : ans.Held 5) :
    usePage5 (fun i => peek ans.buf (ans.start + i)) r =
      if ans.start + 9 < 256 then
        some (if ans.cylinders5 ≠ 0 then takeAll ans.cylinders5 ans.heads5 ans.tracks5
          (ans.byte (ans.start + 6) * 256 + ans.byte (ans.start + 7)) r else r)
      else none := by
  dsimp only [usePage5]
  unfold ModeSense.cylinders5
  rw [if_pos h]
  by_cases hlast : ans.start + 9 < 256
  · rw [peek_of_lt (by omega), peek_of_lt hlast, if_pos hlast, peek_of_lt (by omega), peek_of_lt (by omega),
      peek_of_lt (by omega), peek_of_lt (by omega)]
    exact (apply_ite some ..).symm
  · rw [peek_of_ge (not_lt.mp hlast), if_neg hlast]
    cases peek ans.buf (ans.start + 8) <;> rfl

theorem tracks3_zero (h : ¬ans.Held 3) : ans.tracks3 = 0 := if_neg h

theorem cylinders4_zero (h : ¬ans.Held 4) : ans.cylinders4 = 0 := if_neg h

theorem cylinders5_zero (h : ¬ans.Held 5) : ans.cylinders5 = 0 := if_neg h

theorem kept_takeTracks (tracks : ℕ) (r : Reading) : Kept r.1 (takeTracks tracks r).1 := ⟨rfl, rfl, rfl, rfl, rfl⟩

theorem kept_takeCylinders (cylinders heads : ℕ) (r : Reading) : Kept r.1 (takeCylinders cylinders heads r).1 :=
  ⟨rfl, rfl, rfl, rfl, rfl⟩

theorem kept_takeAll (cylinders heads tracks size : ℕ) (r : Reading) :
    Kept r.1 (takeAll cylinders heads tracks size r).1 := by
  dsimp only [takeAll]
  split <;> exact ⟨rfl, rfl, rfl, rfl, rfl⟩

theorem takeAll_geometry (cylinders heads tracks size : ℕ) (r : Reading) :
    (takeAll cylinders heads tracks size r).1.geometry =
      { r.1.geometry with cylinders, heads, trackSectors := tracks } := by
  dsimp only [takeAll]
  split <;> rfl

section Told

variable {ncm : NepClassMS} {pages : Pages}

theorem heard_ladder (ncm : NepClassMS) (ioerr : ℤ) :
    ((ncm.heard ioerr).readsPages = true ↔
      ncm.readsPages = true ∧ ¬(ncm.noFallback = false ∧ ncm.modeXlate = true ∧ ioerr = HFERR_Phase)) ∧
    (ncm.readsPages = true → ((ncm.heard ioerr).modeXlate = true ↔
      ncm.modeXlate = true ∨ ncm.noFallback = false ∧ ioerr = HFERR_Phase)) := by
  unfold NepClassMS.heard
  by_cases hreads : ncm.readsPages = true
  · rw [if_pos hreads]
    exact ⟨(refused_ladder ncm ioerr).1, fun _ => (refused_ladder ncm ioerr).2⟩
  · rw [if_neg hreads]
    exact ⟨⟨fun h => absurd h hreads, fun h => absurd h.1 hreads⟩, fun h => absurd h hreads⟩

theorem told3_eq (h : told3 ncm pages ≠ 0) : pages.three.tracks3 = told3 ncm pages := by
  unfold told3 at h ⊢
  split at h
  · next hasked => exact (if_pos hasked).symm
  · exact absurd rfl h

theorem told4_eq (h : told4 ncm pages ≠ 0) : pages.four.cylinders4 = told4 ncm pages := by
  unfold told4 at h ⊢
  split at h
  · next hasked => exact (if_pos hasked).symm
  · exact absurd rfl h

theorem told5_eq (h : told5 ncm pages ≠ 0) : pages.five.cylinders5 = told5 ncm pages := by
  unfold told5 at h ⊢
  split at h
  · next hasked => exact (if_pos hasked).symm
  · exact absurd rfl h

theorem readPage_three (hin : ncm.readsPages = true → pages.three.Inside 3 11) :
    ∃ ncm', readPage 3 pages.three usePage3 (ncm, ⟨false, false, false⟩) =
        some (ncm', ⟨false, false, decide (told3 ncm pages ≠ 0)⟩) ∧
      Kept ncm ncm' ∧ (ncm'.readsPages = true ↔ Asks4 ncm pages) ∧
      (Asks4 ncm pages → (ncm'.modeXlate = true ↔
        ncm.modeXlate = true ∨ ncm.noFallback = false ∧ pages.three.ioerr = HFERR_Phase)) ∧
      (told3 ncm pages ≠ 0 → ncm'.geometry.trackSectors = told3 ncm pages) := by
  rw [readPage_eq tracks3_zero (usePage3_eq pages.three), if_pos hin]
  change ∃ ncm', some (if told3 ncm pages ≠ 0 then _ else _) = _ ∧ _
  have hladder := heard_ladder ncm pages.three.ioerr
  have hsame := same_heard ncm pages.three.ioerr
  by_cases htold : told3 ncm pages = 0
  · refine ⟨_, ?_, hsame.toKept, hladder.1, fun h => hladder.2 h.1, fun h => absurd htold h⟩
    rw [if_neg (not_not.mpr htold), htold]
    rfl
  · refine ⟨_, ?_, hsame.toKept.trans (kept_takeTracks (told3 ncm pages) (ncm.heard _, ⟨false, false, false⟩)),
      hladder.1, fun h => hladder.2 h.1, fun _ => rfl⟩
    rw [if_pos htold, told3_eq htold, decide_eq_true htold]
    rfl

theorem readPage_four {ncm' : NepClassMS} {sect : Bool} (hreads : ncm'.readsPages = true ↔ Asks4 ncm pages)
    (hno : ncm'.noFallback = ncm.noFallback)
    (hmode : Asks4 ncm pages → (ncm'.modeXlate = true ↔
      ncm.modeXlate = true ∨ ncm.noFallback = false ∧ pages.three.ioerr = HFERR_Phase))
    (hin : Asks4 ncm pages → pages.four.Inside 4 (if pages.four.cylinders4 ≠ 0 then 5 else 4)) :
    ∃ ncm'', readPage 4 pages.four usePage4 (ncm', ⟨false, false, sect⟩) =
        some (ncm'', ⟨decide (told4 ncm pages ≠ 0), decide (told4 ncm pages ≠ 0), sect⟩) ∧
      Kept ncm' ncm'' ∧ (ncm''.readsPages = true ↔ Asks5 ncm pages) ∧
      ncm''.geometry.trackSectors = ncm'.geometry.trackSectors ∧
      (told4 ncm pages ≠ 0 → ncm''.geometry.cylinders = told4 ncm pages ∧
        ncm''.geometry.heads = pages.four.heads4) := by
  have hasked : (if ncm'.readsPages = true then pages.four.cylinders4 else 0) = told4 ncm pages :=
    if_congr hreads rfl rfl
  rw [readPage_eq cylinders4_zero (usePage4_eq pages.four), if_pos (fun h => hin (hreads.mp h)), hasked]
  have hladder : (ncm'.heard pages.four.ioerr).readsPages = true ↔ Asks5 ncm pages := by
    rw [(heard_ladder ncm' pages.four.ioerr).1, hreads, hno, Asks5]
    refine and_congr_right fun h => not_congr ?_
    tauto
  have hsame := same_heard ncm' pages.four.ioerr
  by_cases htold : told4 ncm pages = 0
  · refine ⟨_, ?_, hsame.toKept, hladder, by rw [hsame.geometry], fun h => absurd htold h⟩
    rw [if_neg (not_not.mpr htold), htold]
    rfl
  · refine ⟨_, ?_, hsame.toKept.trans (kept_takeCylinders (told4 ncm pages) pages.four.heads4
      (ncm'.heard _, ⟨false, false, sect⟩)), hladder, ?_, fun _ => ⟨rfl, rfl⟩⟩
    swap
    · change (ncm'.heard _).geometry.trackSectors = _
      rw [hsame.geometry]
    rw [if_pos htold, told4_eq htold, decide_eq_true htold]
    rfl

theorem readPage_five {ncm' : NepClassMS} {got : Got} (hreads : ncm'.readsPages = true ↔ Asks5 ncm pages)
    (hin : Asks5 ncm pages → pages.five.Inside 5 9) :
    ∃ ncm'', readPage 5 pages.five usePage5 (ncm', got) =
        some (ncm'', if told5 ncm pages ≠ 0 then ⟨true, true, true⟩ else got) ∧
      Kept ncm' ncm'' ∧
      (told5 ncm pages = 0 → ncm''.geometry = ncm'.geometry) ∧
      (told5 ncm pages ≠ 0 → ncm''.geometry.cylinders = told5 ncm pages ∧
        ncm''.geometry.trackSectors = pages.five.tracks5 ∧ ncm''.geometry.heads = pages.five.heads5) := by
  have hasked : (if ncm'.readsPages = true then pages.five.cylinders5 else 0) = told5 ncm pages :=
    if_congr hreads rfl rfl
  rw [readPage_eq cylinders5_zero (usePage5_eq pages.five), if_pos (fun h => hin (hreads.mp h)), hasked]
  have hsame := same_heard ncm' pages.five.ioerr
  by_cases htold : told5 ncm pages = 0
  · refine ⟨_, ?_, hsame.toKept, fun _ => hsame.geometry, fun h => absurd htold h⟩
    rw [if_neg (not_not.mpr htold), if_neg (not_not.mpr htold)]
  · refine ⟨_, ?_, hsame.toKept.trans (kept_takeAll (told5 ncm pages) pages.five.heads5 pages.five.tracks5
      (pages.five.byte (pages.five.start + 6) * 256 + pages.five.byte (pages.five.start + 7)) (ncm'.heard _, got)),
      fun h => absurd h htold, fun _ => ?_⟩
    · rw [if_pos htold, if_pos htold, told5_eq htold]
      rfl
    · rw [takeAll_geometry]
      exact ⟨rfl, rfl, rfl⟩

/-- What is known of a geometry when no value is missing any more, or too many are. -/
structure Filled (ncm : NepClassMS) (pages : Pages) (r : Reading) : Prop where
  kept : Kept ncm r.1
  all : r.2.all = true ↔ told4 ncm pages ≠ 0 ∨ told5 ncm pages ≠ 0
  values : told5 ncm pages ≠ 0 ∨ told4 ncm pages ≠ 0 ∧ told3 ncm pages ≠ 0 →
    (r.1.geometry.cylinders, r.1.geometry.trackSectors, r.1.geometry.heads) = reported ncm pages
  divided : told5 ncm pages = 0 → told4 ncm pages ≠ 0 → told3 ncm pages = 0 →
    r.1.geometry.cylinders * r.1.geometry.heads ≠ 0 ∧ r.1.geometry.cylinders * r.1.geometry.heads < 2 ^ 32 ∧
      r.1.geometry.trackSectors =
        ncm.geometry.totalSectors / (r.1.geometry.cylinders * r.1.geometry.heads)

theorem told4_lt : told4 ncm pages < 2 ^ 24 := by
  unfold told4 ModeSense.cylinders4 ModeSense.byte
  have h (i : ℕ) : (pages.four.buf i).toNat < 256 := (pages.four.buf i).toNat_lt
  have h2 := h (pages.four.start + 2)
  have h3 := h (pages.four.start + 3)
  have h4 := h (pages.four.start + 4)
  split
  · split <;> omega
  · decide

theorem fillIn_pair (g : DriveGeometry) (c s : Bool) : fillIn g ⟨c, c, s⟩ =
    if c = true ∧ s = false then
      (FakeGeometry.quot g.totalSectors (ulong (g.cylinders * g.heads))).map fun trackSectors =>
        ({ g with trackSectors }, ⟨c, c, true⟩)
    else some (g, ⟨c, c, s⟩) := by
  cases c <;> cases s <;> try rfl
  unfold fillIn
  cases hquot : FakeGeometry.quot g.totalSectors (ulong (g.cylinders * g.heads)) <;> simp [hquot]

theorem readPages_told (hin : PagesInside ncm pages) :
    ∃ ncm', readPages pages (ncm, ⟨false, false, false⟩) = some (ncm',
        ⟨decide (told4 ncm pages ≠ 0 ∨ told5 ncm pages ≠ 0), decide (told4 ncm pages ≠ 0 ∨ told5 ncm pages ≠ 0),
          decide (told3 ncm pages ≠ 0 ∨ told5 ncm pages ≠ 0)⟩) ∧
      Kept ncm ncm' ∧
      (told5 ncm pages = 0 → (told3 ncm pages ≠ 0 → ncm'.geometry.trackSectors = told3 ncm pages) ∧
        (told4 ncm pages ≠ 0 → ncm'.geometry.cylinders = told4 ncm pages ∧
          ncm'.geometry.heads = pages.four.heads4)) ∧
      (told5 ncm pages ≠ 0 → ncm'.geometry.cylinders = told5 ncm pages ∧
        ncm'.geometry.trackSectors = pages.five.tracks5 ∧ ncm'.geometry.heads = pages.five.heads5) := by
  obtain ⟨ncm₃, hthree, hkept₃, hreads₃, hmode₃, htracks₃⟩ := readPage_three hin.1
  obtain ⟨ncm₄, hfour, hkept₄, hreads₄, htracks₄, hvalues₄⟩ := readPage_four hreads₃ hkept₃.noFallback hmode₃ hin.2.1
  obtain ⟨ncm₅, hfive, hkept₅, hsame₅, hvalues₅⟩ := readPage_five hreads₄ hin.2.2
  refine ⟨ncm₅, ?_, (hkept₃.trans hkept₄).trans hkept₅, fun h => ⟨fun h3 => ?_, fun h4 => ?_⟩, hvalues₅⟩
  · unfold readPages
    rw [hthree]
    dsimp only [bind_eq_bind, bind_some]
    rw [hfour, bind_some, hfive]
    by_cases h5 : told5 ncm pages = 0 <;> simp [h5]
  · rw [hsame₅ h, htracks₄, htracks₃ h3]
  · rw [hsame₅ h]
    exact hvalues₄ h4

theorem readPages_outside (hout : ¬PagesInside ncm pages) : readPages pages (ncm, ⟨false, false, false⟩) = none := by
  unfold readPages
  by_cases hthree : ncm.readsPages = true → pages.three.Inside 3 11
  · obtain ⟨ncm₃, hread₃, hkept₃, hreads₃, hmode₃, -⟩ := readPage_three hthree
    rw [hread₃]
    dsimp only [bind_eq_bind, bind_some]
    by_cases hfour : Asks4 ncm pages → pages.four.Inside 4 (if pages.four.cylinders4 ≠ 0 then 5 else 4)
    · obtain ⟨ncm₄, hread₄, -, hreads₄, -, -⟩ := readPage_four hreads₃ hkept₃.noFallback hmode₃ hfour
      rw [hread₄, bind_some, readPage_eq cylinders5_zero (usePage5_eq pages.five)]
      exact if_neg fun h => hout ⟨hthree, hfour, fun h5 => h (hreads₄.mpr h5)⟩
    · rw [readPage_eq cylinders4_zero (usePage4_eq pages.four), if_neg fun h => hfour fun h4 => h (hreads₃.mpr h4)]
      rfl
  · rw [readPage_eq tracks3_zero (usePage3_eq pages.three), if_neg hthree]
    rfl

theorem readValues_filled (hin : PagesInside ncm pages) (hheads : ¬Headless ncm pages) :
    ∃ r, readValues pages ncm = some r ∧ Filled ncm pages r := by
  obtain ⟨ncm', hread, hkept, hthreefour, hfive⟩ := readPages_told hin
  unfold readValues
  rw [hread]
  dsimp only [bind_eq_bind, bind_some]
  rw [fillIn_pair]
  by_cases hdivide : told4 ncm pages ≠ 0 ∧ told3 ncm pages = 0 ∧ told5 ncm pages = 0
  · obtain ⟨h4, h3, h5⟩ := hdivide
    obtain ⟨hcyl, hheads'⟩ := (hthreefour h5).2 h4
    have hne : pages.four.heads4 ≠ 0 := fun h => hheads ⟨h4, h, h3, h5⟩
    have hlt : told4 ncm pages * pages.four.heads4 < 2 ^ 32 := by
      have hbyte : pages.four.heads4 < 2 ^ 8 := (pages.four.buf _).toNat_lt
      calc told4 ncm pages * pages.four.heads4 ≤ 2 ^ 24 * pages.four.heads4 := Nat.mul_le_mul_right _ told4_lt.le
        _ < 2 ^ 24 * 2 ^ 8 := Nat.mul_lt_mul_of_pos_left hbyte (by decide)
    have hpos : told4 ncm pages * pages.four.heads4 ≠ 0 := Nat.mul_ne_zero h4 hne
    rw [if_pos (by simp [h3, h4, h5]), hcyl, hheads', ulong_of_lt hlt, FakeGeometry.quot, if_pos hpos]
    refine ⟨_, rfl, ⟨hkept.fixCapacity, hkept.noFallback, hkept.blockSize, hkept.blockShift, hkept.total⟩, ?_, ?_, ?_⟩
    · simp [Got.all, h4]
    · simp [h3, h5]
    · intro _ _ _
      rw [hkept.total]
      exact ⟨hpos, hlt, rfl⟩
  · rw [if_neg (by simp only [decide_eq_true_eq, decide_eq_false_iff_not]; tauto)]
    refine ⟨_, rfl, hkept, ?_, ?_, fun h5 h4 h3 => absurd ⟨h4, h3, h5⟩ hdivide⟩
    · simp only [Got.all, Bool.and_eq_true, decide_eq_true_eq]
      tauto
    · intro hvalues
      unfold reported
      by_cases h5 : told5 ncm pages = 0
      · obtain ⟨h4, h3⟩ := hvalues.resolve_left (not_not.mpr h5)
        rw [if_neg (not_not.mpr h5), ((hthreefour h5).2 h4).1, ((hthreefour h5).2 h4).2, (hthreefour h5).1 h3]
      · rw [if_pos h5, (hfive h5).1, (hfive h5).2.1, (hfive h5).2.2]

theorem readValues_headless (hheads : Headless ncm pages) : readValues pages ncm = none := by
  unfold readValues
  by_cases hin : PagesInside ncm pages
  · obtain ⟨ncm', hread, -, hthreefour, -⟩ := readPages_told hin
    obtain ⟨h4, hzero, h3, h5⟩ := hheads
    rw [hread]
    dsimp only [bind_eq_bind, bind_some]
    rw [fillIn_pair, if_pos (by simp [h3, h4, h5]), ((hthreefour h5).2 h4).2, hzero]
    rfl
  · rw [readPages_outside hin]
    rfl

theorem readValues_outside (hout : ¬PagesInside ncm pages) : readValues pages ncm = none := by
  unfold readValues
  rw [readPages_outside hout]
  rfl

section Fixed

variable (r : Reading)

def product : ℕ := ulong (r.1.geometry.cylinders * r.1.geometry.trackSectors * r.1.geometry.heads)

def Raised : Prop :=
  r.1.fixCapacity = true ∧ r.1.noFallback = false ∧ r.2.all = true ∧ product r = ulong (r.1.geometry.totalSectors + 1)

/-- What it does: nothing, or the total goes down or up to what the values make. -/
inductive Fixed (ncm' : NepClassMS) : Prop
  | same : ¬Raised r → ncm'.fixCapacity = r.1.fixCapacity → ncm'.geometry = r.1.geometry → Fixed ncm'
  | down : r.2.all = true → r.1.fixCapacity = false → ncm'.fixCapacity = true →
      product r = ulongSub r.1.geometry.totalSectors 1 →
      ncm'.geometry = { r.1.geometry with totalSectors := ulongSub r.1.geometry.totalSectors 1 } → Fixed ncm'
  | up : Raised r →
      ncm'.geometry = { r.1.geometry with totalSectors := ulong (r.1.geometry.totalSectors + 1) } → Fixed ncm'

theorem fixTotal_fixed : Fixed r (fixTotal r) := by
  dsimp only [fixTotal]
  split
  · next h =>
    obtain ⟨hall, hproduct, hfix⟩ := h
    have hraised : ¬Raised r := fun h => absurd h.1 (by rw [hfix]; decide)
    cases hno : r.1.noFallback with
    | true =>
      cases hadvised : r.1.advised <;>
        exact .same hraised (by simp [FakeGeometry.nApplyFallback, FakeGeometry.psdAddErrorMsg, hfix, hno, hadvised])
          (by simp [FakeGeometry.nApplyFallback, hfix, hno, hadvised])
    | false =>
      exact .down hall hfix (by simp [FakeGeometry.nApplyFallback, FakeGeometry.psdAddErrorMsg, hfix, hno]) hproduct
        (by simp [FakeGeometry.nApplyFallback, hfix, hno])
  · split
    · next h =>
      obtain ⟨hall, hproduct, hfix⟩ := h
      cases hno : r.1.noFallback with
      | true =>
        have hraised : ¬Raised r := fun h => absurd h.2.1 (by rw [hno]; decide)
        cases hadvised : r.1.advised <;>
          exact .same hraised (by simp [FakeGeometry.nApplyFallback, FakeGeometry.psdAddErrorMsg, hfix, hno, hadvised])
            (by simp [FakeGeometry.nApplyFallback, hfix, hno, hadvised])
      | false => exact .up ⟨hfix, hno, hall, hproduct⟩ (by simp [FakeGeometry.nApplyFallback, hfix, hno])
    · next h => exact .same (fun hraised => h ⟨hraised.2.2.1, hraised.2.2.2, hraised.1⟩) rfl rfl

end Fixed

theorem fixTotal_shift (r : Reading) :
    (fixTotal r).blockSize = r.1.blockSize ∧ (fixTotal r).blockShift = r.1.blockShift := by
  dsimp only [fixTotal]
  split
  · exact ⟨rfl, rfl⟩
  · split <;> exact ⟨rfl, rfl⟩

end Told

theorem bogus_product {c t h : ℕ} (hb : Bogus c t h) : ¬Stubborn (ulong (c * t * h)) ∧ ulong (c * t * h) ≠ 0 ∧
    1 < ulong (c * t * h) := by
  obtain ⟨rfl, rfl, rfl⟩ | ⟨rfl, rfl, rfl⟩ := hb <;> decide

def Invented (ncm : NepClassMS) (got : Got) : Prop :=
  Bogus ncm.geometry.cylinders ncm.geometry.trackSectors ncm.geometry.heads ∨ got.all = false

instance (ncm : NepClassMS) (got : Got) : Decidable (Invented ncm got) := inferInstanceAs (Decidable (_ ∨ _))

theorem invent_eq (stack : Factors) (ncm : NepClassMS) (got : Got) : ∃ ncm', Same ncm ncm' ∧
    ∀ fuel, invent fuel stack ncm got =
      if Invented ncm got then
        (FakeGeometry.nFakeGeometry fuel stack ncm'.toNepClassMS ncm'.geometry).bind fun faked =>
          some { ncm' with toNepClassMS := faked.ncm, geometry := faked.tddg }
      else some ncm' := by
  refine ⟨if Bogus ncm.geometry.cylinders ncm.geometry.trackSectors ncm.geometry.heads then
    (ncm.psdAddErrorMsg FakeGeometry.RETURN_WARN
      "Firmware returns known bogus geometry, will fall back to faked geometry!").enableSimpleScsi else ncm, ?_,
    fun fuel => rfl⟩
  split
  · have hsame := same_enableSimpleScsi (ncm.psdAddErrorMsg FakeGeometry.RETURN_WARN
      "Firmware returns known bogus geometry, will fall back to faked geometry!")
    exact ⟨⟨hsame.fixCapacity, hsame.noFallback, hsame.blockSize, hsame.blockShift, hsame.total⟩, hsame.geometry⟩
  · exact .refl ncm

theorem invent_ends (stack : Factors) {got : Got} (hlt : ncm.geometry.totalSectors < 2 ^ 32)
    (h : Invented ncm got → ¬(ncm.geometry.totalSectors = 1 ∧ ncm.fixCapacity = false)) :
    ∃ ncm' enough, (∀ fuel ≥ enough, invent fuel stack ncm got = some ncm') ∧
      ncm'.blockSize = ncm.blockSize ∧ ncm'.blockShift = ncm.blockShift ∧
      (ncm'.geometry.totalSectors = ncm.geometry.totalSectors ∨ Invented ncm got ∧
        Stubborn ncm.geometry.totalSectors ∧
        (ncm.fixCapacity = false ∧ ncm'.geometry.totalSectors + 1 = ncm.geometry.totalSectors ∨
          ncm.fixCapacity = true ∧ ncm'.geometry.totalSectors = ncm.geometry.totalSectors + 1)) := by
  obtain ⟨ncm₁, hsame, hinvent⟩ := invent_eq stack ncm got
  by_cases hinvented : Invented ncm got
  · have hrun := nFakeGeometry_ends stack ncm₁.toNepClassMS ncm₁.geometry (by rw [hsame.geometry]; exact hlt)
      (by rw [hsame.geometry, hsame.fixCapacity]; exact h hinvented)
    obtain ⟨faked, enough, hfaked, htotal⟩ := hrun
    rw [hsame.geometry, hsame.fixCapacity] at htotal
    refine ⟨{ ncm₁ with toNepClassMS := faked.ncm, geometry := faked.tddg }, enough, fun fuel hfuel => ?_,
      hsame.blockSize, hsame.blockShift, htotal.imp id fun h => ⟨hinvented, h⟩⟩
    rw [hinvent, if_pos hinvented, hfaked fuel hfuel]
    rfl
  · refine ⟨ncm₁, 0, fun fuel _ => ?_, hsame.blockSize, hsame.blockShift, .inl hsame.total⟩
    rw [hinvent, if_neg hinvented]

theorem invent_single (stack : Factors) {got : Got} (hinvented : Invented ncm got)
    (hone : ncm.geometry.totalSectors = 1) (hfix : ncm.fixCapacity = false) {fuel : ℕ} (hfuel : 65 ≤ fuel) :
    invent fuel stack ncm got = none := by
  obtain ⟨ncm₁, hsame, hinvent⟩ := invent_eq stack ncm got
  rw [hinvent, if_pos hinvented, nFakeGeometry_single stack _ _ (hsame.total.trans hone) (hsame.fixCapacity.trans hfix)
    hfuel]
  rfl

theorem conclude_kept (ncm : NepClassMS) : (conclude ncm).blockSize = ncm.blockSize ∧
    (conclude ncm).blockShift = ncm.blockShift ∧
    (conclude ncm).geometry.totalSectors = ncm.geometry.totalSectors := by
  dsimp only [conclude]
  split <;> exact ⟨rfl, rfl, rfl⟩

theorem total_lt (data : CapacityData) : 0 < total data ∧ total data < 2 ^ 32 := by
  unfold total
  split
  · decide
  · next h =>
    have hlt := data.sectorCount.toNat_lt
    have hne : data.sectorCount.toNat ≠ 2 ^ 32 - 1 := fun heq => h (UInt32.toNat_inj.mp heq)
    omega

theorem total_eq (data : CapacityData) (h : data.sectorCount ≠ 0xffffffff) :
    total data = ulong (data.sectorCount.toNat + 1) := by
  have hlt := total_lt data
  unfold total at hlt ⊢
  rw [if_neg h] at hlt ⊢
  rw [ulong_of_lt hlt.2]

theorem takeCapacity_spec (data : CapacityData) (ncm : NepClassMS) :
    (takeCapacity data ncm).blockSize = data.sectorSize.toNat ∧
    (takeCapacity data ncm).geometry.totalSectors = total data ∧
    (takeCapacity data ncm).fixCapacity = ncm.fixCapacity ∧ (takeCapacity data ncm).noFallback = ncm.noFallback ∧
    (takeCapacity data ncm).modeXlate = ncm.modeXlate ∧ (takeCapacity data ncm).readsPages = ncm.readsPages := by
  dsimp only [takeCapacity]
  by_cases hmax : data.sectorCount = 0xffffffff
  · rw [total, if_pos hmax, if_pos hmax]
    refine ⟨rfl, ?_, rfl, rfl, rfl, rfl⟩
    change ulongSub (ulong (data.sectorCount.toNat + 1)) 1 = _
    rw [hmax]
    decide
  · rw [total_eq data hmax, if_neg hmax]
    exact ⟨rfl, rfl, rfl, rfl, rfl, rfl⟩

theorem readCapacity_ends {data : CapacityData} (hk : k < 32) (hsize : data.sectorSize.toNat = 2 ^ k)
    (ncm : NepClassMS) : ∃ ncm', readCapacity data ncm = some ncm' ∧ ncm'.Shifted ∧
      ncm'.geometry.totalSectors = total data ∧ ncm'.fixCapacity = ncm.fixCapacity ∧ ncm'.noFallback = ncm.noFallback ∧
      ncm'.modeXlate = ncm.modeXlate ∧ ncm'.readsPages = ncm.readsPages := by
  obtain ⟨hblocks, hrest⟩ := takeCapacity_spec data ncm
  refine ⟨{ takeCapacity data ncm with blockShift := k }, ?_, hblocks.trans hsize, hrest⟩
  unfold readCapacity
  rw [hsize, shiftOf_pow hk]
  rfl

theorem believable_congr (hfix : ncm'.fixCapacity = ncm.fixCapacity)
    (hno : ncm'.noFallback = ncm.noFallback) (hmode : ncm'.modeXlate = ncm.modeXlate)
    (hreads : ncm'.readsPages = ncm.readsPages) (pages : Pages) (data : CapacityData) :
    Believable ncm' pages data ↔ Believable ncm pages data := by
  have h3 : told3 ncm' pages = told3 ncm pages := by rw [told3, told3, hreads]
  have hasks4 : Asks4 ncm' pages ↔ Asks4 ncm pages := by rw [Asks4, Asks4, hno, hmode, hreads]
  have hasks5 : Asks5 ncm' pages ↔ Asks5 ncm pages := by rw [Asks5, Asks5, hasks4, hno, hmode]
  have h4 : told4 ncm' pages = told4 ncm pages := if_congr hasks4 rfl rfl
  have h5 : told5 ncm' pages = told5 ncm pages := if_congr hasks5 rfl rfl
  simp only [Believable, PagesInside, Headless, Untold, Wraps, reported, h3, h4, h5, hasks4, hasks5, hfix, hno, hreads]

section Told

variable {ncm : NepClassMS} {pages : Pages} {r : Reading}

theorem Fixed.values {ncm' : NepClassMS} (h : Fixed r ncm') : ncm'.geometry.cylinders = r.1.geometry.cylinders ∧
    ncm'.geometry.trackSectors = r.1.geometry.trackSectors ∧ ncm'.geometry.heads = r.1.geometry.heads := by
  cases h with
  | same _ _ hgeometry => rw [hgeometry]; exact ⟨rfl, rfl, rfl⟩
  | down _ _ _ _ hgeometry => rw [hgeometry]; exact ⟨rfl, rfl, rfl⟩
  | up _ hgeometry => rw [hgeometry]; exact ⟨rfl, rfl, rfl⟩

theorem Fixed.invented {ncm' : NepClassMS} (h : Fixed r ncm') : Invented ncm' r.2 ↔ Invented r.1 r.2 := by
  rw [Invented, Invented, h.values.1, h.values.2.1, h.values.2.2]

theorem Invented.product (hinvented : Invented r.1 r.2) (hall : r.2.all = true) :
    ¬Stubborn (Capacity.product r) ∧ Capacity.product r ≠ 0 ∧ 1 < Capacity.product r :=
  bogus_product (hinvented.resolve_right (by rw [hall]; decide))

namespace Filled

variable (h : Filled ncm pages r)

include h in
theorem untold (hone : ncm.geometry.totalSectors = 1) : Invented r.1 r.2 ↔ Untold ncm pages := by
  by_cases hvalues : told5 ncm pages ≠ 0 ∨ told4 ncm pages ≠ 0 ∧ told3 ncm pages ≠ 0
  · have hall : r.2.all = true := h.all.mpr (by tauto)
    have hreported := h.values hvalues
    unfold Invented Untold
    rw [← hreported, hall]
    exact ⟨fun hbogus => .inr (hbogus.resolve_right (by decide)),
      fun hbogus => .inl (hbogus.resolve_left (by tauto))⟩
  · have h5 : told5 ncm pages = 0 := by tauto
    by_cases h4 : told4 ncm pages = 0
    · refine iff_of_true (.inr ?_) (.inl ⟨h4, h5⟩)
      rw [Bool.eq_false_iff]
      exact fun hall => (h.all.mp hall).elim (fun h => h h4) (fun h => h h5)
    · have h3 : told3 ncm pages = 0 := by tauto
      obtain ⟨hpos, -, htracks⟩ := h.divided h5 h4 h3
      have hle : r.1.geometry.trackSectors ≤ 1 := by
        rw [htracks, hone]
        exact Nat.div_le_self 1 _
      refine iff_of_false ?_ ?_
      · rintro (hbogus | hall)
        · obtain ⟨-, ht, -⟩ | ⟨-, ht, -⟩ := hbogus <;> omega
        · exact absurd (h.all.mpr (.inl h4)) (by rw [hall]; decide)
      · rintro (⟨hzero, -⟩ | hbogus)
        · exact h4 hzero
        · rw [reported, if_neg (not_not.mpr h5), h3] at hbogus
          obtain ⟨-, ht, -⟩ | ⟨-, ht, -⟩ := hbogus <;> cases ht

include h in
theorem wraps (hmax : ncm.geometry.totalSectors = 2 ^ 32 - 1) : Wraps ncm pages ↔
    Raised r := by
  have htotal : ulong (r.1.geometry.totalSectors + 1) = 0 := by
    rw [h.kept.total, hmax]
    decide
  unfold Wraps Raised product
  rw [h.kept.fixCapacity, h.kept.noFallback, htotal]
  refine and_congr_right fun _ => and_congr_right fun _ => ?_
  by_cases hvalues : told5 ncm pages ≠ 0 ∨ told4 ncm pages ≠ 0 ∧ told3 ncm pages ≠ 0
  · rw [← h.values hvalues]
    exact and_congr_left fun _ => iff_of_true hvalues (h.all.mpr (by tauto))
  · refine iff_of_false (fun hc => hvalues hc.1) ?_
    rintro ⟨hall, hproduct⟩
    have h5 : told5 ncm pages = 0 := by tauto
    have h4 : told4 ncm pages ≠ 0 := (h.all.mp hall).resolve_right (not_not.mpr h5)
    have h3 : told3 ncm pages = 0 := by tauto
    obtain ⟨hpos, hlt, htracks⟩ := h.divided h5 h4 h3
    rw [Nat.mul_right_comm, htracks, hmax] at hproduct
    generalize r.1.geometry.cylinders * r.1.geometry.heads = m at hpos hlt hproduct
    have hle : m * ((2 ^ 32 - 1) / m) ≤ 2 ^ 32 - 1 := Nat.mul_div_le ..
    rw [ulong_of_lt (by omega)] at hproduct
    have hdiv : 0 < (2 ^ 32 - 1) / m := Nat.div_pos (by omega) (by omega)
    exact absurd hproduct (Nat.mul_ne_zero hpos hdiv.ne')

end Filled

def settle (fuel : ℕ) (stack : Factors) (r : Reading) : Option NepClassMS :=
  (invent fuel stack (fixTotal r) r.2).bind fun ncm => some (conclude ncm)

theorem settle_invent (stack : Factors) (hlt : (fixTotal r).geometry.totalSectors < 2 ^ 32)
    (hone : Invented r.1 r.2 → ¬((fixTotal r).geometry.totalSectors = 1 ∧ (fixTotal r).fixCapacity = false)) :
    ∃ ncm' enough, (∀ fuel ≥ enough, settle fuel stack r = some ncm') ∧ ncm'.blockSize = r.1.blockSize ∧
      ncm'.blockShift = r.1.blockShift ∧
      (ncm'.geometry.totalSectors = (fixTotal r).geometry.totalSectors ∨ Invented r.1 r.2 ∧
        Stubborn (fixTotal r).geometry.totalSectors ∧
        ((fixTotal r).fixCapacity = false ∧
            ncm'.geometry.totalSectors + 1 = (fixTotal r).geometry.totalSectors ∨
          (fixTotal r).fixCapacity = true ∧
            ncm'.geometry.totalSectors = (fixTotal r).geometry.totalSectors + 1)) := by
  have hinvented := (fixTotal_fixed r).invented
  obtain ⟨ncm₁, enough, hrun, hsize, hshift, htotal⟩ := invent_ends stack hlt fun h => hone (hinvented.mp h)
  obtain ⟨hsize', hshift', htotal'⟩ := conclude_kept ncm₁
  refine ⟨conclude ncm₁, enough, fun fuel hfuel => ?_, hsize'.trans (hsize.trans (fixTotal_shift r).1),
    hshift'.trans (hshift.trans (fixTotal_shift r).2), ?_⟩
  · rw [settle, hrun fuel hfuel, bind_some]
  · rw [htotal', ← hinvented]
    exact htotal

inductive Settled (r : Reading) (n : ℕ) : Prop
  | same : ¬Raised r → n = r.1.geometry.totalSectors → Settled r n
  | invented : ¬Raised r → Stubborn r.1.geometry.totalSectors →
      Corrected r.1.fixCapacity r.1.geometry.totalSectors n → Settled r n
  | down : r.1.fixCapacity = false → n + 1 = r.1.geometry.totalSectors → Settled r n
  | up : Raised r → n = ulong (r.1.geometry.totalSectors + 1) → Settled r n

theorem settle_ends (stack : Factors) (hpos : 0 < r.1.geometry.totalSectors) (hlt : r.1.geometry.totalSectors < 2 ^ 32)
    (hone : Invented r.1 r.2 → ¬(r.1.geometry.totalSectors = 1 ∧ r.1.fixCapacity = false)) :
    ∃ ncm' enough, (∀ fuel ≥ enough, settle fuel stack r = some ncm') ∧ ncm'.blockSize = r.1.blockSize ∧
      ncm'.blockShift = r.1.blockShift ∧ Settled r ncm'.geometry.totalSectors := by
  cases fixTotal_fixed r with
  | same hraised hfix hgeometry =>
    obtain ⟨ncm', enough, hrun, hsize, hshift, htotal⟩ :=
      settle_invent stack (by rw [hgeometry]; exact hlt) (by rw [hgeometry, hfix]; exact hone)
    rw [hgeometry, hfix] at htotal
    refine ⟨ncm', enough, hrun, hsize, hshift, ?_⟩
    obtain htotal | ⟨-, hstubborn, hnext⟩ := htotal
    · exact .same hraised htotal
    · exact .invented hraised hstubborn (.inr hnext)
  | down hall hfix hfix' hproduct hgeometry =>
    have hdown : ulongSub r.1.geometry.totalSectors 1 = r.1.geometry.totalSectors - 1 := ulongSub_of_le hpos hlt
    have htotal' : (fixTotal r).geometry.totalSectors = product r := by rw [hgeometry, hproduct]
    obtain ⟨ncm', enough, hrun, hsize, hshift, htotal⟩ := settle_invent stack
      (by rw [htotal']; exact Nat.mod_lt _ (by decide)) fun _ h => absurd h.2 (by rw [hfix']; decide)
    refine ⟨ncm', enough, hrun, hsize, hshift, ?_⟩
    obtain htotal | ⟨hinvented, hstubborn, -⟩ := htotal
    · exact .down hfix (by rw [htotal, htotal', hproduct, hdown]; omega)
    · rw [htotal'] at hstubborn
      exact absurd hstubborn (hinvented.product hall).1
  | up hraised hgeometry =>
    have htotal' : (fixTotal r).geometry.totalSectors = product r := by rw [hgeometry, hraised.2.2.2]
    obtain ⟨ncm', enough, hrun, hsize, hshift, htotal⟩ := settle_invent stack
      (by rw [htotal']; exact Nat.mod_lt _ (by decide)) fun hinvented h => by
        have := (hinvented.product hraised.2.2.1).2.2
        omega
    refine ⟨ncm', enough, hrun, hsize, hshift, ?_⟩
    obtain htotal | ⟨hinvented, hstubborn, -⟩ := htotal
    · exact .up hraised (by rw [htotal, htotal', hraised.2.2.2])
    · rw [htotal'] at hstubborn
      exact absurd hstubborn (hinvented.product hraised.2.2.1).1

theorem settle_single (stack : Factors) (hinvented : Invented r.1 r.2) (hone : r.1.geometry.totalSectors = 1)
    (hfix : r.1.fixCapacity = false) {fuel : ℕ} (hfuel : 65 ≤ fuel) : settle fuel stack r = none := by
  have hfixed := fixTotal_fixed r
  have hinvented' := hfixed.invented.mpr hinvented
  unfold settle
  cases hfixed with
  | same _ hfix' hgeometry =>
    rw [invent_single stack hinvented' (by rw [hgeometry, hone]) (hfix'.trans hfix) hfuel]
    rfl
  | down hall _ _ hproduct _ =>
    have hdown : ulongSub 1 1 = 0 := by decide
    rw [hone, hdown] at hproduct
    exact absurd hproduct (hinvented.product hall).2.1
  | up hraised _ => exact absurd hraised.1 (by rw [hfix]; decide)

theorem Settled.corrected_iff {data : CapacityData} {n : ℕ} (hfilled : Filled ncm pages r)
    (htotal : ncm.geometry.totalSectors = total data) (hs : Settled r n) :
    Corrected ncm.fixCapacity (ulong (data.sectorCount.toNat + 1)) n ↔
      (data.sectorCount = 0xffffffff ↔ 0xfffffffe ≤ data.sectorCount.toNat ∧ Wraps ncm pages) := by
  have hlt := (total_lt data).2
  have htotal' := hfilled.kept.total.trans htotal
  have hfix := hfilled.kept.fixCapacity
  have hprime : ¬Stubborn (2 ^ 32 - 1) := by decide
  have hnext : ulong (2 ^ 32 - 1 + 1) = 0 := by decide
  by_cases hmax : data.sectorCount = 0xffffffff
  · have hmaximal : total data = 2 ^ 32 - 1 := if_pos hmax
    have hread : ulong (data.sectorCount.toNat + 1) = 0 := by rw [hmax]; decide
    rw [hread, iff_true_left hmax, hfilled.wraps (htotal.trans hmaximal), and_iff_right (by rw [hmax]; decide)]
    rw [hmaximal] at htotal'
    unfold Corrected
    cases hs with
    | same hraised hn => exact iff_of_false (by omega) hraised
    | invented _ hstubborn _ => exact absurd (htotal' ▸ hstubborn) hprime
    | down hfixed hn => exact iff_of_false (by omega) fun hraised => absurd hraised.1 (by rw [hfixed]; decide)
    | up hraised hn => exact iff_of_true (.inl (by rw [hn, htotal', hnext])) hraised
  · rw [← total_eq data hmax, iff_false_left hmax]
    have hvalue : total data = data.sectorCount.toNat + 1 := if_neg hmax
    by_cases hlast : total data = 2 ^ 32 - 1
    · rw [hfilled.wraps (htotal.trans hlast), and_iff_right (by omega)]
      unfold Corrected
      cases hs with
      | same hraised hn => exact iff_of_true (.inl (by omega)) hraised
      | invented _ hstubborn _ => exact absurd (hlast ▸ htotal' ▸ hstubborn) hprime
      | down hfixed hn =>
        exact iff_of_true (.inr (.inl ⟨hfix.symm.trans hfixed, by omega⟩)) fun hraised =>
          absurd hraised.1 (by rw [hfixed]; decide)
      | up hraised hn =>
        rw [htotal', hlast, hnext] at hn
        exact iff_of_false (by omega) (not_not.mpr hraised)
    · refine iff_of_true ?_ (by omega)
      cases hs with
      | same _ hn => exact .inl (by omega)
      | invented _ _ hcorrected => rwa [← htotal', ← hfix]
      | down hfixed hn => exact .inr (.inl ⟨hfix.symm.trans hfixed, by omega⟩)
      | up hraised hn =>
        rw [ulong_of_lt (by omega)] at hn
        exact .inr (.inr ⟨hfix.symm.trans hraised.1, by omega⟩)

theorem settled_iff (stack : Factors) {data : CapacityData} (htotal : ncm.geometry.totalSectors = total data) :
    (∃ enough ncm', (∀ fuel ≥ enough, (readValues pages ncm).bind (settle fuel stack) = some ncm') ∧
      (ncm.Shifted → ncm'.Shifted) ∧
      Corrected ncm.fixCapacity (ulong (data.sectorCount.toNat + 1)) ncm'.geometry.totalSectors) ↔
      Believable ncm pages data := by
  have hpos := (total_lt data).1
  have hlt := (total_lt data).2
  have hsingle : data.sectorCount.toNat = 0 ↔ total data = 1 := by
    unfold total
    split
    · next h => rw [h]; decide
    · omega
  have hends : ∀ {r}, Filled ncm pages r → ¬(data.sectorCount = 0 ∧ ncm.fixCapacity = false ∧ Untold ncm pages) →
      ∃ ncm' enough, (∀ fuel ≥ enough, settle fuel stack r = some ncm') ∧ (ncm.Shifted → ncm'.Shifted) ∧
        Settled r ncm'.geometry.totalSectors := by
    intro r hfilled huntold
    have htotal' := hfilled.kept.total.trans htotal
    obtain ⟨ncm', enough, hrun, hsize, hshift, hsettled⟩ := settle_ends (r := r) stack (by omega) (by omega) (by
      rintro hinvented ⟨hone, hfix⟩
      have hone' : ncm.geometry.totalSectors = 1 := hfilled.kept.total.symm.trans hone
      exact huntold ⟨UInt32.toNat_inj.mp (hsingle.mpr (htotal.symm.trans hone')),
        hfilled.kept.fixCapacity.symm.trans hfix, (hfilled.untold hone').mp hinvented⟩)
    refine ⟨ncm', enough, hrun, fun h => ?_, hsettled⟩
    rw [NepClassMS.Shifted, hsize, hshift]
    exact hfilled.kept.shifted h
  constructor
  · rintro ⟨enough, ncm', hrun, -, hcorrected⟩
    have hin : PagesInside ncm pages := by
      by_contra hout
      have := hrun enough le_rfl
      rw [readValues_outside hout] at this
      cases this
    have hheads : ¬Headless ncm pages := by
      intro hheads
      have := hrun enough le_rfl
      rw [readValues_headless hheads] at this
      cases this
    obtain ⟨r, hr, hfilled⟩ := readValues_filled hin hheads
    rw [hr] at hrun
    simp only [bind_some] at hrun
    have htotal' := hfilled.kept.total.trans htotal
    have huntold : ¬(data.sectorCount = 0 ∧ ncm.fixCapacity = false ∧ Untold ncm pages) := by
      rintro ⟨hzero, hfix, huntold⟩
      have hone : total data = 1 := hsingle.mp (by rw [hzero]; rfl)
      have := hrun (max enough 65) (le_max_left ..)
      rw [settle_single stack ((hfilled.untold (htotal.trans hone)).mpr huntold) (htotal'.trans hone)
        (hfilled.kept.fixCapacity.trans hfix) (le_max_right ..)] at this
      cases this
    obtain ⟨ncm'', enough', hrun', -, hsettled⟩ := hends hfilled huntold
    cases (hrun _ (le_max_left enough enough')).symm.trans (hrun' _ (le_max_right ..))
    exact ⟨hin, hheads, huntold, (hsettled.corrected_iff hfilled htotal).mp hcorrected⟩
  · rintro ⟨hin, hheads, huntold, hmax⟩
    obtain ⟨r, hr, hfilled⟩ := readValues_filled hin hheads
    obtain ⟨ncm', enough, hrun, hshifted, hsettled⟩ := hends hfilled huntold
    exact ⟨enough, ncm', fun fuel hfuel => by rw [hr, bind_some, hrun fuel hfuel], hshifted,
      (hsettled.corrected_iff hfilled htotal).mpr hmax⟩

end Told

theorem askGeometry_iff (stack : Factors) (data : CapacityData) (pages : Pages) (ncm : NepClassMS) (hk : k < 32)
    (hsize : data.sectorSize.toNat = 2 ^ k) :
    (∃ enough ncm', (∀ fuel ≥ enough, askGeometry fuel stack data pages ncm = some ncm') ∧ ncm'.Shifted ∧
      Corrected ncm.fixCapacity (ulong (data.sectorCount.toNat + 1)) ncm'.geometry.totalSectors) ↔
      Believable ncm pages data := by
  obtain ⟨ncm₁, hread, hshifted, htotal, hfix, hno, hmode, hreads⟩ := readCapacity_ends hk hsize ncm
  have hask : ∀ fuel, askGeometry fuel stack data pages ncm = (readValues pages ncm₁).bind (settle fuel stack) := by
    intro fuel
    unfold askGeometry
    rw [hread]
    rfl
  rw [← believable_congr hfix hno hmode hreads, ← settled_iff stack htotal]
  simp only [hask, hshifted, forall_const, hfix]

theorem nGetGeometry_asks (stack : Factors) (data : CapacityData) (pages : Pages) {ioreq : IOStdReq}
    (hdata : ioreq.data = true) (hcached : ¬ncm.cached) (hok : data.ioerr = 0) :
    ∃ (ncm₁ : NepClassMS) (answer : NepClassMS → IOStdReq), (∀ ncm', (answer ncm').error = 0) ∧
      ncm₁.fixCapacity = ncm.fixCapacity ∧ (Believable ncm₁ pages data ↔ Believable ncm pages data) ∧
      ∀ fuel, nGetGeometry fuel stack data pages ioreq ncm =
        (askGeometry fuel stack data pages ncm₁).bind fun ncm' => some (answer ncm', ncm') := by
  refine ⟨{ ncm with geometry := { ncm.geometry with
      deviceType := ncm.deviceType
      flags := if ncm.removable then FakeGeometry.DGF_REMOVABLE else 0 } },
    fun ncm' => { ioreq with
      error := 0
      actual := min ioreq.length 32
      copied := some (ncm'.sectorSize, ncm'.geometry) }, fun _ => rfl, rfl, Iff.rfl, fun fuel => ?_⟩
  unfold nGetGeometry
  rw [if_neg (by simp [hdata]), if_neg hcached, if_neg (not_not.mpr hok)]
  rfl

/-- The capacity and the pages of a device do no harm exactly when the block size is a power of two, no page has to be
read behind the buffer, no tracks have to be found for no heads, no geometry for a single block, and the last block is
not the highest number there is. -/
theorem unharmed_iff (stack : Factors) (data : CapacityData) (pages : Pages) (ioreq : IOStdReq) (ncm : NepClassMS) :
    Unharmed stack data pages ioreq ncm ↔ Harmless data pages ioreq ncm := by
  have hsplit : Unharmed stack data pages ioreq ncm ↔
      (∃ r, nGetBlockSize data ncm = some r ∧ (r.1 ≠ 0 ∨ r.2.Shifted)) ∧
      ∃ enough r', (∀ fuel ≥ enough, nGetGeometry fuel stack data pages ioreq ncm = some r') ∧
        (r'.1.error ≠ 0 ∨ r'.2.Shifted) ∧
        (ioreq.data = true → ¬ncm.cached → data.ioerr = 0 → Corrected ncm.fixCapacity
          (ulong (data.sectorCount.toNat + 1)) r'.2.geometry.totalSectors) := by
    constructor
    · rintro ⟨enough, r, r', hr, hr', hshifted, hshifted', hcorrected⟩
      refine ⟨⟨r, hr, hshifted⟩, enough, r', hr', hshifted', fun hdata hcached hok => ?_⟩
      rw [← nGetBlockSize_total hr hok]
      exact hcorrected hdata hcached hok
    · rintro ⟨⟨r, hr, hshifted⟩, enough, r', hr', hshifted', hcorrected⟩
      refine ⟨enough, r, r', hr, hr', hshifted, hshifted', fun hdata hcached hok => ?_⟩
      rw [nGetBlockSize_total hr hok]
      exact hcorrected hdata hcached hok
  rw [hsplit, nGetBlockSize_iff, Harmless]
  refine and_congr_right fun hsize => ?_
  cases hdata : ioreq.data with
  | false =>
    refine iff_of_true ⟨0, _, fun fuel _ => if_pos (by simp [hdata]), .inl (by decide : (20 : ℤ) ≠ 0), nofun⟩
      ⟨nofun, nofun⟩
  | true =>
    by_cases hcached : ncm.cached
    · have hrun : ∀ fuel, nGetGeometry fuel stack data pages ioreq ncm = some ({ ioreq with
          error := 0
          actual := min ioreq.length 32
          copied := some (ncm.sectorSize, ncm.geometry) }, ncm) := by
        intro fuel
        unfold nGetGeometry
        rw [if_neg (by simp [hdata]), if_pos hcached]
      simp only [hcached, not_true_eq_false, false_imp_iff, forall_const, and_true]
      constructor
      · rintro ⟨enough, r', hr', hshifted⟩
        cases (hr' enough le_rfl).symm.trans (hrun enough)
        exact hshifted.resolve_left (not_not.mpr rfl)
      · exact fun hshifted => ⟨0, _, fun fuel _ => hrun fuel, .inr hshifted⟩
    · simp only [hcached, not_false_eq_true, false_imp_iff, forall_const, true_and]
      by_cases hok : data.ioerr = 0
      · obtain ⟨k, hk, hpow⟩ := hsize hok
        obtain ⟨ncm₁, answer, herror, hfix, hbelievable, hrun⟩ := nGetGeometry_asks stack data pages hdata hcached hok
        rw [← hbelievable, ← askGeometry_iff stack data pages ncm₁ hk hpow]
        simp only [hok, forall_const, hrun, bind_eq_some_iff, hfix]
        constructor
        · rintro ⟨enough, r', hr', hshifted, hcorrected⟩
          obtain ⟨ncm', -, hr⟩ := hr' enough le_rfl
          cases hr
          refine ⟨enough, ncm', fun fuel hfuel => ?_, hshifted.resolve_left (not_not.mpr (herror ncm')), hcorrected⟩
          obtain ⟨ncm'', hask, hr⟩ := hr' fuel hfuel
          obtain rfl : ncm'' = ncm' := congrArg Prod.snd (some.inj hr)
          exact hask
        · rintro ⟨enough, ncm', hask, hshifted, hcorrected⟩
          exact ⟨enough, (answer ncm', ncm'), fun fuel hfuel => ⟨ncm', hask fuel hfuel, rfl⟩, .inr hshifted, hcorrected⟩
      · simp only [hok, false_imp_iff, and_true, iff_true]
        refine ⟨0, ({ ioreq with error := data.ioerr, actual := 0 }, NepClassMS.psdAddErrorMsg
          { ncm with geometry := { ncm.geometry with
            deviceType := ncm.deviceType
            flags := if ncm.removable then FakeGeometry.DGF_REMOVABLE else 0 } }
          FakeGeometry.RETURN_WARN ("SCSI_READ_CAPACITY failed: " ++ toString data.ioerr)), fun fuel _ => ?_, .inl hok⟩
        unfold nGetGeometry
        rw [if_neg (by simp [hdata]), if_neg hcached, if_pos hok]

def stick : NepClassMS :=
  { toNepClassMS := FakeGeometry.unit
    modeXlate := false
    simpleScsi := false
    modeAdvised := false
    simpleAdvised := false
    blockSize := 0
    blockShift := 0
    geometry := FakeGeometry.disk 0
    sectorSize := 0
    changeCount := 1
    geoChangeCount := 0 }

def noPage : ModeSense := ⟨45, fun _ => 0, 0⟩

def noHeads : ModeSense := ⟨0, fun i => if i = 4 then 4 else if i = 5 then 22 else if i = 8 then 1 else 0, 28⟩

def ioreq : IOStdReq := ⟨true, 32, 0, 0, none⟩

theorem heads_trap : ¬Unharmed FakeGeometry.stack ⟨0, 2047, 512⟩ ⟨noPage, noHeads, noPage⟩ ioreq stick := by
  intro h
  have hharmless := (unharmed_iff _ _ _ _ _).mp h
  exact (hharmless.2.2 rfl (by decide) rfl).2.1 ⟨by decide, by decide, by decide, by decide⟩

end Capacity

end Neptune
