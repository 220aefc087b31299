import Neptune.Spec.HubDesc

/-! The speed flags of a record are never taken back: they tell every speed the port has shown up to the first
high speed. They are right when an earlier speed leaves nothing behind that the speed of this reset has not. -/

namespace Neptune.PortSpeed

open List

inductive Speed
  | low
  | full
  | high
  deriving DecidableEq, Repr

def speed (wPortStatus : UInt16) : Speed :=
  if wPortStatus &&& UPSF_PORT_HIGH_SPEED ≠ 0 then .high
  else if wPortStatus &&& UPSF_PORT_LOW_SPEED ≠ 0 then .low
  else .full

structure Call.Consistent (c : Call) : Prop where
  one : ¬(c.pd.isLowspeed = true ∧ c.pd.isHighspeed = true)
  direct : c.pd.isHighspeed = true → c.pd.needsSplitTrans = false
  high : c.pd.isHighspeed = true ↔ speed c.wPortStatus = .high
  low : c.pd.isLowspeed = true ↔ speed c.wPortStatus = .low

def told (earlier : List Speed) : List Speed := earlier.takeWhile (· ≠ .high)

/-- The earlier speeds leave nothing behind. `low`: the port was low speed before the first reset; `split`: the
hub asks for split transfers. -/
def Agrees (low split : Bool) (earlier : List Speed) : Speed → Prop
  | .low => Speed.high ∉ earlier
  | .full => low = false ∧ ∀ s ∈ earlier, s = .full
  | .high => low = false ∧ Speed.low ∉ told earlier ∧ (told earlier = [] ∨ split = false)

def NepClassHub.splits (nch : NepClassHub) : Bool := nch.isUSB20 || nch.needsSplitTrans

variable {low split : Bool} {earlier : List Speed} {l : Locals} {status : UInt16} {nch : NepClassHub}

theorem told_high (h : Speed.high ∈ earlier) (s : Speed) : told (earlier ++ [s]) = told earlier := by
  induction earlier with
  | nil => exact absurd h not_mem_nil
  | cons t earlier ih =>
    unfold told at ih ⊢
    rw [cons_append, takeWhile_cons, takeWhile_cons]
    by_cases ht : t = .high
    · simp [ht]
    · rw [ih ((mem_cons.mp h).resolve_left (Ne.symm ht))]

theorem told_of_not_high (h : Speed.high ∉ earlier) : told earlier = earlier := by
  unfold told
  rw [takeWhile_eq_self_iff]
  intro s hs
  exact decide_eq_true fun he => h (he ▸ hs)

theorem told_append (h : Speed.high ∉ earlier) (s : Speed) (hs : s ≠ .high) : told (earlier ++ [s]) = earlier ++ [s] := by
  apply told_of_not_high
  simp [h, hs.symm]

theorem told_append_high (h : Speed.high ∉ earlier) : told (earlier ++ [.high]) = earlier := by
  have hself := told_of_not_high h
  unfold told at hself ⊢
  rw [takeWhile_append, if_pos (by rw [hself])]
  simp

structure Tells (low split : Bool) (earlier : List Speed) (l : Locals) : Prop where
  high : l.pd.isHighspeed = true ↔ Speed.high ∈ earlier
  was : l.washighspeed = l.pd.isHighspeed
  low : l.pd.isLowspeed = true ↔ low = true ∨ Speed.low ∈ told earlier
  split : l.pd.needsSplitTrans = true ↔ told earlier ≠ [] ∧ split = true

theorem tells_start (low split : Bool) : Tells low split [] ⟨⟨low, false, false⟩, false⟩ where
  high := by simp
  was := rfl
  low := by simp [told]
  split := by simp [told]

theorem Tells.setSpeed (h : Tells low nch.splits earlier l) (status : UInt16) :
    Tells low nch.splits (earlier ++ [speed status]) (nch.setSpeed status l) := by
  by_cases hwas : Speed.high ∈ earlier
  · have hw : l.washighspeed = true := h.was.trans (h.high.mpr hwas)
    unfold NepClassHub.setSpeed
    rw [if_pos (.inr hw)]
    refine ⟨?_, rfl, ?_, ?_⟩
    · simp [hwas]
    · rw [told_high hwas]
      exact h.low
    · rw [told_high hwas]
      exact h.split
  · have hw : ¬l.washighspeed = true := fun hw => hwas (h.high.mp (h.was ▸ hw))
    unfold NepClassHub.setSpeed speed
    by_cases hhigh : status &&& UPSF_PORT_HIGH_SPEED ≠ 0
    · rw [if_pos (Or.inl hhigh), if_pos hhigh]
      have hself := told_of_not_high hwas
      refine ⟨?_, rfl, ?_, ?_⟩
      · simp
      · rw [told_append_high hwas, h.low, hself]
      · rw [told_append_high hwas, h.split, hself]
    · rw [if_neg (not_or_intro hhigh hw), if_neg hhigh]
      have hnot : l.pd.isHighspeed = false := by simpa [hwas] using h.high
      by_cases hlow : status &&& UPSF_PORT_LOW_SPEED ≠ 0
      · rw [if_pos hlow, if_pos hlow]
        refine ⟨?_, h.was, ?_, ?_⟩
        · simp [hnot, hwas]
        · simp [told_append hwas .low nofun]
        · simp [told_append hwas .low nofun, NepClassHub.splits]
      · rw [if_neg hlow, if_neg hlow]
        refine ⟨?_, h.was, ?_, ?_⟩
        · simp [hnot, hwas]
        · rw [told_append hwas .full nofun]
          simp [h.low, told_of_not_high hwas]
        · simp [told_append hwas .full nofun, NepClassHub.splits]

theorem Tells.consistent_iff (h : Tells low split (earlier ++ [speed status]) l) :
    Call.Consistent ⟨status, l.pd⟩ ↔ Agrees low split earlier (speed status) := by
  cases hs : speed status with
  | low =>
    rw [hs] at h
    have hhigh : l.pd.isHighspeed = true ↔ Speed.high ∈ earlier := by simp [h.high]
    constructor
    · intro hc hmem
      exact absurd ((hc.high.mp (hhigh.mpr hmem)).symm.trans hs) nofun
    · intro hnot
      have hflag : ¬l.pd.isHighspeed = true := fun hf => hnot (hhigh.mp hf)
      refine ⟨fun hc => hflag hc.2, fun hf => absurd hf hflag, ?_, ?_⟩
      · simp [hflag, hs]
      · simp [h.low, told_append hnot .low nofun, hs]
  | full =>
    rw [hs] at h
    have hhigh : l.pd.isHighspeed = true ↔ Speed.high ∈ earlier := by simp [h.high]
    constructor
    · intro hc
      have hnot : Speed.high ∉ earlier := fun hmem => absurd ((hc.high.mp (hhigh.mpr hmem)).symm.trans hs) nofun
      have hlow : ¬l.pd.isLowspeed = true := fun hf => absurd ((hc.low.mp hf).symm.trans hs) nofun
      rw [h.low, told_append hnot .full nofun] at hlow
      simp only [mem_append, mem_singleton, reduceCtorEq, or_false, not_or] at hlow
      refine ⟨Bool.eq_false_iff.mpr hlow.1, fun s hmem => ?_⟩
      cases s with
      | low => exact absurd hmem hlow.2
      | full => rfl
      | high => exact absurd hmem hnot
    · rintro ⟨hbefore, hall⟩
      have hnot : Speed.high ∉ earlier := fun hmem => nomatch hall _ hmem
      have hlow : Speed.low ∉ earlier := fun hmem => nomatch hall _ hmem
      have hflag : ¬l.pd.isHighspeed = true := fun hf => hnot (hhigh.mp hf)
      refine ⟨fun hc => hflag hc.2, fun hf => absurd hf hflag, ?_, ?_⟩
      · simp [hflag, hs]
      · simp [h.low, told_append hnot .full nofun, hs, hbefore, hlow]
  | high =>
    rw [hs] at h
    have hflag : l.pd.isHighspeed = true := h.high.mpr (by simp)
    have htold : told (earlier ++ [.high]) = told earlier := by
      by_cases hwas : Speed.high ∈ earlier
      · exact told_high hwas _
      · rw [told_append_high hwas, told_of_not_high hwas]
    have hlow := h.low
    have hsplit := h.split
    rw [htold] at hlow hsplit
    constructor
    · intro hc
      have hnot : ¬(low = true ∨ Speed.low ∈ told earlier) := fun hor => hc.one ⟨hlow.mpr hor, hflag⟩
      rw [not_or] at hnot
      refine ⟨Bool.eq_false_iff.mpr hnot.1, hnot.2, ?_⟩
      by_contra hor
      rw [not_or, Bool.not_eq_false] at hor
      exact absurd ((hsplit.mpr hor).symm.trans (hc.direct hflag)) nofun
    · rintro ⟨hbefore, hmem, hor⟩
      have hnot : ¬l.pd.isLowspeed = true := by simp [hlow, hbefore, hmem]
      refine ⟨fun hc => hnot hc.1, fun _ => ?_, by simp [hflag, hs], by simp [hnot, hs]⟩
      rw [← Bool.not_eq_true, hsplit]
      rintro ⟨hne, hsp⟩
      exact hor.elim hne fun hf => absurd (hsp.symm.trans hf) nofun

/-- The statuses of the resets with which the port comes up, as far as the resets go, and whether
`psdEnumerateDevice` is called. -/
def ups (resets : ℕ → Reset) : (left resetretries : ℕ) → List (UInt16 × Bool)
  | 0, _ => []
  | left + 1, resetretries =>
    let reset := resets resetretries
    if reset.ioerr ≠ 0 then []
    else
      match reset.up resetretries with
      | none => ups resets left (resetretries + 1)
      | some status =>
        (status, reset.allocPipe) ::
          if reset.allocPipe && reset.enumerates then [] else ups resets left (resetretries + 1)

def Steady (low split : Bool) (earlier : List Speed) : List (UInt16 × Bool) → Prop
  | [] => True
  | (status, calls) :: rest =>
    (calls = true → Agrees low split earlier (speed status)) ∧ Steady low split (earlier ++ [speed status]) rest

theorem resetLoop_consistent (resets : ℕ → Reset) (left resetretries : ℕ) (h : Tells low nch.splits earlier l) :
    (∀ c ∈ (nch.resetLoop resets left resetretries l).1, c.Consistent) ↔
      Steady low nch.splits earlier (ups resets left resetretries) := by
  induction left generalizing resetretries earlier l with
  | zero => simp [NepClassHub.resetLoop, ups, Steady]
  | succ left ih =>
    unfold NepClassHub.resetLoop ups
    by_cases herr : (resets resetretries).ioerr ≠ 0
    · simp [herr, Steady]
    · rw [if_neg herr, if_neg herr]
      cases (resets resetretries).up resetretries with
      | none => exact ih _ h
      | some status =>
        have hset : Tells low nch.splits (earlier ++ [speed status]) (nch.setSpeed status l) := h.setSpeed status
        have hrest := ih (resetretries + 1) hset
        cases (resets resetretries).allocPipe with
        | false =>
          simp only [Bool.false_eq_true, if_false, Bool.false_and, Steady, false_implies, true_and]
          exact hrest
        | true =>
          have hcall := hset.consistent_iff
          cases (resets resetretries).enumerates with
          | false =>
            simp only [if_true, Bool.false_eq_true, if_false, Bool.and_false, Steady, forall_mem_cons,
              forall_const, hcall, hrest]
          | true => simp [Steady, hcall]

def World.Steady (w : World) (nch : NepClassHub) : Prop :=
  w.uhps.ioerr = 0 → w.uhps.wPortStatus &&& UPSF_PORT_CONNECTION ≠ 0 → w.allocDevice = true →
    PortSpeed.Steady (w.uhps.wPortStatus &&& UPSF_PORT_LOW_SPEED ≠ 0) nch.splits [] (ups w.resets 3 0)

theorem speed_flags_iff (nch : NepClassHub) (w : World) :
    (∀ c ∈ (nch.nConfigurePort w).1, c.Consistent) ↔ w.Steady nch := by
  unfold NepClassHub.nConfigurePort World.Steady
  dsimp only
  split
  · next h =>
    refine iff_of_true (by simp) fun herr hconn halloc => ?_
    rcases h with h | h | h
    · exact absurd herr h
    · exact absurd h hconn
    · exact absurd (halloc.symm.trans h) nofun
  · next h =>
    rw [not_or, not_or, not_not, Bool.not_eq_false] at h
    rw [resetLoop_consistent w.resets 3 0 (tells_start _ _)]
    exact ⟨fun hs _ _ _ => hs, fun hs => hs h.1 h.2.1 h.2.2⟩

def always (first status : UInt16) : World :=
  ⟨⟨0, first⟩, true, fun _ => ⟨0, fun _ => ⟨0, status⟩, true, false⟩⟩

theorem low_and_high :
    ¬ ∀ (nch : NepClassHub) (w : World), ∀ c ∈ (nch.nConfigurePort w).1, c.Consistent := by
  intro h
  have hc := h ⟨true, false⟩ (always 0x0301 0x0503) ⟨0x0503, ⟨true, true, false⟩⟩ (by decide)
  exact hc.one ⟨rfl, rfl⟩

end Neptune.PortSpeed
