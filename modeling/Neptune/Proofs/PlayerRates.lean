import Neptune.Proofs.PlaysMixed

/-! The player's arithmetic in `ULONG`s, at the rates AHI sets while it plays. A result that does not fit, or a
division by zero, ends the run. -/

namespace Neptune

open Option

namespace UsbAudio.Ulongs

def fits (n : ℕ) : Option ℕ := if n < 2 ^ 32 then some n else none

def fixed (freq : ℕ) : Option ℕ := if freq < 0x10000 then fits (freq <<< 16) else some freq

def playerPeriod (freq : ℕ) : Option ℕ := quot (1000 <<< 20) (freq >>> 12)

def nMaxMixFrames (interval : ℕ) (ctrl : AhiCtrl) : Option ℕ := do
  let frames := (← fits (ctrl.mixFreq * interval)) / 10
  let slowest :=
    if ctrl.minPlayerFreq ≠ 0 ∧ ctrl.minPlayerFreq < ctrl.playerFreq then ctrl.minPlayerFreq else ctrl.playerFreq
  if 0x10000 ≤ slowest then
    let ms ← fits (((← playerPeriod slowest) >>> 16) + 1)
    let need ← fits ((← fits (ctrl.mixFreq * ms)) / 1000 + 1)
    return if frames < need then need else frames
  else return frames

def nPlayerTick (nam : NepAudioMode) (carry : ℕ) : Option (ℕ × NepAudioMode × ℕ × ℕ) := do
  let playerInterval ← fits (nam.playerInterval % 2 ^ 16 + nam.playerFrac)
  let ms := playerInterval / 2 ^ 16
  let part ← fits (carry % 2 ^ 16 + (← fits (nam.framesPerMS % 2 ^ 16 * ms)))
  let frames ← fits ((← fits (nam.framesPerMS / 2 ^ 16 * ms)) + part / 2 ^ 16)
  let cnt := if nam.maxMixFrames < frames then nam.maxMixFrames else frames
  return (frames, { nam with playerInterval := playerInterval, playerMS := ms }, cnt, part % 2 ^ 16)

structure AHIAudioCtrlDrv extends AhiCtrl where
  maxPlayerFreq : ℕ
  buffSize : ℕ

/-- A mode as AHI opens it: the rate is one of its list, which has none above 64000 Hz, and the format one
that has a converter. -/
structure Setup where
  mixFreq : ℕ
  playerFreq : ℕ
  minPlayerFreq : ℕ
  maxPlayerFreq : ℕ
  interval : ℕ
  frameSize : ℕ
  ahiFrameSize : ℕ
  rate : mixFreq ≤ 64000
  player : 0 < playerFreq
  notBelow : UsbAudio.fixed minPlayerFreq ≤ UsbAudio.fixed playerFreq
  word : interval < 2 ^ 16
  sized : frameSize ≤ 8 ∧ ahiFrameSize ≤ 8

structure Player where
  ctrl : AHIAudioCtrlDrv
  nam : NepAudioMode
  playing : Bool
  caused : Bool
  passes : List (ℕ × ℕ)
  hooks : List ℕ

def subLibAllocAudio (m : Setup) (nam : NepAudioMode) : Option Player := do
  let playerFreq ← fixed m.playerFreq
  let minPlayerFreq ← fixed m.minPlayerFreq
  let maxMixFrames ← nMaxMixFrames m.interval ⟨m.mixFreq, playerFreq, minPlayerFreq⟩
  let told := if minPlayerFreq < 10 <<< 16 then 10 <<< 16 else minPlayerFreq
  let maxPlayerFreq ← fixed m.maxPlayerFreq
  let buffSize ← fits (maxMixFrames * m.ahiFrameSize)
  let _ ← fits (maxMixFrames * m.frameSize)
  return {
    ctrl := { mixFreq := m.mixFreq, playerFreq, minPlayerFreq := told, maxPlayerFreq, buffSize }
    nam := { nam with
      interval := m.interval, frameSize := m.frameSize, maxMixFrames, buffSamples := maxMixFrames }
    playing := false
    caused := false
    passes := []
    hooks := [] }

def subLibUpdate (found : ℕ) (s : Player) : Option Player := do
  let playerFreq ← fixed found
  let playerFrac ← playerPeriod playerFreq
  return { s with ctrl := { s.ctrl with playerFreq }, nam := { s.nam with playerFrac } }

def subLibStart (found : ℕ) (s : Player) : Option Player := do
  let s ← subLibUpdate found s
  let framesPerMS := (← fits (s.ctrl.mixFreq <<< 16)) / 1000
  return { s with nam := { s.nam with framesPerMS }, playing := true }

inductive Event
  | start (found : ℕ)
  | update (found : ℕ)
  /-- `nOutReqHook` has a pass due, with the part frame of the buffer to fill. -/
  | pass (carry : ℕ)
  | timer (carry : ℕ)
  /-- The player interrupt, which mixes unless AHI skips the pass or the device is gone. -/
  | int (mixes : Bool)

def tick (carry : ℕ) (hook : Bool) (s : Player) : Option Player :=
  if s.playing then do
    let (frames, nam, cnt, _) ← nPlayerTick s.nam carry
    return { s with
      nam := { nam with buffSamples := cnt }, caused := s.caused || hook, passes := s.passes ++ [(frames, cnt)] }
  else some s

def step (s : Player) : Event → Option Player
  | .start found => subLibStart found s
  | .update found => subLibUpdate found s
  | .pass carry => tick carry true s
  | .timer carry => tick carry false s
  | .int mixes => some { s with
      caused := false, hooks := if s.caused && mixes then s.hooks ++ [s.nam.buffSamples] else s.hooks }

def exec (m : Setup) (nam : NepAudioMode) (evs : List Event) : Option Player := do
  evs.foldlM step (← subLibAllocAudio m nam)

/-- No frame that was due is left out, and no conversion is given none or more than a buffer holds. -/
structure Good (s : Player) : Prop where
  whole : ∀ p ∈ s.passes, p.2 = p.1
  counts : ∀ n ∈ s.hooks, 0 < n ∧ n ≤ s.nam.maxMixFrames

namespace Setup

variable (m : Setup) (found : ℕ)

def ctrl : AhiCtrl := ⟨m.mixFreq, UsbAudio.fixed m.playerFreq, UsbAudio.fixed m.minPlayerFreq⟩

def framesPerMS : ℕ := (m.mixFreq <<< 16) / 1000

def Asked : Prop :=
  UsbAudio.fixed m.minPlayerFreq ≤ UsbAudio.fixed found ∧ 10 <<< 16 ≤ UsbAudio.fixed found ∧
    UsbAudio.fixed found ≤ UsbAudio.fixed m.maxPlayerFreq

def most : ℕ :=
  (2 ^ 16 - 1 + m.framesPerMS * ((2 ^ 16 - 1 + UsbAudio.playerPeriod (UsbAudio.fixed found)) / 2 ^ 16)) / 2 ^ 16

structure Paced : Prop where
  one : 2 ^ 16 ≤ m.framesPerMS * (UsbAudio.playerPeriod (UsbAudio.fixed found) / 2 ^ 16)
  /-- AHI gave a minimum; or it fits a tenth of a second for each millisecond of the interval, or a period of
  the rate AHI gave and a millisecond more. -/
  room : m.minPlayerFreq ≠ 0 ∨ m.most found ≤ max (m.mixFreq * m.interval / 10)
    (m.mixFreq * (UsbAudio.playerPeriod (UsbAudio.fixed m.playerFreq) / 2 ^ 16 + 1) / 1000 + 1)

end Setup

def Event.found : Event → Option ℕ
  | .start found | .update found => some found
  | _ => none

variable {m : Setup} {nam : NepAudioMode} {s t : Player} {found n : ℕ}

theorem fits_eq (h : n < 2 ^ 32) : fits n = some n := if_pos h

theorem fixed_eq (freq : ℕ) : fixed freq = some (UsbAudio.fixed freq) := by
  unfold fixed UsbAudio.fixed
  split
  · exact fits_eq (by rw [Nat.shiftLeft_eq]; omega)
  · rfl

theorem playerPeriod_eq {freq : ℕ} (h : 0x10000 ≤ freq) : playerPeriod freq = some (UsbAudio.playerPeriod freq) := by
  refine if_pos ?_
  omega

theorem period_le {freq : ℕ} (h : 0x10000 ≤ freq) : UsbAudio.playerPeriod freq ≤ 1000 * 2 ^ 16 :=
  (playerPeriod_le le_rfl h).trans (by decide)

theorem nMaxMixFrames_eq (m : Setup) :
    nMaxMixFrames m.interval m.ctrl = some (UsbAudio.nMaxMixFrames m.interval m.ctrl) := by
  have hrate := m.rate
  have hinterval : m.mixFreq * m.interval < 2 ^ 32 :=
    (Nat.mul_le_mul hrate (Nat.le_of_lt_succ m.word)).trans_lt (by decide)
  unfold nMaxMixFrames UsbAudio.nMaxMixFrames
  rw [show m.ctrl.mixFreq = m.mixFreq from rfl, fits_eq hinterval]
  simp only [bind_eq_bind, bind_some]
  generalize (if m.ctrl.minPlayerFreq ≠ 0 ∧ m.ctrl.minPlayerFreq < m.ctrl.playerFreq then m.ctrl.minPlayerFreq
    else m.ctrl.playerFreq) = slowest
  by_cases hslow : 0x10000 ≤ slowest
  · have hms := period_le hslow
    have hneed : m.mixFreq * ((UsbAudio.playerPeriod slowest >>> 16) + 1) < 2 ^ 31 := by
      refine (Nat.mul_le_mul hrate (?_ : _ ≤ 1001)).trans_lt (by decide)
      omega
    rw [if_pos hslow, if_pos hslow, playerPeriod_eq hslow, bind_some, fits_eq (by
      rw [Nat.shiftRight_eq_div_pow]; omega), bind_some, fits_eq (by omega), bind_some,
      fits_eq (by omega), bind_some, max_def]
    split <;> split <;> first | rfl | (congr 1; omega)
  · rw [if_neg hslow, if_neg hslow]
    rfl

theorem nMaxMixFrames_max (m : Setup) : ∃ need ≤ 2 ^ 16,
    UsbAudio.nMaxMixFrames m.interval m.ctrl = max (m.mixFreq * m.interval / 10) need := by
  unfold UsbAudio.nMaxMixFrames
  dsimp only
  generalize (if m.ctrl.minPlayerFreq ≠ 0 ∧ m.ctrl.minPlayerFreq < m.ctrl.playerFreq then m.ctrl.minPlayerFreq
    else m.ctrl.playerFreq) = slowest
  split
  · rename_i hslow
    have hms := period_le hslow
    have hneed := Nat.mul_le_mul m.rate (show (UsbAudio.playerPeriod slowest >>> 16) + 1 ≤ 1001 by
      rw [Nat.shiftRight_eq_div_pow]; omega)
    exact ⟨m.mixFreq * ((UsbAudio.playerPeriod slowest >>> 16) + 1) / 1000 + 1, by omega, rfl⟩
  · exact ⟨0, by omega, (Nat.max_zero _).symm⟩

def due (nam : NepAudioMode) (carry : ℕ) : ℕ :=
  let ms := (nam.playerInterval % 2 ^ 16 + nam.playerFrac) / 2 ^ 16
  nam.framesPerMS / 2 ^ 16 * ms + (carry % 2 ^ 16 + nam.framesPerMS % 2 ^ 16 * ms) / 2 ^ 16

theorem nPlayerTick_eq (nam : NepAudioMode) (carry : ℕ) (hfrac : nam.playerFrac ≤ 1000 * 2 ^ 16)
    (hrate : nam.framesPerMS < 2 ^ 23) :
    nPlayerTick nam carry = some (due nam carry, UsbAudio.nPlayerTick nam carry) := by
  have hms : (nam.playerInterval % 2 ^ 16 + nam.playerFrac) / 2 ^ 16 ≤ 1000 := by omega
  have hpart : nam.framesPerMS % 2 ^ 16 * ((nam.playerInterval % 2 ^ 16 + nam.playerFrac) / 2 ^ 16) < 2 ^ 31 :=
    (Nat.mul_le_mul (Nat.le_of_lt_succ (Nat.mod_lt _ (by decide))) hms).trans_lt (by decide)
  have hwhole : nam.framesPerMS / 2 ^ 16 * ((nam.playerInterval % 2 ^ 16 + nam.playerFrac) / 2 ^ 16) < 2 ^ 31 :=
    (Nat.mul_le_mul (show _ ≤ 2 ^ 7 by omega) hms).trans_lt (by decide)
  have hcut : ∀ cnt frames : ℕ, (if cnt < frames then cnt else frames) = min frames cnt := by
    intro cnt frames
    split <;> omega
  unfold nPlayerTick UsbAudio.nPlayerTick due
  simp only [fits_eq (show nam.playerInterval % 2 ^ 16 + nam.playerFrac < 2 ^ 32 by omega), bind_eq_bind,
    bind_some]
  rw [fits_eq (by omega), bind_some, fits_eq (by omega), bind_some, fits_eq (by omega),
    bind_some, fits_eq (by omega), bind_some]
  simp only [hcut]
  rfl

/-- What a pass is due fits, and is not nothing. -/
theorem due_of_paced (hfound : m.Asked found) (hpaced : m.Paced found) (hrate : nam.framesPerMS = m.framesPerMS)
    (hfrac : nam.playerFrac = UsbAudio.playerPeriod (UsbAudio.fixed found)) (carry : ℕ) :
    0 < due nam carry ∧ due nam carry ≤ UsbAudio.nMaxMixFrames m.interval m.ctrl := by
  have hpart : nam.playerInterval % 2 ^ 16 < 2 ^ 16 := Nat.mod_lt _ (by decide)
  have hcarry : carry % 2 ^ 16 < 2 ^ 16 := Nat.mod_lt _ (by decide)
  unfold due
  dsimp only
  rw [(frames_apart carry _ _).1, hrate, hfrac]
  generalize nam.playerInterval % 2 ^ 16 = part at *
  constructor
  · have hone := hpaced.one.trans (Nat.mul_le_mul_left m.framesPerMS (Nat.div_le_div_right
      (Nat.le_add_left (UsbAudio.playerPeriod (UsbAudio.fixed found)) part)))
    exact Nat.div_pos (hone.trans (Nat.le_add_left _ _)) (by decide)
  · have hroom := fun freq => @nMaxMixFrames_le freq m.interval m.ctrl (fixed_le m.player) (fixed_zero_or _)
    rcases hpaced.room with hmin | hmost
    · exact (count_le_of_rate hcarry).trans
        (hroom _ (.inr ⟨Nat.ne_zero_of_lt (fixed_le (Nat.pos_of_ne_zero hmin)), hfound.1⟩) (by omega))
    · obtain ⟨need, -, hmax⟩ := nMaxMixFrames_max m
      have hms := Nat.div_le_div_right (c := 2 ^ 16)
        (Nat.add_le_add_right (Nat.le_of_lt_succ hpart) (UsbAudio.playerPeriod (UsbAudio.fixed found)))
      have hdue : _ ≤ m.most found :=
        Nat.div_le_div_right (Nat.add_le_add (Nat.le_of_lt_succ hcarry) (Nat.mul_le_mul_left _ hms))
      exact hdue.trans (hmost.trans (max_le (hmax ▸ le_max_left _ _) (hroom _ (.inl le_rfl) le_rfl)))

structure Inv (m : Setup) (s : Player) : Prop extends Good s where
  mixFreq : s.ctrl.mixFreq = m.mixFreq
  room : s.nam.maxMixFrames = UsbAudio.nMaxMixFrames m.interval m.ctrl
  pace : s.playing = true → s.nam.framesPerMS = m.framesPerMS ∧ ∃ found, m.Asked found ∧ m.Paced found ∧
    s.nam.playerFrac = UsbAudio.playerPeriod (UsbAudio.fixed found)
  given : s.caused = true → 0 < s.nam.buffSamples ∧ s.nam.buffSamples ≤ s.nam.maxMixFrames

theorem alloc_inv (m : Setup) (nam : NepAudioMode) : ∃ s, subLibAllocAudio m nam = some s ∧ Inv m s := by
  obtain ⟨need, hneed, hmax⟩ := nMaxMixFrames_max m
  have hinterval : m.mixFreq * m.interval ≤ 64000 * 65535 := Nat.mul_le_mul m.rate (Nat.le_of_lt_succ m.word)
  have hsize : ∀ size ≤ 8, fits (UsbAudio.nMaxMixFrames m.interval m.ctrl * size) =
      some (UsbAudio.nMaxMixFrames m.interval m.ctrl * size) := fun size h =>
    fits_eq ((Nat.mul_le_mul_left _ h).trans_lt (by omega))
  have hroom := nMaxMixFrames_eq m
  unfold Setup.ctrl at hroom hsize
  unfold subLibAllocAudio
  simp only [fixed_eq, bind_eq_bind, bind_some]
  rw [hroom, bind_some, hsize _ m.sized.2,
    bind_some, hsize _ m.sized.1]
  exact ⟨_, rfl, ⟨⟨nofun, nofun⟩, rfl, rfl, nofun, nofun⟩⟩

theorem Inv.update (h : Inv m s) (hfound : m.Asked found) (hpaced : m.Paced found) :
    ∃ t, subLibUpdate found s = some t ∧ Inv m t ∧
      t.nam.playerFrac = UsbAudio.playerPeriod (UsbAudio.fixed found) := by
  unfold subLibUpdate
  rw [fixed_eq, bind_eq_bind, bind_some, playerPeriod_eq ((by decide : 0x10000 ≤ 10 <<< 16).trans
    hfound.2.1)]
  refine ⟨_, rfl, ⟨⟨h.whole, h.counts⟩, h.mixFreq, h.room, fun hp => ⟨(h.pace hp).1, found, hfound, hpaced, rfl⟩,
    h.given⟩, rfl⟩

theorem Inv.start (h : Inv m s) (hfound : m.Asked found) (hpaced : m.Paced found) :
    ∃ t, subLibStart found s = some t ∧ Inv m t := by
  obtain ⟨t, ht, hinv, hfrac⟩ := h.update hfound hpaced
  have hrate := m.rate
  unfold subLibStart
  rw [ht, bind_eq_bind, bind_some, hinv.mixFreq, fits_eq (by rw [Nat.shiftLeft_eq]; omega)]
  exact ⟨_, rfl, ⟨⟨hinv.whole, hinv.counts⟩, hinv.mixFreq, hinv.room,
    fun _ => ⟨rfl, found, hfound, hpaced, hfrac⟩, hinv.given⟩⟩

theorem Inv.tick (h : Inv m s) (carry : ℕ) (hook : Bool) : ∃ t, tick carry hook s = some t ∧ Inv m t := by
  unfold Ulongs.tick
  by_cases hp : s.playing = true
  · obtain ⟨hrate, found, hfound, hpaced, hfrac⟩ := h.pace hp
    have hframes : s.nam.framesPerMS < 2 ^ 23 := by
      have hmix := m.rate
      rw [hrate, Setup.framesPerMS, Nat.shiftLeft_eq]
      omega
    have hdue := due_of_paced hfound hpaced hrate hfrac carry
    have hcnt : (UsbAudio.nPlayerTick s.nam carry).2.1 = due s.nam carry := by
      unfold UsbAudio.nPlayerTick
      rw [h.room]
      exact min_eq_left hdue.2
    rw [if_pos hp, nPlayerTick_eq _ _ (hfrac ▸ period_le ((by decide : 0x10000 ≤ 10 <<< 16).trans hfound.2.1)) hframes]
    refine ⟨_, rfl, ⟨⟨fun p hmem => ?_, h.counts⟩, h.mixFreq, h.room, h.pace, fun _ => ?_⟩⟩
    · rcases List.mem_append.1 hmem with hmem | hmem
      · exact h.whole p hmem
      · rw [List.mem_singleton.1 hmem]
        exact hcnt
    · show 0 < (UsbAudio.nPlayerTick s.nam carry).2.1 ∧ (UsbAudio.nPlayerTick s.nam carry).2.1 ≤ s.nam.maxMixFrames
      rw [hcnt, h.room]
      exact hdue
  · rw [if_neg hp]
    exact ⟨s, rfl, h⟩

theorem Inv.step (h : Inv m s) (ev : Event) (hev : ∀ found ∈ ev.found, m.Asked found ∧ m.Paced found) :
    ∃ t, step s ev = some t ∧ Inv m t := by
  cases ev with
  | start found => exact h.start (hev found rfl).1 (hev found rfl).2
  | update found =>
    obtain ⟨t, ht, hinv, -⟩ := h.update (hev found rfl).1 (hev found rfl).2
    exact ⟨t, ht, hinv⟩
  | pass carry => exact h.tick carry true
  | timer carry => exact h.tick carry false
  | int mixes =>
    refine ⟨_, rfl, ⟨⟨h.whole, ?_⟩, h.mixFreq, h.room, h.pace, nofun⟩⟩
    split
    · rename_i hmixes
      intro n hn
      rcases List.mem_append.1 hn with hn | hn
      · exact h.counts n hn
      · rw [List.mem_singleton.1 hn]
        exact h.given (Bool.and_eq_true_iff.1 hmixes).1
    · exact h.counts

def idle : NepAudioMode := ⟨0, 0, 0, 0, 0, 0, 0, 0, fun _ => 0, fun _ => 0, false, true, 0, 0, false, 0⟩

def compactDisc (playerFreq minPlayerFreq maxPlayerFreq : ℕ) (hplayer : 0 < playerFreq)
    (hmin : UsbAudio.fixed minPlayerFreq ≤ UsbAudio.fixed playerFreq) : Setup :=
  ⟨44100, playerFreq, minPlayerFreq, maxPlayerFreq, 1, 4, 4, Nat.le_add_right 44100 19900, hplayer, hmin, by decide, by decide⟩

end UsbAudio.Ulongs

end Neptune
