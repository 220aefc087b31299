import Neptune.Spec.AudioPlay

/-! What is mixed in one player period is sent in the next one. It is sent whole, and in order, where the
intervals of that period take just what the pass before it mixed. -/

namespace Neptune.UsbAudio

open List

/-- Frames a millisecond and the player's period, 16.16, and the service interval. -/
structure Pace where
  framesPerMS : ℕ
  period : ℕ
  interval : ℕ

/-- What a player pass starts with: the part of a millisecond, the milliseconds the pass came early, and the
part frame. -/
structure Beat where
  frac : ℕ
  early : ℕ
  carry : ℕ

namespace Pace

variable (p : Pace) (b : Beat)

def ms : ℕ := (b.frac + p.period) / 2 ^ 16

def count : ℕ := (b.carry + p.framesPerMS * p.ms b) / 2 ^ 16

def calls : ℕ := (b.early + p.ms b) / p.interval

def next : Beat where
  frac := (b.frac + p.period) % 2 ^ 16
  early := (b.early + p.ms b) % p.interval
  carry := (b.carry + p.framesPerMS * p.ms b) % 2 ^ 16

/-- What the first `k` intervals of the next period take of the frames of this one. The part frame they
start with is the one the period after them starts with. -/
def takes (k : ℕ) : ℕ := ((p.next (p.next b)).carry + p.framesPerMS * p.interval * k) / 2 ^ 16

/-- The intervals of the next period take the frames of this one, the last of them the last frame. -/
structure Even : Prop where
  last : p.takes b (p.calls (p.next b)) = p.count b
  before : ∀ k, 0 < k → k < p.calls (p.next b) → p.takes b k < p.count b

def beat (b : Beat) : ℕ → Beat
  | 0 => b
  | n + 1 => p.next (beat b n)

variable {p b}

theorem takes_mono {j k : ℕ} (h : j ≤ k) : p.takes b j ≤ p.takes b k :=
  Nat.div_le_div_right (Nat.add_le_add_left (Nat.mul_le_mul_left _ h) _)

theorem Even.le (h : p.Even b) {k : ℕ} (hk : k ≤ p.calls (p.next b)) : p.takes b k ≤ p.count b :=
  h.last ▸ takes_mono hk

end Pace

def PlayMode.pace (m : PlayMode) : Pace where
  framesPerMS := (m.ctrl.mixFreq <<< 16) / 1000
  period := playerPeriod (fixed m.ctrl.playerFreq)
  interval := m.interval

variable {freq : ℕ} {a : Beat} {int : PlayerInt}

theorem fixed_le (h : 0 < freq) : 0x10000 ≤ fixed freq := by
  unfold fixed
  split
  · omega
  · omega

theorem playerPeriod_le {slow : ℕ} (hslow : 0x10000 ≤ slow) (h : slow ≤ freq) :
    playerPeriod freq ≤ playerPeriod slow := by
  unfold playerPeriod
  rw [Nat.shiftRight_eq_div_pow, Nat.shiftRight_eq_div_pow]
  exact Nat.div_le_div_left (Nat.div_le_div_right h) (by omega)

theorem nMaxMixFrames_le (interval : ℕ) (ctrl : AhiCtrl) (hplayer : 0x10000 ≤ ctrl.playerFreq)
    (hmin : ctrl.minPlayerFreq = 0 ∨ 0x10000 ≤ ctrl.minPlayerFreq) {ms : ℕ}
    (hfreq : ctrl.playerFreq ≤ freq ∨ ctrl.minPlayerFreq ≠ 0 ∧ ctrl.minPlayerFreq ≤ freq)
    (hms : ms ≤ playerPeriod freq / 2 ^ 16 + 1) :
    ctrl.mixFreq * ms / 1000 + 1 ≤ nMaxMixFrames interval ctrl := by
  have hslow : ∃ slow, 0x10000 ≤ slow ∧ slow ≤ freq ∧ nMaxMixFrames interval ctrl =
      max (ctrl.mixFreq * interval / 10) (ctrl.mixFreq * ((playerPeriod slow >>> 16) + 1) / 1000 + 1) := by
    unfold nMaxMixFrames
    by_cases hlower : ctrl.minPlayerFreq ≠ 0 ∧ ctrl.minPlayerFreq < ctrl.playerFreq
    · have hle := hmin.resolve_left hlower.1
      exact ⟨ctrl.minPlayerFreq, hle, by omega, by simp only [if_pos hlower, if_pos hle]⟩
    · exact ⟨ctrl.playerFreq, hplayer, by omega, by simp only [if_neg hlower, if_pos hplayer]⟩
  obtain ⟨slow, hslow, hle, heq⟩ := hslow
  rw [heq, Nat.shiftRight_eq_div_pow]
  have hperiod : playerPeriod freq / 2 ^ 16 ≤ playerPeriod slow / 2 ^ 16 :=
    Nat.div_le_div_right (playerPeriod_le hslow hle)
  refine le_trans (Nat.add_le_add_right ?_ 1) (le_max_right _ _)
  exact Nat.div_le_div_right (Nat.mul_le_mul_left _ (by omega))

theorem count_le_of_rate {rate carry ms : ℕ} (hcarry : carry < 2 ^ 16) :
    (carry + (rate <<< 16) / 1000 * ms) / 2 ^ 16 ≤ rate * ms / 1000 + 1 := by
  have hrate : (rate <<< 16) / 1000 * 1000 ≤ rate * 2 ^ 16 := by
    rw [Nat.shiftLeft_eq]
    exact Nat.div_mul_le_self _ _
  have hms := Nat.mul_le_mul_right ms hrate
  have hdiv := Nat.div_mul_le_self (carry + (rate <<< 16) / 1000 * ms) (2 ^ 16)
  generalize (rate <<< 16) / 1000 = r at *
  generalize (carry + r * ms) / 2 ^ 16 = q at *
  have hsum : q * 2 ^ 16 * 1000 < (rate * ms + 1000) * 2 ^ 16 := by
    calc q * 2 ^ 16 * 1000 ≤ (carry + r * ms) * 1000 := Nat.mul_le_mul_right _ hdiv
      _ = carry * 1000 + r * 1000 * ms := by ring
      _ ≤ carry * 1000 + rate * 2 ^ 16 * ms := Nat.add_le_add_left hms _
      _ < 2 ^ 16 * 1000 + rate * 2 ^ 16 * ms := by omega
      _ = (rate * ms + 1000) * 2 ^ 16 := by ring
  omega

theorem frames_apart (carry rate ms : ℕ) :
    rate / 2 ^ 16 * ms + (carry % 2 ^ 16 + rate % 2 ^ 16 * ms) / 2 ^ 16 = (carry % 2 ^ 16 + rate * ms) / 2 ^ 16 ∧
      (carry % 2 ^ 16 + rate % 2 ^ 16 * ms) % 2 ^ 16 = (carry % 2 ^ 16 + rate * ms) % 2 ^ 16 := by
  have hsplit : carry % 2 ^ 16 + rate * ms =
      2 ^ 16 * (rate / 2 ^ 16 * ms) + (carry % 2 ^ 16 + rate % 2 ^ 16 * ms) := by
    have hrate := Nat.div_add_mod rate (2 ^ 16)
    calc carry % 2 ^ 16 + rate * ms = carry % 2 ^ 16 + (2 ^ 16 * (rate / 2 ^ 16) + rate % 2 ^ 16) * ms := by rw [hrate]
      _ = _ := by ring
  rw [hsplit]
  constructor
  · rw [Nat.mul_add_div (by norm_num)]
  · rw [Nat.mul_add_mod]

variable {m : PlayMode} {b : Beat} {s : Playback} {base j : ℕ}

structure Config (m : PlayMode) (nam : NepAudioMode) : Prop where
  interval : nam.interval = m.interval
  frameSize : nam.frameSize = m.frameSize
  playerFrac : nam.playerFrac = m.pace.period
  framesPerMS : nam.framesPerMS = m.pace.framesPerMS
  granted : nam.denyRequests = false
  room : ∀ carry ms, carry < 2 ^ 16 → ms ≤ m.pace.period / 2 ^ 16 + 1 →
    (carry + m.pace.framesPerMS * ms) / 2 ^ 16 ≤ nam.maxMixFrames

structure Ready (m : PlayMode) (b : Beat) (s : Playback) : Prop where
  config : Config m s.nam
  timer : s.nam.playerTimer = b.early
  early : b.early < m.interval
  frac : s.nam.playerInterval % 2 ^ 16 = b.frac
  carry : s.nam.playCarry s.nam.fillBuf % 2 ^ 16 = b.carry
  bufs : s.nam.sendBuf = !s.nam.fillBuf

theorem Ready.tick (h : Ready m b s) (nam : NepAudioMode) (hconfig : Config m nam)
    (hfrac : nam.playerInterval % 2 ^ 16 = b.frac) {carry : ℕ} (hcarry : carry % 2 ^ 16 = b.carry) :
    nPlayerTick nam carry =
      ({ nam with playerInterval := b.frac + m.pace.period, playerMS := m.pace.ms b }, m.pace.count b,
        (m.pace.next b).carry) := by
  have hms : m.pace.ms b ≤ m.pace.period / 2 ^ 16 + 1 := by
    have hlt : b.frac < 2 ^ 16 := h.frac ▸ Nat.mod_lt _ (by norm_num)
    unfold Pace.ms
    omega
  obtain ⟨hframes, hpart⟩ := frames_apart carry m.pace.framesPerMS (m.pace.ms b)
  have hroom := hconfig.room (carry % 2 ^ 16) (m.pace.ms b) (Nat.mod_lt _ (by norm_num)) hms
  have hcount : (carry % 2 ^ 16 + m.pace.framesPerMS * m.pace.ms b) / 2 ^ 16 = m.pace.count b := by
    rw [hcarry]
    rfl
  have hinterval : nam.playerInterval % 2 ^ 16 + nam.playerFrac = b.frac + m.pace.period := by
    rw [hfrac, hconfig.playerFrac]
  unfold nPlayerTick
  rw [hinterval]
  refine Prod.ext rfl (Prod.ext ?_ ?_)
  · show min (nam.framesPerMS / 2 ^ 16 * m.pace.ms b +
      (carry % 2 ^ 16 + nam.framesPerMS % 2 ^ 16 * m.pace.ms b) / 2 ^ 16) nam.maxMixFrames = _
    rw [hconfig.framesPerMS, hframes, min_eq_left hroom, hcount]
  · show (carry % 2 ^ 16 + nam.framesPerMS % 2 ^ 16 * m.pace.ms b) % 2 ^ 16 = _
    rw [hconfig.framesPerMS, hpart, hcarry]
    rfl

theorem next_carry_lt (p : Pace) (b : Beat) : (p.next b).carry < 2 ^ 16 := Nat.mod_lt _ (by norm_num)

structure Passed (m : PlayMode) (b : Beat) (before nam : NepAudioMode) : Prop where
  config : Config m nam
  timer : nam.playerTimer = before.playerTimer + m.pace.ms b
  frac : nam.playerInterval % 2 ^ 16 = (m.pace.next b).frac
  fillBuf : nam.fillBuf = before.fillBuf
  sendBuf : nam.sendBuf = before.sendBuf
  buffSamples : nam.buffSamples = m.pace.count b
  filled : nam.playLen before.fillBuf = m.pace.count b * m.frameSize
  kept : nam.playLen before.sendBuf = before.playLen before.sendBuf
  carry : nam.playCarry before.sendBuf = (m.pace.next b).carry
  left : nam.sendLeft = 0

theorem Ready.passed (h : Ready m b s) (nam : NepAudioMode)
    (hnam : nam = { s.nam with playerTimer := s.nam.playerTimer - s.nam.interval }) :
    Passed m b nam (playerPass nam) := by
  have hbufs := h.bufs
  have hne : s.nam.sendBuf ≠ s.nam.fillBuf := by
    rw [hbufs]
    exact Bool.not_ne_self _
  subst hnam
  have htick := h.tick { s.nam with playerTimer := s.nam.playerTimer - s.nam.interval } { h.config with } h.frac h.carry
  unfold playerPass
  dsimp only
  rw [htick]
  constructor
  · exact { h.config with }
  · rfl
  · rfl
  · rfl
  · rfl
  · rfl
  · exact (if_pos rfl).trans (congrArg _ h.config.frameSize)
  · exact if_neg hne
  · exact if_pos hbufs
  · rfl

theorem sendInterval_on {nam : NepAudioMode} (h : 0 < nam.sendLeft) :
    sendInterval nam =
      ({ nam with
          sendCarry := nam.sendCarry % 2 ^ 16 + nam.framesPerMS * nam.interval
          sendLeft := nam.sendLeft -
            ((nam.sendCarry % 2 ^ 16 + nam.framesPerMS * nam.interval) / 2 ^ 16 * nam.frameSize : ℕ) },
        ⟨none, (nam.sendCarry % 2 ^ 16 + nam.framesPerMS * nam.interval) / 2 ^ 16 * nam.frameSize⟩) := by
  unfold sendInterval
  simp only [not_le.mpr h, decide_false, Bool.false_eq_true, if_false]

theorem sendInterval_latch {nam : NepAudioMode} (h : nam.sendLeft ≤ 0) :
    sendInterval nam =
      ({ nam with
          sendCarry := nam.playCarry nam.sendBuf % 2 ^ 16 + nam.framesPerMS * nam.interval
          sendLeft := nam.playLen nam.sendBuf -
            ((nam.playCarry nam.sendBuf % 2 ^ 16 + nam.framesPerMS * nam.interval) / 2 ^ 16 * nam.frameSize : ℕ) },
        ⟨some nam.sendBuf,
          (nam.playCarry nam.sendBuf % 2 ^ 16 + nam.framesPerMS * nam.interval) / 2 ^ 16 * nam.frameSize⟩) := by
  unfold sendInterval
  simp only [h, decide_true, if_true]

def PlayerInt.mixes (int : PlayerInt) : Prop := int ≠ .v6 true

theorem PlayerInt.run_of_mixes (h : int.mixes) (hgranted : s.nam.denyRequests = false) :
    int.run s = nMixAndConvert s := by
  cases int with
  | v4 => exact if_neg (by simp [hgranted])
  | v6 skipit =>
    cases skipit with
    | false => exact if_neg (by simp [hgranted])
    | true => exact absurd rfl h

/-- `j` intervals of the pass with beat `b` have been served; what it mixed begins with frame `base`. -/
structure Mixed (m : PlayMode) (b : Beat) (base j : ℕ) (s : Playback) : Prop where
  config : Config m s.nam
  timer : s.nam.playerTimer = (b.early + m.pace.ms b : ℕ) - (j * m.interval : ℕ)
  frac : s.nam.playerInterval % 2 ^ 16 = (m.pace.next b).frac
  bufs : s.nam.sendBuf = !s.nam.fillBuf
  len : s.nam.playLen s.nam.sendBuf = m.pace.count b * m.frameSize
  carry : s.nam.playCarry s.nam.fillBuf = (m.pace.next b).carry
  content : ∀ i < m.pace.count b, s.buffers s.nam.sendBuf i = some (base + i)
  mixed : s.mixed = base + m.pace.count b

theorem Mixed.ready (h : Mixed m b base (m.pace.calls b) s) : Ready m (m.pace.next b) s := by
  have hdiv : m.pace.calls b * m.interval + (m.pace.next b).early = b.early + m.pace.ms b :=
    Nat.div_add_mod' (b.early + m.pace.ms b) m.interval
  refine ⟨h.config, ?_, Nat.mod_lt _ m.served, h.frac, ?_, h.bufs⟩
  · rw [h.timer]
    omega
  · rw [h.carry, Nat.mod_eq_of_lt (next_carry_lt _ _)]

theorem Mixed.goOn (h : Mixed m b base j s) {t : Playback} {sendCarry : ℕ} {sendLeft : ℤ}
    (hnam : t.nam = { s.nam with
      playerTimer := s.nam.playerTimer - m.interval, sendCarry := sendCarry, sendLeft := sendLeft })
    (hbuffers : t.buffers = s.buffers) (hmixed : t.mixed = s.mixed) : Mixed m b base (j + 1) t := by
  constructor
  · rw [hnam]
    exact { h.config with }
  · rw [hnam, Nat.add_mul]
    rw [h.timer]
    push_cast
    ring
  · rw [hnam]
    exact h.frac
  · rw [hnam]
    exact h.bufs
  · rw [hnam]
    exact h.len
  · rw [hnam]
    exact h.carry
  · rw [hnam, hbuffers]
    exact h.content
  · rw [hmixed, h.mixed]

def ticked (nam : NepAudioMode) : NepAudioMode := { nam with playerTimer := nam.playerTimer - nam.interval }

theorem serve_wait (hwait : ¬ s.nam.playerTimer - s.nam.interval < 0) (hgranted : s.nam.denyRequests = false)
    (int : PlayerInt) :
    serve s int = takeInterval { s with nam := (sendInterval (ticked s.nam)).1 } (sendInterval (ticked s.nam)).2 := by
  have hhook : nOutReqHook s.nam = ((sendInterval (ticked s.nam)).1, false, (sendInterval (ticked s.nam)).2) := by
    unfold nOutReqHook
    simp only [hwait, decide_false, Bool.false_eq_true, if_false, hgranted]
    rw [← hgranted]
    rfl
  unfold serve
  rw [hhook]
  rfl

theorem Ready.serve (h : Ready m b s) (hint : int.mixes) :
    ∃ nam, Passed m b (ticked s.nam) nam ∧
      serve s int = nMixAndConvert
        (takeInterval { s with nam := (sendInterval nam).1, passes := s.passes + 1 } (sendInterval nam).2) := by
  have hpassed := h.passed (ticked s.nam) rfl
  have hdue : s.nam.playerTimer - s.nam.interval < 0 := by
    have := h.early
    rw [h.timer, h.config.interval]
    omega
  refine ⟨_, hpassed, ?_⟩
  have hgranted := hpassed.config.granted
  have hhook : nOutReqHook s.nam =
      ((sendInterval (playerPass (ticked s.nam))).1, true, (sendInterval (playerPass (ticked s.nam))).2) := by
    have hlater : (playerPass { s.nam with playerTimer := s.nam.playerTimer - s.nam.interval }).denyRequests = false :=
      hgranted
    unfold nOutReqHook
    simp only [hdue, decide_true, if_true, hlater, Bool.false_eq_true, if_false]
    rfl
  unfold UsbAudio.serve
  rw [hhook]
  refine PlayerInt.run_of_mixes hint ?_
  exact hgranted

theorem Ready.mixed (h : Ready m b s) (hint : int.mixes) :
    Mixed m b s.mixed 1 (UsbAudio.serve s int) ∧ (UsbAudio.serve s int).passes = s.passes + 1 := by
  obtain ⟨nam, hpassed, hserve⟩ := h.serve hint
  rw [hserve, sendInterval_latch hpassed.left.le]
  have hbufs := h.bufs
  have hfill : nam.fillBuf = s.nam.fillBuf := hpassed.fillBuf
  refine ⟨⟨{ hpassed.config with }, ?_, hpassed.frac, ?_, ?_, ?_, ?_, ?_⟩, rfl⟩
  · show nam.playerTimer = _
    rw [hpassed.timer]
    unfold ticked
    rw [h.timer, h.config.interval, Nat.one_mul]
    push_cast
    ring
  · show nam.fillBuf = !!nam.fillBuf
    rw [Bool.not_not]
  · rw [hfill]
    exact hpassed.filled
  · show nam.playCarry (!nam.fillBuf) = _
    rw [hfill, ← hbufs]
    exact hpassed.carry
  · intro i hi
    show Pair.set s.buffers nam.fillBuf (fun i => if i < nam.buffSamples then some (s.mixed + i) else
      s.buffers nam.fillBuf i) nam.fillBuf i = _
    unfold Pair.set
    rw [if_pos rfl, if_pos (by rw [hpassed.buffSamples]; exact hi)]
  · show s.mixed + nam.buffSamples = _
    rw [hpassed.buffSamples]

theorem takeInterval_next (buf : Bool) {N q x : ℕ} (ubr : IOUsbHWBufferReq) (hpasses : 2 ≤ s.passes)
    (hfs : 0 < s.nam.frameSize) (hlength : ubr.length = x * s.nam.frameSize)
    (hstart : ubr.start s.pos = (buf, q)) (hfits : q + x ≤ N)
    (hlen : s.nam.playLen buf = N * s.nam.frameSize) (hcontent : ∀ i < N, s.buffers buf i = some (base + i))
    (hhanded : s.handed = (range (base + q)).map some) :
    (takeInterval s ubr).handed = (range (base + (q + x))).map some ∧
      (takeInterval s ubr).pos = (buf, q + x) ∧ (takeInterval s ubr).beyond = s.beyond := by
  have hframes : ubr.length / s.nam.frameSize = x := by rw [hlength, Nat.mul_div_cancel _ hfs]
  have hnext : (range x).map (fun i => s.buffers buf (q + i)) = (range x).map fun i => some (base + q + i) := by
    refine map_congr_left fun i hi => ?_
    rw [hcontent _ (by have := mem_range.mp hi; omega), Nat.add_assoc]
  have hroom : ¬ (2 ≤ s.passes ∧ s.nam.playLen buf < q * s.nam.frameSize + ubr.length) := by
    rintro ⟨-, h⟩
    rw [hlen, hlength, ← Nat.add_mul] at h
    exact absurd h (not_lt.mpr (Nat.mul_le_mul_right _ hfits))
  unfold takeInterval
  rw [hstart]
  dsimp only
  rw [hframes, hnext, if_pos hpasses, hhanded, decide_eq_false hroom, Bool.or_false]
  refine ⟨?_, rfl, rfl⟩
  rw [← Nat.add_assoc, range_add (n := base + q), map_append, map_map]
  rfl

/-- `j` intervals have been served of the frames the pass before mixed. -/
structure Sending (m : PlayMode) (a : Beat) (base j : ℕ) (s : Playback) : Prop where
  mixing : Mixed m (m.pace.next a) (base + m.pace.count a) j s
  passes : 2 ≤ s.passes
  begun : 0 < j
  reached : j ≤ m.pace.calls (m.pace.next a)
  len : s.nam.playLen s.nam.fillBuf = m.pace.count a * m.frameSize
  content : ∀ i < m.pace.count a, s.buffers s.nam.fillBuf i = some (base + i)
  left : s.nam.sendLeft = ((m.pace.count a : ℤ) - m.pace.takes a j) * m.frameSize
  sendCarry : s.nam.sendCarry % 2 ^ 16 =
    ((m.pace.next (m.pace.next a)).carry + m.pace.framesPerMS * m.interval * j) % 2 ^ 16
  pos : s.pos = (s.nam.fillBuf, m.pace.takes a j)
  handed : s.handed = (List.range (base + m.pace.takes a j)).map some
  inside : s.beyond = false

theorem takes_succ (p : Pace) (a : Beat) (j : ℕ) :
    p.takes a (j + 1) = p.takes a j +
      (((p.next (p.next a)).carry + p.framesPerMS * p.interval * j) % 2 ^ 16 + p.framesPerMS * p.interval) / 2 ^ 16 := by
  unfold Pace.takes
  rw [Nat.mul_add_one, ← Nat.add_assoc]
  generalize (p.next (p.next a)).carry + p.framesPerMS * p.interval * j = c
  omega

theorem Sending.goOn (h : Sending m a base j s) (heven : m.pace.Even a)
    (hj : j < m.pace.calls (m.pace.next a)) (int : PlayerInt) : Sending m a base (j + 1) (serve s int) := by
  have hconfig := h.mixing.config
  have hfs := m.sized
  have hbefore := heven.before j h.begun hj
  have hnext := heven.le (k := j + 1) hj
  -- the timer has not run out
  have htimer : ¬ s.nam.playerTimer - s.nam.interval < 0 := by
    have hle : (j + 1) * m.interval ≤ (m.pace.next a).early + m.pace.ms (m.pace.next a) :=
      (Nat.le_div_iff_mul_le m.served).mp hj
    rw [h.mixing.timer, hconfig.interval]
    rw [Nat.add_mul] at hle
    omega
  have hleft : 0 < s.nam.sendLeft := by
    rw [h.left]
    exact mul_pos (by omega) (by exact_mod_cast hfs)
  set x := (s.nam.sendCarry % 2 ^ 16 + m.pace.framesPerMS * m.interval) / 2 ^ 16 with hx
  have htakes : m.pace.takes a (j + 1) = m.pace.takes a j + x := by
    rw [takes_succ, hx, h.sendCarry]
    rfl
  have hsend : sendInterval (ticked s.nam) =
      ({ s.nam with
          playerTimer := s.nam.playerTimer - m.interval
          sendCarry := s.nam.sendCarry % 2 ^ 16 + m.pace.framesPerMS * m.interval
          sendLeft := s.nam.sendLeft - (x * m.frameSize : ℕ) }, ⟨none, x * m.frameSize⟩) := by
    rw [sendInterval_on (show 0 < (ticked s.nam).sendLeft from hleft)]
    unfold ticked
    dsimp only
    rw [hx, ← hconfig.framesPerMS, ← hconfig.interval, ← hconfig.frameSize]
  rw [serve_wait htimer hconfig.granted int, hsend]
  dsimp only
  obtain ⟨hhanded, hpos, hinside⟩ := takeInterval_next
    (s := { s with nam := { s.nam with
      playerTimer := s.nam.playerTimer - m.interval
      sendCarry := s.nam.sendCarry % 2 ^ 16 + m.pace.framesPerMS * m.interval
      sendLeft := s.nam.sendLeft - (x * m.frameSize : ℕ) } })
    s.nam.fillBuf ⟨none, x * m.frameSize⟩ h.passes (hconfig.frameSize ▸ hfs)
    (congrArg (x * ·) hconfig.frameSize.symm) h.pos (htakes ▸ hnext)
    (h.len.trans (congrArg (m.pace.count a * ·) hconfig.frameSize.symm)) h.content h.handed
  refine ⟨h.mixing.goOn rfl rfl rfl, h.passes, Nat.succ_pos j, hj, h.len, h.content, ?_, ?_, ?_, ?_, hinside.trans h.inside⟩
  · show s.nam.sendLeft - (x * m.frameSize : ℕ) = _
    rw [h.left, htakes]
    push_cast
    ring
  · show (s.nam.sendCarry % 2 ^ 16 + m.pace.framesPerMS * m.interval) % 2 ^ 16 = _
    rw [h.sendCarry, Nat.mod_add_mod, Nat.mul_add_one, ← Nat.add_assoc]
  · rw [htakes]
    exact hpos
  · rw [htakes]
    exact hhanded

theorem PlayMode.calls_pos (m : PlayMode) (b : Beat) : 0 < m.pace.calls b := by
  have hms : m.interval ≤ m.pace.ms b := by
    have h := m.period
    rw [Nat.shiftLeft_eq] at h
    refine (Nat.le_div_iff_mul_le (by norm_num)).mpr ?_
    exact h.trans (Nat.le_add_left _ _)
  exact Nat.div_pos (hms.trans (Nat.le_add_left _ _)) m.served

theorem Mixed.sending (h : Mixed m a base (m.pace.calls a) s) (heven : m.pace.Even a) (hpasses : 0 < s.passes)
    (hhanded : s.handed = (range base).map some) (hinside : s.beyond = false) (hint : int.mixes) :
    Sending m a base 1 (serve s int) := by
  have hready := h.ready
  obtain ⟨hmixed, hcount⟩ := hready.mixed hint
  obtain ⟨nam, hpassed, hserve⟩ := hready.serve hint
  have hconfig := hpassed.config
  have hfs := m.sized
  have hfill : nam.fillBuf = s.nam.fillBuf := hpassed.fillBuf
  have hsend : nam.sendBuf = s.nam.sendBuf := hpassed.sendBuf
  have hlen : nam.playLen s.nam.sendBuf = m.pace.count a * m.frameSize := hpassed.kept.trans h.len
  have hbufs : (!nam.fillBuf) = s.nam.sendBuf := by rw [hfill, h.bufs]
  have hcarry : nam.playCarry nam.sendBuf % 2 ^ 16 = (m.pace.next (m.pace.next a)).carry := by
    rw [hsend, show nam.playCarry s.nam.sendBuf = _ from hpassed.carry, Nat.mod_eq_of_lt (next_carry_lt _ _)]
  have htakes : m.pace.takes a 1 =
      ((m.pace.next (m.pace.next a)).carry + m.pace.framesPerMS * m.interval) / 2 ^ 16 := by
    unfold Pace.takes
    rw [Nat.mul_one]
    rfl
  have hfits := heven.le (k := 1) (m.calls_pos _)
  have hlatch : sendInterval nam =
      ({ nam with
          sendCarry := (m.pace.next (m.pace.next a)).carry + m.pace.framesPerMS * m.interval
          sendLeft := (m.pace.count a * m.frameSize : ℕ) - (m.pace.takes a 1 * m.frameSize : ℕ) },
        ⟨some s.nam.sendBuf, m.pace.takes a 1 * m.frameSize⟩) := by
    rw [sendInterval_latch hpassed.left.le, hcarry, hconfig.framesPerMS, hconfig.interval, hconfig.frameSize, hsend, hlen,
      htakes]
  rw [hlatch] at hserve
  obtain ⟨hhanded', hpos, hinside'⟩ := takeInterval_next
    (s := { s with passes := s.passes + 1, nam := { nam with
      sendCarry := (m.pace.next (m.pace.next a)).carry + m.pace.framesPerMS * m.interval
      sendLeft := (m.pace.count a * m.frameSize : ℕ) - (m.pace.takes a 1 * m.frameSize : ℕ) } })
    s.nam.sendBuf (q := 0) ⟨some s.nam.sendBuf, m.pace.takes a 1 * m.frameSize⟩
    (Nat.succ_le_succ hpasses) (hconfig.frameSize ▸ hfs) (congrArg (m.pace.takes a 1 * ·) hconfig.frameSize.symm) rfl
    (by rwa [Nat.zero_add]) (hlen.trans (congrArg (m.pace.count a * ·) hconfig.frameSize.symm)) h.content hhanded
  rw [Nat.zero_add] at hhanded' hpos
  have hother : s.nam.sendBuf ≠ nam.fillBuf := by
    rw [← hbufs]
    exact Bool.not_ne_self _
  rw [h.mixed] at hmixed
  refine ⟨hmixed, ?_, Nat.one_pos, m.calls_pos _, ?_, ?_, ?_, ?_, ?_, ?_, ?_⟩
  · rw [hcount]
    exact Nat.succ_le_succ hpasses
  · rw [hserve]
    show nam.playLen (!nam.fillBuf) = _
    rw [hbufs, hlen]
  · rw [hserve]
    intro i hi
    show Pair.set s.buffers nam.fillBuf _ (!nam.fillBuf) i = _
    rw [hbufs]
    exact (congrFun (if_neg hother) i).trans (h.content i hi)
  · rw [hserve]
    show ((m.pace.count a * m.frameSize : ℕ) : ℤ) - (m.pace.takes a 1 * m.frameSize : ℕ) = _
    push_cast
    ring
  · rw [hserve, Nat.mul_one]
    rfl
  · rw [hserve]
    show (takeInterval _ _).pos = (!nam.fillBuf, _)
    rw [hpos, hbufs]
  · rw [hserve]
    exact hhanded'
  · rw [hserve]
    exact hinside'.trans hinside

/-- From the second pass on: what the endpoint was handed is what was mixed, from its beginning on; a further
pass finds nothing left to send; and no interval was longer than its buffer. -/
structure AsMixed (s : Playback) : Prop where
  handed : ∃ k ≤ s.mixed, s.handed = (List.range k).map some
  due : 2 ≤ s.passes → s.nam.playerTimer - s.nam.interval < 0 → s.nam.sendLeft = 0
  inside : s.beyond = false

/-- Before the first pass, before the second, and from then on. -/
inductive Course (m : PlayMode) (b : Beat) (s : Playback) : Prop
  | fresh (ready : Ready m b s) (passes : s.passes = 0) (handed : s.handed = []) (inside : s.beyond = false)
      (mixed : s.mixed = 0)
  | first (j : ℕ) (mixed : Mixed m b 0 j s) (begun : 0 < j) (reached : j ≤ m.pace.calls b) (passes : s.passes = 1)
      (handed : s.handed = []) (inside : s.beyond = false)
  | sending (n base j : ℕ) (sending : Sending m (m.pace.beat b n) base j s)

theorem Sending.asMixed (h : Sending m a base j s) (heven : m.pace.Even a) : AsMixed s := by
  refine ⟨⟨_, ?_, h.handed⟩, fun _ hdue => ?_, h.inside⟩
  · have hle := heven.le h.reached
    rw [h.mixing.mixed]
    omega
  · -- the timer has run out after the last interval only
    have hlast : j = m.pace.calls (m.pace.next a) := by
      refine le_antisymm h.reached (not_lt.mp fun hlt => ?_)
      have hle : (j + 1) * m.interval ≤ (m.pace.next a).early + m.pace.ms (m.pace.next a) :=
        (Nat.le_div_iff_mul_le m.served).mp hlt
      rw [h.mixing.timer, h.mixing.config.interval] at hdue
      rw [Nat.add_mul] at hle
      omega
    rw [h.left, hlast, heven.last]
    simp

theorem Course.asMixed (h : Course m b s) (heven : ∀ n, m.pace.Even (m.pace.beat b n)) : AsMixed s := by
  rcases h with ⟨-, hpasses, hhanded, hinside, -⟩ | ⟨j, -, -, -, hpasses, hhanded, hinside⟩ | ⟨n, base, j, h⟩
  · exact ⟨⟨0, Nat.zero_le _, hhanded⟩, fun h => absurd h (by omega), hinside⟩
  · exact ⟨⟨0, Nat.zero_le _, hhanded⟩, fun h => absurd h (by omega), hinside⟩
  · exact h.asMixed (heven n)

theorem Mixed.first (h : Mixed m b base j s) (hj : j < m.pace.calls b) (hpasses : s.passes = 1)
    (int : PlayerInt) : Mixed m b base (j + 1) (serve s int) ∧ (serve s int).passes = 1 ∧
      (serve s int).handed = s.handed ∧ (serve s int).beyond = s.beyond := by
  have htimer : ¬ s.nam.playerTimer - s.nam.interval < 0 := by
    have hle : (j + 1) * m.interval ≤ b.early + m.pace.ms b := (Nat.le_div_iff_mul_le m.served).mp hj
    rw [h.timer, h.config.interval]
    rw [Nat.add_mul] at hle
    omega
  have hsend : ∃ sendCarry sendLeft, (sendInterval (ticked s.nam)).1 =
      { s.nam with
        playerTimer := s.nam.playerTimer - m.interval, sendCarry := sendCarry, sendLeft := sendLeft } := by
    rw [← h.config.interval]
    by_cases hleft : 0 < (ticked s.nam).sendLeft
    · rw [sendInterval_on hleft]
      exact ⟨_, _, rfl⟩
    · rw [sendInterval_latch (not_lt.mp hleft)]
      exact ⟨_, _, rfl⟩
  obtain ⟨sendCarry, sendLeft, hsend⟩ := hsend
  rw [serve_wait htimer h.config.granted int]
  refine ⟨h.goOn hsend rfl rfl, hpasses, ?_, ?_⟩
  · show (if 2 ≤ s.passes then _ else s.handed) = _
    rw [if_neg (by omega)]
  · show (s.beyond || decide (2 ≤ s.passes ∧ _)) = _
    rw [decide_eq_false (by omega), Bool.or_false]

theorem Course.serve (h : Course m b s) (heven : ∀ n, m.pace.Even (m.pace.beat b n))
    (hint : int.mixes) : Course m b (serve s int) := by
  rcases h with ⟨hready, hpasses, hhanded, hinside, hmixed⟩ | ⟨j, hmixed, hj, hreached, hpasses, hhanded, hinside⟩ |
    ⟨n, base, j, hsending⟩
  · obtain ⟨hmix, hcount⟩ := hready.mixed hint
    obtain ⟨nam, hpassed, hserve⟩ := hready.serve hint
    rw [hmixed] at hmix
    refine .first 1 hmix Nat.one_pos (m.calls_pos _) (by omega) ?_ ?_
    · rw [hserve]
      show (if 2 ≤ s.passes + 1 then _ else s.handed) = _
      rw [if_neg (by omega), hhanded]
    · rw [hserve]
      show (s.beyond || decide (2 ≤ s.passes + 1 ∧ _)) = _
      rw [decide_eq_false (by omega), Bool.or_false, hinside]
  · rcases hreached.lt_or_eq with hlt | rfl
    · obtain ⟨hmix, hcount, hhand, hbeyond⟩ := hmixed.first hlt hpasses int
      exact .first (j + 1) hmix (Nat.succ_pos j) hlt hcount (hhand.trans hhanded) (hbeyond.trans hinside)
    · exact .sending 0 0 1 (hmixed.sending (heven 0) (by omega) hhanded hinside hint)
  · rcases hsending.reached.lt_or_eq with hlt | hlast
    · exact .sending n base (j + 1) (hsending.goOn (heven n) hlt int)
    · have hhanded := hsending.handed
      have hmixing := hsending.mixing
      rw [hlast, (heven n).last] at hhanded
      rw [hlast] at hmixing
      exact .sending (n + 1) _ 1
        (hmixing.sending (heven (n + 1)) (Nat.lt_of_lt_of_le Nat.two_pos hsending.passes) hhanded hsending.inside hint)

def firstBeat (playerInterval : ℕ) (playCarry : Bool → ℕ) : Beat := ⟨playerInterval % 2 ^ 16, 0, playCarry false % 2 ^ 16⟩

theorem fixed_zero_or (freq : ℕ) : fixed freq = 0 ∨ 0x10000 ≤ fixed freq := by
  rcases Nat.eq_zero_or_pos freq with rfl | h
  · exact .inl (by decide)
  · exact .inr (fixed_le h)

theorem start_config (m : PlayMode) (playerInterval : ℕ) (playCarry : Bool → ℕ) :
    Config m (start m playerInterval playCarry).nam where
  interval := rfl
  frameSize := rfl
  playerFrac := rfl
  framesPerMS := rfl
  granted := rfl
  room := by
    intro carry ms hcarry hms
    have hroom := nMaxMixFrames_le m.interval
      { m.ctrl with playerFreq := fixed m.ctrl.playerFreq, minPlayerFreq := fixed m.ctrl.minPlayerFreq }
      (fixed_le m.player) (fixed_zero_or _) (.inl le_rfl) hms
    exact (count_le_of_rate hcarry).trans hroom

theorem plays_as_mixed (m : PlayMode) (playerInterval : ℕ) (playCarry : Bool → ℕ)
    (heven : ∀ n, m.pace.Even (m.pace.beat (firstBeat playerInterval playCarry) n)) (run : List PlayerInt)
    (hmixes : ∀ int ∈ run, int.mixes) : AsMixed (run.foldl serve (start m playerInterval playCarry)) := by
  have hcourse : Course m (firstBeat playerInterval playCarry) (run.foldl serve (start m playerInterval playCarry)) := by
    induction run using List.reverseRecOn with
    | nil =>
      refine .fresh ⟨start_config m playerInterval playCarry, rfl, m.served, rfl, rfl, rfl⟩ rfl rfl rfl rfl
    | append_singleton run int ih =>
      rw [List.foldl_append]
      exact (ih fun i hi => hmixes i (List.mem_append_left _ hi)).serve heven
        (hmixes int (List.mem_append_right _ (List.mem_singleton.mpr rfl)))
  exact hcourse.asMixed heven

theorem Pace.even_of_whole {p : Pace} (ms : ℕ) (hperiod : p.period = ms * 2 ^ 16) (hdvd : p.interval ∣ ms)
    (hframes : 2 ^ 15 ∣ p.framesPerMS * ms) (hone : 2 ^ 16 ≤ p.framesPerMS * p.interval)
    (b : Beat) (hfrac : b.frac < 2 ^ 16) (hearly : b.early = 0) (hcarry : b.carry < 2 ^ 16) (n : ℕ) :
    p.Even (p.beat b n) := by
  have hms : ∀ b : Beat, b.frac < 2 ^ 16 → p.ms b = ms := by
    unfold Pace.ms
    omega
  have hkeep : ∀ n, (p.beat b n).frac < 2 ^ 16 ∧ (p.beat b n).early = 0 ∧ (p.beat b n).carry < 2 ^ 16 := by
    intro n
    induction n with
    | zero => exact ⟨hfrac, hearly, hcarry⟩
    | succ n ih =>
      obtain ⟨hf, he, -⟩ := ih
      refine ⟨Nat.mod_lt _ (by norm_num), ?_, Nat.mod_lt _ (by norm_num)⟩
      show ((p.beat b n).early + p.ms (p.beat b n)) % p.interval = 0
      rw [he, hms _ hf, Nat.zero_add]
      exact Nat.mod_eq_zero_of_dvd hdvd
  obtain ⟨hf, he, hc⟩ := hkeep n
  obtain ⟨hf', he', -⟩ := hkeep (n + 1)
  have hcalls : p.interval * p.calls (p.next (p.beat b n)) = ms := by
    show p.interval * (((p.beat b (n + 1)).early + p.ms (p.beat b (n + 1))) / p.interval) = ms
    rw [he', hms _ hf', Nat.zero_add, Nat.mul_div_cancel' hdvd]
  -- two periods later the part frame is the same
  have hback : (p.next (p.next (p.beat b n))).carry = (p.beat b n).carry := by
    show (((p.beat b n).carry + p.framesPerMS * p.ms (p.beat b n)) % 2 ^ 16 +
      p.framesPerMS * p.ms (p.beat b (n + 1))) % 2 ^ 16 = _
    rw [hms _ hf, hms _ hf']
    omega
  have hlast : p.takes (p.beat b n) (p.calls (p.next (p.beat b n))) = p.count (p.beat b n) := by
    unfold Pace.takes Pace.count
    rw [hback, Nat.mul_assoc, hcalls, hms _ hf]
  refine ⟨hlast, fun k _ hk => ?_⟩
  rw [← hlast]
  unfold Pace.takes
  have hle : p.framesPerMS * p.interval * (k + 1) ≤ p.framesPerMS * p.interval * p.calls (p.next (p.beat b n)) :=
    Nat.mul_le_mul_left _ hk
  rw [Nat.mul_add_one] at hle
  omega

def fullSpeed (mixFreq playerFreq : ℕ) (hrate : mixFreq ≤ 64000) (hplayer : 0 < playerFreq)
    (hperiod : 1 <<< 16 ≤ playerPeriod (fixed playerFreq)) : PlayMode :=
  ⟨⟨mixFreq, playerFreq, 0⟩, 1, 4, hrate, hplayer, by decide, by decide, hperiod⟩

def at48000 : PlayMode := fullSpeed 48000 50 (by decide) (by decide) (by decide)

/-- 50 passes a second at 48000 Hz. -/
theorem plays_as_mixed_at48000 :
    AsMixed ((List.replicate 100 (PlayerInt.v6 false)).foldl serve (start at48000 0 fun _ => 0)) := by
  refine plays_as_mixed at48000 0 (fun _ => 0) (fun n => ?_) _ fun int hint => ?_
  · exact Pace.even_of_whole 20 (by decide) (by decide) (by decide) (by decide) _ (by decide) rfl (by decide) n
  · rw [List.eq_of_mem_replicate hint]
    exact nofun

def at44100 : PlayMode := fullSpeed 44100 50 (by decide) (by decide) (by decide)

def at60Hz : PlayMode := fullSpeed 48000 60 (by decide) (by decide) (by decide)

/-- The first buffer of 881 frames is sent with the part frame of the third pass, as 882. At 60 passes a
second the first buffer has 16 milliseconds and is sent for 17. -/
theorem sent_not_as_mixed :
    ¬ AsMixed ((List.replicate 40 PlayerInt.v4).foldl serve (start at44100 0 fun _ => 0)) ∧
      ¬ AsMixed ((List.replicate 33 PlayerInt.v4).foldl serve (start at60Hz 0 fun _ => 0)) := by
  constructor
  · have hbeyond : ((List.replicate 40 PlayerInt.v4).foldl serve (start at44100 0 fun _ => 0)).beyond = true := by
      decide +kernel
    exact fun h => absurd (hbeyond.symm.trans h.inside) nofun
  · have hleft : (fun s : Playback => 2 ≤ s.passes ∧ s.nam.playerTimer - s.nam.interval < 0 ∧ s.nam.sendLeft ≠ 0)
        ((List.replicate 33 PlayerInt.v4).foldl serve (start at60Hz 0 fun _ => 0)) := by
      decide +kernel
    exact fun h => hleft.2.2 (h.due hleft.1 hleft.2.1)

end Neptune.UsbAudio
