import Neptune.Spec.AudioOpen

/-! What the free path of a mode leaves: the timer is stopped, each slot given back once, and each half at its
zero bandwidth alternate. -/

namespace Neptune.AudioOpen

open Function List Option

open Runs Ledgers Early NepClassAudio

variable {modes : AudioModes} {s t : NepClassAudio} {x y : NepAudioMode} {n m r : ℕ}

namespace NepAudioMode

/-- Nothing was used that was not there, and what was obtained and what came back is accounted for. -/
structure Sound (x : NepAudioMode) : Prop where
  fault : x.fault = false
  balanced : x.ledger.Balanced
  replies : x.replies = x.removed + if x.request = .replied then 1 else 0

structure Shut (x : NepAudioMode) : Prop extends Sound x where
  empty : ∀ k, x.ledger.held k = false
  idle : x.request = .idle
  stopped : x.running = false

structure Clock (x : NepAudioMode) : Prop extends Sound x where
  owned : x.request ≠ .idle → x.fallbackTimer = true ∧ x.addRequest = true
  came : x.fallbackTimer = true → x.addRequest = true → x.request ≠ .idle
  there : x.fallbackTimer = true → x.ledger.held .timerIOReq = true
  timer : x.ledger.held .timer = x.ledger.held .timerIOReq
  handler : x.running = true → x.ledger.held .rtIso = true

def recSlots : List Slot := [.taskMsgPort, .ep0Pipe, .rtIso, .recBuffer, .packetBuffer]

structure Half (x : NepAudioMode) : Prop extends Sound x where
  idle : x.request = .idle
  inside : ∀ k, x.ledger.held k = true → k ∈ recSlots
  handler : x.running = true → x.ledger.held .rtIso = true

theorem touch_eq {ks : List Slot} (h : ∀ k ∈ ks, x.ledger.held k = true) : x.touch ks = x := by
  have hall : ks.all x.ledger.held = true := all_eq_true.mpr h
  unfold touch
  rw [hall, Bool.not_true, Bool.or_false]

theorem getMsg_idle (h : x.request ≠ .replied) : x.getMsg = x := if_neg h

theorem Sound.getMsg (h : Sound x) (hsent : x.request ≠ .sent) : Sound x.getMsg ∧ x.getMsg.request = .idle := by
  cases hreq : x.request with
  | idle =>
    rw [getMsg_idle (by rw [hreq]; nofun)]
    exact ⟨h, hreq⟩
  | sent => exact absurd hreq hsent
  | replied =>
    unfold NepAudioMode.getMsg
    rw [if_pos hreq]
    have hreplies := h.replies
    rw [hreq, if_pos rfl] at hreplies
    exact ⟨⟨h.fault, h.balanced, hreplies⟩, rfl⟩

theorem getMsg_same : x.getMsg.ledger = x.ledger ∧ x.getMsg.fallbackTimer = x.fallbackTimer ∧
    x.getMsg.isCode = x.isCode ∧ x.getMsg.running = x.running ∧ x.getMsg.addRequest = x.addRequest := by
  unfold NepAudioMode.getMsg
  split <;> exact ⟨rfl, rfl, rfl, rfl, rfl⟩

theorem Clock.beat (h : Sound x) (hfallback : x.fallbackTimer = true) (hcode : x.isCode = .dummy)
    (hthere : x.ledger.held .timerIOReq = true) (hopen : x.ledger.held .timer = true)
    (hmix : x.ledger.held .mixBuffer = true) (hrun : x.running = true → x.ledger.held .rtIso = true)
    (hreq : x.request ≠ .sent) :
    Clock x.playerInt ∧ x.playerInt.ledger = x.ledger ∧ x.playerInt.fallbackTimer = true ∧
      x.playerInt.isCode = .dummy ∧ x.playerInt.running = x.running := by
  obtain ⟨hsound, hidle⟩ := h.getMsg hreq
  obtain ⟨hledger, hfb, hco, hru, -⟩ := getMsg_same (x := x)
  unfold NepAudioMode.playerInt
  rw [hcode]
  dsimp only
  rw [touch_eq (x := x.getMsg) fun k hk => by rw [mem_singleton.mp hk, hledger]; exact hthere]
  unfold NepAudioMode.sendIo
  rw [if_pos hidle, touch_eq fun k hk => by rw [mem_singleton.mp hk]; exact hledger ▸ hmix]
  have hreplies := hsound.replies
  rw [hidle, if_neg nofun] at hreplies
  refine ⟨⟨⟨hsound.fault, hsound.balanced, hreplies⟩, fun _ => ⟨hfb.trans hfallback, rfl⟩, fun _ _ => nofun,
    fun _ => ?_, ?_, fun hr => ?_⟩, hledger, hfb.trans hfallback, hco.trans hcode, hru⟩
  · exact hledger ▸ hthere
  · exact hledger ▸ hopen.trans hthere.symm
  · exact hledger ▸ hrun (hru.symm.trans hr)

theorem Clock.nAbortTimer (h : Clock x) (hfallback : x.fallbackTimer = true) :
    Clock x.nAbortTimer.1 ∧ x.nAbortTimer.1.request ≠ .sent ∧ x.nAbortTimer.2 = x.addRequest ∧
      x.nAbortTimer.1.ledger = x.ledger ∧ x.nAbortTimer.1.fallbackTimer = true ∧
      x.nAbortTimer.1.isCode = x.isCode ∧ x.nAbortTimer.1.running = x.running ∧
      x.nAbortTimer.1.addRequest = x.addRequest := by
  have htouch : ({ x with softInt := false } : NepAudioMode).touch [.timerIOReq] = { x with softInt := false } :=
    touch_eq fun k hk => by rw [mem_singleton.mp hk]; exact h.there hfallback
  have hsilent : Clock { x with softInt := false } :=
    ⟨⟨h.fault, h.balanced, h.replies⟩, h.owned, h.came, h.there, h.timer, h.handler⟩
  unfold NepAudioMode.nAbortTimer
  rw [htouch]
  dsimp only
  by_cases hadd : x.addRequest = true
  · rw [if_pos hadd]
    unfold abortIo
    rw [if_pos hadd]
    by_cases hsent : x.request = .sent
    · rw [if_pos hsent]
      have hreplies := h.replies
      rw [hsent, if_neg nofun] at hreplies
      refine ⟨⟨⟨h.fault, h.balanced, ?_⟩, fun _ => ⟨hfallback, hadd⟩, fun _ _ => nofun, h.there, h.timer, h.handler⟩,
        nofun, hadd.symm, rfl, hfallback, rfl, rfl, rfl⟩
      exact congrArg (· + 1) hreplies
    · rw [if_neg hsent]
      exact ⟨hsilent, hsent, hadd.symm, rfl, hfallback, rfl, rfl, rfl⟩
  · rw [if_neg hadd]
    refine ⟨hsilent, fun hsent => ?_, (eq_false_of_ne_true hadd).symm, rfl, hfallback, rfl, rfl, rfl⟩
    have hsent : x.request = .sent := hsent
    exact hadd (h.owned (by rw [hsent]; nofun)).2

theorem Clock.stopTimer (h : Clock x) :
    Sound x.stopTimer ∧ x.stopTimer.request = .idle ∧ x.stopTimer.ledger = x.ledger ∧
      x.stopTimer.running = x.running := by
  unfold NepAudioMode.stopTimer
  by_cases hfallback : x.fallbackTimer = true
  · obtain ⟨hclock, hsent, hback, hledger, hfb, -, hrun, hadd⟩ := h.nAbortTimer hfallback
    rw [if_pos hfallback, hback]
    split
    · next hadd' =>
      have hcame := hclock.came hfb (hadd.trans hadd')
      obtain ⟨hsound, hidle⟩ := hclock.toSound.getMsg hsent
      obtain ⟨hledger', -, -, hrun', -⟩ := getMsg_same (x := x.nAbortTimer.1)
      have hwait : x.nAbortTimer.1.waitIo = x.nAbortTimer.1.getMsg := by
        unfold waitIo
        split
        · next hreq => exact absurd hreq hcame
        · next hreq => exact absurd hreq hsent
        · rfl
      rw [hwait]
      exact ⟨hsound, hidle, hledger'.trans hledger, hrun'.trans hrun⟩
    · next hadd' =>
      refine ⟨hclock.toSound, ?_, hledger, hrun⟩
      by_contra hreq
      exact hadd' (hadd.symm.trans (hclock.owned hreq).2)
  · rw [if_neg hfallback]
    refine ⟨h.toSound, ?_, rfl, rfl⟩
    by_contra hreq
    exact hfallback (h.owned hreq).1

theorem Sound.drop (h : Sound x) (ks : List Slot) : Sound (x.drop ks) :=
  ⟨h.fault, h.balanced.dropAll ks, h.replies⟩

theorem freeRTIso_spec (h : Sound x) (hrun : x.running = true → x.ledger.held .rtIso = true) :
    Sound x.freeRTIso ∧ x.freeRTIso.running = false ∧ x.freeRTIso.request = x.request ∧
      ∀ k, x.freeRTIso.ledger.held k = (x.ledger.held k && !decide (k = .rtIso)) := by
  unfold NepAudioMode.freeRTIso
  split
  · refine ⟨⟨h.fault, h.balanced.dropAll _, h.replies⟩, rfl, rfl, fun k => ?_⟩
    show (x.ledger.dropAll [.rtIso]).held k = _
    rw [Ledger.held_dropAll]
    simp
  · next hheld =>
    refine ⟨h, eq_false_of_ne_true fun hr => hheld (hrun hr), rfl, fun k => ?_⟩
    by_cases hk : k = .rtIso
    · rw [hk, eq_false_of_ne_true hheld, Bool.false_and]
    · simp [hk]

/-- What is left once the buffers are released, before the pipe goes. -/
structure Spent (x : NepAudioMode) : Prop extends Sound x where
  idle : x.request = .idle
  stopped : x.running = false
  timer : x.ledger.held .timer = x.ledger.held .timerIOReq
  left : ∀ k, x.ledger.held k = true → k ∈ [Slot.psdBase, .timerIOReq, .timer, .taskMsgPort, .ep0Pipe]

theorem held_drop (ks : List Slot) (k : Slot) :
    (x.drop ks).ledger.held k = (x.ledger.held k && !decide (k ∈ ks)) := Ledger.held_dropAll ks k

theorem Clock.spent (h : Clock x) :
    Spent ((x.stopTimer.freeRTIso).drop [.mixBuffer, .recBuffer, .playBuffer0, .playBuffer1, .packetBuffer]) ∧
      ∀ k ∈ [Slot.psdBase, .ep0Pipe],
        ((x.stopTimer.freeRTIso).drop [.mixBuffer, .recBuffer, .playBuffer0, .playBuffer1, .packetBuffer]).ledger.held k =
          x.ledger.held k := by
  obtain ⟨hsound, hidle, hledger, hrun⟩ := h.stopTimer
  obtain ⟨hsound', hstopped, hreq, hheld⟩ := freeRTIso_spec hsound fun hr => hledger ▸ h.handler (hrun.symm.trans hr)
  rw [hledger] at hheld
  have hslot : ∀ k, ((x.stopTimer.freeRTIso).drop
      [.mixBuffer, .recBuffer, .playBuffer0, .playBuffer1, .packetBuffer]).ledger.held k =
        (x.ledger.held k && !decide (k = .rtIso) &&
          !decide (k ∈ [Slot.mixBuffer, .recBuffer, .playBuffer0, .playBuffer1, .packetBuffer])) := by
    intro k
    rw [held_drop, hheld]
  refine ⟨⟨hsound'.drop _, hreq.trans hidle, hstopped, ?_, fun k hk => ?_⟩, fun k hk => ?_⟩
  · rw [hslot, hslot, h.timer]
    simp
  · rw [hslot] at hk
    cases k <;> simp_all
  · rw [hslot]
    rcases mem_cons.mp hk with rfl | hk
    · simp
    · rw [mem_singleton.mp hk]
      simp

theorem Spent.shut (h : Spent x) : Shut (((x.drop [.ep0Pipe, .taskMsgPort]).closeTimer).drop [.psdBase]) := by
  have hleft : ∀ k, (x.drop [.ep0Pipe, .taskMsgPort]).ledger.held k = true →
      k ∈ [Slot.psdBase, .timerIOReq, .timer] := by
    intro k hk
    rw [held_drop] at hk
    have := h.left k (Bool.and_eq_true_iff.mp hk).1
    cases k <;> simp_all
  have htimer : (x.drop [.ep0Pipe, .taskMsgPort]).ledger.held .timer =
      (x.drop [.ep0Pipe, .taskMsgPort]).ledger.held .timerIOReq := by
    rw [held_drop, held_drop, h.timer]
    simp
  have hidle : (x.drop [.ep0Pipe, .taskMsgPort]).request = .idle := h.idle
  have hstopped : (x.drop [.ep0Pipe, .taskMsgPort]).running = false := h.stopped
  have hsound := h.toSound.drop [.ep0Pipe, .taskMsgPort]
  generalize x.drop [.ep0Pipe, .taskMsgPort] = y at *
  have hclosed : Sound y.closeTimer ∧ y.closeTimer.request = .idle ∧ y.closeTimer.running = false ∧
      ∀ k, y.closeTimer.ledger.held k = true → k = .psdBase := by
    unfold closeTimer
    split
    · next hthere =>
      rw [touch_eq fun k hk => by rw [mem_singleton.mp hk, htimer]; exact hthere]
      refine ⟨⟨?_, hsound.balanced.dropAll _, hsound.replies⟩, hidle, hstopped, fun k hk => ?_⟩
      · show (y.fault || decide (y.request ≠ Request.idle)) = false
        rw [hsound.fault, hidle]
        rfl
      · rw [held_drop] at hk
        have := hleft k (Bool.and_eq_true_iff.mp hk).1
        cases k <;> simp_all
    · next hthere =>
      refine ⟨hsound, hidle, hstopped, fun k hk => ?_⟩
      have hmem := hleft k hk
      cases k <;> simp_all
  obtain ⟨hsound, hidle, hstopped, honly⟩ := hclosed
  refine ⟨hsound.drop _, fun k => ?_, hidle, hstopped⟩
  rw [held_drop]
  by_contra hk
  obtain ⟨hk, hne⟩ := Bool.and_eq_true_iff.mp (eq_true_of_ne_false hk)
  rw [honly k hk] at hne
  exact absurd hne (by decide)

theorem Half.freed (h : Half x) :
    Spent ((x.freeRTIso).drop [.recBuffer, .packetBuffer]) ∧
      (∀ k, ((x.freeRTIso).drop [.recBuffer, .packetBuffer]).ledger.held k = true → k ∈ [Slot.taskMsgPort, .ep0Pipe]) ∧
      ((x.freeRTIso).drop [.recBuffer, .packetBuffer]).ledger.held .ep0Pipe = x.ledger.held .ep0Pipe := by
  obtain ⟨hsound, hstopped, hreq, hheld⟩ := freeRTIso_spec h.toSound h.handler
  have honly : ∀ k, ((x.freeRTIso).drop [.recBuffer, .packetBuffer]).ledger.held k = true →
      k ∈ [Slot.taskMsgPort, .ep0Pipe] := by
    intro k hk
    rw [held_drop, hheld] at hk
    have hin := h.inside k (Bool.and_eq_true_iff.mp (Bool.and_eq_true_iff.mp hk).1).1
    cases k <;> simp_all [recSlots]
  refine ⟨⟨hsound.drop _, hreq.trans h.idle, hstopped, ?_, fun k hk => ?_⟩, honly, ?_⟩
  · rw [Bool.eq_iff_iff]
    constructor <;> intro hk <;> exact absurd (honly _ hk) (by decide)
  · have := honly k hk
    cases k <;> simp_all
  · rw [held_drop, hheld]
    simp

theorem Spent.shutHalf (h : Spent x) (honly : ∀ k, x.ledger.held k = true → k ∈ [Slot.taskMsgPort, .ep0Pipe]) :
    Shut (x.drop [.ep0Pipe, .taskMsgPort]) := by
  refine ⟨h.toSound.drop _, fun k => ?_, h.idle, h.stopped⟩
  rw [held_drop]
  by_contra hk
  obtain ⟨hk, hne⟩ := Bool.and_eq_true_iff.mp (eq_true_of_ne_false hk)
  have := honly k hk
  cases k <;> simp_all

end NepAudioMode

open NepAudioMode

@[simp] theorem on_same (f : NepAudioMode → NepAudioMode) : (s.on n f).nam n = f (s.nam n) := update_self ..

theorem on_ne (f : NepAudioMode → NepAudioMode) (h : m ≠ n) : (s.on n f).nam m = s.nam m := update_of_ne h ..

theorem on_on (f g : NepAudioMode → NepAudioMode) : (s.on n f).on n g = s.on n fun nam => g (f nam) := by
  unfold NepClassAudio.on
  simp

def Sync (modes : AudioModes) (s : NepClassAudio) : Prop :=
  ∀ i z, modes.zeroBW i = some z → s.current i = z → s.device i = z

def Parked (modes : AudioModes) (s : NepClassAudio) (n : ℕ) : Prop :=
  ∀ z, modes.zeroBW (modes.ifNum n) = some z →
    s.current (modes.ifNum n) = z ∨ s.device (modes.ifNum n) = z

structure Switched (s t : NepClassAudio) : Prop where
  nam : t.nam = s.nam
  phase : t.phase = s.phase
  plugged : t.plugged = s.plugged
  inReqHook : t.inReqHook = s.inReqHook
  outReqHook : t.outReqHook = s.outReqHook

theorem Switched.refl (s : NepClassAudio) : Switched s s := ⟨rfl, rfl, rfl, rfl, rfl⟩

section

variable {alt : ℕ} {a : Answers}

section

variable (modes : AudioModes) (s : NepClassAudio) (n alt : ℕ) (a : Answers)

theorem psdSetAltInterface_switched :
    Switched s (psdSetAltInterface modes n alt a s).1 := by
  unfold psdSetAltInterface
  dsimp only
  split
  · exact .refl s
  · split
    · split
      · split <;> exact ⟨rfl, rfl, rfl, rfl, rfl⟩
      · split <;> exact ⟨rfl, rfl, rfl, rfl, rfl⟩
      · exact .refl s
      · exact ⟨rfl, rfl, rfl, rfl, rfl⟩
    · exact ⟨rfl, rfl, rfl, rfl, rfl⟩

theorem psdSetAltInterface_at (i : ℕ) :
    ((psdSetAltInterface modes n alt a s).1.current i = s.current i ∨
      i = modes.ifNum n ∧ (psdSetAltInterface modes n alt a s).1.current i = alt) ∧
    ((psdSetAltInterface modes n alt a s).1.device i = s.device i ∨
      i = modes.ifNum n ∧ (psdSetAltInterface modes n alt a s).1.device i = alt) := by
  have hupdate : ∀ f : ℕ → ℕ, update f (modes.ifNum n) alt i = f i ∨
      i = modes.ifNum n ∧ update f (modes.ifNum n) alt i = alt := by
    intro f
    by_cases hi : i = modes.ifNum n
    · subst hi
      exact .inr ⟨rfl, update_self ..⟩
    · exact .inl (update_of_ne hi ..)
  unfold psdSetAltInterface
  dsimp only
  split
  · exact ⟨.inl rfl, .inl rfl⟩
  · split
    · split
      · split
        · exact ⟨hupdate _, hupdate _⟩
        · exact ⟨.inl rfl, hupdate _⟩
      · split
        · exact ⟨hupdate _, .inl rfl⟩
        · exact ⟨.inl rfl, .inl rfl⟩
      · exact ⟨.inl rfl, .inl rfl⟩
      · exact ⟨.inl rfl, hupdate _⟩
    · exact ⟨hupdate _, .inl rfl⟩

end

theorem psdSetAltInterface_sync (h : Sync modes s)
    (htold : a.untold = false ∨ modes.zeroBW (modes.ifNum n) = some alt)
    (hpipe : (s.nam n).ledger.held .ep0Pipe = true ∨ s.current (modes.ifNum n) = alt ∨ s.device (modes.ifNum n) = alt) :
    Sync modes (psdSetAltInterface modes n alt a s).1 := by
  intro i z hz hcurrent
  obtain ⟨hcur, hdev⟩ := psdSetAltInterface_at modes s n alt a i
  by_cases hi : i = modes.ifNum n
  · subst hi
    -- where both are at the alternate there is nothing to show
    by_cases hzalt : modes.zeroBW (modes.ifNum n) = some alt
    · obtain rfl : z = alt := some.inj (hz.symm.trans hzalt)
      rcases hdev with hdev | ⟨-, hdev⟩
      · rw [hdev]
        by_cases hwas : s.current (modes.ifNum n) = z
        · exact h _ z hz hwas
        · unfold psdSetAltInterface at hcurrent hdev
          dsimp only at hcurrent hdev
          rw [if_neg hwas] at hcurrent hdev
          split at hcurrent
          · next hheld =>
            rw [if_pos hheld] at hdev
            split at hcurrent
            · next hset =>
              rw [hset] at hdev
              dsimp only at hdev
              split at hdev <;> exact hdev.symm.trans (update_self ..)
            · split at hcurrent
              · next hget => exact hget.2
              · exact absurd hcurrent hwas
            · exact absurd hcurrent hwas
            · exact absurd hcurrent hwas
          · next hheld => exact (hpipe.resolve_left hheld).resolve_left hwas
      · exact hdev
    · have htold := htold.resolve_right hzalt
      have hne : z ≠ alt := fun hza => hzalt (hza ▸ hz)
      have hwas : s.current (modes.ifNum n) = z := by
        rcases hcur with hcur | ⟨-, hcur⟩
        · exact hcur.symm.trans hcurrent
        · exact absurd (hcurrent.symm.trans hcur) hne
      rcases hdev with hdev | ⟨-, hdev⟩
      · exact hdev.trans (h _ z hz hwas)
      · exfalso
        have hdev' : s.device (modes.ifNum n) ≠ alt := fun hd => hne ((h _ z hz hwas).symm.trans hd)
        unfold psdSetAltInterface at hcurrent hdev
        dsimp only at hcurrent hdev
        rw [if_neg fun hw : s.current (modes.ifNum n) = alt => hne (hwas.symm.trans hw)] at hcurrent hdev
        split at hdev
        · next hheld =>
          rw [if_pos hheld] at hcurrent
          split at hdev
          · next hset =>
            have hok : a.set = .ok := by
              split at hset
              · exact hset
              · exact absurd hset nofun
            rw [hset] at hcurrent
            dsimp only at hcurrent
            split at hcurrent
            · exact hne (hcurrent.symm.trans (update_self ..))
            · next hget => simp [Answers.untold, hok, eq_false_of_ne_true hget] at htold
          · split at hdev <;> exact hdev' hdev
          · exact hdev' hdev
          · next hset =>
            have hlost : a.set = .lost := by
              split at hset
              · exact hset
              · exact absurd hset nofun
            simp [Answers.untold, hlost] at htold
        · exact hdev' hdev
  · rw [hdev.resolve_right fun h => hi h.1]
    exact h i z hz ((hcur.resolve_right fun h => hi h.1).symm.trans hcurrent)

theorem psdSetAltInterface_zero (h : Sync modes s) (hz : modes.zeroBW (modes.ifNum n) = some alt)
    (hpipe : (s.nam n).ledger.held .ep0Pipe = true ∨ s.current (modes.ifNum n) = alt ∨ s.device (modes.ifNum n) = alt)
    (hplugged : s.plugged = true) (hset : a.set = .ok) :
    (psdSetAltInterface modes n alt a s).1.device (modes.ifNum n) = alt := by
  unfold psdSetAltInterface
  dsimp only
  by_cases hwas : s.current (modes.ifNum n) = alt
  · rw [if_pos hwas]
    exact h _ alt hz hwas
  · rw [if_neg hwas]
    by_cases hheld : (s.nam n).ledger.held .ep0Pipe = true
    · rw [if_pos hheld, if_pos hplugged, hset]
      dsimp only
      split <;> exact update_self ..
    · rw [if_neg hheld]
      exact (hpipe.resolve_left hheld).resolve_left hwas

end

structure Freed (modes : AudioModes) (n : ℕ) (a : Answers) (s t : NepClassAudio) : Prop where
  shut : Shut (t.nam n)
  nam : ∀ m, m ≠ n → t.nam m = s.nam m
  phase : t.phase = s.phase
  plugged : t.plugged = s.plugged
  inReqHook : t.inReqHook = s.inReqHook
  outReqHook : t.outReqHook = s.outReqHook
  sync : Sync modes t
  parked : ∀ m, Parked modes s m → Parked modes t m
  zero : s.plugged = true → a.set = .ok → ∀ z, modes.zeroBW (modes.ifNum n) = some z → t.device (modes.ifNum n) = z
  kept : ∀ i z, modes.zeroBW i = some z → s.device i = z → t.device i = z

theorem restoreZeroBW_freed {a : Answers} {f g : NepAudioMode → NepAudioMode} (h : Sync modes s)
    (hpark : (s.nam n).ledger.held .ep0Pipe = true ∨ Parked modes s n)
    (hpipe : (f (s.nam n)).ledger.held .ep0Pipe = (s.nam n).ledger.held .ep0Pipe)
    (hshut : Shut (g (f (s.nam n)))) :
    Freed modes n a s (((s.on n f).restoreZeroBW modes n a).on n g) := by
  have hsync : Sync modes (s.on n f) := h
  have hswitched : Switched (s.on n f) ((s.on n f).restoreZeroBW modes n a) := by
    unfold restoreZeroBW
    split
    · exact psdSetAltInterface_switched ..
    · exact .refl _
  have hpipe : ∀ z, modes.zeroBW (modes.ifNum n) = some z → ((s.on n f).nam n).ledger.held .ep0Pipe = true ∨
      (s.on n f).current (modes.ifNum n) = z ∨ (s.on n f).device (modes.ifNum n) = z := by
    intro z hz
    rw [on_same, hpipe]
    exact hpark.imp id fun hparked => hparked z hz
  -- where an interface is afterwards
  have hat : ∀ i z, modes.zeroBW i = some z →
      (((s.on n f).restoreZeroBW modes n a).current i = s.current i ∨
        ((s.on n f).restoreZeroBW modes n a).current i = z) ∧
      (((s.on n f).restoreZeroBW modes n a).device i = s.device i ∨
        ((s.on n f).restoreZeroBW modes n a).device i = z) := by
    intro i z hz
    unfold restoreZeroBW
    split
    · next z' hz' =>
      obtain ⟨hcur, hdev⟩ := psdSetAltInterface_at modes (s.on n f) n z' a i
      have hzz : i = modes.ifNum n → z' = z := by
        rintro rfl
        exact some.inj (hz'.symm.trans hz)
      exact ⟨hcur.imp id fun h => h.2.trans (hzz h.1), hdev.imp id fun h => h.2.trans (hzz h.1)⟩
    · exact ⟨.inl rfl, .inl rfl⟩
  refine ⟨?_, fun m hm => ?_, hswitched.phase, hswitched.plugged, hswitched.inReqHook, hswitched.outReqHook, ?_, ?_, ?_, ?_⟩
  · rw [on_same, hswitched.nam, on_same]
    exact hshut
  · rw [on_ne _ hm, hswitched.nam, on_ne _ hm]
  · show Sync modes ((s.on n f).restoreZeroBW modes n a)
    unfold restoreZeroBW
    split
    · next z hz => exact psdSetAltInterface_sync hsync (.inr hz) (hpipe z hz)
    · exact hsync
  · intro m hm z hz
    obtain ⟨hcur, hdev⟩ := hat _ z hz
    rcases hm z hz with hm | hm
    · exact .inl (hcur.elim (fun h => h.trans hm) id)
    · exact .inr (hdev.elim (fun h => h.trans hm) id)
  · intro hplugged hset z hz
    show ((s.on n f).restoreZeroBW modes n a).device _ = z
    unfold restoreZeroBW
    rw [hz]
    exact psdSetAltInterface_zero hsync hz (hpipe z hz) hplugged hset
  · intro i z hz hdevice
    exact (hat i z hz).2.elim (fun h => h.trans hdevice) id

theorem freeRec_freed {a : Answers} (h : Sync modes s) (hhalf : Half (s.nam r))
    (hpark : (s.nam r).ledger.held .ep0Pipe = true ∨ Parked modes s r) : Freed modes r a s (s.freeRec modes r a) := by
  obtain ⟨hspent, honly, hpipe⟩ := hhalf.freed
  unfold freeRec
  rw [on_on]
  exact restoreZeroBW_freed h hpark hpipe (hspent.shutHalf honly)

theorem freeMode_freed {a : Answers} (h : Sync modes s) (hclock : Clock (s.nam n))
    (hpark : (s.nam n).ledger.held .ep0Pipe = true ∨ Parked modes s n) : Freed modes n a s (s.freeMode modes n a) := by
  obtain ⟨hspent, hkept⟩ := hclock.spent
  unfold freeMode
  rw [on_on, on_on]
  exact restoreZeroBW_freed h hpark (hkept _ (by decide)) hspent.shut

structure Frame (modes : AudioModes) (n : ℕ) (s t : NepClassAudio) : Prop where
  nam : ∀ m, m ∉ modes.halves n → t.nam m = s.nam m
  phase : t.phase = s.phase
  plugged : t.plugged = s.plugged
  inReqHook : (∀ a ∈ modes.halves n, modes.isInput a = false) → t.inReqHook = s.inReqHook
  outReqHook : (∀ a ∈ modes.halves n, modes.isInput a = true) → t.outReqHook = s.outReqHook

def Closable (modes : AudioModes) (s : NepClassAudio) (n : ℕ) : Prop :=
  (∀ a ∈ modes.halves n, Shut (s.nam a)) ∨
    ((s.nam n).ledger.held .psdBase = true ∧ Clock (s.nam n) ∧ ∀ r, modes.recStream n = some r → Half (s.nam r))

theorem mem_halves : m ∈ modes.halves n ↔ m = n ∨ modes.recStream n = some m := by
  unfold AudioModes.halves
  rw [mem_cons, mem_toList]

theorem rec_ne (h : modes.recStream n = some r) : r ≠ n := by
  rintro rfl
  obtain ⟨-, hin, hout⟩ := modes.paired _ _ h
  exact absurd (hin.symm.trans hout) nofun

theorem subLibFreeAudio_spec {a b : Answers} (h : Sync modes s) (hclosable : Closable modes s n)
    (hpark : (s.nam n).ledger.held .psdBase = true → ∀ m ∈ modes.halves n,
      (s.nam m).ledger.held .ep0Pipe = true ∨ Parked modes s m) :
    Frame modes n s (s.subLibFreeAudio modes n a b) ∧ Sync modes (s.subLibFreeAudio modes n a b) ∧
      (∀ m ∈ modes.halves n, Shut ((s.subLibFreeAudio modes n a b).nam m)) ∧
      ((s.nam n).ledger.held .psdBase = true → s.plugged = true → a.set = .ok → b.set = .ok →
        ∀ m ∈ modes.halves n, ∀ z, modes.zeroBW (modes.ifNum m) = some z →
          (s.subLibFreeAudio modes n a b).device (modes.ifNum m) = z) := by
  unfold subLibFreeAudio
  split
  · next hbase =>
    have hself : n ∈ modes.halves n := mem_halves.mpr (.inl rfl)
    obtain ⟨-, hclock, hhalf⟩ := hclosable.resolve_left fun hshut =>
      absurd (((hshut n hself).empty .psdBase).symm.trans hbase) nofun
    split
    · next r hr =>
      have hrec : r ∈ modes.halves n := mem_halves.mpr (.inr hr)
      have hrn := rec_ne hr
      have hfree := freeRec_freed (a := b) h (hhalf r hr) (hpark hbase r hrec)
      have hclock' : Clock ((s.freeRec modes r b).nam n) := by
        rw [hfree.nam n (Ne.symm hrn)]
        exact hclock
      have hmode := freeMode_freed (a := a) hfree.sync hclock' (by
        rw [hfree.nam n (Ne.symm hrn)]
        exact (hpark hbase n hself).imp id (hfree.parked n))
      refine ⟨⟨fun m hm => ?_, hmode.phase.trans hfree.phase, hmode.plugged.trans hfree.plugged,
        fun _ => hmode.inReqHook.trans hfree.inReqHook, fun _ => hmode.outReqHook.trans hfree.outReqHook⟩,
        hmode.sync, fun m hm => ?_, fun _ hplugged ha hb m hm z hz => ?_⟩
      · have hmn : m ≠ n := fun heq => hm (mem_halves.mpr (.inl heq))
        have hmr : m ≠ r := fun heq => hm (mem_halves.mpr (.inr (heq ▸ hr)))
        exact (hmode.nam m hmn).trans (hfree.nam m hmr)
      · rcases mem_halves.mp hm with rfl | hm
        · exact hmode.shut
        · obtain rfl := some.inj (hr.symm.trans hm)
          rw [hmode.nam r hrn]
          exact hfree.shut
      · rcases mem_halves.mp hm with rfl | hm
        · exact hmode.zero (hfree.plugged.trans hplugged) ha z hz
        · obtain rfl := some.inj (hr.symm.trans hm)
          exact hmode.kept _ z hz (hfree.zero hplugged hb z hz)
    · next hnone =>
      have hmode := freeMode_freed (a := a) h hclock (hpark hbase n hself)
      have honly : ∀ m ∈ modes.halves n, m = n := fun m hm =>
        (mem_halves.mp hm).resolve_right fun hrec => absurd (hnone.symm.trans hrec) nofun
      refine ⟨⟨fun m hm => hmode.nam m fun heq => hm (mem_halves.mpr (.inl heq)), hmode.phase, hmode.plugged,
        fun _ => hmode.inReqHook, fun _ => hmode.outReqHook⟩, hmode.sync, fun m hm => ?_,
        fun _ hplugged ha _ m hm z hz => ?_⟩
      · rw [honly m hm]
        exact hmode.shut
      · obtain rfl := honly m hm
        exact hmode.zero hplugged ha z hz
  · next hbase =>
    refine ⟨⟨fun _ _ => rfl, rfl, rfl, fun _ => rfl, fun _ => rfl⟩, h, ?_, fun hheld => absurd hheld hbase⟩
    exact hclosable.resolve_right fun hheld => hbase hheld.1

end Neptune.AudioOpen
