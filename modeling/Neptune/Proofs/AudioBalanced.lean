import Neptune.Proofs.AudioBuild

/-! Where no mode of the unit that is not closed has a half of the same direction, the library is told of every
switch, and a half without a pipe is at its zero bandwidth alternate, each mode that is closed has given back
what it obtained, and each that is open has its hooks, its handler and its timer for itself. -/

namespace Neptune.AudioOpen

open Option Function

open Runs Ledgers Early NepClassAudio NepAudioMode

variable {modes : AudioModes} {s t u : NepClassAudio} {x y : NepAudioMode} {n m r : ℕ}

variable {f : NepAudioMode → NepAudioMode}

theorem Opened.on (h : Opened modes n s) (hclock : Clock (f (s.nam n)))
    (hledger : (f (s.nam n)).ledger = (s.nam n).ledger) (hfallback : (f (s.nam n)).fallbackTimer = (s.nam n).fallbackTimer)
    (hcode : (f (s.nam n)).isCode = (s.nam n).isCode)
    (hsteady : modes.isInput n = false → (f (s.nam n)).running = true → (s.nam n).fallbackTimer = false)
    (hunsent : (s.nam n).fallbackTimer = false → (f (s.nam n)).addRequest = false) : Opened modes n (s.on n f) := by
  have hslots : ∀ m, ((s.on n f).nam m).ledger = (s.nam m).ledger := by
    intro m
    by_cases hm : m = n
    · rw [hm, on_same, hledger]
    · rw [on_ne _ hm]
  refine ⟨?_, ?_, ?_, ?_, ?_, h.hooks, ?_, ?_, ?_, ?_, ?_⟩
  · rwa [on_same]
  · rw [hslots]
    exact h.held
  · intro r hr
    rw [on_ne _ (rec_ne hr)]
    exact h.half r hr
  · intro r hr
    rw [hslots]
    exact h.recs r hr
  · rw [hslots]
    exact h.play
  · rw [on_same, hcode, hfallback]
    exact h.code
  · rw [on_same, hfallback]
    exact h.input
  · rw [on_same, hfallback]
    exact hsteady
  · rw [on_same, hfallback]
    exact h.late
  · rw [on_same, hfallback]
    exact hunsent

theorem Opened.onHalf (h : Opened modes n s) (hr : modes.recStream n = some r)
    (hhalf : Half (f (s.nam r))) (hledger : (f (s.nam r)).ledger = (s.nam r).ledger) : Opened modes n (s.on r f) := by
  have hne := Ne.symm (rec_ne hr)
  have hslots : ∀ m, ((s.on r f).nam m).ledger = (s.nam m).ledger := by
    intro m
    by_cases hm : m = r
    · rw [hm, on_same, hledger]
    · rw [on_ne _ hm]
  refine ⟨?_, ?_, ?_, ?_, ?_, h.hooks, ?_, ?_, ?_, ?_, ?_⟩
  · rw [on_ne _ hne]
    exact h.clock
  · rw [hslots]
    exact h.held
  · intro r' hr'
    obtain rfl := some.inj (hr.symm.trans hr')
    rwa [on_same]
  · intro r' hr'
    rw [hslots]
    exact h.recs r' hr'
  · rw [hslots]
    exact h.play
  all_goals rw [on_ne _ hne]
  · exact h.code
  · exact h.input
  · exact h.steady
  · exact h.late
  · exact h.unsent

theorem NepAudioMode.Clock.startRTIso (h : Clock x) (ok : Bool) : Clock (x.psdStartRTIso ok) where
  toSound := ⟨h.fault, h.balanced, h.replies⟩
  owned := h.owned
  came := h.came
  there := h.there
  timer := h.timer
  handler := fun hrun => (Bool.or_eq_true_iff.mp hrun).elim h.handler fun hok => (Bool.and_eq_true_iff.mp hok).2

theorem NepAudioMode.Clock.stopRTIso (h : Clock x) (ok : Bool) : Clock (x.psdStopRTIso ok) where
  toSound := ⟨h.fault, h.balanced, h.replies⟩
  owned := h.owned
  came := h.came
  there := h.there
  timer := h.timer
  handler := fun hrun => h.handler (Bool.and_eq_true_iff.mp hrun).1

theorem NepAudioMode.Half.startRTIso (h : Half x) (ok : Bool) : Half (x.psdStartRTIso ok) where
  toSound := ⟨h.fault, h.balanced, h.replies⟩
  idle := h.idle
  inside := h.inside
  handler := fun hrun => (Bool.or_eq_true_iff.mp hrun).elim h.handler fun hok => (Bool.and_eq_true_iff.mp hok).2

theorem NepAudioMode.Half.stopRTIso (h : Half x) (ok : Bool) : Half (x.psdStopRTIso ok) where
  toSound := ⟨h.fault, h.balanced, h.replies⟩
  idle := h.idle
  inside := h.inside
  handler := fun hrun => h.handler (Bool.and_eq_true_iff.mp hrun).1

theorem NepAudioMode.Clock.playing (h : Clock x) (playing : Bool) : Clock { x with playing := playing } :=
  ⟨⟨h.fault, h.balanced, h.replies⟩, h.owned, h.came, h.there, h.timer, h.handler⟩

section

variable (h : Opened modes n s)
include h

theorem Opened.beat (hsound : Sound x) (hledger : x.ledger = (s.nam n).ledger)
    (hfallback : x.fallbackTimer = true) (hcode : x.isCode = .dummy) (hrun : x.running = (s.nam n).running)
    (hreq : x.request ≠ .sent) :
    Clock x.playerInt ∧ x.playerInt.ledger = x.ledger ∧ x.playerInt.fallbackTimer = true ∧
      x.playerInt.isCode = .dummy ∧ x.playerInt.running = x.running := by
  have hthere := h.held .timerIOReq (by decide)
  refine Clock.beat hsound hfallback hcode ?_ ?_ ?_ (fun hr => ?_) hreq
  · rw [hledger]
    exact hthere
  · rw [hledger, h.clock.timer]
    exact hthere
  · rw [hledger]
    exact h.held .mixBuffer (by decide)
  · rw [hledger]
    exact h.clock.handler (hrun.symm.trans hr)

theorem Opened.startPlay (ok : Bool) : Opened modes n (s.on n (·.startPlay ok)) := by
  have hplaying := h.clock.playing true
  by_cases hfallback : (s.nam n).fallbackTimer = true
  · have hstart : (s.nam n).startPlay ok =
        { ({ s.nam n with playing := true } : NepAudioMode).nAbortTimer.1 with softInt := true }.playerInt :=
      if_pos hfallback
    obtain ⟨hclock, hreq, -, hledger, hfb, hcode, hrun, -⟩ := hplaying.nAbortTimer hfallback
    obtain ⟨hbeat, hledger', hfb', hcode', hrun'⟩ := h.beat
      (x := { ({ s.nam n with playing := true } : NepAudioMode).nAbortTimer.1 with softInt := true })
      ⟨hclock.fault, hclock.balanced, hclock.replies⟩ hledger hfb (hcode.trans (h.code.mpr hfallback)) hrun hreq
    refine h.on ?_ ?_ ?_ ?_ (fun hin hr => ?_) (fun hfb => absurd (hfallback.symm.trans hfb) nofun)
    · rw [hstart]
      exact hbeat
    · rw [hstart]
      exact hledger'.trans hledger
    · rw [hstart]
      exact hfb'.trans hfallback.symm
    · rw [hstart]
      exact hcode'.trans (h.code.mpr hfallback).symm
    · rw [hstart] at hr
      exact h.steady hin (hrun.symm.trans (hrun'.symm.trans hr))
  · have hstart : (s.nam n).startPlay ok = ({ s.nam n with playing := true } : NepAudioMode).psdStartRTIso ok :=
      if_neg hfallback
    refine h.on ?_ ?_ ?_ ?_ (fun _ _ => eq_false_of_ne_true hfallback) fun hfb => ?_
    all_goals rw [hstart]
    · exact hplaying.startRTIso ok
    · rfl
    · rfl
    · rfl
    · exact h.unsent hfb

theorem Opened.stopPlay (ok : Bool) : Opened modes n (s.on n (·.stopPlay ok)) := by
  have hplaying := h.clock.playing false
  by_cases hfallback : (s.nam n).fallbackTimer = true
  · have hstop : (s.nam n).stopPlay ok = ({ s.nam n with playing := false } : NepAudioMode).nAbortTimer.1 := if_pos hfallback
    obtain ⟨hclock, -, -, hledger, hfb, hcode, hrun, -⟩ := hplaying.nAbortTimer hfallback
    refine h.on ?_ ?_ ?_ ?_ (fun hin hr => ?_) (fun hfb => absurd (hfallback.symm.trans hfb) nofun)
    · rw [hstop]
      exact hclock
    · rw [hstop]
      exact hledger
    · rw [hstop]
      exact hfb.trans hfallback.symm
    · rw [hstop]
      exact hcode
    · rw [hstop] at hr
      exact h.steady hin (hrun.symm.trans hr)
  · have hstop : (s.nam n).stopPlay ok = ({ s.nam n with playing := false } : NepAudioMode).psdStopRTIso ok :=
      if_neg hfallback
    refine h.on ?_ ?_ ?_ ?_ (fun _ _ => eq_false_of_ne_true hfallback) fun hfb => ?_
    all_goals rw [hstop]
    · exact hplaying.stopRTIso ok
    · rfl
    · rfl
    · rfl
    · exact h.unsent hfb

theorem Opened.record (hr : modes.nRecMode n = some r)
    (hclock : ∀ x, Clock x → Clock (f x)) (hhalf : ∀ x, Half x → Half (f x))
    (hsame : ∀ x, (f x).ledger = x.ledger ∧ (f x).fallbackTimer = x.fallbackTimer ∧ (f x).isCode = x.isCode ∧
      (f x).addRequest = x.addRequest) : Opened modes n (s.on r f) := by
  unfold AudioModes.nRecMode at hr
  split at hr
  · next hin =>
    obtain rfl := some.inj hr
    obtain ⟨hledger, hfb, hcode, hadd⟩ := hsame (s.nam n)
    exact h.on (hclock _ h.clock) hledger hfb hcode (fun hout => absurd (hin.symm.trans hout) nofun)
      fun hfb => hadd.trans (h.unsent hfb)
  · exact h.onHalf hr (hhalf _ (h.half r hr)) (hsame _).1

theorem Opened.start (play record ok recOk : Bool) :
    Opened modes n (s.subLibStart modes n play record ok recOk) := by
  have hplay : Opened modes n (if play then s.on n (·.startPlay (ok && s.plugged)) else s) := by
    split
    · exact h.startPlay _
    · exact h
  unfold subLibStart
  dsimp only
  split
  · split
    · next r hr =>
      exact hplay.record hr (fun _ hx => hx.startRTIso _) (fun _ hx => hx.startRTIso _) fun _ => ⟨rfl, rfl, rfl, rfl⟩
    · exact hplay
  · exact hplay

theorem Opened.stop (play record ok recOk : Bool) :
    Opened modes n (s.subLibStop modes n play record ok recOk) := by
  have hplay : Opened modes n (if play then s.on n (·.stopPlay ok) else s) := by
    split
    · exact h.stopPlay _
    · exact h
  unfold subLibStop
  dsimp only
  split
  · split
    · next r hr =>
      exact hplay.record hr (fun _ hx => hx.stopRTIso _) (fun _ hx => hx.stopRTIso _) fun _ => ⟨rfl, rfl, rfl, rfl⟩
    · exact hplay
  · exact hplay

theorem Opened.timer (hsent : (s.nam n).request = .sent) :
    Opened modes n (s.on n fun nam => if nam.softInt then nam.reply.playerInt else nam.reply) := by
  obtain ⟨hfallback, hadd⟩ := h.clock.owned (by rw [hsent]; nofun)
  have hreplies := h.clock.replies
  rw [hsent, if_neg nofun] at hreplies
  have hsound : Sound (s.nam n).reply := ⟨h.clock.fault, h.clock.balanced, congrArg (· + 1) hreplies⟩
  have hreply : Clock (s.nam n).reply :=
    ⟨hsound, fun _ => ⟨hfallback, hadd⟩, fun _ _ => nofun, h.clock.there, h.clock.timer, h.clock.handler⟩
  obtain ⟨hbeat, hledger, hfb, hcode, hrun⟩ := h.beat hsound rfl hfallback (h.code.mpr hfallback) rfl nofun
  refine h.on ?_ ?_ ?_ ?_ (fun hin hr => ?_) fun hfb => absurd (hfallback.symm.trans hfb) nofun
  · split
    · exact hbeat
    · exact hreply
  · split
    · exact hledger
    · rfl
  · split
    · exact hfb.trans hfallback.symm
    · rfl
  · split
    · exact hcode.trans (h.code.mpr hfallback).symm
    · rfl
  · refine h.steady hin ?_
    split at hr
    · exact hrun.symm.trans hr
    · exact hr

end

structure ModeOk (modes : AudioModes) (n : ℕ) (s : NepClassAudio) : Prop where
  closed : s.phase n = .closed → ∀ m ∈ modes.halves n, Shut (s.nam m)
  failed : s.phase n = .failed → Failed modes n s
  opened : s.phase n = .opened → Opened modes n s

structure Inv (modes : AudioModes) (s : NepClassAudio) : Prop where
  sync : Sync modes s
  mode : ∀ n, modes.partOf n = none → ModeOk modes n s
  entry : ∀ n, s.phase n ≠ .closed → modes.partOf n = none
  rest : ∀ n, (∀ m, modes.partOf m = none → n ∉ modes.halves m) → Shut (s.nam n)

theorem Failed.congr (h : Failed modes n s) (hnam : ∀ m ∈ modes.halves n, t.nam m = s.nam m) : Failed modes n t := by
  have hself := hnam n (mem_halves.mpr (.inl rfl))
  refine ⟨h.closable.imp (fun hshut m hm => ?_) fun hopen => ?_, ?_, fun m hm => ?_, ?_⟩
  · rw [hnam m hm]
    exact hshut m hm
  · rw [hself]
    refine ⟨hopen.1, hopen.2.1, fun r hr => ?_⟩
    rw [hnam r (mem_halves.mpr (.inr hr))]
    exact hopen.2.2 r hr
  · rw [hself]
    exact h.idle
  · rw [hnam m hm]
    exact h.stopped m hm
  · rw [hself]
    exact h.clock

theorem nRecMode_mem (hr : modes.nRecMode n = some r) : r ∈ modes.halves n := by
  unfold AudioModes.nRecMode at hr
  split at hr
  · exact mem_halves.mpr (.inl (some.inj hr).symm)
  · exact mem_halves.mpr (.inr hr)

theorem Opened.congr (h : Opened modes n s) (hnam : ∀ m ∈ modes.halves n, t.nam m = s.nam m)
    (hplugged : t.plugged = s.plugged)
    (hhooks : ∀ m ∈ modes.halves n, hData t (modes.isInput m) = hData s (modes.isInput m)) : Opened modes n t := by
  have hself := hnam n (mem_halves.mpr (.inl rfl))
  refine ⟨?_, ?_, fun r hr => ?_, fun r hr => ?_, ?_, fun m hm => (hhooks m hm).trans (h.hooks m hm), ?_, ?_, ?_, ?_, ?_⟩
  · rw [hself]
    exact h.clock
  · rw [hself]
    exact h.held
  · rw [hnam r (mem_halves.mpr (.inr hr))]
    exact h.half r hr
  · rw [hnam r (nRecMode_mem hr)]
    exact h.recs r hr
  all_goals rw [hself]
  · exact h.play
  · exact h.code
  · exact h.input
  · exact h.steady
  · rw [hplugged]
    exact h.late
  · exact h.unsent

theorem halves_disjoint (hn : modes.partOf n = none) (hm : modes.partOf m = none) (hne : m ≠ n) {a : ℕ}
    (ha : a ∈ modes.halves m) : a ∉ modes.halves n := by
  intro ha'
  rcases mem_halves.mp ha with rfl | har
  · rcases mem_halves.mp ha' with heq | har'
    · exact hne heq
    · exact absurd (hm.symm.trans (modes.paired n a har').1) nofun
  · rcases mem_halves.mp ha' with rfl | har'
    · exact absurd (hn.symm.trans (modes.paired m a har).1) nofun
    · exact hne (some.inj ((modes.paired m a har).1.symm.trans (modes.paired n a har').1))

theorem Inv.move (h : Inv modes s) (hn : modes.partOf n = none) (hsync : Sync modes u)
    (hnam : ∀ m, m ∉ modes.halves n → u.nam m = s.nam m) (hphase : ∀ m, m ≠ n → u.phase m = s.phase m)
    (hplugged : u.plugged = s.plugged)
    (hhooks : ∀ m, m ≠ n → s.phase m = .opened → ∀ a ∈ modes.halves m,
      hData u (modes.isInput a) = hData s (modes.isInput a))
    (hok : ModeOk modes n u) : Inv modes u where
  sync := hsync
  mode := by
    intro m hm
    by_cases hmn : m = n
    · exact hmn ▸ hok
    · have hold := h.mode m hm
      have hsame : ∀ a ∈ modes.halves m, u.nam a = s.nam a := fun a ha => hnam a (halves_disjoint hn hm hmn ha)
      refine ⟨fun hp a ha => ?_, fun hp => ?_, fun hp => ?_⟩
      · rw [hsame a ha]
        exact hold.closed ((hphase m hmn).symm.trans hp) a ha
      · exact (hold.failed ((hphase m hmn).symm.trans hp)).congr hsame
      · have hopen := (hphase m hmn).symm.trans hp
        exact (hold.opened hopen).congr hsame hplugged (hhooks m hmn hopen)
  entry := by
    intro m hm
    by_cases hmn : m = n
    · exact hmn ▸ hn
    · exact h.entry m (hphase m hmn ▸ hm)
  rest := fun a ha => by
    rw [hnam a (ha n hn)]
    exact h.rest a ha

theorem Inv.home (h : Inv modes s) (a : ℕ) :
    Shut (s.nam a) ∨ ∃ m, s.phase m ≠ .closed ∧ modes.partOf m = none ∧ a ∈ modes.halves m := by
  by_cases hhome : ∃ m, modes.partOf m = none ∧ a ∈ modes.halves m
  · obtain ⟨m, hm, ha⟩ := hhome
    by_cases hp : s.phase m = .closed
    · exact .inl ((h.mode m hm).closed hp a ha)
    · exact .inr ⟨m, hp, hm, ha⟩
  · exact .inl (h.rest a fun m hm ha => hhome ⟨m, hm, ha⟩)

theorem phase_cases {p : Phase} (h : p ≠ .closed) : p = .failed ∨ p = .opened := by
  cases p with
  | closed => exact absurd rfl h
  | failed => exact .inl rfl
  | opened => exact .inr rfl

/-- No half is opened beside one of the same direction that is not closed, the library is told of every switch, and
a half that has no pipe needs none. -/
def InTurn (modes : AudioModes) (s : NepClassAudio) : Event → Prop
  | .allocAudio n _ o => s.phase n = .closed →
      (∀ m, s.phase m ≠ .closed → ∀ a ∈ modes.halves n, ∀ b ∈ modes.halves m, modes.isInput a ≠ modes.isInput b) ∧
        o.half.alt.untold = false ∧ o.recHalf.alt.untold = false
  | .freeAudio n _ _ => (s.nam n).ledger.held .psdBase = true → ∀ m ∈ modes.halves n,
      (s.nam m).ledger.held .ep0Pipe = true ∨ Parked modes s m
  | _ => True

theorem Inv.init (alts : ℕ → ℕ) : Inv modes (AudioOpen.init alts) := by
  have hshut : Shut blankMode := ⟨⟨rfl, .blank, rfl⟩, fun _ => rfl, rfl, rfl⟩
  exact ⟨fun _ _ _ h => h, fun _ _ => ⟨fun _ _ _ => hshut, nofun, nofun⟩, fun _ h => absurd rfl h, fun _ _ => hshut⟩

theorem Inv.allocAudio (h : Inv modes s) {freq : ℕ} {o : Outcome} (hn : modes.partOf n = none)
    (hclosed : s.phase n = .closed) (hin : InTurn modes s (.allocAudio n freq o)) :
    Frame modes n s (subLibAllocAudio modes n freq o s).1 ∧
      Inv modes { (subLibAllocAudio modes n freq o s).1 with
        phase := update s.phase n (if (subLibAllocAudio modes n freq o s).2 then .opened else .failed) } := by
  obtain ⟨hclash, htold, htold'⟩ := hin hclosed
  obtain ⟨hgo, hstop⟩ := subLibAllocAudio_spec freq (o := o) h.sync ((h.mode n hn).closed hclosed) htold htold' s rfl
  have hboth : Frame modes n s (subLibAllocAudio modes n freq o s).1 ∧ Sync modes (subLibAllocAudio modes n freq o s).1 := by
    cases hres : (subLibAllocAudio modes n freq o s).2 with
    | true => exact ⟨(hgo hres).1, (hgo hres).2.1⟩
    | false => exact ⟨(hstop hres).1, (hstop hres).2.1⟩
  obtain ⟨hframe, hsync⟩ := hboth
  refine ⟨hframe, h.move hn hsync hframe.nam (fun m hm => update_of_ne hm ..) hframe.plugged ?_ ?_⟩
  · intro m hm hopen b hb
    have hdir := fun a ha => hclash m (by rw [hopen]; nofun) a ha b hb
    unfold hData
    cases hinput : modes.isInput b with
    | true => exact hframe.inReqHook fun a ha => eq_false_of_ne_true fun hat => hdir a ha (hat.trans hinput.symm)
    | false => exact hframe.outReqHook fun a ha => eq_true_of_ne_false fun haf => hdir a ha (haf.trans hinput.symm)
  · cases hres : (subLibAllocAudio modes n freq o s).2 with
    | true =>
      have hself : update s.phase n Phase.opened n = .opened := update_self ..
      refine ⟨fun hp => absurd (hself.symm.trans hp) nofun, fun hp => absurd (hself.symm.trans hp) nofun, fun _ => ?_⟩
      exact (hgo hres).2.2.congr (fun _ _ => rfl) rfl fun _ _ => rfl
    | false =>
      have hself : update s.phase n Phase.failed n = .failed := update_self ..
      refine ⟨fun hp => absurd (hself.symm.trans hp) nofun, fun _ => ?_, fun hp => absurd (hself.symm.trans hp) nofun⟩
      exact (hstop hres).2.2.congr fun _ _ => rfl

theorem Inv.closable (h : Inv modes s) (hopen : s.phase n ≠ .closed) : Closable modes s n := by
  have hn := h.entry n hopen
  rcases phase_cases hopen with hp | hp
  · exact ((h.mode n hn).failed hp).closable
  · have hopened := (h.mode n hn).opened hp
    exact .inr ⟨hopened.held _ (by decide), hopened.clock, hopened.half⟩

theorem subLibFreeAudio_hooks {a b : Answers} : hData (s.subLibFreeAudio modes n a b) = hData s := by
  have hzero : ∀ (s : NepClassAudio) n a, hData (s.restoreZeroBW modes n a) = hData s := by
    intro s n a
    unfold restoreZeroBW
    split
    · next z _ =>
      have hswitched := psdSetAltInterface_switched modes s n z a
      funext input
      unfold hData
      rw [hswitched.inReqHook, hswitched.outReqHook]
    · rfl
  have hmode : ∀ s : NepClassAudio, hData (s.freeMode modes n a) = hData s := fun s => hzero _ n a
  unfold subLibFreeAudio
  split
  · split
    · next r _ => exact (hmode _).trans (hzero _ r b)
    · exact hmode s
  · rfl

theorem Inv.freeAudio (h : Inv modes s) {a b : Answers} (hopen : s.phase n ≠ .closed)
    (hin : InTurn modes s (.freeAudio n a b)) :
    Frame modes n s (s.subLibFreeAudio modes n a b) ∧
      Inv modes { s.subLibFreeAudio modes n a b with phase := update s.phase n .closed } := by
  have hn := h.entry n hopen
  obtain ⟨hframe, hsync, hshut, -⟩ := subLibFreeAudio_spec (a := a) (b := b) h.sync (h.closable hopen) hin
  refine ⟨hframe, h.move hn hsync hframe.nam (fun m hm => update_of_ne hm ..) hframe.plugged
    (fun _ _ _ c _ => congrFun subLibFreeAudio_hooks _) ?_⟩
  have hself : update s.phase n Phase.closed n = .closed := update_self ..
  exact ⟨fun _ => hshut, fun hp => absurd (hself.symm.trans hp) nofun, fun hp => absurd (hself.symm.trans hp) nofun⟩

theorem Inv.calls (h : Inv modes s) (hopen : s.phase n = .opened) (hframe : Frame modes n s u) (hcurrent : u.current = s.current)
    (hdevice : u.device = s.device) (hhooks : hData u = hData s) (hok : Opened modes n u) : Inv modes u := by
  have hn := h.entry n (by rw [hopen]; nofun)
  refine h.move hn ?_ hframe.nam (fun m _ => congrFun hframe.phase m) hframe.plugged
    (fun _ _ _ a _ => congrFun hhooks _) ?_
  · intro i z hz hc
    rw [hdevice]
    rw [hcurrent] at hc
    exact h.sync i z hz hc
  · have hp : u.phase n = .opened := (congrFun hframe.phase n).trans hopen
    exact ⟨fun hc => absurd (hp.symm.trans hc) nofun, fun hc => absurd (hp.symm.trans hc) nofun, fun _ => hok⟩

structure Local (modes : AudioModes) (n : ℕ) (s t : NepClassAudio) : Prop where
  frame : Frame modes n s t
  current : t.current = s.current
  device : t.device = s.device
  hooks : hData t = hData s

theorem Local.refl (s : NepClassAudio) : Local modes n s s := ⟨.refl s, rfl, rfl, rfl⟩

theorem Local.on (h : Local modes n s t) (hm : m ∈ modes.halves n) (f : NepAudioMode → NepAudioMode) :
    Local modes n s (t.on m f) :=
  ⟨h.frame.trans (.on hm f), h.current, h.device, h.hooks⟩

theorem start_local (play record ok recOk : Bool) : Local modes n s (s.subLibStart modes n play record ok recOk) := by
  have hplay : Local modes n s (if play then s.on n (·.startPlay (ok && s.plugged)) else s) := by
    split
    · exact (Local.refl s).on (mem_halves.mpr (.inl rfl)) _
    · exact .refl s
  unfold subLibStart
  dsimp only
  split
  · split
    · next r hr => exact hplay.on (nRecMode_mem hr) _
    · exact hplay
  · exact hplay

theorem stop_local (play record ok recOk : Bool) : Local modes n s (s.subLibStop modes n play record ok recOk) := by
  have hplay : Local modes n s (if play then s.on n (·.stopPlay ok) else s) := by
    split
    · exact (Local.refl s).on (mem_halves.mpr (.inl rfl)) _
    · exact .refl s
  unfold subLibStop
  dsimp only
  split
  · split
    · next r hr => exact hplay.on (nRecMode_mem hr) _
    · exact hplay
  · exact hplay

theorem Inv.ofLocal (h : Inv modes s) (hopen : s.phase n = .opened) (hl : Local modes n s u) (hok : Opened modes n u) :
    Inv modes u :=
  h.calls hopen hl.frame hl.current hl.device hl.hooks hok

theorem Inv.timer (h : Inv modes s) (hsent : (s.nam n).request = .sent) :
    Inv modes (s.on n fun nam => if nam.softInt then nam.reply.playerInt else nam.reply) := by
  have hbusy : (s.nam n).request ≠ .idle := by rw [hsent]; nofun
  obtain ⟨m, hp, hm, hn⟩ := (h.home n).resolve_left fun hshut => hbusy hshut.idle
  rcases phase_cases hp with hp | hp
  · have hfailed := (h.mode m hm).failed hp
    rcases mem_halves.mp hn with rfl | hr
    · exact absurd hfailed.idle hbusy
    · rcases hfailed.closable with hshut | hopen
      · exact absurd (hshut n hn).idle hbusy
      · exact absurd (hopen.2.2 n hr).idle hbusy
  · have hopened := (h.mode m hm).opened hp
    rcases mem_halves.mp hn with rfl | hr
    · exact h.ofLocal hp ((Local.refl s).on hn _) (hopened.timer hsent)
    · exact absurd (hopened.half n hr).idle hbusy

theorem on_id (h : f (s.nam n) = s.nam n) : s.on n f = s := by
  unfold NepClassAudio.on
  rw [h, update_eq_self]

theorem Inv.callHooks (h : Inv modes s) (hrun : (s.nam n).running = true) (due : Bool) : s.callHooks modes n due = s := by
  obtain ⟨m, hp, hm, hn⟩ := (h.home n).resolve_left fun hshut => absurd (hshut.stopped.symm.trans hrun) nofun
  have hopened : Opened modes m s := by
    refine (h.mode m hm).opened ((phase_cases hp).resolve_left fun hp => ?_)
    exact absurd ((((h.mode m hm).failed hp).stopped n hn).symm.trans hrun) nofun
  have hhook := hopened.hooks n hn
  unfold NepClassAudio.callHooks
  cases hin : modes.isInput n with
  | true =>
    rw [hin] at hhook
    have hhook : s.inReqHook = some n := hhook
    have hrec : modes.nRecMode m = some n := by
      unfold AudioModes.nRecMode
      rcases mem_halves.mp hn with rfl | hr
      · rw [hin]
        rfl
      · rw [(modes.paired m n hr).2.2]
        exact hr
    simp only [if_true, hhook]
    refine on_id (touch_eq fun k hk => hopened.recs n hrec k ?_)
    exact List.mem_cons_of_mem _ hk
  | false =>
    rw [hin] at hhook
    have hhook : s.outReqHook = some n := hhook
    have hself : n = m := (mem_halves.mp hn).resolve_right fun hr =>
      absurd (hin.symm.trans (modes.paired m n hr).2.1) nofun
    subst hself
    have hplay := hopened.play hin
    have hcode : (s.nam n).isCode ≠ .dummy := fun hc =>
      absurd ((hopened.steady hin hrun).symm.trans (hopened.code.mp hc)) nofun
    have hint : (s.nam n).playerInt = s.nam n := by
      unfold NepAudioMode.playerInt
      split
      · next hc => exact absurd hc hcode
      all_goals
        refine touch_eq fun k hk => ?_
        rcases List.mem_cons.mp hk with rfl | hk
        · exact hopened.held _ (by decide)
        · exact hplay k hk
    simp only [Bool.false_eq_true, if_false, hhook]
    refine on_id ?_
    have hdue : (if due = true then (s.nam n).playerInt else s.nam n) = s.nam n := by
      split
      · exact hint
      · rfl
    rw [hdue]
    exact touch_eq hplay

def gone (modes : AudioModes) (s : NepClassAudio) : NepClassAudio :=
  { s with
    plugged := false
    nam := fun n => if (s.nam n).ledger.held .rtIso then (s.nam n).nReleaseHook (modes.isInput n) else s.nam n }

theorem gone_without (h : (s.nam n).ledger.held .rtIso = false) : (gone modes s).nam n = s.nam n :=
  if_neg (by rw [h]; nofun)

theorem gone_input (hin : modes.isInput n = true) (h : (s.nam n).ledger.held .rtIso = true) :
    (gone modes s).nam n = (s.nam n).psdStopRTIso true := by
  show (if (s.nam n).ledger.held .rtIso then (s.nam n).nReleaseHook (modes.isInput n) else s.nam n) = _
  rw [if_pos h, hin]
  rfl

theorem gone_half (hin : modes.isInput n = true) :
    (gone modes s).nam n = s.nam n ∨ (gone modes s).nam n = (s.nam n).psdStopRTIso true := by
  cases h : (s.nam n).ledger.held .rtIso with
  | true => exact .inr (gone_input hin h)
  | false => exact .inl (gone_without h)

theorem NepAudioMode.Half.unplug (h : Half (s.nam r)) (hin : modes.isInput r = true) : Half ((gone modes s).nam r) := by
  rcases gone_half hin with heq | heq <;> rw [heq]
  · exact h
  · exact h.stopRTIso true

theorem gone_half_ledger (hin : modes.isInput r = true) : ((gone modes s).nam r).ledger = (s.nam r).ledger := by
  rcases gone_half hin with heq | heq <;> rw [heq]
  rfl

theorem Failed.unplug (h : Failed modes n s) : Failed modes n (gone modes s) := by
  have hself : n ∈ modes.halves n := mem_halves.mpr (.inl rfl)
  cases hiso : (s.nam n).ledger.held .rtIso with
  | false =>
    have hsame : (gone modes s).nam n = s.nam n := gone_without hiso
    refine ⟨h.closable.imp (fun hshut m hm => ?_) fun hopen => ?_, ?_, fun m hm => ?_, ?_⟩
    · rw [gone_without ((hshut m hm).empty _)]
      exact hshut m hm
    · rw [hsame]
      exact ⟨hopen.1, hopen.2.1, fun r hr => (hopen.2.2 r hr).unplug (modes.paired n r hr).2.1⟩
    · rw [hsame]
      exact h.idle
    · rcases mem_halves.mp hm with rfl | hr
      · rw [hsame]
        exact h.stopped m hm
      · rcases gone_half (modes.paired n m hr).2.1 with heq | heq <;> rw [heq]
        · exact h.stopped m hm
        · exact Bool.and_eq_false_iff.mpr (.inl (h.stopped m hm))
    · rw [hsame]
      exact h.clock
  | true =>
    obtain ⟨hthere, hquiet, hadd⟩ := h.clock hiso
    have hopen := h.closable.resolve_left fun hshut => absurd (((hshut n hself).empty _).symm.trans hiso) nofun
    -- the hook of a mode that does not play: the timer would be its clock
    have hmode : (gone modes s).nam n = (s.nam n).psdStopRTIso true ∨
        (gone modes s).nam n = { (s.nam n).psdStopRTIso true with isCode := .dummy, fallbackTimer := true } := by
      show (if (s.nam n).ledger.held .rtIso then (s.nam n).nReleaseHook (modes.isInput n) else s.nam n) = _ ∨
        (if (s.nam n).ledger.held .rtIso then (s.nam n).nReleaseHook (modes.isInput n) else s.nam n) = _
      rw [if_pos hiso]
      cases modes.isInput n with
      | true => exact .inl rfl
      | false => exact .inr (if_neg (fun hp : (s.nam n).playing = true => absurd (hquiet.symm.trans hp) nofun))
    have hclock : Clock ((gone modes s).nam n) := by
      rcases hmode with heq | heq <;> rw [heq]
      · exact hopen.2.1.stopRTIso true
      · have hstop := hopen.2.1.stopRTIso true
        exact ⟨⟨hstop.fault, hstop.balanced, hstop.replies⟩, fun hreq => absurd h.idle hreq,
          fun _ hadd' => absurd (hadd.symm.trans hadd') nofun, fun _ => hthere, hstop.timer, hstop.handler⟩
    have hfields : ((gone modes s).nam n).ledger = (s.nam n).ledger ∧
        ((gone modes s).nam n).request = (s.nam n).request ∧ ((gone modes s).nam n).playing = (s.nam n).playing ∧
        ((gone modes s).nam n).addRequest = (s.nam n).addRequest ∧ ((gone modes s).nam n).running = false := by
      have hstopped : (s.nam n).running = false := h.stopped n hself
      rcases hmode with heq | heq <;> rw [heq] <;>
        exact ⟨rfl, rfl, rfl, rfl, Bool.and_eq_false_iff.mpr (.inl hstopped)⟩
    obtain ⟨hledger, hreq, hplaying, hadd', hrun⟩ := hfields
    refine ⟨.inr ⟨?_, hclock, fun r hr => (hopen.2.2 r hr).unplug (modes.paired n r hr).2.1⟩, hreq.trans h.idle,
      fun m hm => ?_, fun _ => ⟨?_, hplaying.trans hquiet, hadd'.trans hadd⟩⟩
    · rw [hledger]
      exact hopen.1
    · rcases mem_halves.mp hm with rfl | hr
      · exact hrun
      · rcases gone_half (modes.paired n m hr).2.1 with heq | heq <;> rw [heq]
        · exact h.stopped m hm
        · exact Bool.and_eq_false_iff.mpr (.inl (h.stopped m hm))
    · rw [hledger]
      exact hthere

theorem Opened.released (h : Opened modes n s) (hin : modes.isInput n = false) (hplugged : s.plugged = true) :
    Clock ((s.nam n).nReleaseHook false) ∧ ((s.nam n).nReleaseHook false).ledger = (s.nam n).ledger ∧
      ((s.nam n).nReleaseHook false).fallbackTimer = true ∧ ((s.nam n).nReleaseHook false).isCode = .dummy ∧
      ((s.nam n).nReleaseHook false).running = false := by
  have hfallback := h.late hin hplugged
  have hadd := h.unsent hfallback
  have hidle : (s.nam n).request = .idle := by
    by_contra hreq
    exact absurd (hfallback.symm.trans (h.clock.owned hreq).1) nofun
  have hstop := h.clock.stopRTIso true
  have hrun : ((s.nam n).psdStopRTIso true).running = false := Bool.and_false _
  unfold nReleaseHook
  dsimp only
  rw [if_neg (by nofun)]
  split
  · have hthere := h.held .timerIOReq (by decide)
    obtain ⟨hbeat, hledger, hfb, hcode, hrun'⟩ := Clock.beat
      (x := { (s.nam n).psdStopRTIso true with isCode := .dummy, fallbackTimer := true })
      ⟨hstop.fault, hstop.balanced, hstop.replies⟩ rfl rfl hthere (h.clock.timer.trans hthere)
      (h.held .mixBuffer (by decide)) (fun hr => absurd (hrun.symm.trans hr) nofun)
      (fun hreq => absurd (hidle.symm.trans hreq) nofun)
    exact ⟨hbeat, hledger, hfb, hcode, hrun'.trans hrun⟩
  · exact ⟨⟨⟨hstop.fault, hstop.balanced, hstop.replies⟩, fun hreq => absurd hidle hreq,
      fun _ hadd' => absurd (hadd.symm.trans hadd') nofun, fun _ => h.held .timerIOReq (by decide), hstop.timer,
      hstop.handler⟩, rfl, rfl, rfl, hrun⟩

theorem Opened.unplug (h : Opened modes n s) (hplugged : s.plugged = true) : Opened modes n (gone modes s) := by
  have hiso := h.held .rtIso (by decide)
  have hhalf : ∀ r, modes.recStream n = some r → Half ((gone modes s).nam r) := fun r hr =>
    (h.half r hr).unplug (modes.paired n r hr).2.1
  cases hin : modes.isInput n with
  | true =>
    have hself := gone_input hin hiso
    have hrecs : ∀ r, modes.nRecMode n = some r → r = n := fun r hr =>
      (some.inj ((if_pos hin : modes.nRecMode n = some n).symm.trans hr)).symm
    refine ⟨?_, ?_, hhalf, fun r hr => ?_, fun hout => absurd (hin.symm.trans hout) nofun, h.hooks, ?_, ?_,
      fun hout => absurd (hin.symm.trans hout) nofun, fun hout => absurd (hin.symm.trans hout) nofun, ?_⟩
    · rw [hself]
      exact h.clock.stopRTIso true
    · rw [hself]
      exact h.held
    · obtain rfl := hrecs r hr
      rw [hself]
      exact h.recs r hr
    all_goals rw [hself]
    · exact h.code
    · exact h.input
    · exact h.unsent
  | false =>
    have hself : (gone modes s).nam n = (s.nam n).nReleaseHook false := by
      show (if (s.nam n).ledger.held .rtIso then (s.nam n).nReleaseHook (modes.isInput n) else s.nam n) = _
      rw [if_pos hiso, hin]
    obtain ⟨hclock, hledger, hfb, hcode, hrun⟩ := h.released hin hplugged
    refine ⟨?_, ?_, hhalf, fun r hr => ?_, fun hout => ?_, h.hooks, ?_, fun hout => absurd (hin.symm.trans hout) nofun, ?_, nofun, ?_⟩
    · rw [hself]
      exact hclock
    · rw [hself, hledger]
      exact h.held
    · have hstream : modes.recStream n = some r := (if_neg (by rw [hin]; nofun) : modes.nRecMode n = _).symm.trans hr
      rw [gone_half_ledger (modes.paired n r hstream).2.1]
      exact h.recs r hr
    · rw [hself, hledger]
      exact h.play hin
    all_goals rw [hself]
    · rw [hcode, hfb]
      exact ⟨fun _ => rfl, fun _ => rfl⟩
    · exact fun _ hr => absurd (hrun.symm.trans hr) nofun
    · exact fun hfb' => absurd (hfb.symm.trans hfb') nofun

theorem Inv.unplug (h : Inv modes s) (hplugged : s.plugged = true) : Inv modes (gone modes s) where
  sync := h.sync
  mode := by
    intro n hn
    have hold := h.mode n hn
    refine ⟨fun hp m hm => ?_, fun hp => (hold.failed hp).unplug, fun hp => (hold.opened hp).unplug hplugged⟩
    rw [gone_without ((hold.closed hp m hm).empty _)]
    exact hold.closed hp m hm
  entry := h.entry
  rest := fun a ha => by
    rw [gone_without ((h.rest a ha).empty _)]
    exact h.rest a ha

def Event.call : Event → Option ℕ
  | .allocAudio n _ _ | .freeAudio n _ _ | .start n .. | .stop n .. => some n
  | .unplug | .timer _ | .hooks .. => none

theorem Inv.allocAudio_closed (h : Inv modes s) (hn : modes.partOf n = none) (hphase : s.phase n ≠ .failed)
    (hiso : (s.nam n).ledger.held .rtIso ≠ true) : s.phase n = .closed := by
  by_contra hp
  exact hiso ((((h.mode n hn).opened ((phase_cases hp).resolve_left hphase))).held .rtIso (by decide))

theorem Inv.step {e : Event} (h : Inv modes s) (hin : InTurn modes s e) (hs : step modes s e = some u) : Inv modes u := by
  cases e with
  | allocAudio n freq o =>
    unfold AudioOpen.step at hs
    obtain ⟨⟨hn, hphase⟩, hs⟩ := ite_none_right_eq_some.mp hs
    split at hs
    · obtain rfl := some.inj hs
      exact h
    · next hiso =>
      obtain rfl := some.inj hs
      exact (h.allocAudio hn (h.allocAudio_closed hn hphase hiso) hin).2
  | freeAudio n a b =>
    obtain ⟨hopen, rfl⟩ := of_guard hs
    exact (h.freeAudio hopen hin).2
  | start n play record ok recOk =>
    obtain ⟨hopen, rfl⟩ := of_guard hs
    have hn := h.entry n (by rw [hopen]; nofun)
    exact h.ofLocal hopen (start_local ..) (((h.mode n hn).opened hopen).start ..)
  | stop n play record ok recOk =>
    obtain ⟨hopen, rfl⟩ := of_guard hs
    have hn := h.entry n (by rw [hopen]; nofun)
    exact h.ofLocal hopen (stop_local ..) (((h.mode n hn).opened hopen).stop ..)
  | unplug =>
    obtain ⟨hplugged, rfl⟩ := of_guard hs
    exact h.unplug hplugged
  | timer n =>
    obtain ⟨hsent, rfl⟩ := of_guard hs
    exact h.timer hsent
  | hooks n due =>
    obtain ⟨hrun, rfl⟩ := of_guard hs
    rw [h.callHooks hrun]
    exact h

theorem Inv.sound (h : Inv modes s) (a : ℕ) : Sound (s.nam a) := by
  rcases h.home a with hshut | ⟨m, hp, hm, ha⟩
  · exact hshut.toSound
  · rcases h.closable hp with hshut | ⟨-, hclock, hhalf⟩
    · exact (hshut a ha).toSound
    · rcases mem_halves.mp ha with rfl | hr
      · exact hclock.toSound
      · exact (hhalf a hr).toSound

theorem Inv.apart (h : Inv modes s) {e : Event} (hcall : e.call = some n) (hin : InTurn modes s e)
    (hs : AudioOpen.step modes s e = some u) : ∀ a, a ∉ modes.halves n → u.nam a = s.nam a := by
  cases e with
  | allocAudio n' freq o =>
    obtain rfl := some.inj hcall
    unfold AudioOpen.step at hs
    obtain ⟨⟨hn, hphase⟩, hs⟩ := ite_none_right_eq_some.mp hs
    split at hs
    · obtain rfl := some.inj hs
      exact fun _ _ => rfl
    · next hiso =>
      obtain rfl := some.inj hs
      exact (h.allocAudio hn (h.allocAudio_closed hn hphase hiso) hin).1.nam
  | freeAudio n' a b =>
    obtain rfl := some.inj hcall
    obtain ⟨hopen, rfl⟩ := of_guard hs
    exact (h.freeAudio hopen hin).1.nam
  | start n' play record ok recOk =>
    obtain rfl := some.inj hcall
    obtain ⟨-, rfl⟩ := of_guard hs
    exact (start_local ..).frame.nam
  | stop n' play record ok recOk =>
    obtain rfl := some.inj hcall
    obtain ⟨-, rfl⟩ := of_guard hs
    exact (stop_local ..).frame.nam
  | unplug | timer | hooks => exact absurd hcall nofun

/-- Nothing is used that is not there, what was obtained is released once or held, and each reply is removed once
or in the port; what is closed holds nothing. Each open mode has its hooks and its handler, and no call on
another changes it. A close whose requests succeed leaves the halves at zero bandwidth on the device. `ok` is what
is asked of a step. -/
structure Settled (modes : AudioModes) (ok : NepClassAudio → Event → Prop) (s : NepClassAudio) : Prop where
  fault : ∀ n, (s.nam n).fault = false
  balanced : ∀ n, (s.nam n).ledger.Balanced
  replies : ∀ n, (s.nam n).replies = (s.nam n).removed + if (s.nam n).request = .replied then 1 else 0
  closed : ∀ n, modes.partOf n = none → s.phase n = .closed → ∀ m ∈ modes.halves n,
    (∀ k, (s.nam m).ledger.got k = (s.nam m).ledger.freed k) ∧ (s.nam m).request = .idle
  hooks : ∀ n, s.phase n = .opened → ∀ m ∈ modes.halves n,
    hData s (modes.isInput m) = some m ∧ (s.nam m).ledger.held .rtIso = true
  apart : ∀ e n u, e.call = some n → ok s e → step modes s e = some u →
    ∀ m, m ≠ n → s.phase m = .opened → ∀ a ∈ modes.halves m, u.nam a = s.nam a
  zero : ∀ n a b u, ok s (.freeAudio n a b) → step modes s (.freeAudio n a b) = some u →
    (s.nam n).ledger.held .psdBase = true → s.plugged = true → a.set = .ok → b.set = .ok →
    ∀ m ∈ modes.halves n, ∀ z, modes.zeroBW (modes.ifNum m) = some z → u.device (modes.ifNum m) = z

theorem Inv.settled (h : Inv modes s) : Settled modes (InTurn modes) s where
  fault := fun n => (h.sound n).fault
  balanced := fun n => (h.sound n).balanced
  replies := fun n => (h.sound n).replies
  closed := fun n hn hp m hm =>
    have hshut := (h.mode n hn).closed hp m hm
    ⟨fun k => hshut.balanced.settled (hshut.empty k), hshut.idle⟩
  hooks := by
    intro n hp m hm
    have hopened := (h.mode n (h.entry n (by rw [hp]; nofun))).opened hp
    refine ⟨hopened.hooks m hm, ?_⟩
    rcases mem_halves.mp hm with rfl | hr
    · exact hopened.held .rtIso (by decide)
    · refine hopened.recs m ?_ .rtIso (by decide)
      unfold AudioModes.nRecMode
      rw [(modes.paired n m hr).2.2]
      exact hr
  apart := by
    intro e n u hcall hin hs m hm hp a ha
    refine h.apart hcall hin hs a ?_
    have hmentry := h.entry m (by rw [hp]; nofun)
    by_cases hn : modes.partOf n = none
    · exact halves_disjoint hn hmentry hm ha
    · -- no mode is called that AHI does not have
      exfalso
      have hclosed : s.phase n = .closed := by
        by_contra hopen
        exact hn (h.entry n hopen)
      cases e with
      | allocAudio n' freq o =>
        obtain rfl := some.inj hcall
        obtain ⟨⟨hn', -⟩, -⟩ := ite_none_right_eq_some.mp hs
        exact hn hn'
      | freeAudio n' a b =>
        obtain rfl := some.inj hcall
        exact (of_guard hs).1 hclosed
      | start n' play record ok recOk | stop n' play record ok recOk =>
        obtain rfl := some.inj hcall
        exact absurd (hclosed.symm.trans (of_guard hs).1) nofun
      | unplug | timer | hooks => exact absurd hcall nofun
  zero := by
    intro n a b u hin hs hbase hplugged ha hb m hm z hz
    obtain ⟨hopen, rfl⟩ := of_guard hs
    exact (subLibFreeAudio_spec h.sync (h.closable hopen) hin).2.2.2 hbase hplugged ha hb m hm z hz

theorem open_close_balanced (modes : AudioModes) (alts : ℕ → ℕ) {evs : List Event}
    (h : Run (step modes) (InTurn modes) (init alts) evs t) : Settled modes (InTurn modes) t :=
  (h.invariant (Inv modes) (.init alts) fun _ _ _ h hin hs => h.step hin hs).settled

def headset : AudioModes where
  isInput := fun n => n = 1
  recStream := fun n => if n = 0 then some 1 else none
  partOf := fun n => if n = 1 then some 0 else none
  ifNum := fun n => n + 1
  alternate := fun _ _ => 1
  zeroBW := fun _ => some 0
  v6 := true
  paired := by
    intro n r hr
    obtain ⟨rfl, hr⟩ := ite_none_right_eq_some.mp hr
    obtain rfl := some.inj hr
    decide

def answered : Answers := ⟨.ok, true⟩

def lucky : Outcome where
  library := true
  ioRequest := true
  timer := true
  half := ⟨true, true, answered, true, true⟩
  mixBuffer := true
  playBuffer0 := true
  playBuffer1 := true
  converter := true
  recHalf := ⟨true, true, answered, true, true⟩
  recBuffer := true
  packetBuffer := true
  recConverter := true

/-- Unplugged while it plays and records, and closed. -/
theorem open_close_balanced_headset :
    ∃ t, exec (step headset) (init fun _ => 0) [.allocAudio 0 48000 lucky, .start 0 true true true true, .unplug, .timer 0,
      .stop 0 true true true true, .freeAudio 0 answered answered] = some t ∧ (t.nam 0).removed = 2 ∧
      ∀ m ∈ headset.halves 0, ∀ k, (t.nam m).ledger.got k = (t.nam m).ledger.freed k := by
  have hmeets : Meets (step headset) (InTurn headset) (init fun _ => 0) [.allocAudio 0 48000 lucky,
      .start 0 true true true true, .unplug, .timer 0, .stop 0 true true true true, .freeAudio 0 answered answered] := by
    refine ⟨fun _ => ⟨fun m hm => absurd rfl hm, rfl, rfl⟩, fun t ht => ⟨trivial, fun t' ht' => ⟨trivial, fun u hu =>
      ⟨trivial, fun u' hu' => ⟨trivial, fun v hv => ⟨fun _ => ?_, fun _ _ => trivial⟩⟩⟩⟩⟩⟩
    obtain rfl := some.inj ht
    obtain rfl := some.inj ht'
    obtain rfl := some.inj hu
    obtain rfl := some.inj hu'
    obtain rfl := some.inj hv
    intro m hm
    rcases mem_halves.mp hm with rfl | hr
    · exact .inl rfl
    · obtain rfl := some.inj hr
      exact .inl rfl
  have hrun := Run.of_exec hmeets rfl
  exact ⟨_, rfl, rfl, fun m hm => ((open_close_balanced headset (fun _ => 0) hrun).closed 0 rfl rfl m hm).1⟩

def speakers : AudioModes where
  isInput := fun _ => false
  recStream := fun _ => none
  partOf := fun _ => none
  ifNum := fun _ => 1
  alternate := fun n _ => n + 1
  zeroBW := fun _ => some 0
  v6 := true
  paired := nofun

def untold : Outcome := { lucky with half := ⟨true, true, ⟨.ok, false⟩, true, true⟩ }

/-- There is one hook for the modes of a direction. After a switch that failed for the library alone the device
stays at the alternate; so it does when the close of a mode that got no pipe sets the library's view. -/
theorem open_close_not_balanced :
    ¬ (∀ modes alts evs t, Run (step modes) anyStep (init alts) evs t → Settled modes anyStep t) ∧
      (∃ t u, exec (step headset) (init fun _ => 0) [.allocAudio 0 48000 untold] = some t ∧
        step headset t (.freeAudio 0 answered answered) = some u ∧ u.current 1 = 0 ∧ u.device 1 = 1) ∧
      ∃ t u, exec (step headset) (init fun _ => 0) [.allocAudio 0 48000 lucky,
          .freeAudio 0 ⟨.refused, true⟩ answered, .allocAudio 0 48000 { lucky with timer := false }] = some t ∧
        step headset t (.freeAudio 0 answered answered) = some u ∧ u.current 1 = 0 ∧ u.device 1 = 1 := by
  refine ⟨fun h => ?_, ⟨_, _, rfl, rfl, rfl, rfl⟩, ⟨_, _, rfl, rfl, rfl, rfl⟩⟩
  have hrun : Run (step speakers) anyStep (init fun _ => 0) [.allocAudio 0 48000 lucky, .allocAudio 1 48000 lucky] _ :=
    .of_exec_any rfl
  have hhook := ((h speakers (fun _ => 0) _ _ hrun).hooks 0 rfl 0 (mem_halves.mpr (.inl rfl))).1
  have hother : some 1 = some 0 := hhook
  exact absurd (some.inj hother) (by decide)

end Neptune.AudioOpen
