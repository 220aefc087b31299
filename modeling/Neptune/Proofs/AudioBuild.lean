import Neptune.Proofs.AudioFree

/-! `subLibAllocAudio` step by step: what the mode and its recording half hold, and that each early return leaves
them as the free path takes them. -/

namespace Neptune.AudioOpen

open List

open Runs Ledgers Early NepClassAudio NepAudioMode

variable {modes : AudioModes} {s t u : NepClassAudio} {x y : NepAudioMode} {n m r : ℕ}

def hData (s : NepClassAudio) (isInput : Bool) : Option ℕ := if isInput then s.inReqHook else s.outReqHook

structure Has (x : NepAudioMode) (L : List Slot) : Prop extends Sound x where
  held : ∀ k, x.ledger.held k = decide (k ∈ L)
  idle : x.request = .idle
  stopped : x.running = false

structure Holds (x : NepAudioMode) (L : List Slot) (P : Bool → PlayerCode → Prop) : Prop extends Has x L where
  quiet : x.playing = false
  fresh : Slot.timerIOReq ∈ L → x.addRequest = false
  fall : x.fallbackTimer = true → Slot.timerIOReq ∈ L
  player : P x.fallbackTimer x.isCode

structure Good (L : List Slot) : Prop where
  base : Slot.psdBase ∈ L
  timer : Slot.timer ∈ L ↔ Slot.timerIOReq ∈ L
  clock : Slot.rtIso ∈ L → Slot.timerIOReq ∈ L

/-- AllocAudio under way: the mode holds `L`, its recording half `M`. -/
structure Building (modes : AudioModes) (n : ℕ) (s : NepClassAudio) (P : Bool → PlayerCode → Prop) (L M : List Slot)
    (t : NepClassAudio) : Prop where
  frame : Frame modes n s t
  sync : Sync modes t
  own : Holds (t.nam n) L P
  half : ∀ r, modes.recStream n = some r → Has (t.nam r) M
  hook : Slot.rtIso ∈ L → hData t (modes.isInput n) = some n
  recHook : ∀ r, modes.recStream n = some r → Slot.rtIso ∈ M → t.inReqHook = some r

structure Failed (modes : AudioModes) (n : ℕ) (s : NepClassAudio) : Prop where
  closable : Closable modes s n
  idle : (s.nam n).request = .idle
  stopped : ∀ m ∈ modes.halves n, (s.nam m).running = false
  clock : (s.nam n).ledger.held .rtIso = true → (s.nam n).ledger.held .timerIOReq = true ∧
    (s.nam n).playing = false ∧ (s.nam n).addRequest = false

def Early (modes : AudioModes) (n : ℕ) (s t : NepClassAudio) : Prop :=
  Frame modes n s t ∧ Sync modes t ∧ Failed modes n t

theorem Frame.refl (s : NepClassAudio) : Frame modes n s s := ⟨fun _ _ => rfl, rfl, rfl, fun _ => rfl, fun _ => rfl⟩

theorem Frame.trans (h : Frame modes n s t) (h' : Frame modes n t u) : Frame modes n s u where
  nam := fun m hm => (h'.nam m hm).trans (h.nam m hm)
  phase := h'.phase.trans h.phase
  plugged := h'.plugged.trans h.plugged
  inReqHook := fun ha => (h'.inReqHook ha).trans (h.inReqHook ha)
  outReqHook := fun ha => (h'.outReqHook ha).trans (h.outReqHook ha)

theorem Frame.on (hm : m ∈ modes.halves n) (f : NepAudioMode → NepAudioMode) : Frame modes n s (s.on m f) :=
  ⟨fun _ ha => on_ne _ fun heq => ha (heq ▸ hm), rfl, rfl, fun _ => rfl, fun _ => rfl⟩

theorem Switched.frame (h : Switched s t) : Frame modes n s t :=
  ⟨fun m _ => congrFun h.nam m, h.phase, h.plugged, fun _ => h.inReqHook, fun _ => h.outReqHook⟩

theorem Has.half {L : List Slot} (h : Has x L) (hL : ∀ k ∈ L, k ∈ recSlots) : Half x where
  toSound := h.toSound
  idle := h.idle
  inside := fun k hk => hL k (of_decide_eq_true ((h.held k).symm.trans hk))
  handler := fun hrun => absurd (h.stopped.symm.trans hrun) nofun

theorem Has.take {L : List Slot} {k : Slot} (h : Has x L) (hk : k ∉ L) : Has (x.take k) (k :: L) where
  fault := h.fault
  balanced := h.balanced.take ((h.held k).trans (decide_eq_false hk))
  replies := h.replies
  held := by
    intro j
    show (x.ledger.take k).held j = _
    rw [Ledger.held_take, h.held]
    by_cases hj : j = k <;> simp [hj]
  idle := h.idle
  stopped := h.stopped

section

variable {P : Bool → PlayerCode → Prop} {L M N : List Slot} {k : Slot}

theorem Holds.take (h : Holds x L P) (hk : k ∉ L) (hne : k ≠ .timerIOReq) : Holds (x.take k) (k :: L) P where
  toHas := h.toHas.take hk
  quiet := h.quiet
  fresh := fun hmem => h.fresh ((mem_cons.mp hmem).resolve_left (Ne.symm hne))
  fall := fun hfall => mem_cons_of_mem _ (h.fall hfall)
  player := h.player

theorem Holds.clock (h : Holds x L P) (hgood : Good L) : Clock x where
  toSound := h.toSound
  owned := fun hreq => absurd h.idle hreq
  came := fun hfall hadd => absurd ((h.fresh (h.fall hfall)).symm.trans hadd) nofun
  there := fun hfall => (h.held _).trans (decide_eq_true (h.fall hfall))
  timer := by rw [h.held, h.held, decide_eq_decide.mpr hgood.timer]
  handler := fun hrun => absurd (h.stopped.symm.trans hrun) nofun

theorem Building.early (h : Building modes n s P L M t) (hgood : Good L) (hM : ∀ k ∈ M, k ∈ recSlots) :
    Early modes n s t := by
  refine ⟨h.frame, h.sync, .inr ⟨?_, h.own.clock hgood, fun r hr => (h.half r hr).half hM⟩, h.own.idle,
    fun m hm => ?_, fun hiso => ?_⟩
  · exact (h.own.held _).trans (decide_eq_true hgood.base)
  · rcases mem_halves.mp hm with rfl | hr
    · exact h.own.stopped
    · exact (h.half m hr).stopped
  · have hthere := hgood.clock (of_decide_eq_true ((h.own.held _).symm.trans hiso))
    exact ⟨(h.own.held _).trans (decide_eq_true hthere), h.own.quiet, h.own.fresh hthere⟩

theorem Building.on {Q : Bool → PlayerCode → Prop} {f : NepAudioMode → NepAudioMode} (h : Building modes n s P L M t)
    (hf : Holds (f (t.nam n)) N Q) (hiso : Slot.rtIso ∈ N → hData t (modes.isInput n) = some n) :
    Building modes n s Q N M (t.on n f) where
  frame := h.frame.trans (.on (mem_halves.mpr (.inl rfl)) f)
  sync := h.sync
  own := by
    rw [on_same]
    exact hf
  half := fun r hr => by
    rw [on_ne _ (rec_ne hr)]
    exact h.half r hr
  hook := hiso
  recHook := h.recHook

theorem Building.onHalf {f : NepAudioMode → NepAudioMode} (h : Building modes n s P L M t)
    (hr : modes.recStream n = some r) (hf : Has (f (t.nam r)) N) (hiso : Slot.rtIso ∈ N → t.inReqHook = some r) :
    Building modes n s P L N (t.on r f) where
  frame := h.frame.trans (.on (mem_halves.mpr (.inr hr)) f)
  sync := h.sync
  own := by
    rw [on_ne _ (Ne.symm (rec_ne hr))]
    exact h.own
  half := fun r' hr' => by
    obtain rfl := Option.some.inj (hr.symm.trans hr')
    rw [on_same]
    exact hf
  hook := h.hook
  recHook := fun r' hr' => by
    obtain rfl := Option.some.inj (hr.symm.trans hr')
    exact hiso

theorem takes_own (k : Slot) (ok : Bool) (hk : k ∉ L) (hne : k ≠ .timerIOReq) (hiso : k ≠ .rtIso) (hgood : Good L)
    (hM : ∀ k ∈ M, k ∈ recSlots) :
    Leads (Building modes n s P L M) (attempt n (·.obtains k ok)) (Building modes n s P (k :: L) M)
      (Early modes n s) := by
  intro t ht
  cases ok with
  | true =>
    refine ⟨fun _ => ht.on (f := fun nam => nam.take k) (ht.own.take hk hne) fun hmem => ?_, nofun⟩
    exact ht.hook ((mem_cons.mp hmem).resolve_left (Ne.symm hiso))
  | false => exact ⟨nofun, fun _ => (ht.on (f := fun nam => nam) ht.own ht.hook).early hgood hM⟩

theorem takes_half (k : Slot) (ok : Bool) (hr : modes.recStream n = some r) (hk : k ∉ M) (hiso : k ≠ .rtIso) (hgood : Good L)
    (hM : ∀ k ∈ M, k ∈ recSlots) :
    Leads (Building modes n s P L M) (attempt r (·.obtains k ok)) (Building modes n s P L (k :: M))
      (Early modes n s) := by
  intro t ht
  cases ok with
  | true =>
    refine ⟨fun _ => ht.onHalf (f := fun nam => nam.take k) hr ((ht.half r hr).take hk) fun hmem => ?_, nofun⟩
    exact ht.recHook r hr ((mem_cons.mp hmem).resolve_left (Ne.symm hiso))
  | false =>
    exact ⟨nofun, fun _ => (ht.onHalf (f := fun nam => nam) hr (ht.half r hr) (ht.recHook r hr)).early hgood hM⟩

theorem checks (ok : Bool) (hgood : Good L) (hM : ∀ k ∈ M, k ∈ recSlots) :
    Leads (Building modes n s P L M) (check ok) (Building modes n s P L M) (Early modes n s) :=
  fun _ ht => ⟨fun _ => ht, fun _ => ht.early hgood hM⟩

theorem selects (alt : ℕ) {a : Answers} (hm : m = n ∧ Slot.ep0Pipe ∈ L ∨ modes.recStream n = some m ∧ Slot.ep0Pipe ∈ M)
    (htold : a.untold = false) (hgood : Good L) (hM : ∀ k ∈ M, k ∈ recSlots) :
    Leads (Building modes n s P L M) (psdSetAltInterface modes m alt a) (Building modes n s P L M)
      (Early modes n s) := by
  intro t ht
  have hswitched := psdSetAltInterface_switched modes t m alt a
  have hpipe : (t.nam m).ledger.held .ep0Pipe = true := by
    rcases hm with ⟨rfl, hmem⟩ | ⟨hr, hmem⟩
    · exact (ht.own.held _).trans (decide_eq_true hmem)
    · exact ((ht.half m hr).held _).trans (decide_eq_true hmem)
  have hbuilt : Building modes n s P L M (psdSetAltInterface modes m alt a t).1 := by
    refine ⟨ht.frame.trans hswitched.frame, psdSetAltInterface_sync ht.sync (.inl htold) (.inl hpipe), ?_, ?_, ?_, ?_⟩
    · rw [hswitched.nam]
      exact ht.own
    · rw [hswitched.nam]
      exact ht.half
    · unfold hData
      rw [hswitched.inReqHook, hswitched.outReqHook]
      exact ht.hook
    · rw [hswitched.inReqHook]
      exact ht.recHook
  exact ⟨fun _ => hbuilt, fun _ => hbuilt.early hgood hM⟩

theorem handler_own (ok : Bool) (hk : Slot.rtIso ∉ L) (hgood : Good L) (hM : ∀ k ∈ M, k ∈ recSlots) :
    Leads (Building modes n s P L M) (inTurn [always (setHooks modes · n), attempt n (·.obtains .rtIso ok)])
      (Building modes n s P (.rtIso :: L) M) (Early modes n s) := by
  have hself : n ∈ modes.halves n := mem_halves.mpr (.inl rfl)
  refine .cons (Q := fun t => Building modes n s P L M t ∧ hData t (modes.isInput n) = some n) ?_ (.cons ?_ .nil)
  · intro t ht
    refine ⟨fun _ => ?_, nofun⟩
    show Building modes n s P L M (setHooks modes t n) ∧ hData (setHooks modes t n) (modes.isInput n) = some n
    unfold setHooks hData
    cases hinput : modes.isInput n with
    | true =>
      refine ⟨⟨ht.frame.trans ⟨fun _ _ => rfl, rfl, rfl, fun hall => ?_, fun _ => rfl⟩, ht.sync, ht.own, ht.half, fun _ => ?_,
        fun r hr => ?_⟩, rfl⟩
      · exact absurd (hinput.symm.trans (hall n hself)) nofun
      · rw [hinput]
        rfl
      · exact absurd (hinput.symm.trans (modes.paired n r hr).2.2) nofun
    | false =>
      refine ⟨⟨ht.frame.trans ⟨fun _ _ => rfl, rfl, rfl, fun _ => rfl, fun hall => ?_⟩, ht.sync, ht.own, ht.half, fun _ => ?_,
        ht.recHook⟩, rfl⟩
      · exact absurd (hinput.symm.trans (hall n hself)) nofun
      · rw [hinput]
        rfl
  · rintro t ⟨ht, hhook⟩
    cases ok with
    | true => exact ⟨fun _ => ht.on (f := fun nam => nam.take .rtIso) (ht.own.take hk nofun) fun _ => hhook, nofun⟩
    | false => exact ⟨nofun, fun _ => (ht.on (f := fun nam => nam) ht.own ht.hook).early hgood hM⟩

theorem handler_half (ok : Bool) (hr : modes.recStream n = some r) (hk : Slot.rtIso ∉ M) (hgood : Good L)
    (hM : ∀ k ∈ M, k ∈ recSlots) :
    Leads (Building modes n s P L M) (inTurn [always (setHooks modes · r), attempt r (·.obtains .rtIso ok)])
      (Building modes n s P L (.rtIso :: M)) (Early modes n s) := by
  obtain ⟨-, hinput, hout⟩ := modes.paired n r hr
  refine .cons (Q := fun t => Building modes n s P L M t ∧ t.inReqHook = some r) ?_ (.cons ?_ .nil)
  · intro t ht
    refine ⟨fun _ => ?_, nofun⟩
    show Building modes n s P L M (setHooks modes t r) ∧ (setHooks modes t r).inReqHook = some r
    unfold setHooks
    rw [if_pos hinput]
    refine ⟨⟨ht.frame.trans ⟨fun _ _ => rfl, rfl, rfl, fun hall => ?_, fun _ => rfl⟩, ht.sync, ht.own, ht.half, fun hiso => ?_,
      fun r' hr' _ => hr.symm.trans hr'⟩, rfl⟩
    · exact absurd (hinput.symm.trans (hall r (mem_halves.mpr (.inr hr)))) nofun
    · have hhook := ht.hook hiso
      rw [hout] at hhook ⊢
      exact hhook
  · rintro t ⟨ht, hhook⟩
    cases ok with
    | true =>
      exact ⟨fun _ => ht.onHalf (f := fun nam => nam.take .rtIso) hr ((ht.half r hr).take hk) fun _ => hhook, nofun⟩
    | false =>
      exact ⟨nofun, fun _ => (ht.onHalf (f := fun nam => nam) hr (ht.half r hr) (ht.recHook r hr)).early hgood hM⟩

theorem both_own (k k' : Slot) (ok ok' : Bool) (hk : k ∉ L) (hk' : k' ∉ L) (hkk : k' ≠ k) (hne : k ≠ .timerIOReq ∧ k' ≠ .timerIOReq)
    (hiso : k ≠ .rtIso ∧ k' ≠ .rtIso) (hgood : ∀ N ∈ [L, k :: L, k' :: L, k' :: k :: L], Good N)
    (hM : ∀ k ∈ M, k ∈ recSlots) :
    Leads (Building modes n s P L M) (attempt n (·.obtainsBoth k k' ok ok')) (Building modes n s P (k' :: k :: L) M)
      (Early modes n s) := by
  intro t ht
  have hsecond : k' ∉ k :: L := fun hmem => (mem_cons.mp hmem).elim hkk hk'
  have hhook : ∀ N : List Slot, (Slot.rtIso ∈ N → Slot.rtIso ∈ L) → Slot.rtIso ∈ N → hData t (modes.isInput n) = some n :=
    fun N hN hmem => ht.hook (hN hmem)
  have hdrop : Slot.rtIso ∈ k :: L → Slot.rtIso ∈ L := fun hmem => (mem_cons.mp hmem).resolve_left (Ne.symm hiso.1)
  have hdrop' : ∀ N : List Slot, Slot.rtIso ∈ k' :: N → Slot.rtIso ∈ N := fun N hmem =>
    (mem_cons.mp hmem).resolve_left (Ne.symm hiso.2)
  cases ok with
  | true =>
    cases ok' with
    | true =>
      exact ⟨fun _ => ht.on (f := fun nam => (nam.take k).take k') ((ht.own.take hk hne.1).take hsecond hne.2)
        (hhook _ fun hmem => hdrop (hdrop' _ hmem)), nofun⟩
    | false =>
      exact ⟨nofun, fun _ => (ht.on (f := fun nam => nam.take k) (ht.own.take hk hne.1) (hhook _ hdrop)).early
        (hgood _ (by simp)) hM⟩
  | false =>
    cases ok' with
    | true =>
      exact ⟨nofun, fun _ => (ht.on (f := fun nam => nam.take k') (ht.own.take hk' hne.2) (hhook _ (hdrop' _))).early
        (hgood _ (by simp)) hM⟩
    | false => exact ⟨nofun, fun _ => (ht.on (f := fun nam => nam) ht.own ht.hook).early (hgood _ (by simp)) hM⟩

theorem both_half (k k' : Slot) (ok ok' : Bool) (hr : modes.recStream n = some r) (hk : k ∉ M) (hk' : k' ∉ M) (hkk : k' ≠ k)
    (hiso : k ≠ .rtIso ∧ k' ≠ .rtIso) (hgood : Good L) (hM : ∀ j ∈ k' :: k :: M, j ∈ recSlots) :
    Leads (Building modes n s P L M) (attempt r (·.obtainsBoth k k' ok ok')) (Building modes n s P L (k' :: k :: M))
      (Early modes n s) := by
  intro t ht
  have hsecond : k' ∉ k :: M := fun hmem => (mem_cons.mp hmem).elim hkk hk'
  have hdrop : Slot.rtIso ∈ k :: M → Slot.rtIso ∈ M := fun hmem => (mem_cons.mp hmem).resolve_left (Ne.symm hiso.1)
  have hdrop' : ∀ N : List Slot, Slot.rtIso ∈ k' :: N → Slot.rtIso ∈ N := fun N hmem =>
    (mem_cons.mp hmem).resolve_left (Ne.symm hiso.2)
  have hold := ht.recHook r hr
  have hhalf := ht.half r hr
  cases ok with
  | true =>
    cases ok' with
    | true =>
      exact ⟨fun _ => ht.onHalf (f := fun nam => (nam.take k).take k') hr ((hhalf.take hk).take hsecond)
        fun hmem => hold (hdrop (hdrop' _ hmem)), nofun⟩
    | false =>
      exact ⟨nofun, fun _ => (ht.onHalf (f := fun nam => nam.take k) hr (hhalf.take hk)
        fun hmem => hold (hdrop hmem)).early hgood fun j hj => hM j (mem_cons_of_mem _ hj)⟩
  | false =>
    cases ok' with
    | true =>
      refine ⟨nofun, fun _ => (ht.onHalf (f := fun nam => nam.take k') hr (hhalf.take hk')
        fun hmem => hold (hdrop' _ hmem)).early hgood fun j hj => hM j ?_⟩
      exact (mem_cons.mp hj).elim (fun h => h ▸ mem_cons_self ..)
        fun h => mem_cons_of_mem _ (mem_cons_of_mem _ h)
    | false =>
      exact ⟨nofun, fun _ => (ht.onHalf (f := fun nam => nam) hr hhalf hold).early hgood
        fun j hj => hM j (mem_cons_of_mem _ (mem_cons_of_mem _ hj))⟩

end

def untuned (fallback : Bool) (_ : PlayerCode) : Prop := fallback = false

def Tuned (modes : AudioModes) (n : ℕ) (fallback : Bool) (code : PlayerCode) : Prop :=
  fallback = modes.isInput n ∧ (code = .dummy ↔ fallback = true)

abbrev timerSlots : List Slot := [.timer, .timerIOReq, .psdBase]

theorem opens_timer (o : Outcome) (hsync : Sync modes s) (hshut : ∀ m ∈ modes.halves n, Shut (s.nam m)) :
    Leads (fun t => t = s) (inTurn (openTimer n o)) (Building modes n s untuned timerSlots []) (Early modes n s) := by
  have hself : n ∈ modes.halves n := mem_halves.mpr (.inl rfl)
  have hown := hshut n hself
  have hempty : Has (s.nam n) [] :=
    ⟨hown.toSound, fun k => (hown.empty k).trans (decide_eq_false not_mem_nil).symm, hown.idle, hown.stopped⟩
  have hnone : ∀ m ∈ modes.halves n, Has (s.nam m) [] := fun m hm =>
    ⟨(hshut m hm).toSound, fun k => ((hshut m hm).empty k).trans (decide_eq_false not_mem_nil).symm,
      (hshut m hm).idle, (hshut m hm).stopped⟩
  have hgood : Good [Slot.psdBase] := ⟨by decide, by decide, by decide⟩
  have hM : ∀ k ∈ ([] : List Slot), k ∈ recSlots := fun k hk => absurd hk not_mem_nil
  refine .cons (Q := fun t => t = s.on n (·.take .psdBase)) ?_ (.cons (Q := Building modes n s untuned [.psdBase] []) ?_
    (.cons (Q := Building modes n s untuned [.timerIOReq, .psdBase] []) ?_ (.cons ?_ .nil)))
  · rintro t rfl
    cases o.library with
    | true => exact ⟨fun _ => rfl, nofun⟩
    | false =>
      refine ⟨nofun, fun _ => ⟨.on hself fun nam => (nam.obtains .psdBase false).1, hsync, ?_⟩⟩
      have hsame : ∀ m, ((attempt n (·.obtains .psdBase false) t).1).nam m = t.nam m := by
        intro m
        show (t.on n fun nam => nam).nam m = _
        by_cases hm : m = n
        · rw [hm, on_same]
        · rw [on_ne _ hm]
      refine ⟨.inl fun m hm => ?_, ?_, fun m hm => ?_, fun hiso => ?_⟩
      · rw [hsame]
        exact hshut m hm
      · rw [hsame]
        exact hown.idle
      · rw [hsame]
        exact (hshut m hm).stopped
      · rw [hsame] at hiso
        exact absurd ((hown.empty _).symm.trans hiso) nofun
  · rintro t rfl
    refine ⟨fun _ => ?_, nofun⟩
    show Building modes n s untuned [.psdBase] [] ((s.on n (·.take .psdBase)).on n (·.resetTimer))
    rw [on_on]
    have htake := hempty.take (k := .psdBase) not_mem_nil
    refine ⟨.on hself _, hsync, ?_, fun r hr => ?_, fun h => absurd h (by decide), fun r _ h => absurd h (by decide)⟩
    · rw [on_same]
      refine ⟨⟨⟨?_, htake.balanced, htake.replies⟩, htake.held, htake.idle, htake.stopped⟩, rfl,
        fun h => absurd h (by decide), fun h => absurd h nofun, rfl⟩
      show ((s.nam n).fault || decide ((s.nam n).request = Request.replied)) = false
      rw [hown.fault, hown.idle]
      rfl
    · rw [on_ne _ (rec_ne hr)]
      exact hnone r (mem_halves.mpr (.inr hr))
  · intro t ht
    cases o.ioRequest with
    | true =>
      refine ⟨fun _ => ht.on (f := fun nam => { nam.take .timerIOReq with addRequest := false, request := .idle }) ?_
        fun h => absurd h (by decide), nofun⟩
      have htake := ht.own.toHas.take (k := .timerIOReq) (by decide)
      have hreplies := ht.own.replies
      rw [ht.own.idle, if_neg nofun] at hreplies
      exact ⟨⟨⟨htake.fault, htake.balanced, hreplies⟩, htake.held, rfl, htake.stopped⟩, ht.own.quiet, fun _ => rfl,
        fun _ => by decide, ht.own.player⟩
    | false => exact ⟨nofun, fun _ => (ht.on (f := fun nam => nam) ht.own ht.hook).early hgood hM⟩
  · intro t ht
    cases o.timer with
    | true =>
      exact ⟨fun _ => ht.on (f := fun nam => nam.take .timer) (ht.own.take (by decide) nofun) fun h => absurd h (by decide),
        nofun⟩
    | false =>
      refine ⟨nofun, fun _ => (ht.on (f := fun nam => nam.drop [.timerIOReq]) (N := [.psdBase]) (Q := untuned) ?_
        fun h => absurd h (by decide)).early hgood hM⟩
      refine ⟨⟨ht.own.toSound.drop _, fun k => ?_, ht.own.idle, ht.own.stopped⟩, ht.own.quiet,
        fun h => absurd h (by decide), fun h => absurd (ht.own.player.symm.trans h) nofun, ht.own.player⟩
      rw [held_drop, ht.own.held]
      cases k <;> decide

abbrev halfSlots : List Slot := [.rtIso, .ep0Pipe, .taskMsgPort]

theorem opens_half (freq : ℕ) {o : HalfOutcome} (htold : o.alt.untold = false) :
    Leads (Building modes n s untuned timerSlots []) (inTurn (openHalf modes n freq o))
      (Building modes n s untuned (halfSlots ++ timerSlots) []) (Early modes n s) := by
  have hM : ∀ k ∈ ([] : List Slot), k ∈ recSlots := fun k hk => absurd hk not_mem_nil
  have hgood : Good timerSlots := ⟨by decide, by decide, by decide⟩
  have hgood' : Good (.taskMsgPort :: timerSlots) := ⟨by decide, by decide, by decide⟩
  have hgood'' : Good (.ep0Pipe :: .taskMsgPort :: timerSlots) := ⟨by decide, by decide, by decide⟩
  refine .cons (takes_own _ _ (by decide) nofun nofun hgood hM)
    (.cons (takes_own _ _ (by decide) nofun nofun hgood' hM) ?_)
  exact .cons (selects _ (.inl ⟨rfl, by decide⟩) htold hgood'' hM) (.cons (checks _ hgood'' hM)
    (handler_own _ (by decide) hgood'' hM))

theorem opens_recHalf {L : List Slot} {P : Bool → PlayerCode → Prop} (freq : ℕ) {o : HalfOutcome}
    (hr : modes.recStream n = some r)
    (hgood : Good L) (htold : o.alt.untold = false) :
    Leads (Building modes n s P L []) (inTurn (openHalf modes r freq o)) (Building modes n s P L halfSlots)
      (Early modes n s) := by
  have hM : ∀ k ∈ ([] : List Slot), k ∈ recSlots := fun k hk => absurd hk not_mem_nil
  have hM' : ∀ k ∈ [Slot.taskMsgPort], k ∈ recSlots := by decide
  have hM'' : ∀ k ∈ [Slot.ep0Pipe, .taskMsgPort], k ∈ recSlots := by decide
  refine .cons (takes_half _ _ hr not_mem_nil nofun hgood hM)
    (.cons (takes_half _ _ hr (by decide) nofun hgood hM') ?_)
  exact .cons (selects _ (.inr ⟨hr, by decide⟩) htold hgood hM'') (.cons (checks _ hgood hM'')
    (handler_half _ hr (by decide) hgood hM''))

structure Opened (modes : AudioModes) (n : ℕ) (s : NepClassAudio) : Prop where
  clock : Clock (s.nam n)
  held : ∀ k ∈ [Slot.psdBase, .timerIOReq, .rtIso, .mixBuffer], (s.nam n).ledger.held k = true
  half : ∀ r, modes.recStream n = some r → Half (s.nam r)
  recs : ∀ r, modes.nRecMode n = some r → ∀ k ∈ [Slot.rtIso, .recBuffer, .packetBuffer], (s.nam r).ledger.held k = true
  play : modes.isInput n = false → ∀ k ∈ [Slot.playBuffer0, .playBuffer1], (s.nam n).ledger.held k = true
  hooks : ∀ m ∈ modes.halves n, hData s (modes.isInput m) = some m
  code : (s.nam n).isCode = .dummy ↔ (s.nam n).fallbackTimer = true
  input : modes.isInput n = true → (s.nam n).fallbackTimer = true
  steady : modes.isInput n = false → (s.nam n).running = true → (s.nam n).fallbackTimer = false
  late : modes.isInput n = false → s.plugged = true → (s.nam n).fallbackTimer = false
  unsent : (s.nam n).fallbackTimer = false → (s.nam n).addRequest = false

theorem Building.opened {L M : List Slot} (h : Building modes n s (Tuned modes n) L M t) (hgood : Good L)
    (hM : ∀ k ∈ M, k ∈ recSlots) (hheld : ∀ k ∈ [Slot.psdBase, .timerIOReq, .rtIso, .mixBuffer], k ∈ L)
    (hplay : modes.isInput n = false → ∀ k ∈ [Slot.playBuffer0, .playBuffer1], k ∈ L)
    (hinput : modes.isInput n = true → ∀ k ∈ [Slot.rtIso, .recBuffer, .packetBuffer], k ∈ L)
    (hrec : ∀ r, modes.recStream n = some r → ∀ k ∈ [Slot.rtIso, .recBuffer, .packetBuffer], k ∈ M) :
    Opened modes n t where
  clock := h.own.clock hgood
  held := fun k hk => (h.own.held k).trans (decide_eq_true (hheld k hk))
  half := fun r hr => (h.half r hr).half hM
  recs := by
    intro r hr k hk
    unfold AudioModes.nRecMode at hr
    split at hr
    · next hin =>
      obtain rfl := Option.some.inj hr
      exact (h.own.held k).trans (decide_eq_true (hinput hin k hk))
    · exact ((h.half r hr).held k).trans (decide_eq_true (hrec r hr k hk))
  play := fun hin k hk => (h.own.held k).trans (decide_eq_true (hplay hin k hk))
  hooks := by
    intro m hm
    rcases mem_halves.mp hm with rfl | hr
    · exact h.hook (hheld .rtIso (by decide))
    · rw [(modes.paired n m hr).2.1]
      exact h.recHook m hr (hrec m hr .rtIso (by decide))
  code := h.own.player.2
  input := fun hin => h.own.player.1.trans hin
  steady := fun hin _ => h.own.player.1.trans hin
  late := fun hin _ => h.own.player.1.trans hin
  unsent := fun _ => h.own.fresh (hheld .timerIOReq (by decide))

theorem subLibAllocAudio_spec (freq : ℕ) {o : Outcome} (hsync : Sync modes s)
    (hshut : ∀ m ∈ modes.halves n, Shut (s.nam m)) (htold : o.half.alt.untold = false)
    (htold' : o.recHalf.alt.untold = false) :
    Leads (fun t => t = s) (subLibAllocAudio modes n freq o)
      (fun t => Frame modes n s t ∧ Sync modes t ∧ Opened modes n t) (Early modes n s) := by
  have hM : ∀ k ∈ ([] : List Slot), k ∈ recSlots := fun k hk => absurd hk not_mem_nil
  have hgood : Good (halfSlots ++ timerSlots) := ⟨by decide, by decide, by decide⟩
  have hgood' : Good (.mixBuffer :: (halfSlots ++ timerSlots)) := ⟨by decide, by decide, by decide⟩
  -- up to the mix buffer
  have hmix := (((opens_timer o hsync hshut).append (opens_half freq htold)).append
    (.cons (takes_own .mixBuffer o.mixBuffer (by decide) nofun nofun hgood hM) .nil))
  unfold subLibAllocAudio
  cases hin : modes.isInput n with
  | true =>
    have hrec : modes.nRecMode n = some n := if_pos hin
    have hplay : openPlayer modes n o = [always (·.on n (·.setPlayer true modes.v6))] := if_pos hin
    have hrecording : openRecording modes n freq o =
        [attempt n (·.obtainsBoth .recBuffer .packetBuffer o.recBuffer o.packetBuffer), check o.recConverter] := by
      unfold openRecording
      rw [hrec]
      dsimp only
      rw [if_pos rfl]
      rfl
    have hnone : ∀ r, modes.recStream n ≠ some r := fun r hr =>
      absurd (hin.symm.trans (modes.paired n r hr).2.2) nofun
    rw [hplay, hrecording]
    have hset : Leads (Building modes n s untuned (.mixBuffer :: (halfSlots ++ timerSlots)) [])
        (always (·.on n (·.setPlayer true modes.v6)))
        (Building modes n s (Tuned modes n) (.mixBuffer :: (halfSlots ++ timerSlots)) []) (Early modes n s) := by
      intro t ht
      refine ⟨fun _ => ht.on (f := fun nam => nam.setPlayer true modes.v6) ?_ ht.hook, nofun⟩
      exact ⟨⟨⟨ht.own.fault, ht.own.balanced, ht.own.replies⟩, ht.own.held, ht.own.idle, ht.own.stopped⟩, ht.own.quiet,
        ht.own.fresh, fun _ => by decide, hin.symm, ⟨fun _ => rfl, fun _ => rfl⟩⟩
    have hgoods : ∀ N ∈ [Slot.mixBuffer :: (halfSlots ++ timerSlots), .recBuffer :: .mixBuffer :: (halfSlots ++ timerSlots),
        .packetBuffer :: .mixBuffer :: (halfSlots ++ timerSlots),
        .packetBuffer :: .recBuffer :: .mixBuffer :: (halfSlots ++ timerSlots)], Good N := by
      intro N hN
      simp only [mem_cons, not_mem_nil, or_false] at hN
      rcases hN with rfl | rfl | rfl | rfl <;> exact ⟨by decide, by decide, by decide⟩
    have hall := ((hmix.append (.cons hset .nil)).append (.cons (both_own .recBuffer .packetBuffer o.recBuffer
      o.packetBuffer (by decide) (by decide) nofun ⟨nofun, nofun⟩ ⟨nofun, nofun⟩ hgoods hM)
      (.cons (checks o.recConverter (hgoods _ (by simp)) hM) .nil)))
    intro t ht
    refine ⟨fun hgo => ?_, (hall t ht).2⟩
    have hbuilt := (hall t ht).1 hgo
    exact ⟨hbuilt.frame, hbuilt.sync, hbuilt.opened (hgoods _ (by simp)) hM (by decide)
      (fun h => absurd (hin.symm.trans h) nofun) (fun _ => by decide) fun r hr => absurd hr (hnone r)⟩
  | false =>
    have hrec : modes.nRecMode n = modes.recStream n := if_neg (by rw [hin]; nofun)
    have hplay : openPlayer modes n o =
        [attempt n (·.obtainsBoth .playBuffer0 .playBuffer1 o.playBuffer0 o.playBuffer1),
          always (·.on n (·.setPlayer false modes.v6)), check o.converter] := if_neg (by rw [hin]; nofun)
    rw [hplay]
    have hgoods : ∀ N ∈ [Slot.mixBuffer :: (halfSlots ++ timerSlots), .playBuffer0 :: .mixBuffer :: (halfSlots ++ timerSlots),
        .playBuffer1 :: .mixBuffer :: (halfSlots ++ timerSlots),
        .playBuffer1 :: .playBuffer0 :: .mixBuffer :: (halfSlots ++ timerSlots)], Good N := by
      intro N hN
      simp only [mem_cons, not_mem_nil, or_false] at hN
      rcases hN with rfl | rfl | rfl | rfl <;> exact ⟨by decide, by decide, by decide⟩
    have hgoodL : Good (.playBuffer1 :: .playBuffer0 :: .mixBuffer :: (halfSlots ++ timerSlots)) := hgoods _ (by simp)
    have hset : Leads
        (Building modes n s untuned (.playBuffer1 :: .playBuffer0 :: .mixBuffer :: (halfSlots ++ timerSlots)) [])
        (always (·.on n (·.setPlayer false modes.v6)))
        (Building modes n s (Tuned modes n) (.playBuffer1 :: .playBuffer0 :: .mixBuffer :: (halfSlots ++ timerSlots)) [])
        (Early modes n s) := by
      intro t ht
      refine ⟨fun _ => ht.on (f := fun nam => nam.setPlayer false modes.v6) ?_ ht.hook, nofun⟩
      refine ⟨⟨⟨ht.own.fault, ht.own.balanced, ht.own.replies⟩, ht.own.held, ht.own.idle, ht.own.stopped⟩, ht.own.quiet,
        ht.own.fresh, ht.own.fall, ht.own.player.trans hin.symm, ?_⟩
      have huntuned : (t.nam n).fallbackTimer = false := ht.own.player
      show (if modes.v6 then PlayerCode.v6 else .v4) = .dummy ↔ (t.nam n).fallbackTimer = true
      rw [huntuned]
      cases modes.v6 <;> decide
    have hplayed := hmix.append (.cons (both_own .playBuffer0 .playBuffer1 o.playBuffer0 o.playBuffer1
      (by decide) (by decide) nofun ⟨nofun, nofun⟩ ⟨nofun, nofun⟩ hgoods hM)
      (.cons hset (.cons (checks o.converter hgoodL hM) .nil)))
    have hopened : ∀ {M}, (∀ k ∈ M, k ∈ recSlots) →
        (∀ r, modes.recStream n = some r → ∀ k ∈ [Slot.rtIso, .recBuffer, .packetBuffer], k ∈ M) → ∀ u,
        Building modes n s (Tuned modes n) (.playBuffer1 :: .playBuffer0 :: .mixBuffer :: (halfSlots ++ timerSlots)) M u →
        Frame modes n s u ∧ Sync modes u ∧ Opened modes n u := by
      intro M hM hmem u hbuilt
      exact ⟨hbuilt.frame, hbuilt.sync, hbuilt.opened hgoodL hM (by decide) (fun _ => by decide)
        (fun h => absurd (hin.symm.trans h) nofun) hmem⟩
    cases hstream : modes.recStream n with
    | none =>
      have hrecording : openRecording modes n freq o = [] := by
        unfold openRecording
        rw [hrec, hstream]
      rw [hrecording]
      have hall := hplayed.append .nil
      intro t ht
      exact ⟨fun hgo => hopened hM (fun r hr => absurd (hstream.symm.trans hr) nofun) _ ((hall t ht).1 hgo), (hall t ht).2⟩
    | some r =>
      have hrecording : openRecording modes n freq o = openHalf modes r freq o.recHalf ++
          [attempt r (·.obtainsBoth .recBuffer .packetBuffer o.recBuffer o.packetBuffer), check o.recConverter] := by
        unfold openRecording
        rw [hrec, hstream]
        dsimp only
        rw [if_neg (rec_ne hstream)]
      have hM' : ∀ k ∈ Slot.packetBuffer :: .recBuffer :: halfSlots, k ∈ recSlots := by decide
      rw [hrecording]
      have hall := hplayed.append ((opens_recHalf freq hstream hgoodL htold').append
        (.cons (both_half .recBuffer .packetBuffer o.recBuffer o.packetBuffer hstream
          (by decide) (by decide) nofun ⟨nofun, nofun⟩ hgoodL hM') (.cons (checks o.recConverter hgoodL hM') .nil)))
      intro t ht
      refine ⟨fun hgo => hopened hM' (fun r' _ => ?_) _ ((hall t ht).1 hgo), (hall t ht).2⟩
      decide

end Neptune.AudioOpen
