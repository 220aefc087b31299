import Neptune.Spec.DeviceTeardown

/-! A removed device is torn down once, in every run that keeps the collector of `psdFreePipe`,
the wait loop of `psdRemHardware` and `psdAllocPipe` out of each other's way. -/

namespace Neptune

open Runs

namespace Frame

def polling : Frame → Bool
  | .poll _ => true
  | .decide => true
  | .abandon => true
  | .abandonRemove => true
  | _ => false

def tearing : Frame → Bool
  | .contents => true
  | .destroy => true
  | .destroyPipe => true
  | .unlock => true
  | .remove => true
  | _ => false

def disarmed : Frame → Bool
  | .contents => false
  | f => f.tearing

def ownPipe : Frame → ℕ
  | .destroyPipe => 1
  | _ => 0

end Frame

namespace Dev

variable {τ : Type} {d d' : Dev τ} {t u v : τ} {f g : Frame}

def Polling (d : Dev τ) (u : τ) : Prop := ∀ f ∈ d.calls u, f.polling = true

def RemovalCond (d : Dev τ) : Event τ → Prop
  -- the counter does not wrap, and no pipe is allocated while the device is torn down
  | .allocPipe _ => d.useCnt + 1 < 2 ^ 16 ∧ ∀ u, ∀ f ∈ d.calls u, f.tearing = false
  -- the last pipe is not freed while `pFreeDevice` is running or due elsewhere
  | .freePipe _ => d.useCnt = 1 → d.delExpunge = true → ∀ u, d.Polling u
  -- nor between the test and the flag; and nobody else has freed the device, or is about to,
  -- when `psdRemHardware` finds no pipe
  | .advance t _ =>
    ((d.calls t).head? = some .defer → d.useCnt ≠ 0) ∧
      ((d.calls t).head? = some .decide → d.useCnt = 0 →
        d.node = .deadDevices ∧ ∀ u ≠ t, d.Polling u)
  | _ => True

structure Busy (d : Dev τ) (t : τ) (f : Frame) : Prop where
  calls : d.calls t = [f]
  works : f.polling = false
  others : ∀ u ≠ t, d.Polling u
  node : d.node ≠ .devices
  torn : d.torn = if f.tearing then 1 else 0
  flag : f.disarmed = true → d.delExpunge = false
  pipes : f.tearing = true → d.pipes = 0
  useCnt : d.useCnt = d.pipes + f.ownPipe

inductive Stage (d : Dev τ) : Prop
  | live : d.node = .devices → d.freed = false → d.torn = 0 → d.delExpunge = false →
      (∀ u, d.calls u = []) → d.useCnt = d.pipes → Stage d
  | busy (t : τ) (f : Frame) : d.Busy t f → Stage d
  | waiting : (∀ u, d.Polling u) → d.node ≠ .devices → d.torn = 0 → d.delExpunge = true →
      0 < d.pipes → d.useCnt = d.pipes → Stage d
  | torn : (∀ u, d.Polling u) → d.node = .removed → d.torn = 1 → d.delExpunge = false →
      d.useCnt = d.pipes → Stage d
  | abandoned : (∀ u, d.Polling u) → d.node ≠ .devices → d.torn = 0 → d.abandoned = true →
      d.useCnt = d.pipes → Stage d

structure Inv (d : Dev τ) : Prop where
  stage : d.Stage
  word : d.useCnt < 2 ^ 16
  freed : d.node ≠ .devices → d.freed = true
  abandoned : ∀ u, .abandon ∈ d.calls u → d.abandoned = true
  single : ∀ u, (d.calls u).length ≤ 1

theorem Inv.init : (init : Dev τ).Inv :=
  ⟨.live rfl rfl rfl rfl (fun _ => rfl) rfl, by simp [Dev.init], by simp [Dev.init],
    by simp [Dev.init], by simp [Dev.init]⟩

theorem Stage.at_work {rest : List Frame} (h : d.Stage) (hc : d.calls t = f :: rest)
    (hf : f.polling = false) : rest = [] ∧ d.Busy t f := by
  have hnot : ¬ d.Polling t := by
    intro hp
    have := hp f (by simp [hc])
    rw [hf] at this
    cases this
  cases h with
  | live _ _ _ _ h5 => rw [h5 t] at hc; cases hc
  | busy u g hb =>
    have hu : u = t := by
      by_contra hne
      exact hnot (hb.others t (Ne.symm hne))
    subst hu
    have := hb.calls
    rw [hc] at this
    cases this
    exact ⟨rfl, hb⟩
  | waiting h1 => exact absurd (h1 t) hnot
  | torn h1 => exact absurd (h1 t) hnot
  | abandoned h1 => exact absurd (h1 t) hnot

variable [DecidableEq τ]

section setCalls

variable (d : Dev τ) (t : τ) (fs : List Frame)

@[simp] theorem setCalls_useCnt : (d.setCalls t fs).useCnt = d.useCnt := rfl
@[simp] theorem setCalls_node : (d.setCalls t fs).node = d.node := rfl
@[simp] theorem setCalls_pipes : (d.setCalls t fs).pipes = d.pipes := rfl

@[simp] theorem setCalls_self : (d.setCalls t fs).calls t = fs := by simp [setCalls]

theorem setCalls_ne (h : u ≠ t) : (d.setCalls t fs).calls u = d.calls u := by
  simp [setCalls, h]

end setCalls

theorem lockWriteDevice_eq (h : d.lockWriteDevice t = some d') :
    ∃ x, d' = { d with lock := x } := by
  unfold lockWriteDevice at h
  split at h
  · cases h
    exact ⟨_, rfl⟩
  · split at h
    · cases h
      exact ⟨_, rfl⟩
    · cases h

omit [DecidableEq τ] in
theorem unlockDevice_eq (d : Dev τ) : ∃ x, d.unlockDevice = { d with lock := x } := by
  unfold unlockDevice
  split
  · exact ⟨d.lock, rfl⟩
  · exact ⟨_, rfl⟩

structure Moves (d d' : Dev τ) (t : τ) (fs : List Frame) : Prop where
  self : d'.calls t = fs
  other : ∀ u ≠ t, d'.calls u = d.calls u
  node : d'.node = d.node ∨ d'.node = .removed
  freed : d'.freed = d.freed
  abandoned : d.abandoned = true → d'.abandoned = true

variable {fs : List Frame}

theorem Moves.setCalls (hc : d'.calls = d.calls)
    (hn : d'.node = d.node ∨ d'.node = .removed) (hf : d'.freed = d.freed)
    (ha : d.abandoned = true → d'.abandoned = true) : Moves d (d'.setCalls t fs) t fs :=
  ⟨by simp, fun u hu => by rw [setCalls_ne d' t fs hu, hc], hn, hf, ha⟩

omit [DecidableEq τ] in
theorem Moves.not_devices (h : Moves d d' t fs) (hn : d.node ≠ .devices) :
    d'.node ≠ .devices := by
  rcases h.node with hd | hd
  · rwa [hd]
  · simp [hd]

omit [DecidableEq τ] in
theorem Moves.polling (h : Moves d d' t fs) (hu : u ≠ t) (hp : d.Polling u) :
    d'.Polling u := by
  intro f hf
  rw [h.other u hu] at hf
  exact hp f hf

omit [DecidableEq τ] in
theorem Inv.moves (h : d.Inv) (hm : Moves d d' t fs) (hs : d'.Stage)
    (hn : d.node ≠ .devices) (hw : d'.useCnt < 2 ^ 16)
    (ha : .abandon ∈ fs → d'.abandoned = true) (hl : fs.length ≤ 1) : d'.Inv := by
  refine ⟨hs, hw, fun _ => hm.freed.trans (h.freed hn), fun u hu => ?_, fun u => ?_⟩
  · by_cases hut : u = t
    · subst hut
      rw [hm.self] at hu
      exact ha hu
    · rw [hm.other u hut] at hu
      exact hm.abandoned (h.abandoned u hu)
  · by_cases hut : u = t
    · subst hut
      rwa [hm.self]
    · rw [hm.other u hut]
      exact h.single u

theorem Inv.poll (h : d.Inv) (hm : Moves d d' t fs) (hn : d.node ≠ .devices)
    (hp : d.Polling t) (hfs : ∀ f ∈ fs, f.polling = true) (hu : d'.useCnt = d.useCnt)
    (hpi : d'.pipes = d.pipes) (ht : d'.torn = d.torn)
    (hfl : d'.delExpunge = d.delExpunge ∨ d'.delExpunge = false ∧ d'.abandoned = true)
    (ha : .abandon ∈ fs → d'.abandoned = true) (hl : fs.length ≤ 1) : d'.Inv := by
  have hpt : d'.Polling t := by
    intro f hf
    rw [hm.self] at hf
    exact hfs f hf
  have hall (hd : ∀ u, d.Polling u) (u : τ) : d'.Polling u := by
    by_cases hut : u = t
    · rw [hut]
      exact hpt
    · exact hm.polling hut (hd u)
  refine h.moves hm ?_ hn (by rw [hu]; exact h.word) ha hl
  cases h.stage with
  | live h1 => exact absurd h1 hn
  | busy u f hb =>
    have hut : u ≠ t := by
      rintro rfl
      have := hp f (by simp [hb.calls])
      rw [hb.works] at this
      cases this
    refine .busy u f ⟨(hm.other u hut).trans hb.calls, hb.works, fun v hv => ?_,
      hm.not_devices hn, ht.trans hb.torn, fun hf => ?_, fun hf => hpi.trans (hb.pipes hf),
      by rw [hu, hpi]; exact hb.useCnt⟩
    · by_cases hvt : v = t
      · rw [hvt]
        exact hpt
      · exact hm.polling hvt (hb.others v hv)
    · rcases hfl with he | he
      · exact he.trans (hb.flag hf)
      · exact he.1
  | waiting h1 h2 h3 h4 h5 h6 =>
    rcases hfl with he | he
    · exact .waiting (hall h1) (hm.not_devices hn) (ht.trans h3) (he.trans h4) (hpi ▸ h5)
        (by rw [hu, hpi]; exact h6)
    · exact .abandoned (hall h1) (hm.not_devices hn) (ht.trans h3) he.2 (by rw [hu, hpi]; exact h6)
  | torn h1 h2 h3 h4 h5 =>
    refine .torn (hall h1) ?_ (ht.trans h3) ?_ (by rw [hu, hpi]; exact h5)
    · rcases hm.node with he | he
      · exact he.trans h2
      · exact he
    · rcases hfl with he | he
      · exact he.trans h4
      · exact he.1
  | abandoned h1 h2 h3 h4 h5 =>
    exact .abandoned (hall h1) (hm.not_devices hn) (ht.trans h3) (hm.abandoned h4)
      (by rw [hu, hpi]; exact h5)

omit [DecidableEq τ] in
theorem Inv.allocPipe (h : d.Inv) (hw : d.useCnt + 1 < 2 ^ 16)
    (hc : ∀ u, ∀ f ∈ d.calls u, f.tearing = false) :
    Inv { d with useCnt := uword (d.useCnt + 1), pipes := d.pipes + 1 } := by
  refine ⟨?_, uword_lt _, h.freed, h.abandoned, h.single⟩
  rw [uword_of_lt hw]
  cases h.stage with
  | live h1 h2 h3 h4 h5 h6 => exact .live h1 h2 h3 h4 h5 (congrArg (· + 1) h6)
  | busy t f hb =>
    have hf := hc t f (by simp [hb.calls])
    refine .busy t f ⟨hb.calls, hb.works, hb.others, hb.node, hb.torn, hb.flag, ?_, ?_⟩
    · rw [hf]
      intro hf
      cases hf
    · have := hb.useCnt
      dsimp only
      omega
  | waiting h1 h2 h3 h4 h5 h6 =>
    exact .waiting h1 h2 h3 h4 (Nat.succ_pos _) (congrArg (· + 1) h6)
  | torn h1 h2 h3 h4 h5 => exact .torn h1 h2 h3 h4 (congrArg (· + 1) h5)
  | abandoned h1 h2 h3 h4 h5 => exact .abandoned h1 h2 h3 h4 (congrArg (· + 1) h5)

omit [DecidableEq τ] in
theorem Inv.dropPipe (h : d.Inv) (hpos : 0 < d.pipes)
    (hc : ¬ (d.useCnt - 1 = 0 ∧ d.delExpunge = true)) :
    Inv { d with pipes := d.pipes - 1, useCnt := d.useCnt - 1 } := by
  refine ⟨?_, (Nat.sub_le _ _).trans_lt h.word, h.freed, h.abandoned, h.single⟩
  cases h.stage with
  | live h1 h2 h3 h4 h5 h6 => exact .live h1 h2 h3 h4 h5 (congrArg (· - 1) h6)
  | busy t f hb =>
    refine .busy t f ⟨hb.calls, hb.works, hb.others, hb.node, hb.torn, hb.flag, fun hf => ?_, ?_⟩
    · have := hb.pipes hf
      omega
    · have := hb.useCnt
      dsimp only
      omega
  | waiting h1 h2 h3 h4 h5 h6 =>
    have hne : d.useCnt - 1 ≠ 0 := fun h0 => hc ⟨h0, h4⟩
    exact .waiting h1 h2 h3 h4 (by dsimp only; omega) (congrArg (· - 1) h6)
  | torn h1 h2 h3 h4 h5 => exact .torn h1 h2 h3 h4 (congrArg (· - 1) h5)
  | abandoned h1 h2 h3 h4 h5 => exact .abandoned h1 h2 h3 h4 (congrArg (· - 1) h5)

theorem Inv.collect (h : d.Inv) (hp : ∀ u, d.Polling u) (hfl : d.delExpunge = true) :
    Inv ({ d with pipes := d.pipes - 1, useCnt := d.useCnt - 1 }.setCalls t [.enter]) := by
  have hm : Moves d ({ d with pipes := d.pipes - 1, useCnt := d.useCnt - 1 }.setCalls t [.enter]) t
      [.enter] := .setCalls rfl (Or.inl rfl) rfl id
  have hbusy (hn : d.node ≠ .devices) (ht : d.torn = 0) (he : d.useCnt = d.pipes) :
      Inv ({ d with pipes := d.pipes - 1, useCnt := d.useCnt - 1 }.setCalls t [.enter]) := by
    refine h.moves hm (.busy t .enter ⟨hm.self, rfl, fun u hu => hm.polling hu (hp u),
      hm.not_devices hn, ht, by simp [Frame.disarmed, Frame.tearing], by simp [Frame.tearing], ?_⟩)
      hn ((Nat.sub_le _ _).trans_lt h.word) (by simp) le_rfl
    simp [Frame.ownPipe, he]
  cases h.stage with
  | live h1 h2 h3 h4 => rw [h4] at hfl; cases hfl
  | busy u f hb =>
    have := hp u f (by simp [hb.calls])
    rw [hb.works] at this
    cases this
  | waiting h1 h2 h3 h4 h5 h6 => exact hbusy h2 h3 h6
  | torn h1 h2 h3 h4 => rw [h4] at hfl; cases hfl
  | abandoned h1 h2 h3 h4 h5 => exact hbusy h2 h3 h5

omit [DecidableEq τ] in
theorem Inv.pipes_le (h : d.Inv) : d.pipes ≤ d.useCnt := by
  cases h.stage with
  | live _ _ _ _ _ h6 => exact h6.ge
  | busy t f hb => exact hb.useCnt ▸ Nat.le_add_right _ _
  | waiting _ _ _ _ _ h6 => exact h6.ge
  | torn _ _ _ _ h5 => exact h5.ge
  | abandoned _ _ _ _ h5 => exact h5.ge

theorem Inv.freePipe (h : d.Inv) (hm : d.mayCall t = true) (hpos : 0 < d.pipes)
    (hc : d.RemovalCond (.freePipe t)) :
    Inv ({ d with pipes := d.pipes - 1 }.freePipe t (d.calls t)) := by
  have hle := h.pipes_le
  have hne : d.useCnt ≠ 0 := by omega
  have hsub : usub d.useCnt 1 = d.useCnt - 1 := usub_of_le (by omega) h.word
  unfold Dev.freePipe dropUse
  simp only [hne, ne_eq, not_false_eq_true, if_true, hsub]
  by_cases hcol : d.useCnt - 1 = 0 ∧ d.delExpunge = true
  · obtain ⟨hu, hfl⟩ := hcol
    have hp := hc (by omega) hfl
    have hnil : d.calls t = [] := by
      unfold mayCall at hm
      cases hcalls : d.calls t with
      | nil => rfl
      | cons f rest =>
        have hf := hp t f (by simp [hcalls])
        have : f = .release := by simpa [hcalls] using hm
        subst this
        cases hf
    simpa [hu, hfl, hnil] using h.collect hp hfl
  · have hb : (decide (d.useCnt - 1 = 0) && d.delExpunge) = false := by
      simpa [Bool.and_eq_false_iff] using hcol
    simpa [hb, setCalls] using h.dropPipe hpos hcol

theorem Inv.unlink (h : d.Inv) (hc : d.calls t = []) (hn : d.node = .devices) (fl : Bool) :
    Inv ({ d with node := .deadDevices, delExpunge := fl, freed := true }.setCalls t
      [.unlinked]) := by
  cases h.stage with
  | live h1 h2 h3 h4 h5 h6 =>
    refine ⟨.busy t .unlinked ⟨by simp, rfl, fun u hu => ?_, by simp, h3,
      by simp [Frame.disarmed, Frame.tearing], by simp [Frame.tearing], h6⟩, h.word,
      fun _ => rfl, fun u hu => ?_, fun u => ?_⟩
    · intro f hf
      rw [setCalls_ne _ t _ hu] at hf
      simp [h5 u] at hf
    · by_cases hut : u = t
      · subst hut
        simp at hu
      · rw [setCalls_ne _ t _ hut] at hu
        simp [h5 u] at hu
    · by_cases hut : u = t
      · subst hut
        simp
      · rw [setCalls_ne _ t _ hut]
        exact h.single u
  | busy u f hb => exact absurd hn hb.node
  | waiting h1 h2 => exact absurd hn h2
  | torn h1 h2 => rw [hn] at h2; cases h2
  | abandoned h1 h2 => exact absurd hn h2

omit [DecidableEq τ] in
theorem Inv.works (h : d.Inv) (hb : d.Busy t f) (hm : Moves d d' t [g]) (hg : g.polling = false)
    (ht : d'.torn = if g.tearing then 1 else 0)
    (hfl : g.disarmed = true → d'.delExpunge = false) (hp : g.tearing = true → d'.pipes = 0)
    (hu : d'.useCnt = d'.pipes + g.ownPipe) (hw : d'.useCnt < 2 ^ 16) : d'.Inv := by
  refine h.moves hm (.busy t g ⟨hm.self, hg, fun u hu => hm.polling hu (hb.others u hu),
    hm.not_devices hb.node, ht, hfl, hp, hu⟩) hb.node hw (fun ha => ?_) le_rfl
  rw [List.mem_singleton] at ha
  subst ha
  cases hg

theorem Inv.leaves (h : d.Inv) (hb : d.Busy t f) (hm : Moves d d' t []) (hw : d'.useCnt < 2 ^ 16)
    (hs : (∀ u, d'.Polling u) → d'.Stage) : d'.Inv := by
  refine h.moves hm (hs fun u => ?_) hb.node hw (by simp) (by simp)
  by_cases hut : u = t
  · subst hut
    intro f hf
    simp [hm.self] at hf
  · exact hm.polling hut (hb.others u hut)

theorem Inv.advance_busy {pipe : Bool} (h : d.Inv) (hb : d.Busy t f)
    (hc : d.RemovalCond (.advance t pipe)) (hs : d.advance t pipe [] f = some d') : d'.Inv := by
  have hcalls := hb.calls
  have hw := h.word
  have hu := hb.useCnt
  have ht := hb.torn
  cases f with
  | poll => cases hb.works
  | decide => cases hb.works
  | abandon => cases hb.works
  | abandonRemove => cases hb.works
  | unlinked =>
    obtain ⟨x, hx, rfl⟩ := Option.map_eq_some_iff.mp hs
    obtain ⟨l, rfl⟩ := lockWriteDevice_eq hx
    exact h.works (g := .release) hb (.setCalls rfl (Or.inl rfl) rfl id) rfl ht
      (by simp [Frame.disarmed, Frame.tearing]) (by simp [Frame.tearing]) hu hw
  | release =>
    cases hs
    obtain ⟨l, hl⟩ := unlockDevice_eq d
    rw [hl]
    exact h.works (g := .enter) hb (.setCalls rfl (Or.inl rfl) rfl id) rfl ht
      (by simp [Frame.disarmed, Frame.tearing]) (by simp [Frame.tearing]) hu hw
  | enter =>
    obtain ⟨x, hx, rfl⟩ := Option.map_eq_some_iff.mp hs
    obtain ⟨l, rfl⟩ := lockWriteDevice_eq hx
    exact h.works (g := .test) hb (.setCalls rfl (Or.inl rfl) rfl id) rfl ht
      (by simp [Frame.disarmed, Frame.tearing]) (by simp [Frame.tearing]) hu hw
  | test =>
    simp only [advance] at hs
    split at hs <;> cases hs
    · exact h.works (g := .defer) hb (.setCalls rfl (Or.inl rfl) rfl id) rfl ht
        (by simp [Frame.disarmed, Frame.tearing]) (by simp [Frame.tearing]) hu hw
    · rename_i h0
      have h0 : d.useCnt = 0 := by simpa using h0
      have hp : d.pipes = 0 := by
        have := h.pipes_le
        omega
      exact h.works (g := .contents) hb (.setCalls rfl (Or.inl rfl) rfl id) rfl
        (congrArg (· + 1) ht) (by simp [Frame.disarmed]) (fun _ => hp) hu hw
  | defer =>
    cases hs
    obtain ⟨l, hl⟩ := unlockDevice_eq { d with delExpunge := true }
    rw [hl]
    have hne : d.useCnt ≠ 0 := hc.1 (by simp [hcalls])
    refine h.leaves hb (.setCalls rfl (Or.inl rfl) rfl id) hw fun hall => ?_
    refine .waiting hall hb.node ht rfl ?_ hu
    have : d.useCnt = d.pipes := hu
    simpa [this, Nat.pos_iff_ne_zero] using hne
  | contents =>
    cases hs
    exact h.works (g := .destroy) hb (.setCalls rfl (Or.inl rfl) rfl id) rfl ht (fun _ => rfl)
      (fun _ => hb.pipes rfl) hu hw
  | destroy =>
    simp only [advance] at hs
    have hp := hb.pipes rfl
    have hu0 : d.useCnt = 0 := by
      rw [hu, hp]
      rfl
    split at hs <;> cases hs
    · refine h.works (g := .destroyPipe) hb (.setCalls rfl (Or.inl rfl) rfl id) rfl ht
        (fun _ => hb.flag rfl) (fun _ => hp) ?_ (uword_lt _)
      simp [hu0, hp, Frame.ownPipe, uword]
    · exact h.works (g := .unlock) hb (.setCalls rfl (Or.inl rfl) rfl id) rfl ht
        (fun _ => hb.flag rfl) (fun _ => hp) hu hw
  | destroyPipe =>
    cases hs
    have hp := hb.pipes rfl
    have hfl := hb.flag rfl
    have hu1 : d.useCnt = 1 := by
      rw [hu, hp]
      rfl
    -- the collector is disarmed
    have hfree : d.freePipe t [.unlock] =
        { d with useCnt := 0 }.setCalls t [.unlock] := by
      simp [Dev.freePipe, dropUse, hfl, hu1, usub, uword]
    rw [hfree]
    exact h.works (g := .unlock) hb (.setCalls rfl (Or.inl rfl) rfl id) rfl ht (fun _ => hfl)
      (fun _ => hp) hp.symm (by simp)
  | unlock =>
    cases hs
    obtain ⟨l, hl⟩ := unlockDevice_eq d
    rw [hl]
    exact h.works (g := .remove) hb (.setCalls rfl (Or.inl rfl) rfl id) rfl ht
      (fun _ => hb.flag rfl) (fun _ => hb.pipes rfl) hu hw
  | remove =>
    cases hs
    exact h.leaves hb (.setCalls rfl (Or.inr rfl) rfl id) hw fun hall =>
      .torn hall rfl ht (hb.flag rfl) hu

omit [DecidableEq τ] in
theorem Inv.not_devices {rest : List Frame} (h : d.Inv) (hc : d.calls t = f :: rest) :
    d.node ≠ .devices := by
  cases h.stage with
  | live _ _ _ _ h5 => rw [h5 t] at hc; cases hc
  | busy u g hb => exact hb.node
  | waiting _ h2 => exact h2
  | torn _ h2 => simp [h2]
  | abandoned _ h2 => exact h2

theorem Inv.takes (h : d.Inv) (hcalls : d.calls t = [.decide]) (h0 : d.useCnt = 0)
    (hc : d.node = .deadDevices ∧ ∀ u ≠ t, d.Polling u) : Inv (d.setCalls t [.enter]) := by
  have hm : Moves d (d.setCalls t [.enter]) t [.enter] := .setCalls rfl (Or.inl rfl) rfl id
  obtain ⟨hn, hp⟩ := hc
  have hnd : d.node ≠ .devices := by simp [hn]
  have ht : d.torn = 0 := by
    cases h.stage with
    | live h1 => exact absurd h1 hnd
    | busy u f hb =>
      have hf : f.polling = true := by
        by_cases hut : u = t
        · subst hut
          have := hb.calls
          rw [hcalls] at this
          cases this
          rfl
        · exact hp u hut f (by simp [hb.calls])
      rw [hb.works] at hf
      cases hf
    | waiting h1 h2 h3 => exact h3
    | torn h1 h2 => rw [hn] at h2; cases h2
    | abandoned h1 h2 h3 => exact h3
  have hpi : d.pipes = 0 := by
    have := h.pipes_le
    omega
  exact h.moves hm (.busy t .enter ⟨hm.self, rfl, fun u hu => hm.polling hu (hp u hu),
    hm.not_devices hnd, ht, by simp [Frame.disarmed, Frame.tearing], by simp [Frame.tearing],
    h0.trans hpi.symm⟩) hnd h.word (by simp) le_rfl

theorem Inv.advance_polling {pipe : Bool} (h : d.Inv) (hcalls : d.calls t = [f])
    (hf : f.polling = true) (hc : d.RemovalCond (.advance t pipe))
    (hs : d.advance t pipe [] f = some d') : d'.Inv := by
  have hn := h.not_devices hcalls
  have hp : d.Polling t := by
    intro g hg
    rw [hcalls, List.mem_singleton] at hg
    rwa [hg]
  cases f with
  | poll cnt =>
    simp only [advance] at hs
    split at hs <;> cases hs <;>
      exact h.poll (.setCalls rfl (Or.inl rfl) rfl id) hn hp (by simp [Frame.polling]) rfl rfl rfl
        (Or.inl rfl) (by simp) le_rfl
  | decide =>
    simp only [advance] at hs
    split at hs <;> cases hs
    · exact h.poll (.setCalls rfl (Or.inl rfl) rfl fun _ => rfl) hn hp (by simp [Frame.polling])
        rfl rfl rfl (Or.inl rfl) (fun _ => rfl) le_rfl
    · rename_i h0
      have h0 : d.useCnt = 0 := by simpa using h0
      exact h.takes hcalls h0 (hc.2 (by simp [hcalls]) h0)
  | abandon =>
    obtain ⟨x, hx, rfl⟩ := Option.map_eq_some_iff.mp hs
    obtain ⟨l, rfl⟩ := lockWriteDevice_eq hx
    obtain ⟨l', hl⟩ := unlockDevice_eq { d with lock := l, delExpunge := false }
    rw [hl]
    have ha := h.abandoned t (by simp [hcalls])
    exact h.poll (.setCalls rfl (Or.inl rfl) rfl id) hn hp (by simp [Frame.polling]) rfl rfl rfl
      (Or.inr ⟨rfl, ha⟩) (by simp) le_rfl
  | abandonRemove =>
    cases hs
    exact h.poll (.setCalls rfl (Or.inr rfl) rfl id) hn hp (by simp) rfl rfl rfl (Or.inl rfl)
      (by simp) (by simp)
  | _ => cases hf

theorem Inv.step {e : Event τ} (h : d.Inv) (hc : d.RemovalCond e) (hs : d.step e = some d') :
    d'.Inv := by
  cases e with
  | freeDevice t =>
    simp only [Dev.step] at hs
    split at hs <;> cases hs
    rename_i hg
    exact h.unlink hg.1 hg.2 false
  | freeBindings t =>
    simp only [Dev.step] at hs
    split at hs <;> cases hs
    rename_i hg
    exact h.unlink hg.1 hg.2 d.delExpunge
  | remDead t =>
    simp only [Dev.step] at hs
    split at hs <;> cases hs
    rename_i hg
    exact h.poll (.setCalls rfl (Or.inl rfl) rfl id) (by simp [hg.2]) (by simp [Polling, hg.1])
      (by simp [Frame.polling]) rfl rfl rfl (Or.inl rfl) (by simp) le_rfl
  | advance t pipe =>
    simp only [Dev.step] at hs
    split at hs
    · cases hs
    · rename_i f rest hcalls
      have hrest : rest = [] := by
        have := h.single t
        rw [hcalls, List.length_cons] at this
        exact List.length_eq_zero_iff.mp (by omega)
      subst hrest
      cases hf : f.polling with
      | true => exact h.advance_polling hcalls hf hc hs
      | false => exact h.advance_busy (h.stage.at_work hcalls hf).2 hc hs
  | allocPipe t =>
    simp only [Dev.step] at hs
    split at hs <;> cases hs
    exact h.allocPipe hc.1 hc.2
  | freePipe t =>
    simp only [Dev.step] at hs
    split at hs <;> cases hs
    rename_i hg
    exact h.freePipe hg.1 hg.2 hc

/-- The teardown branch is entered at most once and with no pipe in use but its own, and it has
been when the device has been freed, every pipe is free and every call has returned. -/
structure TornOnce (d : Dev τ) : Prop where
  once : d.torn ≤ 1
  unused : ∀ t, ∀ f ∈ d.calls t, f.tearing = true → d.useCnt = f.ownPipe
  done : d.freed = true → d.pipes = 0 → (∀ t, d.calls t = []) → d.abandoned = false → d.torn = 1

omit [DecidableEq τ] in
theorem Inv.tornOnce (h : d.Inv) : d.TornOnce := by
  have hnot (hp : ∀ u, d.Polling u) (t : τ) (f : Frame) (hf : f ∈ d.calls t)
      (ht : f.tearing = true) : d.useCnt = f.ownPipe := by
    have := hp t f hf
    cases f <;> simp_all [Frame.polling, Frame.tearing]
  cases h.stage with
  | live h1 h2 h3 h4 h5 h6 =>
    refine ⟨by omega, fun t f hf => ?_, fun hfr => ?_⟩
    · simp [h5 t] at hf
    · rw [h2] at hfr
      cases hfr
  | busy t f hb =>
    refine ⟨?_, fun u g hg ht => ?_, fun _ _ hc => ?_⟩
    · rw [hb.torn]
      split <;> omega
    · by_cases hut : u = t
      · subst hut
        rw [hb.calls, List.mem_singleton] at hg
        subst hg
        rw [hb.useCnt, hb.pipes ht, Nat.zero_add]
      · have := hb.others u hut g hg
        cases g <;> simp_all [Frame.polling, Frame.tearing]
    · have := hb.calls
      rw [hc t] at this
      cases this
  | waiting h1 h2 h3 h4 h5 h6 =>
    exact ⟨by omega, hnot h1, fun _ hp => absurd hp h5.ne'⟩
  | torn h1 h2 h3 h4 h5 => exact ⟨h3.le, hnot h1, fun _ _ _ _ => h3⟩
  | abandoned h1 h2 h3 h4 h5 =>
    refine ⟨by omega, hnot h1, fun _ _ _ ha => ?_⟩
    rw [h4] at ha
    cases ha

/-- In every run that keeps out of the way, a removed device is torn down exactly once. -/
theorem device_torn_once {evs : List (Event τ)} (h : Run step RemovalCond init evs d) :
    d.TornOnce :=
  Inv.tornOnce (h.invariant Inv .init fun _ _ _ ht hc hs => ht.step hc hs)

instance Polling.decidable (d : Dev τ) (u : τ) : Decidable (d.Polling u) :=
  inferInstanceAs (Decidable (∀ f ∈ d.calls u, f.polling = true))

instance RemovalCond.decidable [Fintype τ] (d : Dev τ) : ∀ e, Decidable (d.RemovalCond e)
  | .allocPipe _ => inferInstanceAs (Decidable (_ ∧ ∀ u, ∀ f ∈ d.calls u, f.tearing = false))
  | .freePipe _ =>
    inferInstanceAs (Decidable (d.useCnt = 1 → d.delExpunge = true → ∀ u, d.Polling u))
  | .advance t _ => inferInstanceAs (Decidable
      (((d.calls t).head? = some .defer → d.useCnt ≠ 0) ∧
        ((d.calls t).head? = some .decide → d.useCnt = 0 →
          d.node = .deadDevices ∧ ∀ u ≠ t, d.Polling u)))
  | .freeDevice _ => .isTrue trivial
  | .freeBindings _ => .isTrue trivial
  | .remDead _ => .isTrue trivial

def freedInUse : List (Event (Fin 3)) :=
  [.allocPipe 1, .freeDevice 0] ++ List.replicate 5 (.advance 0 false)

/-- Task 1 frees its pipe and collects the device, with a pipe for `hop_DestroyDevice`. -/
def collected : List (Event (Fin 3)) := .freePipe 1 :: List.replicate 7 (.advance 1 true)

theorem device_torn_once_collected :
    ((exec step init (freedInUse ++ collected)).get (by decide)).TornOnce :=
  device_torn_once (.get_meets (by decide) (by decide))

def collectedAndPolled : List (Event (Fin 3)) :=
  freedInUse ++ [.remDead 2, .advance 2 false] ++ collected ++
    List.replicate 4 (.advance 2 false)

def freedBeforeFlag : List (Event (Fin 3)) :=
  [.allocPipe 1, .freeDevice 0] ++ List.replicate 4 (.advance 0 false) ++
    [.freePipe 1, .advance 0 false]

def allocatedAfterTest : List (Event (Fin 3)) :=
  .freeDevice 0 :: List.replicate 4 (.advance 0 false) ++ [.allocPipe 1]

/-- The device is torn down twice, not at all, or in use. -/
theorem device_not_torn_once :
    (∃ d, Run step anyStep init collectedAndPolled d ∧ d.torn = 2) ∧
    (∃ d, Run step anyStep init freedBeforeFlag d ∧ d.freed = true ∧ d.pipes = 0 ∧
      (∀ t, d.calls t = []) ∧ d.abandoned = false ∧ d.torn = 0) ∧
    ∃ d, Run step anyStep init allocatedAfterTest d ∧ d.calls 0 = [.contents] ∧ d.useCnt = 1 := by
  refine ⟨⟨_, .get (by decide), ?_⟩, ⟨_, .get (by decide), ?_⟩, ⟨_, .get (by decide), ?_⟩⟩
  · decide
  · decide
  · decide

end Dev

end Neptune
