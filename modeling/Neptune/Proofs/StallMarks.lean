import Neptune.Spec.StallRecovery

/-! No mark of a halted endpoint is lost: outside the sweep every marked device has been announced,
or the completion that has marked it is about to; and a mark stays until its clear is submitted or
there is a reason to give it up. -/

namespace Neptune.StallState

open Option Function

variable {δ τ : Type} [DecidableEq δ] [DecidableEq τ] {s s' s₀ : StallState δ τ}
  {evs : List (StallEvent δ τ)} {e : StallEvent δ τ} {d pd : δ} {t : τ} {ep : δ × Fin 32}

def Covers : StallEventPc δ → δ → Prop
  | .loop, _ => False
  | .walk rest, d => d ∈ rest
  | .drop pd rest, d => d ∈ pd :: rest
  | _, _ => True

def Announced (s : StallState δ τ) (d : δ) : Prop :=
  s.req = true ∨ (∃ t, s.task t = .flag d) ∨ Covers s.ev d

def Sending (s : StallState δ τ) (ep : δ × Fin 32) : Prop :=
  s.ev = .clear ep.1 ep.2 ∨ s.ev = .submit ep.1 ep.2 ∨ ∃ t, s.task t = .submit ep.1 ep.2

structure MarkInv (s : StallState δ τ) : Prop where
  announced : ∀ d ∈ s.devices, s.marked d = true → s.Announced d
  owed : ∀ ep, s.owed ep = true → s.mask ep = true ∨ s.Sending ep

structure StallFresh (s : StallState δ τ) : Prop where
  mask : ∀ ep, s.mask ep = false
  ev : s.ev = .loop
  task : ∀ t, s.task t = .idle
  sent : ∀ ep, s.sent ep = 0
  owed : ∀ ep, s.owed ep = false

omit [DecidableEq δ] [DecidableEq τ] in
theorem marked_iff : s.marked d = true ↔ ∃ bit, s.mask (d, bit) = true := decide_eq_true_iff

omit [DecidableEq δ] [DecidableEq τ] in
theorem StallFresh.inv (h : s.StallFresh) : s.MarkInv := by
  constructor
  · intro d _ hm
    obtain ⟨bit, hb⟩ := marked_iff.mp hm
    rw [h.mask] at hb
    cases hb
  · intro ep ho
    rw [h.owed] at ho
    cases ho

omit [DecidableEq δ] in
theorem task_goto {pc pc' : StallTaskPc δ} (ht : s.task t ≠ pc') (h : ∃ t, s.task t = pc') :
    ∃ t', (s.goto t pc).task t' = pc' := by
  obtain ⟨t', ht'⟩ := h
  have hne : t' ≠ t := by
    rintro rfl
    exact ht ht'
  exact ⟨t', (update_of_ne hne _ _).trans ht'⟩

omit [DecidableEq δ] in
theorem Announced.goto {pc : StallTaskPc δ} (h : s.Announced d) (ht : s.task t ≠ .flag d) :
    (s.goto t pc).Announced d := by
  rcases h with h | h | h
  · exact Or.inl h
  · exact Or.inr (Or.inl (task_goto ht h))
  · exact Or.inr (Or.inr h)

omit [DecidableEq δ] in
theorem Sending.goto {pc : StallTaskPc δ} (h : s.Sending ep)
    (ht : s.task t ≠ .submit ep.1 ep.2) : (s.goto t pc).Sending ep := by
  rcases h with h | h | h
  · exact Or.inl h
  · exact Or.inr (Or.inl h)
  · exact Or.inr (Or.inr (task_goto ht h))

omit [DecidableEq δ] in
theorem MarkInv.goto {pc : StallTaskPc δ} (hi : s.MarkInv) (h1 : ∀ d, s.task t ≠ .flag d)
    (h2 : ∀ d bit, s.task t ≠ .submit d bit) : (s.goto t pc).MarkInv := by
  constructor
  · intro d hd hm
    exact (hi.announced d hd hm).goto (h1 d)
  · intro ep ho
    rcases hi.owed ep ho with h | h
    · exact Or.inl h
    · exact Or.inr (h.goto (h2 ep.1 ep.2))

omit [DecidableEq δ] [DecidableEq τ] in
theorem MarkInv.event (hi : s.MarkInv) (htask : s'.task = s.task) (hdev : s'.devices = s.devices)
    (ha : ∀ d, s'.marked d = true → s.marked d = true ∧
      (s.req = true ∨ Covers s.ev d → s'.req = true ∨ Covers s'.ev d))
    (ho : ∀ ep, s'.owed ep = true → s.owed ep = true ∧
      (s.mask ep = true ∨ s.ev = .clear ep.1 ep.2 ∨ s.ev = .submit ep.1 ep.2 →
        s'.mask ep = true ∨ s'.ev = .clear ep.1 ep.2 ∨ s'.ev = .submit ep.1 ep.2)) :
    s'.MarkInv := by
  constructor
  · intro d hd hm
    rw [hdev] at hd
    obtain ⟨hm, hc⟩ := ha d hm
    unfold Announced
    rw [htask]
    rcases hi.announced d hd hm with h | h | h
    · rcases hc (Or.inl h) with h | h
      · exact Or.inl h
      · exact Or.inr (Or.inr h)
    · exact Or.inr (Or.inl h)
    · rcases hc (Or.inr h) with h | h
      · exact Or.inl h
      · exact Or.inr (Or.inr h)
  · intro ep hep
    obtain ⟨hep, hc⟩ := ho ep hep
    unfold Sending
    rw [htask]
    rcases hi.owed ep hep with h | h | h | h
    · rcases hc (Or.inl h) with h | h | h
      · exact Or.inl h
      · exact Or.inr (Or.inl h)
      · exact Or.inr (Or.inr (Or.inl h))
    · rcases hc (Or.inr (Or.inl h)) with h | h | h
      · exact Or.inl h
      · exact Or.inr (Or.inl h)
      · exact Or.inr (Or.inr (Or.inl h))
    · rcases hc (Or.inr (Or.inr h)) with h | h | h
      · exact Or.inl h
      · exact Or.inr (Or.inl h)
      · exact Or.inr (Or.inr (Or.inl h))
    · exact Or.inr (Or.inr (Or.inr h))

omit [DecidableEq δ] [DecidableEq τ] in
theorem MarkInv.goto_event {pc : StallEventPc δ} (hi : s.MarkInv) (req : Bool)
    (ha : ∀ d, s.marked d = true → s.req = true ∨ Covers s.ev d → req = true ∨ Covers pc d)
    (ho : ∀ pd bit, s.ev ≠ .clear pd bit ∧ s.ev ≠ .submit pd bit) :
    MarkInv { s with ev := pc, req := req } := by
  refine hi.event rfl rfl (fun d hm => ⟨hm, ha d hm⟩) fun ep hep => ⟨hep, ?_⟩
  rintro (h | h | h)
  · exact Or.inl h
  · exact absurd h (ho _ _).1
  · exact absurd h (ho _ _).2

omit [DecidableEq τ] in
theorem MarkInv.clearMask {pc : StallEventPc δ} (hi : s.MarkInv)
    (hc : ∀ d, d ≠ pd → Covers s.ev d → Covers pc d)
    (ho : ∀ pd bit, s.ev ≠ .clear pd bit ∧ s.ev ≠ .submit pd bit) :
    MarkInv { s.clearMask pd with ev := pc } := by
  refine hi.event rfl rfl ?_ ?_
  · intro d hm
    obtain ⟨bit, hb⟩ := marked_iff.mp hm
    have hb : (if d = pd then false else s.mask (d, bit)) = true := hb
    split at hb
    · cases hb
    · rename_i hne
      refine ⟨marked_iff.mpr ⟨bit, hb⟩, ?_⟩
      rintro (h | h)
      · exact Or.inl h
      · exact Or.inr (hc d hne h)
  · intro ep hep
    have hep : (if ep.1 = pd then false else s.owed ep) = true := hep
    split at hep
    · cases hep
    · rename_i hne
      refine ⟨hep, ?_⟩
      rintro (h | h | h)
      · exact Or.inl ((if_neg hne).trans h)
      · exact absurd h (ho _ _).1
      · exact absurd h (ho _ _).2

omit [DecidableEq τ] in
theorem marked_of_setMark_false {bit : Fin 32} (h : (s.setMark (pd, bit) false).marked d = true) :
    s.marked d = true := by
  obtain ⟨bit', hb⟩ := marked_iff.mp h
  have hb : update s.mask (pd, bit) false (d, bit') = true := hb
  rw [update_apply] at hb
  split at hb
  · cases hb
  · exact marked_iff.mpr ⟨bit', hb⟩

omit [DecidableEq τ] in
theorem mask_setMark_false {k : δ × Fin 32} (h : s.mask ep = true) :
    (s.setMark k false).mask ep = true ∨ ep = k := by
  by_cases hk : ep = k
  · exact Or.inr hk
  · exact Or.inl ((update_of_ne hk _ _).trans h)

theorem step_markInv (hi : s.MarkInv) (hs : s.step e = some s') : s'.MarkInv := by
  cases e with
  | complete t pd c =>
    simp only [step] at hs
    split at hs
    · rename_i ht
      split at hs
      · split at hs <;> obtain rfl := some.inj hs
        · apply hi.goto
          · simp [ht]
          · simp [ht]
        · exact ⟨hi.announced, hi.owed⟩
      · obtain rfl := some.inj hs
        exact hi
    · cases hs
  | mark t =>
    simp only [step] at hs
    split at hs
    · rename_i pd bit ht
      obtain rfl := some.inj hs
      constructor
      · intro d hd hm
        by_cases hdp : d = pd
        · subst hdp
          exact Or.inr (Or.inl ⟨t, update_self ..⟩)
        · obtain ⟨bit', hb⟩ := marked_iff.mp hm
          have hb : update s.mask (pd, bit) true (d, bit') = true := hb
          rw [update_of_ne (by simp [hdp])] at hb
          exact (hi.announced d hd (marked_iff.mpr ⟨bit', hb⟩)).goto (by simp [ht])
      · intro ep ho
        by_cases hep : ep = (pd, bit)
        · subst hep
          exact Or.inl (update_self ..)
        · have ho : update s.owed (pd, bit) true ep = true := ho
          rw [update_of_ne hep] at ho
          rcases hi.owed ep ho with h | h
          · exact Or.inl ((update_of_ne hep _ _).trans h)
          · exact Or.inr (h.goto (by simp [ht]))
    · cases hs
  | flag t =>
    simp only [step] at hs
    split at hs
    · rename_i pd ht
      obtain rfl := some.inj hs
      refine ⟨fun d _ _ => Or.inl rfl, fun ep ho => ?_⟩
      rcases hi.owed ep ho with h | h
      · exact Or.inl h
      · exact Or.inr (h.goto (by simp [ht]))
    · cases hs
  | classClear t pd epnum isin =>
    simp only [step] at hs
    split at hs
    · rename_i ht
      split at hs
      · obtain rfl := some.inj hs
        constructor
        · intro d hd hm
          exact (hi.announced d hd (marked_of_setMark_false hm)).goto (by simp [ht])
        · intro ep ho
          rcases hi.owed ep ho with h | h
          · rcases mask_setMark_false (k := (pd, PDEPHALT_BIT epnum isin)) h with h | rfl
            · exact Or.inl h
            · exact Or.inr (Or.inr (Or.inr ⟨t, update_self ..⟩))
          · exact Or.inr (Sending.goto (s := s.setMark _ _) h (by
              change s.task t ≠ _
              simp [ht]))
      · cases hs
    · cases hs
  | classSubmit t =>
    simp only [step] at hs
    split at hs
    · rename_i pd bit ht
      obtain rfl := some.inj hs
      constructor
      · intro d hd hm
        exact (hi.announced d hd hm).goto (by simp [ht])
      · intro ep ho
        have ho : update s.owed (pd, bit) false ep = true := ho
        rw [update_apply] at ho
        split at ho
        · cases ho
        · rename_i hne
          rcases hi.owed ep ho with h | h
          · exact Or.inl h
          · refine Or.inr (h.goto ?_)
            rw [ht]
            intro heq
            obtain ⟨h1, h2⟩ := StallTaskPc.submit.inj heq
            exact hne (Prod.ext h1.symm h2.symm)
    · cases hs
  | sweep =>
    simp only [step] at hs
    split at hs
    · rename_i hev
      split at hs
      · obtain rfl := some.inj hs
        exact hi.goto_event _ (fun _ _ _ => Or.inr trivial) (by simp [hev])
      · cases hs
    · cases hs
  | lock =>
    simp only [step] at hs
    split at hs
    · rename_i hev
      obtain rfl := some.inj hs
      constructor
      · intro d hd _
        exact Or.inr (Or.inr hd)
      · intro ep ho
        rcases hi.owed ep ho with h | h | h | h
        · exact Or.inl h
        · rw [hev] at h
          cases h
        · rw [hev] at h
          cases h
        · exact Or.inr (Or.inr (Or.inr h))
    · cases hs
  | peek =>
    simp only [step] at hs
    split at hs
    · rename_i hev
      obtain rfl := some.inj hs
      refine hi.goto_event s.req (fun d _ h => h.imp_right fun hc => ?_) (by simp [hev])
      rw [hev] at hc
      cases hc
    · rename_i pd rest hev
      split at hs
      · rename_i hm
        obtain rfl := some.inj hs
        refine hi.goto_event s.req (fun d hd h => h.imp_right fun hc => ?_) (by simp [hev])
        rw [hev] at hc
        rcases List.mem_cons.mp hc with rfl | hc
        · simp [hd] at hm
        · exact hc
      · split at hs <;> obtain rfl := some.inj hs
        · refine hi.goto_event s.req (fun d _ h => h.imp_right fun hc => ?_) (by simp [hev])
          rwa [hev] at hc
        · exact hi.goto_event s.req (fun _ _ _ => Or.inr trivial) (by simp [hev])
    · cases hs
  | drop =>
    simp only [step] at hs
    split at hs
    · rename_i pd rest hev
      obtain rfl := some.inj hs
      refine hi.clearMask (fun d hne hc => ?_) (by simp [hev])
      rw [hev] at hc
      exact (List.mem_cons.mp hc).resolve_left hne
    · cases hs
  | pipe ok =>
    simp only [step] at hs
    split at hs
    · rename_i pd hev
      obtain rfl := some.inj hs
      refine hi.goto_event s.req (fun _ _ _ => Or.inr ?_) (by simp [hev])
      cases ok <;> trivial
    · cases hs
  | noPipe =>
    simp only [step] at hs
    split at hs
    · rename_i pd hev
      obtain rfl := some.inj hs
      exact hi.clearMask (fun _ _ _ => trivial) (by simp [hev])
    · cases hs
  | take =>
    simp only [step] at hs
    split at hs
    · rename_i pd n hev
      split at hs
      · rename_i hn
        split at hs <;> obtain rfl := some.inj hs
        · refine hi.event rfl rfl
            (fun d hm => ⟨marked_of_setMark_false hm, fun _ => Or.inr trivial⟩) fun ep ho => ⟨ho, ?_⟩
          rintro (h | h | h)
          · rcases mask_setMark_false (k := (pd, ⟨n, hn⟩)) h with h | rfl
            · exact Or.inl h
            · exact Or.inr (Or.inl rfl)
          · rw [hev] at h
            cases h
          · rw [hev] at h
            cases h
        · exact hi.goto_event s.req (fun _ _ _ => Or.inr trivial) (by simp [hev])
      · obtain rfl := some.inj hs
        exact hi.goto_event s.req (fun _ _ _ => Or.inr trivial) (by simp [hev])
    · cases hs
  | doPipe =>
    simp only [step] at hs
    split at hs
    · rename_i pd bit hev
      split at hs <;> obtain rfl := some.inj hs
      · refine hi.event rfl rfl
          (fun d hm => ⟨marked_of_setMark_false hm, fun _ => Or.inr trivial⟩) fun ep ho => ⟨ho, ?_⟩
        rintro (h | h | h)
        · rcases mask_setMark_false (k := (pd, bit)) h with h | rfl
          · exact Or.inl h
          · exact Or.inr (Or.inr rfl)
        · rw [hev] at h
          obtain ⟨h1, h2⟩ := StallEventPc.clear.inj h
          exact Or.inr (Or.inr (by rw [h1, h2]))
        · rw [hev] at h
          cases h
      · refine hi.event rfl rfl (fun d hm => ⟨hm, fun _ => Or.inr trivial⟩) fun ep ho => ?_
        have ho : update s.owed (pd, bit) false ep = true := ho
        rw [update_apply] at ho
        split at ho
        · cases ho
        · rename_i hne
          refine ⟨ho, ?_⟩
          rintro (h | h | h)
          · exact Or.inl h
          · rw [hev] at h
            obtain ⟨h1, h2⟩ := StallEventPc.clear.inj h
            exact absurd (Prod.ext h1.symm h2.symm) hne
          · rw [hev] at h
            cases h
    · cases hs
  | submit =>
    simp only [step] at hs
    split at hs
    · rename_i pd bit hev
      obtain rfl := some.inj hs
      refine hi.event rfl rfl (fun d hm => ⟨hm, fun _ => Or.inr trivial⟩) fun ep ho => ?_
      have ho : update s.owed (pd, bit) false ep = true := ho
      rw [update_apply] at ho
      split at ho
      · cases ho
      · rename_i hne
        refine ⟨ho, ?_⟩
        rintro (h | h | h)
        · exact Or.inl h
        · rw [hev] at h
          cases h
        · rw [hev] at h
          obtain ⟨h1, h2⟩ := StallEventPc.submit.inj h
          exact absurd (Prod.ext h1.symm h2.symm) hne
    · cases hs
  | done =>
    simp only [step] at hs
    split at hs
    · rename_i hev
      obtain rfl := some.inj hs
      exact hi.goto_event _ (fun _ _ _ => Or.inl rfl) (by simp [hev])
    · cases hs
  | change pd f =>
    obtain rfl := some.inj hs
    exact ⟨hi.announced, hi.owed⟩
  | link devices =>
    simp only [step] at hs
    split at hs
    · cases hs
    · cases hs
    · split at hs
      · rename_i hnew
        obtain rfl := some.inj hs
        refine ⟨fun d hd hm => ?_, hi.owed⟩
        rcases hnew d hd with hold | hnone
        · exact hi.announced d hold hm
        · exact absurd (hnone.symm.trans hm) Bool.false_ne_true
      · cases hs

/-- In every state of every run: outside the sweep a marked device has been announced, or a
completion has marked it and raises the request next; and a mark that has not been given up stays
until its clear is submitted, or a task has taken it and submits the clear. -/
theorem no_mark_lost (h0 : s₀.StallFresh) (hr : Runs.Run step Runs.anyStep s₀ evs s) :
    (s.ev = .loop → ∀ d ∈ s.devices, s.marked d = true →
      s.req = true ∨ ∃ t, s.task t = .flag d) ∧
      ∀ ep, s.owed ep = true → s.mask ep = true ∨ s.Sending ep := by
  have hi := hr.invariant MarkInv h0.inv fun _ _ _ hi _ hs => step_markInv hi hs
  refine ⟨fun hev d hd hm => ?_, hi.owed⟩
  rcases hi.announced d hd hm with h | h | h
  · exact Or.inl h
  · exact Or.inr h
  · rw [hev] at h
    cases h

def oneStick : StallState ℕ ℕ :=
  ⟨fun _ => ⟨true, true, false, false, false⟩, [0], fun _ => false, false, .loop, fun _ => .idle,
    fun _ => 0, fun _ => false⟩

theorem oneStick_fresh : oneStick.StallFresh :=
  ⟨fun _ => rfl, rfl, fun _ => rfl, fun _ => rfl, fun _ => rfl⟩

def stall : Completion := ⟨UHIOERR_STALL, some ⟨1, true, USEAF_BULK⟩, false⟩

def oneSweep : List (StallEvent ℕ ℕ) :=
  [.complete 1 0 stall, .mark 1, .flag 1, .sweep, .lock, .peek, .pipe true] ++
    List.replicate 17 .take ++ [.complete 1 0 stall, .mark 1, .doPipe, .submit]

theorem no_mark_lost_oneSweep :
    let s := (Runs.exec step oneStick oneSweep).get (by decide)
    (s.ev = .loop → ∀ d ∈ s.devices, s.marked d = true →
      s.req = true ∨ ∃ t, s.task t = .flag d) ∧
      ∀ ep, s.owed ep = true → s.mask ep = true ∨ s.Sending ep :=
  no_mark_lost oneStick_fresh (Runs.Run.get (by decide))

/-- Between the mark and the request the device is marked, no sweep is running and none is
requested. -/
theorem mark_not_announced :
    oneStick.StallFresh ∧ ∃ s, Runs.Run step Runs.anyStep oneStick
      [.complete 1 0 stall, .mark 1] s ∧ s.ev = .loop ∧ 0 ∈ s.devices ∧ s.marked 0 = true ∧
        s.req = false :=
  ⟨oneStick_fresh, _, Runs.Run.get (by decide), rfl, by decide, by decide, rfl⟩

end Neptune.StallState
