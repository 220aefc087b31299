import Neptune.Proofs.StallMarks

/-! At most one clear for each halt. It needs that a class clears only what is still marked, and that
an endpoint does not halt again while its clear is on the way to the controller. -/

namespace Neptune.StallState

open Option Function

variable {δ τ : Type} [DecidableEq δ] [DecidableEq τ] {s s' s₀ : StallState δ τ}
  {evs : List (StallEvent δ τ)} {e : StallEvent δ τ} {d pd : δ} {t : τ} {ep : δ × Fin 32}

def Taken (s : StallState δ τ) (ep : δ × Fin 32) : Prop :=
  s.ev = .clear ep.1 ep.2 ∨ s.ev = .submit ep.1 ep.2

def marking : StallTaskPc δ → Option (δ × Fin 32)
  | .mark pd bit => some (pd, bit)
  | _ => none

/-- What a step needs: a class clears only what is marked and the event handler task has not taken,
and no endpoint is marked between the cancelling of its mark and the submission of the clear. -/
def ClearCond (s : StallState δ τ) : StallEvent δ τ → Prop
  | .classClear _ pd epnum isin =>
    s.mask (pd, PDEPHALT_BIT epnum isin) = true ∧ ¬ s.Taken (pd, PDEPHALT_BIT epnum isin)
  | .mark t => ∀ ep ∈ marking (s.task t),
      s.ev ≠ .submit ep.1 ep.2 ∧ ∀ t', s.task t' ≠ .submit ep.1 ep.2
  | _ => True

def Unsent (s : StallState δ τ) (ep : δ × Fin 32) : Prop :=
  s.sent ep = 0 ∧ ∀ t, s.task t ≠ .submit ep.1 ep.2

structure ClearInv (s : StallState δ τ) : Prop where
  mask : ∀ ep, s.mask ep = true → s.Unsent ep
  taken : ∀ ep, s.Taken ep → s.Unsent ep
  submit : ∀ ep, s.ev = .submit ep.1 ep.2 → s.mask ep = false
  task : ∀ t ep, s.task t = .submit ep.1 ep.2 → s.sent ep = 0 ∧
    ∀ t', s.task t' = .submit ep.1 ep.2 → t' = t
  once : ∀ ep, s.sent ep ≤ 1

omit [DecidableEq δ] [DecidableEq τ] in
theorem StallFresh.clearInv (h : s.StallFresh) : s.ClearInv where
  mask ep hm := by
    rw [h.mask] at hm
    cases hm
  taken ep ht := by
    rcases ht with ht | ht <;> rw [h.ev] at ht <;> cases ht
  submit ep _ := h.mask ep
  task t ep ht := by
    rw [h.task] at ht
    cases ht
  once ep := by
    rw [h.sent]
    exact Nat.zero_le 1

omit [DecidableEq δ] in
theorem ClearInv.goto {pc : StallTaskPc δ} (hi : s.ClearInv)
    (h2 : ∀ d bit, pc ≠ .submit d bit) : (s.goto t pc).ClearInv := by
  have hold {t' : τ} {ep : δ × Fin 32} (h : (s.goto t pc).task t' = .submit ep.1 ep.2) :
      s.task t' = .submit ep.1 ep.2 := by
    have h : update s.task t pc t' = .submit ep.1 ep.2 := h
    rw [update_apply] at h
    split at h
    · exact absurd h (h2 _ _)
    · exact h
  refine ⟨fun ep hm => ?_, fun ep ht => ?_, hi.submit, fun t' ep ht => ?_, hi.once⟩
  · obtain ⟨h0, hn⟩ := hi.mask ep hm
    exact ⟨h0, fun t' ht' => hn t' (hold ht')⟩
  · obtain ⟨h0, hn⟩ := hi.taken ep ht
    exact ⟨h0, fun t' ht' => hn t' (hold ht')⟩
  · obtain ⟨h0, hu⟩ := hi.task t' ep (hold ht)
    exact ⟨h0, fun t'' ht'' => hu t'' (hold ht'')⟩

omit [DecidableEq δ] [DecidableEq τ] in
theorem ClearInv.event {pc : StallEventPc δ} {req : Bool} (hi : s.ClearInv)
    (ht : ∀ pd bit, pc = .clear pd bit ∨ pc = .submit pd bit → s.Unsent (pd, bit))
    (hm : ∀ pd bit, pc = .submit pd bit → s.mask (pd, bit) = false) :
    ClearInv { s with ev := pc, req := req } :=
  ⟨hi.mask, fun ep h => ht ep.1 ep.2 h, fun ep h => hm ep.1 ep.2 h, hi.task, hi.once⟩

omit [DecidableEq δ] [DecidableEq τ] in
theorem ClearInv.of_mask {mask : δ × Fin 32 → Bool} {owed : δ × Fin 32 → Bool} (hi : s.ClearInv)
    (h : ∀ ep, mask ep = true → s.mask ep = true) :
    ClearInv { s with mask := mask, owed := owed } := by
  refine ⟨fun ep hm => hi.mask ep (h ep hm), hi.taken, fun ep he => ?_, hi.task, hi.once⟩
  have := hi.submit ep he
  by_contra hn
  rw [h ep (by simpa using hn)] at this
  cases this

omit [DecidableEq τ] in
theorem ClearInv.setMark_false (hi : s.ClearInv) (ep : δ × Fin 32) : (s.setMark ep false).ClearInv := by
  apply hi.of_mask
  intro ep' hm
  rw [update_apply] at hm
  split at hm
  · cases hm
  · exact hm

omit [DecidableEq τ] in
theorem ClearInv.clearMask (hi : s.ClearInv) : (s.clearMask pd).ClearInv := by
  apply hi.of_mask
  intro ep hm
  split at hm
  · cases hm
  · exact hm

omit [DecidableEq τ] in
theorem ClearInv.halt (hi : s.ClearInv) (ep : δ × Fin 32) : (s.halt ep).ClearInv := by
  have hz {ep' : δ × Fin 32} (h : s.sent ep' = 0) : (s.halt ep).sent ep' = 0 := by
    change update s.sent ep 0 ep' = 0
    rw [update_apply]
    split
    · rfl
    · exact h
  refine ⟨fun ep' hm => ?_, fun ep' ht => ?_, hi.submit, fun t ep' ht => ?_, fun ep' => ?_⟩
  · exact ⟨hz (hi.mask ep' hm).1, (hi.mask ep' hm).2⟩
  · exact ⟨hz (hi.taken ep' ht).1, (hi.taken ep' ht).2⟩
  · exact ⟨hz (hi.task t ep' ht).1, (hi.task t ep' ht).2⟩
  · change update s.sent ep 0 ep' ≤ 1
    rw [update_apply]
    split
    · exact Nat.zero_le 1
    · exact hi.once ep'

omit [DecidableEq τ] in
theorem ClearInv.sendClear (hi : s.ClearInv) (h0 : s.sent ep = 0) (hm : s.mask ep = false)
    (ht : ¬ s.Taken ep) (hn : ∀ t, s.task t ≠ .submit ep.1 ep.2) : (s.sendClear ep).ClearInv := by
  have hz {ep' : δ × Fin 32} (hne : ep' ≠ ep) : (s.sendClear ep).sent ep' = s.sent ep' :=
    update_of_ne hne _ _
  refine ⟨fun ep' hm' => ?_, fun ep' ht' => ?_, hi.submit, fun t ep' ht' => ?_, fun ep' => ?_⟩
  · have hne : ep' ≠ ep := by
      rintro rfl
      exact Bool.false_ne_true (hm.symm.trans hm')
    exact ⟨(hz hne).trans (hi.mask ep' hm').1, (hi.mask ep' hm').2⟩
  · have hne : ep' ≠ ep := by
      rintro rfl
      exact ht ht'
    exact ⟨(hz hne).trans (hi.taken ep' ht').1, (hi.taken ep' ht').2⟩
  · have hne : ep' ≠ ep := by
      rintro rfl
      exact hn t ht'
    exact ⟨(hz hne).trans (hi.task t ep' ht').1, (hi.task t ep' ht').2⟩
  · by_cases hne : ep' = ep
    · subst hne
      change update s.sent ep' (s.sent ep' + 1) ep' ≤ 1
      rw [update_self, h0]
    · rw [hz hne]
      exact hi.once ep'

theorem ClearInv.classClear (hi : s.ClearInv) (h0 : s.sent ep = 0)
    (hn : ∀ t, s.task t ≠ .submit ep.1 ep.2) (ht : ¬ s.Taken ep) :
    ((s.setMark ep false).goto t (.submit ep.1 ep.2)).ClearInv := by
  have hs := hi.setMark_false ep
  have hother {t' : τ} {ep' : δ × Fin 32} (hne : ep' ≠ ep)
      (h : update s.task t (.submit ep.1 ep.2) t' = .submit ep'.1 ep'.2) :
      s.task t' = .submit ep'.1 ep'.2 := by
    rw [update_apply] at h
    split at h
    · obtain ⟨h1, h2⟩ := StallTaskPc.submit.inj h
      exact absurd (Prod.ext h1.symm h2.symm) hne
    · exact h
  refine ⟨fun ep' hm => ?_, fun ep' ht' => ?_, hs.submit, fun t' ep' ht' => ?_, hi.once⟩
  · have hne : ep' ≠ ep := by
      rintro rfl
      have hm : update s.mask ep' false ep' = true := hm
      rw [update_self] at hm
      cases hm
    obtain ⟨h1, h2⟩ := hs.mask ep' hm
    exact ⟨h1, fun t' ht' => h2 t' (hother hne ht')⟩
  · have hne : ep' ≠ ep := by
      rintro rfl
      exact ht ht'
    obtain ⟨h1, h2⟩ := hi.taken ep' ht'
    exact ⟨h1, fun t' ht' => h2 t' (hother hne ht')⟩
  · by_cases hne : ep' = ep
    · subst hne
      have hself {t'' : τ} (h : update s.task t (.submit ep'.1 ep'.2) t'' =
          .submit ep'.1 ep'.2) : t'' = t := by
        by_contra hne
        rw [update_of_ne hne] at h
        exact hn t'' h
      refine ⟨h0, fun t'' ht'' => ?_⟩
      rw [hself ht', hself ht'']
    · obtain ⟨h1, h2⟩ := hi.task t' ep' (hother hne ht')
      exact ⟨h1, fun t'' ht'' => h2 t'' (hother hne ht'')⟩

theorem step_clearInv (hi : s.ClearInv) (hc : s.ClearCond e) (hs : s.step e = some s') :
    s'.ClearInv := by
  cases e with
  | complete t pd c =>
    simp only [step] at hs
    split at hs
    · split at hs
      · split at hs <;> obtain rfl := some.inj hs
        · exact hi.goto (by simp)
        · exact hi.halt _
      · obtain rfl := some.inj hs
        exact hi
    · cases hs
  | mark t =>
    simp only [step] at hs
    split at hs
    · rename_i pd bit ht
      obtain rfl := some.inj hs
      obtain ⟨hev, hn⟩ := hc (pd, bit) (by rw [ht]; rfl)
      apply ClearInv.goto _ (by simp)
      have hh := hi.halt (pd, bit)
      refine ⟨fun ep hm => ?_, hh.taken, fun ep he => ?_, hh.task, hh.once⟩
      · by_cases hep : ep = (pd, bit)
        · subst hep
          exact ⟨update_self .., hn⟩
        · have hm : update s.mask (pd, bit) true ep = true := hm
          rw [update_of_ne hep] at hm
          exact hh.mask ep hm
      · have hep : ep ≠ (pd, bit) := by
          rintro rfl
          exact hev he
        exact (update_of_ne hep _ _).trans (hi.submit ep he)
    · cases hs
  | flag t =>
    simp only [step] at hs
    split at hs
    · obtain rfl := some.inj hs
      exact ClearInv.goto ⟨hi.mask, hi.taken, hi.submit, hi.task, hi.once⟩ (by simp)
    · cases hs
  | classClear t pd epnum isin =>
    simp only [step] at hs
    split at hs
    · split at hs
      · obtain rfl := some.inj hs
        obtain ⟨hm, hnt⟩ := hc
        obtain ⟨h0, hn⟩ := hi.mask _ hm
        exact hi.classClear h0 hn hnt
      · cases hs
    · cases hs
  | classSubmit t =>
    simp only [step] at hs
    split at hs
    · rename_i pd bit ht
      obtain rfl := some.inj hs
      have hnm : ¬ s.Unsent (pd, bit) := fun hu => hu.2 t ht
      obtain ⟨h0, hu⟩ := hi.task t (pd, bit) ht
      have hg : (s.goto t .idle).ClearInv := hi.goto (by simp)
      refine hg.sendClear h0 ?_ (fun ha => hnm (hi.taken _ ha)) fun t' ht' => ?_
      · cases hm : s.mask (pd, bit) with
        | false => exact hm
        | true => exact absurd (hi.mask _ hm) hnm
      · have ht' : update s.task t .idle t' = .submit pd bit := ht'
        rw [update_apply] at ht'
        split at ht'
        · cases ht'
        · rename_i hne
          exact hne (hu t' ht')
    · cases hs
  | sweep =>
    simp only [step] at hs
    split at hs
    · split at hs
      · obtain rfl := some.inj hs
        exact hi.event (by simp) (by simp)
      · cases hs
    · cases hs
  | lock | done =>
    simp only [step] at hs
    split at hs
    · obtain rfl := some.inj hs
      exact hi.event (by simp) (by simp)
    · cases hs
  | peek =>
    simp only [step] at hs
    split at hs
    · obtain rfl := some.inj hs
      exact hi.event (by simp) (by simp)
    · split at hs
      · obtain rfl := some.inj hs
        exact hi.event (by simp) (by simp)
      · split at hs <;> obtain rfl := some.inj hs
        · exact hi.event (by simp) (by simp)
        · exact hi.event (by simp) (by simp)
    · cases hs
  | drop | noPipe =>
    simp only [step] at hs
    split at hs
    · obtain rfl := some.inj hs
      exact hi.clearMask.event (by simp) (by simp)
    · cases hs
  | pipe ok =>
    simp only [step] at hs
    split at hs
    · obtain rfl := some.inj hs
      cases ok <;> exact hi.event (by simp) (by simp)
    · cases hs
  | take =>
    simp only [step] at hs
    split at hs
    · rename_i pd n hev
      split at hs
      · rename_i hn
        split at hs <;> obtain rfl := some.inj hs
        · rename_i hm
          refine (hi.setMark_false _).event (fun pd' bit' h => ?_) (by simp)
          -- what has been marked has not been cleared
          rcases h with h | h <;> cases h
          exact hi.mask _ hm
        · exact hi.event (by simp) (by simp)
      · obtain rfl := some.inj hs
        exact hi.event (by simp) (by simp)
    · cases hs
  | doPipe =>
    simp only [step] at hs
    split at hs
    · rename_i pd bit hev
      split at hs <;> obtain rfl := some.inj hs
      · refine (hi.setMark_false _).event (fun pd' bit' h => ?_) (fun pd' bit' h => ?_)
        · rcases h with h | h <;> cases h
          exact hi.taken (pd, bit) (Or.inl hev)
        · cases h
          exact update_self ..
      · exact ClearInv.event (s := s.giveUp (pd, bit))
          ⟨hi.mask, hi.taken, hi.submit, hi.task, hi.once⟩ (by simp) (by simp)
    · cases hs
  | submit =>
    simp only [step] at hs
    split at hs
    · rename_i pd bit hev
      obtain rfl := some.inj hs
      obtain ⟨h0, hn⟩ := hi.taken (pd, bit) (Or.inr hev)
      have hm := hi.submit (pd, bit) hev
      have he : ClearInv { s with ev := .bits pd (bit + 1) } := hi.event (by simp) (by simp)
      exact he.sendClear h0 hm (by simp [Taken]) hn
    · cases hs
  | change pd f =>
    obtain rfl := some.inj hs
    exact ⟨hi.mask, hi.taken, hi.submit, hi.task, hi.once⟩
  | link devices =>
    simp only [step] at hs
    split at hs
    · cases hs
    · cases hs
    · split at hs
      · obtain rfl := some.inj hs
        exact ⟨hi.mask, hi.taken, hi.submit, hi.task, hi.once⟩
      · cases hs

/-- In every run whose steps meet the condition, at most one clear is submitted between two halts of
an endpoint, and the library submits its own only as the first. -/
theorem one_clear_per_stall (h0 : s₀.StallFresh) (hr : Runs.Run step ClearCond s₀ evs s) :
    (∀ ep, s.sent ep ≤ 1) ∧ ∀ pd bit, s.ev = .submit pd bit → s.sent (pd, bit) = 0 := by
  have hi := hr.invariant ClearInv h0.clearInv fun _ _ _ hi hc hs => step_clearInv hi hc hs
  exact ⟨hi.once, fun pd bit hev => (hi.taken (pd, bit) (Or.inr hev)).1⟩

instance {n : ℕ} (s : StallState δ (Fin n)) : ∀ e, Decidable (s.ClearCond e)
  | .classClear _ pd epnum isin => inferInstanceAs (Decidable
      (s.mask (pd, PDEPHALT_BIT epnum isin) = true ∧
        ¬ (s.ev = .clear pd (PDEPHALT_BIT epnum isin) ∨ s.ev = .submit pd (PDEPHALT_BIT epnum isin))))
  | .mark t => inferInstanceAs (Decidable (∀ ep ∈ marking (s.task t),
      s.ev ≠ .submit ep.1 ep.2 ∧ ∀ t', s.task t' ≠ .submit ep.1 ep.2))
  | .complete _ _ _ | .flag _ | .classSubmit _ | .sweep | .lock | .peek | .drop | .pipe _
  | .noPipe | .take | .doPipe | .submit | .done | .change _ _ | .link _ =>
    inferInstanceAs (Decidable True)

def twoTasks : StallState ℕ (Fin 2) :=
  ⟨fun _ => ⟨true, true, false, false, false⟩, [0], fun _ => false, false, .loop, fun _ => .idle,
    fun _ => 0, fun _ => false⟩

theorem twoTasks_fresh : twoTasks.StallFresh :=
  ⟨fun _ => rfl, rfl, fun _ => rfl, fun _ => rfl, fun _ => rfl⟩

def sweepTakes : List (StallEvent ℕ (Fin 2)) :=
  [.complete 0 0 stall, .mark 0, .flag 0, .sweep, .lock, .peek, .pipe true] ++
    List.replicate 17 .take

def twoStalls : List (StallEvent ℕ (Fin 2)) :=
  [.complete 0 0 stall, .mark 0, .classClear 1 0 1 true, .classSubmit 1, .flag 0] ++
    ([.sweep, .lock, .peek, .peek] ++ (sweepTakes ++ [.doPipe, .submit]))

theorem one_clear_per_stall_twoStalls :
    let s := (Runs.exec step twoTasks twoStalls).get (by decide)
    (∀ ep, s.sent ep ≤ 1) ∧ ∀ pd bit, s.ev = .submit pd bit → s.sent (pd, bit) = 0 :=
  one_clear_per_stall twoTasks_fresh (Runs.Run.get_meets (by decide) (by decide))

/-- The class clears when the mark has been taken: the library's clear follows. Or it clears when
the library already has. -/
theorem two_clears_per_stall :
    twoTasks.StallFresh ∧
      (∃ s, Runs.Run step Runs.anyStep twoTasks
        (sweepTakes ++ [.classClear 1 0 1 true, .classSubmit 1, .doPipe, .submit]) s ∧
          s.sent (0, PDEPHALT_BIT 1 true) = 2) ∧
      ∃ s, Runs.Run step Runs.anyStep twoTasks
        (sweepTakes ++ [.doPipe, .submit, .classClear 1 0 1 true, .classSubmit 1]) s ∧
          s.sent (0, PDEPHALT_BIT 1 true) = 2 :=
  ⟨twoTasks_fresh, ⟨_, Runs.Run.get (by decide), by decide⟩,
    ⟨_, Runs.Run.get (by decide), by decide⟩⟩

end Neptune.StallState
