import Neptune.Spec.IdleSweep

/-! The idle sweep suspends idle devices only, each of them once, and ends. It needs that the stamp
of a device at hand is not younger than the time the sweep has read, and that nothing is recorded on
a device between its test and the call. -/

namespace Neptune.SweepState

open List Option Function

variable {δ κ : Type} [DecidableEq δ] {cfg : SuspendCfg} {s s' s₀ : SweepState δ κ} {d : δ}
  {evs : List (SweepEvent δ κ)} {e : SweepEvent δ κ}

/-- The device that has passed the tests, and for which `psdSuspendDevice` has not been called
yet. -/
def chosen : SweepPc δ → Option δ
  | .asking d _ | .picked d => some d
  | _ => none

def next : SweepPc δ → Option δ
  | .walk rest => rest.head?
  | _ => none

def SweepCond (cfg : SuspendCfg) (s : SweepState δ κ) : SweepEvent δ κ → Prop
  | .test => ∀ d ∈ next s.pc, (s.dev d).considered = true →
      (s.dev d).idle cfg s.currtime = true → (s.dev d).lastActivity ≤ s.currtime
  | .activityBegin d _ | .activityEnd d _ => chosen s.pc ≠ some d
  | _ => True

def IdleFor (s : SweepState δ κ) (cfg : SuspendCfg) (d : δ) : Prop :=
  cfg.suspendTimeout < s.clock - s.recorded d

/-- A stamp is zero or the time of the last activity, and the clock has not wrapped. -/
structure Stamped (s : SweepState δ κ) : Prop where
  clock : s.clock < 2 ^ 32
  recorded : ∀ d, s.recorded d ≤ s.clock
  stamp : ∀ d, (s.dev d).lastActivity = 0 ∨ (s.dev d).lastActivity = s.recorded d

structure Inv (cfg : SuspendCfg) (s : SweepState δ κ) : Prop extends Stamped s where
  currtime : s.currtime ≤ s.clock
  nodup : s.calls.Nodup
  /-- A device that has been called has no stamp, or a fresh one. -/
  called : ∀ d ∈ s.calls, (s.dev d).lastActivity = 0 ∨ s.currtime ≤ (s.dev d).lastActivity
  chosen : ∀ d, chosen s.pc = some d → s.IdleFor cfg d ∧ d ∉ s.calls
  picked : ∀ d, s.pc = .picked d → (s.dev d).lastActivity = 0

structure Fresh (s : SweepState δ κ) : Prop extends Stamped s where
  out : s.pc = .out
  currtime : s.currtime ≤ s.clock
  calls : s.calls = []
  steps : s.steps = 0

omit [DecidableEq δ] in
theorem Fresh.inv (h : s.Fresh) : s.Inv cfg where
  toStamped := h.toStamped
  currtime := h.currtime
  nodup := by simp [h.calls]
  called := by simp [h.calls]
  chosen := by
    intro d hp
    rw [h.out] at hp
    cases hp
  picked := by
    intro d hp
    rw [h.out] at hp
    cases hp

@[simp] theorem setDev_dev (s : SweepState δ κ) (d : δ) (pd : IdleDev κ) :
    (s.setDev d pd).dev = update s.dev d pd := rfl

theorem lastActivity_setDev {pd : IdleDev κ} (h : pd.lastActivity = (s.dev d).lastActivity)
    (x : δ) : ((s.setDev d pd).dev x).lastActivity = (s.dev x).lastActivity := by
  rw [setDev_dev, update_apply]
  split
  · rename_i hx
    rw [hx, h]
  · rfl

theorem Inv.setDev {pd : IdleDev κ} (hi : s.Inv cfg)
    (h : pd.lastActivity = (s.dev d).lastActivity) : (s.setDev d pd).Inv cfg where
  clock := hi.clock
  recorded := hi.recorded
  stamp := fun x => by rw [lastActivity_setDev h]; exact hi.stamp x
  currtime := hi.currtime
  nodup := hi.nodup
  called := fun x hx => by rw [lastActivity_setDev h]; exact hi.called x hx
  chosen := hi.chosen
  picked := fun x hx => by rw [lastActivity_setDev h]; exact hi.picked x hx

theorem Inv.stamp_step (hi : s.Inv cfg) (hd : SweepState.chosen s.pc ≠ some d) : (s.stamp d).Inv cfg where
  clock := hi.clock
  recorded := fun x => by
    change update s.recorded d s.clock x ≤ s.clock
    rw [update_apply]
    split
    · exact le_rfl
    · exact hi.recorded x
  stamp := fun x => by
    change (update s.dev d _ x).lastActivity = 0 ∨
      (update s.dev d _ x).lastActivity = update s.recorded d s.clock x
    rw [update_apply, update_apply]
    split
    · exact Or.inr rfl
    · exact hi.stamp x
  currtime := hi.currtime
  nodup := hi.nodup
  called := fun x hx => by
    change (update s.dev d _ x).lastActivity = 0 ∨
      s.currtime ≤ (update s.dev d _ x).lastActivity
    rw [update_apply]
    split
    · exact Or.inr hi.currtime
    · exact hi.called x hx
  chosen := fun x hx => by
    have hne : x ≠ d := fun he => hd (he ▸ hx)
    obtain ⟨h1, h2⟩ := hi.chosen x hx
    refine ⟨?_, h2⟩
    change cfg.suspendTimeout < s.clock - update s.recorded d s.clock x
    rwa [update_of_ne hne]
  picked := fun x hx => by
    have hne : x ≠ d := by
      rintro rfl
      change s.pc = .picked x at hx
      rw [hx] at hd
      exact hd rfl
    change (update s.dev d _ x).lastActivity = 0
    rw [update_of_ne hne]
    exact hi.picked x hx

omit [DecidableEq δ] in
theorem Inv.test {rest : List δ} (hi : s.Inv cfg) (hc : s.SweepCond cfg .test)
    (hp : s.pc = .walk (d :: rest)) (h1 : (s.dev d).considered = true)
    (h2 : (s.dev d).idle cfg s.currtime = true) : s.IdleFor cfg d ∧ d ∉ s.calls := by
  have hle := hc d (by rw [hp]; rfl) h1 h2
  have h3 : (s.dev d).lastActivity ≠ 0 ∧
      cfg.suspendTimeout < ulongSub s.currtime (s.dev d).lastActivity := by
    simpa [IdleDev.idle] using h2
  obtain ⟨h3, h4⟩ := h3
  have hlt := hi.clock
  have hcur := hi.currtime
  rw [ulongSub_of_le hle (by omega)] at h4
  constructor
  · have hr := (hi.stamp d).resolve_left h3
    unfold IdleFor
    omega
  · intro hm
    have := (hi.called d hm).resolve_left h3
    omega

omit [DecidableEq δ] in
theorem Inv.goto {pc : SweepPc δ} (hi : s.Inv cfg) (hn : SweepState.chosen pc = none) : (s.goto pc).Inv cfg where
  toStamped := ⟨hi.clock, hi.recorded, hi.stamp⟩
  currtime := hi.currtime
  nodup := hi.nodup
  called := hi.called
  chosen := fun d h => by
    change SweepState.chosen pc = some d at h
    rw [hn] at h
    cases h
  picked := fun d h => by
    change pc = .picked d at h
    rw [h] at hn
    cases hn

theorem Inv.zero (hi : s.Inv cfg) (d : δ) :
    (s.setDev d { s.dev d with lastActivity := 0 }).Inv cfg where
  clock := hi.clock
  recorded := hi.recorded
  stamp := fun x => by
    rw [setDev_dev, update_apply]
    split
    · exact Or.inl rfl
    · exact hi.stamp x
  currtime := hi.currtime
  nodup := hi.nodup
  called := fun x hx => by
    rw [setDev_dev, update_apply]
    split
    · exact Or.inl rfl
    · exact hi.called x hx
  chosen := hi.chosen
  picked := fun x hx => by
    rw [setDev_dev, update_apply]
    split
    · rfl
    · exact hi.picked x hx

theorem step_inv (hi : s.Inv cfg) (hc : s.SweepCond cfg e) (hs : s.step cfg e = some s') :
    s'.Inv cfg := by
  cases e with
  | start =>
    simp only [step] at hs
    split at hs
    · obtain rfl := some.inj hs
      refine ⟨⟨hi.clock, hi.recorded, hi.stamp⟩, le_rfl, nodup_nil, by simp, ?_, ?_⟩
      · intro d h
        cases h
      · intro d h
        cases h
    · cases hs
  | test =>
    simp only [step] at hs
    split at hs
    · rename_i d rest hp
      split at hs <;> obtain rfl := some.inj hs
      · rename_i ht
        rw [Bool.and_eq_true] at ht
        refine ⟨⟨hi.clock, hi.recorded, hi.stamp⟩, hi.currtime, hi.nodup, hi.called, ?_, ?_⟩
        · intro x h
          obtain rfl := some.inj h
          exact hi.test hc hp ht.1 ht.2
        · intro x h
          cases h
      · exact hi.goto rfl
    · cases hs
  | ask answers =>
    simp only [step] at hs
    split at hs
    · rename_i d rest hp
      split at hs <;> obtain rfl := some.inj hs
      · have hz := hi.zero d
        refine ⟨⟨hz.clock, hz.recorded, hz.stamp⟩, hz.currtime, hz.nodup, hz.called, ?_, ?_⟩
        · intro x h
          obtain rfl := some.inj h
          exact hi.chosen d (by rw [hp]; rfl)
        · intro x h
          cases h
          change (update s.dev d _ d).lastActivity = 0
          rw [update_self]
      · exact (hi.zero d).goto rfl
    · cases hs
  | call =>
    simp only [step] at hs
    split at hs
    · rename_i d hp
      obtain rfl := some.inj hs
      have hd := (hi.chosen d (by rw [hp]; rfl)).2
      refine ⟨⟨hi.clock, hi.recorded, hi.stamp⟩, hi.currtime, ?_, ?_, ?_, ?_⟩
      · refine nodup_append.mpr ⟨hi.nodup, nodup_singleton d, ?_⟩
        rintro x hx y hy rfl
        exact hd (mem_singleton.mp hy ▸ hx)
      · intro x hx
        rcases mem_append.mp hx with hx | hx
        · exact hi.called x hx
        · rw [mem_singleton.mp hx]
          exact Or.inl (hi.picked d hp)
      · intro x h
        cases h
      · intro x h
        cases h
    · cases hs
  | restart | finish =>
    simp only [step] at hs
    split at hs
    · obtain rfl := some.inj hs
      exact hi.goto rfl
    · cases hs
  | tick n =>
    simp only [step] at hs
    split at hs
    · obtain rfl := some.inj hs
      rename_i hlt
      refine ⟨⟨hlt, fun d => (hi.recorded d).trans (Nat.le_add_right _ _), hi.stamp⟩,
        hi.currtime.trans (Nat.le_add_right _ _), hi.nodup, hi.called, ?_, hi.picked⟩
      intro d hd
      obtain ⟨h1, h2⟩ := hi.chosen d hd
      refine ⟨?_, h2⟩
      unfold IdleFor at h1 ⊢
      exact h1.trans_le (Nat.sub_le_sub_right (Nat.le_add_right _ _) _)
    · cases hs
  | activityBegin d weight | activityEnd d weight =>
    obtain rfl := some.inj hs
    exact Inv.stamp_step (hi.setDev rfl) hc
  | change d pd' =>
    obtain rfl := some.inj hs
    exact hi.setDev rfl
  | link l =>
    simp only [step] at hs
    split at hs
    · cases hs
    · cases hs
    · obtain rfl := some.inj hs
      exact ⟨⟨hi.clock, hi.recorded, hi.stamp⟩, hi.currtime, hi.nodup, hi.called, hi.chosen,
        hi.picked⟩

def atHand : SweepPc δ → List δ
  | .out => []
  | .walk rest => rest
  | .asking d rest => d :: rest
  | .picked d | .suspending d => [d]

/-- A bound of the steps that are left to the sweep before its next call, among `n` devices. -/
def left (n : ℕ) : SweepPc δ → ℕ
  | .out | .picked _ => 0
  | .walk rest => 2 * rest.length + 1
  | .asking _ rest => 2 * rest.length + 2
  | .suspending _ => 2 * n + 2

/-- All devices are of a set, and the sweep has not made more steps than its calls account for. -/
structure Within (U : Finset δ) (s : SweepState δ κ) : Prop where
  nodup : s.devices.Nodup
  devices : ∀ d ∈ s.devices, d ∈ U
  atHand : ∀ d ∈ atHand s.pc, d ∈ U
  calls : ∀ d ∈ s.calls, d ∈ U
  steps : s.steps + left U.card s.pc ≤ 2 * U.card + 1 + s.calls.length * (2 * U.card + 3)

def LinksIn (U : Finset δ) (e : SweepEvent δ κ) : Prop :=
  ∀ l, e = .link l → l.Nodup ∧ ∀ d ∈ l, d ∈ U

variable {U : Finset δ}

theorem length_le_card {l : List δ} (hn : l.Nodup) (hu : ∀ d ∈ l, d ∈ U) : l.length ≤ U.card := by
  rw [← toFinset_card_of_nodup hn]
  apply Finset.card_le_card
  intro d hd
  exact hu d (List.mem_toFinset.mp hd)

omit [DecidableEq δ] in
theorem Within.goto {pc : SweepPc δ} (hw : s.Within U) (hd : ∀ d ∈ SweepState.atHand pc, d ∈ U)
    (hl : left U.card pc < left U.card s.pc) : (s.goto pc).Within U := by
  refine ⟨hw.nodup, hw.devices, hd, hw.calls, ?_⟩
  have := hw.steps
  change s.steps + 1 + left U.card pc ≤ 2 * U.card + 1 + s.calls.length * (2 * U.card + 3)
  omega

theorem Within.setDev {pd : IdleDev κ} (hw : s.Within U) : (s.setDev d pd).Within U :=
  ⟨hw.nodup, hw.devices, hw.atHand, hw.calls, hw.steps⟩

theorem Within.stamp (hw : s.Within U) : (s.stamp d).Within U :=
  ⟨hw.nodup, hw.devices, hw.atHand, hw.calls, hw.steps⟩

theorem step_within (hw : s.Within U) (hc : LinksIn U e) (hs : s.step cfg e = some s') :
    s'.Within U := by
  cases e with
  | start =>
    simp only [step] at hs
    split at hs
    · obtain rfl := some.inj hs
      have := length_le_card hw.nodup hw.devices
      refine ⟨hw.nodup, hw.devices, hw.devices, by simp, ?_⟩
      simp only [left, length_nil]
      omega
    · cases hs
  | test =>
    simp only [step] at hs
    split at hs
    · rename_i d rest hp
      have hin := hw.atHand
      rw [hp] at hin
      split at hs <;> obtain rfl := some.inj hs <;> apply hw.goto
      · exact hin
      · simp only [hp, left, length_cons]
        omega
      · exact fun x hx => hin x (mem_cons_of_mem _ hx)
      · simp only [hp, left, length_cons]
        omega
    · cases hs
  | ask answers =>
    simp only [step] at hs
    split at hs
    · rename_i d rest hp
      have hin := hw.atHand
      rw [hp] at hin
      split at hs <;> obtain rfl := some.inj hs <;> apply hw.setDev.goto
      · intro x hx
        rw [mem_singleton.mp hx]
        exact hin d mem_cons_self
      · change left U.card (.picked d) < left U.card s.pc
        simp only [hp, left]
        omega
      · exact fun x hx => hin x (mem_cons_of_mem _ hx)
      · change left U.card (.walk rest) < left U.card s.pc
        simp only [hp, left]
        omega
    · cases hs
  | call =>
    simp only [step] at hs
    split at hs
    · rename_i d hp
      obtain rfl := some.inj hs
      have hin := hw.atHand
      have hst := hw.steps
      rw [hp] at hin hst
      refine ⟨hw.nodup, hw.devices, hin, ?_, ?_⟩
      · intro x hx
        rcases mem_append.mp hx with hx | hx
        · exact hw.calls x hx
        · exact hin x hx
      · -- the call pays for the walk after it
        change s.steps + 1 + left U.card (.suspending d) ≤
          2 * U.card + 1 + (s.calls ++ [d]).length * (2 * U.card + 3)
        rw [length_append, length_singleton, Nat.add_mul]
        simp only [left] at hst ⊢
        omega
    · cases hs
  | restart =>
    simp only [step] at hs
    split at hs
    · rename_i d hp
      obtain rfl := some.inj hs
      have := length_le_card hw.nodup hw.devices
      refine Within.goto (show s.Within U from hw) hw.devices ?_
      simp only [hp, left]
      omega
    · cases hs
  | finish =>
    simp only [step] at hs
    split at hs
    · rename_i hp
      obtain rfl := some.inj hs
      apply hw.goto
      · simp [SweepState.atHand]
      · simp [hp, left]
    · cases hs
  | tick n =>
    simp only [step] at hs
    split at hs
    · obtain rfl := some.inj hs
      exact ⟨hw.nodup, hw.devices, hw.atHand, hw.calls, hw.steps⟩
    · cases hs
  | activityBegin d weight | activityEnd d weight =>
    obtain rfl := some.inj hs
    exact hw.setDev.stamp
  | change d pd' =>
    obtain rfl := some.inj hs
    exact hw.setDev
  | link l =>
    simp only [step] at hs
    obtain ⟨hn, hu⟩ := hc l rfl
    split at hs
    · cases hs
    · cases hs
    · obtain rfl := some.inj hs
      exact ⟨hn, hu, hw.atHand, hw.calls, hw.steps⟩

/-- In every run whose steps meet the condition, the sweep calls `psdSuspendDevice` only on a device
that has been idle for longer than the timeout at that moment, and on each device once. So a sweep
over devices of a finite set makes a bounded number of restarts, and of steps. -/
theorem idle_sweep (h0 : s₀.Fresh) (hr : Runs.Run (step cfg) (SweepCond cfg) s₀ evs s) :
    (∀ d, s.pc = .picked d → s.IdleFor cfg d) ∧ s.calls.Nodup ∧
      ∀ U : Finset δ, s₀.devices.Nodup → (∀ d ∈ s₀.devices, d ∈ U) → (∀ e ∈ evs, LinksIn U e) →
        s.calls.length ≤ U.card ∧
          s.steps ≤ 2 * U.card + 1 + U.card * (2 * U.card + 3) := by
  have hi : s.Inv cfg := hr.invariant (Inv cfg) h0.inv fun _ _ _ hi hc hs => step_inv hi hc hs
  refine ⟨fun d hp => (hi.chosen d (by rw [hp]; rfl)).1, hi.nodup, fun U hn hu hl => ?_⟩
  have hw0 : s₀.Within U := by
    refine ⟨hn, hu, ?_, ?_, ?_⟩
    · simp [h0.out, atHand]
    · simp [h0.calls]
    · simp [h0.out, h0.steps, left]
  have hw : s.Within U := by
    refine hr.invariant_trace (fun evs t => (∀ e ∈ evs, LinksIn U e) → t.Within U)
      (fun _ => hw0) ?_ hl
    intro evs t e u hw _ hs hl
    refine step_within (hw fun x hx => hl x (mem_append_left _ hx)) ?_ hs
    exact hl e (mem_append_right _ (mem_singleton_self e))
  have hcalls := length_le_card hi.nodup hw.calls
  refine ⟨hcalls, ?_⟩
  have := Nat.mul_le_mul_right (2 * U.card + 3) hcalls
  have := hw.steps
  omega

def idleSince (t : ℕ) : IdleDev ℕ :=
  ⟨0, some ⟨false, []⟩, true, false, false, false, false, false, 0, t, false, none⟩

def twoIdle : SweepState ℕ ℕ :=
  ⟨fun _ => idleSince 40, [1, 2], 100, 0, .out, fun _ => 40, [], 0⟩

theorem twoIdle_fresh : twoIdle.Fresh := by
  refine ⟨⟨by decide, fun _ => ?_, fun _ => Or.inr rfl⟩, rfl, by decide, rfl, rfl⟩
  change 40 ≤ 100
  decide

def thirtySeconds : SuspendCfg := ⟨30, false⟩

/-- The first device is suspended, which takes a second, and a transfer on the other has begun in
the second the sweep has started in. -/
def oneCall : List (SweepEvent ℕ ℕ) :=
  [.start, .test, .ask fun _ => true, .call, .activityBegin 2 0, .tick 1, .restart, .test, .test]

instance (s : SweepState δ κ) : ∀ e, Decidable (s.SweepCond cfg e)
  | .test => inferInstanceAs (Decidable (∀ d ∈ next s.pc, _ = _ → _ = _ → _ ≤ _))
  | .activityBegin _ _ | .activityEnd _ _ => inferInstanceAs (Decidable (_ ≠ _))
  | .start | .ask _ | .call | .restart | .finish | .tick _ | .change _ _ | .link _ =>
    inferInstanceAs (Decidable True)

theorem idle_sweep_oneCall :
    let s := (Runs.exec (step thirtySeconds) twoIdle oneCall).get rfl
    (∀ d, s.pc = .picked d → s.IdleFor thirtySeconds d) ∧ s.calls.Nodup ∧
      ∀ U : Finset ℕ, twoIdle.devices.Nodup → (∀ d ∈ twoIdle.devices, d ∈ U) →
        (∀ e ∈ oneCall, LinksIn U e) →
          s.calls.length ≤ U.card ∧ s.steps ≤ 2 * U.card + 1 + U.card * (2 * U.card + 3) :=
  idle_sweep twoIdle_fresh (Runs.Run.get_meets (by decide) rfl)

/-- While the first device is being suspended a second passes. The other has then just been in use,
but its stamp is ahead of the time the sweep has read; and the first, to which remote wakeup has been
sent and which could not be suspended, is called again, and again. -/
theorem idle_sweep_fails :
    twoIdle.Fresh ∧
      (∃ s, Runs.Run (step thirtySeconds) Runs.anyStep twoIdle
        [.start, .test, .ask fun _ => true, .call, .tick 1, .activityEnd 2 0, .restart, .test,
          .test, .ask fun _ => true] s ∧ s.pc = .picked 2 ∧ ¬ s.IdleFor thirtySeconds 2) ∧
      ∃ s, Runs.Run (step thirtySeconds) Runs.anyStep twoIdle
        [.start, .test, .ask fun _ => true, .call, .tick 1, .activityBegin 1 1, .activityEnd 1 1,
          .restart, .test, .ask fun _ => true, .call, .tick 1, .activityBegin 1 1,
          .activityEnd 1 1, .restart, .test, .ask fun _ => true, .call] s ∧
        s.calls = [1, 1, 1] := by
  refine ⟨twoIdle_fresh, ⟨_, Runs.Run.get rfl, rfl, ?_⟩, ⟨_, Runs.Run.get rfl, rfl⟩⟩
  change ¬ 30 < 101 - 101
  decide

end Neptune.SweepState
