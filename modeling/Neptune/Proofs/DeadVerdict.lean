import Neptune.Spec.Enumerate

/-! When the verdict on a device is what its results say. -/

namespace Neptune.PipeWait

open Runs

namespace PsdDevice

variable (pd : PsdDevice) (ioerr : IoErr)

@[simp] theorem countResult_dead : (pd.countResult ioerr).dead = pd.dead := by
  unfold countResult
  split <;> rfl

@[simp] theorem countResult_connected : (pd.countResult ioerr).connected = pd.connected := by
  unfold countResult
  split <;> rfl

@[simp] theorem judge_deadCount : pd.judge.deadCount = pd.deadCount := by
  unfold judge
  split
  · rfl
  · split <;> rfl

theorem judge_failing (h : pd.failing = true) : pd.judge.dead = true := by rw [judge, if_pos h]

theorem judge_sound (h : pd.failing = false) :
    pd.judge.dead = (pd.dead && !decide (pd.deadCount = 0 ∧ pd.dead ∧ pd.connected)) := by
  rw [judge, if_neg (by rw [h]; exact Bool.false_ne_true)]
  split
  · next hc => rw [decide_eq_true hc, Bool.not_true, Bool.and_false]
  · next hc => rw [decide_eq_false hc, Bool.not_false, Bool.and_true]

theorem countResult_lt (h : pd.deadCount < 2 ^ 16) : (pd.countResult ioerr).deadCount < 2 ^ 16 := by
  unfold countResult
  split
  · exact uword_lt _
  · exact lt_of_le_of_lt (Nat.div_le_self _ _) h

theorem countResult_some {n : ℕ} (h : ioerr.score = some n) :
    (pd.countResult ioerr).deadCount = uword (pd.deadCount + n) := by
  rw [countResult, h]

theorem psdWaitPipe_clears (hdead : pd.dead = true) : (pd.psdWaitPipe ioerr).dead = false ↔
    (pd.countResult ioerr).deadCount = 0 ∧ pd.connected = true := by
  unfold psdWaitPipe
  cases hf : (pd.countResult ioerr).failing with
  | true =>
    rw [judge_failing _ hf]
    refine iff_of_false Bool.false_ne_true.symm fun hzero => ?_
    simp [failing, hzero.1] at hf
  | false =>
    rw [judge_sound _ hf, countResult_dead, countResult_connected, hdead]
    simp

theorem psdWaitPipe_sets (hdead : pd.dead = false) :
    (pd.psdWaitPipe ioerr).dead = (pd.countResult ioerr).failing := by
  unfold psdWaitPipe
  cases hf : (pd.countResult ioerr).failing with
  | true => exact judge_failing _ hf
  | false => rw [judge_sound _ hf, countResult_dead, hdead, Bool.false_and]

end PsdDevice

theorem IoErr.score_pos {ioerr : IoErr} {n : ℕ} (h : ioerr.score = some n) : 0 < n ∧ n ≤ 3 := by
  cases ioerr <;> simp only [IoErr.score, Option.some.injEq, reduceCtorEq] at h <;> omega

structure Inv (w : Watch) : Prop where
  count : w.pd.deadCount < 2 ^ 16
  above : w.above = true → w.pd.dead = true
  once : w.sent = w.cleared + w.pd.dead.toNat

theorem start_inv (pd : PsdDevice) : Inv (start pd) := ⟨by norm_num [start], nofun, rfl⟩

theorem result_inv {w : Watch} (h : Inv w) (ioerr : IoErr) : Inv (w.result ioerr) := by
  refine ⟨?_, PsdDevice.judge_failing _, ?_⟩
  · show (w.pd.countResult ioerr).judge.deadCount < 2 ^ 16
    rw [PsdDevice.judge_deadCount]
    exact PsdDevice.countResult_lt _ _ h.count
  · have honce := h.once
    show w.sent + (!w.pd.dead && (w.pd.psdWaitPipe ioerr).dead).toNat =
      w.cleared + (w.pd.dead && !(w.pd.psdWaitPipe ioerr).dead).toNat + (w.pd.psdWaitPipe ioerr).dead.toNat
    cases hb : w.pd.dead <;> cases ha : (w.pd.psdWaitPipe ioerr).dead <;> rw [hb] at honce <;>
      simp only [Bool.toNat_false, Bool.toNat_true] at honce <;> simp [honce]

theorem step_inv {w w' : Watch} {e : Event} (h : Inv w) (hs : step w e = some w') : Inv w' := by
  cases e with
  | result ioerr =>
    cases hs
    exact result_inv h ioerr
  | other pd =>
    cases hs
    exact ⟨h.count, h.above, h.once⟩

/-- A result clears the flag with none since then that does not score exactly where the counter overflows. -/
theorem result_truthful {w : Watch} (h : Inv w) (ioerr : IoErr) :
    Truthful w (w.result ioerr) ↔ ¬Overflows w (.result ioerr) := by
  have hclears := w.pd.psdWaitPipe_clears ioerr
  constructor
  · rintro ht ⟨hdead, hconn, hspared, n, hn, hcount⟩
    have hzero : (w.pd.countResult ioerr).deadCount = 0 := by rw [w.pd.countResult_some ioerr hn, hcount]; rfl
    have hgone := (hclears hdead).mpr ⟨hzero, hconn⟩
    have hnow := (ht.cleared hdead hgone).1
    simp [Watch.result, hdead, hspared, hn] at hnow
  · intro hno
    refine ⟨fun hdead hset => ?_, fun hsent => ?_, (result_inv h ioerr).once, fun hdead hgone => ?_⟩
    · have habove : w.above = false := by
        by_contra habove
        rw [h.above (eq_true_of_ne_false habove)] at hdead
        exact absurd hdead (by decide)
      refine ⟨habove, (w.pd.psdWaitPipe_sets ioerr hdead).symm.trans hset, ?_⟩
      have hset' : (w.pd.psdWaitPipe ioerr).dead = true := hset
      simp only [Watch.result, hdead, hset', Bool.not_false, Bool.and_true, Bool.toNat_true]
    · by_contra hne
      refine hsent ?_
      have hset : (!w.pd.dead && (w.pd.psdWaitPipe ioerr).dead) = false := by
        by_contra hset
        obtain ⟨hdead, hset⟩ := Bool.and_eq_true_iff.mp (eq_true_of_ne_false hset)
        exact hne ⟨Bool.not_eq_true' _ ▸ hdead, hset⟩
      show w.sent + (!w.pd.dead && (w.pd.psdWaitPipe ioerr).dead).toNat = w.sent
      rw [hset, Bool.toNat_false, Nat.add_zero]
    · have hgone' : (w.pd.psdWaitPipe ioerr).dead = false := hgone
      obtain ⟨hzero, hconn⟩ := (hclears hdead).mp hgone'
      refine ⟨?_, by simp only [Watch.result, hdead, hgone', Bool.not_false, Bool.and_true, Bool.toNat_true]⟩
      simp only [Watch.result, hdead, Bool.not_true, Bool.false_and, Bool.not_false, Bool.true_and]
      by_contra hspared
      obtain ⟨hspared, hscore⟩ := Bool.or_eq_false_iff.mp (eq_false_of_ne_true hspared)
      obtain ⟨n, hn⟩ := Option.isSome_iff_exists.mp (Option.isNone_eq_false_iff.mp hscore)
      refine hno ⟨hdead, hconn, hspared, n, hn, ?_⟩
      -- less than two rounds of the counter
      rw [w.pd.countResult_some ioerr hn] at hzero
      obtain ⟨hpos, hle⟩ := IoErr.score_pos hn
      have hcount := h.count
      unfold uword at hzero
      omega

theorem step_truthful {w w' : Watch} {e : Event} (h : Inv w) (hs : step w e = some w') :
    Truthful w w' ↔ ¬Overflows w e := by
  cases e with
  | result ioerr =>
    cases hs
    exact result_truthful h ioerr
  | other pd =>
    have hinv := step_inv h hs
    cases hs
    refine iff_of_true ⟨fun hb ha => ?_, fun hne => absurd rfl hne, hinv.once, fun hb ha => ?_⟩ id
    · exact absurd (hb.symm.trans ha) (by decide)
    · exact absurd (hb.symm.trans ha) (by decide)

/-- The flag and the event are truthful all along exactly when the counter never overflows to 0. -/
theorem verdict_truthful_iff (pd : PsdDevice) (evs : List Event) :
    Always step (fun w _ w' => Truthful w w') (start pd) evs ↔
      Always step (fun w e _ => ¬Overflows w e) (start pd) evs :=
  Always.congr_invariant (I := Inv) (fun _ _ _ => step_inv) (fun _ _ _ => step_truthful) (start_inv pd) evs

def naking : PsdDevice :=
  ⟨[], 1, false, true, false, false, true, true, true, false, false, 0, 1, 1, 0, 64⟩

@[simp] theorem PsdDevice.psdWaitPipe_connected (pd : PsdDevice) (ioerr : IoErr) :
    (pd.psdWaitPipe ioerr).connected = pd.connected := by
  unfold PsdDevice.psdWaitPipe PsdDevice.judge
  split
  · exact pd.countResult_connected ioerr
  · split <;> exact pd.countResult_connected ioerr

/-- Flagged since before, with no result since that does not score, and `n` on the counter. -/
structure Naked (w : Watch) (n : ℕ) : Prop where
  dead : w.pd.dead = true
  connected : w.pd.connected = true
  spared : w.spared = false
  count : w.pd.deadCount = n

theorem Naked.result {w : Watch} {n : ℕ} (h : Naked w n) (hn : n + 2 < 2 ^ 16) :
    Naked (w.result .nakTimeout) (n + 2) := by
  have hcount : (w.pd.countResult .nakTimeout).deadCount = n + 2 := by
    rw [w.pd.countResult_some .nakTimeout rfl, h.count, uword_of_lt hn]
  have hdead : (w.pd.psdWaitPipe .nakTimeout).dead = true := by
    by_contra hgone
    have hzero := ((w.pd.psdWaitPipe_clears .nakTimeout h.dead).mp (eq_false_of_ne_true hgone)).1
    omega
  refine ⟨hdead, (w.pd.psdWaitPipe_connected _).trans h.connected, ?_, ?_⟩
  · simp [Watch.result, h.dead, h.spared, IoErr.score]
  · show (w.pd.countResult .nakTimeout).judge.deadCount = n + 2
    rw [PsdDevice.judge_deadCount, hcount]

theorem naks (n : ℕ) (hn : n < 2 ^ 15 - 8) :
    ∃ evs w, Run step anyStep (start naking) evs w ∧ (∀ e ∈ evs, e = .result .nakTimeout) ∧ Naked w (2 * (n + 8)) := by
  induction n with
  | zero =>
    refine ⟨List.replicate 8 (.result .nakTimeout), _, Run.get (by decide), fun e he => List.eq_of_mem_replicate he, ?_⟩
    exact ⟨by decide, by decide, by decide, by decide⟩
  | succ n ih =>
    obtain ⟨evs, w, hrun, hall, hw⟩ := ih (by omega)
    refine ⟨evs ++ [.result .nakTimeout], w.result .nakTimeout, hrun.snoc trivial rfl, fun e he => ?_, ?_⟩
    · rcases List.mem_append.mp he with he | he
      · exact hall e he
      · exact List.mem_singleton.mp he
    · have hnext : 2 * (n + 8) + 2 = 2 * (n + 1 + 8) := by omega
      exact hnext ▸ hw.result (by omega)

/-- After 32768 NAK timeouts and nothing else the device is said to be responding again. -/
theorem responding_again : ∃ evs w, Run step anyStep (start naking) evs w ∧ (∀ e ∈ evs, e = .result .nakTimeout) ∧
    w.pd.dead = true ∧ w.spared = false ∧ (w.result .nakTimeout).pd.dead = false ∧
    ¬Truthful w (w.result .nakTimeout) := by
  obtain ⟨evs, w, hrun, hall, hw⟩ := naks 32759 (by norm_num)
  have hzero : (w.pd.countResult .nakTimeout).deadCount = 0 := by
    rw [w.pd.countResult_some .nakTimeout rfl, hw.count]
    rfl
  have hgone := (w.pd.psdWaitPipe_clears .nakTimeout hw.dead).mpr ⟨hzero, hw.connected⟩
  refine ⟨evs, w, hrun, hall, hw.dead, hw.spared, hgone, fun ht => ?_⟩
  have hspared := (ht.cleared hw.dead hgone).1
  simp [Watch.result, hw.dead, hw.spared, IoErr.score] at hspared

end Neptune.PipeWait
