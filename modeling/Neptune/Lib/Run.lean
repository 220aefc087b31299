import Mathlib

/-! Runs of a machine given by a partial transition function, and the induction over them.
A run can be restricted to steps that meet a condition on the state before the step. -/

namespace Runs

open Option

variable {σ ε : Type*}

/-- `Run step ok s evs t`: the events `evs` lead from `s` to `t`, and each meets `ok` where it
happens. -/
inductive Run (step : σ → ε → Option σ) (ok : σ → ε → Prop) (s : σ) : List ε → σ → Prop
  | nil : Run step ok s [] s
  | snoc {evs : List ε} {t : σ} {e : ε} {u : σ} :
      Run step ok s evs t → ok t e → step t e = some u → Run step ok s (evs ++ [e]) u

def anyStep (_ : σ) (_ : ε) : Prop := True

variable {step : σ → ε → Option σ} {ok ok' : σ → ε → Prop} {s t u : σ} {evs : List ε}

theorem of_guard {p : Prop} [Decidable p] (h : (if p then some t else none) = some u) : p ∧ t = u := by
  obtain ⟨hp, hu⟩ := ite_none_right_eq_some.mp h
  exact ⟨hp, some.inj hu⟩

theorem Run.invariant (I : σ → Prop) (h0 : I s)
    (hstep : ∀ t e u, I t → ok t e → step t e = some u → I u)
    (h : Run step ok s evs t) : I t := by
  induction h with
  | nil => exact h0
  | snoc _ hok hs ih => exact hstep _ _ _ ih hok hs

theorem Run.invariant_trace (I : List ε → σ → Prop) (h0 : I [] s)
    (hstep : ∀ evs t e u, I evs t → ok t e → step t e = some u → I (evs ++ [e]) u)
    (h : Run step ok s evs t) : I evs t := by
  induction h with
  | nil => exact h0
  | snoc _ hok hs ih => exact hstep _ _ _ _ ih hok hs

theorem Run.trans {es : List ε} (h : Run step ok s evs t) (h' : Run step ok t es u) :
    Run step ok s (evs ++ es) u := by
  induction h' with
  | nil => simpa using h
  | snoc _ hok hs ih => rw [← List.append_assoc]; exact ih.snoc hok hs

/-- The state a list of events leads to, when none of them is refused. -/
def exec (step : σ → ε → Option σ) : σ → List ε → Option σ
  | s, [] => some s
  | s, e :: es => (step s e).bind fun t => exec step t es

variable {I : σ → Prop} {P Q : σ → ε → σ → Prop}

theorem exec_total (h0 : I s) (evs : List ε)
    (hstep : ∀ t, ∀ e ∈ evs, I t → ∃ u, step t e = some u ∧ I u) : ∃ t, exec step s evs = some t ∧ I t := by
  induction evs generalizing s with
  | nil => exact ⟨s, rfl, h0⟩
  | cons e es ih =>
    obtain ⟨u, hu, hI⟩ := hstep s e List.mem_cons_self h0
    obtain ⟨t, ht, hIt⟩ := ih hI fun t e he => hstep t e (List.mem_cons_of_mem _ he)
    exact ⟨t, by rw [exec, hu, bind_some, ht], hIt⟩

/-- Every event of the list meets `ok` where it happens. -/
def Meets (step : σ → ε → Option σ) (ok : σ → ε → Prop) : σ → List ε → Prop
  | _, [] => True
  | s, e :: es => ok s e ∧ ∀ t, step s e = some t → Meets step ok t es

theorem Run.of_exec (hok : Meets step ok s evs) (h : exec step s evs = some t) :
    Run step ok s evs t := by
  induction evs generalizing s with
  | nil => cases h; exact .nil
  | cons e es ih =>
    obtain ⟨u, hu, ht⟩ := bind_eq_some_iff.mp h
    have h1 : Run step ok s ([] ++ [e]) u := .snoc .nil hok.1 hu
    exact h1.trans (ih (hok.2 u hu) ht)

/-- Every step along the list is of the kind `P`. -/
def Always (step : σ → ε → Option σ) (P : σ → ε → σ → Prop) : σ → List ε → Prop
  | _, [] => True
  | s, e :: es => ∀ t, step s e = some t → P s e t ∧ Always step P t es

theorem Always.congr
    (h : ∀ s e t, step s e = some t → (P s e t ↔ Q s e t)) (s : σ) (evs : List ε) :
    Always step P s evs ↔ Always step Q s evs := by
  induction evs generalizing s with
  | nil => exact Iff.rfl
  | cons e es ih => exact forall₂_congr fun t ht => and_congr (h s e t ht) (ih t)

theorem Always.congr_invariant
    (hinv : ∀ s e t, I s → step s e = some t → I t)
    (h : ∀ s e t, I s → step s e = some t → (P s e t ↔ Q s e t)) (h0 : I s) (evs : List ε) :
    Always step P s evs ↔ Always step Q s evs := by
  induction evs generalizing s with
  | nil => exact Iff.rfl
  | cons e es ih =>
    exact forall₂_congr fun t ht => and_congr (h s e t h0 ht) (ih (hinv s e t h0 ht))

/-- Where a step keeps the invariant exactly when it meets `C`, the invariant holds along a list of
events exactly when all of them meet `C`. -/
theorem Always.invariant_iff {C : σ → ε → Prop}
    (h : ∀ s e t, I s → step s e = some t → (I t ↔ C s e)) (h0 : I s) (evs : List ε) :
    Always step (fun _ _ t => I t) s evs ↔ Always step (fun s e _ => C s e) s evs := by
  induction evs generalizing s with
  | nil => exact Iff.rfl
  | cons e es ih =>
    refine forall₂_congr fun t ht => ?_
    change I t ∧ _ ↔ C s e ∧ _
    rw [← h s e t h0 ht]
    exact and_congr_right fun hI => ih hI

theorem Always.step_at {es es' : List ε} {e : ε}
    (h : Always step P s (es ++ e :: es')) (hu : exec step s es = some t)
    (ht : step t e = some u) : P t e u := by
  induction es generalizing s with
  | nil => cases hu; exact (h u ht).1
  | cons a es ih =>
    obtain ⟨v, hv, hvt⟩ := bind_eq_some_iff.mp hu
    exact ih (h v hv).2 hvt

instance Meets.decidable [∀ s e, Decidable (ok s e)] :
    ∀ s evs, Decidable (Meets step ok s evs)
  | _, [] => .isTrue trivial
  | s, e :: es =>
    match h : step s e with
    | none => decidable_of_iff (ok s e) (by simp [Meets, h])
    | some t =>
      have := Meets.decidable t es
      decidable_of_iff (ok s e ∧ Meets step ok t es) (by simp [Meets, h])

theorem Meets.any (s : σ) (evs : List ε) : Meets step anyStep s evs := by
  induction evs generalizing s with
  | nil => trivial
  | cons e es ih => exact ⟨trivial, fun t _ => ih t⟩

theorem Run.of_exec_any (h : exec step s evs = some t) : Run step anyStep s evs t :=
  .of_exec (Meets.any s evs) h

theorem Run.get (h : (exec step s evs).isSome) :
    Run step anyStep s evs ((exec step s evs).get h) :=
  .of_exec_any (some_get h).symm

theorem Run.get_meets (hok : Meets step ok s evs) (h : (exec step s evs).isSome) :
    Run step ok s evs ((exec step s evs).get h) :=
  .of_exec hok (some_get h).symm

end Runs
