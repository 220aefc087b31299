import Mathlib

/-! Edges of a signal that is high or low: they alternate if each one changes the level. -/

namespace Edges

variable {high : Bool} {es es' : List Bool} {n : ℕ}

/-- Each edge is told by the level it leads to. -/
def Alternate (high : Bool) : List Bool → Prop
  | [] => True
  | e :: es => e = !high ∧ Alternate e es

def level (high : Bool) (es : List Bool) : Bool := es.getLast?.getD high

def Unmatched (es : List Bool) : Prop := es.count false < es.count true

theorem alternate_cons (e : Bool) : Alternate high (e :: es) ↔ e = !high ∧ Alternate e es := Iff.rfl

@[simp] theorem level_nil : level high [] = high := rfl

@[simp] theorem level_cons (e : Bool) : level high (e :: es) = level e es := by
  unfold level
  cases es with
  | nil => rfl
  | cons e' es => rw [List.getLast?_cons_cons, List.getLast?_cons, Option.getD_some, Option.getD_some]

theorem level_append (es es' : List Bool) : level high (es ++ es') = level (level high es) es' := by
  induction es generalizing high with
  | nil => rfl
  | cons e es ih => rw [List.cons_append, level_cons, level_cons, ih]

theorem alternate_append :
    Alternate high (es ++ es') ↔ Alternate high es ∧ Alternate (level high es) es' := by
  induction es generalizing high with
  | nil => exact (iff_of_eq (true_and _)).symm
  | cons e es ih =>
    rw [List.cons_append, level_cons, alternate_cons, alternate_cons, ih, and_assoc]

theorem alternate_replicate : Alternate (!high) (List.replicate n high) ↔ n ≤ 1 := by
  match n with
  | 0 => exact iff_of_true trivial (by omega)
  | 1 => exact iff_of_true ⟨(Bool.not_not high).symm, trivial⟩ le_rfl
  | n + 2 =>
    apply iff_of_false
    · rintro ⟨-, heq, -⟩
      cases high <;> exact absurd heq (by decide)
    · omega

theorem level_replicate (hn : 0 < n) (low : Bool) : level low (List.replicate n high) = high := by
  unfold level
  rw [List.getLast?_replicate, if_neg (by omega)]
  rfl

theorem Alternate.count (h : Alternate high es) :
    es.count true + high.toNat = es.count false + (level high es).toNat := by
  induction es generalizing high with
  | nil => simp
  | cons e es ih =>
    obtain ⟨rfl, htail⟩ := h
    have hcount := ih htail
    rw [level_cons]
    cases high <;> simp at hcount ⊢ <;> omega

theorem Alternate.unmatched_iff (h : Alternate false es) : Unmatched es ↔ level false es = true := by
  have hcount := h.count
  unfold Unmatched
  cases hlevel : level false es <;> rw [hlevel] at hcount <;> simp at hcount ⊢ <;> omega

end Edges
