import Mathlib

/-! Pointers that are NULL or hold what was obtained through them, with the count of what was obtained and
released through each. -/

namespace Ledgers

structure Ledger (κ : Type) where
  held : κ → Bool
  got : κ → ℕ
  freed : κ → ℕ

namespace Ledger

section

variable {κ : Type} {k : κ} (l : Ledger κ)

/-- NULL everywhere. -/
def blank : Ledger κ := ⟨fun _ => false, fun _ => 0, fun _ => 0⟩

/-- What was obtained has been released once, or is what the pointer holds. -/
def Balanced : Prop := ∀ k, l.got k = l.freed k + (l.held k).toNat

theorem Balanced.blank : (blank : Ledger κ).Balanced := fun _ => rfl

theorem Balanced.settled {l : Ledger κ} (h : l.Balanced) (hk : l.held k = false) : l.got k = l.freed k := by
  have := h k
  rwa [hk] at this

end

variable {κ : Type} [DecidableEq κ] {k j : κ} (l : Ledger κ)

def take (k : κ) : Ledger κ :=
  { l with held := Function.update l.held k true, got := Function.update l.got k (l.got k + 1) }

/-- NULL is let be. -/
def drop (k : κ) : Ledger κ :=
  if l.held k then
    { l with held := Function.update l.held k false, freed := Function.update l.freed k (l.freed k + 1) }
  else l

def dropAll (ks : List κ) : Ledger κ := ks.foldl drop l

variable {l}

@[simp] theorem held_take (k j : κ) : (l.take k).held j = (decide (j = k) || l.held j) := by
  by_cases h : j = k
  · simp [take, h]
  · simp [take, h]

theorem Balanced.take (h : l.Balanced) (hk : l.held k = false) : (l.take k).Balanced := by
  intro j
  by_cases hj : j = k
  · subst hj
    have hj := h j
    simp only [Ledger.take, Function.update_self, Bool.toNat_true]
    rw [hk, Bool.toNat_false] at hj
    omega
  · simp only [Ledger.take, Function.update_of_ne hj]
    exact h j

@[simp] theorem held_drop (k j : κ) : (l.drop k).held j = (l.held j && !decide (j = k)) := by
  unfold drop
  split
  · by_cases h : j = k
    · simp [h]
    · simp [h]
  · next hk =>
    by_cases h : j = k
    · subst h
      simp [eq_false_of_ne_true hk]
    · simp [h]

theorem Balanced.drop (h : l.Balanced) (k : κ) : (l.drop k).Balanced := by
  unfold Ledger.drop
  split
  · next hk =>
    intro j
    by_cases hj : j = k
    · subst hj
      have hj := h j
      simp only [Function.update_self, Bool.toNat_false]
      rw [hk, Bool.toNat_true] at hj
      omega
    · simp only [Function.update_of_ne hj]
      exact h j
  · exact h

@[simp] theorem held_dropAll (ks : List κ) (j : κ) : (l.dropAll ks).held j = (l.held j && !decide (j ∈ ks)) := by
  induction ks generalizing l with
  | nil => simp [dropAll]
  | cons k ks ih =>
    show ((l.drop k).dropAll ks).held j = _
    rw [ih, held_drop]
    by_cases hk : j = k <;> simp [hk]

theorem Balanced.dropAll (h : l.Balanced) (ks : List κ) : (l.dropAll ks).Balanced := by
  induction ks generalizing l with
  | nil => exact h
  | cons k ks ih => exact ih (h.drop k)

end Ledger

end Ledgers
