import Mathlib

/-! Calls made of steps, any of which may return early; the flag says whether it went on. -/

namespace Early

variable {σ : Type}

def andThen (f g : σ → σ × Bool) (s : σ) : σ × Bool := if (f s).2 then g (f s).1 else f s

def inTurn : List (σ → σ × Bool) → σ → σ × Bool
  | [], s => (s, true)
  | f :: fs, s => andThen f (inTurn fs) s

/-- From `P` to `Q` where it goes on, to `E` where it returns. -/
def Leads (P : σ → Prop) (f : σ → σ × Bool) (Q E : σ → Prop) : Prop :=
  ∀ s, P s → ((f s).2 = true → Q (f s).1) ∧ ((f s).2 = false → E (f s).1)

variable {P Q R E : σ → Prop} {f g : σ → σ × Bool} {fs : List (σ → σ × Bool)}

theorem Leads.andThen (hf : Leads P f Q E) (hg : Leads Q g R E) : Leads P (andThen f g) R E := by
  intro s hs
  obtain ⟨hon, hreturn⟩ := hf s hs
  unfold Early.andThen
  split
  · next hgo => exact hg _ (hon hgo)
  · next hstop => exact ⟨fun hgo => absurd hgo hstop, hreturn⟩

theorem Leads.nil : Leads P (inTurn []) P E := fun _ hs => ⟨fun _ => hs, nofun⟩

theorem Leads.cons (hf : Leads P f Q E) (hfs : Leads Q (inTurn fs) R E) : Leads P (inTurn (f :: fs)) R E :=
  hf.andThen hfs

theorem inTurn_append (fs gs : List (σ → σ × Bool)) : inTurn (fs ++ gs) = Early.andThen (inTurn fs) (inTurn gs) := by
  funext s
  induction fs generalizing s with
  | nil => rfl
  | cons f fs ih =>
    show Early.andThen f (inTurn (fs ++ gs)) s = Early.andThen (Early.andThen f (inTurn fs)) (inTurn gs) s
    unfold Early.andThen
    cases hgo : (f s).2 with
    | true =>
      rw [if_pos rfl, ih]
      rfl
    | false => rw [if_neg nofun, if_neg (by rw [if_neg nofun, hgo]; nofun), if_neg nofun]

theorem Leads.append {gs : List (σ → σ × Bool)} (hfs : Leads P (inTurn fs) Q E) (hgs : Leads Q (inTurn gs) R E) :
    Leads P (inTurn (fs ++ gs)) R E :=
  inTurn_append fs gs ▸ hfs.andThen hgs

end Early
