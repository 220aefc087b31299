import Mathlib

/-! Lists of records that are told apart by a key: taking one out, changing one in place and
finding one. -/

namespace Keyed

open List

variable {α β κ : Type*} {key : α → κ} {l : List α} {x y : α} {k : κ}

theorem eq_of_key (h : (l.map key).Nodup) (hx : x ∈ l) (hy : y ∈ l) (he : key x = key y) :
    x = y :=
  inj_on_of_nodup_map h hx hy he

variable [DecidableEq κ]

def modify (key : α → κ) (k : κ) (f : α → α) (l : List α) : List α :=
  l.map fun x => if key x = k then f x else x

def drop (key : α → κ) (k : κ) (l : List α) : List α :=
  l.filter fun x => key x ≠ k

theorem mem_drop : y ∈ drop key k l ↔ y ∈ l ∧ key y ≠ k := by
  simp [drop]

theorem drop_sublist (key : α → κ) (k : κ) (l : List α) : (drop key k l).Sublist l :=
  filter_sublist

theorem length_drop (h : (l.map key).Nodup) (hx : x ∈ l) :
    (drop key (key x) l).length + 1 = l.length := by
  induction l with
  | nil => simp at hx
  | cons a l ih =>
    simp only [map_cons, nodup_cons, mem_map, not_exists, not_and] at h
    rcases mem_cons.mp hx with rfl | hx
    · -- no other record has this key
      have hall : drop key (key x) l = l := by
        rw [drop, filter_eq_self]
        intro y hy
        simpa using h.1 y hy
      simp only [drop, filter_cons, ne_eq, not_true_eq_false, decide_false,
        Bool.false_eq_true, if_false, length_cons] at hall ⊢
      rw [hall]
    · have hne : key a ≠ key x := fun he => h.1 x hx he.symm
      have := ih h.2 hx
      simp only [drop, filter_cons, ne_eq, hne, not_false_eq_true, decide_true, if_true,
        length_cons] at this ⊢
      omega

theorem mem_modify {f : α → α} :
    y ∈ modify key k f l ↔ ∃ x ∈ l, y = if key x = k then f x else x := by
  simp [modify, eq_comm]

theorem modify_length (f : α → α) : (modify key k f l).length = l.length := by
  simp [modify]

theorem map_modify {g : α → β} {f : α → α} (hf : ∀ x ∈ l, key x = k → g (f x) = g x) :
    (modify key k f l).map g = l.map g := by
  rw [modify, map_map]
  refine map_congr_left fun x hx => ?_
  by_cases hk : key x = k
  · simp [hk, hf x hx hk]
  · simp [hk]

theorem sum_modify {g : α → ℕ} {f : α → α} (h : (l.map key).Nodup) (hx : x ∈ l) :
    ((modify key (key x) f l).map g).sum + g x = (l.map g).sum + g (f x) := by
  induction l with
  | nil => cases hx
  | cons a l ih =>
    simp only [map_cons, nodup_cons, mem_map, not_exists, not_and] at h
    rcases mem_cons.mp hx with rfl | hx
    · -- no other record has this key
      have hall : modify key (key x) f l = l := by
        refine (map_congr_left fun y hy => ?_).trans (map_id' l)
        exact if_neg (h.1 y hy)
      simp only [modify, map_cons, if_true, sum_cons] at hall ⊢
      rw [hall]
      omega
    · have hne : key a ≠ key x := fun he => h.1 x hx he.symm
      have := ih h.2 hx
      simp only [modify, map_cons, hne, if_false, sum_cons] at this ⊢
      omega

theorem filter_modify {P : α → Bool} {f : α → α}
    (hf : ∀ x ∈ l, key x = k → P x = false ∧ P (f x) = false) :
    (modify key k f l).filter P = l.filter P := by
  induction l with
  | nil => rfl
  | cons a l ih =>
    have ih := ih fun x hx => hf x (by simp [hx])
    simp only [modify, map_cons, filter_cons] at ih ⊢
    rw [ih]
    by_cases hk : key a = k
    · obtain ⟨h1, h2⟩ := hf a (by simp) hk
      simp [hk, h1, h2]
    · simp [hk]

theorem filter_drop {P : α → Bool} (hf : ∀ x ∈ l, key x = k → P x = false) :
    (drop key k l).filter P = l.filter P := by
  rw [drop, filter_filter]
  refine filter_congr fun x hx => ?_
  by_cases hk : key x = k
  · simp [hk, hf x hx hk]
  · simp [hk]

theorem nodup_map_modify {g : α → β} {f : α → α} (hk : (l.map key).Nodup)
    (hg : (l.map g).Nodup) (hf : ∀ x ∈ l, key x = k → ∀ y ∈ l, y ≠ x → g y ≠ g (f x)) :
    ((modify key k f l).map g).Nodup := by
  induction l with
  | nil => simp [modify]
  | cons a l ih =>
    simp only [map_cons, nodup_cons] at hk hg
    have ih := ih hk.2 hg.2 fun x hx hkx y hy => hf x (by simp [hx]) hkx y (by simp [hy])
    simp only [modify, map_cons, nodup_cons]
    refine ⟨?_, ih⟩
    simp only [mem_map, not_exists, not_and, forall_exists_index, and_imp,
      forall_apply_eq_imp_iff₂]
    intro y hy
    have hya : y ≠ a := fun he => hk.1 (mem_map.mpr ⟨y, hy, by rw [he]⟩)
    have hgya : g y ≠ g a := fun he => hg.1 (mem_map.mpr ⟨y, hy, he⟩)
    split <;> split
    · rename_i h1 h2
      exact absurd (mem_map.mpr ⟨y, hy, h1.trans h2.symm⟩) hk.1
    · rename_i h1 h2
      exact fun he => hf y (by simp [hy]) h1 a (by simp) (Ne.symm hya) he.symm
    · rename_i h1 h2
      exact hf a (by simp) h2 y (by simp [hy]) hya
    · exact hgya

theorem find_key (h : (l.map key).Nodup) (hx : x ∈ l) :
    l.find? (fun y => key y = key x) = some x := by
  induction l with
  | nil => cases hx
  | cons a l ih =>
    by_cases hk : key a = key x
    · rw [find?_cons_of_pos (by simpa using hk), eq_of_key h (by simp) hx hk]
    · rw [find?_cons_of_neg (by simpa using hk)]
      refine ih (nodup_cons.mp h).2 ((mem_cons.mp hx).resolve_left ?_)
      exact fun he => hk (by rw [he])

theorem find_key_iff (h : (l.map key).Nodup) :
    l.find? (fun y => key y = k) = some x ↔ x ∈ l ∧ key x = k :=
  ⟨fun hf => ⟨mem_of_find?_eq_some hf, by simpa using find?_some hf⟩,
    fun ⟨hx, hk⟩ => hk ▸ find_key h hx⟩

end Keyed
