import Mathlib

/-! Forests on a finite type, as the parent of every node: of two nodes without one above the other the trees are apart, a
way down is shorter than there are nodes, and a loop over nodes whose trees are apart does in each tree what its step
does there. -/

namespace Forest

open List Finset

variable {α : Type} {parent : α → Option α}

def Below (parent : α → Option α) (a d : α) : Prop := Relation.ReflTransGen (fun c p => parent c = some p) d a

def Acyclic (parent : α → Option α) : Prop := ∀ a, ¬Relation.TransGen (fun c p => parent c = some p) a a

theorem below_refl (a : α) : Below parent a a := .refl

variable {c d p : α} {σ : Type} {l : List α}

theorem below_of_child (h : parent c = some p) (hd : Below parent c d) : Below parent p d := hd.tail h

theorem below_cases (h : Below parent p d) : d = p ∨ ∃ c, parent c = some p ∧ Below parent c d := by
  obtain rfl | ⟨c, hd, hc⟩ := Relation.ReflTransGen.cases_tail h
  · exact .inl rfl
  · exact .inr ⟨c, hc, hd⟩

theorem not_below_parent (hf : Acyclic parent) (h : parent c = some p) : ¬Below parent c p := fun hp =>
  hf c (Relation.TransGen.head' h hp)

theorem siblings_apart (hf : Acyclic parent) {a b : α} (h : parent a = parent b) (hne : a ≠ b)
    (ha : Below parent a d) : ¬Below parent b d := by
  intro hb
  have hup : ∀ x y, x ≠ y → parent x = parent y → ¬Below parent y x := by
    intro x y hxy hp hbelow
    obtain rfl | ⟨q, hq, hrest⟩ := Relation.ReflTransGen.cases_head hbelow
    · exact hxy rfl
    · exact hf y (Relation.TransGen.head' (hp ▸ hq) hrest)
  have hunique : Relator.RightUnique fun c p => parent c = some p := fun _ _ _ hp hq => Option.some.inj (hp.symm.trans hq)
  obtain hab | hba := Relation.ReflTransGen.total_of_right_unique hunique ha hb
  · exact hup a b hne h hab
  · exact hup b a (Ne.symm hne) h.symm hba

section Rank

variable [Fintype α]

open Classical in
noncomputable def rank (parent : α → Option α) (a : α) : ℕ :=
  (Finset.univ.filter fun b => Relation.TransGen (fun c p => parent c = some p) a b).card

theorem rank_lt_card (hf : Acyclic parent) (a : α) : rank parent a < Fintype.card α := by
  classical
  refine Finset.card_lt_univ_of_notMem (x := a) ?_
  rw [Finset.mem_filter]
  exact fun h => hf a h.2

theorem rank_lt (hf : Acyclic parent) {p c : α} (h : parent c = some p) : rank parent p < rank parent c := by
  classical
  refine Finset.card_lt_card (Finset.ssubset_iff_of_subset (fun b hb => ?_) |>.mpr ⟨p, ?_, ?_⟩)
  · rw [Finset.mem_filter] at hb ⊢
    exact ⟨hb.1, .head h hb.2⟩
  · rw [Finset.mem_filter]
    exact ⟨Finset.mem_univ p, .single h⟩
  · rw [Finset.mem_filter]
    exact fun hp => hf p hp.2

theorem exists_root (hf : Acyclic parent) (d : α) : ∃ r, parent r = none ∧ Below parent r d := by
  generalize hn : rank parent d = n
  induction n using Nat.strong_induction_on generalizing d with
  | _ n ih =>
    cases hd : parent d with
    | none => exact ⟨d, hd, below_refl d⟩
    | some p =>
      obtain ⟨r, hr, hp⟩ := ih _ (hn ▸ rank_lt hf hd) p rfl
      exact ⟨r, hr, Relation.ReflTransGen.head hd hp⟩

theorem family_le (hf : Acyclic parent) {children : α → List α} (hnodup : ∀ p, (children p).Nodup)
    (hchild : ∀ p, ∀ c ∈ children p, parent c = some p) (p : α) :
    ((children p).map fun c => 1 + (children c).length).sum + 1 ≤ Fintype.card α := by
  have hgrand : ((children p).flatMap children).Nodup := by
    refine List.nodup_flatMap.mpr ⟨fun c _ => hnodup c, (hnodup p).imp fun {a b} hne => ?_⟩
    intro d ha hb
    exact hne (Option.some.inj ((hchild a d ha).symm.trans (hchild b d hb)))
  have hdisjoint : List.Disjoint (children p) ((children p).flatMap children) := by
    intro d hd hflat
    obtain ⟨c, hc, hdc⟩ := List.mem_flatMap.mp hflat
    cases (hchild c d hdc).symm.trans (hchild p d hd)
    exact hf _ (.single (hchild _ _ hc))
  have hself : p ∉ children p ++ (children p).flatMap children := by
    rw [List.mem_append, List.mem_flatMap]
    rintro (hp | ⟨c, hc, hp⟩)
    · exact hf p (.single (hchild p p hp))
    · exact hf p (.head (hchild c p hp) (.single (hchild p c hc)))
  have hle := (List.nodup_cons.mpr ⟨hself, (hnodup p).append hgrand hdisjoint⟩).length_le_card
  rw [List.length_cons, List.length_append, List.length_flatMap] at hle
  have hsum : ((children p).map fun c => 1 + (children c).length).sum =
      (children p).length + ((children p).map fun c => (children c).length).sum := by
    induction children p with
    | nil => rfl
    | cons c l ih =>
      rw [List.map_cons, List.map_cons, List.sum_cons, List.sum_cons, List.length_cons, ih]
      omega
  omega

end Rank

theorem foldlM_if (p : α → Prop) [DecidablePred p] (step : σ → α → Option σ) (l : List α) (s : σ) :
    l.foldlM (fun s a => if p a then step s a else some s) s = (l.filter fun a => p a).foldlM step s := by
  rw [foldlM_filter]
  simp only [decide_eq_true_eq]
  rfl

/-- Each step works on `own` and in the region of its node, where it does `R`; `A` is what holds with the rest of the list
still to come. -/
theorem foldlM_regions (step : (α → σ) → α → Option (α → σ)) (region : α → α → Prop) (own : α → Prop)
    (R : α → σ → σ → Prop) (A : List α → (α → σ) → Prop)
    (hstep : ∀ c ∈ l, ∀ rest mem, A (c :: rest) mem → ∃ mem', step mem c = some mem' ∧ A rest mem' ∧
      (∀ d, region c d → R d (mem d) (mem' d)) ∧ ∀ d, ¬own d → ¬region c d → mem' d = mem d)
    (hown : ∀ c ∈ l, ∀ d, region c d → ¬own d) (hapart : l.Pairwise fun a b => ∀ d, region a d → ¬region b d)
    (mem : α → σ) (hA : A l mem) :
    ∃ mem', l.foldlM step mem = some mem' ∧ A [] mem' ∧ (∀ c ∈ l, ∀ d, region c d → R d (mem d) (mem' d)) ∧
      ∀ d, ¬own d → (∀ c ∈ l, ¬region c d) → mem' d = mem d := by
  induction l generalizing mem with
  | nil => exact ⟨mem, rfl, hA, nofun, fun _ _ _ => rfl⟩
  | cons a l ih =>
    obtain ⟨hfirst, hrest⟩ := pairwise_cons.mp hapart
    obtain ⟨mem₁, hrun, hA₁, hin, hout⟩ := hstep a mem_cons_self l mem hA
    obtain ⟨mem₂, hrun₂, hA₂, hin₂, hout₂⟩ := ih (fun c hc => hstep c (mem_cons_of_mem a hc))
      (fun c hc => hown c (mem_cons_of_mem a hc)) hrest mem₁ hA₁
    refine ⟨mem₂, ?_, hA₂, ?_, ?_⟩
    · rw [foldlM_cons, hrun]
      exact hrun₂
    · intro c hc d hd
      obtain rfl | hc := mem_cons.mp hc
      · -- the later steps leave its region
        rw [hout₂ d (hown _ mem_cons_self d hd) fun b hb => hfirst b hb d hd]
        exact hin d hd
      · rw [← hout d (hown c (mem_cons_of_mem a hc) d hd) fun ha => hfirst c hc d ha hd]
        exact hin₂ c hc d hd
    · intro d hd hno
      rw [hout₂ d hd fun c hc => hno c (mem_cons_of_mem a hc)]
      exact hout d hd (hno a mem_cons_self)

theorem not_below_of_child (hf : Acyclic parent) (hc : parent c = some p) (hd : Below parent c d) : d ≠ p := by
  rintro rfl
  exact not_below_parent hf hc hd

theorem ne_of_not_below (hd : ¬Below parent p d) : d ≠ p := by
  rintro rfl
  exact hd (below_refl d)

theorem foldlM_children (hf : Acyclic parent) (step : (α → σ) → α → Option (α → σ)) (R : α → σ → σ → Prop)
    (A : List α → (α → σ) → Prop) (hnodup : l.Nodup) (hl : ∀ c, c ∈ l ↔ parent c = some p)
    (hstep : ∀ c ∈ l, ∀ rest mem, A (c :: rest) mem → ∃ mem', step mem c = some mem' ∧ A rest mem' ∧
      (∀ d, Below parent c d → R d (mem d) (mem' d)) ∧ ∀ d, d ≠ p → ¬Below parent c d → mem' d = mem d)
    (mem : α → σ) (hA : A l mem) :
    ∃ mem', l.foldlM step mem = some mem' ∧ A [] mem' ∧
      (∀ d, d ≠ p → Below parent p d → R d (mem d) (mem' d)) ∧ ∀ d, ¬Below parent p d → mem' d = mem d := by
  obtain ⟨mem', hrun, hend, hin, hout⟩ := foldlM_regions step (Below parent) (· = p) R A hstep
    (fun c hc d hd => not_below_of_child hf ((hl c).mp hc) hd)
    (hnodup.imp_of_mem fun ha hb hne _ hd => siblings_apart hf (((hl _).mp ha).trans ((hl _).mp hb).symm) hne hd) mem hA
  refine ⟨mem', hrun, hend, fun d hne hd => ?_, fun d hd => ?_⟩
  · obtain rfl | ⟨c, hc, hd⟩ := below_cases hd
    · exact absurd rfl hne
    · exact hin c ((hl c).mpr hc) d hd
  · exact hout d (ne_of_not_below hd) fun c hc hbelow => hd (below_of_child ((hl c).mp hc) hbelow)

theorem foldlM_roots [Fintype α] (hf : Acyclic parent) (step : (α → σ) → α → Option (α → σ))
    (R : α → σ → σ → Prop) (hnodup : l.Nodup) (hl : ∀ r, r ∈ l ↔ parent r = none)
    (hstep : ∀ r ∈ l, ∀ mem, ∃ mem', step mem r = some mem' ∧
      (∀ d, Below parent r d → R d (mem d) (mem' d)) ∧ ∀ d, ¬Below parent r d → mem' d = mem d) (mem : α → σ) :
    ∃ mem', l.foldlM step mem = some mem' ∧ ∀ d, R d (mem d) (mem' d) := by
  obtain ⟨mem', hrun, -, hin, -⟩ := foldlM_regions step (Below parent) (fun _ => False) R (fun _ _ => True)
    (fun r hr _ mem _ => by
      obtain ⟨mem', hrun, hin, hout⟩ := hstep r hr mem
      exact ⟨mem', hrun, trivial, hin, fun d _ => hout d⟩)
    (fun _ _ _ _ h => h)
    (hnodup.imp_of_mem fun ha hb hne _ hd => siblings_apart hf (((hl _).mp ha).trans ((hl _).mp hb).symm) hne hd) mem
    trivial
  refine ⟨mem', hrun, fun d => ?_⟩
  obtain ⟨r, hr, hd⟩ := exists_root hf d
  exact hin r ((hl r).mpr hr) d hd

end Forest
