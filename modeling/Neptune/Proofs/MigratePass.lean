import Neptune.Proofs.CfgMap
import Neptune.Spec.Migrate

/-! Passes over the settings that use up outcomes of allocations: what one on a single form does as it should, the
loops do over all. -/

namespace Neptune.Migrate

open PsdIFFContext List

theorem enough_zero (mem : List Bool) : Enough 0 mem := by simp [Enough]

theorem enough_succ (n : ℕ) (mem : List Bool) :
    Enough (n + 1) mem ↔ (psdAllocVec mem).1 = true ∧ Enough n (psdAllocVec mem).2 := by
  cases mem <;> simp [Enough, psdAllocVec]

theorem drop_succ (n : ℕ) (mem : List Bool) : mem.drop (n + 1) = (psdAllocVec mem).2.drop n := by
  cases mem <;> simp [psdAllocVec]

theorem enough_add (n m : ℕ) (mem : List Bool) : Enough (n + m) mem ↔ Enough n mem ∧ Enough m (mem.drop n) := by
  induction n generalizing mem with
  | zero => simp [enough_zero]
  | succ n ih => rw [Nat.add_right_comm, enough_succ, enough_succ, ih, drop_succ, and_assoc]

theorem decide_add (n m : ℕ) : (decide (n ≠ 0) || decide (m ≠ 0)) = decide (n + m ≠ 0) := by
  rw [← Bool.decide_or, decide_eq_decide]
  omega

theorem Enough.of_ample {mem : List Bool} (h : Ample mem) (n : ℕ) : Enough n mem :=
  fun ok hok => h ok (mem_of_mem_take hok)

structure Sound {α : Type} (f : List Bool → α → α × Bool × List Bool) (R K : α → α → Prop) (made : α → α) (n : α → ℕ)
    (closed : α → Prop) : Prop where
  run : ∀ {mem a}, closed a → Enough (n a) mem → f mem a = (made a, decide (n a ≠ 0), mem.drop (n a))
  exact : ∀ {mem a}, Ample mem ∨ closed a → R a (f mem a).1 → closed a ∧ Enough (n a) mem
  right : ∀ a, R a (made a)
  ample : ∀ {mem a}, Ample mem → Ample (f mem a).2.2
  zero : ∀ {a}, n a = 0 → R a a
  still : ∀ {a}, n a = 0 → made a = a
  again : ∀ a, n (made a) = 0
  keeps : ∀ mem a, K a (f mem a).1
  keepsMade : ∀ a, K a (made a)

structure Respects {α : Type} (K R : α → α → Prop) (n : α → ℕ) : Prop where
  allocs : ∀ {a a'}, K a a' → n a' = n a
  left : ∀ {a a'}, K a a' → ∀ b, R a' b ↔ R a b
  right : ∀ {a a'}, K a a' → ∀ b, R b a' ↔ R b a

section passes

variable {α : Type} {f g : List Bool → α → α × Bool × List Bool} {R R' K K' : α → α → Prop} {made made' : α → α}
  {n n' : α → ℕ} {closed closed' : α → Prop}

theorem Sound.congr (h : Sound f R K made n closed) (hR : ∀ a b, R a b ↔ R' a b) (hc : ∀ a, closed a ↔ closed' a) :
    Sound f R' K made n closed' where
  run ha := h.run ((hc _).mpr ha)
  exact ha hr := by
    obtain ⟨hcl, hn⟩ := h.exact (ha.imp_right (hc _).mpr) ((hR _ _).mpr hr)
    exact ⟨(hc _).mp hcl, hn⟩
  right a := (hR _ _).mp (h.right a)
  ample := h.ample
  zero hz := (hR _ _).mp (h.zero hz)
  still := h.still
  again := h.again
  keeps := h.keeps
  keepsMade := h.keepsMade

theorem Sound.weaken (h : Sound f R K made n closed) (hK : ∀ {a b}, K a b → K' a b) : Sound f R K' made n closed where
  run := h.run
  exact := h.exact
  right := h.right
  ample := h.ample
  zero := h.zero
  still := h.still
  again := h.again
  keeps mem a := hK (h.keeps mem a)
  keepsMade a := hK (h.keepsMade a)

theorem Sound.whole (h : Sound f R K made n closed) : Sound f (fun a b => R a b ∧ K a b) K made n closed where
  run := h.run
  exact ha hr := h.exact ha hr.1
  right a := ⟨h.right a, h.keepsMade a⟩
  ample := h.ample
  zero {a} hz := by
    have hk := h.keepsMade a
    rw [h.still hz] at hk
    exact ⟨h.zero hz, hk⟩
  still := h.still
  again := h.again
  keeps := h.keeps
  keepsMade := h.keepsMade

theorem Sound.andThen (K'' : α → α → Prop) (hf : Sound f R K made n closed) (hg : Sound g R' K' made' n' closed') (hr : Respects K' R n)
    (hr' : Respects K R' n') (hK : ∀ {a b c}, K a b → K' b c → K'' a c) :
    Sound (andThen f g) (fun a b => R a b ∧ R' a b) K'' (fun a => made' (made a)) (fun a => n a + n' a)
      (fun a => closed a ∧ closed' (made a)) where
  run {mem a} hc hn := by
    obtain ⟨hn, hn'⟩ := (enough_add _ _ _).mp hn
    have he := hr'.allocs (hf.keepsMade a)
    rw [← he] at hn'
    have h1 := hf.run hc.1 hn
    have h2 := hg.run hc.2 hn'
    simp only [Migrate.andThen, h1, h2, drop_drop, he, decide_add]
  exact {mem a} hc hR := by
    obtain ⟨hR, hR'⟩ := hR
    obtain ⟨hcl, hn⟩ := hf.exact (hc.imp_right And.left) ((hr.right (hg.keeps _ _) a).mp hR)
    have hrun := hf.run hcl hn
    have hsnd : (Migrate.andThen f g mem a).1 = (g (mem.drop (n a)) (made a)).1 := by simp only [Migrate.andThen, hrun]
    rw [hsnd] at hR'
    have hample : Ample (mem.drop (n a)) ∨ closed' (made a) := by
      refine hc.imp (fun h => ?_) And.right
      have := hf.ample (a := a) h
      rwa [hrun] at this
    obtain ⟨hcl', hn'⟩ := hg.exact hample ((hr'.left (hf.keepsMade a) _).mpr hR')
    rw [hr'.allocs (hf.keepsMade a)] at hn'
    exact ⟨⟨hcl, hcl'⟩, (enough_add _ _ _).mpr ⟨hn, hn'⟩⟩
  right a := ⟨(hr.right (hg.keepsMade _) a).mpr (hf.right a), (hr'.left (hf.keepsMade a) _).mp (hg.right _)⟩
  ample h := hg.ample (hf.ample h)
  zero hz := ⟨hf.zero (Nat.eq_zero_of_add_eq_zero hz).1, hg.zero (Nat.eq_zero_of_add_eq_zero hz).2⟩
  still hz := by
    obtain ⟨h1, h2⟩ := Nat.eq_zero_of_add_eq_zero hz
    rw [hf.still h1, hg.still h2]
  again a := by rw [hr.allocs (hg.keepsMade _), hf.again, hg.again]
  keeps mem a := hK (hf.keeps mem a) (hg.keeps _ _)
  keepsMade a := hK (hf.keepsMade a) (hg.keepsMade _)

end passes

section loops

variable {formid formid' : UInt32} {f : List Bool → PsdIFFContext → PsdIFFContext × Bool × List Bool}
  {R K : PsdIFFContext → PsdIFFContext → Prop} {made : PsdIFFContext → PsdIFFContext} {n : PsdIFFContext → ℕ}
  {closed : PsdIFFContext → Prop} {pics pics' : List PsdIFFContext}

theorem OthersSame.refl (ids : List UInt32) (pics : List PsdIFFContext) : OthersSame ids pics pics :=
  forall₂_same.mpr fun _ _ => ⟨rfl, fun _ => rfl⟩

theorem allocsEach_cons (pic : PsdIFFContext) (pics : List PsdIFFContext) :
    allocsEach formid n (pic :: pics) = (if pic.formId = formid then n pic else 0) + allocsEach formid n pics := rfl

theorem allocsEach_eq_zero : allocsEach formid n pics = 0 ↔ ∀ pic ∈ pics, pic.formId = formid → n pic = 0 := by
  induction pics with
  | nil => exact iff_of_true rfl nofun
  | cons pic pics ih =>
    rw [allocsEach_cons, Nat.add_eq_zero_iff, ih, forall_mem_cons]
    split
    · next he => simp [he]
    · next he => simp [he]

theorem Sound.each (formid : UInt32) (h : Sound f R K made n closed) (hK : ∀ {pic pic'}, K pic pic' → pic'.formId = pic.formId) :
    Sound (eachForm formid f) (Each formid R) (OthersSame [formid]) (renameEach formid made) (allocsEach formid n)
      (fun pics => ∀ pic ∈ pics, pic.formId = formid → closed pic) where
  run {mem pics} hc hn := by
    induction pics generalizing mem with
    | nil => rfl
    | cons pic pics ih =>
      obtain ⟨hpic, hpics⟩ := forall_mem_cons.mp hc
      rw [allocsEach_cons] at hn ⊢
      rw [eachForm, renameEach, map_cons]
      by_cases he : pic.formId = formid
      · rw [if_pos he] at hn
        obtain ⟨hn, hn'⟩ := (enough_add _ _ _).mp hn
        have h1 := h.run (hpic he) hn
        have h2 := ih hpics hn'
        simp only [if_pos he, h1, h2, drop_drop, decide_add, renameEach]
      · rw [if_neg he, Nat.zero_add] at hn
        simp only [if_neg he, ih hpics hn, Nat.zero_add, renameEach]
  exact {mem pics} hc hR := by
    induction pics generalizing mem with
    | nil => exact ⟨nofun, enough_zero mem⟩
    | cons pic pics ih =>
      rw [eachForm] at hR
      rw [forall_mem_cons] at hc ⊢
      rw [allocsEach_cons]
      split at hR
      · next he =>
        obtain ⟨hR, hR'⟩ := forall₂_cons.mp hR
        obtain ⟨hcl, hn⟩ := h.exact (hc.imp_right fun hc => hc.1 he) (hR he)
        have hrun := h.run hcl hn
        rw [hrun] at hR'
        have hample : Ample (mem.drop (n pic)) ∨ ∀ pic ∈ pics, pic.formId = formid → closed pic := by
          refine hc.imp (fun hm => ?_) And.right
          have := h.ample (a := pic) hm
          rwa [hrun] at this
        obtain ⟨hcl', hn'⟩ := ih hample hR'
        rw [if_pos he]
        exact ⟨⟨fun _ => hcl, hcl'⟩, (enough_add _ _ _).mpr ⟨hn, hn'⟩⟩
      · next he =>
        obtain ⟨hcl, hn⟩ := ih (hc.imp_right And.right) (forall₂_cons.mp hR).2
        rw [if_neg he, Nat.zero_add]
        exact ⟨⟨fun h => absurd h he, hcl⟩, hn⟩
  right pics := by
    refine forall₂_map_right_iff.mpr (forall₂_same.mpr fun pic _ he => ?_)
    rw [if_pos he]
    exact h.right pic
  ample {mem pics} hm := by
    induction pics generalizing mem with
    | nil => exact hm
    | cons pic pics ih =>
      rw [eachForm]
      split
      · exact ih (h.ample hm)
      · exact ih hm
  zero {pics} hz := by
    exact forall₂_same.mpr fun pic hpic he => h.zero (allocsEach_eq_zero.mp hz pic hpic he)
  still {pics} hz := by
    refine (map_congr_left fun pic hpic => ?_).trans (map_id pics)
    split
    · next he => exact h.still (allocsEach_eq_zero.mp hz pic hpic he)
    · rfl
  again pics := by
    refine allocsEach_eq_zero.mpr fun pic' hpic' he => ?_
    obtain ⟨pic, -, rfl⟩ := mem_map.mp hpic'
    split
    · exact h.again pic
    · next hne =>
      rw [if_neg hne] at he
      exact absurd he hne
  keeps mem pics := by
    induction pics generalizing mem with
    | nil => exact .nil
    | cons pic pics ih =>
      rw [eachForm]
      split
      · next he => exact .cons ⟨hK (h.keeps mem pic), fun hn => absurd (mem_singleton.mpr he) hn⟩ (ih _)
      · exact .cons ⟨rfl, fun _ => rfl⟩ (ih _)
  keepsMade pics := by
    refine forall₂_map_right_iff.mpr (forall₂_same.mpr fun pic _ => ?_)
    split
    · next he => exact ⟨hK (h.keepsMade pic), fun hn => absurd (mem_singleton.mpr he) hn⟩
    · exact ⟨rfl, fun _ => rfl⟩

theorem each_same (pics : List PsdIFFContext) : Each formid (fun pic pic' => pic' = pic) pics pics :=
  forall₂_same.mpr fun _ _ _ => rfl

theorem allocsFirst_cons (pic : PsdIFFContext) (pics : List PsdIFFContext) :
    allocsFirst formid n (pic :: pics) = if pic.formId = formid then n pic else allocsFirst formid n pics := by
  unfold allocsFirst
  rw [find?_cons]
  split
  · next h => rw [if_pos (of_decide_eq_true h)]; rfl
  · next h => rw [if_neg (of_decide_eq_false h)]

theorem Sound.first (formid : UInt32) (h : Sound f R K made n closed) (hK : ∀ {pic pic'}, K pic pic' → pic'.formId = pic.formId) :
    Sound (firstForm formid f) (First formid R) (OthersSame [formid]) (renameFirst formid made) (allocsFirst formid n)
      (fun pics => ∀ pic ∈ pics.find? fun pic => pic.formId = formid, closed pic) where
  run {mem pics} hc hn := by
    induction pics generalizing mem with
    | nil => rfl
    | cons pic pics ih =>
      rw [allocsFirst_cons] at hn ⊢
      rw [find?_cons] at hc
      rw [firstForm, renameFirst]
      split at hn
      · next he =>
        rw [decide_eq_true he] at hc
        have h1 := h.run (hc pic rfl) hn
        simp only [if_pos he, h1]
      · next he =>
        rw [decide_eq_false he] at hc
        simp only [if_neg he, ih hc hn]
  exact {mem pics} hc hR := by
    induction pics generalizing mem with
    | nil => exact ⟨nofun, enough_zero mem⟩
    | cons pic pics ih =>
      rw [allocsFirst_cons]
      rw [find?_cons] at hc ⊢
      rw [firstForm] at hR
      split at hR
      · next he =>
        rw [decide_eq_true he] at hc ⊢
        rw [First, if_pos he] at hR
        obtain ⟨hcl, hn⟩ := h.exact (hc.imp_right fun hc => hc pic rfl) hR.1
        rw [if_pos he]
        exact ⟨fun pic' hp => Option.some.inj hp ▸ hcl, hn⟩
      · next he =>
        rw [decide_eq_false he] at hc ⊢
        rw [First, if_neg he] at hR
        rw [if_neg he]
        exact ih hc hR
  right pics := by
    induction pics with
    | nil => trivial
    | cons pic pics ih =>
      rw [renameFirst]
      split
      · next he =>
        rw [First, if_pos he]
        exact ⟨h.right pic, each_same pics⟩
      · next he =>
        rw [First, if_neg he]
        exact ih
  ample {mem pics} hm := by
    induction pics with
    | nil => exact hm
    | cons pic pics ih =>
      rw [firstForm]
      split
      · exact h.ample hm
      · exact ih
  zero {pics} hz := by
    induction pics with
    | nil => trivial
    | cons pic pics ih =>
      rw [allocsFirst_cons] at hz
      rw [First]
      split at hz
      · next he =>
        rw [if_pos he]
        exact ⟨h.zero hz, each_same pics⟩
      · next he =>
        rw [if_neg he]
        exact ih hz
  still {pics} hz := by
    induction pics with
    | nil => rfl
    | cons pic pics ih =>
      rw [allocsFirst_cons] at hz
      rw [renameFirst]
      split at hz
      · next he => rw [if_pos he, h.still hz]
      · next he => rw [if_neg he, ih hz]
  again pics := by
    induction pics with
    | nil => rfl
    | cons pic pics ih =>
      rw [renameFirst]
      split
      · next he => rw [allocsFirst_cons, if_pos (hK (h.keepsMade pic) ▸ he), h.again]
      · next he => rw [allocsFirst_cons, if_neg he, ih]
  keeps mem pics := by
    induction pics with
    | nil => exact .nil
    | cons pic pics ih =>
      rw [firstForm]
      split
      · next he =>
        exact .cons ⟨hK (h.keeps mem pic), fun hn => absurd (mem_singleton.mpr he) hn⟩ (OthersSame.refl _ _)
      · exact .cons ⟨rfl, fun _ => rfl⟩ ih
  keepsMade pics := by
    induction pics with
    | nil => exact .nil
    | cons pic pics ih =>
      rw [renameFirst]
      split
      · next he =>
        exact .cons ⟨hK (h.keepsMade pic), fun hn => absurd (mem_singleton.mpr he) hn⟩ (OthersSame.refl _ _)
      · exact .cons ⟨rfl, fun _ => rfl⟩ ih

end loops

theorem Sound.inside {f : List Bool → List PsdIFFContext → List PsdIFFContext × Bool × List Bool}
    {R K : List PsdIFFContext → List PsdIFFContext → Prop} {made : List PsdIFFContext → List PsdIFFContext}
    {n : List PsdIFFContext → ℕ} {closed : List PsdIFFContext → Prop} (h : Sound f R K made n closed) :
    Sound (inside f) (fun pic pic' => R pic.subForms pic'.subForms)
      (fun pic pic' => pic'.formId = pic.formId ∧ pic'.chunks = pic.chunks ∧ K pic.subForms pic'.subForms)
      (renameInside made) (fun pic => n pic.subForms) (fun pic => closed pic.subForms) where
  run hc hn := by simp only [Migrate.inside, h.run hc hn, renameInside]
  exact hc hR := h.exact hc hR
  right pic := h.right pic.subForms
  ample hm := h.ample hm
  zero hz := h.zero hz
  still {pic} hz := by
    obtain ⟨formId, chunks, pics⟩ := pic
    exact congrArg (PsdIFFContext.mk formId chunks) (h.still hz)
  again pic := h.again pic.subForms
  keeps mem pic := ⟨rfl, rfl, h.keeps mem pic.subForms⟩
  keepsMade pic := ⟨rfl, rfl, h.keepsMade pic.subForms⟩

section others

variable {formid formid' : UInt32} {R : PsdIFFContext → PsdIFFContext → Prop} {n : PsdIFFContext → ℕ}
  {pics pics' rest : List PsdIFFContext}

theorem same_of_ne {pic pic' : PsdIFFContext} (hne : formid ≠ formid')
    (h : pic'.formId = pic.formId ∧ (pic.formId ∉ [formid'] → pic' = pic)) (he : pic.formId = formid) : pic' = pic :=
  h.2 fun hm => hne (he.symm.trans (mem_singleton.mp hm))

section

variable {R : PsdIFFContext → PsdIFFContext → Prop} {S : PsdIFFContext → PsdIFFContext → Prop}

theorem forall₂_congr_left
    (hS : ∀ {pic pic'}, S pic pic' → ∀ b, R pic' b ↔ R pic b) (h : List.Forall₂ S pics pics') (rest) :
    List.Forall₂ R pics' rest ↔ List.Forall₂ R pics rest := by
  induction h generalizing rest with
  | nil => rfl
  | cons hp _ ih => cases rest <;> simp [forall₂_cons, hS hp, ih]

theorem forall₂_congr_right
    (hS : ∀ {pic pic'}, S pic pic' → ∀ b, R b pic' ↔ R b pic) (h : List.Forall₂ S pics pics') (rest) :
    List.Forall₂ R rest pics' ↔ List.Forall₂ R rest pics := by
  induction h generalizing rest with
  | nil => rfl
  | cons hp _ ih => cases rest <;> simp [forall₂_cons, hS hp, ih]

end

theorem allocsEach_congr (hne : formid ≠ formid') (h : OthersSame [formid'] pics pics') :
    allocsEach formid n pics' = allocsEach formid n pics := by
  induction h with
  | nil => rfl
  | @cons pic pic' _ _ hp _ ih =>
    rw [allocsEach_cons, allocsEach_cons, ih, hp.1]
    split
    · next he => rw [same_of_ne hne hp he]
    · rfl

end others

end Neptune.Migrate
