import Mathlib

/-! Doubly linked lists between two sentinels, as memory: what the links of a node are, and the lists they stand for. A
node carries its own links, so it is on one list at most; memory in which it is not stands for no lists. -/

namespace Linked

open List Function

/-- The two ends of the list `l`, and the nodes that go on the lists. -/
inductive Node (ι α : Type)
  | head (l : ι)
  | tail (l : ι)
  | item (a : α)
  deriving DecidableEq

/-- `none` is the null pointer. -/
@[ext]
structure Links (ι α : Type) where
  succ : Node ι α → Option (Node ι α)
  pred : Node ι α → Option (Node ι α)

variable {ι α : Type}

def Links.empty : Links ι α where
  succ
    | .head l => some (.tail l)
    | _ => none
  pred
    | .tail l => some (.head l)
    | _ => none

namespace Links

variable (m : Links ι α) (l : ι) (a : α)

/-- The items met on at most `k` steps from a node. -/
def itemsFrom : ℕ → Node ι α → List α
  | 0, _ => []
  | k + 1, n =>
    match m.succ n with
    | none => []
    | some (.item a) => a :: itemsFrom k (.item a)
    | some next => itemsFrom k next

def items (k : ℕ) : List α := m.itemsFrom k (.head l)

/-- The first node, if it is not the end of a list. -/
def first : Option α :=
  match m.succ (.head l) with
  | some (.item a) => if (m.succ (.item a)).isSome then some a else none
  | _ => none

variable [DecidableEq ι] [DecidableEq α]

def newList : Links ι α where
  succ := Function.update (Function.update m.succ (.head l) (some (.tail l))) (.tail l) none
  pred := Function.update (Function.update m.pred (.head l) none) (.tail l) (some (.head l))

def addTail : Links ι α :=
  match m.pred (.tail l) with
  | none => m
  | some p =>
    { succ := Function.update (Function.update m.succ (.item a) (some (.tail l))) p (some (.item a))
      pred := Function.update (Function.update m.pred (.item a) (some p)) (.tail l) (some (.item a)) }

/-- The neighbours of a node that is taken out. -/
def join (p s : Node ι α) : Links ι α where
  succ := Function.update m.succ p (some s)
  pred := Function.update m.pred s (some p)

def remove : Links ι α :=
  match m.pred (.item a), m.succ (.item a) with
  | some p, some s => m.join p s
  | _, _ => m

def remHead : Option (α × Links ι α) :=
  match m.succ (.head l) with
  | some (.item a) =>
    match m.succ (.item a) with
    | some s => some (a, m.join (.head l) s)
    | none => none
  | _ => none

def Link (n n' : Node ι α) : Prop := m.succ n = some n' ∧ m.pred n' = some n

end Links

def path (l : ι) (xs : List α) : List (Node ι α) := .head l :: xs.map .item ++ [.tail l]

structure Reps (m : Links ι α) (L : ι → List α) : Prop where
  chain : ∀ l, (path l (L l)).IsChain m.Link
  last : ∀ l, m.succ (.tail l) = none
  nodup : ∀ l, (L l).Nodup
  disjoint : ∀ {l l' a}, a ∈ L l → a ∈ L l' → l = l'

variable {m m' : Links ι α} {L : ι → List α} {l l' : ι} {xs ys : List α} {a b : α} {n p s : Node ι α}

theorem mem_path : n ∈ path l xs ↔ n = .head l ∨ n = .tail l ∨ ∃ a ∈ xs, n = .item a := by
  simp only [path, cons_append, mem_cons, mem_append, mem_map, not_mem_nil, or_false]
  rw [or_comm (b := n = .tail l)]
  simp only [eq_comm]

theorem path_nodup (h : xs.Nodup) : (path l xs).Nodup := by
  have hmap : (xs.map (fun a => (.item a : Node ι α))).Nodup := h.map fun _ _ he => Node.item.inj he
  simp [path, nodup_append, hmap]

theorem path_disjoint (h : Reps m L) (hn : n ∈ path l (L l)) (hn' : n ∈ path l' (L l')) : l = l' := by
  rcases mem_path.mp hn with rfl | rfl | ⟨a, ha, rfl⟩
  · simpa [mem_path] using hn'
  · simpa [mem_path] using hn'
  · rcases mem_path.mp hn' with he | he | ⟨b, hb, he⟩
    · exact nomatch he
    · exact nomatch he
    · cases he
      exact h.disjoint ha hb

variable {ns : List (Node ι α)}

theorem chain_congr (h : ns.IsChain m.Link) (hs : ∀ n ∈ ns.dropLast, m'.succ n = m.succ n)
    (hp : ∀ n ∈ ns.tail, m'.pred n = m.pred n) : ns.IsChain m'.Link := by
  induction h with
  | nil => exact .nil
  | singleton a => exact .singleton a
  | cons_cons hab hrest ih =>
    rename_i a b rest
    refine .cons_cons ⟨?_, ?_⟩ (ih (fun n hn => hs n ?_) fun n hn => hp n (mem_cons_of_mem _ hn))
    · rw [hs a (by simp), hab.1]
    · rw [hp b (by simp), hab.2]
    · simpa using .inr hn

theorem chain_frame (h : ns.IsChain m.Link)
    (hframe : ∀ n ∈ ns, m'.succ n = m.succ n ∧ m'.pred n = m.pred n) : ns.IsChain m'.Link :=
  chain_congr h (fun n hn => (hframe n (dropLast_subset _ hn)).1)
    fun n hn => (hframe n (mem_of_mem_tail hn)).2

theorem reps_empty : Reps (Links.empty : Links ι α) fun _ => [] where
  chain l := by simp [path, Links.Link, Links.empty]
  last _ := rfl
  nodup _ := nodup_nil
  disjoint h := nomatch h

theorem Reps.itemsFrom (h : Reps m L) {k : ℕ}
    (hpath : path l (L l) = ns ++ n :: (xs.map .item ++ [.tail l])) (hk : xs.length < k) : m.itemsFrom k n = xs := by
  have hchain := h.chain l
  rw [hpath] at hchain
  replace hchain := (isChain_split.mp hchain).2
  clear hpath
  induction xs generalizing k n with
  | nil =>
    obtain ⟨k, rfl⟩ := Nat.exists_eq_add_of_lt hk
    have hlink : m.succ n = some (.tail l) := (isChain_pair.mp hchain).1
    unfold Links.itemsFrom
    rw [hlink]
    cases k with
    | zero => rfl
    | succ k => simp [Links.itemsFrom, h.last l]
  | cons a xs ih =>
    cases k with
    | zero => exact nomatch hk
    | succ k =>
      obtain ⟨hlink, hrest⟩ := isChain_cons_cons.mp hchain
      unfold Links.itemsFrom
      rw [hlink.1]
      dsimp only
      rw [ih (Nat.lt_of_succ_lt_succ hk) hrest]

theorem Reps.items (h : Reps m L) {k : ℕ} (hk : (L l).length < k) : m.items l k = L l :=
  h.itemsFrom (n := .head l) (show path l (L l) = [] ++ _ from rfl) hk

theorem Reps.first (h : Reps m L) : m.first l = (L l).head? := by
  have hchain := h.chain l
  unfold Links.first
  cases hl : L l with
  | nil =>
    rw [hl] at hchain
    rw [(isChain_pair.mp hchain).1]
    rfl
  | cons a rest =>
    rw [hl, path] at hchain
    obtain ⟨hhead, hrest⟩ := isChain_cons_cons.mp hchain
    have hsome : (m.succ (.item a)).isSome := by
      cases rest with
      | nil =>
        rw [(isChain_pair.mp hrest).1]
        rfl
      | cons b rest =>
        rw [(isChain_cons_cons.mp hrest).1.1]
        rfl
    rw [hhead.1]
    dsimp only
    rw [if_pos hsome]
    rfl

theorem Reps.between (h : Reps m L) (hl : L l = xs ++ a :: ys) :
    ∃ ns p s ns', path l (L l) = ns ++ p :: .item a :: s :: ns' ∧ path l (xs ++ ys) = ns ++ p :: s :: ns' ∧
      m.pred (.item a) = some p ∧ m.succ (.item a) = some s := by
  obtain ⟨ns, p, hp⟩ : ∃ ns p, Node.head l :: xs.map .item = ns ++ [p] :=
    ⟨_, _, (dropLast_append_getLast (cons_ne_nil _ _)).symm⟩
  obtain ⟨s, ns', hs⟩ : ∃ s ns', ys.map .item ++ [Node.tail l] = s :: ns' :=
    exists_cons_of_ne_nil (append_ne_nil_of_right_ne_nil _ (cons_ne_nil _ _))
  have hpath : path l (L l) = ns ++ p :: .item a :: s :: ns' := by
    rw [path, hl, map_append, map_cons, ← cons_append, hp]
    simp only [append_assoc, cons_append, nil_append, hs]
  have hchain := h.chain l
  rw [hpath] at hchain
  obtain ⟨-, hpa, hrest⟩ := isChain_append_cons_cons.mp hchain
  refine ⟨ns, p, s, ns', hpath, ?_, hpa.2, (isChain_cons_cons.mp hrest).1.1⟩
  rw [path, map_append, ← cons_append, hp]
  simp only [append_assoc, cons_append, nil_append, hs]

variable [DecidableEq ι]

theorem Reps.update (h : Reps m L) (hchain : (path l xs).IsChain m'.Link) (hlast : ∀ l, m'.succ (.tail l) = none)
    (hnodup : xs.Nodup) (hmem : ∀ a ∈ xs, a ∈ L l ∨ ∀ l', a ∉ L l')
    (hframe : ∀ l' ≠ l, ∀ n ∈ path l' (L l'), m'.succ n = m.succ n ∧ m'.pred n = m.pred n) :
    Reps m' (update L l xs) where
  chain l' := by
    by_cases hl : l' = l
    · rw [hl, update_self]
      exact hchain
    · rw [update_of_ne hl]
      exact chain_frame (h.chain l') (hframe l' hl)
  last := hlast
  nodup l' := by
    by_cases hl : l' = l
    · rw [hl, update_self]
      exact hnodup
    · rw [update_of_ne hl]
      exact h.nodup l'
  disjoint {l1 l2 a} h1 h2 := by
    by_cases hl1 : l1 = l
    · by_cases hl2 : l2 = l
      · exact hl1.trans hl2.symm
      · rw [hl1, update_self] at h1
        rw [update_of_ne hl2] at h2
        rcases hmem a h1 with ha | ha
        · exact absurd (h.disjoint h2 ha) hl2
        · exact absurd h2 (ha l2)
    · rw [update_of_ne hl1] at h1
      by_cases hl2 : l2 = l
      · rw [hl2, update_self] at h2
        rcases hmem a h2 with ha | ha
        · exact absurd (h.disjoint h1 ha) hl1
        · exact absurd h1 (ha l1)
      · rw [update_of_ne hl2] at h2
        exact h.disjoint h1 h2

variable [DecidableEq α]

theorem Reps.newList (h : Reps m L) (l : ι) : Reps (m.newList l) (Function.update L l []) := by
  refine h.update ?_ (fun l' => ?_) List.nodup_nil (fun a ha => nomatch ha) fun l' hl n hn => ?_
  · simp [path, Links.Link, Links.newList]
  · by_cases hl : l' = l
    · simp [Links.newList, hl]
    · simp [Links.newList, hl, h.last l']
  · have hhead : n ≠ .head l := by
      rintro rfl
      simp [mem_path, Ne.symm hl] at hn
    have htail : n ≠ .tail l := by
      rintro rfl
      simp [mem_path, Ne.symm hl] at hn
    simp [Links.newList, hhead, htail]

theorem Reps.addTail (h : Reps m L) (l : ι) (ha : ∀ l', a ∉ L l') :
    Reps (m.addTail l a) (Function.update L l (L l ++ [a])) := by
  -- the last node, which may be the head
  obtain ⟨ns, p, hp⟩ : ∃ ns p, Node.head l :: (L l).map .item = ns ++ [p] :=
    ⟨_, _, (List.dropLast_append_getLast (List.cons_ne_nil _ _)).symm⟩
  have hpath : path l (L l) = ns ++ p :: [.tail l] := by rw [path, hp, List.append_assoc]; rfl
  have hnd := path_nodup (l := l) (h.nodup l)
  have hchain := h.chain l
  rw [hpath] at hnd hchain
  obtain ⟨hfront, hlink, -⟩ := List.isChain_append_cons_cons.mp hchain
  have hpitem : p ≠ .item a := by
    rintro rfl
    have hmem : Node.item a ∈ path l (L l) := by rw [hpath]; simp
    simp [mem_path, ha l] at hmem
  have hptail : p ≠ .tail l := by
    rintro rfl
    simp [List.nodup_append] at hnd
  have hmem : Links.addTail m l a =
      { succ := Function.update (Function.update m.succ (.item a) (some (.tail l))) p (some (.item a))
        pred := Function.update (Function.update m.pred (.item a) (some p)) (.tail l) (some (.item a)) } := by
    unfold Links.addTail
    rw [hlink.2]
  have hns : ∀ n ∈ ns ++ [p], n ≠ .item a ∧ n ≠ .tail l := by
    intro n hn
    constructor
    · rintro rfl
      have hmem : Node.item a ∈ path l (L l) := by rw [path, hp]; exact List.mem_append_left _ hn
      simp [mem_path, ha l] at hmem
    · rintro rfl
      rw [← hp] at hn
      simp at hn
  rw [hmem]
  refine h.update ?_ (fun l' => ?_) ?_ (fun b hb => ?_) fun l' hl n hn => ?_
  · rw [path, List.map_append, ← List.cons_append, hp, List.append_assoc, List.append_assoc]
    refine List.isChain_append_cons_cons.mpr ⟨chain_congr hfront (fun n hn => ?_) (fun n hn => ?_), ?_, ?_⟩
    · rw [List.dropLast_concat] at hn
      have hne : n ≠ p := by
        rintro rfl
        simp only [List.nodup_append, List.mem_cons, ne_eq] at hnd
        exact hnd.2.2 n hn n (.inl rfl) rfl
      simp [hne, (hns n (List.mem_append_left _ hn)).1]
    · have hn := hns n (List.mem_of_mem_tail hn)
      simp [hn.1, hn.2]
    · constructor
      · simp
      · simp
    · refine List.isChain_pair.mpr ⟨?_, ?_⟩
      · simp [Ne.symm hpitem]
      · simp
  · by_cases hpl : p = .tail l'
    · have hmem : Node.tail l' ∈ path l (L l) := by rw [hpath, hpl]; simp
      have hl : l' = l := by simpa [mem_path] using hmem
      exact absurd (hl ▸ hpl) hptail
    · simp [Ne.symm hpl, h.last l']
  · exact List.nodup_append.mpr ⟨h.nodup l, List.nodup_singleton a, fun b hb c hc => by
      rintro rfl
      exact ha l (List.mem_singleton.mp hc ▸ hb)⟩
  · rcases List.mem_append.mp hb with hb | hb
    · exact .inl hb
    · exact .inr fun l' => List.mem_singleton.mp hb ▸ ha l'
  · have hnp : n ≠ p := by
      rintro rfl
      exact hl (path_disjoint h hn (by rw [hpath]; simp))
    have hna : n ≠ .item a := by
      rintro rfl
      simp [mem_path, ha l'] at hn
    have hnt : n ≠ .tail l := by
      rintro rfl
      simp [mem_path, Ne.symm hl] at hn
    simp [hnp, hna, hnt]

theorem Reps.remove (h : Reps m L) (ha : a ∈ L l) : Reps (m.remove a) (Function.update L l ((L l).erase a)) := by
  obtain ⟨xs, ys, hl⟩ := List.append_of_mem ha
  have hnd := h.nodup l
  rw [hl] at hnd
  have herase : (L l).erase a = xs ++ ys := by
    rw [hl, List.erase_append_right _ fun hxs => ?_, List.erase_cons_head]
    exact (List.nodup_append.mp hnd).2.2 a hxs a List.mem_cons_self rfl
  obtain ⟨ns, p, s, ns', hpath, hpath', hpred, hsucc⟩ := h.between hl
  have hchain := h.chain l
  have hpnd := path_nodup (l := l) (h.nodup l)
  rw [hpath] at hchain hpnd
  obtain ⟨hfront, -, hrest⟩ := List.isChain_append_cons_cons.mp hchain
  have hback := (List.isChain_cons_cons.mp hrest).2
  have hmem : m.remove a = m.join p s := by
    unfold Links.remove
    rw [hpred, hsucc]
  rw [hmem, herase]
  have hptail : ∀ l', p ≠ .tail l' := by
    rintro l' rfl
    exact nomatch (h.last l').symm.trans
      (List.isChain_append_cons_cons.mp hchain).2.1.1
  refine h.update ?_ (fun l' => ?_) ?_ (fun b hb => ?_) fun l' hl' n hn => ?_
  · rw [hpath']
    refine List.isChain_append_cons_cons.mpr ⟨chain_congr hfront (fun n hn => ?_) (fun n hn => ?_), ?_,
      chain_congr hback (fun n hn => ?_) fun n hn => ?_⟩
    · rw [List.dropLast_concat] at hn
      refine Function.update_of_ne ?_ _ _
      rintro rfl
      exact (List.nodup_append.mp hpnd).2.2 n hn n List.mem_cons_self rfl
    · refine Function.update_of_ne ?_ _ _
      rintro rfl
      have hn := List.mem_of_mem_tail hn
      rcases List.mem_append.mp hn with hn | hn
      · exact (List.nodup_append.mp hpnd).2.2 n hn n (by simp) rfl
      · rw [List.mem_singleton.mp hn] at hpnd
        simp [List.nodup_append] at hpnd
    · exact ⟨Function.update_self .., Function.update_self ..⟩
    · refine Function.update_of_ne ?_ _ _
      rintro rfl
      have hn := List.dropLast_subset _ hn
      have hpnd := (List.nodup_append.mp hpnd).2.1
      simp only [List.nodup_cons, List.mem_cons] at hpnd hn
      tauto
    · refine Function.update_of_ne ?_ _ _
      rintro rfl
      have hpnd := (List.nodup_append.mp hpnd).2.1
      simp only [List.nodup_cons, List.mem_cons] at hpnd
      exact hpnd.2.2.1 hn
  · exact (Function.update_of_ne (hptail l').symm _ _).trans (h.last l')
  · exact hnd.sublist (List.Sublist.append (List.Sublist.refl xs) (List.sublist_cons_self a ys))
  · left
    rw [hl]
    rcases List.mem_append.mp hb with hb | hb
    · exact List.mem_append_left _ hb
    · exact List.mem_append_right _ (List.mem_cons_of_mem _ hb)
  · constructor
    · refine Function.update_of_ne ?_ _ _
      rintro rfl
      exact hl' (path_disjoint h hn (by rw [hpath]; simp))
    · refine Function.update_of_ne ?_ _ _
      rintro rfl
      exact hl' (path_disjoint h hn (by rw [hpath]; simp))

theorem Reps.remHead_nil (h : Reps m L) (hl : L l = []) : m.remHead l = none := by
  have hchain := h.chain l
  rw [hl] at hchain
  unfold Links.remHead
  rw [(isChain_pair.mp hchain).1]

theorem Reps.remHead_cons (h : Reps m L) (hl : L l = a :: ys) : m.remHead l = some (a, m.remove a) := by
  obtain ⟨ns, p, s, ns', hpath, -, hpred, hsucc⟩ := h.between (show L l = [] ++ a :: ys from hl)
  have hchain := h.chain l
  rw [path, hl] at hchain
  have hhead := (isChain_cons_cons.mp hchain).1
  have hp : p = .head l := Option.some.inj (hpred.symm.trans hhead.2)
  unfold Links.remHead Links.remove
  rw [hhead.1]
  dsimp only
  rw [hsucc, hpred, hp]

end Linked
