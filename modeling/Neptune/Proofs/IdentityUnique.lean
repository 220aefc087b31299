import Neptune.Spec.Identity

/-! Identity strings are unique when no clone has a serial string that `pStripString` changes. -/

namespace Neptune

open List Option

def digitValue (ch : Char) : ℕ := ((List.range 16).find? fun d => d.digitChar = ch).getD 0

theorem digitValue_digitChar {d : ℕ} (hd : d < 16) : digitValue d.digitChar = d := by
  interval_cases d <;> decide

theorem digitChar_ne_dash {d : ℕ} (hd : d < 16) : d.digitChar ≠ '-' := by
  interval_cases d <;> decide

theorem hexText_eq (width n : ℕ) : ∃ k, hexText width n =
    (replicate k 0 ++ (Nat.digits 16 n).reverse).map Nat.digitChar := by
  refine ⟨width - ((Nat.digits 16 n).reverse.map Nat.digitChar).length, ?_⟩
  rw [map_append, map_replicate]
  rfl

theorem hexText_digits {k n d : ℕ} (hd : d ∈ replicate k 0 ++ (Nat.digits 16 n).reverse) :
    d < 16 := by
  rcases mem_append.mp hd with hd | hd
  · rw [eq_of_mem_replicate hd]
    decide
  · exact Nat.digits_lt_base (by decide) (mem_reverse.mp hd)

theorem dash_notMem_hexText (width n : ℕ) : '-' ∉ hexText width n := by
  obtain ⟨k, hk⟩ := hexText_eq width n
  rw [hk]
  intro h
  obtain ⟨d, hd, he⟩ := mem_map.mp h
  exact digitChar_ne_dash (hexText_digits hd) he

theorem hexText_value (width n : ℕ) :
    Nat.ofDigits 16 ((hexText width n).map digitValue).reverse = n := by
  obtain ⟨k, hk⟩ := hexText_eq width n
  have hmap : ((hexText width n).map digitValue) =
      List.replicate k 0 ++ (Nat.digits 16 n).reverse := by
    rw [hk, List.map_map]
    conv_rhs => rw [← List.map_id (List.replicate k 0 ++ (Nat.digits 16 n).reverse)]
    exact map_congr_left fun d hd => digitValue_digitChar (hexText_digits hd)
  rw [hmap, reverse_append, reverse_reverse, reverse_replicate,
    Nat.ofDigits_append_replicate_zero, Nat.ofDigits_digits]

theorem hexText_injective {width n m : ℕ} (h : hexText width n = hexText width m) : n = m := by
  rw [← hexText_value width n, h, hexText_value]

theorem takeWhile_dash {a h : List Char} (hd : '-' ∉ h) :
    (a ++ '-' :: h).reverse.takeWhile (fun ch => ch ≠ '-') = h.reverse := by
  rw [reverse_append, reverse_cons, append_assoc, takeWhile_append_of_pos]
  · simp
  · intro ch hch
    have : ch ∈ h := mem_reverse.mp hch
    have hne : ch ≠ '-' := by
      rintro rfl
      exact hd this
    simpa using hne

theorem idString_cloneCount {classname : ℕ → Option (List Char)} {r r' : Report} {n m : ℕ}
    (h : r.idString classname n = r'.idString classname m) : n = m := by
  unfold Report.idString at h
  have := congrArg (fun l : List Char => l.reverse.takeWhile fun ch => ch ≠ '-') h
  rw [takeWhile_dash (dash_notMem_hexText 2 n), takeWhile_dash (dash_notMem_hexText 2 m)] at this
  exact hexText_injective (reverse_inj.mp this)

theorem countClones_spec {devices : List IdentDev} {id : ℕ} {r : Report} {n c k : ℕ}
    (h : countClones devices id r n c = some k) : ∀ pd ∈ devices, isClone id r k pd = false := by
  induction n generalizing c with
  | zero => cases h
  | succ n ih =>
    unfold countClones at h
    split at h
    · exact ih h
    · rename_i hany
      obtain rfl := some.inj h
      intro pd hpd
      have := (List.any_eq_false).mp (Bool.eq_false_iff.mpr hany) pd hpd
      simpa using this

def Report.same (r r' : Report) : Prop :=
  r.productStr = r'.productStr ∧ r.vendorID = r'.vendorID ∧ r.productID = r'.productID ∧
    r.serial = r'.serial

instance (r r' : Report) : Decidable (r.same r') := inferInstanceAs (Decidable (_ ∧ _))

theorem Report.same.symm {r r' : Report} (h : r.same r') : r'.same r :=
  ⟨h.1.symm, h.2.1.symm, h.2.2.1.symm, h.2.2.2.symm⟩

namespace DeviceLists

variable {classname : ℕ → Option (List Char)} {ls ls' : DeviceLists} {evs : List IdentEvent}
  {e : IdentEvent} {pd pd' : IdentDev} {r r' : Report}

/-- A device whose serial string `pStripString` changes is not enumerated beside a clone of it. -/
def IdentCond (ls : DeviceLists) : IdentEvent → Prop
  | .enumerate id r =>
    (∃ pd ∈ ls.devices, pd.id ≠ id ∧ ∃ r' ∈ pd.reported, r'.same r) →
      pStripString r.serial = r.serial
  | _ => True

instance (ls : DeviceLists) : ∀ e, Decidable (ls.IdentCond e)
  | .enumerate id r => inferInstanceAs (Decidable ((∃ pd ∈ ls.devices, pd.id ≠ id ∧
      ∃ r' ∈ pd.reported, r'.same r) → _ = _))
  | .add _ _ | .remove _ => inferInstanceAs (Decidable True)

def Holds (classname : ℕ → Option (List Char)) (pd : IdentDev) (r : Report) : Prop :=
  pd.vendorID = r.vendorID ∧ pd.productID = r.productID ∧
    pd.serNumStr = some (pStripString r.serial) ∧
    pd.idString = some (r.idString classname pd.cloneCount)

structure Inv (classname : ℕ → Option (List Char)) (ls : DeviceLists) : Prop where
  holds : ∀ pd ∈ ls.devices, ∀ r ∈ pd.reported, Holds classname pd r
  counts : ∀ pd ∈ ls.devices, ∀ pd' ∈ ls.devices, pd.id ≠ pd'.id →
    ∀ r ∈ pd.reported, ∀ r' ∈ pd'.reported, r.same r' → pd.cloneCount ≠ pd'.cloneCount

theorem Inv.of_subset (hi : ls.Inv classname)
    (h : ∀ pd ∈ ls'.devices, pd ∈ ls.devices ∨ pd.reported = none) : ls'.Inv classname := by
  have hold {pd : IdentDev} (hpd : pd ∈ ls'.devices) {r : Report} (hr : r ∈ pd.reported) :
      pd ∈ ls.devices := by
    rcases h pd hpd with hm | hn
    · exact hm
    · rw [hn] at hr
      cases hr
  constructor
  · intro pd hpd r hr
    exact hi.holds pd (hold hpd hr) r hr
  · intro pd hpd pd' hpd' hne r hr r' hr'
    exact hi.counts pd (hold hpd hr) pd' (hold hpd' hr') hne r hr r' hr'

theorem mem_devices : pd ∈ ls.devices ↔ ∃ l ∈ ls, pd ∈ l := mem_flatten

theorem mem_add {phw id : ℕ} (h : pd ∈ devices (ls.modify phw fun l => l ++ [.blank id])) :
    pd ∈ ls.devices ∨ pd.reported = none := by
  obtain ⟨l, hl, hpd⟩ := mem_devices.mp h
  obtain ⟨i, hi⟩ := mem_iff_getElem?.mp hl
  rw [getElem?_modify] at hi
  obtain ⟨l₀, hl₀, he⟩ := map_eq_some_iff.mp hi
  have hm : l₀ ∈ ls := mem_of_getElem? hl₀
  split at he
  · subst he
    rcases mem_append.mp hpd with hpd | hpd
    · exact Or.inl (mem_devices.mpr ⟨l₀, hm, hpd⟩)
    · rw [mem_singleton.mp hpd]
      exact Or.inr rfl
  · subst he
    exact Or.inl (mem_devices.mpr ⟨l₀, hm, hpd⟩)

theorem mem_enumerate {id : ℕ} {x : IdentDev}
    (h : pd ∈ devices (ls.map fun l => l.map fun y => if y.id = id then x else y)) :
    pd = x ∨ pd ∈ ls.devices ∧ pd.id ≠ id := by
  obtain ⟨l', hl', hpd⟩ := mem_devices.mp h
  obtain ⟨l, hl, rfl⟩ := mem_map.mp hl'
  obtain ⟨y, hy, rfl⟩ := mem_map.mp hpd
  split
  · exact Or.inl rfl
  · rename_i hne
    exact Or.inr ⟨mem_devices.mpr ⟨l, hl, hy⟩, hne⟩

theorem Inv.enumerate {id c : ℕ} {x : IdentDev} (hi : ls.Inv classname)
    (hc : ls.IdentCond (.enumerate id r)) (hx : x.reported = some r) (hid : x.id = id)
    (hh : Holds classname x r) (hcount : x.cloneCount = c)
    (hclone : ∀ pd ∈ ls.devices, isClone id r c pd = false) :
    Inv classname (ls.map fun l => l.map fun y => if y.id = id then x else y) := by
  have hnew {pd : IdentDev} (hpd : pd ∈ ls.devices) (hne : pd.id ≠ id) {r' : Report}
      (hr' : r' ∈ pd.reported) (hs : r'.same r) : pd.cloneCount ≠ x.cloneCount := by
    have hstrip := hc ⟨pd, hpd, hne, r', hr', hs⟩
    obtain ⟨h1, h2, h3, -⟩ := hi.holds pd hpd r' hr'
    have hser : pd.serNumStr = some r.serial := by rw [h3, hs.2.2.2, hstrip]
    have := hclone pd hpd
    intro heq
    simp [isClone, hne, h1, h2, hs.2.1, hs.2.2.1, hser, heq, hcount] at this
  constructor
  · intro pd hpd r' hr'
    rcases mem_enumerate hpd with rfl | ⟨hpd, -⟩
    · rw [hx] at hr'
      obtain rfl := some.inj hr'
      exact hh
    · exact hi.holds pd hpd r' hr'
  · intro pd hpd pd' hpd' hne r₁ hr₁ r₂ hr₂ hs
    rcases mem_enumerate hpd with h1 | ⟨hpd, hpid⟩ <;>
      rcases mem_enumerate hpd' with h2 | ⟨hpd', hpid'⟩
    · exact absurd (by rw [h1, h2]) hne
    · rw [h1, hx] at hr₁
      obtain rfl := some.inj hr₁
      rw [h1]
      exact (hnew hpd' hpid' hr₂ hs.symm).symm
    · rw [h2, hx] at hr₂
      obtain rfl := some.inj hr₂
      rw [h2]
      exact hnew hpd hpid hr₁ hs
    · exact hi.counts pd hpd pd' hpd' hne r₁ hr₁ r₂ hr₂ hs

theorem step_inv (hi : ls.Inv classname) (hc : ls.IdentCond e)
    (hs : ls.step classname e = some ls') : ls'.Inv classname := by
  cases e with
  | add phw id =>
    simp only [step] at hs
    split at hs
    · cases hs
    · obtain rfl := some.inj hs
      exact hi.of_subset fun pd hpd => mem_add hpd
  | enumerate id r =>
    obtain ⟨pd, -, hs⟩ := bind_eq_some_iff.mp hs
    split at hs
    · cases hs
    · obtain ⟨c, hcount, hs⟩ := bind_eq_some_iff.mp hs
      obtain rfl := some.inj hs
      exact hi.enumerate hc rfl rfl ⟨rfl, rfl, rfl, rfl⟩ rfl (countClones_spec hcount)
  | remove id =>
    obtain rfl := some.inj hs
    apply hi.of_subset
    intro pd hpd
    obtain ⟨l', hl', hpd⟩ := mem_devices.mp hpd
    obtain ⟨l, hl, rfl⟩ := mem_map.mp hl'
    exact Or.inl (mem_devices.mpr ⟨l, hl, (mem_filter.mp hpd).1⟩)

/-- From any number of controllers without devices, in every run whose steps meet the condition, live
devices that have reported the same strings and ids have different identity strings. -/
theorem id_strings_unique {n : ℕ}
    (hr : Runs.Run (step classname) IdentCond (List.replicate n []) evs ls) :
    ∀ pd ∈ ls.devices, ∀ pd' ∈ ls.devices, pd.id ≠ pd'.id →
      ∀ r ∈ pd.reported, ∀ r' ∈ pd'.reported, r.same r' → pd.idString ≠ pd'.idString := by
  have h0 : Inv classname (List.replicate n []) := by
    have hnone (pd : IdentDev) : pd ∉ devices (List.replicate n []) := by
      intro h
      obtain ⟨l, hl, hpd⟩ := mem_devices.mp h
      rw [eq_of_mem_replicate hl] at hpd
      cases hpd
    exact ⟨fun pd h => absurd h (hnone pd), fun pd h => absurd h (hnone pd)⟩
  have hi := hr.invariant (Inv classname) h0 fun _ _ _ hi hc hs => step_inv hi hc hs
  intro pd hpd pd' hpd' hne r hr r' hr' hs heq
  rw [(hi.holds pd hpd r hr).2.2.2, (hi.holds pd' hpd' r' hr').2.2.2] at heq
  have hprod : r.idString classname pd.cloneCount = r'.idString classname pd'.cloneCount :=
    some.inj heq
  exact hi.counts pd hpd pd' hpd' hne r hr r' hr' hs (idString_cloneCount hprod)

def stick (serial : String) : Report := ⟨0, 0x0951, 0x1666, some "Stick".toList, some serial.toList⟩

def noClassname (_ : ℕ) : Option (List Char) := none

def twoSticks (serial : String) : List IdentEvent :=
  [.add 0 1, .add 0 2, .enumerate 1 (stick serial), .enumerate 2 (stick serial)]

theorem id_strings_unique_twoSticks :
    let ls := (Runs.exec (step noClassname) (List.replicate 1 []) (twoSticks "0A1B")).get (by decide)
    ∀ pd ∈ ls.devices, ∀ pd' ∈ ls.devices, pd.id ≠ pd'.id →
      ∀ r ∈ pd.reported, ∀ r' ∈ pd'.reported, r.same r' → pd.idString ≠ pd'.idString :=
  id_strings_unique (Runs.Run.get_meets (by decide) (by decide))

/-- Two sticks whose serial string ends in a blank: the second does not find its clone, as the
first's string has been stripped. -/
theorem id_strings_not_unique :
    ∃ ls, Runs.Run (step noClassname) Runs.anyStep (List.replicate 1 []) (twoSticks "0A1B ") ls ∧
      ∃ pd ∈ ls.devices, ∃ pd' ∈ ls.devices, pd.id ≠ pd'.id ∧
        (∃ r ∈ pd.reported, ∃ r' ∈ pd'.reported, r.same r') ∧ pd.idString = pd'.idString := by
  let pd (id : ℕ) : IdentDev := ⟨id, 0x0951, 0x1666, some "0A1B".toList, 0,
    some ((stick "0A1B ").idString noClassname 0), some (stick "0A1B ")⟩
  refine ⟨_, Runs.Run.get (by decide), pd 1, ?_, pd 2, ?_, by decide, ?_, rfl⟩
  · exact mem_cons_self
  · exact mem_cons_of_mem _ mem_cons_self
  · exact ⟨_, rfl, _, rfl, by decide⟩

end DeviceLists

end Neptune
