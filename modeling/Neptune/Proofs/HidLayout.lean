import Neptune.Proofs.FieldsPlaced
import Neptune.Spec.HidTask

/-! The items of a report descriptor lie inside the buffer that is made for its reports. -/

namespace Neptune.Hid

open List Option

open NepHidItem

variable {s s' : ParseState} {item : ShortItem} {items : List ShortItem} {x : DeclaredItem}
  {reports reports' : List NepHidReport} {nhr b q : ℕ} {bitpos : ULONG} {kind : Kind} {nhi : NepHidItem}
  {r : NepHidReport} {c : NepHidCollection} {f : NepHidReport → NepHidReport} {nhg : NepHidGlobal}
  {us : List ULONG} {env : ParseEnv}

def bitsOf (nhi : NepHidItem) : ℕ := nhi.size * max 1 nhi.count

def Readable (nhi : NepHidItem) : Prop := nhi.size ≠ 0 ∧ (nhi.isVariable = true ∨ nhi.count ≠ 0)

theorem elementReads_lt {i : ℕ} (hsize : nhi.size ≠ 0) (hq : q ∈ nhi.elementReads i) :
    q * 8 < nhi.offset + (i + 1) * nhi.size := by
  have hsucc : (i + 1) * nhi.size = i * nhi.size + nhi.size := Nat.succ_mul i nhi.size
  unfold elementReads at hq
  split at hq
  · rename_i hbyte
    obtain ⟨haligned, hsize8⟩ := Bool.and_eq_true_iff.mp hbyte
    rw [decide_eq_true_iff] at hsize8
    have hle : nhi.byteAt i ≤ nhi.offset >>> 3 + i := Nat.mod_le _ _
    rw [BitField.shiftRight_three] at hle
    rw [mem_singleton.mp hq, hsize8]
    omega
  · split at hq
    · rename_i hone
      rw [mem_singleton.mp hq, hone, BitField.shiftRight_three]
      omega
    · unfold fieldReads at hq
      rw [if_neg hsize] at hq
      obtain ⟨k, hk, rfl⟩ := mem_map.mp hq
      have hlt := mem_range.mp hk
      rw [BitField.shiftRight_three]
      omega

theorem reads_lt (hread : Readable nhi) (hq : q ∈ nhi.reads) : q * 8 < nhi.offset + bitsOf nhi := by
  obtain ⟨hsize, hcount⟩ := hread
  have hbits : nhi.size ≤ bitsOf nhi := Nat.le_mul_of_pos_right _ (by omega)
  unfold NepHidItem.reads at hq
  cases hvar : nhi.isVariable with
  | true =>
    rw [hvar, if_pos rfl] at hq
    have hstart : (nhi.offset >>> 3) * 8 ≤ nhi.offset := by
      rw [BitField.shiftRight_three]
      omega
    split at hq
    · rename_i hbyte
      have hsize8 := of_decide_eq_true (Bool.and_eq_true_iff.mp hbyte).2
      rw [mem_singleton.mp hq]
      omega
    split at hq
    · rename_i hword
      have hsize16 := of_decide_eq_true (Bool.and_eq_true_iff.mp hword).2
      simp only [mem_cons, not_mem_nil, or_false] at hq
      omega
    · split at hq
      · rename_i hlong
        have hsize32 := of_decide_eq_true (Bool.and_eq_true_iff.mp hlong).2
        simp only [mem_cons, not_mem_nil, or_false] at hq
        omega
      · have hlt := elementReads_lt hsize hq
        omega
  | false =>
    have hne : nhi.count ≠ 0 := hcount.resolve_left (by rw [hvar]; exact Bool.false_ne_true)
    rw [hvar, if_neg Bool.false_ne_true, if_neg hne] at hq
    obtain ⟨i, hi, hq⟩ := mem_flatMap.mp hq
    have hlt := elementReads_lt hsize hq
    have hle : (i + 1) * nhi.size ≤ nhi.count * nhi.size :=
      Nat.mul_le_mul_right _ (mem_range.mp hi)
    unfold bitsOf
    rw [Nat.max_eq_right (by omega), Nat.mul_comm nhi.size nhi.count]
    omega

def Fitted (reports : List NepHidReport) (x : DeclaredItem) : Prop :=
  Readable x.nhi ∧ ∃ r ∈ reports, x.nhi.offset + bitsOf x.nhi ≤ (r.size x.kind).toNat

structure Bounded (s : ParseState) : Prop where
  inForce : s.nhr < s.reports.length
  small : ∀ r ∈ s.reports, ∀ kind, (r.size kind).toNat < 65536
  fitted : ∀ x ∈ s.located, Fitted s.reports x

def Grow (reports reports' : List NepHidReport) : Prop :=
  ∀ r ∈ reports, ∃ r' ∈ reports', ∀ kind, (r.size kind).toNat ≤ (r'.size kind).toNat

theorem Fitted.grow (h : Fitted reports x) (hgrow : Grow reports reports') : Fitted reports' x := by
  obtain ⟨hread, r, hr, hle⟩ := h
  obtain ⟨r', hr', hsize⟩ := hgrow r hr
  exact ⟨hread, r', hr', hle.trans (hsize _)⟩

theorem mem_modify (h : r ∈ reports.modify nhr f) : r ∈ reports ∨ ∃ r' ∈ reports, r = f r' := by
  obtain ⟨i, hi⟩ := mem_iff_getElem?.mp h
  rw [getElem?_modify] at hi
  obtain ⟨r', hr', heq⟩ := map_eq_some_iff.mp hi
  have hmem := mem_of_getElem? hr'
  split at heq
  · exact .inr ⟨r', hmem, heq.symm⟩
  · exact .inl (heq ▸ hmem)

theorem grow_modify (hf : ∀ r ∈ reports, ∀ kind, (r.size kind).toNat ≤ ((f r).size kind).toNat) :
    Grow reports (reports.modify nhr f) := by
  intro r hr
  obtain ⟨i, hi⟩ := mem_iff_getElem?.mp hr
  by_cases heq : nhr = i
  · refine ⟨f r, mem_of_getElem? (i := i) ?_, hf r hr⟩
    rw [getElem?_modify, hi]
    simp [heq]
  · refine ⟨r, mem_of_getElem? (i := i) ?_, fun kind => le_rfl⟩
    rw [getElem?_modify, hi]
    simp [heq]

theorem grow_append (reports reports' : List NepHidReport) : Grow reports (reports ++ reports') :=
  fun r hr => ⟨r, mem_append_left _ hr, fun _ => le_rfl⟩

theorem mem_addCollection (hx : x ∈ (reports.modify nhr (·.addCollection c)).flatMap (·.items)) :
    x ∈ reports.flatMap (·.items) ∨ x ∈ c.items := by
  by_cases hlt : nhr < reports.length
  · have hperm := flatMap_addCollection (getElem?_eq_getElem hlt) c
    exact mem_append.mp (hperm.mem_iff.mp hx)
  · rw [modify_eq_self (by omega)] at hx
    exact .inl hx

theorem size_empty (id : ULONG) (kind : Kind) : (NepHidReport.empty id).size kind = 0 := by
  cases kind <;> rfl

theorem size_rename (r : NepHidReport) (id : ULONG) (kind : Kind) :
    ({ r with reportID := id } : NepHidReport).size kind = r.size kind := by
  cases kind <;> rfl

theorem Bounded.handOver {t : ParseState} (h : Bounded s) (hgrow : Grow s.reports reports)
    (hsmall : ∀ r ∈ reports, ∀ kind, (r.size kind).toNat < 65536)
    (hitems : reports.flatMap (·.items) = s.reports.flatMap (·.items)) (hc : ∀ x ∈ c.items, x ∈ s.located)
    (hreports : t.reports = reports.modify nhr (·.addCollection c)) (hlt : t.nhr < t.reports.length)
    (hopen : ∀ x ∈ t.nhc.flatMap (·.items), x ∈ s.located) : Bounded t := by
  have hgrow' : Grow reports t.reports := by
    rw [hreports]
    apply grow_modify
    intro r _ kind
    rw [size_addCollection]
  refine ⟨hlt, ?_, ?_⟩
  · intro r hr kind
    rw [hreports] at hr
    rcases mem_modify hr with hr | ⟨r', hr', rfl⟩
    · exact hsmall r hr kind
    · rw [size_addCollection]
      exact hsmall r' hr' kind
  · intro x hx
    have hold : x ∈ s.located := by
      rcases mem_append.mp hx with hx | hx
      · rw [hreports] at hx
        rcases mem_addCollection hx with hx | hx
        · rw [hitems] at hx
          exact mem_append_left _ hx
        · exact hc x hx
      · exact hopen x hx
    exact ((h.fitted x hold).grow hgrow).grow hgrow'

theorem Bounded.switchReport (h : Bounded s) : Bounded s.switchReport := by
  unfold ParseState.switchReport
  dsimp only
  split
  · exact h
  split
  · have hgrow : Grow s.reports (s.findReport s.env.global.reportID).1 := by
      unfold ParseState.findReport
      split
      · exact fun r hr => ⟨r, hr, fun _ => le_rfl⟩
      · exact grow_append _ _
    have hsmall : ∀ r ∈ (s.findReport s.env.global.reportID).1, ∀ kind, (r.size kind).toNat < 65536 := by
      unfold ParseState.findReport
      split
      · exact h.small
      · intro r hr kind
        rcases mem_append.mp hr with hr | hr
        · exact h.small r hr kind
        · rw [mem_singleton.mp hr, size_empty]
          decide
    have hlt : (s.findReport s.env.global.reportID).2 < (s.findReport s.env.global.reportID).1.length := by
      unfold ParseState.findReport
      split
      · rename_i hfind
        exact (findIdx?_eq_some_iff_getElem.mp hfind).1
      · rw [length_append]
        exact Nat.lt_succ_self _
    have hitems := findReport_flatMap s s.env.global.reportID
    rcases cloneCollection_cases s (s.findReport s.env.global.reportID).1 with
      ⟨hclone, -⟩ | ⟨nhc, outer, hopen, -, hclone⟩
    · rw [hclone]
      refine ⟨hlt, hsmall, fun x hx => (h.fitted x ?_).grow hgrow⟩
      unfold ParseState.located at hx ⊢
      dsimp only at hx
      rwa [hitems] at hx
    · rw [hclone]
      refine h.handOver hgrow hsmall hitems (fun x hx => ?_) rfl ?_ (fun x hx => absurd hx not_mem_nil)
      · apply mem_append_right
        rw [hopen]
        exact mem_append_left _ hx
      · dsimp only
        rwa [length_modify]
  · have hitems : (s.reports.modify s.nhr fun r =>
        { r with reportID := s.env.global.reportID }).flatMap (·.items) = s.reports.flatMap (·.items) := by
      obtain ⟨l₁, l₂, hl, hmodify, -⟩ := modify_split (getElem?_eq_getElem h.inForce)
        fun r : NepHidReport => { r with reportID := s.env.global.reportID }
      rw [hmodify]
      conv_rhs => rw [hl]
      simp [NepHidReport.items]
    refine ⟨?_, ?_, fun x hx => (h.fitted x ?_).grow (grow_modify fun r _ kind => ?_)⟩
    · dsimp only
      rw [length_modify]
      exact h.inForce
    · intro r hr kind
      rcases mem_modify hr with hr | ⟨r', hr', rfl⟩
      · exact h.small r hr kind
      · rw [size_rename]
        exact h.small r' hr' kind
    · unfold ParseState.located at hx ⊢
      dsimp only at hx
      rwa [hitems] at hx
    · exact (congrArg BitVec.toNat (size_rename r _ kind)).ge

theorem Bounded.endCollect (h : Bounded s) : Bounded s.endCollect := by
  unfold ParseState.endCollect
  cases hopen : s.nhc with
  | nil => exact h
  | cons nhc outer =>
    refine h.handOver (fun r hr => ⟨r, hr, fun _ => le_rfl⟩) h.small rfl (fun x hx => ?_) rfl ?_
      (fun x hx => ?_)
    · apply mem_append_right
      rw [hopen]
      exact mem_append_left _ hx
    · dsimp only
      rw [length_modify]
      exact h.inForce
    · apply mem_append_right
      rw [hopen]
      exact mem_append_right _ hx

theorem variableItems_fit (hb : bitpos.toNat = b) (hsmall : b + us.length * nhg.reportSize.toNat < 65536)
    (hsize : 0 < nhg.reportSize.toNat) (hin : nhi ∈ variableItems nhg bitpos us) :
    Readable nhi ∧ nhi.offset + bitsOf nhi ≤ b + us.length * nhg.reportSize.toNat := by
  induction us generalizing bitpos b with
  | nil => exact absurd hin not_mem_nil
  | cons u us ih =>
    rw [length_cons, Nat.add_mul, Nat.one_mul] at hsmall ⊢
    have hnext : (bitpos + nhg.reportSize).toNat = b + nhg.reportSize.toNat := by
      rw [BitVec.toNat_add, hb, Nat.mod_eq_of_lt (by omega)]
    have hrest : nhi ∈ variableItems nhg (bitpos + nhg.reportSize) us → Readable nhi ∧
        nhi.offset + bitsOf nhi ≤ b + (us.length * nhg.reportSize.toNat + nhg.reportSize.toNat) := by
      intro hin
      obtain ⟨hread, hle⟩ := ih hnext (by omega) hin
      exact ⟨hread, by omega⟩
    unfold variableItems at hin
    split at hin
    · exact hrest hin
    rcases mem_cons.mp hin with rfl | hin
    · have hsize16 : (variableItem nhg bitpos u).size = nhg.reportSize.toNat := Nat.mod_eq_of_lt (by omega)
      have hoffset : (variableItem nhg bitpos u).offset = b := by
        change bitpos.toNat % 65536 = b
        rw [hb]
        exact Nat.mod_eq_of_lt (by omega)
      have hbits : bitsOf (variableItem nhg bitpos u) = nhg.reportSize.toNat := by
        unfold bitsOf
        rw [hsize16]
        exact Nat.mul_one _
      refine ⟨⟨by omega, .inl rfl⟩, ?_⟩
      rw [hoffset, hbits]
      omega
    · exact hrest hin

theorem fields_fit (hb : bitpos.toNat = b)
    (hsmall : b + env.global.reportSize.toNat * env.global.reportCount.toNat < 65536)
    (hsize : 0 < env.global.reportSize.toNat)
    (hcount : item.isVariable = false → env.usages ≠ [] → env.global.reportCount.toNat ≠ 0)
    (hin : nhi ∈ env.fields item bitpos) : Readable nhi ∧
      nhi.offset + bitsOf nhi ≤ b + env.global.reportSize.toNat * env.global.reportCount.toNat := by
  unfold ParseEnv.fields at hin
  cases hvar : item.isVariable with
  | true =>
    rw [hvar, if_pos rfl] at hin
    have hlength := length_takeUsages env.global.reportCount.toNat HID_PARAM_UNDEF env.usages
    rw [Nat.mul_comm, ← hlength] at hsmall ⊢
    exact variableItems_fit hb hsmall hsize hin
  | false =>
    rw [hvar, if_neg Bool.false_ne_true] at hin
    by_cases hnone : env.usages = []
    · rw [if_pos hnone] at hin
      exact absurd hin not_mem_nil
    rw [if_neg hnone] at hin
    obtain rfl := mem_singleton.mp hin
    have hne := hcount hvar hnone
    have hle : env.global.reportSize.toNat ≤ env.global.reportSize.toNat * env.global.reportCount.toNat :=
      Nat.le_mul_of_pos_right _ (by omega)
    have hle' : env.global.reportCount.toNat ≤ env.global.reportSize.toNat * env.global.reportCount.toNat :=
      Nat.le_mul_of_pos_left _ hsize
    have hsize16 : (arrayItem env.global bitpos env.usages).size = env.global.reportSize.toNat :=
      Nat.mod_eq_of_lt (by omega)
    have hoffset : (arrayItem env.global bitpos env.usages).offset = b := by
      change bitpos.toNat % 65536 = b
      rw [hb]
      exact Nat.mod_eq_of_lt (by omega)
    have hcount16 : (arrayItem env.global bitpos env.usages).count = env.global.reportCount.toNat := by
      unfold arrayItem NepHidItem.count
      dsimp only
      rw [length_replicate, if_neg (by omega)]
    refine ⟨⟨by omega, .inr (by omega)⟩, ?_⟩
    unfold bitsOf
    rw [hoffset, hsize16, hcount16, Nat.max_eq_right (by omega)]

def FitsStep (s : ParseState) (item : ShortItem) : Prop :=
  ∀ kind, item.tag = .main kind → ∀ r, s.switchReport.reports[s.switchReport.nhr]? = some r →
    (r.size kind).toNat + s.env.global.reportSize.toNat * s.env.global.reportCount.toNat < 65536 ∧
      (item.isVariable = false → s.env.usages ≠ [] → s.env.global.reportCount.toNat ≠ 0)

def Sized (s : ParseState) : List ShortItem → Prop
  | [] => True
  | item :: items =>
    FitsStep s item ∧
      match s.parseItem item with
      | some s => Sized s items
      | none => True

theorem switchReport_env (s : ParseState) : s.switchReport.env = s.env := by
  unfold ParseState.switchReport
  dsimp only
  split
  · rfl
  · split <;> rfl

theorem Bounded.declare (h : Bounded s)
    (hfits : ∀ r, s.reports[s.nhr]? = some r →
      (r.size kind).toNat + s.env.global.reportSize.toNat * s.env.global.reportCount.toNat < 65536 ∧
        (item.isVariable = false → s.env.usages ≠ [] → s.env.global.reportCount.toNat ≠ 0))
    (hdeclare : s.declare item kind = some s') : Bounded s' := by
  obtain ⟨r, hr⟩ : ∃ r, s.reports[s.nhr]? = some r := ⟨_, getElem?_eq_getElem h.inForce⟩
  obtain ⟨hsmall, hcount⟩ := hfits r hr
  unfold ParseState.declare at hdeclare
  split at hdeclare
  · obtain rfl := some.inj hdeclare
    exact h
  rw [hr] at hdeclare
  cases hopen : s.nhc with
  | nil =>
    rw [hopen] at hdeclare
    exact absurd hdeclare (some_ne_none _).symm
  | cons nhc outer =>
    rw [hopen] at hdeclare
    dsimp only at hdeclare
    split at hdeclare
    · exact absurd hdeclare (some_ne_none _).symm
    rename_i hvalid
    obtain rfl := some.inj hdeclare
    have hsize : 0 < s.env.global.reportSize.toNat := by
      rw [Bool.or_eq_true, not_or, decide_eq_true_iff, decide_eq_true_iff] at hvalid
      apply Nat.pos_of_ne_zero
      intro hzero
      exact hvalid.2 (BitVec.eq_of_toNat_eq hzero)
    have hnext : (r.size kind + s.env.global.reportSize * s.env.global.reportCount).toNat =
        (r.size kind).toNat + s.env.global.reportSize.toNat * s.env.global.reportCount.toNat := by
      rw [BitVec.toNat_add, BitVec.toNat_mul, Nat.mod_eq_of_lt (by omega : _ < 2 ^ 32),
        Nat.mod_eq_of_lt (by omega)]
    generalize r.size kind + s.env.global.reportSize * s.env.global.reportCount = bitpos at hnext
    obtain ⟨l₁, l₂, hl, hmodify, -⟩ := modify_split hr (·.setSize kind bitpos)
    have hgrow : Grow s.reports (s.reports.modify s.nhr (·.setSize kind bitpos)) := by
      intro r' hr'
      rw [hl] at hr'
      rw [hmodify]
      rcases mem_append.mp hr' with hin | hin
      · exact ⟨r', mem_append_left _ hin, fun _ => le_rfl⟩
      rcases mem_cons.mp hin with rfl | hin
      · refine ⟨_, mem_append_right _ mem_cons_self, fun kind' => ?_⟩
        rw [size_setSize]
        split
        · rename_i heq
          rw [heq, hnext]
          omega
        · exact le_rfl
      · exact ⟨r', mem_append_right _ (mem_cons_of_mem _ hin), fun _ => le_rfl⟩
    refine ⟨?_, ?_, ?_⟩
    · dsimp only
      rw [length_modify]
      exact h.inForce
    · intro r' hr' kind'
      dsimp only at hr'
      rw [hmodify] at hr'
      rcases mem_append.mp hr' with hin | hin
      · exact h.small r' (hl ▸ mem_append_left _ hin) kind'
      rcases mem_cons.mp hin with rfl | hin
      · rw [size_setSize]
        split
        · rw [hnext]
          exact hsmall
        · exact h.small r (mem_of_getElem? hr) kind'
      · exact h.small r' (hl ▸ mem_append_right _ (mem_cons_of_mem _ hin)) kind'
    · intro x hx
      unfold ParseState.located at hx
      dsimp only at hx
      rw [flatMap_setSize, flatMap_cons] at hx
      have hold : x ∈ s.located → Fitted (s.reports.modify s.nhr (·.setSize kind bitpos)) x :=
        fun hin => (h.fitted x hin).grow hgrow
      rcases mem_append.mp hx with hin | hin
      · exact hold (mem_append_left _ hin)
      rcases mem_append.mp hin with hin | hin
      · rcases mem_append.mp hin with hin | hin
        · apply hold
          apply mem_append_right
          rw [hopen]
          exact mem_append_left _ hin
        · obtain ⟨nhi, hnhi, rfl⟩ := mem_map.mp hin
          obtain ⟨hread, hle⟩ := fields_fit rfl hsmall hsize hcount hnhi
          refine ⟨hread, r.setSize kind bitpos, ?_, ?_⟩
          · rw [hmodify]
            exact mem_append_right _ mem_cons_self
          · rw [size_setSize, if_pos rfl, hnext]
            exact hle
      · apply hold
        apply mem_append_right
        rw [hopen]
        exact mem_append_right _ hin

theorem Bounded.parseItem (h : Bounded s) (hfits : FitsStep s item) (hparse : s.parseItem item = some s') :
    Bounded s' := by
  unfold ParseState.parseItem at hparse
  split at hparse
  · rename_i t env hmain henv
    obtain rfl := some.inj hparse
    have ht : Bounded t := by
      unfold ParseState.mainItem at hmain
      split at hmain
      · rename_i kind htag
        apply h.switchReport.declare _ hmain
        rw [switchReport_env]
        exact hfits kind htag
      · obtain rfl := some.inj hmain
        exact ⟨h.switchReport.inForce, h.switchReport.small, h.switchReport.fitted⟩
      · obtain rfl := some.inj hmain
        exact h.switchReport.endCollect
      · obtain rfl := some.inj hmain
        exact h
    exact ⟨ht.inForce, ht.small, ht.fitted⟩
  · exact absurd hparse (some_ne_none _).symm

theorem Bounded.parseItems (h : Bounded s) (hfits : Sized s items) (hparse : s.parseItems items = some s') :
    Bounded s' := by
  induction items generalizing s with
  | nil =>
    obtain rfl := some.inj hparse
    exact h
  | cons item items ih =>
    unfold ParseState.parseItems at hparse
    unfold Sized at hfits
    cases hitem : s.parseItem item with
    | none =>
      rw [hitem] at hparse
      exact absurd hparse (some_ne_none _).symm
    | some t =>
      rw [hitem] at hparse hfits
      exact ih (h.parseItem hfits.1 hitem) hfits.2 hparse

theorem Bounded.start : Bounded .start where
  inForce := Nat.one_pos
  small := by
    intro r hr kind
    rw [mem_singleton.mp hr, size_empty]
    decide
  fitted := fun x hx => absurd hx not_mem_nil

end Neptune.Hid
