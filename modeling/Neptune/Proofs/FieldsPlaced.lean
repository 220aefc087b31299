import Neptune.Spec.HidParse

/-! The fields a report descriptor declares, each with the place it is to have in its report, and what
the parser makes of one main item. -/

namespace Neptune

open List Option

namespace Hid

variable {env : ParseEnv} {item : ShortItem} {nhg : NepHidGlobal} {id bitpos : ULONG} {kind : Kind}
  {us : List ULONG} {b n : ℕ}

structure Decl where
  id : ULONG
  kind : Kind
  main : ℕ
  size : ℕ
  count : ℕ
  isVariable : Bool
  usages : List NepHidUsage
  deriving DecidableEq, Repr

structure Field where
  id : ULONG
  kind : Kind
  main : ℕ
  offset : ℕ
  deriving DecidableEq, Repr

def ParseEnv.decl (env : ParseEnv) (item : ShortItem) : List Decl :=
  match item.tag with
  | .main kind =>
    [⟨env.global.reportID, kind, item.pos, env.global.reportSize.toNat, env.global.reportCount.toNat,
      item.isVariable, env.usages⟩]
  | _ => []

def ParseEnv.decls (env : ParseEnv) : List ShortItem → List Decl
  | [] => []
  | item :: items =>
    env.decl item ++
      match env.parse item with
      | some env => env.decls items
      | none => []

def base (ds : List Decl) (id : ULONG) (kind : Kind) : ℕ :=
  ((ds.filter fun d => d.id = id ∧ d.kind = kind).map fun d => d.size * d.count).sum

def Decl.fields (d : Decl) (b : ℕ) : List Field :=
  if d.usages = [] then []
  else if d.isVariable then (List.range' b d.count d.size).map (Field.mk d.id d.kind d.main)
  else [⟨d.id, d.kind, d.main, b⟩]

def fieldsFrom (before : List Decl) : List Decl → List Field
  | [] => []
  | d :: ds => d.fields (base before d.id d.kind) ++ fieldsFrom (before ++ [d]) ds

theorem base_append (ds es : List Decl) (id : ULONG) (kind : Kind) :
    base (ds ++ es) id kind = base ds id kind + base es id kind := by
  unfold base
  rw [filter_append, map_append, sum_append]

theorem base_singleton (d : Decl) (id : ULONG) (kind : Kind) :
    base [d] id kind = if d.id = id ∧ d.kind = kind then d.size * d.count else 0 := by
  unfold base
  by_cases h : d.id = id ∧ d.kind = kind
  · rw [if_pos h, filter_cons_of_pos (by simpa using h)]
    simp
  · rw [if_neg h, filter_cons_of_neg (by simpa using h)]
    simp

theorem base_eq_zero {ds : List Decl} (h : ∀ d ∈ ds, d.id ≠ id) (kind : Kind) : base ds id kind = 0 := by
  unfold base
  rw [filter_eq_nil_iff.mpr]
  · rfl
  · intro d hd
    simp [h d hd]

theorem fieldsFrom_cons (before ds : List Decl) (d : Decl) :
    fieldsFrom before (d :: ds) =
      d.fields (base before d.id d.kind) ++ fieldsFrom (before ++ [d]) ds := rfl

theorem fieldsFrom_append (before ds es : List Decl) :
    fieldsFrom before (ds ++ es) = fieldsFrom before ds ++ fieldsFrom (before ++ ds) es := by
  induction ds generalizing before with
  | nil => rw [nil_append, append_nil]; rfl
  | cons d ds ih =>
    rw [cons_append, fieldsFrom_cons, fieldsFrom_cons, ih, append_assoc, append_assoc]
    rfl

theorem fieldsFrom_singleton (before : List Decl) (d : Decl) :
    fieldsFrom before [d] = d.fields (base before d.id d.kind) := append_nil _

theorem mem_fields {d : Decl} {f : Field} (h : f ∈ d.fields b) : f.id = d.id ∧ f.main = d.main := by
  unfold Decl.fields at h
  split at h
  · exact absurd h not_mem_nil
  · split at h
    · obtain ⟨offset, -, rfl⟩ := mem_map.mp h
      exact ⟨rfl, rfl⟩
    · rw [mem_singleton.mp h]
      exact ⟨rfl, rfl⟩

theorem mem_fieldsFrom {before ds : List Decl} {f : Field} (h : f ∈ fieldsFrom before ds) :
    ∃ d ∈ ds, f.id = d.id ∧ f.main = d.main := by
  induction ds generalizing before with
  | nil => exact absurd h not_mem_nil
  | cons d ds ih =>
    rcases mem_append.mp h with h | h
    · exact ⟨d, mem_cons_self, mem_fields h⟩
    · obtain ⟨d', hd', heq⟩ := ih h
      exact ⟨d', mem_cons_of_mem _ hd', heq⟩

def DeclaredItem.field (x : DeclaredItem) : Field := ⟨x.id, x.kind, x.main, x.nhi.offset⟩

def Told (env : ParseEnv) (item : ShortItem) : Prop :=
  item.isVariable = true → env.usages ≠ [] →
    HID_PARAM_UNDEF ∉ takeUsages env.global.reportCount.toNat HID_PARAM_UNDEF env.usages

theorem length_takeUsages (n : ℕ) (usageid : ULONG) (usages : List NepHidUsage) :
    (takeUsages n usageid usages).length = n := by
  induction n generalizing usageid usages with
  | zero => rfl
  | succ n ih => exact congrArg Nat.succ (ih _ _)

theorem takeUsages_nil (n : ℕ) (usageid : ULONG) :
    takeUsages n usageid [] = replicate n usageid := by
  induction n with
  | zero => rfl
  | succ n ih => exact congrArg (cons usageid) ih

theorem variableItems_undef (bitpos : ULONG) (n : ℕ) :
    variableItems nhg bitpos (replicate n HID_PARAM_UNDEF) = [] := by
  induction n generalizing bitpos with
  | zero => rfl
  | succ n ih =>
    exact ih _

theorem variableItems_offsets (hb : bitpos.toNat = b) (hsmall : b + us.length * nhg.reportSize.toNat < 65536)
    (hsize : 0 < nhg.reportSize.toNat) :
    ((variableItems nhg bitpos us).map (·.offset)).Sublist (range' b us.length nhg.reportSize.toNat) ∧
      ((variableItems nhg bitpos us).length = us.length ↔ HID_PARAM_UNDEF ∉ us) := by
  induction us generalizing bitpos b with
  | nil => exact ⟨List.Sublist.refl _, iff_of_true rfl not_mem_nil⟩
  | cons u us ih =>
    rw [length_cons, Nat.add_mul, Nat.one_mul] at hsmall
    have hnext : (bitpos + nhg.reportSize).toNat = b + nhg.reportSize.toNat := by
      rw [BitVec.toNat_add, hb, Nat.mod_eq_of_lt (by omega)]
    obtain ⟨hsub, hall⟩ := ih hnext (by omega)
    have hle := hsub.length_le
    rw [length_map, length_range'] at hle
    unfold variableItems
    rw [length_cons, range'_succ]
    by_cases hu : u = HID_PARAM_UNDEF
    · rw [if_pos hu]
      refine ⟨hsub.trans (sublist_cons_self _ _), iff_of_false (by omega) ?_⟩
      rw [hu]
      exact fun hnot => hnot mem_cons_self
    · rw [if_neg hu, map_cons, length_cons, mem_cons, not_or, Nat.add_right_cancel_iff, hall]
      refine ⟨?_, (and_iff_right fun h => hu h.symm).symm⟩
      have hoff : (variableItem nhg bitpos u).offset = b := by
        change bitpos.toNat % 65536 = b
        rw [hb, Nat.mod_eq_of_lt (by omega)]
      rw [hoff]
      exact hsub.cons_cons _

theorem fields_made {d : Decl} (hd : d ∈ env.decl item) (hb : bitpos.toNat = b)
    (hsmall : b + d.size * d.count < 65536) (hsize : 0 < d.size) :
    (((env.fields item bitpos).map (DeclaredItem.mk d.id item.pos d.kind)).map
        DeclaredItem.field).Sublist (d.fields b) ∧
      (((env.fields item bitpos).length = (d.fields b).length) ↔ Told env item) := by
  obtain ⟨kind, htag⟩ : ∃ kind, item.tag = .main kind := by
    unfold ParseEnv.decl at hd
    split at hd
    · exact ⟨_, ‹_›⟩
    · exact absurd hd not_mem_nil
  unfold ParseEnv.decl at hd
  rw [htag] at hd
  obtain rfl := mem_singleton.mp hd
  have hmap : ∀ l : List NepHidItem, (l.map (DeclaredItem.mk env.global.reportID item.pos kind)).map
      DeclaredItem.field = (l.map (·.offset)).map (Field.mk env.global.reportID kind item.pos) := by
    intro l
    rw [List.map_map, List.map_map]
    rfl
  rw [hmap]
  unfold ParseEnv.fields Decl.fields Told
  dsimp only at hsmall hsize ⊢
  cases hvar : item.isVariable with
  | true =>
    simp only [if_true, true_implies]
    by_cases hnone : env.usages = []
    · rw [if_pos hnone, hnone, takeUsages_nil, variableItems_undef]
      exact ⟨List.Sublist.refl _, iff_of_true rfl fun h => absurd rfl h⟩
    · have hlength := length_takeUsages env.global.reportCount.toNat HID_PARAM_UNDEF env.usages
      rw [Nat.mul_comm, ← hlength] at hsmall
      obtain ⟨hsub, hall⟩ := variableItems_offsets hb hsmall hsize
      rw [hlength] at hsub hall
      rw [if_neg hnone, length_map, length_range', hall]
      exact ⟨hsub.map _, fun h _ => h, fun h => h hnone⟩
  | false =>
    simp only [Bool.false_eq_true, if_false, false_implies, iff_true]
    by_cases hnone : env.usages = []
    · rw [if_pos hnone, if_pos hnone]
      exact ⟨List.Sublist.refl _, rfl⟩
    · rw [if_neg hnone, if_neg hnone]
      have hoff : (arrayItem env.global bitpos env.usages).offset = b := by
        change bitpos.toNat % 65536 = b
        rw [hb]
        apply Nat.mod_eq_of_lt
        omega
      rw [map_singleton, map_singleton, hoff]
      exact ⟨List.Sublist.refl _, rfl⟩

variable {s s' : ParseState} {item : ShortItem} {items : List ShortItem} {ds : List Decl} {d : Decl}
  {reports : List NepHidReport} {nhr : ℕ} {reportid id bitpos : ULONG} {kind : Kind}
  {r : NepHidReport} {c : NepHidCollection} {f : NepHidReport → NepHidReport}

theorem modify_split {α : Type*} {l : List α} {a : α} {i : ℕ} (h : l[i]? = some a) (f : α → α) :
    ∃ l₁ l₂, l = l₁ ++ a :: l₂ ∧ l.modify i f = l₁ ++ f a :: l₂ ∧ l₁.length = i := by
  obtain ⟨hi, hget⟩ := List.getElem?_eq_some_iff.mp h
  obtain ⟨l₁, a', l₂, hl, hlength, hmodify⟩ := exists_of_modify f hi
  have ha : a' = a := by
    rw [← hget]
    subst hlength
    simp [hl]
  exact ⟨l₁, l₂, ha ▸ hl, ha ▸ hmodify, hlength⟩

structure Sound (reports : List NepHidReport) (nhr : ℕ) (reportid : ULONG) (ds : List Decl) : Prop where
  ids : (reports.map (·.reportID)).Nodup
  inForce : ∃ r, reports[nhr]? = some r ∧ r.reportID = reportid
  size : ∀ r ∈ reports, ∀ kind, (r.size kind).toNat = base ds r.reportID kind
  known : ∀ d ∈ ds, d.id ∈ reports.map (·.reportID)
  single : reportid = 0 → reports.length = 1

theorem Sound.start : Sound [.empty 0] 0 0 [] where
  ids := nodup_singleton _
  inForce := ⟨_, rfl, rfl⟩
  size := by
    intro r hr kind
    rw [mem_singleton.mp hr]
    cases kind <;> rfl
  known := fun d hd => absurd hd not_mem_nil
  single := fun _ => rfl

theorem size_addCollection (r : NepHidReport) (c : NepHidCollection) (kind : Kind) :
    (r.addCollection c).size kind = r.size kind := by
  cases kind <;> rfl

theorem Sound.addCollection (h : Sound reports nhr reportid ds) (i : ℕ) (c : NepHidCollection) :
    Sound (reports.modify i (·.addCollection c)) nhr reportid ds := by
  by_cases hi : i < reports.length
  · obtain ⟨l₁, l₂, hl, hmodify, -⟩ := modify_split (getElem?_eq_getElem hi) (·.addCollection c)
    have hids : (reports.modify i (·.addCollection c)).map (·.reportID) = reports.map (·.reportID) := by
      rw [hmodify]
      conv_rhs => rw [hl]
      simp [NepHidReport.addCollection]
    refine ⟨hids ▸ h.ids, ?_, ?_, hids ▸ h.known, ?_⟩
    · obtain ⟨r, hr, hid⟩ := h.inForce
      rw [getElem?_modify, hr]
      split
      · exact ⟨_, rfl, hid⟩
      · exact ⟨_, rfl, hid⟩
    · intro r hr kind
      rw [hmodify] at hr
      rcases mem_append.mp hr with hr | hr
      · exact h.size r (hl ▸ mem_append_left _ hr) kind
      rcases mem_cons.mp hr with rfl | hr
      · exact h.size reports[i] (getElem_mem hi) kind
      · exact h.size r (hl ▸ mem_append_right _ (mem_cons_of_mem _ hr)) kind
    · intro hzero
      rw [length_modify]
      exact h.single hzero
  · rw [modify_eq_self (by omega)]
    exact h

theorem Sound.findReport (h : Sound s.reports s.nhr s.reportid ds) (hid : id ≠ 0) :
    Sound (s.findReport id).1 (s.findReport id).2 id ds := by
  unfold ParseState.findReport
  cases hfind : s.reports.findIdx? (·.reportID = id) with
  | some nhr =>
    obtain ⟨hlt, heq, -⟩ := findIdx?_eq_some_iff_getElem.mp hfind
    exact ⟨h.ids, ⟨_, getElem?_eq_getElem hlt, of_decide_eq_true heq⟩, h.size, h.known,
      fun hzero => absurd hzero hid⟩
  | none =>
    have hnone : id ∉ s.reports.map (·.reportID) := by
      intro hin
      obtain ⟨r, hr, rfl⟩ := mem_map.mp hin
      exact absurd (findIdx?_eq_none_iff.mp hfind r hr) (by simp)
    refine ⟨?_, ⟨.empty id, by simp, rfl⟩, ?_, ?_, fun hzero => absurd hzero hid⟩
    · rw [map_append]
      exact nodup_append.mpr ⟨h.ids, nodup_singleton _, fun a ha b hb heq => hnone (by
        rw [heq, mem_singleton.mp hb] at ha
        exact ha)⟩
    · intro r hr kind
      rcases mem_append.mp hr with hr | hr
      · exact h.size r hr kind
      · rw [mem_singleton.mp hr, base_eq_zero]
        · cases kind <;> rfl
        · rintro d hd rfl
          exact hnone (h.known d hd)
    · intro d hd
      rw [map_append]
      exact mem_append_left _ (h.known d hd)

theorem Sound.rename (h : Sound reports nhr 0 []) (id : ULONG) (hid : id ≠ 0) :
    Sound (reports.modify nhr fun r => { r with reportID := id }) nhr id [] := by
  obtain ⟨r, hr, -⟩ := h.inForce
  obtain ⟨r', rfl⟩ := length_eq_one_iff.mp (h.single rfl)
  obtain ⟨hlt, rfl⟩ := List.getElem?_eq_some_iff.mp hr
  obtain rfl : nhr = 0 := by simpa using hlt
  refine ⟨nodup_singleton _, ⟨_, rfl, rfl⟩, ?_, fun d hd => absurd hd not_mem_nil,
    fun hzero => absurd hzero hid⟩
  intro r hr kind
  rw [mem_singleton.mp hr]
  exact h.size _ mem_cons_self kind

theorem size_setSize (r : NepHidReport) (kind kind' : Kind) (bitpos : ULONG) :
    (r.setSize kind bitpos).size kind' = if kind' = kind then bitpos else r.size kind' := by
  cases kind <;> cases kind' <;> rfl

theorem reportID_setSize (r : NepHidReport) (kind : Kind) (bitpos : ULONG) :
    (r.setSize kind bitpos).reportID = r.reportID := by
  cases kind <;> rfl

theorem collections_setSize (r : NepHidReport) (kind : Kind) (bitpos : ULONG) :
    (r.setSize kind bitpos).collections = r.collections := by
  cases kind <;> rfl

theorem Sound.declare (h : Sound reports nhr d.id ds) (hr : reports[nhr]? = some r)
    (hbits : bitpos.toNat = base ds d.id d.kind + d.size * d.count) :
    Sound (reports.modify nhr (·.setSize d.kind bitpos)) nhr d.id (ds ++ [d]) := by
  obtain ⟨r', hr', hid⟩ := h.inForce
  obtain rfl : r = r' := some.inj (hr.symm.trans hr')
  obtain ⟨l₁, l₂, hl, hmodify, -⟩ := modify_split hr (·.setSize d.kind bitpos)
  have hids : (reports.modify nhr (·.setSize d.kind bitpos)).map (·.reportID) =
      reports.map (·.reportID) := by
    rw [hmodify, hl]
    simp [reportID_setSize]
  -- no other report has the ID that is in force
  have hother : ∀ r' ∈ l₁ ++ l₂, d.id ≠ r'.reportID := by
    have hnodup := h.ids
    rw [hl, map_append, map_cons, hid] at hnodup
    have hnot := (nodup_middle.mp hnodup).notMem
    rw [← map_append] at hnot
    intro r' hr' heq
    exact hnot (heq ▸ mem_map_of_mem hr')
  have hkeep : ∀ r' ∈ l₁ ++ l₂, ∀ kind, (r'.size kind).toNat = base (ds ++ [d]) r'.reportID kind := by
    intro r' hr' kind
    rw [base_append, base_singleton, if_neg fun heq => hother r' hr' heq.1, Nat.add_zero]
    apply h.size
    rw [hl]
    rcases mem_append.mp hr' with hr' | hr'
    · exact mem_append_left _ hr'
    · exact mem_append_right _ (mem_cons_of_mem _ hr')
  refine ⟨hids ▸ h.ids, ⟨r.setSize d.kind bitpos, by rw [getElem?_modify, hr]; simp, ?_⟩, ?_, ?_, ?_⟩
  · exact (reportID_setSize r _ _).trans hid
  · intro r' hr' kind
    rw [hmodify] at hr'
    rcases mem_append.mp hr' with hr' | hr'
    · exact hkeep r' (mem_append_left _ hr') kind
    rcases mem_cons.mp hr' with rfl | hr'
    · rw [size_setSize, reportID_setSize, hid, base_append, base_singleton]
      by_cases hkind : kind = d.kind
      · rw [if_pos hkind, if_pos ⟨rfl, hkind.symm⟩, hkind, hbits]
      · rw [if_neg hkind, if_neg fun heq => hkind heq.2.symm, Nat.add_zero, ← hid]
        exact h.size r (hl ▸ mem_append_right _ mem_cons_self) kind
    · exact hkeep r' (mem_append_right _ hr') kind
  · intro d' hd'
    rw [hids]
    rcases mem_append.mp hd' with hd' | hd'
    · exact h.known d' hd'
    · rw [mem_singleton.mp hd', ← hid]
      exact mem_map_of_mem (mem_of_getElem? hr)
  · intro hzero
    rw [length_modify]
    exact h.single hzero

def ParseState.located (s : ParseState) : List DeclaredItem :=
  s.reports.flatMap (·.items) ++ s.nhc.flatMap (·.items)

def Kept (s : ParseState) (ds : List Decl) : Prop :=
  (s.located.map DeclaredItem.field).Subperm (fieldsFrom [] ds)

def Tagged (reports : List NepHidReport) : Prop := ∀ r ∈ reports, ∀ x ∈ r.items, x.id = r.reportID

def Intact (s : ParseState) (ds : List Decl) : Prop :=
  (fieldsFrom [] ds).length ≤ s.located.length ∧ Tagged s.reports

theorem items_addCollection (r : NepHidReport) (c : NepHidCollection) :
    (r.addCollection c).items = r.items ++ c.items := by
  unfold NepHidReport.items NepHidReport.addCollection
  rw [flatMap_append, flatMap_singleton]

theorem items_setSize (r : NepHidReport) (kind : Kind) (bitpos : ULONG) :
    (r.setSize kind bitpos).items = r.items := by
  unfold NepHidReport.items
  rw [collections_setSize]

theorem flatMap_addCollection (hr : reports[nhr]? = some r) (c : NepHidCollection) :
    ((reports.modify nhr (·.addCollection c)).flatMap (·.items)).Perm
      (reports.flatMap (·.items) ++ c.items) := by
  obtain ⟨l₁, l₂, hl, hmodify, -⟩ := modify_split hr (·.addCollection c)
  rw [hmodify, hl, flatMap_append, flatMap_append, flatMap_cons, flatMap_cons,
    items_addCollection, append_assoc, append_assoc, append_assoc]
  exact ((perm_append_comm).append_left _).append_left _

theorem tagged_addCollection (hr : reports[nhr]? = some r) (c : NepHidCollection) :
    Tagged (reports.modify nhr (·.addCollection c)) ↔
      Tagged reports ∧ ∀ x ∈ c.items, x.id = r.reportID := by
  obtain ⟨l₁, l₂, hl, hmodify, -⟩ := modify_split hr (·.addCollection c)
  have hhead : (∀ x ∈ (r.addCollection c).items, x.id = (r.addCollection c).reportID) ↔
      (∀ x ∈ r.items, x.id = r.reportID) ∧ ∀ x ∈ c.items, x.id = r.reportID := by
    rw [items_addCollection, forall_mem_append]
    rfl
  unfold Tagged
  rw [hmodify, hl, forall_mem_append, forall_mem_append, forall_mem_cons,
    forall_mem_cons, hhead]
  tauto

theorem flatMap_setSize (reports : List NepHidReport) (nhr : ℕ) (kind : Kind) (bitpos : ULONG) :
    (reports.modify nhr (·.setSize kind bitpos)).flatMap (·.items) = reports.flatMap (·.items) := by
  by_cases hlt : nhr < reports.length
  · obtain ⟨l₁, l₂, hl, hmodify, -⟩ := modify_split (getElem?_eq_getElem hlt) (·.setSize kind bitpos)
    rw [hmodify]
    conv_rhs => rw [hl]
    simp [items_setSize]
  · rw [modify_eq_self (by omega)]

theorem tagged_setSize (hr : reports[nhr]? = some r) (kind : Kind) (bitpos : ULONG) :
    Tagged (reports.modify nhr (·.setSize kind bitpos)) ↔ Tagged reports := by
  obtain ⟨l₁, l₂, hl, hmodify, -⟩ := modify_split hr (·.setSize kind bitpos)
  unfold Tagged
  rw [hmodify, hl, forall_mem_append, forall_mem_append, forall_mem_cons,
    forall_mem_cons, items_setSize, reportID_setSize]

/-- What is handed over belongs to the old report, and no more is lost than empty collections. -/
def HandedOver (s : ParseState) : Prop :=
  s.reportid ≠ s.env.global.reportID → s.reportid ≠ 0 → ∀ nhc outer, s.nhc = nhc :: outer →
    nhc.items ≠ [] → (∀ x ∈ nhc.items, x.id = s.reportid) ∧ outer.flatMap (·.items) = []

theorem findReport_flatMap (s : ParseState) (id : ULONG) :
    (s.findReport id).1.flatMap (·.items) = s.reports.flatMap (·.items) := by
  unfold ParseState.findReport
  split
  · rfl
  · rw [flatMap_append]
    exact append_nil _

theorem findReport_tagged (s : ParseState) (id : ULONG) :
    Tagged (s.findReport id).1 ↔ Tagged s.reports := by
  unfold ParseState.findReport
  split
  · rfl
  · unfold Tagged
    rw [forall_mem_append, and_iff_left_iff_imp]
    intro _ r hr x hx
    rw [mem_singleton.mp hr] at hx
    exact absurd hx not_mem_nil

theorem findReport_getElem (id : ULONG) (h : s.reports[nhr]? = some r) :
    (s.findReport id).1[nhr]? = some r := by
  unfold ParseState.findReport
  split
  · exact h
  · rw [List.getElem?_append_left (List.getElem?_eq_some_iff.mp h).1]
    exact h

theorem cloneCollection_cases (s : ParseState) (reports : List NepHidReport) :
    s.cloneCollection reports = (reports, s.nhc) ∧ (∀ nhc outer, s.nhc = nhc :: outer → nhc.items = []) ∨
    ∃ nhc outer, s.nhc = nhc :: outer ∧ nhc.items ≠ [] ∧
      s.cloneCollection reports = (reports.modify s.nhr (·.addCollection nhc), [⟨nhc.usage, []⟩]) := by
  unfold ParseState.cloneCollection
  cases hopen : s.nhc with
  | nil => exact .inl ⟨rfl, fun nhc outer h => absurd h (cons_ne_nil _ _).symm⟩
  | cons nhc outer =>
    dsimp only
    by_cases hempty : nhc.items = []
    · rw [if_pos hempty]
      refine .inl ⟨rfl, fun nhc' outer' h => ?_⟩
      rw [(cons.inj h).1] at hempty
      exact hempty
    · rw [if_neg hempty]
      exact .inr ⟨nhc, outer, rfl, hempty, rfl⟩

theorem Kept.le (h : Kept s ds) (hsub : s'.located.Subperm s.located) : Kept s' ds := by
  obtain ⟨l, hperm, hsublist⟩ := hsub
  exact (hperm.map _).symm.subperm.trans ((hsublist.map _).subperm.trans h)

theorem Kept.length_le (h : Kept s ds) : s.located.length ≤ (fieldsFrom [] ds).length := by
  have hle := List.Subperm.length_le h
  rwa [length_map] at hle

theorem Kept.nil (h : Kept s []) : s.located = [] :=
  map_eq_nil_iff.mp (subperm_nil.mp h)

theorem Tagged.nil (h : reports.flatMap (·.items) = []) : Tagged reports := by
  intro r hr x hx
  have hnil := flatMap_eq_nil_iff.mp h r hr
  rw [hnil] at hx
  exact absurd hx not_mem_nil

structure Switched (s t : ParseState) (ds : List Decl) : Prop where
  sound : Sound t.reports t.nhr t.reportid ds
  reportid : t.reportid = s.env.global.reportID
  env : t.env = s.env
  kept : Kept t ds
  good : Intact t ds ↔ Intact s ds ∧ HandedOver s

theorem switched (hsound : Sound s.reports s.nhr s.reportid ds) (hkept : Kept s ds)
    (hzero : s.reportid ≠ 0 → s.env.global.reportID ≠ 0)
    (hfirst : s.reportid = 0 → s.env.global.reportID ≠ 0 → ds = []) :
    Switched s s.switchReport ds := by
  unfold ParseState.switchReport
  dsimp only
  by_cases hsame : s.reportid = s.env.global.reportID
  · rw [if_pos hsame]
    exact ⟨hsound, hsame, rfl, hkept, (and_iff_left fun hne => absurd hsame hne).symm⟩
  rw [if_neg hsame]
  by_cases hset : s.reportid ≠ 0
  · rw [if_pos hset]
    obtain ⟨r, hr, hid⟩ := hsound.inForce
    have hfind := hsound.findReport (hzero hset)
    have hold := findReport_getElem s.env.global.reportID hr
    rcases cloneCollection_cases s (s.findReport s.env.global.reportID).1 with
      ⟨hclone, hempty⟩ | ⟨nhc, outer, hopen, hitems, hclone⟩
    · rw [hclone]
      have hlocated : (s.findReport s.env.global.reportID).1.flatMap (·.items) ++
          s.nhc.flatMap (·.items) = s.located := by
        rw [findReport_flatMap]
        rfl
      refine ⟨hfind, rfl, rfl, ?_, ?_⟩
      · unfold Kept ParseState.located
        rw [hlocated]
        exact hkept
      · unfold Intact ParseState.located
        rw [hlocated, findReport_tagged]
        refine (and_iff_left fun _ _ nhc outer hopen hne => ?_).symm
        exact absurd (hempty nhc outer hopen) hne
    · rw [hclone]
      have hperm := flatMap_addCollection hold nhc
      rw [findReport_flatMap] at hperm
      have hlocated : s.located =
          (s.reports.flatMap (·.items) ++ nhc.items) ++ outer.flatMap (·.items) := by
        unfold ParseState.located
        rw [hopen, flatMap_cons, append_assoc]
      have hclosed : [(⟨nhc.usage, []⟩ : NepHidCollection)].flatMap (·.items) = [] := rfl
      refine ⟨hfind.addCollection _ _, rfl, rfl, ?_, ?_⟩
      · apply hkept.le
        unfold ParseState.located at hlocated ⊢
        rw [hlocated, hclosed, append_nil]
        exact hperm.subperm.trans (sublist_append_left _ _).subperm
      · have hle := hkept.length_le
        have hlength := hperm.length_eq
        unfold Intact
        rw [hlocated, length_append] at hle ⊢
        unfold ParseState.located
        rw [hclosed, append_nil, hlength, tagged_addCollection hold, findReport_tagged, hid]
        constructor
        · rintro ⟨hwhole, htagged, hown⟩
          have hnone : (outer.flatMap (·.items)).length = 0 := by omega
          refine ⟨⟨by omega, htagged⟩, fun _ _ nhc' outer' hopen' _ => ?_⟩
          obtain ⟨rfl, rfl⟩ := cons.inj (hopen.symm.trans hopen')
          exact ⟨hown, length_eq_zero_iff.mp hnone⟩
        · rintro ⟨⟨hwhole, htagged⟩, hover⟩
          obtain ⟨hown, hnone⟩ := hover hsame hset nhc outer hopen hitems
          rw [hnone, length_nil, Nat.add_zero] at hwhole
          exact ⟨hwhole, htagged, hown⟩
  · rw [if_neg hset]
    have hnew : s.reportid = 0 := not_not.mp hset
    have hid : s.env.global.reportID ≠ 0 := fun h => hsame (hnew.trans h.symm)
    obtain rfl := hfirst hnew hid
    have hnone := hkept.nil
    rw [hnew] at hsound
    have hitems : (s.reports.modify s.nhr fun r =>
        { r with reportID := s.env.global.reportID }).flatMap (·.items) = s.reports.flatMap (·.items) := by
      obtain ⟨r, hr, -⟩ := hsound.inForce
      obtain ⟨l₁, l₂, hl, hmodify, -⟩ := modify_split hr
        fun r : NepHidReport => { r with reportID := s.env.global.reportID }
      rw [hmodify, hl]
      simp [NepHidReport.items]
    have hreports := (append_eq_nil_iff.mp hnone).1
    refine ⟨hsound.rename _ hid, rfl, rfl, ?_, ?_⟩
    · unfold Kept ParseState.located
      rw [hitems]
      exact hkept
    · refine iff_of_true ⟨Nat.zero_le _, Tagged.nil (hitems.trans hreports)⟩ ⟨⟨Nat.zero_le _, Tagged.nil hreports⟩, ?_⟩
      exact fun _ hne => absurd hnew hne

def EndsOwn (s : ParseState) : Prop :=
  ∀ nhc outer, s.nhc = nhc :: outer → ∀ x ∈ nhc.items, x.id = s.reportid

theorem collect_spec (hkept : Kept s ds) :
    Kept s.collect ds ∧ (Intact s.collect ds ↔ Intact s ds) := by
  have hlocated : s.collect.located = s.located := rfl
  unfold Kept Intact
  rw [hlocated]
  exact ⟨hkept, Iff.rfl⟩

theorem endCollect_spec (hsound : Sound s.reports s.nhr s.reportid ds) (hkept : Kept s ds) :
    Sound s.endCollect.reports s.endCollect.nhr s.endCollect.reportid ds ∧ Kept s.endCollect ds ∧
      (Intact s.endCollect ds ↔ Intact s ds ∧ EndsOwn s) := by
  unfold ParseState.endCollect
  cases hopen : s.nhc with
  | nil =>
    refine ⟨hsound, hkept, (and_iff_left fun nhc outer h => ?_).symm⟩
    exact absurd (hopen.symm.trans h) (cons_ne_nil _ _).symm
  | cons nhc outer =>
    obtain ⟨r, hr, hid⟩ := hsound.inForce
    have hperm := flatMap_addCollection hr nhc
    have hlocated : s.located =
        s.reports.flatMap (·.items) ++ nhc.items ++ outer.flatMap (·.items) := by
      unfold ParseState.located
      rw [hopen, flatMap_cons, append_assoc]
    have hsame := hperm.append_right (outer.flatMap (·.items))
    rw [← hlocated] at hsame
    refine ⟨hsound.addCollection _ _, hkept.le hsame.subperm, ?_⟩
    unfold Intact
    rw [tagged_addCollection hr, hid, ← hsame.length_eq, and_assoc]
    refine and_congr_right fun _ => and_congr_right fun _ => ⟨fun hown nhc' outer' hopen' => ?_, fun hown => ?_⟩
    · rw [← (cons.inj (hopen.symm.trans hopen')).1]
      exact hown
    · exact hown nhc outer hopen

theorem declare_spec (hsound : Sound s.reports s.nhr s.reportid ds) (hkept : Kept s ds)
    (hdelim : s.env.delim = 0) (hid : s.reportid = s.env.global.reportID) (htag : item.tag = .main kind)
    (hd : d ∈ s.env.decl item) (hsmall : base ds d.id d.kind + d.size * d.count < 65536)
    (hdeclare : s.declare item kind = some s') :
    Sound s'.reports s'.nhr s'.reportid (ds ++ [d]) ∧ Kept s' (ds ++ [d]) ∧
      (Intact s' (ds ++ [d]) ↔ Intact s ds ∧ Told s.env item) ∧ s'.env = s.env ∧ s'.reportid = s.reportid := by
  have hdecl : d = ⟨s.env.global.reportID, kind, item.pos, s.env.global.reportSize.toNat,
      s.env.global.reportCount.toNat, item.isVariable, s.env.usages⟩ := by
    unfold ParseEnv.decl at hd
    rw [htag] at hd
    exact mem_singleton.mp hd
  obtain ⟨r, hr, hrid⟩ := hsound.inForce
  unfold ParseState.declare at hdeclare
  rw [if_neg (not_not.mpr hdelim), hr] at hdeclare
  cases hopen : s.nhc with
  | nil =>
    rw [hopen] at hdeclare
    exact absurd hdeclare (some_ne_none _).symm
  | cons nhc outer =>
    rw [hopen] at hdeclare
    dsimp only at hdeclare
    split at hdeclare
    · exact absurd hdeclare (some_ne_none _).symm
    rename_i hvalid
    obtain rfl := some.inj hdeclare
    have hsize : 0 < d.size := by
      rw [Bool.or_eq_true, not_or, decide_eq_true_iff, decide_eq_true_iff] at hvalid
      rw [hdecl]
      apply Nat.pos_of_ne_zero
      intro hzero
      exact hvalid.2 (BitVec.eq_of_toNat_eq hzero)
    have hdid : d.id = s.reportid := by rw [hdecl, hid]
    have hkind : d.kind = kind := by rw [hdecl]
    have hbits : (r.size kind).toNat = base ds d.id d.kind := by
      rw [hsound.size r (mem_of_getElem? hr) kind, hrid, hdid, hkind]
    obtain ⟨hsub, hall⟩ := fields_made hd hbits hsmall hsize
    have hmade : (s.env.fields item (r.size kind)).map (DeclaredItem.mk d.id item.pos d.kind) =
        (s.env.fields item (r.size kind)).map (DeclaredItem.mk s.env.global.reportID item.pos kind) := by
      rw [hdid, hid, hkind]
    rw [hmade] at hsub
    have hnext : (r.size kind + s.env.global.reportSize * s.env.global.reportCount).toNat =
        base ds d.id d.kind + d.size * d.count := by
      have hmul : (s.env.global.reportSize * s.env.global.reportCount).toNat = d.size * d.count := by
        rw [BitVec.toNat_mul, hdecl]
        rw [hdecl] at hsmall
        dsimp only at hsmall ⊢
        exact Nat.mod_eq_of_lt (by omega)
      rw [BitVec.toNat_add, hmul, hbits]
      exact Nat.mod_eq_of_lt (by omega)
    generalize hnew : (s.env.fields item (r.size kind)).map
      (DeclaredItem.mk s.env.global.reportID item.pos kind) = new at hsub
    have hlength : new.length = (s.env.fields item (r.size kind)).length := by
      rw [← hnew, length_map]
    have hfields : fieldsFrom [] (ds ++ [d]) = fieldsFrom [] ds ++ d.fields (base ds d.id d.kind) := by
      rw [fieldsFrom_append, fieldsFrom_singleton]
      rfl
    -- the new items stand behind those of the collection
    have hlocated : ∀ rest, (s.reports.flatMap (·.items) ++ ((nhc.items ++ new) ++ rest)).Perm
        ((s.reports.flatMap (·.items) ++ (nhc.items ++ rest)) ++ new) := by
      intro rest
      rw [append_assoc, append_assoc, append_assoc]
      exact ((perm_append_comm).append_left _).append_left _
    have hbefore : s.located = s.reports.flatMap (·.items) ++ (nhc.items ++ outer.flatMap (·.items)) := by
      unfold ParseState.located
      rw [hopen, flatMap_cons]
    have hafter := hlocated (outer.flatMap (·.items))
    rw [← hbefore, ← flatMap_setSize s.reports s.nhr kind
      (r.size kind + s.env.global.reportSize * s.env.global.reportCount)] at hafter
    refine ⟨?_, ?_, ?_, rfl, rfl⟩
    · rw [← hdid] at hsound ⊢
      rw [← hkind] at hnext hbits ⊢
      exact hsound.declare hr hnext
    · unfold Kept
      rw [hfields]
      refine ((hafter.map DeclaredItem.field).subperm).trans ?_
      rw [map_append]
      exact List.Subperm.append hkept hsub.subperm
    · have hle := hkept.length_le
      have hsublen := hsub.length_le
      rw [length_map] at hsublen
      have hlen := hafter.length_eq.trans length_append
      unfold ParseState.located at hlen hle
      unfold Intact ParseState.located
      rw [flatMap_cons, tagged_setSize hr, hfields, @length_append _ (fieldsFrom [] ds),
        ← hall, ← hlength, hlen]
      constructor
      · rintro ⟨hwhole, htagged⟩
        exact ⟨⟨by omega, htagged⟩, by omega⟩
      · rintro ⟨⟨hwhole, htagged⟩, hnewlen⟩
        exact ⟨by omega, htagged⟩

/-- All that a step hands over goes to the report it belongs to, and the fields are told. -/
def OwnPlace (s : ParseState) (item : ShortItem) : Prop :=
  match item.tag with
  | .main _ => HandedOver s ∧ Told s.env item
  | .collect => HandedOver s
  | .endColl => HandedOver s ∧ EndsOwn s.switchReport
  | _ => True

/-- No step puts a field into the report of another or loses it, and no collection with items is open at
the end. -/
def OwnPlaces (s : ParseState) : List ShortItem → Prop
  | [] => s.nhc.flatMap (·.items) = []
  | item :: items =>
    OwnPlace s item ∧
      match s.parseItem item with
      | some s => OwnPlaces s items
      | none => True

/-- Report IDs as they are to be used: no field before the first one, and none in force no more. -/
def regularIDs (env : ParseEnv) (reportid : ULONG) (declared : Bool) : List ShortItem → Bool
  | [] => true
  | item :: items =>
    (!item.isMain || (if reportid = 0 then env.global.reportID = 0 || !declared
      else env.global.reportID ≠ 0)) &&
    match env.parse item with
    | some env' =>
      regularIDs env' (if item.isMain then env.global.reportID else reportid)
        (declared || !(env.decl item).isEmpty) items
    | none => true

structure Stepped (s t : ParseState) (item : ShortItem) (ds : List Decl) : Prop where
  sound : Sound t.reports t.nhr t.reportid (ds ++ s.env.decl item)
  kept : Kept t (ds ++ s.env.decl item)
  good : Intact t (ds ++ s.env.decl item) ↔ Intact s ds ∧ OwnPlace s item
  env : s.env.parse item = some t.env
  reportid : t.reportid = if item.isMain then s.env.global.reportID else s.reportid

section

variable (hsound : Sound s.reports s.nhr s.reportid ds) (hkept : Kept s ds) (hdelim : s.env.delim = 0)
  (hids : item.isMain = true → (s.reportid ≠ 0 → s.env.global.reportID ≠ 0) ∧ (s.reportid = 0 → s.env.global.reportID ≠ 0 → ds = []))
  (hsmall : ∀ id kind, base (ds ++ s.env.decl item) id kind < 65536)
include hsound hkept hdelim hids hsmall

theorem mainItem_spec (hmain : s.mainItem item = some s') :
    Sound s'.reports s'.nhr s'.reportid (ds ++ s.env.decl item) ∧ Kept s' (ds ++ s.env.decl item) ∧
      (Intact s' (ds ++ s.env.decl item) ↔ Intact s ds ∧ OwnPlace s item) ∧
      s'.reportid = if item.isMain then s.env.global.reportID else s.reportid := by
  have hswitch := fun h => switched hsound hkept (hids h).1 (hids h).2
  unfold ParseState.mainItem at hmain
  unfold OwnPlace
  cases htag : item.tag with
  | main kind =>
    have hisMain : item.isMain = true := by
      unfold ShortItem.isMain
      rw [htag]
    obtain ⟨hsound, hid, henv, hkept, hgood⟩ := hswitch hisMain
    rw [htag] at hmain
    rw [← henv] at hid hdelim hsmall ⊢
    have hdecl : ∃ d, s.switchReport.env.decl item = [d] ∧ d ∈ s.switchReport.env.decl item := by
      unfold ParseEnv.decl
      rw [htag]
      exact ⟨_, rfl, mem_cons_self⟩
    obtain ⟨d, hd, hmem⟩ := hdecl
    have hbase := hsmall d.id d.kind
    rw [hd, base_append, base_singleton, if_pos ⟨rfl, rfl⟩] at hbase
    obtain ⟨hsound', hkept', hgood', henv', hid'⟩ :=
      declare_spec hsound hkept hdelim hid htag hmem hbase hmain
    rw [hd, if_pos hisMain]
    exact ⟨hsound', hkept', by rw [hgood', hgood, and_assoc], hid'.trans hid⟩
  | collect =>
    have hisMain : item.isMain = true := by
      unfold ShortItem.isMain
      rw [htag]
    have hnone : s.env.decl item = [] := by
      unfold ParseEnv.decl
      rw [htag]
    obtain ⟨hsound, hid, henv, hkept, hgood⟩ := hswitch hisMain
    rw [htag] at hmain
    obtain rfl := some.inj hmain
    obtain ⟨hkept', hgood'⟩ := collect_spec hkept
    rw [hnone, append_nil, if_pos hisMain]
    exact ⟨hsound, hkept', hgood'.trans hgood, hid⟩
  | endColl =>
    have hisMain : item.isMain = true := by
      unfold ShortItem.isMain
      rw [htag]
    have hnone : s.env.decl item = [] := by
      unfold ParseEnv.decl
      rw [htag]
    obtain ⟨hsound, hid, henv, hkept, hgood⟩ := hswitch hisMain
    rw [htag] at hmain
    obtain rfl := some.inj hmain
    obtain ⟨hsound', hkept', hgood'⟩ := endCollect_spec hsound hkept
    have hid' : s.switchReport.endCollect.reportid = s.switchReport.reportid := by
      unfold ParseState.endCollect
      split <;> rfl
    rw [hnone, append_nil, if_pos hisMain]
    exact ⟨hsound', hkept', by rw [hgood', hgood, and_assoc], hid'.trans hid⟩
  | _ =>
    have hisMain : item.isMain = false := by
      unfold ShortItem.isMain
      rw [htag]
    have hnone : s.env.decl item = [] := by
      unfold ParseEnv.decl
      rw [htag]
    rw [htag] at hmain
    obtain rfl := some.inj hmain
    rw [hnone, append_nil, hisMain]
    exact ⟨hsound, hkept, (and_iff_left trivial).symm, rfl⟩

theorem parseItem_spec (hparse : s.parseItem item = some s') : Stepped s s' item ds := by
  unfold ParseState.parseItem at hparse
  split at hparse
  · rename_i t env hmain henv
    obtain rfl := some.inj hparse
    obtain ⟨hsound', hkept', hgood', hid'⟩ := mainItem_spec hsound hkept hdelim hids hsmall hmain
    exact ⟨hsound', hkept', hgood', henv, hid'⟩
  · exact absurd hparse (some_ne_none _).symm

end

theorem addRange_delim {env env' : ParseEnv} {umin umax : ULONG} (h : env.addRange umin umax = some env') :
    env'.delim = env.delim := by
  obtain ⟨usages, -, rfl⟩ := map_eq_some_iff.mp h
  rfl

theorem addString_delim {env env' : ParseEnv} {smin smax : ULONG} (h : env.addString smin smax = some env') :
    env'.delim = env.delim := by
  obtain ⟨_, -, rfl⟩ := map_eq_some_iff.mp h
  rfl

theorem parse_delim {env env' : ParseEnv} (hitem : item.tag ≠ .delim) (h : env.parse item = some env') :
    env'.delim = env.delim := by
  unfold ParseEnv.parse at h
  cases htag : item.tag <;> rw [htag] at h hitem <;> dsimp only at h
  case delim => exact absurd rfl hitem
  case reserved => exact absurd h (some_ne_none _).symm
  case pop =>
    cases hstack : env.stack with
    | nil =>
      rw [hstack] at h
      exact absurd h (some_ne_none _).symm
    | cons nhg stack =>
      rw [hstack] at h
      obtain rfl := some.inj h
      rfl
  case usage =>
    obtain ⟨usages, -, rfl⟩ := map_eq_some_iff.mp h
    rfl
  case useMin | useMax =>
    split at h
    · exact addRange_delim h
    · obtain rfl := some.inj h
      rfl
  case strMin | strMax =>
    split at h
    · exact addString_delim h
    · obtain rfl := some.inj h
      rfl
  all_goals
    obtain rfl := some.inj h
    rfl

theorem parseItems_spec (hsound : Sound s.reports s.nhr s.reportid ds) (hkept : Kept s ds)
    (hdelim : s.env.delim = 0) (hdelims : ∀ item ∈ items, item.tag ≠ .delim)
    (hsmall : ∀ id kind, base (ds ++ s.env.decls items) id kind < 65536)
    (hids : regularIDs s.env s.reportid (!ds.isEmpty) items = true)
    (hparse : s.parseItems items = some s') :
    Sound s'.reports s'.nhr s'.reportid (ds ++ s.env.decls items) ∧ Kept s' (ds ++ s.env.decls items) ∧
      (Intact s' (ds ++ s.env.decls items) ∧ s'.nhc.flatMap (·.items) = [] ↔
        Intact s ds ∧ OwnPlaces s items) := by
  induction items generalizing s ds with
  | nil =>
    obtain rfl := some.inj hparse
    unfold ParseEnv.decls
    rw [append_nil]
    exact ⟨hsound, hkept, Iff.rfl⟩
  | cons item items ih =>
    unfold ParseState.parseItems at hparse
    cases hitem : s.parseItem item with
    | none =>
      rw [hitem] at hparse
      exact absurd hparse (some_ne_none _).symm
    | some t =>
      rw [hitem] at hparse
      obtain ⟨hfirst, hrest⟩ := Bool.and_eq_true_iff.mp hids
      have hids' : item.isMain = true → (s.reportid ≠ 0 → s.env.global.reportID ≠ 0) ∧
          (s.reportid = 0 → s.env.global.reportID ≠ 0 → ds = []) := by
        intro hmain
        rw [hmain, Bool.not_true, Bool.false_or] at hfirst
        refine ⟨fun hset => ?_, fun hzero hnew => ?_⟩
        · rw [if_neg hset] at hfirst
          exact of_decide_eq_true hfirst
        · rw [if_pos hzero, Bool.or_eq_true, decide_eq_true_iff] at hfirst
          rw [Bool.not_not] at hfirst
          exact isEmpty_iff.mp (hfirst.resolve_left hnew)
      have henv : ∃ env, s.env.parse item = some env := by
        unfold ParseState.parseItem at hitem
        split at hitem
        · exact ⟨_, ‹_›⟩
        · exact absurd hitem (some_ne_none _).symm
      obtain ⟨env, henv⟩ := henv
      have hdecls : s.env.decls (item :: items) = s.env.decl item ++ env.decls items := by
        conv_lhs => unfold ParseEnv.decls
        rw [henv]
      rw [hdecls, ← append_assoc] at hsmall ⊢
      have hstep := parseItem_spec hsound hkept hdelim hids'
        (fun id kind => by
          have hall := hsmall id kind
          rw [base_append] at hall
          omega) hitem
      obtain rfl : env = t.env := some.inj (henv.symm.trans hstep.env)
      rw [henv] at hrest
      have hlast : (!(ds ++ s.env.decl item).isEmpty) = (!ds.isEmpty || !(s.env.decl item).isEmpty) := by
        cases ds <;> rfl
      rw [← hstep.reportid, ← hlast] at hrest
      obtain ⟨hsound', hkept', hgood'⟩ := ih hstep.sound hstep.kept
        ((parse_delim (hdelims item mem_cons_self) henv).trans hdelim)
        (fun item' h => hdelims item' (mem_cons_of_mem _ h)) hsmall hrest hparse
      refine ⟨hsound', hkept', ?_⟩
      have hplaces : OwnPlaces s (item :: items) ↔ OwnPlace s item ∧ OwnPlaces t items := by
        conv_lhs => unfold OwnPlaces
        rw [hitem]
      rw [hgood', hstep.good, hplaces, and_assoc]

def NepHidReport.fields (r : NepHidReport) : List Field :=
  [Kind.input, .output, .feature].flatMap fun kind =>
    (r.itemMap kind).map fun x => ⟨r.reportID, kind, x.main, x.nhi.offset⟩

/-- Each report ID has its report, and the item maps hold each declared field once, in its own report
and at its own place, and nothing else. -/
def Placed (reports : List NepHidReport) (ds : List Decl) : Prop :=
  (reports.map (·.reportID)).Nodup ∧ (reports.flatMap (·.fields)).Perm (fieldsFrom [] ds)

instance (reports : List NepHidReport) (ds : List Decl) : Decidable (Placed reports ds) := by
  unfold Placed
  infer_instance

def NepHidReport.fieldOf (r : NepHidReport) (x : DeclaredItem) : Field :=
  ⟨r.reportID, x.kind, x.main, x.nhi.offset⟩

theorem fields_perm (r : NepHidReport) : r.fields.Perm (r.items.map r.fieldOf) := by
  unfold NepHidReport.fields NepHidReport.itemMap
  generalize r.items = xs
  induction xs with
  | nil => exact List.Perm.refl _
  | cons x xs ih =>
    simp only [flatMap_cons, flatMap_nil, append_nil, map_cons] at ih ⊢
    cases hkind : x.kind with
    | input =>
      have hhead : r.fieldOf x = ⟨r.reportID, .input, x.main, x.nhi.offset⟩ := by
        unfold NepHidReport.fieldOf
        rw [hkind]
      rw [hhead]
      simpa [filter_cons, hkind] using ih
    | output =>
      have hhead : r.fieldOf x = ⟨r.reportID, .output, x.main, x.nhi.offset⟩ := by
        unfold NepHidReport.fieldOf
        rw [hkind]
      rw [hhead]
      simp only [filter_cons, hkind, reduceCtorEq, decide_false, decide_true, if_true,
        Bool.false_eq_true, if_false, map_cons, cons_append]
      exact perm_middle.trans (ih.cons _)
    | feature =>
      have hhead : r.fieldOf x = ⟨r.reportID, .feature, x.main, x.nhi.offset⟩ := by
        unfold NepHidReport.fieldOf
        rw [hkind]
      rw [hhead]
      simp only [filter_cons, hkind, reduceCtorEq, decide_false, decide_true, if_true,
        Bool.false_eq_true, if_false, map_cons]
      rw [← append_assoc] at ih ⊢
      exact perm_middle.trans (ih.cons _)

theorem flatMap_fields_perm (reports : List NepHidReport) :
    (reports.flatMap (·.fields)).Perm (reports.flatMap fun r => r.items.map r.fieldOf) := by
  induction reports with
  | nil => exact List.Perm.refl _
  | cons r reports ih => exact (fields_perm r).append ih

theorem length_flatMap_fields (reports : List NepHidReport) :
    (reports.flatMap (·.fields)).length = (reports.flatMap (·.items)).length := by
  rw [(flatMap_fields_perm reports).length_eq, length_flatMap, length_flatMap]
  simp only [length_map]

theorem placed_iff (hsound : Sound s.reports s.nhr s.reportid ds) (hkept : Kept s ds)
    (hmains : (ds.map (·.main)).Nodup) :
    Placed s.reports ds ↔ Intact s ds ∧ s.nhc.flatMap (·.items) = [] := by
  have hle := hkept.length_le
  have hlen : s.located.length = (s.reports.flatMap (·.items)).length + (s.nhc.flatMap (·.items)).length :=
    length_append
  constructor
  · rintro ⟨-, hperm⟩
    have hwhole := hperm.length_eq
    rw [length_flatMap_fields] at hwhole
    refine ⟨⟨by omega, fun r hr x hx => ?_⟩, length_eq_zero_iff.mp (by omega)⟩
    -- the main item of the field tells the ID
    have hmine : r.fieldOf x ∈ fieldsFrom [] ds := by
      apply hperm.subset
      apply (flatMap_fields_perm s.reports).symm.subset
      exact mem_flatMap.mpr ⟨r, hr, List.mem_map_of_mem hx⟩
    have htrue : x.field ∈ fieldsFrom [] ds := by
      apply List.Subperm.subset hkept
      apply List.mem_map_of_mem
      exact mem_append_left _ (mem_flatMap.mpr ⟨r, hr, hx⟩)
    obtain ⟨d, hd, hid, hmain⟩ := mem_fieldsFrom hmine
    obtain ⟨d', hd', hid', hmain'⟩ := mem_fieldsFrom htrue
    obtain rfl : d = d' := inj_on_of_nodup_map hmains hd hd' (hmain.symm.trans hmain')
    exact hid'.trans hid.symm
  · rintro ⟨⟨hwhole, htagged⟩, hopen⟩
    refine ⟨hsound.ids, (flatMap_fields_perm s.reports).trans ?_⟩
    have hown : s.reports.flatMap (fun r => r.items.map r.fieldOf) = s.located.map DeclaredItem.field := by
      unfold ParseState.located
      rw [hopen, append_nil, map_flatMap]
      apply flatMap_congr
      intro r hr
      apply map_congr_left
      intro x hx
      unfold NepHidReport.fieldOf DeclaredItem.field
      rw [htagged r hr x hx]
    rw [hown]
    apply List.Subperm.perm_of_length_le hkept
    rw [length_map]
    exact hwhole

theorem decls_mains (env : ParseEnv) (items : List ShortItem) :
    ((env.decls items).map (·.main)).Sublist (items.map (·.pos)) := by
  induction items generalizing env with
  | nil => exact List.Sublist.refl _
  | cons item items ih =>
    unfold ParseEnv.decls
    have htail : ((match env.parse item with
        | some env => env.decls items
        | none => []).map Decl.main).Sublist (items.map ShortItem.pos) := by
      split
      · exact ih _
      · exact nil_sublist _
    unfold ParseEnv.decl
    split
    · exact htail.cons_cons _
    · exact htail.cons _

theorem readItems_pos (mem : ℕ → UInt8) (rptrend n rptr : ℕ) :
    (∀ item ∈ readItems mem rptrend n rptr, rptr ≤ item.pos) ∧
      ((readItems mem rptrend n rptr).map (·.pos)).Nodup := by
  induction n generalizing rptr with
  | zero => exact ⟨fun item hin => absurd hin not_mem_nil, nodup_nil⟩
  | succ n ih =>
    unfold readItems
    split
    · have hpos : (readItem mem rptr).pos = rptr := by
        unfold readItem
        split <;> rfl
      obtain ⟨hge, hnodup⟩ := ih (rptr + 1 + (readItem mem rptr).len)
      refine ⟨fun item hin => ?_, nodup_cons.mpr ⟨fun hin => ?_, hnodup⟩⟩
      · rcases mem_cons.mp hin with rfl | hin
        · rw [hpos]
        · have := hge item hin
          omega
      · obtain ⟨item, hitem, heq⟩ := mem_map.mp hin
        have hlate := hge item hitem
        have heq' : item.pos = rptr := heq.trans hpos
        omega
    · exact ⟨fun item hin => absurd hin not_mem_nil, nodup_nil⟩

theorem base_le (ds : List Decl) (id : ULONG) (kind : Kind) :
    base ds id kind ≤ (ds.map fun d => d.size * d.count).sum := by
  induction ds with
  | nil => exact le_rfl
  | cons d ds ih =>
    rw [← singleton_append, base_append, base_singleton, map_append, sum_append,
      map_singleton, sum_singleton]
    split <;> omega

def memory (bytes : List UInt8) (i : ℕ) : UInt8 := bytes.getD i 0

def wheelBehind : List UInt8 :=
  [0x05, 0x01, 0x09, 0x02, 0xa1, 0x01, 0x85, 0x01, 0x15, 0x00, 0x25, 0x7f, 0x75, 0x08, 0x95, 0x02,
    0x09, 0x30, 0x09, 0x31, 0x81, 0x02, 0xc0,
    0x09, 0x38, 0xa1, 0x00, 0x85, 0x02, 0x95, 0x01, 0x09, 0x38, 0x81, 0x02, 0xc0]

def wheelInside : List UInt8 :=
  [0x05, 0x01, 0x09, 0x02, 0xa1, 0x01, 0x85, 0x01, 0x15, 0x00, 0x25, 0x7f, 0x75, 0x08, 0x95, 0x02,
    0x09, 0x30, 0x09, 0x31, 0x81, 0x02,
    0x09, 0x38, 0xa1, 0x00, 0x85, 0x02, 0x95, 0x01, 0x09, 0x38, 0x81, 0x02, 0xc0, 0xc0]

def itemsOf (bytes : List UInt8) : List ShortItem :=
  readItems (memory bytes) bytes.length bytes.length 0

def reportsOf (bytes : List UInt8) : List NepHidReport :=
  (nParseReport (memory bytes) bytes.length).getD []

end Hid

end Neptune
