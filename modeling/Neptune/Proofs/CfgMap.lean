import Neptune.Spec.CfgStore
import Neptune.Proofs.CfgRoundTrip

/-! The settings store as a map from keys. A setting that has been set is what its getter finds, and
what the other getters find stays, but where the first form of a class has no data form. -/

namespace Neptune

open PsdIFFContext List Option

namespace CfgChunks

open List Option

theorem find_rem_ne (chunks : CfgChunks) {id id' : UInt32} (h : id ≠ id') :
    (chunks.rem id').find id = chunks.find id := by
  obtain ⟨list, nodup⟩ := chunks
  simp only [find, rem]
  induction list with
  | nil => rfl
  | cons chunk list ih =>
    rw [map_cons, nodup_cons] at nodup
    by_cases hc : chunk.id = id'
    · rw [eraseP_cons_of_pos (by simpa using hc)]
      rw [find?_cons_of_neg (by simpa [hc] using Ne.symm h)]
    · rw [eraseP_cons_of_neg (by simpa using hc), find?_cons, find?_cons,
        ih nodup.2]

theorem find_rem_self (chunks : CfgChunks) (id : UInt32) : (chunks.rem id).find id = none := by
  rw [find, find?_eq_none]
  intro chunk hm hc
  exact chunks.not_mem_rem id (mem_map.mpr ⟨chunk, hm, by simpa using hc⟩)

theorem find_put_self (chunks : CfgChunks) (chunk : CfgChunk) :
    (chunks.put chunk).find chunk.id = some chunk := by
  have h := chunks.find_rem_self chunk.id
  rw [find] at h ⊢
  simp only [put, find?_append, h]
  simp

theorem find_put_ne (chunks : CfgChunks) (chunk : CfgChunk) {id : UInt32} (h : id ≠ chunk.id) :
    (chunks.put chunk).find id = chunks.find id := by
  have hr := chunks.find_rem_ne h
  rw [find] at hr ⊢
  simp only [put, find?_append, hr]
  simp [Ne.symm h]

end CfgChunks

theorem matchString_iff (data : List UInt8) (str : CString) :
    matchString data str.chars = true ↔ data.takeWhile (· ≠ 0) = str.chars := by
  obtain ⟨chars, no_nul⟩ := str
  induction data generalizing chars with
  | nil => simp [matchString, eq_comm]
  | cons c data ih =>
    unfold matchString
    by_cases hc : c = 0
    · simp [hc, eq_comm]
    · rw [if_neg hc, takeWhile_cons_of_pos (by simpa using hc)]
      cases chars with
      | nil => simp
      | cons d chars =>
        have := ih chars fun h => no_nul (mem_cons_of_mem _ h)
        simp only [Bool.and_eq_true, decide_eq_true_eq, this, cons.injEq]
        exact and_congr_left fun _ => eq_comm

theorem pMatchStringChunk_inj {pic : PsdIFFContext} {chunkid : ChunkId} {str str' : CString}
    (h : pMatchStringChunk pic chunkid str = true) (h' : pMatchStringChunk pic chunkid str' = true) :
    str = str' := by
  unfold pMatchStringChunk at h h'
  cases hf : pic.pFindCfgChunk chunkid with
  | none =>
    rw [hf] at h
    cases h
  | some chunk =>
    rw [hf] at h h'
    have := ((matchString_iff _ _).mp h).symm.trans ((matchString_iff _ _).mp h')
    cases str
    cases str'
    congr

theorem stringChunk_data (chunkid : ChunkId) (str : CString) :
    (stringChunk chunkid str).data.takeWhile (· ≠ 0) = str.chars := by
  have hall : ∀ c ∈ str.chars, decide (c ≠ 0) = true := fun c hc => by
    simpa using fun h : c = 0 => str.no_nul (h ▸ hc)
  simp only [stringChunk]
  rw [takeWhile_append_of_pos hall]
  simp

section walk

variable {α : Type} {p : PsdIFFContext → Bool}
  {f : List Bool → PsdIFFContext → Option (PsdIFFContext × Option α × List Bool)}
  {mem mem' : List Bool} {pics pre post : List PsdIFFContext} {pic pic' : PsdIFFContext} {a : α}

theorem walk_miss (h : ∀ x ∈ pics, p x = false) : walk p f mem pics = some (pics, none, mem) := by
  induction pics with
  | nil => rfl
  | cons x pics ih =>
    rw [walk, h x (by simp), ih fun y hy => h y (by simp [hy])]
    rfl

theorem walk_hit (hpre : ∀ x ∈ pre, p x = false) (hp : p pic = true)
    (hf : f mem pic = some (pic', some a, mem')) :
    walk p f mem (pre ++ pic :: post) = some (pre ++ pic' :: post, some a, mem') := by
  induction pre with
  | nil =>
    rw [nil_append, walk, hp, hf]
    rfl
  | cons x pre ih =>
    rw [cons_append, walk, hpre x (by simp), ih fun y hy => hpre y (by simp [hy])]
    rfl

theorem first_cases (p : PsdIFFContext → Bool) (pics : List PsdIFFContext) :
    (∀ x ∈ pics, p x = false) ∨
      ∃ pre pic post, pics = pre ++ pic :: post ∧ (∀ x ∈ pre, p x = false) ∧ p pic = true := by
  cases h : pics.find? p with
  | none =>
    rw [find?_eq_none] at h
    exact Or.inl fun x hx => by simpa using h x hx
  | some pic =>
    obtain ⟨hp, pre, post, he, hpre⟩ := find?_eq_some_iff_append.mp h
    exact Or.inr ⟨pre, pic, post, he, fun x hx => by simpa using hpre x hx, hp⟩

end walk

section lists

variable {β : Type} {q : PsdIFFContext → Bool} {g : PsdIFFContext → Option β}
  {pics pre post : List PsdIFFContext} {pic pic' : PsdIFFContext}

theorem find_self (hpre : ∀ x ∈ pre, q x = false) (hq : q pic = true) :
    (pre ++ pic :: post).find? q = some pic := by
  have hnone : pre.find? q = none := find?_eq_none.mpr fun x hx => by simp [hpre x hx]
  rw [find?_append, hnone, find?_cons_of_pos hq]
  rfl

theorem find_bind_replace (hq : q pic' = q pic) (hg : q pic = true → g pic' = g pic) :
    ((pre ++ pic' :: post).find? q).bind g = ((pre ++ pic :: post).find? q).bind g := by
  rw [find?_append, find?_append]
  cases pre.find? q with
  | some x => rfl
  | none =>
    rw [none_or, none_or, find?_cons, find?_cons, hq]
    cases h : q pic with
    | false => rfl
    | true => exact hg h

theorem find_bind_append (h : q pic = true → g pic = none) :
    ((pics ++ [pic]).find? q).bind g = (pics.find? q).bind g := by
  rw [find?_append]
  cases pics.find? q with
  | some x => rfl
  | none =>
    rw [none_or, find?_singleton]
    split
    · rename_i hq
      exact h hq
    · rfl

theorem findSome_replace (hg : g pic' = g pic) :
    (pre ++ pic' :: post).findSome? g = (pre ++ pic :: post).findSome? g := by
  rw [findSome?_append, findSome?_append, findSome?_cons, findSome?_cons, hg]

theorem findSome_append (h : g pic = none) : (pics ++ [pic]).findSome? g = pics.findSome? g := by
  rw [findSome?_append, findSome?_singleton, h, or_none]

end lists

variable {fuel : ℕ} {mem : List Bool} {pic cpic root : PsdIFFContext}
  {form : Option (List UInt8)} {id : UInt32}

theorem allocVec_ample (h : Ample mem) : ∃ mem', Ample mem' ∧ psdAllocVec mem = (true, mem') := by
  obtain ⟨h1, h2⟩ := psdAllocVec_ample h
  exact ⟨_, h2, Prod.ext h1 rfl⟩

theorem addStringChunk_ample (h : Ample mem) (pic : PsdIFFContext) (chunkid : ChunkId)
    (str : CString) :
    ∃ mem', Ample mem' ∧ pAddStringChunk mem pic chunkid str =
      ({ pic with chunks := pic.chunks.put (stringChunk chunkid str) }, true, mem') := by
  obtain ⟨mem₁, h₁, he₁⟩ := allocVec_ample h
  obtain ⟨mem₂, h₂, he₂⟩ := allocVec_ample h₁
  refine ⟨mem₂, h₂, ?_⟩
  simp only [pAddStringChunk, he₁, if_true, putChunk, he₂]

def Content (fuel : ℕ) (form : Option (List UInt8)) (pic : PsdIFFContext) : Prop :=
  match form with
  | none => pic = alloc pic.formId
  | some form => ∀ mem, Ample mem → ∃ mem', Ample mem' ∧
      psdReadCfg (fuel + 1) mem (alloc pic.formId) form = some (pic, true, mem')

theorem psdReadCfg_true {form : List UInt8} {mem' : List Bool}
    (h : psdReadCfg fuel mem pic form = some (cpic, true, mem')) :
    ∃ length, getLong form = some ID_FORM ∧ getLong (form.drop 8) = some pic.formId ∧
      getLong (form.drop 4) = some length ∧
      addChunks fuel mem (alloc pic.formId) (form.drop 12) (evenDown (ulongSub length.toNat 3)) =
        some (cpic, 0, mem') := by
  unfold psdReadCfg at h
  simp only [bind_eq_bind, bind_eq_some_iff] at h
  obtain ⟨id, h1, formId, h2, h⟩ := h
  by_cases hid : id ≠ ID_FORM ∨ formId ≠ pic.formId
  · rw [if_pos hid] at h
    cases h
  · rw [if_neg hid] at h
    obtain ⟨rfl, rfl⟩ := not_or.mp hid |>.imp not_not.mp not_not.mp
    simp only [bind_eq_some_iff] at h
    obtain ⟨length, h3, ⟨pic', len, mem₁⟩, h4, h5⟩ := h
    simp only [Option.pure_def, some.injEq, Prod.mk.injEq, decide_eq_true_eq] at h5
    obtain ⟨rfl, rfl, rfl⟩ := h5
    exact ⟨length, h1, h2, h3, h4⟩

theorem store_content (hc : Content fuel form cpic) (hid : pic.formId = cpic.formId)
    (h : Ample mem) : ∃ mem', Ample mem' ∧ store fuel mem pic form = some (cpic, true, mem') := by
  cases form with
  | none =>
    refine ⟨mem, h, ?_⟩
    rw [store, hid, ← hc]
  | some form =>
    obtain ⟨mem', h', hr⟩ := hc mem h
    obtain ⟨length, h1, h2, h3, h4⟩ := psdReadCfg_true hr
    refine ⟨mem', h', ?_⟩
    have h2 : getLong (form.drop 8) = some cpic.formId := h2
    have h4 : addChunks (fuel + 1) mem (alloc cpic.formId) (form.drop 12)
      (evenDown (ulongSub length.toNat 3)) = some (cpic, 0, mem') := h4
    simp only [store, psdReadCfg, h1, h2, h3, hid, bind_eq_bind, bind_some, h4]
    simp

theorem addCfgChunk_content (hc : Content fuel form cpic) (hid : cpic.formId = IFFFORM_CLASSDATA)
    (h : Ample mem) : ∃ mem', Ample mem' ∧ pAddCfgChunk (fuel + 2) mem pic
      (form.getD emptyClassData) = some (pic.addSubForm cpic, true, mem') := by
  obtain ⟨mem₁, h₁, he⟩ := allocVec_ample h
  cases form with
  | none =>
    refine ⟨mem₁, h₁, ?_⟩
    have h1 : getLong emptyClassData = some ID_FORM := getLong_putLong _ _
    have h2 : getLong (emptyClassData.drop 4) = some 4 := getLong_putLong 4 _
    have h3 : getLong (emptyClassData.drop 8) = some IFFFORM_CLASSDATA := getLong_putLong _ []
    have h4 : evenDown (ulongSub (4 : UInt32).toNat 3) = 0 := by decide
    have h5 : addChunks (fuel + 1) mem₁ (alloc IFFFORM_CLASSDATA) (emptyClassData.drop 12) 0 =
        some (alloc IFFFORM_CLASSDATA, 0, mem₁) := rfl
    rw [pAddCfgChunk]
    simp only [getD_none, h1, h2, h3, h4, he, bind_eq_bind, bind_some,
      dif_pos, if_true, h5]
    rw [hc, hid]
    rfl
  | some form =>
    obtain ⟨mem₂, h₂, hr⟩ := hc mem₁ h₁
    obtain ⟨length, h1, h2, h3, h4⟩ := psdReadCfg_true hr
    refine ⟨mem₂, h₂, ?_⟩
    rw [pAddCfgChunk]
    simp only [getD_some, h1, h2, h3, he, bind_eq_bind, bind_some, dif_pos,
      if_true, h4]
    rfl

inductive CfgKey
  | cls (owner : CString)
  | dev (owner devid : CString) (ifid : Option CString)
  | forced (devid : CString) (ifid : Option CString)
  deriving DecidableEq

inductive CfgValue
  | form (pic : Option PsdIFFContext)
  | owner (chars : Option (List UInt8))

def getCfg (root : PsdIFFContext) : CfgKey → CfgValue
  | .cls owner => .form (psdGetClsCfg root owner)
  | .dev owner devid ifid => .form (psdGetUsbDevCfg root owner devid ifid)
  | .forced devid ifid => .owner (psdGetForcedBinding root devid ifid)

def getRootCfg (root : Option PsdIFFContext) (key : CfgKey) : CfgValue :=
  match root with
  | some root => getCfg root key
  | none =>
    match key with
    | .cls _ => .form none
    | .dev .. => .form none
    | .forced .. => .owner none

def Others (root root' : PsdIFFContext) (key : CfgKey) : Prop :=
  ∀ k, k ≠ key → getCfg root' k = getCfg root k

variable {pics pre post : List PsdIFFContext} {pic' : PsdIFFContext} {rid : UInt32}
  {chunks : CfgChunks} {owner devid : CString} {ifid : Option CString}

theorem matches_stringChunk {pic : PsdIFFContext} {chunkid : ChunkId} {str str' : CString}
    (h : pic.pFindCfgChunk chunkid = some (stringChunk chunkid str)) :
    pMatchStringChunk pic chunkid str' = true ↔ str = str' := by
  unfold pMatchStringChunk
  rw [h]
  simp only [matchString_iff, stringChunk_data]
  refine ⟨fun he => ?_, fun he => he ▸ rfl⟩
  cases str
  cases str'
  congr

theorem find_put_string (pic : PsdIFFContext) (chunkid : ChunkId) (str : CString) :
    ({ pic with chunks := pic.chunks.put (stringChunk chunkid str) } :
      PsdIFFContext).pFindCfgChunk chunkid = some (stringChunk chunkid str) :=
  CfgChunks.find_put_self pic.chunks (stringChunk chunkid str)

theorem find_put_string_ne (pic : PsdIFFContext) {chunkid chunkid' : ChunkId} (str : CString)
    (h : chunkid.1 ≠ chunkid'.1) :
    ({ pic with chunks := pic.chunks.put (stringChunk chunkid' str) } :
      PsdIFFContext).pFindCfgChunk chunkid = pic.pFindCfgChunk chunkid :=
  CfgChunks.find_put_ne pic.chunks (stringChunk chunkid' str) h

theorem isDeviceCfg_classCfg (h : pic.formId = IFFFORM_CLASSCFG) : isDeviceCfg devid pic = false := by
  rw [isDeviceCfg, h]
  rfl

theorem isClassCfg_deviceCfg (h : pic.formId = IFFFORM_DEVICECFG) : isClassCfg owner pic = false := by
  rw [isClassCfg, h]
  rfl

theorem others_class_replace (hp : isClassCfg owner pic = true) (subForms : List PsdIFFContext) :
    Others ⟨rid, chunks, pre ++ pic :: post⟩
      ⟨rid, chunks, pre ++ { pic with subForms := subForms } :: post⟩ (.cls owner) := by
  have hid : pic.formId = IFFFORM_CLASSCFG := by
    simpa using (Bool.and_eq_true_iff.mp hp).1
  intro k hk
  cases k with
  | cls owner' =>
    refine congrArg CfgValue.form (find_bind_replace rfl fun hq => ?_)
    have := pMatchStringChunk_inj (Bool.and_eq_true_iff.mp hp).2 (Bool.and_eq_true_iff.mp hq).2
    exact absurd (congrArg CfgKey.cls this.symm) hk
  | dev owner' devid ifid =>
    refine congrArg CfgValue.form (find_bind_replace rfl fun hq => ?_)
    rw [isDeviceCfg_classCfg hid] at hq
    cases hq
  | forced devid ifid =>
    refine congrArg CfgValue.owner (find_bind_replace rfl fun hq => ?_)
    rw [isDeviceCfg_classCfg hid] at hq
    cases hq

theorem others_class_append (hid : pic.formId = IFFFORM_CLASSCFG)
    (hf : pic.pFindCfgChunk IFFCHNK_OWNER = some (stringChunk IFFCHNK_OWNER owner)) :
    Others root (root.addSubForm pic) (.cls owner) := by
  intro k hk
  cases k with
  | cls owner' =>
    refine congrArg CfgValue.form (find_bind_append fun hq => ?_)
    have := (matches_stringChunk hf).mp (Bool.and_eq_true_iff.mp hq).2
    exact absurd (congrArg CfgKey.cls this.symm) hk
  | dev owner' devid ifid =>
    refine congrArg CfgValue.form (find_bind_append fun hq => ?_)
    rw [isDeviceCfg_classCfg hid] at hq
    cases hq
  | forced devid ifid =>
    refine congrArg CfgValue.owner (find_bind_append fun hq => ?_)
    rw [isDeviceCfg_classCfg hid] at hq
    cases hq

def ClassHasData (root : PsdIFFContext) (owner : CString) : Prop :=
  ∀ pic ∈ root.subForms.find? (isClassCfg owner), (psdFindCfgForm pic IFFFORM_CLASSDATA).isSome

def newClassCfg (owner : CString) (cpic : PsdIFFContext) : PsdIFFContext :=
  ⟨IFFFORM_CLASSCFG, CfgChunks.empty.put (stringChunk IFFCHNK_OWNER owner), [cpic]⟩

theorem find_newClassCfg (owner : CString) (cpic : PsdIFFContext) :
    (newClassCfg owner cpic).pFindCfgChunk IFFCHNK_OWNER =
      some (stringChunk IFFCHNK_OWNER owner) :=
  find_put_string (alloc IFFFORM_CLASSCFG) IFFCHNK_OWNER owner

theorem isClassCfg_new (owner : CString) (cpic : PsdIFFContext) :
    isClassCfg owner (newClassCfg owner cpic) = true := by
  have := (matches_stringChunk (find_newClassCfg owner cpic)).mpr rfl
  rw [isClassCfg, this]
  rfl

theorem setData_content (hc : Content fuel form cpic) (hid : pic.formId = cpic.formId)
    (h : Ample mem) :
    ∃ mem', Ample mem' ∧ setData fuel form mem pic = some (cpic, some true, mem') := by
  obtain ⟨mem', h', he⟩ := store_content hc hid h
  refine ⟨mem', h', ?_⟩
  rw [setData, he]
  rfl

theorem find_none {q : PsdIFFContext → Bool} (h : ∀ x ∈ pics, q x = false) :
    pics.find? q = none :=
  find?_eq_none.mpr fun x hx => by simp [h x hx]

theorem psdSetClsCfg_append {result : Option Bool} (hc : Content fuel form cpic)
    (hid : cpic.formId = IFFFORM_CLASSDATA) (h : Ample mem)
    (hwalk : walk (isClassCfg owner) (setClassData fuel form) mem pics = some (pics, result, mem))
    (hres : result.getD false = false) :
    ∃ mem', psdSetClsCfg fuel mem ⟨rid, chunks, pics⟩ owner form =
      some (⟨rid, chunks, pics ++ [newClassCfg owner cpic]⟩, true, mem') := by
  obtain ⟨mem₁, h₁, he₁⟩ := allocVec_ample h
  obtain ⟨mem₂, h₂, he₂⟩ := addStringChunk_ample h₁ (alloc IFFFORM_CLASSCFG) IFFCHNK_OWNER owner
  have hadd (pic : PsdIFFContext) := @addCfgChunk_content fuel mem₂ pic cpic form hc hid h₂
  obtain ⟨mem₃, -, he₃⟩ := hadd ⟨IFFFORM_CLASSCFG,
    CfgChunks.empty.put (stringChunk IFFCHNK_OWNER owner), []⟩
  refine ⟨mem₃, ?_⟩
  rw [psdSetClsCfg, hwalk]
  simp only [bind_eq_bind, bind_some, hres, Bool.false_eq_true, if_false, he₁,
    Bool.not_true, he₂]
  change bind (pAddCfgChunk (fuel + 2) mem₂ ⟨IFFFORM_CLASSCFG,
    CfgChunks.empty.put (stringChunk IFFCHNK_OWNER owner), []⟩ (form.getD emptyClassData)) _ = _
  rw [he₃]
  rfl

theorem psdSetClsCfg_ample (hc : Content fuel form cpic) (hid : cpic.formId = IFFFORM_CLASSDATA)
    (h : Ample mem) (root : PsdIFFContext) (owner : CString) :
    ∃ root' mem', psdSetClsCfg fuel mem root owner form = some (root', true, mem') ∧
      Others root root' (.cls owner) ∧
      (psdGetClsCfg root' owner = some cpic ↔ ClassHasData root owner) := by
  obtain ⟨rid, chunks, pics⟩ := root
  have happ : Others ⟨rid, chunks, pics⟩ ⟨rid, chunks, pics ++ [newClassCfg owner cpic]⟩
      (.cls owner) := others_class_append rfl (find_newClassCfg owner cpic)
  rcases first_cases (isClassCfg owner) pics with hmiss | ⟨pre, pic, post, rfl, hpre, hp⟩
  · -- a new owner
    obtain ⟨mem', he⟩ := psdSetClsCfg_append hc hid h (walk_miss hmiss) rfl
    refine ⟨_, mem', he, happ, iff_of_true ?_ fun pic hpic => ?_⟩
    · rw [psdGetClsCfg, find_self hmiss (isClassCfg_new owner cpic)]
      simp [psdFindCfgForm, newClassCfg, hid]
    · rw [find_none hmiss] at hpic
      cases hpic
  · rcases first_cases (fun pic => pic.formId = IFFFORM_CLASSDATA) pic.subForms with
      hnone | ⟨pre', dpic, post', hsub, hpre', hd⟩
    · -- its form has no data, and comes before the one that is appended
      have hfind : psdFindCfgForm pic IFFFORM_CLASSDATA = none := find_none hnone
      have hset : setClassData fuel form mem pic = some (pic, some false, mem) := by
        rw [setClassData, walk_miss hnone]
        obtain ⟨_, _, _⟩ := pic
        rfl
      obtain ⟨mem', he⟩ := psdSetClsCfg_append hc hid h (walk_hit hpre hp hset) rfl
      refine ⟨_, mem', he, happ, iff_of_false ?_ fun hdata => ?_⟩
      · rw [psdGetClsCfg]
        simp only [append_assoc, cons_append]
        rw [find_self hpre hp, bind_some, hfind]
        exact nofun
      · have := hdata pic (find_self hpre hp)
        rw [hfind] at this
        cases this
    · -- the data of its form is set
      have hdid : dpic.formId = cpic.formId := by
        rw [hid]
        simpa using hd
      obtain ⟨mem', -, hstore⟩ := setData_content hc hdid h
      have hset : setClassData fuel form mem pic =
          some ({ pic with subForms := pre' ++ cpic :: post' }, some true, mem') := by
        rw [setClassData, hsub, walk_hit hpre' hd hstore]
        rfl
      refine ⟨⟨rid, chunks, pre ++ { pic with subForms := pre' ++ cpic :: post' } :: post⟩, mem', ?_,
        others_class_replace hp _, iff_of_true ?_ fun pic' hpic' => ?_⟩
      · rw [psdSetClsCfg, walk_hit hpre hp hset]
        rfl
      · change ((pre ++ _ :: post).find? _).bind _ = _
        rw [find_self hpre (by exact hp), bind_some]
        exact find_self hpre' (by simp [hid])
      · rw [find_self hpre hp] at hpic'
        obtain rfl := some.inj hpic'
        rw [psdFindCfgForm, hsub, find_self hpre' hd]
        rfl

end Neptune
