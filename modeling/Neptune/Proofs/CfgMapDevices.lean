import Neptune.Proofs.CfgMap

/-! The settings of devices and interfaces and the forced bindings. They are found and set in the
first form of the device, so a setting that has been set is what its getter finds. -/

namespace Neptune

open PsdIFFContext Option

variable {fuel : ℕ} {mem : List Bool} {pic pic' mpic cpic root : PsdIFFContext}
  {form : Option (List UInt8)} {pics pre post : List PsdIFFContext} {rid : UInt32}
  {chunks : CfgChunks} {owner owner' devid : CString} {ifid ifid' : Option CString} {key : CfgKey}

def devData (pic : PsdIFFContext) (owner : CString) (ifid : Option CString) :
    Option PsdIFFContext :=
  (pic.subForms.find? (isCfgData owner ifid)).bind fun mpic => psdFindCfgForm mpic (clsDataId ifid)

def ifBind (pics : List PsdIFFContext) (ifid : CString) : Option (List UInt8) :=
  pics.findSome? fun mpic => if isIfCfg ifid mpic then boundOwner mpic else none

def devBind (pic : PsdIFFContext) : Option CString → Option (List UInt8)
  | none => boundOwner pic
  | some ifid => ifBind pic.subForms ifid

theorem psdGetUsbDevCfg_eq (root : PsdIFFContext) (owner devid : CString) (ifid : Option CString) :
    psdGetUsbDevCfg root owner devid ifid =
      (root.subForms.find? (isDeviceCfg devid)).bind fun pic => devData pic owner ifid := rfl

theorem psdGetForcedBinding_eq (root : PsdIFFContext) (devid : CString) (ifid : Option CString) :
    psdGetForcedBinding root devid ifid =
      (root.subForms.find? (isDeviceCfg devid)).bind fun pic => devBind pic ifid := by
  cases ifid <;> rfl

/-- The getters of all keys of the device but one find in `pic'` what they find in `pic`. -/
structure DevOthers (devid : CString) (key : CfgKey) (pic pic' : PsdIFFContext) : Prop where
  dev : ∀ owner ifid, .dev owner devid ifid ≠ key → devData pic' owner ifid = devData pic owner ifid
  forced : ∀ ifid, .forced devid ifid ≠ key → devBind pic' ifid = devBind pic ifid

theorem isDeviceCfg_inj {devid' : CString} (h : isDeviceCfg devid pic = true)
    (h' : isDeviceCfg devid' pic = true) : devid = devid' :=
  pMatchStringChunk_inj (Bool.and_eq_true_iff.mp h).2 (Bool.and_eq_true_iff.mp h').2

theorem deviceCfg_formId (h : isDeviceCfg devid pic = true) : pic.formId = IFFFORM_DEVICECFG := by
  simpa using (Bool.and_eq_true_iff.mp h).1

theorem others_device_replace (hp : isDeviceCfg devid pic = true) (hid : pic'.formId = pic.formId)
    (hf : pic'.pFindCfgChunk IFFCHNK_DEVID = pic.pFindCfgChunk IFFCHNK_DEVID)
    (h : DevOthers devid key pic pic') :
    Others ⟨rid, chunks, pre ++ pic :: post⟩ ⟨rid, chunks, pre ++ pic' :: post⟩ key := by
  have hsame (d : CString) : isDeviceCfg d pic' = isDeviceCfg d pic := by
    rw [isDeviceCfg, isDeviceCfg, hid, pMatchStringChunk, pMatchStringChunk, hf]
  have hcls := deviceCfg_formId hp
  intro k hk
  cases k with
  | cls owner =>
    refine congrArg CfgValue.form (find_bind_replace ?_ fun hq => ?_)
    · rw [isClassCfg_deviceCfg hcls, isClassCfg_deviceCfg (hid.trans hcls)]
    · rw [isClassCfg_deviceCfg hcls] at hq
      cases hq
  | dev owner devid' ifid =>
    refine congrArg CfgValue.form ?_
    rw [psdGetUsbDevCfg_eq, psdGetUsbDevCfg_eq]
    refine find_bind_replace (hsame devid') fun hq => ?_
    obtain rfl := isDeviceCfg_inj hp hq
    exact h.dev owner ifid hk
  | forced devid' ifid =>
    refine congrArg CfgValue.owner ?_
    rw [psdGetForcedBinding_eq, psdGetForcedBinding_eq]
    refine find_bind_replace (hsame devid') fun hq => ?_
    obtain rfl := isDeviceCfg_inj hp hq
    exact h.forced ifid hk

theorem others_device_append (hid : pic.formId = IFFFORM_DEVICECFG)
    (hf : pic.pFindCfgChunk IFFCHNK_DEVID = some (stringChunk IFFCHNK_DEVID devid))
    (h : DevOthers devid key (alloc IFFFORM_DEVICECFG) pic) :
    Others ⟨rid, chunks, pics⟩ ⟨rid, chunks, pics ++ [pic]⟩ key := by
  intro k hk
  cases k with
  | cls owner =>
    refine congrArg CfgValue.form (find_bind_append fun hq => ?_)
    rw [isClassCfg_deviceCfg hid] at hq
    cases hq
  | dev owner devid' ifid =>
    refine congrArg CfgValue.form ?_
    rw [psdGetUsbDevCfg_eq, psdGetUsbDevCfg_eq]
    refine find_bind_append fun hq => ?_
    obtain rfl := (matches_stringChunk hf).mp (Bool.and_eq_true_iff.mp hq).2
    exact h.dev owner ifid hk
  | forced devid' ifid =>
    refine congrArg CfgValue.owner ?_
    rw [psdGetForcedBinding_eq, psdGetForcedBinding_eq]
    refine find_bind_append fun hq => ?_
    obtain rfl := (matches_stringChunk hf).mp (Bool.and_eq_true_iff.mp hq).2
    rw [h.forced ifid hk]
    cases ifid <;> rfl

theorem cfgDataId_inj (h : cfgDataId ifid = cfgDataId ifid') : ifid.isSome = ifid'.isSome := by
  have hne : IFFFORM_IFCFGDATA ≠ IFFFORM_DEVCFGDATA := by decide
  cases ifid <;> cases ifid' <;> first | rfl | exact absurd h hne | exact absurd h hne.symm

theorem isCfgData_inj (h : isCfgData owner ifid mpic = true)
    (h' : isCfgData owner' ifid' mpic = true) : owner = owner' ∧ ifid = ifid' := by
  simp only [isCfgData, Bool.and_eq_true, decide_eq_true_eq] at h h'
  refine ⟨pMatchStringChunk_inj h.2 h'.2, ?_⟩
  have hs := cfgDataId_inj (h.1.1.symm.trans h'.1.1)
  cases ifid with
  | none =>
    cases ifid' with
    | none => rfl
    | some ifid' => cases hs
  | some ifid =>
    cases ifid' with
    | none => cases hs
    | some ifid' => rw [pMatchStringChunk_inj h.1.2 h'.1.2]

def ownerChunks (owner : CString) (ifid : Option CString) : CfgChunks :=
  let chunks := CfgChunks.empty.put (stringChunk IFFCHNK_OWNER owner)
  match ifid with
  | some ifid => chunks.put (stringChunk IFFCHNK_IFID ifid)
  | none => chunks

theorem ownerChunks_find (owner : CString) (ifid : Option CString) :
    (ownerChunks owner ifid).find IFFCHNK_OWNER = some (stringChunk IFFCHNK_OWNER owner) ∧
      (∀ i ∈ ifid, (ownerChunks owner ifid).find IFFCHNK_IFID = some (stringChunk IFFCHNK_IFID i)) ∧
      (ownerChunks owner ifid).find IFFCHNK_FORCEDBIND = none := by
  have ho : (CfgChunks.empty.put (stringChunk IFFCHNK_OWNER owner)).find IFFCHNK_OWNER =
      some (stringChunk IFFCHNK_OWNER owner) := CfgChunks.find_put_self _ _
  have hb : (CfgChunks.empty.put (stringChunk IFFCHNK_OWNER owner)).find IFFCHNK_FORCEDBIND =
      none := (CfgChunks.find_put_ne _ _ (by simp [stringChunk]; decide)).trans rfl
  cases ifid with
  | none => exact ⟨ho, fun i hi => absurd hi (Option.not_mem_none i), hb⟩
  | some ifid =>
    refine ⟨?_, fun i hi => ?_, ?_⟩
    · rw [← ho]
      exact CfgChunks.find_put_ne _ _ (by simp [stringChunk]; decide)
    · obtain rfl := some.inj hi
      exact CfgChunks.find_put_self _ _
    · rw [← hb]
      exact CfgChunks.find_put_ne _ _ (by simp [stringChunk]; decide)

def newData (owner : CString) (ifid : Option CString) (cpic : PsdIFFContext) : PsdIFFContext :=
  ⟨cfgDataId ifid, ownerChunks owner ifid, [cpic]⟩

theorem isCfgData_new (owner : CString) (ifid : Option CString) (cpic : PsdIFFContext) :
    isCfgData owner ifid (newData owner ifid cpic) = true := by
  obtain ⟨ho, hi, -⟩ := ownerChunks_find owner ifid
  have ho : (newData owner ifid cpic).pFindCfgChunk IFFCHNK_OWNER =
      some (stringChunk IFFCHNK_OWNER owner) := ho
  have hown : pMatchStringChunk (newData owner ifid cpic) IFFCHNK_OWNER owner = true :=
    (matches_stringChunk ho).mpr rfl
  have hif : ifid.all (pMatchStringChunk (newData owner ifid cpic) IFFCHNK_IFID) = true := by
    cases ifid with
    | none => rfl
    | some ifid =>
      have hi : (newData owner (some ifid) cpic).pFindCfgChunk IFFCHNK_IFID =
          some (stringChunk IFFCHNK_IFID ifid) := hi ifid rfl
      exact (matches_stringChunk hi).mpr rfl
  rw [isCfgData, hown, hif]
  simp [newData]

theorem devOthers_append (pic : PsdIFFContext) (cpic : PsdIFFContext) :
    DevOthers devid (.dev owner devid ifid) pic (pic.addSubForm (newData owner ifid cpic)) where
  dev := fun owner' ifid' hk => find_bind_append fun hq => by
    obtain ⟨rfl, rfl⟩ := isCfgData_inj (isCfgData_new owner ifid cpic) hq
    exact absurd rfl hk
  forced := fun ifid' _ => by
    cases ifid' with
    | none => rfl
    | some ifid' =>
      refine findSome_append ?_
      have : boundOwner (newData owner ifid cpic) = none := by
        rw [boundOwner]
        exact congrArg (Option.map _) (ownerChunks_find owner ifid).2.2
      rw [this]
      split <;> rfl

theorem devOthers_replace {subForms : List PsdIFFContext} (hsub : pic.subForms = pre ++ mpic :: post)
    (hm : isCfgData owner ifid mpic = true) :
    DevOthers devid (.dev owner devid ifid) pic
      { pic with subForms := pre ++ { mpic with subForms := subForms } :: post } where
  dev := fun owner' ifid' hk => by
    rw [devData, devData, hsub]
    refine find_bind_replace rfl fun hq => ?_
    obtain ⟨rfl, rfl⟩ := isCfgData_inj hm hq
    exact absurd rfl hk
  forced := fun ifid' _ => by
    cases ifid' with
    | none => rfl
    | some ifid' =>
      rw [devBind, devBind, hsub]
      exact findSome_replace rfl

section

variable (hc : Content fuel form cpic) (hid : cpic.formId = clsDataId ifid) (h : Ample mem)
include hc hid h

theorem newCfgData_ample (pic : PsdIFFContext) (owner : CString) :
    ∃ mem', newCfgData fuel mem pic owner ifid form =
      some (pic.addSubForm (newData owner ifid cpic), some true, mem') := by
  obtain ⟨mem₁, h₁, he₁⟩ := allocVec_ample h
  obtain ⟨mem₂, h₂, he₂⟩ := addStringChunk_ample h₁ (alloc (cfgDataId ifid)) IFFCHNK_OWNER owner
  have hcid : (alloc (clsDataId ifid)).formId = cpic.formId := hid.symm
  cases ifid with
  | none =>
    obtain ⟨mem₄, h₄, he₄⟩ := allocVec_ample h₂
    obtain ⟨mem₅, -, he₅⟩ := store_content hc hcid h₄
    refine ⟨mem₅, ?_⟩
    rw [newCfgData]
    simp only [he₁, he₂, he₄, he₅, Bool.not_true, Bool.false_eq_true, if_false,
      bind_eq_bind, bind_some]
    rfl
  | some ifid =>
    obtain ⟨mem₃, h₃, he₃⟩ := addStringChunk_ample h₂ { alloc (cfgDataId (some ifid)) with
      chunks := (alloc (cfgDataId (some ifid))).chunks.put (stringChunk IFFCHNK_OWNER owner) }
      IFFCHNK_IFID ifid
    obtain ⟨mem₄, h₄, he₄⟩ := allocVec_ample h₃
    obtain ⟨mem₅, -, he₅⟩ := store_content hc hcid h₄
    refine ⟨mem₅, ?_⟩
    rw [newCfgData]
    simp only [he₁, he₂, he₃, he₄, he₅, Bool.not_true, Bool.false_eq_true, if_false,
      bind_eq_bind, bind_some]
    rfl

theorem setClsData_ample (mpic : PsdIFFContext) :
    ∃ subForms mem', setClsData fuel mem mpic ifid form =
        some ({ mpic with subForms := subForms }, some (some true), mem') ∧
      psdFindCfgForm { mpic with subForms := subForms } (clsDataId ifid) = some cpic := by
  rcases first_cases (fun pic => pic.formId = clsDataId ifid) mpic.subForms with
    hnone | ⟨pre, dpic, post, hsub, hpre, hd⟩
  · obtain ⟨mem₁, h₁, he₁⟩ := allocVec_ample h
    have hcid : (alloc (clsDataId ifid)).formId = cpic.formId := hid.symm
    obtain ⟨mem₂, -, he₂⟩ := store_content hc hcid h₁
    refine ⟨mpic.subForms ++ [cpic], mem₂, ?_, find_self hnone (by simpa using hid)⟩
    rw [setClsData, walk_miss hnone]
    simp only [he₁, he₂, bind_eq_bind, bind_some, Bool.not_true, Bool.false_eq_true,
      if_false, isSome_none]
    rfl
  · have hdid : dpic.formId = cpic.formId := by
      rw [hid]
      simpa using hd
    obtain ⟨mem₁, -, he₁⟩ := setData_content hc hdid h
    refine ⟨pre ++ cpic :: post, mem₁, ?_, find_self hpre (by simpa using hid)⟩
    rw [setClsData, hsub, walk_hit hpre hd he₁]
    rfl

theorem setDevData_ample (pic : PsdIFFContext) (owner devid : CString) :
    ∃ subForms mem', setDevData fuel mem pic owner ifid form =
        some ({ pic with subForms := subForms }, some true, mem') ∧
      DevOthers devid (.dev owner devid ifid) pic { pic with subForms := subForms } ∧
      devData { pic with subForms := subForms } owner ifid = some cpic := by
  rcases first_cases (isCfgData owner ifid) pic.subForms with
    hmiss | ⟨pre, mpic, post, hsub, hpre, hm⟩
  · obtain ⟨mem', he⟩ := newCfgData_ample hc hid h pic owner
    refine ⟨pic.subForms ++ [newData owner ifid cpic], mem', ?_, devOthers_append pic cpic, ?_⟩
    · rw [setDevData, walk_miss hmiss]
      obtain ⟨_, _, _⟩ := pic
      exact he
    · rw [devData, find_self hmiss (isCfgData_new owner ifid cpic), bind_some]
      simp [psdFindCfgForm, newData, hid]
  · obtain ⟨subForms, mem', he, hfind⟩ := setClsData_ample hc hid h mpic
    refine ⟨pre ++ { mpic with subForms := subForms } :: post, mem', ?_,
      devOthers_replace hsub hm, ?_⟩
    · rw [setDevData, hsub, walk_hit hpre hm he]
      rfl
    · rw [devData, find_self hpre (by exact hm), bind_some]
      exact hfind

end

def newDevice (devid : CString) : PsdIFFContext :=
  ⟨IFFFORM_DEVICECFG, CfgChunks.empty.put (stringChunk IFFCHNK_DEVID devid), []⟩

theorem newDevice_ample (h : Ample mem) (devid : CString) :
    ∃ mem', Ample mem' ∧ pAddStringChunk mem (alloc IFFFORM_DEVICECFG) IFFCHNK_DEVID devid =
      (newDevice devid, true, mem') :=
  addStringChunk_ample h (alloc IFFFORM_DEVICECFG) IFFCHNK_DEVID devid

theorem newDevice_find (devid : CString) :
    (newDevice devid).pFindCfgChunk IFFCHNK_DEVID = some (stringChunk IFFCHNK_DEVID devid) :=
  find_put_string (alloc IFFFORM_DEVICECFG) IFFCHNK_DEVID devid

theorem isDeviceCfg_new (hid : pic.formId = IFFFORM_DEVICECFG)
    (hf : pic.pFindCfgChunk IFFCHNK_DEVID = some (stringChunk IFFCHNK_DEVID devid)) :
    isDeviceCfg devid pic = true := by
  have := (matches_stringChunk hf).mpr rfl
  rw [isDeviceCfg, this, hid]
  rfl

theorem psdSetUsbDevCfg_ample (hc : Content fuel form cpic) (hid : cpic.formId = clsDataId ifid)
    (h : Ample mem) (root : PsdIFFContext) (owner devid : CString) :
    ∃ root' mem', psdSetUsbDevCfg fuel mem root owner devid ifid form = some (root', true, mem') ∧
      Others root root' (.dev owner devid ifid) ∧
      psdGetUsbDevCfg root' owner devid ifid = some cpic := by
  obtain ⟨rid, chunks, pics⟩ := root
  rcases first_cases (isDeviceCfg devid) pics with hmiss | ⟨pre, pic, post, rfl, hpre, hp⟩
  · obtain ⟨mem₁, h₁, he₁⟩ := allocVec_ample h
    obtain ⟨mem₂, h₂, he₂⟩ := newDevice_ample h₁ devid
    obtain ⟨mem₃, he₃⟩ := newCfgData_ample hc hid h₂ (newDevice devid) owner
    refine ⟨⟨rid, chunks, pics ++ [(newDevice devid).addSubForm (newData owner ifid cpic)]⟩, mem₃,
      ?_, others_device_append rfl (newDevice_find devid) ?_, ?_⟩
    · rw [psdSetUsbDevCfg, walk_miss hmiss]
      simp only [he₁, he₂, he₃, bind_eq_bind, bind_some, Bool.not_true,
        Bool.false_eq_true, if_false, getD_none]
      rfl
    · have happ : DevOthers devid (.dev owner devid ifid) (newDevice devid)
          ((newDevice devid).addSubForm (newData owner ifid cpic)) := devOthers_append _ cpic
      exact ⟨happ.dev, happ.forced⟩
    · have hnew : isDeviceCfg devid ((newDevice devid).addSubForm (newData owner ifid cpic)) =
          true := isDeviceCfg_new rfl (newDevice_find devid)
      rw [psdGetUsbDevCfg_eq]
      simp only
      rw [find_self hmiss hnew, bind_some, devData]
      change (List.find? _ [newData owner ifid cpic]).bind _ = _
      rw [List.find?_cons_of_pos (isCfgData_new owner ifid cpic), bind_some]
      simp [psdFindCfgForm, newData, hid]
  · obtain ⟨subForms, mem', he, hoth, hdata⟩ := setDevData_ample hc hid h pic owner devid
    refine ⟨⟨rid, chunks, pre ++ { pic with subForms := subForms } :: post⟩, mem', ?_,
      others_device_replace hp rfl rfl hoth, ?_⟩
    · rw [psdSetUsbDevCfg, walk_hit hpre hp he]
      rfl
    · rw [psdGetUsbDevCfg_eq]
      simp only
      rw [find_self hpre (by exact hp), bind_some]
      exact hdata

end Neptune
