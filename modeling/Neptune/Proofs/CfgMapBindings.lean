import Neptune.Proofs.CfgMapDevices

/-! The forced bindings of devices and interfaces. The binding of an interface is set in all its
forms, and a new one is made where it has none. -/

namespace Neptune

open PsdIFFContext Option List

variable {mem : List Bool} {pic pic' pic'' mpic root : PsdIFFContext} {key : CfgKey}
  {mpics : List PsdIFFContext} {owner devid ifid : CString} {bound : Option CString}

def bindForm (bound : Option CString) (pic : PsdIFFContext) : PsdIFFContext :=
  match bound with
  | some owner => { pic with chunks := pic.chunks.put (stringChunk IFFCHNK_FORCEDBIND owner) }
  | none => pic.pRemCfgChunk IFFCHNK_FORCEDBIND

theorem setBind_ample (h : Ample mem) (pic : PsdIFFContext) (bound : Option CString) :
    ∃ mem', Ample mem' ∧ setBind mem pic bound = (bindForm bound pic, true, mem') := by
  cases bound with
  | none => exact ⟨mem, h, rfl⟩
  | some owner => exact addStringChunk_ample h pic IFFCHNK_FORCEDBIND owner

section

variable (bound : Option CString) (pic : PsdIFFContext)

theorem bindForm_formId :
    (bindForm bound pic).formId = pic.formId := by
  cases bound <;> rfl

theorem bindForm_subForms :
    (bindForm bound pic).subForms = pic.subForms := by
  cases bound <;> rfl

theorem bindForm_find {chunkid : ChunkId}
    (h : chunkid.1 ≠ IFFCHNK_FORCEDBIND.1) :
    (bindForm bound pic).pFindCfgChunk chunkid = pic.pFindCfgChunk chunkid := by
  cases bound with
  | none => exact pic.chunks.find_rem_ne h
  | some owner => exact find_put_string_ne pic owner h

theorem bindForm_matches {chunkid : ChunkId}
    (h : chunkid.1 ≠ IFFCHNK_FORCEDBIND.1) :
    pMatchStringChunk (bindForm bound pic) chunkid = pMatchStringChunk pic chunkid := by
  funext str
  rw [pMatchStringChunk, pMatchStringChunk, bindForm_find bound pic h]

theorem boundOwner_bindForm :
    boundOwner (bindForm bound pic) = bound.map CString.chars := by
  cases bound with
  | none =>
    have : (bindForm none pic).pFindCfgChunk IFFCHNK_FORCEDBIND = none :=
      pic.chunks.find_rem_self IFFCHNK_FORCEDBIND
    rw [boundOwner, this]
    rfl
  | some owner =>
    have : (bindForm (some owner) pic).pFindCfgChunk IFFCHNK_FORCEDBIND =
        some (stringChunk IFFCHNK_FORCEDBIND owner) := find_put_string pic IFFCHNK_FORCEDBIND owner
    rw [boundOwner, this, map_some, stringChunk_data]
    rfl

end

def bindIf (ifid : CString) (bound : Option CString) (mpic : PsdIFFContext) : PsdIFFContext :=
  if isIfCfg ifid mpic then bindForm bound mpic else mpic

theorem setIfBinds_ample (h : Ample mem) (ifid : CString) (bound : Option CString)
    (mpics : List PsdIFFContext) :
    ∃ mem', Ample mem' ∧ setIfBinds mem ifid bound mpics =
      (mpics.map (bindIf ifid bound), mpics.any (isIfCfg ifid), mem') := by
  induction mpics generalizing mem with
  | nil => exact ⟨mem, h, rfl⟩
  | cons mpic mpics ih =>
    by_cases hm : isIfCfg ifid mpic = true
    · obtain ⟨mem₁, h₁, he₁⟩ := setBind_ample h mpic bound
      obtain ⟨mem₂, h₂, he₂⟩ := ih h₁
      refine ⟨mem₂, h₂, ?_⟩
      rw [setIfBinds, if_pos hm, he₁]
      simp only [he₂, map_cons, any_cons, bindIf, hm, if_true, Bool.true_or]
    · obtain ⟨mem₁, h₁, he₁⟩ := ih h
      refine ⟨mem₁, h₁, ?_⟩
      rw [setIfBinds, if_neg hm]
      simp only [he₁, map_cons, any_cons, bindIf, hm, Bool.false_eq_true, if_false,
        Bool.false_or]

theorem isIfCfg_inj {ifid' : CString} (h : isIfCfg ifid mpic = true)
    (h' : isIfCfg ifid' mpic = true) : ifid = ifid' :=
  pMatchStringChunk_inj (Bool.and_eq_true_iff.mp h).2 (Bool.and_eq_true_iff.mp h').2

theorem isIfCfg_bindForm (ifid : CString) (bound : Option CString) (mpic : PsdIFFContext) :
    isIfCfg ifid (bindForm bound mpic) = isIfCfg ifid mpic := by
  rw [isIfCfg, isIfCfg, bindForm_formId, bindForm_matches bound mpic (by decide)]

theorem isCfgData_bindForm (owner : CString) (ifid bound : Option CString) (mpic : PsdIFFContext) :
    isCfgData owner ifid (bindForm bound mpic) = isCfgData owner ifid mpic := by
  rw [isCfgData, isCfgData, bindForm_formId, bindForm_matches bound mpic (by decide),
    bindForm_matches bound mpic (by decide)]

theorem find_bind_map {β : Type} {q : PsdIFFContext → Bool} {g : PsdIFFContext → Option β}
    {f : PsdIFFContext → PsdIFFContext} (hq : ∀ x, q (f x) = q x) (hg : ∀ x, g (f x) = g x)
    (pics : List PsdIFFContext) : ((pics.map f).find? q).bind g = (pics.find? q).bind g := by
  induction pics with
  | nil => rfl
  | cons pic pics ih =>
    rw [map_cons, find?_cons, find?_cons, hq]
    cases q pic with
    | true => exact hg pic
    | false => exact ih

theorem ifBind_map (ifid : CString) (bound : Option CString) (mpics : List PsdIFFContext) :
    ifBind (mpics.map (bindIf ifid bound)) ifid =
      if mpics.any (isIfCfg ifid) then bound.map CString.chars else none := by
  unfold ifBind
  induction mpics with
  | nil => rfl
  | cons mpic mpics ih =>
    rw [map_cons, findSome?_cons, any_cons, ih]
    by_cases hm : isIfCfg ifid mpic = true
    · simp only [bindIf, hm, if_true, isIfCfg_bindForm, boundOwner_bindForm, Bool.true_or]
      cases bound with
      | none => simp
      | some owner => rfl
    · simp only [bindIf, hm, Bool.false_eq_true, if_false, Bool.false_or]

theorem devOthers_ifs (pic : PsdIFFContext) (devid ifid : CString) (bound : Option CString) :
    DevOthers devid (.forced devid (some ifid)) pic
      { pic with subForms := pic.subForms.map (bindIf ifid bound) } where
  dev := fun owner' ifid' _ => by
    refine find_bind_map (fun x => ?_) (fun x => ?_) pic.subForms <;> rw [bindIf] <;> split
    · exact isCfgData_bindForm owner' ifid' bound x
    · rfl
    · exact congrArg (find? _) (bindForm_subForms bound x)
    · rfl
  forced := fun ifid' hk => by
    cases ifid' with
    | none => rfl
    | some ifid' =>
      simp only [devBind, ifBind, findSome?_map]
      congr 1
      funext x
      by_cases hx : isIfCfg ifid x = true
      · have hb : bindIf ifid bound x = bindForm bound x := if_pos hx
        simp only [Function.comp_apply, hb, isIfCfg_bindForm]
        by_cases hx' : isIfCfg ifid' x = true
        · obtain rfl := isIfCfg_inj hx hx'
          exact absurd rfl hk
        · rw [if_neg hx', if_neg hx']
      · have hb : bindIf ifid bound x = x := if_neg hx
        rw [Function.comp_apply, hb]

def newIf (owner ifid : CString) : PsdIFFContext :=
  ⟨IFFFORM_IFCFGDATA, ((CfgChunks.empty.put (stringChunk IFFCHNK_OWNER owner)).put
    (stringChunk IFFCHNK_FORCEDBIND owner)).put (stringChunk IFFCHNK_IFID ifid), []⟩

theorem newIfBind_ample (h : Ample mem) (pic : PsdIFFContext) (owner ifid : CString) :
    ∃ mem', newIfBind mem pic owner ifid = (pic.addSubForm (newIf owner ifid), true, mem') := by
  obtain ⟨mem₁, h₁, he₁⟩ := allocVec_ample h
  obtain ⟨mem₂, h₂, he₂⟩ := addStringChunk_ample h₁ (alloc IFFFORM_IFCFGDATA) IFFCHNK_OWNER owner
  obtain ⟨mem₃, h₃, he₃⟩ := addStringChunk_ample h₂ ⟨IFFFORM_IFCFGDATA,
    CfgChunks.empty.put (stringChunk IFFCHNK_OWNER owner), []⟩ IFFCHNK_FORCEDBIND owner
  obtain ⟨mem₄, -, he₄⟩ := addStringChunk_ample h₃ ⟨IFFFORM_IFCFGDATA,
    (CfgChunks.empty.put (stringChunk IFFCHNK_OWNER owner)).put
      (stringChunk IFFCHNK_FORCEDBIND owner), []⟩ IFFCHNK_IFID ifid
  refine ⟨mem₄, ?_⟩
  rw [alloc] at he₂
  simp only [newIfBind, he₁, alloc, he₂, he₃, he₄, Bool.not_true, Bool.false_eq_true, if_false]
  rfl

theorem newIf_ifid (owner ifid : CString) :
    (newIf owner ifid).pFindCfgChunk IFFCHNK_IFID = some (stringChunk IFFCHNK_IFID ifid) :=
  CfgChunks.find_put_self _ _

theorem isIfCfg_new (owner ifid : CString) : isIfCfg ifid (newIf owner ifid) = true := by
  have := (matches_stringChunk (newIf_ifid owner ifid)).mpr rfl
  rw [isIfCfg, this]
  rfl

theorem boundOwner_newIf (owner ifid : CString) :
    boundOwner (newIf owner ifid) = some owner.chars := by
  have hne : IFFCHNK_FORCEDBIND.1 ≠ (stringChunk IFFCHNK_IFID ifid).id := by
    change IFFCHNK_FORCEDBIND.1 ≠ IFFCHNK_IFID.1
    decide
  have : (newIf owner ifid).pFindCfgChunk IFFCHNK_FORCEDBIND =
      some (stringChunk IFFCHNK_FORCEDBIND owner) :=
    (CfgChunks.find_put_ne _ _ hne).trans (CfgChunks.find_put_self _ _)
  rw [boundOwner, this, map_some, stringChunk_data]

theorem devOthers_newIf (pic : PsdIFFContext) (devid owner ifid : CString) :
    DevOthers devid (.forced devid (some ifid)) pic (pic.addSubForm (newIf owner ifid)) where
  dev := fun _ _ _ => find_bind_append fun _ => rfl
  forced := fun ifid' hk => by
    cases ifid' with
    | none => rfl
    | some ifid' =>
      refine findSome_append ?_
      rw [if_neg]
      intro hq
      obtain rfl := isIfCfg_inj (isIfCfg_new owner ifid) hq
      exact hk rfl

theorem DevOthers.trans (h : DevOthers devid key pic pic') (h' : DevOthers devid key pic' pic'') :
    DevOthers devid key pic pic'' where
  dev := fun owner ifid hk => (h'.dev owner ifid hk).trans (h.dev owner ifid hk)
  forced := fun ifid hk => (h'.forced ifid hk).trans (h.forced ifid hk)

theorem devOthers_bindForm (pic : PsdIFFContext) (devid : CString) (bound : Option CString) :
    DevOthers devid (.forced devid none) pic (bindForm bound pic) where
  dev := fun owner ifid _ => by rw [devData, devData, bindForm_subForms]
  forced := fun ifid hk => by
    cases ifid with
    | none => exact absurd rfl hk
    | some ifid => rw [devBind, devBind, bindForm_subForms]

theorem setDevBind_ample (h : Ample mem) (pic : PsdIFFContext) (bound : Option CString)
    (devid : CString) (ifid : Option CString) :
    ∃ pic' mem', setDevBind mem pic bound ifid = (pic', true, mem') ∧
      pic'.formId = pic.formId ∧
      pic'.pFindCfgChunk IFFCHNK_DEVID = pic.pFindCfgChunk IFFCHNK_DEVID ∧
      DevOthers devid (.forced devid ifid) pic pic' ∧
      devBind pic' ifid = bound.map CString.chars := by
  cases ifid with
  | none =>
    obtain ⟨mem', -, he⟩ := setBind_ample h pic bound
    exact ⟨bindForm bound pic, mem', he, bindForm_formId bound pic,
      bindForm_find bound pic (by decide), devOthers_bindForm pic devid bound,
      boundOwner_bindForm bound pic⟩
  | some ifid =>
    obtain ⟨mem₁, h₁, he₁⟩ := setIfBinds_ample h ifid bound pic.subForms
    have hoth := devOthers_ifs pic devid ifid bound
    have hbind := ifBind_map ifid bound pic.subForms
    rw [setDevBind, he₁]
    cases bound with
    | none =>
      refine ⟨_, mem₁, rfl, rfl, rfl, hoth, hbind.trans ?_⟩
      split <;> rfl
    | some owner =>
      by_cases hany : pic.subForms.any (isIfCfg ifid) = true
      · rw [if_pos hany] at hbind
        refine ⟨{ pic with subForms := pic.subForms.map (bindIf ifid (some owner)) }, mem₁, ?_, rfl,
          rfl, hoth, hbind⟩
        simp only [hany, if_true]
      · obtain ⟨mem₂, he₂⟩ := newIfBind_ample h₁
          { pic with subForms := pic.subForms.map (bindIf ifid (some owner)) } owner ifid
        rw [if_neg hany] at hbind
        refine ⟨PsdIFFContext.addSubForm { pic with
            subForms := pic.subForms.map (bindIf ifid (some owner)) } (newIf owner ifid), mem₂, ?_,
          rfl, rfl, hoth.trans (devOthers_newIf _ devid owner ifid), ?_⟩
        · simp only [hany, he₂, Bool.false_eq_true, if_false]
        · unfold ifBind at hbind
          simp only [devBind, ifBind, addSubForm, findSome?_append, hbind, none_or,
            findSome?_singleton, isIfCfg_new, if_true, boundOwner_newIf, map_some]

theorem psdSetForcedBinding_ample (h : Ample mem) (root : PsdIFFContext) (owner : Option CString)
    (devid : CString) (ifid : Option CString) :
    ∃ root' mem', psdSetForcedBinding mem root owner devid ifid = some (root', true, mem') ∧
      Others root root' (.forced devid ifid) ∧
      psdGetForcedBinding root' devid ifid = (ownerToBind owner).map CString.chars := by
  obtain ⟨rid, chunks, pics⟩ := root
  rcases first_cases (isDeviceCfg devid) pics with hmiss | ⟨pre, pic, post, rfl, hpre, hp⟩
  · cases hb : ownerToBind owner with
    | none =>
      -- there is nothing to clear
      refine ⟨⟨rid, chunks, pics⟩, mem, ?_, fun k _ => rfl, ?_⟩
      · rw [psdSetForcedBinding, walk_miss hmiss, hb]
        rfl
      · rw [psdGetForcedBinding_eq]
        simp only
        rw [find_none hmiss]
        rfl
    | some bound =>
      obtain ⟨mem₁, h₁, he₁⟩ := allocVec_ample h
      obtain ⟨mem₂, h₂, he₂⟩ := newDevice_ample h₁ devid
      -- the new form gets the binding as an empty one of the device does
      obtain ⟨pic', mem₃, he₃, hid, hf, hoth, hbind⟩ :=
        setDevBind_ample h₂ (newDevice devid) (some bound) devid ifid
      have hnew : isDeviceCfg devid pic' = true :=
        isDeviceCfg_new hid (hf.trans (newDevice_find devid))
      refine ⟨⟨rid, chunks, pics ++ [pic']⟩, mem₃, ?_,
        others_device_append hid (hf.trans (newDevice_find devid)) ⟨?_, ?_⟩, ?_⟩
      · rw [psdSetForcedBinding, walk_miss hmiss, hb]
        simp only [he₁, he₂, bind_eq_bind, bind_some, Bool.not_true,
          Bool.false_eq_true, if_false, getD_none]
        cases ifid with
        | none =>
          have he₃ : setBind mem₂ (newDevice devid) (some bound) = (pic', true, mem₃) := he₃
          simp only [he₃]
          rfl
        | some ifid =>
          have he₃ : newIfBind mem₂ (newDevice devid) bound ifid = (pic', true, mem₃) := he₃
          simp only [he₃]
          rfl
      · exact hoth.dev
      · exact hoth.forced
      · rw [psdGetForcedBinding_eq]
        simp only
        rw [find_self hmiss hnew, bind_some]
        exact hbind
  · obtain ⟨pic', mem', he, hid, hf, hoth, hbind⟩ :=
      setDevBind_ample h pic (ownerToBind owner) devid ifid
    have hp' : isDeviceCfg devid pic' = true := by
      rw [isDeviceCfg, hid, pMatchStringChunk, hf]
      exact hp
    have hwalk : ∀ f, f mem pic = some (pic', some true, mem') → walk (isDeviceCfg devid) f mem (pre ++ pic :: post) =
        some (pre ++ pic' :: post, some true, mem') := fun f hf => walk_hit hpre hp hf
    refine ⟨⟨rid, chunks, pre ++ pic' :: post⟩, mem', ?_,
      others_device_replace hp hid hf hoth, ?_⟩
    · rw [psdSetForcedBinding, hwalk _ (by simp only [he])]
      cases ownerToBind owner <;> rfl
    · rw [psdGetForcedBinding_eq]
      simp only
      rw [find_self hpre hp', bind_some]
      exact hbind

end Neptune

namespace Neptune

open PsdIFFContext Option

def CfgCall.key : CfgCall → CfgKey
  | .cls owner _ => .cls owner
  | .dev owner devid ifid _ => .dev owner devid ifid
  | .forced _ devid ifid => .forced devid ifid

/-- What the call sets: a form that is read, an owner, or none. -/
inductive Sets (fuel : ℕ) : CfgCall → CfgValue → Prop
  | cls {owner : CString} {form : Option (List UInt8)} {cpic : PsdIFFContext}
      (hc : Content fuel form cpic) (hid : cpic.formId = IFFFORM_CLASSDATA) :
      Sets fuel (.cls owner form) (.form (some cpic))
  | dev {owner devid : CString} {ifid : Option CString} {form : Option (List UInt8)}
      {cpic : PsdIFFContext} (hc : Content fuel form cpic) (hid : cpic.formId = clsDataId ifid) :
      Sets fuel (.dev owner devid ifid form) (.form (some cpic))
  | forced {owner : Option CString} {devid : CString} {ifid : Option CString} :
      Sets fuel (.forced owner devid ifid) (.owner ((ownerToBind owner).map CString.chars))

/-- The first form of the owner whose settings are set, if there is one, has a data form. -/
def SetInPlace (root : Option PsdIFFContext) : CfgCall → Prop
  | .cls owner _ => ∀ pic ∈ root, ClassHasData pic owner
  | _ => True

variable {fuel : ℕ} {mem : List Bool} {root : Option PsdIFFContext} {call : CfgCall}
  {value : CfgValue}

theorem reads_ample (fuel : ℕ) :
    (∀ {mem pic buf pic' ok mem'}, pAddCfgChunk fuel mem pic buf = some (pic', ok, mem') →
      Ample mem → Ample mem') ∧
    ∀ {mem pic buf len pic' len' mem'}, addChunks fuel mem pic buf len = some (pic', len', mem') →
      Ample mem → Ample mem' := by
  induction fuel with
  | zero => exact ⟨nofun, nofun⟩
  | succ fuel ih =>
    constructor
    · intro mem pic buf pic' ok mem' he h
      rw [pAddCfgChunk] at he
      simp only [bind_eq_bind, bind_eq_some_iff] at he
      obtain ⟨id, -, length, -, he⟩ := he
      have hrest := (psdAllocVec_ample h).2
      split at he
      · simp only [bind_eq_some_iff] at he
        obtain ⟨formId, -, he⟩ := he
        split at he
        · simp only [bind_eq_some_iff] at he
          obtain ⟨⟨subpic, len, mem₁⟩, hr, he⟩ := he
          cases he
          exact ih.2 hr hrest
        · cases he
          exact hrest
      · simp only [bind_eq_some_iff] at he
        obtain ⟨chunk, -, he⟩ := he
        cases he
        exact hrest
    · intro mem pic buf len pic' len' mem' he h
      rw [addChunks] at he
      split at he
      · simp only [bind_eq_bind, bind_eq_some_iff] at he
        obtain ⟨⟨pic₁, ok, mem₁⟩, hadd, he⟩ := he
        have h₁ := ih.1 hadd h
        split at he
        · simp only [bind_eq_some_iff] at he
          obtain ⟨length, -, he⟩ := he
          exact ih.2 he h₁
        · cases he
          exact h₁
      · cases he
        exact h

theorem psdReadCfg_rest {pic pic' : PsdIFFContext} {form : List UInt8} {mem' : List Bool}
    (he : psdReadCfg fuel mem pic form = some (pic', true, mem')) (h : Ample mem) :
    Ample mem' := by
  obtain ⟨length, -, -, -, hr⟩ := psdReadCfg_true he
  exact (reads_ample fuel).2 hr h

theorem content_written {pic : PsdIFFContext} (hm : Fits pic)
    (hf : (pInternalWriteForm pic).length ≤ fuel) :
    Content fuel (some (pInternalWriteForm pic)) pic := by
  intro mem h
  have hid : (alloc pic.formId).formId = pic.formId := rfl
  obtain ⟨pic', ok, mem', he, hpic, hok⟩ := (psdReadCfg_written hm hid).2 (fuel + 1) mem (by omega)
  obtain rfl := hok h
  obtain rfl := hpic rfl
  exact ⟨mem', psdReadCfg_rest he h, he⟩

def hidOwner : CString := ⟨[104, 105, 100], by decide⟩

def hidSettings : PsdIFFContext :=
  ⟨IFFFORM_CLASSDATA, ⟨[⟨1, [5], [0], by decide, by decide⟩], by simp⟩, []⟩

def hidEntry : List UInt8 :=
  pInternalWriteForm ⟨IFFFORM_CLASSCFG, CfgChunks.empty.put (stringChunk IFFCHNK_OWNER hidOwner), []⟩

end Neptune
