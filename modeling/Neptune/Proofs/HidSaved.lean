import Neptune.Lib.Keyed
import Neptune.Proofs.CfgBuffers
import Neptune.Proofs.CfgMap
import Neptune.Proofs.IdentityUnique
import Neptune.Spec.HidSave

/-! Which reports get their actions back from the settings. -/

namespace Neptune.HidSave

open PsdIFFContext List

def saved (pic : PsdIFFContext) (strs : List (ChunkId × CString)) : PsdIFFContext :=
  (saveStrings [] pic strs).1

theorem saveStrings_eq (pic : PsdIFFContext) (strs : List (ChunkId × CString)) :
    saveStrings [] pic strs = (saved pic strs, []) := by
  refine Prod.ext rfl ?_
  induction strs generalizing pic with
  | nil => rfl
  | cons s strs ih =>
    rw [saveStrings]
    split
    · exact ih pic
    · exact ih _

theorem saved_cons (pic : PsdIFFContext) (chunkid : ChunkId) (str : CString)
    (strs : List (ChunkId × CString)) : saved pic ((chunkid, str) :: strs) =
      saved (if str.chars = [] then pic
        else { pic with chunks := pic.chunks.put (stringChunk chunkid str) }) strs := by
  unfold saved
  rw [saveStrings]
  split <;> rfl

theorem saved_formId (pic : PsdIFFContext) (strs : List (ChunkId × CString)) :
    (saved pic strs).formId = pic.formId := by
  induction strs generalizing pic with
  | nil => rfl
  | cons s strs ih =>
    rw [saved_cons, ih]
    split <;> rfl

variable {count idbase idnum : ℕ} {chunkid : ChunkId} {pic : PsdIFFContext} {lists : List ActionList}
  {strs : List (ChunkId × CString)}

theorem find_saved_ne
    (h : chunkid ∉ strs.map Prod.fst) :
    (saved pic strs).pFindCfgChunk chunkid = pic.pFindCfgChunk chunkid := by
  induction strs generalizing pic with
  | nil => rfl
  | cons s strs ih =>
    rw [map_cons, mem_cons, not_or] at h
    rw [saved_cons, ih h.2]
    split
    · rfl
    · exact find_put_string_ne pic s.2 fun he => h.1 (Subtype.ext he)

theorem find_saved
    (hn : (strs.map Prod.fst).Nodup) {str : CString}
    (hm : (chunkid, str) ∈ strs) (h : pic.pFindCfgChunk chunkid = none) :
    (saved pic strs).pFindCfgChunk chunkid =
      if str.chars = [] then none else some (stringChunk chunkid str) := by
  induction strs generalizing pic with
  | nil => cases hm
  | cons s strs ih =>
    rw [map_cons, nodup_cons] at hn
    rw [saved_cons]
    rcases mem_cons.mp hm with rfl | hm
    · rw [find_saved_ne hn.1]
      split
      · exact h
      · exact find_put_string pic chunkid str
    · refine ih hn.2 hm ?_
      split
      · exact h
      · rw [find_put_string_ne pic s.2 fun he => hn.1 ?_, h]
        exact mem_map.mpr ⟨_, hm, Subtype.ext he⟩

def actionForm (nha : NepHidAction) : PsdIFFContext :=
  saved { alloc ID_ACTN with chunks := CfgChunks.empty.put (actionChunk nha) } (actionStrings nha)

theorem actionStrings_nodup (nha : NepHidAction) : ((actionStrings nha).map Prod.fst).Nodup := by
  simp only [actionStrings, map_cons, map_nil]
  decide

theorem find_actionChunk (nha : NepHidAction) :
    (actionForm nha).pFindCfgChunk ID_ACDF = some (actionChunk nha) := by
  have hne : ID_ACDF ∉ (actionStrings nha).map Prod.fst := by
    simp only [actionStrings, map_cons, map_nil]
    decide
  rw [actionForm, find_saved_ne hne]
  exact CfgChunks.find_put_self _ (actionChunk nha)

theorem loadString_of_find {size : ℕ}
    (str : CharArray size) (h : pic.pFindCfgChunk chunkid =
      if str.chars = [] then none else some (stringChunk chunkid str.toCString)) :
    loadString size [] pic chunkid = (str, []) := by
  obtain ⟨⟨chars, no_nul⟩, length_le⟩ := str
  unfold loadString
  by_cases hc : chars = []
  · subst hc
    rw [h]
    rfl
  · rw [h, if_neg hc]
    simp only [copied, psdAllocVec, if_true, stringChunk_data]
    congr
    exact take_of_length_le length_le

theorem loadString_actionForm {size : ℕ} {nha : NepHidAction}
    (str : CharArray size) (hm : (chunkid, str.toCString) ∈ actionStrings nha)
    (h : chunkid.1 ≠ ID_ACDF) : loadString size [] (actionForm nha) chunkid = (str, []) := by
  refine loadString_of_find str (find_saved (actionStrings_nodup nha) hm ?_)
  exact CfgChunks.find_put_ne _ (actionChunk nha) h

def restored (nha : NepHidAction) : NepHidAction := { nha with isDefault := false }

theorem loadAction_actionForm (nha : NepHidAction) :
    loadAction [] (actionForm nha) = (some (restored nha), []) := by
  unfold loadAction
  rw [find_actionChunk]
  simp only [copied, psdAllocVec, if_true]
  rw [loadString_actionForm nha.soundFile (by simp [actionStrings]) (by decide),
    loadString_actionForm nha.vanillaString (by simp [actionStrings]) (by decide),
    loadString_actionForm nha.keyString (by simp [actionStrings]) (by decide),
    loadString_actionForm nha.exeString (by simp [actionStrings]) (by decide),
    loadString_actionForm nha.outArray (by simp [actionStrings]) (by decide)]
  have hlen := nha.constants_length
  have hdata : (actionChunk nha).data = nha.constants := rfl
  have hconst : nha.constants.take actionSize ++ initialConstants.drop nha.constants.length =
      nha.constants := by
    rw [take_of_length_le hlen.le, hlen]
    exact append_nil _
  simp only [hdata, hconst]
  rfl

theorem loadActions_eq (nhas : List NepHidAction) :
    loadActions [] (nhas.map actionForm) = (nhas.map restored, []) := by
  induction nhas with
  | nil => rfl
  | cons nha nhas ih =>
    simp only [map_cons, loadActions, loadAction_actionForm, ih]
    rfl

theorem saveActions_eq (itpic : PsdIFFContext) (nhas : List NepHidAction) :
    saveActions [] itpic nhas =
      ({ itpic with subForms := itpic.subForms ++ nhas.map actionForm }, []) := by
  induction nhas generalizing itpic with
  | nil =>
    cases itpic
    rw [map_nil, append_nil]
    rfl
  | cons nha nhas ih =>
    simp only [saveActions, psdAllocVec, putChunk, if_true, saveStrings_eq, ih, addSubForm,
      append_assoc, map_cons]
    rfl

def IsDefault (lst : ActionList) : Prop := ∀ nha ∈ lst.actions, nha.isDefault = true

instance (lst : ActionList) : Decidable (IsDefault lst) :=
  inferInstanceAs (Decidable (∀ nha ∈ lst.actions, nha.isDefault = true))

def formIdOf (idbase : ℕ) (lst : ActionList) : UInt32 := itemFormId lst.wtype idbase

def listForm (idbase : ℕ) (lst : ActionList) : PsdIFFContext :=
  ⟨formIdOf idbase lst, .empty, lst.actions.map actionForm⟩

theorem listForm_formId (idbase : ℕ) (lst : ActionList) :
    (listForm idbase lst).formId = formIdOf idbase lst := by
  simp only [listForm]

theorem saveInForm_none {id : UInt32} {nhas : List NepHidAction} {pics : List PsdIFFContext}
    (h : ∀ pic ∈ pics, pic.formId ≠ id) : saveInForm [] id nhas pics = none := by
  induction pics with
  | nil => rfl
  | cons pic pics ih =>
    rw [saveInForm, if_neg (h pic (by simp)), ih fun pic' hpic' => h pic' (by simp [hpic'])]
    rfl

theorem nSaveItem_eq {rppic : PsdIFFContext} {lst : ActionList}
    (h : ∀ pic ∈ rppic.subForms, pic.formId ≠ formIdOf idbase lst) :
    nSaveItem [] rppic lst idbase =
      (if IsDefault lst then rppic else rppic.addSubForm (listForm idbase lst), []) := by
  unfold nSaveItem
  have hall : (lst.actions.all (·.isDefault)) = true ↔ IsDefault lst := all_eq_true
  by_cases hd : IsDefault lst
  · rw [if_pos (hall.mpr hd), if_pos hd]
  · rw [if_neg (mt hall.mp hd), if_neg hd]
    have hnone : saveInForm [] (itemFormId lst.wtype idbase) lst.actions rppic.subForms = none :=
      saveInForm_none h
    simp only [hnone, psdAllocVec, if_true, saveActions_eq, alloc, nil_append, listForm,
      formIdOf]

theorem saveReport_eq (rppic : PsdIFFContext)
    (hn : (lists.map (formIdOf idbase)).Nodup)
    (h : ∀ pic ∈ rppic.subForms, pic.formId ∉ lists.map (formIdOf idbase)) :
    lists.foldl (fun saved lst => nSaveItem saved.2 saved.1 lst idbase) (rppic, []) =
      ({ rppic with subForms := rppic.subForms ++
        (lists.filter (¬ IsDefault ·)).map (listForm idbase) }, []) := by
  induction lists generalizing rppic with
  | nil =>
    cases rppic
    rw [filter_nil, map_nil, append_nil]
    rfl
  | cons lst lists ih =>
    rw [map_cons, nodup_cons] at hn
    rw [foldl_cons, nSaveItem_eq fun pic hpic he => h pic hpic (by simp [he])]
    have hrest : ∀ pic ∈ rppic.subForms, pic.formId ∉ lists.map (formIdOf idbase) :=
      fun pic hpic hm => h pic hpic (mem_cons_of_mem _ hm)
    by_cases hd : IsDefault lst
    · rw [if_pos hd, ih _ hn.2 hrest, filter_cons_of_neg (by simpa using hd)]
    · rw [if_neg hd, ih _ hn.2 ?_, filter_cons_of_pos (by simpa using hd)]
      · simp only [addSubForm, append_assoc, map_cons]
        rfl
      · intro pic hpic
        rcases mem_append.mp hpic with hpic | hpic
        · exact hrest pic hpic
        · rw [mem_singleton.mp hpic, listForm_formId]
          exact hn.1

/-- Its lists have ids of their own, of four characters at most, and get back their actions. -/
structure ComesBack (nhr : NumberedReport) : Prop where
  differ : (nhr.lists.map fun lst => itemFormId lst.wtype nhr.itemIDBase).Nodup
  fits : ∀ lst ∈ nhr.lists, (itemText lst.wtype nhr.itemIDBase).length ≤ 4
  restores : ∀ formId : UInt32, ∀ lst ∈ nhr.lists,
    nLoadItem [] (saveReport [] (alloc formId) nhr).1 { lst with actions := [] } nhr.itemIDBase =
      if IsDefault lst then ({ lst with actions := [] }, false, [])
      else ({ lst with actions := lst.actions.map restored }, true, [])

theorem cfgForms_listForm (idbase : ℕ) (lst : ActionList) :
    cfgForms (listForm idbase lst) ID_ACTN = lst.actions.map actionForm := by
  refine filter_eq_self.mpr fun pic hpic => ?_
  obtain ⟨nha, -, rfl⟩ := mem_map.mp hpic
  simp [actionForm, saved_formId, alloc]

theorem find_listForm {lst : ActionList}
    (hn : (lists.map (formIdOf idbase)).Nodup) (hlst : lst ∈ lists) :
    ((lists.filter (¬ IsDefault ·)).map (listForm idbase)).find?
        (fun pic => pic.formId = formIdOf idbase lst) =
      if IsDefault lst then none else some (listForm idbase lst) := by
  have hkeys : (fun pic : PsdIFFContext => decide (pic.formId = formIdOf idbase lst)) ∘
      listForm idbase = fun lst' => decide (formIdOf idbase lst' = formIdOf idbase lst) :=
    funext fun lst' => by rw [Function.comp_apply, listForm_formId]
  rw [find?_map, hkeys]
  by_cases hd : IsDefault lst
  · have hnone : (lists.filter (¬ IsDefault ·)).find?
        (fun lst' => formIdOf idbase lst' = formIdOf idbase lst) = none := by
      refine find?_eq_none.mpr fun lst' hlst' he => ?_
      obtain ⟨hmem, hsaved⟩ := mem_filter.mp hlst'
      obtain rfl := Keyed.eq_of_key hn hmem hlst (of_decide_eq_true he)
      exact of_decide_eq_true hsaved hd
    rw [if_pos hd, hnone]
    rfl
  · have hsub : ((lists.filter (¬ IsDefault ·)).map (formIdOf idbase)).Nodup :=
      hn.sublist (filter_sublist.map _)
    have hmem : lst ∈ lists.filter (¬ IsDefault ·) :=
      mem_filter.mpr ⟨hlst, decide_eq_true hd⟩
    rw [if_neg hd, Keyed.find_key hsub hmem]
    rfl

theorem comesBack_of_differ {nhr : NumberedReport}
    (differ : (nhr.lists.map (formIdOf nhr.itemIDBase)).Nodup)
    (fits : ∀ lst ∈ nhr.lists, (itemText lst.wtype nhr.itemIDBase).length ≤ 4) :
    ComesBack nhr := by
  refine ⟨differ, fits, fun formId lst hlst => ?_⟩
  have hsaved := saveReport_eq (alloc formId) differ fun pic hpic => by cases hpic
  have hfind : psdFindCfgForm (saveReport [] (alloc formId) nhr).1
      (itemFormId lst.wtype nhr.itemIDBase) =
        if IsDefault lst then none else some (listForm nhr.itemIDBase lst) := by
    rw [saveReport, hsaved]
    exact find_listForm differ hlst
  unfold nLoadItem
  by_cases hd : IsDefault lst
  · rw [if_pos hd] at hfind ⊢
    simp only [hfind]
  · rw [if_neg hd] at hfind ⊢
    simp only [hfind, cfgForms_listForm, loadActions_eq, nil_append]

theorem hexText_length (width n : ℕ) :
    (hexText width n).length = max width (Nat.digits 16 n).length := by
  simp only [hexText, length_append, length_replicate, length_map,
    length_reverse]
  omega

theorem itemText_fits (wtype idbase : ℕ) :
    (itemText wtype idbase).length ≤ 4 ↔ itemNumber wtype idbase < 0x1000 := by
  have hdigits := Nat.digits_length_le_iff (b := 16) (k := 3) (by decide) (itemNumber wtype idbase)
  rw [itemText, length_cons, hexText_length]
  omega

theorem hexText_bytes (width n : ℕ) : ((hexText width n).map fun ch => UInt8.ofNat ch.toNat).map
    (fun byte => Char.ofNat byte.toNat) = hexText width n := by
  rw [map_map]
  refine (map_congr_left fun ch hch => ?_).trans (map_id _)
  obtain ⟨k, hk⟩ := hexText_eq width n
  rw [hk] at hch
  obtain ⟨d, hd, rfl⟩ := mem_map.mp hch
  have hd := hexText_digits hd
  interval_cases d <;> decide

theorem itemText_bytes {wtype : ℕ} (h : itemNumber wtype idbase < 0x1000) :
    (itemText wtype idbase).map (fun ch => UInt8.ofNat ch.toNat) =
      putLong (itemFormId wtype idbase) := by
  have hlen : ((itemText wtype idbase).map fun ch => UInt8.ofNat ch.toNat).length = 4 := by
    have hfits := (itemText_fits wtype idbase).mpr h
    rw [itemText, length_cons, hexText_length] at hfits
    rw [length_map, itemText, length_cons, hexText_length]
    omega
  unfold itemFormId
  generalize (itemText wtype idbase).map (fun ch => UInt8.ofNat ch.toNat) = buf at hlen ⊢
  cases hlong : getLong buf with
  | none =>
    match buf, hlen with
    | [_, _, _, _], _ => cases hlong
  | some n =>
    have := CfgLoad.getLong_putLong_drop hlong
    rw [drop_of_length_le hlen.le, append_nil] at this
    exact this

theorem itemFormId_inj {wtype wtype' : ℕ} (h : itemNumber wtype idbase < 0x1000)
    (h' : itemNumber wtype' idbase < 0x1000)
    (he : itemFormId wtype idbase = itemFormId wtype' idbase) :
    itemNumber wtype idbase = itemNumber wtype' idbase := by
  have hbytes := (itemText_bytes h).trans ((congrArg putLong he).trans (itemText_bytes h').symm)
  refine @hexText_injective 3 _ _ ?_
  have htail := tail_eq_of_cons_eq hbytes
  rw [← hexText_bytes 3 (itemNumber wtype idbase), ← hexText_bytes 3 (itemNumber wtype' idbase)]
  exact congrArg _ htail

section

variable (h : idnum < 2 ^ 16) (lists : List (List NepHidAction))
include h

theorem numberLists_getElem (k : ℕ) : (numberLists idnum lists).1[k]? = lists[k]?.map (⟨uword (idnum + k), ·⟩) := by
  induction lists generalizing idnum k with
  | nil => rfl
  | cons nhas lists ih =>
    cases k with
    | zero => simp [numberLists, uword_of_lt h]
    | succ k =>
      have hnum : uword (uword (idnum + 1) + k) = uword (idnum + (k + 1)) := by
        unfold uword
        omega
      simp only [numberLists, getElem?_cons_succ, ih (uword_lt _), hnum]

theorem numberLists_next :
    (numberLists idnum lists).2 = uword (idnum + lists.length) := by
  induction lists generalizing idnum with
  | nil => exact (uword_of_lt h).symm
  | cons nhas lists ih =>
    simp only [numberLists, ih (uword_lt _), length_cons]
    unfold uword
    omega

theorem numberLists_wtypes :
    (numberLists idnum lists).1.map ActionList.wtype =
      (range lists.length).map fun k => uword (idnum + k) := by
  refine ext_getElem? fun k => ?_
  rw [getElem?_map, numberLists_getElem h, getElem?_map, Option.map_map]
  rcases Nat.lt_or_ge k lists.length with hk | hk
  · rw [getElem?_eq_getElem hk, getElem?_range hk]
    rfl
  · rw [getElem?_eq_none hk, getElem?_eq_none (by simpa using hk)]
    rfl

theorem formIds_numbered :
    (numberLists idnum lists).1.map (formIdOf idnum) =
      (range lists.length).map fun k => itemFormId (uword (idnum + k)) idnum := by
  have hids := congrArg (map fun wtype => itemFormId wtype idnum) (numberLists_wtypes h lists)
  simp only [map_map, Function.comp_def] at hids
  exact hids

end

theorem itemNumber_near {k : ℕ} (h : idnum + k < 2 ^ 16) :
    itemNumber (uword (idnum + k)) idnum = k + 1 := by
  unfold itemNumber ulong ulongSub uword
  omega

theorem itemNumber_far (h : 1 < idnum) (hn : idnum < 2 ^ 16) :
    0x1000 ≤ itemNumber (uword 0x10000) idnum := by
  unfold itemNumber ulong ulongSub uword
  omega

/-- The lists of a report have few enough ids, and the counter does not wrap among them. -/
def Few (idnum count : ℕ) : Prop := count ≤ 0xfff ∧ idnum + count ≤ 0x10000

theorem few_of_small
    (h : ∀ k < count, itemNumber (uword (idnum + k)) idnum < 0x1000) (hn : idnum < 2 ^ 16) :
    Few idnum count := by
  by_contra hmany
  unfold Few at hmany
  by_cases hwrap : idnum + 0xfff < 2 ^ 16 ∧ 0xfff < count
  · have hlast := h 0xfff hwrap.2
    rw [itemNumber_near hwrap.1] at hlast
    exact absurd hlast (by decide)
  · have hover := h (0x10000 - idnum) (by omega)
    rw [show idnum + (0x10000 - idnum) = 0x10000 by omega] at hover
    have hfar := itemNumber_far (show 1 < idnum by omega) hn
    omega

theorem small_of_few {k : ℕ} (h : Few idnum count) (hk : k < count) :
    itemNumber (uword (idnum + k)) idnum = k + 1 ∧ k + 1 < 0x1000 := by
  obtain ⟨hcount, hsum⟩ := h
  exact ⟨itemNumber_near (by omega), by omega⟩

theorem formIds_nodup (h : Few idnum count) :
    ((range count).map fun k => itemFormId (uword (idnum + k)) idnum).Nodup := by
  refine List.Nodup.map_on (fun k hk k' hk' he => ?_) nodup_range
  obtain ⟨hn, hsmall⟩ := small_of_few h (mem_range.mp hk)
  obtain ⟨hn', hsmall'⟩ := small_of_few h (mem_range.mp hk')
  have := itemFormId_inj (hn ▸ hsmall) (hn' ▸ hsmall') he
  omega

theorem comesBack_numbered (h : idnum < 2 ^ 16) (reportID : ℕ)
    (lists : List (List NepHidAction)) :
    ComesBack ⟨reportID, idnum, (numberLists idnum lists).1⟩ ↔ Few idnum lists.length := by
  have hwtypes := numberLists_wtypes h lists
  constructor
  · intro hback
    refine few_of_small (fun k hk => (itemText_fits _ _).mp ?_) h
    have hget := numberLists_getElem h lists k
    rw [getElem?_eq_getElem hk] at hget
    have hfits := hback.fits _ (mem_of_getElem? hget)
    exact hfits
  · intro hfew
    refine comesBack_of_differ ?_ fun lst hlst => (itemText_fits _ _).mpr ?_
    · simp only [formIds_numbered h]
      exact formIds_nodup hfew
    · have hmem := mem_map_of_mem (f := ActionList.wtype) hlst
      rw [hwtypes] at hmem
      obtain ⟨k, hk, he⟩ := mem_map.mp hmem
      obtain ⟨hn, hsmall⟩ := small_of_few hfew (mem_range.mp hk)
      rw [← he, hn]
      exact hsmall

theorem comesBack_extra {reportID : ℕ} {ids : List ℕ} (nhas : ℕ → List NepHidAction)
    (hn : ids.Nodup) (hs : ∀ id ∈ ids, id < 0xfff) :
    ComesBack ⟨reportID, 0xf001, ids.map fun id => nAddItemAction id (nhas id)⟩ := by
  have hnum (id : ℕ) (hid : id ∈ ids) :
      itemNumber (nAddItemAction id (nhas id)).wtype 0xf001 = id + 1 := by
    have hsmall := hs id hid
    have hnear := @itemNumber_near 0xf001 id (by omega)
    rwa [Nat.add_comm] at hnear
  have hlt (id : ℕ) (hid : id ∈ ids) :
      itemNumber (nAddItemAction id (nhas id)).wtype 0xf001 < 0x1000 := by
    have hsmall := hs id hid
    rw [hnum id hid]
    omega
  refine comesBack_of_differ ?_ fun lst hlst => (itemText_fits _ _).mpr ?_
  · rw [List.Nodup, pairwise_map, pairwise_map]
    refine hn.imp_of_mem fun {id id'} hid hid' hne he => hne ?_
    have := itemFormId_inj (hlt id hid) (hlt id' hid') he
    rw [hnum id hid, hnum id' hid'] at this
    exact Nat.succ.inj this
  · obtain ⟨id, hid, rfl⟩ := mem_map.mp hlst
    exact hlt id hid

theorem comesBack_wacom (type : WacomType) (nhas : ℕ → List NepHidAction) :
    ComesBack (nDetectWacom type nhas) :=
  comesBack_extra nhas (by cases type <;> decide) (by cases type <;> decide)

theorem comesBack_added (initial quit : List NepHidAction) :
    ComesBack (nAddExtraReport initial quit) :=
  @comesBack_extra 0xffff [0xff0, 0xff1] (fun id => if id = 0xff0 then initial else quit)
    (by decide) (by decide)

def listCount (nhrs : List NepHidReport) : ℕ := (nhrs.map fun nhr => nhr.lists.length).sum

theorem forall_numbered {P : NumberedReport → Prop} (h : idnum < 2 ^ 16)
    (nhrs : List NepHidReport) : (∀ nhr ∈ numberReports idnum nhrs, P nhr) ↔
      ∀ pre nhr post, nhrs = pre ++ nhr :: post → P ⟨nhr.reportID, uword (idnum + listCount pre),
        (numberLists (uword (idnum + listCount pre)) nhr.lists).1⟩ := by
  induction nhrs generalizing idnum with
  | nil => simp [numberReports]
  | cons nhr nhrs ih =>
    simp only [numberReports, forall_mem_cons, numberLists_next h, ih (uword_lt _)]
    constructor
    · rintro ⟨hhead, htail⟩ pre nhr' post he
      cases pre with
      | nil =>
        obtain ⟨rfl, rfl⟩ := cons.inj he
        rw [listCount, map_nil, sum_nil, Nat.add_zero, uword_of_lt h]
        exact hhead
      | cons first pre =>
        obtain ⟨rfl, hrest⟩ := cons.inj he
        have hsum : uword (uword (idnum + nhr.lists.length) + listCount pre) =
            uword (idnum + listCount (nhr :: pre)) := by
          unfold uword
          rw [show listCount (nhr :: pre) = nhr.lists.length + listCount pre from rfl]
          omega
        have := htail pre nhr' post hrest
        rwa [hsum] at this
    · intro hall
      constructor
      · have := hall [] nhr nhrs rfl
        rwa [listCount, map_nil, sum_nil, Nat.add_zero, uword_of_lt h] at this
      · intro pre nhr' post he
        have hsum : uword (uword (idnum + nhr.lists.length) + listCount pre) =
            uword (idnum + listCount (nhr :: pre)) := by
          unfold uword
          rw [show listCount (nhr :: pre) = nhr.lists.length + listCount pre from rfl]
          omega
        have := hall (nhr :: pre) nhr' post (by rw [he]; rfl)
        rwa [← hsum] at this

def FewLists (nhrs : List NepHidReport) : Prop :=
  ∀ pre nhr post, nhrs = pre ++ nhr :: post →
    Few (uword (1 + listCount pre)) nhr.lists.length

theorem actions_come_back_iff (dev : Device) :
    (∀ nhr ∈ dev.reports, ComesBack nhr) ↔ FewLists dev.declared := by
  have hdeclared : (∀ nhr ∈ nReadReports dev.declared, ComesBack nhr) ↔ FewLists dev.declared := by
    unfold nReadReports FewLists
    rw [forall_numbered (by decide)]
    exact forall_congr' fun pre => forall_congr' fun nhr => forall_congr' fun post =>
      imp_congr_right fun _ => comesBack_numbered (uword_lt _) _ _
  rw [← hdeclared]
  refine ⟨fun hall nhr hnhr => hall nhr ?_, fun hall nhr hnhr => ?_⟩
  · exact mem_append_left _ (mem_append_left _ hnhr)
  · rcases mem_append.mp hnhr with hnhr | hnhr
    · rcases mem_append.mp hnhr with hnhr | hnhr
      · exact hall nhr hnhr
      · obtain ⟨⟨type, nhas⟩, -, rfl⟩ := Option.map_eq_some_iff.mp (Option.mem_toList.mp hnhr)
        exact comesBack_wacom type nhas
    · rw [mem_singleton.mp hnhr]
      exact comesBack_added _ _

theorem collides (h : 0xfff < count) :
    ¬ ((range count).map fun k => itemFormId (uword (1 + k)) 1).Nodup := by
  intro hn
  have hsame : itemFormId 0x1000 1 = itemFormId 0x100 1 := by decide +kernel
  have := @inj_on_of_nodup_map _ _ _ _ hn 0xfff (mem_range.mpr h) 0xff
    (mem_range.mpr (by omega)) hsame
  exact absurd this (by decide)

theorem many_lists_collide {nhr : NepHidReport} (h : 0xfff < nhr.lists.length) :
    ¬ ∀ numbered ∈ (Device.mk [nhr] none [] []).reports,
      (numbered.lists.map (formIdOf numbered.itemIDBase)).Nodup := by
  intro hall
  have hdeclared := (forall_numbered (by decide) [nhr]).mp
    (fun numbered hmem => hall numbered (mem_append_left _ (mem_append_left _ hmem)))
    [] nhr [] rfl
  have hone : (1 : ℕ) < 2 ^ 16 := by decide
  simp only [listCount, map_nil, sum_nil, Nat.add_zero, uword_of_lt hone,
    formIds_numbered hone] at hdeclared
  exact collides h hdeclared

def arrayReport (mapSize : ℕ) : NepHidReport :=
  ⟨0, [[.array [] [] (List.replicate (mapSize - 1) [])]]⟩

theorem arrayReport_lists (mapSize : ℕ) :
    (arrayReport mapSize).lists.length = mapSize - 1 + 2 := by
  simp [arrayReport, NepHidReport.lists, NepHidItem.lists]

/-- The last entry of 4095 has the id of another one. -/
theorem large_array_collides :
    ¬ ∀ numbered ∈ (Device.mk [arrayReport 4095] none [] []).reports,
      (numbered.lists.map (formIdOf numbered.itemIDBase)).Nodup :=
  many_lists_collide (by rw [arrayReport_lists]; decide)

end Neptune.HidSave
