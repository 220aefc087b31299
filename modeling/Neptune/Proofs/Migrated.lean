import Neptune.Proofs.MigratePass

/-! When the settings are migrated, all of them and once. -/

namespace Neptune.Migrate

open List Option

open PsdIFFContext

theorem lowerCase_ne_zero {c : UInt8} (h : c ≠ 0) : lowerCase c ≠ 0 := by
  unfold lowerCase
  split
  · next hc =>
    intro hz
    have hlo := UInt8.le_iff_toNat_le.mp hc.1
    have hhi := UInt8.le_iff_toNat_le.mp hc.2
    have hz' := congrArg UInt8.toNat hz
    simp only [UInt8.toNat_add, UInt8.reduceToNat] at hlo hhi hz'
    omega
  · exact h

theorem strnicmp_eq_zero (old str : List UInt8) (h : 0 ∉ old) :
    strnicmp str old old.length = 0 ↔ (str.take old.length).map lowerCase = old.map lowerCase := by
  induction old generalizing str with
  | nil => simp [strnicmp]
  | cons d old ih =>
    obtain ⟨hd, hold⟩ := not_or.mp (mt mem_cons.mpr h)
    have hd' := lowerCase_ne_zero (Ne.symm hd)
    cases str with
    | nil =>
      have hpos : (lowerCase d).toNat ≠ 0 := fun hz => hd' (UInt8.toNat_inj.mp hz)
      refine iff_of_false (fun hz => hpos ?_) nofun
      have hno : ¬(lowerCase 0 = lowerCase d ∧ lowerCase 0 ≠ 0) := fun h => h.2 rfl
      have hz' : ((lowerCase 0).toNat : ℤ) - (lowerCase d).toNat = 0 := (if_neg hno).symm.trans hz
      have hzero : (lowerCase 0).toNat = 0 := rfl
      omega
    | cons c str =>
      rw [length_cons, take_succ_cons, map_cons, map_cons, cons.injEq]
      show (if lowerCase c = lowerCase d ∧ lowerCase c ≠ 0 then strnicmp str old old.length
        else ((lowerCase c).toNat : ℤ) - (lowerCase d).toNat) = 0 ↔ _
      by_cases hc : lowerCase c = lowerCase d
      · rw [if_pos ⟨hc, hc ▸ hd'⟩, ih str hold, and_iff_right hc]
      · rw [if_neg fun h => hc h.1]
        have hne : (lowerCase c).toNat ≠ (lowerCase d).toNat := fun h => hc (UInt8.toNat_inj.mp h)
        exact iff_of_false (by omega) fun h => hc h.1

theorem headD_ne {l : List UInt8} (h : ¬(l ≠ [] ∧ l.headD 0 ≠ slash)) : l = [] ∨ l.head? = some slash := by
  cases l with
  | nil => exact .inl rfl
  | cons c l => exact .inr (congrArg some (by simpa using h))

theorem stringAt_append (a b : List UInt8) : (stringAt (a ++ b)).chars =
    if 0 ∈ a then (stringAt a).chars else a ++ (stringAt b).chars := by
  induction a with
  | nil => rfl
  | cons c a ih =>
    simp only [stringAt, cons_append] at ih ⊢
    by_cases hc : c = 0
    · simp [hc]
    · rw [takeWhile_cons_of_pos (by simpa using hc), takeWhile_cons_of_pos (by simpa using hc), ih]
      by_cases ha : 0 ∈ a
      · rw [if_pos ha, if_pos (mem_cons_of_mem c ha)]
      · rw [if_neg ha, if_neg fun h => (mem_cons.mp h).elim (fun h => hc h.symm) ha]

theorem stringAt_of_no_nul {a : List UInt8} (h : 0 ∉ a) : (stringAt a).chars = a :=
  takeWhile_eq_self_iff.mpr fun c hc => by simpa using fun hz : c = 0 => h (hz ▸ hc)

theorem stringAt_data (data more : List UInt8) : ∃ extra, (stringAt (data ++ more)).chars =
    (stringAt data).chars ++ extra ∧ (0 ∈ data → extra = []) := by
  rw [stringAt_append]
  split
  · exact ⟨[], (append_nil _).symm, fun _ => rfl⟩
  · next h => exact ⟨_, by rw [stringAt_of_no_nul h], fun h' => absurd h' h⟩

theorem CString.ext {a b : CString} (h : a.chars = b.chars) : a = b := by
  obtain ⟨chars, _⟩ := a
  obtain ⟨chars', _⟩ := b
  obtain rfl : chars = chars' := h
  rfl

theorem chunkString_stringChunk (chnkid : ChunkId) (str : CString) : chunkString (stringChunk chnkid str) = str := by
  refine CString.ext ?_
  show (stringAt (str.chars ++ [0])).chars = str.chars
  rw [stringAt_append, if_neg str.no_nul]
  exact append_nil _

theorem stringChunk_inj {chnkid : ChunkId} {a b : CString} (h : stringChunk chnkid a = stringChunk chnkid b) : a = b := by
  rw [← chunkString_stringChunk chnkid a, h, chunkString_stringChunk]

section site

variable {behind : PsdIFFContext → List UInt8} {chnkid : ChunkId} {oldp newp : CString} {pic pic' : PsdIFFContext}
  {mem : List Bool} {chunk : CfgChunk}

theorem chunkMemory_none (h : pic.pFindCfgChunk chnkid = none) : chunkMemory behind pic chnkid = none := by
  unfold chunkMemory
  rw [pFindCfgChunk, CfgChunks.find, find?_eq_head?_dropWhile_not] at h
  rw [head?_eq_none_iff.mp h]

theorem chunkMemory_some (behind : PsdIFFContext → List UInt8) (h : pic.pFindCfgChunk chnkid = some chunk) :
    ∃ more, chunkMemory behind pic chnkid = some (chunk.data ++ more) := by
  unfold chunkMemory
  rw [pFindCfgChunk, CfgChunks.find, find?_eq_head?_dropWhile_not] at h
  obtain ⟨chunks, hc⟩ := head?_eq_some_iff.mp h
  rw [hc]
  exact ⟨_, rfl⟩

def Fresh (oldp newp : CString) : Prop := ∀ str, ¬Leads oldp (append newp str)

theorem renamed_ne (hfresh : Fresh oldp newp) (h : Leads oldp (chunkString chunk)) :
    renamed chnkid oldp newp chunk ≠ chunk := by
  intro he
  rw [renamed, if_pos h] at he
  rw [← he, chunkString_stringChunk] at h
  exact hfresh _ h

theorem find_put (c : CfgChunk) (hid : c.id = chnkid.val) :
    ({ pic with chunks := pic.chunks.put c } : PsdIFFContext).pFindCfgChunk chnkid = some c := by
  rw [← hid]
  exact CfgChunks.find_put_self pic.chunks c

theorem migrate_none (h : pic.pFindCfgChunk chnkid = none) :
    pMigrateCfgString behind chnkid oldp newp mem pic = (pic, false, mem) := by
  rw [pMigrateCfgString, chunkMemory_none h]

theorem migrate_other {chnk : List UInt8} (hmem : chunkMemory behind pic chnkid = some chnk)
    (h : ¬Leads oldp (stringAt chnk)) : pMigrateCfgString behind chnkid oldp newp mem pic = (pic, false, mem) := by
  rw [pMigrateCfgString, hmem]
  dsimp only
  split
  · rfl
  · next hcmp =>
    split
    · rfl
    · next hrest =>
      refine absurd ⟨?_, headD_ne hrest⟩ h
      exact (strnicmp_eq_zero _ _ oldp.no_nul).mp (not_not.mp hcmp)

theorem migrate_leads (newp : CString) (mem : List Bool) {chnk : List UInt8} (hmem : chunkMemory behind pic chnkid = some chnk)
    (h : Leads oldp (stringAt chnk)) :
    Enough 3 mem ∧ pMigrateCfgString behind chnkid oldp newp mem pic =
      ({ pic with chunks := pic.chunks.put (stringChunk chnkid (append newp (rest (stringAt chnk) oldp.chars.length))) },
        true, mem.drop 3) ∨
    ¬Enough 3 mem ∧ ((pMigrateCfgString behind chnkid oldp newp mem pic).1 = pic ∨
      (pMigrateCfgString behind chnkid oldp newp mem pic).1 = pic.pRemCfgChunk chnkid) := by
  have hcmp := not_not.mpr ((strnicmp_eq_zero _ (stringAt chnk).chars oldp.no_nul).mpr h.1)
  have hrest : ¬((rest (stringAt chnk) oldp.chars.length).chars ≠ [] ∧
      (rest (stringAt chnk) oldp.chars.length).chars.headD 0 ≠ slash) := by
    rintro ⟨hne, hslash⟩
    rcases h.2 with hnil | hhead
    · exact hne hnil
    · rw [List.headD_eq_head?_getD] at hslash
      exact hslash (congrArg (Option.getD · 0) hhead)
  rw [pMigrateCfgString, hmem]
  dsimp only
  rw [if_neg hcmp, if_neg hrest, enough_succ, enough_succ, enough_succ, drop_succ, drop_succ, drop_succ,
    and_iff_left (enough_zero _), drop_zero]
  cases h1 : (psdAllocVec mem).1
  · exact .inr ⟨fun h => Bool.false_ne_true h.1, .inl rfl⟩
  rw [if_pos rfl, pAddStringChunk]
  dsimp only
  cases h2 : (psdAllocVec (psdAllocVec mem).2).1
  · exact .inr ⟨fun h => Bool.false_ne_true h.2.1, .inl rfl⟩
  rw [if_pos rfl, putChunk]
  dsimp only
  cases h3 : (psdAllocVec (psdAllocVec (psdAllocVec mem).2).2).1
  · exact .inr ⟨fun h => Bool.false_ne_true h.2.2, .inr rfl⟩
  · exact .inl ⟨⟨rfl, rfl, rfl⟩, rfl⟩

theorem allocs_none (h : pic.pFindCfgChunk chnkid = none) : allocs chnkid oldp pic = 0 := by rw [allocs, h]

theorem allocs_leads (h : pic.pFindCfgChunk chnkid = some chunk) (hl : Leads oldp (chunkString chunk)) :
    allocs chnkid oldp pic = 3 := by
  rw [allocs, h]
  exact if_pos hl

theorem allocs_other (h : pic.pFindCfgChunk chnkid = some chunk) (hl : ¬Leads oldp (chunkString chunk)) :
    allocs chnkid oldp pic = 0 := by
  rw [allocs, h]
  exact if_neg hl

theorem rename_none (h : pic.pFindCfgChunk chnkid = none) : rename chnkid oldp newp pic = pic := by rw [rename, h]

theorem rename_other (h : pic.pFindCfgChunk chnkid = some chunk) (hl : ¬Leads oldp (chunkString chunk)) :
    rename chnkid oldp newp pic = pic := by
  rw [rename, h]
  exact if_neg hl

theorem rename_leads (h : pic.pFindCfgChunk chnkid = some chunk) (hl : Leads oldp (chunkString chunk)) :
    rename chnkid oldp newp pic =
      { pic with chunks :=
          pic.chunks.put (stringChunk chnkid (append newp (rest (chunkString chunk) oldp.chars.length))) } := by
  rw [rename, h]
  simp only [if_pos hl, renamed]

def KeepsForm (chnkid : ChunkId) (pic pic' : PsdIFFContext) : Prop :=
  KeepsOthers [chnkid] pic pic' ∧ pic'.subForms = pic.subForms

theorem KeepsForm.refl (chnkid : ChunkId) (pic : PsdIFFContext) : KeepsForm chnkid pic pic :=
  ⟨⟨rfl, fun _ _ => rfl⟩, rfl⟩

theorem keepsForm_put (str : CString) :
    KeepsForm chnkid pic { pic with chunks := pic.chunks.put (stringChunk chnkid str) } := by
  refine ⟨⟨rfl, fun id hid => ?_⟩, rfl⟩
  exact CfgChunks.find_put_ne pic.chunks (stringChunk chnkid str) fun he => hid (by simp [he, stringChunk])

theorem keepsForm_rem : KeepsForm chnkid pic (pic.pRemCfgChunk chnkid) := by
  refine ⟨⟨rfl, fun id hid => ?_⟩, rfl⟩
  exact CfgChunks.find_rem_ne pic.chunks fun he => hid (by simp [he])

theorem migrate_ample (h : Ample mem) : Ample (pMigrateCfgString behind chnkid oldp newp mem pic).2.2 := by
  cases hf : pic.pFindCfgChunk chnkid with
  | none => rwa [migrate_none hf]
  | some chunk =>
    obtain ⟨more, hmem⟩ := chunkMemory_some behind hf
    by_cases hl : Leads oldp (stringAt (chunk.data ++ more))
    · rcases migrate_leads newp mem hmem hl with ⟨-, he⟩ | ⟨hno, -⟩
      · rw [he]
        exact fun ok hok => h ok (mem_of_mem_drop hok)
      · exact absurd (.of_ample h 3) hno
    · rwa [migrate_other hmem hl]

theorem migrate_keeps : KeepsForm chnkid pic (pMigrateCfgString behind chnkid oldp newp mem pic).1 := by
  cases hf : pic.pFindCfgChunk chnkid with
  | none =>
    rw [migrate_none hf]
    exact .refl chnkid pic
  | some chunk =>
    obtain ⟨more, hmem⟩ := chunkMemory_some behind hf
    by_cases hl : Leads oldp (stringAt (chunk.data ++ more))
    · rcases migrate_leads newp mem hmem hl with ⟨-, he⟩ | ⟨-, he | he⟩
      · rw [he]
        exact keepsForm_put _
      · rw [he]
        exact .refl chnkid pic
      · rw [he]
        exact keepsForm_rem
    · rw [migrate_other hmem hl]
      exact .refl chnkid pic

theorem rename_keeps (chnkid : ChunkId) (oldp newp : CString) (pic : PsdIFFContext) : KeepsForm chnkid pic (rename chnkid oldp newp pic) := by
  cases hf : pic.pFindCfgChunk chnkid with
  | none =>
    rw [rename_none hf]
    exact .refl chnkid pic
  | some chunk =>
    by_cases hl : Leads oldp (chunkString chunk)
    · rw [rename_leads hf hl]
      exact keepsForm_put _
    · rw [rename_other hf hl]
      exact .refl chnkid pic

theorem rename_find (chnkid : ChunkId) (oldp newp : CString) (pic : PsdIFFContext) : (rename chnkid oldp newp pic).pFindCfgChunk chnkid =
    (pic.pFindCfgChunk chnkid).map (renamed chnkid oldp newp) := by
  cases hf : pic.pFindCfgChunk chnkid with
  | none => rw [rename_none hf, hf, map_none]
  | some chunk =>
    by_cases hl : Leads oldp (chunkString chunk)
    · rw [rename_leads hf hl, find_put _ rfl, map_some, renamed, if_pos hl]
    · rw [rename_other hf hl, hf, map_some, renamed, if_neg hl]

theorem closed_of_nul {more : List UInt8} (h : 0 ∈ chunk.data) :
    stringAt (chunk.data ++ more) = chunkString chunk := by
  obtain ⟨extra, he, hnil⟩ := stringAt_data chunk.data more
  rw [hnil h, append_nil] at he
  exact CString.ext he

theorem migrate_exact (hfresh : Fresh oldp newp) (hc : Ample mem ∨ Closed behind chnkid oldp pic)
    (hR : Renamed chnkid oldp newp pic (pMigrateCfgString behind chnkid oldp newp mem pic).1) :
    Closed behind chnkid oldp pic ∧ Enough (allocs chnkid oldp pic) mem := by
  cases hf : pic.pFindCfgChunk chnkid with
  | none =>
    rw [allocs_none hf]
    refine ⟨fun _ _ chunk hchunk => ?_, enough_zero mem⟩
    rw [hf] at hchunk
    cases hchunk
  | some chunk =>
    obtain ⟨more, hmem⟩ := chunkMemory_some behind hf
    have hclosed : Closed behind chnkid oldp pic ↔ stringAt (chunk.data ++ more) = chunkString chunk ∨
        ¬Leads oldp (chunkString chunk) ∧ ¬Leads oldp (stringAt (chunk.data ++ more)) := by
      simp [Closed, hf, hmem]
    rw [hclosed] at hc ⊢
    rw [Renamed, hf, map_some] at hR
    by_cases hown : Leads oldp (chunkString chunk)
    · rw [allocs_leads hf hown]
      by_cases hread : Leads oldp (stringAt (chunk.data ++ more))
      · rcases migrate_leads newp mem hmem hread with ⟨henough, he⟩ | ⟨-, he | he⟩
        · refine ⟨.inl ?_, henough⟩
          rw [he, find_put _ rfl, renamed, if_pos hown] at hR
          obtain ⟨extra, hextra, -⟩ := stringAt_data chunk.data more
          have hrest := congrArg CString.chars (stringChunk_inj (some.inj hR))
          have hlen : oldp.chars.length ≤ (chunkString chunk).chars.length := by
            have := congrArg length hown.1
            simp only [length_map, length_take] at this
            omega
          simp only [append, rest, hextra] at hrest
          rw [show (stringAt chunk.data) = chunkString chunk from rfl, drop_append_of_le_length hlen] at hrest
          have hnil : extra = [] := by simpa using hrest
          exact CString.ext (by rw [hextra, hnil, append_nil]; rfl)
        · rw [he, hf] at hR
          exact absurd (some.inj hR).symm (renamed_ne hfresh hown)
        · rw [he] at hR
          have hnone := CfgChunks.find_rem_self pic.chunks chnkid
          exact absurd (hnone.symm.trans hR) (some_ne_none _).symm
      · rw [migrate_other hmem hread, hf] at hR
        exact absurd (some.inj hR).symm (renamed_ne hfresh hown)
    · rw [allocs_other hf hown]
      refine ⟨?_, enough_zero mem⟩
      by_cases hread : Leads oldp (stringAt (chunk.data ++ more))
      · refine hc.elim (fun hample => ?_) id
        rcases migrate_leads newp mem hmem hread with ⟨-, he⟩ | ⟨hno, -⟩
        · rw [he, find_put _ rfl, renamed, if_neg hown] at hR
          refine .inl (closed_of_nul ?_)
          rw [← some.inj hR]
          simp [stringChunk]
        · exact absurd (.of_ample hample 3) hno
      · exact .inr ⟨hown, hread⟩

theorem migrate_run (hc : Closed behind chnkid oldp pic) (hn : Enough (allocs chnkid oldp pic) mem) :
    pMigrateCfgString behind chnkid oldp newp mem pic =
      (rename chnkid oldp newp pic, decide (allocs chnkid oldp pic ≠ 0), mem.drop (allocs chnkid oldp pic)) := by
  cases hf : pic.pFindCfgChunk chnkid with
  | none =>
    rw [migrate_none hf, rename_none hf, allocs_none hf]
    rfl
  | some chunk =>
    obtain ⟨more, hmem⟩ := chunkMemory_some behind hf
    have hread := hc _ hmem chunk hf
    by_cases hown : Leads oldp (chunkString chunk)
    · have hsame := hread.resolve_right fun h => h.1 hown
      rw [allocs_leads hf hown] at hn ⊢
      rcases migrate_leads newp mem hmem (hsame ▸ hown) with ⟨-, he⟩ | ⟨hno, -⟩
      · rw [he, rename_leads hf hown, hsame]
        rfl
      · exact absurd hn hno
    · have hother : ¬Leads oldp (stringAt (chunk.data ++ more)) := hread.elim (fun h => h ▸ hown) And.right
      rw [migrate_other hmem hother, rename_other hf hown, allocs_other hf hown]
      rfl

theorem allocs_eq_zero : allocs chnkid oldp pic = 0 ↔ ∀ chunk ∈ pic.pFindCfgChunk chnkid, ¬Leads oldp (chunkString chunk) := by
  cases hf : pic.pFindCfgChunk chnkid with
  | none => simp [allocs_none hf]
  | some chunk =>
    by_cases hown : Leads oldp (chunkString chunk)
    · simp [allocs_leads hf hown, hown]
    · simp [allocs_other hf hown, hown]

theorem allocs_rename (hfresh : Fresh oldp newp) : allocs chnkid oldp (rename chnkid oldp newp pic) = 0 := by
  refine allocs_eq_zero.mpr fun chunk hchunk => ?_
  rw [rename_find] at hchunk
  obtain ⟨chunk, -, rfl⟩ := map_eq_some_iff.mp hchunk
  unfold renamed
  split
  · rw [chunkString_stringChunk]
    exact hfresh _
  · next h => exact h

theorem rename_still (h : allocs chnkid oldp pic = 0) : rename chnkid oldp newp pic = pic := by
  cases hf : pic.pFindCfgChunk chnkid with
  | none => exact rename_none hf
  | some chunk => exact rename_other hf (allocs_eq_zero.mp h chunk hf)

theorem migrate_sound (hfresh : Fresh oldp newp) :
    Sound (pMigrateCfgString behind chnkid oldp newp) (Renamed chnkid oldp newp) (KeepsForm chnkid)
      (rename chnkid oldp newp) (allocs chnkid oldp) (Closed behind chnkid oldp) where
  run := migrate_run
  exact := migrate_exact hfresh
  right := rename_find chnkid oldp newp
  ample := migrate_ample
  zero {pic} hz := by
    have h := rename_find chnkid oldp newp pic
    rwa [rename_still hz] at h
  still := rename_still
  again _ := allocs_rename hfresh
  keeps _ _ := migrate_keeps
  keepsMade := rename_keeps chnkid oldp newp

theorem only_sound (hfresh : Fresh oldp newp) :
    Sound (pMigrateCfgString behind chnkid oldp newp) (OnlyRenamed chnkid oldp newp) (KeepsForm chnkid)
      (rename chnkid oldp newp) (allocs chnkid oldp) (Closed behind chnkid oldp) := (migrate_sound hfresh).whole

end site

theorem fresh_of_ne {oldp newp : CString} {c d : UInt8} (k : ℕ) (hd : oldp.chars[k]? = some d)
    (hc : newp.chars[k]? = some c) (hne : lowerCase c ≠ lowerCase d) : Fresh oldp newp := by
  rintro str ⟨h, -⟩
  obtain ⟨hk, -⟩ := List.getElem?_eq_some_iff.mp hd
  obtain ⟨hk', -⟩ := List.getElem?_eq_some_iff.mp hc
  have he := congrArg (fun l : List UInt8 => l[k]?) h
  simp only [append, List.getElem?_map, List.getElem?_take_of_lt hk, List.getElem?_append_left hk', hc, hd,
    map_some, some.injEq] at he
  exact hne he

theorem fresh_class : Fresh NEP_OLDCLASSDRAWER NEP_CLASSDRAWER := fresh_of_ne 0 rfl rfl (by decide)

theorem fresh_preset : Fresh NEP_OLDPRESETDRAWER NEP_PRESETDRAWER := fresh_of_ne 18 rfl rfl (by decide)

theorem fresh_owner : Fresh NEP_OLDPREFS_OWNER NEP_PREFS_OWNER := fresh_of_ne 0 rfl rfl (by decide)

section parts

variable {formid formid' : UInt32} {R K : PsdIFFContext → PsdIFFContext → Prop} {n : PsdIFFContext → ℕ}
  {chnkid : ChunkId} {oldp newp : CString}

section

variable (hne : formid ≠ formid') (hR : ∀ {pic pic'}, R pic pic' → pic'.formId = pic.formId)
include hne hR

theorem same_iff {pic pic' b : PsdIFFContext} (h : pic'.formId = pic.formId ∧ (pic.formId ∉ [formid'] → pic' = pic))
    (hb : b.formId = formid) : R b pic' ↔ R b pic := by
  constructor
  · intro hr
    have he : pic.formId = formid := h.1.symm.trans ((hR hr).trans hb)
    rwa [same_of_ne hne h he] at hr
  · intro hr
    rwa [same_of_ne hne h ((hR hr).trans hb)]

theorem each_respects :
    Respects (OthersSame [formid']) (Each formid R) (allocsEach formid n) where
  allocs h := allocsEach_congr hne h
  left h := by
    refine forall₂_congr_left (fun {pic pic'} hp b => ?_) h
    rw [hp.1]
    exact imp_congr_right fun he => by rw [same_of_ne hne hp he]
  right h := forall₂_congr_right (fun hp _ => imp_congr_right fun hb => same_iff hne hR hp hb) h

theorem first_respects :
    Respects (OthersSame [formid']) (First formid R) (allocsFirst formid n) where
  allocs h := by
    induction h with
    | nil => rfl
    | @cons pic pic' _ _ hp _ ih =>
      rw [allocsFirst_cons, allocsFirst_cons, ih, hp.1]
      split
      · next he => rw [same_of_ne hne hp he]
      · rfl
  left h := by
    induction h with
    | nil => exact fun _ => Iff.rfl
    | @cons pic pic' _ _ hp hps ih =>
      intro b
      cases b with
      | nil => rfl
      | cons b bs =>
        rw [First, First, hp.1]
        split
        · next he =>
          have hrest := (each_respects (n := n) hne (R := fun pic pic' => pic' = pic) (fun h => congrArg _ h)).left hps bs
          rw [same_of_ne hne hp he, hrest]
        · exact ih bs
  right h := by
    induction h with
    | nil => exact fun _ => Iff.rfl
    | @cons pic pic' _ _ hp hps ih =>
      intro b
      cases b with
      | nil => rfl
      | cons b bs =>
        rw [First, First]
        split
        · next he =>
          have hrest := (each_respects (n := n) hne (R := fun pic pic' => pic' = pic) (fun h => congrArg _ h)).right hps bs
          rw [same_iff hne hR hp he, hrest]
        · exact ih bs

end

theorem OthersSame.trans {ids ids' : List UInt32} {a b c : List PsdIFFContext} (hab : OthersSame ids a b)
    (hbc : OthersSame ids' b c) : OthersSame (ids ++ ids') a c := by
  induction hab generalizing c with
  | nil =>
    cases hbc
    exact .nil
  | @cons x y _ _ hxy _ ih =>
    obtain _ | ⟨hyz, htail⟩ := hbc
    refine .cons ⟨hyz.1.trans hxy.1, fun hn => ?_⟩ (ih htail)
    rw [mem_append, not_or] at hn
    exact (hyz.2 (hxy.1 ▸ hn.2)).trans (hxy.2 hn.1)

theorem KeepsOthers.trans {ids ids' : List ChunkId} {a b c : PsdIFFContext} (hab : KeepsOthers ids a b)
    (hbc : KeepsOthers ids' b c) : KeepsOthers (ids ++ ids') a c := by
  refine ⟨hbc.1.trans hab.1, fun id hid => ?_⟩
  rw [map_append, mem_append, not_or] at hid
  exact (hbc.2 id hid.2).trans (hab.2 id hid.1)

theorem renamed_congr (newp : CString) {pic pic' : PsdIFFContext} (h : pic'.pFindCfgChunk chnkid = pic.pFindCfgChunk chnkid) :
    allocs chnkid oldp pic' = allocs chnkid oldp pic ∧
      (∀ b, Renamed chnkid oldp newp pic' b ↔ Renamed chnkid oldp newp pic b) ∧
      ∀ b, Renamed chnkid oldp newp b pic' ↔ Renamed chnkid oldp newp b pic := by
  simp only [allocs, Renamed, h, implies_true, and_self]

theorem renamed_respects {K : PsdIFFContext → PsdIFFContext → Prop}
    (h : ∀ {pic pic'}, K pic pic' → pic'.pFindCfgChunk chnkid = pic.pFindCfgChunk chnkid) :
    Respects K (Renamed chnkid oldp newp) (allocs chnkid oldp) where
  allocs hk := (renamed_congr newp (h hk)).1
  left hk := (renamed_congr newp (h hk)).2.1
  right hk := (renamed_congr newp (h hk)).2.2

end parts

variable (behind : PsdIFFContext → List UInt8)

theorem classes_sound :
    Sound (inside (eachForm IFFFORM_USBCLASS (pMigrateCfgString behind IFFCHNK_NAME NEP_OLDCLASSDRAWER NEP_CLASSDRAWER)))
      (fun pic pic' => Each IFFFORM_USBCLASS (OnlyRenamed IFFCHNK_NAME NEP_OLDCLASSDRAWER NEP_CLASSDRAWER) pic.subForms
        pic'.subForms)
      (fun pic pic' => pic'.formId = pic.formId ∧ pic'.chunks = pic.chunks ∧
        OthersSame [IFFFORM_USBCLASS] pic.subForms pic'.subForms)
      renameClasses (fun pic => allocsEach IFFFORM_USBCLASS (allocs IFFCHNK_NAME NEP_OLDCLASSDRAWER) pic.subForms)
      (fun pic => ∀ subpic ∈ pic.subForms, subpic.formId = IFFFORM_USBCLASS →
        Closed behind IFFCHNK_NAME NEP_OLDCLASSDRAWER subpic) :=
  ((only_sound fresh_class).each IFFFORM_USBCLASS fun hk => hk.1.1).inside

theorem sounds_sound :
    Sound (andThen (pMigrateCfgString behind IFFCHNK_INSERTSND NEP_OLDPRESETDRAWER NEP_PRESETDRAWER)
        (pMigrateCfgString behind IFFCHNK_REMOVESND NEP_OLDPRESETDRAWER NEP_PRESETDRAWER))
      (fun pic pic' => Renamed IFFCHNK_INSERTSND NEP_OLDPRESETDRAWER NEP_PRESETDRAWER pic pic' ∧
        Renamed IFFCHNK_REMOVESND NEP_OLDPRESETDRAWER NEP_PRESETDRAWER pic pic')
      (fun pic pic' => KeepsOthers [IFFCHNK_INSERTSND, IFFCHNK_REMOVESND] pic pic' ∧ pic'.subForms = pic.subForms)
      (fun pic => renameRemove (renameInsert pic))
      (fun pic => allocs IFFCHNK_INSERTSND NEP_OLDPRESETDRAWER pic + allocs IFFCHNK_REMOVESND NEP_OLDPRESETDRAWER pic)
      (fun pic => Closed behind IFFCHNK_INSERTSND NEP_OLDPRESETDRAWER pic ∧
        Closed behind IFFCHNK_REMOVESND NEP_OLDPRESETDRAWER (renameInsert pic)) := by
  refine (migrate_sound fresh_preset).andThen _ (migrate_sound fresh_preset) (renamed_respects fun hk => ?_)
    (renamed_respects fun hk => ?_) fun hk hk' => ⟨hk.1.trans hk'.1, hk'.2.trans hk.2⟩
  · exact hk.1.2 _ (by decide)
  · exact hk.1.2 _ (by decide)

theorem stack_sound :
    Sound (migrateStack behind) StackRenamed (fun pic pic' => pic'.formId = pic.formId) renameStack allocsStack
      (ClosedStack behind) := by
  have h := (classes_sound behind).andThen
    (fun pic pic' => KeepsOthers [IFFCHNK_INSERTSND, IFFCHNK_REMOVESND] pic pic' ∧
      OthersSame [IFFFORM_USBCLASS] pic.subForms pic'.subForms)
    (sounds_sound behind)
    { allocs := fun hk => by rw [hk.2]
      left := fun hk b => by rw [hk.2]
      right := fun hk b => by rw [hk.2] }
    { allocs := fun {pic pic'} hk => by simp only [allocs, pFindCfgChunk, hk.2.1]
      left := fun hk b => by simp only [Renamed, pFindCfgChunk, hk.2.1]
      right := fun hk b => by simp only [Renamed, pFindCfgChunk, hk.2.1] }
    fun {a b c} hk hk' => by
      refine ⟨⟨hk'.1.1.trans hk.1, fun id hid => (hk'.1.2 id hid).trans ?_⟩, hk'.2 ▸ hk.2.2⟩
      rw [pFindCfgChunk, pFindCfgChunk, hk.2.1]
  refine (h.whole.congr (fun a b => ?_) fun a => Iff.rfl).weaken fun hk => hk.1.1
  exact ⟨fun ⟨⟨h1, h2, h3⟩, h4, h5⟩ => ⟨h1, h2, h3, h4, h5⟩, fun ⟨h1, h2, h3, h4, h5⟩ => ⟨⟨h1, h2, h3⟩, h4, h5⟩⟩

theorem device_sound :
    Sound (migrateDevice behind) DeviceRenamed (fun pic pic' => pic'.formId = pic.formId) renameDevice allocsDevice
      (ClosedDevice behind) := by
  have howner : ∀ formid, Sound (eachForm formid (migrateOwner behind)) (Each formid OwnerRenamed) (OthersSame [formid])
      (renameEach formid renameOwner) (allocsEach formid allocsOwner)
      (fun pics => ∀ pic ∈ pics, pic.formId = formid → ClosedOwner behind pic) := fun formid =>
    (only_sound fresh_owner).each formid fun hk => hk.1.1
  have h := ((howner IFFFORM_DEVCFGDATA).andThen _ (howner IFFFORM_IFCFGDATA)
    (each_respects (by decide) fun hr => hr.2.1.1) (each_respects (by decide) fun hr => hr.2.1.1)
    OthersSame.trans).inside
  refine (h.whole.congr (fun a b => ?_) fun a => ?_).weaken fun hk => hk.1
  · exact ⟨fun ⟨⟨h1, h2⟩, h3, h4, h5⟩ => ⟨h1, h2, h3, h4, h5⟩, fun ⟨h1, h2, h3, h4, h5⟩ => ⟨⟨h1, h2⟩, h3, h4, h5⟩⟩
  · -- the first loop leaves the forms of the second
    constructor
    · rintro ⟨h1, h2⟩ pic hpic (hid | hid)
      · exact h1 pic hpic hid
      · refine h2 pic (mem_map.mpr ⟨pic, hpic, if_neg ?_⟩) hid
        rw [hid]
        decide
    · intro hc
      refine ⟨fun pic hpic hid => hc pic hpic (.inl hid), fun pic hpic hid => ?_⟩
      obtain ⟨pic', hpic', rfl⟩ := mem_map.mp hpic
      split at hid
      · next he =>
        have hsame := (rename_keeps IFFCHNK_OWNER NEP_OLDPREFS_OWNER NEP_PREFS_OWNER pic').1.1
        exact absurd (he.symm.trans (hsame.symm.trans hid)) (by decide)
      · next he =>
        rw [if_neg he]
        exact hc pic' hpic' (.inr hid)

theorem renameFirst_mem {formid formid' : UInt32} {f : PsdIFFContext → PsdIFFContext} {P : PsdIFFContext → Prop}
    (hne : formid' ≠ formid) (hf : ∀ pic, (f pic).formId = pic.formId) (pics : List PsdIFFContext) :
    (∀ pic ∈ renameFirst formid f pics, pic.formId = formid' → P pic) ↔ ∀ pic ∈ pics, pic.formId = formid' → P pic := by
  induction pics with
  | nil => rfl
  | cons pic pics ih =>
    rw [renameFirst]
    split
    · next he =>
      rw [forall_mem_cons, forall_mem_cons, hf, he]
      exact and_congr_left fun _ => iff_of_true (fun h => absurd h.symm hne) fun h => absurd h.symm hne
    · rw [forall_mem_cons, forall_mem_cons, ih]

theorem cfg_sound :
    Sound (pMigrateCfg behind) CfgRenamed (fun pic pic' => pic'.formId = pic.formId) renameCfg allocsCfg
      (ClosedCfg behind) := by
  have h := (((stack_sound behind).first IFFFORM_STACKCFG id).andThen _ ((device_sound behind).each IFFFORM_DEVICECFG id)
    (first_respects (by decide) fun hr => hr.2.2.2.1.1) (each_respects (by decide) fun hr => hr.2.2.1)
    OthersSame.trans).inside
  refine (h.whole.congr (fun a b => ?_) fun a => ?_).weaken fun hk => hk.1
  · exact ⟨fun ⟨⟨h1, h2⟩, h3, h4, h5⟩ => ⟨h1, h2, h3, h4, h5⟩, fun ⟨h1, h2, h3, h4, h5⟩ => ⟨⟨h1, h2⟩, h3, h4, h5⟩⟩
  · exact and_congr_right fun _ => renameFirst_mem (by decide) (stack_sound behind).keepsMade a.subForms

/-- All is renamed once where every string ends in its chunk, or cannot be taken for one with the old name, and no
allocation fails. With no failing allocations there is no other way. -/
theorem migrates_iff (behind behind' : PsdIFFContext → List UInt8) (mem : List Bool) (root : PsdIFFContext)
    (h : Ample mem ∨ ClosedTwice behind behind' root) :
    Migrates behind behind' mem root ↔ ClosedTwice behind behind' root ∧ Enough (allocsCfg root) mem := by
  have hsound := cfg_sound behind
  have hsound' := cfg_sound behind'
  constructor
  · rintro ⟨hR, hsame, -⟩
    obtain ⟨hcl, hn⟩ := hsound.exact (h.imp_right And.left) hR
    have hrun := hsound.run hcl hn
    rw [hrun] at hsame
    have hample : Ample (mem.drop (allocsCfg root)) ∨ ClosedCfg behind' (renameCfg root) :=
      h.imp (fun hm ok hok => hm ok (mem_of_mem_drop hok)) And.right
    refine ⟨⟨hcl, (hsound'.exact hample ?_).1⟩, hn⟩
    rw [hsame]
    exact hsound'.zero (hsound'.again root)
  · rintro ⟨⟨hcl, hcl'⟩, hn⟩
    have hrun := hsound.run hcl hn
    have hzero := hsound.again root
    have hnone : Enough (allocsCfg (renameCfg root)) (mem.drop (allocsCfg root)) := hzero ▸ enough_zero _
    have hrun' := hsound'.run hcl' hnone
    rw [hsound.still hzero, hzero] at hrun'
    unfold Migrates
    rw [hrun]
    dsimp only
    rw [hrun']
    exact ⟨hsound.right root, rfl, rfl⟩

def classCfg (data : List UInt8) (pad : List UInt8) (h : pad.length = data.length % 2) : PsdIFFContext :=
  ⟨IFFFORM_PSDCFG, .empty, [⟨IFFFORM_STACKCFG, .empty,
    [⟨IFFFORM_USBCLASS, .put .empty ⟨IFFCHNK_NAME, data, pad, fun h => absurd h (by decide), h⟩, []⟩]⟩]⟩

def oldPath : List UInt8 := NEP_OLDCLASSDRAWER.chars ++ ascii ['/', 'h', 's', '.', 'c', 'l', 'a', 's', 's']

theorem migrates_iff_terminated :
    Migrates (fun _ => []) (fun _ => []) [] (classCfg (oldPath ++ [0]) [0] rfl) ↔
      ClosedTwice (fun _ => []) (fun _ => []) (classCfg (oldPath ++ [0]) [0] rfl) ∧
        Enough (allocsCfg (classCfg (oldPath ++ [0]) [0] rfl)) [] :=
  migrates_iff _ _ [] _ (.inl nofun)

/-- What stands behind a path without a NUL becomes part of it. -/
theorem path_runs_on : ¬Migrates (fun _ => [0x78]) (fun _ => []) [] (classCfg oldPath [] rfl) := by
  rintro ⟨hR, -⟩
  have hample : Ample [] := nofun
  have hcl := ((cfg_sound _).exact (.inl hample) hR).1
  have hname := (hcl.1 _ rfl).1 _ (mem_singleton.mpr rfl) rfl _ rfl _ rfl
  revert hname
  decide

end Neptune.Migrate
