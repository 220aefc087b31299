import Neptune.Proofs.CfgBuffers

/-! Which prefs files are loaded without harm. -/

namespace Neptune.CfgLoad

open List Function

variable {data : List UInt8} {pic subpic : PsdIFFContext} {p len : ℕ} {e : End}

theorem Sound.chunked (h : Sound pic) : Chunked pic.chunks pic.chunksLen := by
  cases h
  assumption

theorem Sound.subForms (h : Sound pic) : ∀ subpic ∈ pic.subForms, Sound subpic := by
  cases h
  assumption

theorem sound_alloc (formId : UInt32) : Sound (.alloc formId) :=
  .mk ⟨[], [], nofun, rfl, rfl, Nat.two_pow_pos 32⟩ nofun

theorem Sound.addSubForm (h : Sound pic) (hsub : Sound subpic) : Sound (pic.addSubForm subpic) := by
  refine .mk h.chunked fun sub hmem => ?_
  rcases mem_append.mp hmem with hmem | hmem
  · exact h.subForms sub hmem
  · exact mem_singleton.mp hmem ▸ hsub

variable {mem : List Bool} {pic' : PsdIFFContext}

theorem Sound.of_chunked (h : Sound pic) (hc : Chunked pic'.chunks pic'.chunksLen)
    (hsub : pic'.subForms = pic.subForms) : Sound pic' :=
  .mk hc fun sub hmem => h.subForms sub (hsub ▸ hmem)

theorem Sound.walks (h : Sound pic) (chnkid : UInt32) :
    (pic.pFindCfgChunk chnkid).isSome ∧ (pic.pRemCfgChunk chnkid).isSome := by
  obtain ⟨found, hfound⟩ := PsdIFFContext.find_chunked h.chunked chnkid
  obtain ⟨pic', hrem, -⟩ := PsdIFFContext.pRemCfgChunk_chunked h.chunked chnkid
  exact ⟨by rw [PsdIFFContext.pFindCfgChunk, hfound]; rfl, by rw [hrem]; rfl⟩

def Fits (pic : PsdIFFContext) (room : ℕ) : Prop := Sound pic ∧ 2 * (pic.chunksLen + room) < 2 ^ 32

theorem addChunks_walked (hw : Walk data p len e) (he : e ≠ .wraps) :
    ∃ enough, ∀ fuel, enough ≤ fuel → ∀ mem pic, Fits pic (data.length - p) →
      ∃ pic' len' mem', addChunks data fuel mem pic p len = some (pic', len', mem') ∧ Sound pic' ∧
        (len' = 0 → e = .done) := by
  induction hw with
  | @stop p len hstop =>
    refine ⟨1, fun fuel hfuel mem pic hpic => ?_⟩
    obtain ⟨fuel, rfl⟩ : ∃ k, fuel = k + 1 := ⟨fuel - 1, by omega⟩
    rw [addChunks, if_neg hstop]
    exact ⟨pic, len, mem, rfl, hpic.1, fun h0 => if_pos h0⟩
  | @chunk p len id length e hgo hid hne hlength hwrap hin hrest ih =>
    obtain ⟨enough, ih⟩ := ih he
    refine ⟨enough + 2, fun fuel hfuel mem pic hpic => ?_⟩
    obtain ⟨fuel, rfl⟩ : ∃ k, fuel = k + 2 := ⟨fuel - 2, by omega⟩
    obtain ⟨hsound, hroom⟩ := hpic
    obtain ⟨pic₁, ok, mem₁, hput, hchunked, hle, hsub⟩ :=
      PsdIFFContext.putChunk_chunked hsound.chunked mem hid hne hlength hwrap hin (by omega)
    have hsound₁ := hsound.of_chunked hchunked hsub
    rw [addChunks, if_pos hgo, pAddCfgChunk, hid]
    simp only [Option.bind_eq_bind, Option.bind_some, hne, if_false, hput, hlength]
    cases ok with
    | false =>
      rw [if_neg nofun]
      exact ⟨pic₁, len, mem₁, rfl, hsound₁, by omega⟩
    | true =>
      rw [if_pos rfl]
      exact ih (fuel + 1) (by omega) mem₁ pic₁ ⟨hsound₁, by omega⟩
  | wraps => exact absurd rfl he
  | @form p len length formId e hgo hid hlength hformId _ _ ihinner ihrest =>
    obtain ⟨enough₁, ihinner⟩ := ihinner nofun
    obtain ⟨enough₂, ihrest⟩ := ihrest he
    refine ⟨enough₁ + enough₂ + 2, fun fuel hfuel mem pic hpic => ?_⟩
    obtain ⟨fuel, rfl⟩ : ∃ k, fuel = k + 2 := ⟨fuel - 2, by omega⟩
    obtain ⟨hsound, hroom⟩ := hpic
    rw [addChunks, if_pos hgo, pAddCfgChunk, hid]
    simp only [Option.bind_eq_bind, Option.bind_some, if_true, hlength, hformId]
    cases hok : (psdAllocVec mem).1 with
    | false =>
      simp only [Bool.false_eq_true, if_false]
      exact ⟨pic, len, _, rfl, hsound, by omega⟩
    | true =>
      obtain ⟨sub, left, mem₁, hadd, hsub, -⟩ :=
        ihinner fuel (by omega) (psdAllocVec mem).2 (.alloc formId) ⟨sound_alloc formId, by simp only [PsdIFFContext.alloc]; omega⟩
      simp only [if_true, hadd, Option.bind_some]
      by_cases hleft : left = 0
      · simp only [hleft, decide_true]
        exact ihrest (fuel + 1) (by omega) mem₁ (pic.addSubForm sub)
          ⟨hsound.addSubForm hsub, by simp only [PsdIFFContext.addSubForm]; omega⟩
      · simp only [hleft, decide_false]
        exact ⟨_, len, mem₁, rfl, hsound.addSubForm hsub, by omega⟩
  | @broken p len length formId e hgo hid hlength hformId _ hbroken ih =>
    obtain ⟨enough, ih⟩ := ih he
    refine ⟨enough + 2, fun fuel hfuel mem pic hpic => ?_⟩
    obtain ⟨fuel, rfl⟩ : ∃ k, fuel = k + 2 := ⟨fuel - 2, by omega⟩
    obtain ⟨hsound, hroom⟩ := hpic
    rw [addChunks, if_pos hgo, pAddCfgChunk, hid]
    simp only [Option.bind_eq_bind, Option.bind_some, if_true, hlength, hformId]
    cases hok : (psdAllocVec mem).1 with
    | false =>
      simp only [Bool.false_eq_true, if_false]
      exact ⟨pic, len, _, rfl, hsound, by omega⟩
    | true =>
      obtain ⟨sub, left, mem₁, hadd, hsub, hdone⟩ :=
        ih fuel (by omega) (psdAllocVec mem).2 (.alloc formId) ⟨sound_alloc formId, by simp only [PsdIFFContext.alloc]; omega⟩
      have hleft : left ≠ 0 := fun h0 => hbroken (hdone h0)
      simp only [if_true, hadd, Option.bind_some, hleft, decide_false]
      exact ⟨_, len, mem₁, rfl, hsound.addSubForm hsub, by omega⟩

theorem expand_enough {need : ℕ} {ok : Bool}
    (h : pic.expand [] need = some (pic', ok, mem)) : ok = true ∧ mem = [] := by
  unfold PsdIFFContext.expand at h
  split at h
  · cases h
    exact ⟨rfl, rfl⟩
  · simp only [psdAllocVec, if_true] at h
    split at h
    · cases h
      exact ⟨rfl, rfl⟩
    · obtain ⟨chunks, -, hr⟩ := Option.bind_eq_some_iff.mp h
      cases hr
      exact ⟨rfl, rfl⟩

theorem putChunk_enough {id : UInt32} {ok : Bool}
    (h : pic.putChunk [] id data p = some (pic', ok, mem)) :
    ok = true ∧ mem = [] ∧ ∃ length, readLong data (p + 4) = some length ∧ p + chunkLen length.toNat ≤ data.length := by
  unfold PsdIFFContext.putChunk at h
  obtain ⟨pic₁, -, h⟩ := Option.bind_eq_some_iff.mp h
  obtain ⟨length, hlength, h⟩ := Option.bind_eq_some_iff.mp h
  obtain ⟨⟨pic₂, ok₂, mem₂⟩, hexpand, h⟩ := Option.bind_eq_some_iff.mp h
  obtain ⟨rfl, rfl⟩ := expand_enough hexpand
  simp only [if_true] at h
  obtain ⟨chunks, hcopy, hr⟩ := Option.bind_eq_some_iff.mp h
  obtain ⟨bytes, hread, -⟩ := Option.bind_eq_some_iff.mp hcopy
  cases hr
  exact ⟨rfl, rfl, length, hlength, (read_length hread).1⟩

theorem addChunks_walk {fuel left : ℕ}
    (h : addChunks data fuel [] pic p len = some (pic', left, mem)) :
    mem = [] ∧ ∃ e, Walk data p len e ∧ (left = 0 → e ≠ .corrupt) ∧ (left ≠ 0 → e ≠ .done) := by
  induction fuel using Nat.strong_induction_on generalizing pic p len left mem pic' with
  | h fuel ih =>
  cases fuel with
  | zero => exact nomatch h
  | succ fuel =>
    rw [addChunks] at h
    by_cases hgo : 8 ≤ len ∧ len < 2 ^ 31
    · rw [if_pos hgo] at h
      obtain ⟨⟨pic₁, ok, mem₁⟩, hadd, h⟩ := Option.bind_eq_some_iff.mp h
      cases fuel with
      | zero => exact nomatch hadd
      | succ fuel =>
        rw [pAddCfgChunk] at hadd
        obtain ⟨id, hid, hadd⟩ := Option.bind_eq_some_iff.mp hadd
        by_cases hform : id = ID_FORM
        · rw [if_pos hform] at hadd
          subst hform
          obtain ⟨length, hlength, hadd⟩ := Option.bind_eq_some_iff.mp hadd
          obtain ⟨formId, hformId, hadd⟩ := Option.bind_eq_some_iff.mp hadd
          simp only [psdAllocVec, if_true] at hadd
          obtain ⟨⟨sub, left₁, mem₂⟩, hinner, hr⟩ := Option.bind_eq_some_iff.mp hadd
          obtain ⟨rfl, e₁, hwalk₁, hdone₁, hleft₁⟩ := ih fuel (by omega) hinner
          cases hr
          by_cases hzero : left₁ = 0
          · rw [decide_eq_true hzero] at h
            obtain ⟨length', hlength', h⟩ := Option.bind_eq_some_iff.mp h
            obtain rfl := Option.some.inj (hlength.symm.trans hlength')
            obtain ⟨hmem, e₂, hwalk₂, hprops⟩ := ih (fuel + 1) (by omega) h
            cases e₁ with
            | done => exact ⟨hmem, e₂, .form hgo hid hlength hformId hwalk₁ hwalk₂, hprops⟩
            | corrupt => exact absurd rfl (hdone₁ hzero)
            | wraps => exact ⟨hmem, .wraps, .broken hgo hid hlength hformId hwalk₁ nofun, nofun, nofun⟩
          · rw [decide_eq_false hzero] at h
            cases h
            exact ⟨rfl, e₁, .broken hgo hid hlength hformId hwalk₁ (hleft₁ hzero), by omega, fun _ => hleft₁ hzero⟩
        · rw [if_neg hform] at hadd
          obtain ⟨rfl, rfl, length, hlength, hin⟩ := putChunk_enough hadd
          obtain ⟨length', hlength', h⟩ := Option.bind_eq_some_iff.mp h
          obtain rfl := Option.some.inj (hlength.symm.trans hlength')
          obtain ⟨hmem, e, hwalk, hprops⟩ := ih (fuel + 1) (by omega) h
          by_cases hwrap : length.toNat + 9 < 2 ^ 32
          · exact ⟨hmem, e, .chunk hgo hid hform hlength hwrap hin hwalk, hprops⟩
          · exact ⟨hmem, .wraps, .wraps hgo hid hform hlength (by omega), nofun, nofun⟩
    · rw [if_neg hgo] at h
      cases h
      refine ⟨rfl, _, .stop hgo, fun hzero => ?_, fun hne => ?_⟩
      · rw [if_pos hzero]
        nofun
      · rw [if_neg hne]
        nofun

variable {formlen : UInt32} {rest : List UInt8}

theorem prefsFile_header : readLong (prefsFile formlen rest) 0 = some ID_FORM ∧
    readLong (prefsFile formlen rest) 4 = some formlen ∧ readLong (prefsFile formlen rest) 8 = some IFFFORM_PSDCFG :=
  ⟨getLong_putLong ID_FORM _, getLong_putLong formlen _, getLong_putLong IFFFORM_PSDCFG _⟩

theorem prefsFile_length : (prefsFile formlen rest).length = 12 + rest.length := by
  simp only [prefsFile, length_append, putLong_length]

section

variable (fuel : ℕ) (mem : List Bool) (root : ConfigRoot) (hlen : 4 ≤ formlen.toNat)
include hlen

theorem psdReadCfg_eq :
    psdReadCfg fuel mem root.pic (prefsFile formlen rest) =
      (addChunks (prefsFile formlen rest) fuel mem { root.pic with subForms := [], chunksLen := 0 } 12
        (evenDown (formlen.toNat - 3))).map fun r => (r.1, decide (r.2.1 = 0)) := by
  obtain ⟨hid, hlength, hformId⟩ : _ ∧ _ ∧ readLong (prefsFile formlen rest) 8 = _ := prefsFile_header
  have hlt := formlen.toNat_lt
  unfold psdReadCfg
  rw [hid, hformId, hlength]
  simp only [Option.bind_eq_bind, Option.bind_some, root.formId, ne_eq, not_true_eq_false, or_self, if_false,
    ulongSub_of_le (show 3 ≤ formlen.toNat by omega) hlt]
  rw [Option.map_eq_bind]
  rfl

theorem pLoadCfgFile_eq (hlt : formlen.toNat + 8 < 2 ^ 32) :
    pLoadCfgFile fuel mem root.pic (prefsFile formlen rest) =
      if (psdAllocVec mem).1 = true ∧ formlen.toNat - 4 < 2 ^ 31 ∧ formlen.toNat - 4 ≤ rest.length then
        (psdReadCfg fuel (psdAllocVec mem).2 root.pic (prefsFile formlen (rest.take (formlen.toNat - 4)))).map
          fun r => (r.1, .ok)
      else some (root.pic, .error) := by
  obtain ⟨hid, hlength, hformId⟩ : _ ∧ _ ∧ readLong (prefsFile formlen rest) 8 = _ := prefsFile_header
  have hsize : ulong (formlen.toNat + 8) = 12 + (formlen.toNat - 4) := by
    rw [ulong, Nat.mod_eq_of_lt hlt]
    omega
  have hsub : ulongSub formlen.toNat 4 = formlen.toNat - 4 := ulongSub_of_le hlen (by omega)
  have hwrite : write (replicate (12 + (formlen.toNat - 4)) 0) 0
      (putLong ID_FORM ++ putLong formlen ++ putLong IFFFORM_PSDCFG) =
        some (putLong ID_FORM ++ putLong formlen ++ putLong IFFFORM_PSDCFG ++ replicate (formlen.toNat - 4) 0) := by
    refine (write_inside [] (by simp only [length_append, putLong_length, length_replicate]; omega)).trans ?_
    simp only [drop_replicate, nil_append, length_append, putLong_length]
    rw [show 12 + (formlen.toNat - 4) - (4 + 4 + 4) = formlen.toNat - 4 by omega]
  unfold pLoadCfgFile
  rw [show getLong (prefsFile formlen rest) = some ID_FORM from hid,
    show getLong ((prefsFile formlen rest).drop 4) = some formlen from hlength,
    show getLong ((prefsFile formlen rest).drop 8) = some IFFFORM_PSDCFG from hformId]
  simp only [and_self, if_true, hsize, hsub, hwrite, Option.bind_eq_bind, Option.bind_some]
  cases hok : (psdAllocVec mem).1 with
  | false => simp
  | true =>
    set n := formlen.toNat - 4 with hn
    have hdrop : (prefsFile formlen rest).drop 12 = rest := rfl
    simp only [hdrop, if_true, true_and]
    by_cases hneg : n < 2 ^ 31
    · have hbuf : write (putLong ID_FORM ++ putLong formlen ++ putLong IFFFORM_PSDCFG ++ replicate n 0) 12
          (rest.take n) = some (prefsFile formlen (rest.take n) ++ (replicate n 0).drop (rest.take n).length) :=
        write_inside (putLong ID_FORM ++ putLong formlen ++ putLong IFFFORM_PSDCFG)
          (by simp only [length_take, length_replicate]; omega)
      have hdos : dosRead rest (putLong ID_FORM ++ putLong formlen ++ putLong IFFFORM_PSDCFG ++ replicate n 0) 12 n =
          some (prefsFile formlen (rest.take n) ++ (replicate n 0).drop (rest.take n).length,
            (rest.take n).length) := by
        rw [dosRead, if_pos hneg, hbuf]
        rfl
      rw [hdos, Option.bind_some]
      by_cases hwhole : n ≤ rest.length
      · have hcount : (rest.take n).length = n := by rw [length_take, Nat.min_eq_left hwhole]
        simp only [hcount, if_true, drop_replicate, Nat.sub_self, replicate_zero, append_nil]
        rw [if_pos ⟨hneg, hwhole⟩, Option.map_eq_bind]
        rfl
      · have hcount : (rest.take n).length ≠ n := by
          rw [length_take]
          omega
        simp only [hcount, if_false]
        rw [if_neg fun h => hwhole h.2]
        rfl
    · have hminus : 2 ^ 32 - 1 ≠ n := by omega
      rw [dosRead, if_neg hneg, Option.bind_some]
      simp only [hminus, if_false]
      rw [if_neg fun h => hneg h.1]
      rfl

end

theorem emptied_fits (root : ConfigRoot) {room : ℕ} (h : 2 * room < 2 ^ 32) :
    Fits { root.pic with subForms := [], chunksLen := 0 } room :=
  ⟨.mk ⟨[], root.pic.chunks, nofun, rfl, rfl, Nat.two_pow_pos 32⟩ nofun, by simpa using h⟩

theorem contained_loads (root : ConfigRoot) (h : Contained formlen rest e) (he : e ≠ .wraps) :
    Loads root (prefsFile formlen rest) := by
  obtain ⟨hlen, hlt, hwalk⟩ := h
  intro mem
  by_cases hread : (psdAllocVec mem).1 = true ∧ formlen.toNat - 4 < 2 ^ 31 ∧ formlen.toNat - 4 ≤ rest.length
  · have hwalk := (hwalk.resolve_left (by omega)).resolve_left (by omega)
    obtain ⟨enough, hall⟩ := addChunks_walked hwalk he
    have hsize : (prefsFile formlen (rest.take (formlen.toNat - 4))).length - 12 = formlen.toNat - 4 := by
      rw [prefsFile_length, length_take]
      omega
    obtain ⟨pic, left, mem', hadd, hsound, -⟩ := hall enough le_rfl (psdAllocVec mem).2 _
      (emptied_fits root (by rw [hsize]; omega))
    refine ⟨enough, pic, .ok, ?_, hsound⟩
    rw [pLoadCfgFile_eq enough mem root hlen hlt, if_pos hread, psdReadCfg_eq _ _ root hlen, hadd]
    rfl
  · exact ⟨0, root.pic, .error, by rw [pLoadCfgFile_eq 0 mem root hlen hlt, if_neg hread], root.sound⟩

theorem loads_room (root : ConfigRoot) (h : Loads root (prefsFile formlen rest)) :
    4 ≤ formlen.toNat ∧ formlen.toNat + 8 < 2 ^ 32 := by
  obtain ⟨fuel, pic, level, hload, -⟩ := h []
  obtain ⟨hid, hlength, hformId⟩ : _ ∧ _ ∧ readLong (prefsFile formlen rest) 8 = _ := prefsFile_header
  unfold pLoadCfgFile at hload
  rw [show getLong (prefsFile formlen rest) = some ID_FORM from hid,
    show getLong ((prefsFile formlen rest).drop 4) = some formlen from hlength,
    show getLong ((prefsFile formlen rest).drop 8) = some IFFFORM_PSDCFG from hformId] at hload
  simp only [and_self, if_true, psdAllocVec] at hload
  obtain ⟨buf, hwrite, -⟩ := Option.bind_eq_some_iff.mp hload
  obtain ⟨hin, -⟩ := Option.ite_none_right_eq_some.mp hwrite
  simp only [length_append, putLong_length, length_replicate, ulong] at hin
  have hlt := formlen.toNat_lt
  omega

theorem loads_contained (root : ConfigRoot) (h : Loads root (prefsFile formlen rest)) : ∃ e, Contained formlen rest e := by
  obtain ⟨hlen, hlt⟩ := loads_room root h
  obtain ⟨fuel, pic, level, hload, -⟩ := h []
  rw [pLoadCfgFile_eq fuel [] root hlen hlt] at hload
  by_cases hread : (psdAllocVec []).1 = true ∧ formlen.toNat - 4 < 2 ^ 31 ∧ formlen.toNat - 4 ≤ rest.length
  · rw [if_pos hread, psdReadCfg_eq _ _ root hlen] at hload
    obtain ⟨r, hcfg, -⟩ := Option.map_eq_some_iff.mp hload
    obtain ⟨⟨pic', left, mem⟩, hadd, -⟩ := Option.map_eq_some_iff.mp hcfg
    obtain ⟨-, e, hwalk, -⟩ := addChunks_walk hadd
    exact ⟨e, hlen, hlt, .inr (.inr hwalk)⟩
  · refine ⟨.done, hlen, hlt, ?_⟩
    have hshort : ¬(formlen.toNat - 4 < 2 ^ 31 ∧ formlen.toNat - 4 ≤ rest.length) := fun hs => hread ⟨rfl, hs⟩
    omega

def freshRoot : ConfigRoot := ⟨.alloc IFFFORM_PSDCFG, rfl, sound_alloc _⟩

def header (length : UInt32) : List UInt8 := putLong 0x4E414D45 ++ putLong length

theorem header_loads_not {length : UInt32} (h : ∀ fuel, addChunks (prefsFile 12 (header length)) fuel []
    { freshRoot.pic with subForms := [], chunksLen := 0 } 12 8 = none) :
    ¬Loads freshRoot (prefsFile 12 (header length)) := by
  intro hloads
  obtain ⟨fuel, pic, level, hload, -⟩ := hloads []
  rw [pLoadCfgFile_eq fuel [] freshRoot (by decide) (by decide), if_pos ⟨rfl, by decide, le_refl 8⟩,
    psdReadCfg_eq _ _ freshRoot (by decide)] at hload
  obtain ⟨r, hcfg, -⟩ := Option.map_eq_some_iff.mp hload
  obtain ⟨r', hadd, -⟩ := Option.map_eq_some_iff.mp hcfg
  exact nomatch (h fuel).symm.trans hadd

theorem long_chunk_none (fuel : ℕ) : addChunks (prefsFile 12 (header 1000)) fuel []
    { freshRoot.pic with subForms := [], chunksLen := 0 } 12 8 = none := by
  match fuel with
  | 0 => rfl
  | 1 => rfl
  | fuel + 2 => rfl

theorem wrapped_chunk_none (fuel : ℕ) : addChunks (prefsFile 12 (header 0xFFFFFFF7)) fuel []
    { freshRoot.pic with subForms := [], chunksLen := 0 } 12 8 = none := by
  induction fuel with
  | zero => rfl
  | succ fuel ih =>
    cases fuel with
    | zero => rfl
    | succ fuel =>
      exact Eq.trans rfl ih

end Neptune.CfgLoad
