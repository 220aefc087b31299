import Neptune.Spec.CfgForm

/-! What `pInternalWriteForm` writes, `psdReadCfg` reads back. The form lengths of all levels agree,
because chunks and forms are of even length. -/

namespace Neptune

open PsdIFFContext List Function

@[simp] theorem putLong_length (n : UInt32) : (putLong n).length = 4 := rfl

theorem getLong_putLong (n : UInt32) (buf : List UInt8) : getLong (putLong n ++ buf) = some n := by
  have hn := n.toNat_lt
  simp only [putLong, cons_append, getLong, Option.some.injEq]
  apply UInt32.toNat_inj.mp
  simp only [UInt32.toNat_ofNat', UInt8.toNat_ofNat']
  omega

theorem chunkLen_eq {n : ℕ} (h : n + 9 < 2 ^ 32) : chunkLen n = 8 + n + n % 2 := by
  unfold chunkLen evenDown ulong
  omega

theorem CfgChunk.bytes_length (chunk : CfgChunk) :
    chunk.bytes.length = 8 + chunk.data.length + chunk.data.length % 2 := by
  simp only [bytes, length_append, putLong_length, chunk.pad_length]

theorem flatMap_length_even (chunks : List CfgChunk) :
    (chunks.flatMap CfgChunk.bytes).length % 2 = 0 := by
  induction chunks with
  | nil => rfl
  | cons chunk chunks ih =>
    rw [flatMap_cons, length_append, chunk.bytes_length]
    omega

theorem write_length (formId : UInt32) (chunks : CfgChunks) (subForms : List PsdIFFContext) :
    (pInternalWriteForm ⟨formId, chunks, subForms⟩).length =
      12 + chunks.bytes.length + (writeSubForms subForms).length := by
  simp only [pInternalWriteForm, length_append, putLong_length]

theorem sum_lengths (chunks : List CfgChunk)
    (h : (chunks.flatMap CfgChunk.bytes).length + 9 < 2 ^ 32) :
    (chunks.map CfgChunk.length).sum = (chunks.flatMap CfgChunk.bytes).length := by
  induction chunks with
  | nil => rfl
  | cons chunk chunks ih =>
    rw [flatMap_cons, length_append] at h ⊢
    rw [map_cons, sum_cons, ih (by omega), CfgChunk.length, chunk.bytes_length]
    rw [chunk.bytes_length] at h
    rw [chunkLen_eq (by omega)]

mutual

theorem write_even (pic : PsdIFFContext) : (pInternalWriteForm pic).length % 2 = 0 := by
  obtain ⟨formId, chunks, subForms⟩ := pic
  have h1 : chunks.bytes.length % 2 = 0 := flatMap_length_even _
  have h2 := writeSubForms_even subForms
  rw [write_length]
  omega

theorem writeSubForms_even (subForms : List PsdIFFContext) :
    (writeSubForms subForms).length % 2 = 0 := by
  match subForms with
  | [] => rfl
  | subpic :: subForms =>
    have h1 := write_even subpic
    have h2 := writeSubForms_even subForms
    rw [writeSubForms, length_append]
    omega

end

mutual

theorem formLength_eq (pic : PsdIFFContext) (h : (pInternalWriteForm pic).length < 2 ^ 32) :
    pic.formLength + 8 = (pInternalWriteForm pic).length := by
  obtain ⟨formId, chunks, subForms⟩ := pic
  rw [write_length] at h ⊢
  have hs := subFormLengths_eq subForms (by omega)
  have hc : (chunks.list.map CfgChunk.length).sum = chunks.bytes.length :=
    sum_lengths chunks.list (by rw [← CfgChunks.bytes]; omega)
  have he : chunks.bytes.length % 2 = 0 := flatMap_length_even _
  simp only [formLength, chunksLen, hs, hc, ulong, evenDown]
  omega

theorem subFormLengths_eq (subForms : List PsdIFFContext)
    (h : (writeSubForms subForms).length < 2 ^ 32) :
    subFormLengths subForms = (writeSubForms subForms).length := by
  match subForms with
  | [] => rfl
  | subpic :: subForms =>
    rw [writeSubForms, length_append] at h ⊢
    have h1 := formLength_eq subpic (by omega)
    have h2 := subFormLengths_eq subForms (by omega)
    rw [subFormLengths, h1, h2]
    simp only [ulong]
    omega

end

def Ample (mem : List Bool) : Prop := ∀ ok ∈ mem, ok = true

theorem psdAllocVec_ample {mem : List Bool} (h : Ample mem) :
    (psdAllocVec mem).1 = true ∧ Ample (psdAllocVec mem).2 := by
  match mem with
  | [] => exact ⟨rfl, h⟩
  | ok :: mem => exact ⟨h ok (by simp), fun ok' hok => h ok' (mem_cons_of_mem _ hok)⟩

/-- Where the call succeeds it leaves the form `pic`, and it does when no allocation fails. -/
def Adds (mem : List Bool) (r : Option (PsdIFFContext × Bool × List Bool)) (pic : PsdIFFContext) :
    Prop :=
  ∃ pic' ok mem', r = some (pic', ok, mem') ∧ (ok = true → pic' = pic) ∧
    (Ample mem → ok = true ∧ Ample mem')

def AddsAll (mem : List Bool) (r : Option (PsdIFFContext × ℕ × List Bool)) (pic : PsdIFFContext) :
    Prop :=
  ∃ pic' len mem', r = some (pic', len, mem') ∧ (len = 0 → pic' = pic) ∧
    (Ample mem → len = 0 ∧ Ample mem')

variable {fuel len : ℕ} {mem : List Bool} {pic pic' old : PsdIFFContext} {buf : List UInt8}

theorem addChunks_round {length : UInt32} (hlen : 8 ≤ len) (hlt : len < 2 ^ 31)
    (h1 : Adds mem (pAddCfgChunk fuel mem pic buf) pic') (hl : getLong (buf.drop 4) = some length)
    (h2 : ∀ mem', AddsAll mem' (addChunks fuel mem' pic' (buf.drop (chunkLen length.toNat))
      (ulongSub len (chunkLen length.toNat))) old) :
    AddsAll mem (addChunks (fuel + 1) mem pic buf len) old := by
  obtain ⟨pic₁, ok, mem₁, hr, ht, ha⟩ := h1
  rw [addChunks, if_pos ⟨hlen, hlt⟩, hr]
  cases ok with
  | false =>
    refine ⟨pic₁, len, mem₁, rfl, fun h => by omega, fun hm => ?_⟩
    exact absurd (ha hm).1 Bool.false_ne_true
  | true =>
    obtain rfl := ht rfl
    obtain ⟨pic₂, len₂, mem₂, hr₂, ht₂, ha₂⟩ := h2 mem₁
    refine ⟨pic₂, len₂, mem₂, ?_, ht₂, fun hm => ha₂ (ha hm).2⟩
    simp only [Option.bind_eq_bind, Option.bind_some, if_true, hl]
    exact hr₂

theorem addChunks_end (mem : List Bool) (pic : PsdIFFContext) (buf : List UInt8) :
    AddsAll mem (addChunks (fuel + 1) mem pic buf 0) pic :=
  ⟨pic, 0, mem, rfl, fun _ => rfl, fun hm => ⟨rfl, hm⟩⟩

theorem chunkAt_bytes (chunk : CfgChunk) (buf : List UInt8) (h : chunk.data.length < 2 ^ 32) :
    chunkAt (chunk.bytes ++ buf) chunk.id (.ofNat chunk.data.length) chunk.not_form = some chunk := by
  have hn : (UInt32.ofNat chunk.data.length).toNat = chunk.data.length := by
    rw [UInt32.toNat_ofNat', Nat.mod_eq_of_lt h]
  have hlen := chunk.bytes_length
  have h8 : (chunk.bytes ++ buf).drop 8 = chunk.data ++ (chunk.pad ++ buf) := by
    simp [CfgChunk.bytes, putLong]
  have hpad : (chunk.bytes ++ buf).drop (8 + chunk.data.length) = chunk.pad ++ buf := by
    rw [← drop_drop, h8, drop_left]
  have hc : 8 + chunk.data.length + chunk.data.length % 2 ≤ (chunk.bytes ++ buf).length := by
    rw [length_append]
    omega
  simp only [chunkAt, hn]
  rw [dif_pos hc]
  congr 1
  have hd : ((chunk.bytes ++ buf).drop 8).take chunk.data.length = chunk.data := by
    rw [h8, take_left]
  have hp : ((chunk.bytes ++ buf).drop (8 + chunk.data.length)).take (chunk.data.length % 2) =
      chunk.pad := by
    rw [hpad, ← chunk.pad_length, take_left]
  cases chunk
  simp only [CfgChunk.mk.injEq, true_and]
  exact ⟨hd, hp⟩

theorem getLong_bytes (chunk : CfgChunk) (buf : List UInt8) :
    getLong (chunk.bytes ++ buf) = some chunk.id ∧
      getLong ((chunk.bytes ++ buf).drop 4) = some (.ofNat chunk.data.length) := by
  simp only [CfgChunk.bytes, append_assoc]
  refine ⟨getLong_putLong _ _, ?_⟩
  exact getLong_putLong (.ofNat chunk.data.length) (chunk.data ++ (chunk.pad ++ buf))

theorem putChunk_adds (mem : List Bool) (pic : PsdIFFContext) (chunk : CfgChunk) :
    Adds mem (some (putChunk mem pic chunk)) { pic with chunks := pic.chunks.put chunk } :=
  ⟨_, _, _, rfl, fun hok => if_pos hok, fun hm => psdAllocVec_ample hm⟩

theorem pAddCfgChunk_chunk (chunk : CfgChunk) (buf : List UInt8)
    (h : chunk.data.length < 2 ^ 32) :
    pAddCfgChunk (fuel + 1) mem pic (chunk.bytes ++ buf) = some (putChunk mem pic chunk) := by
  obtain ⟨h1, h2⟩ := getLong_bytes chunk buf
  rw [pAddCfgChunk, h1]
  simp only [Option.bind_eq_bind, Option.bind_some, h2, dif_neg chunk.not_form,
    chunkAt_bytes chunk buf h]
  rfl

theorem put_list {chunks : CfgChunks} {chunk : CfgChunk}
    (h : chunk.id ∉ chunks.list.map CfgChunk.id) :
    (chunks.put chunk).list = chunks.list ++ [chunk] := by
  have hne : ∀ x ∈ chunks.list, ¬ decide (x.id = chunk.id) = true := fun x hx hc =>
    h (mem_map.mpr ⟨x, hx, by simpa using hc⟩)
  simp only [CfgChunks.put, CfgChunks.rem, eraseP_of_forall_not hne]

theorem addChunks_chunks {len₂ : ℕ} (chunks' : CfgChunks) (list : List CfgChunk)
    (hlist : chunks'.list = pic.chunks.list ++ list)
    (hlt : (list.flatMap CfgChunk.bytes).length + len₂ < 2 ^ 31)
    (hf : (list.flatMap CfgChunk.bytes).length + len₂ < fuel)
    (h : ∀ fuel mem, len₂ < fuel → AddsAll mem
      (addChunks fuel mem { pic with chunks := chunks' } buf len₂) old) :
    AddsAll mem (addChunks fuel mem pic (list.flatMap CfgChunk.bytes ++ buf)
      ((list.flatMap CfgChunk.bytes).length + len₂)) old := by
  induction list generalizing pic fuel mem with
  | nil =>
    obtain ⟨formId, ⟨old, nodup⟩, subForms⟩ := pic
    obtain rfl := hlist.trans (append_nil _)
    have := h fuel mem (by simpa using hf)
    simpa using this
  | cons chunk list ih =>
    have hb := chunk.bytes_length
    rw [flatMap_cons, length_append] at hlt hf ⊢
    rw [append_assoc]
    obtain ⟨fuel, rfl⟩ : ∃ n, fuel = n + 1 + 1 := ⟨fuel - 2, by omega⟩
    have hn : (UInt32.ofNat chunk.data.length).toNat = chunk.data.length := by
      rw [UInt32.toNat_ofNat', Nat.mod_eq_of_lt (by omega)]
    have hnot : chunk.id ∉ pic.chunks.list.map CfgChunk.id := by
      have hnodup := chunks'.nodup
      rw [hlist, map_append, map_cons] at hnodup
      exact fun hm => (nodup_append.mp hnodup).2.2 _ hm _ (by simp) rfl
    have hadd : Adds mem (pAddCfgChunk (fuel + 1) mem pic
        (chunk.bytes ++ (list.flatMap CfgChunk.bytes ++ buf)))
        { pic with chunks := pic.chunks.put chunk } := by
      rw [pAddCfgChunk_chunk chunk _ (by omega)]
      exact putChunk_adds mem pic chunk
    refine addChunks_round (by omega) (by omega) hadd (getLong_bytes chunk _).2 fun mem' => ?_
    rw [hn, chunkLen_eq (by omega), ulongSub_of_le (by omega) (by omega), ← hb, drop_left]
    have hsub : chunk.bytes.length + (list.flatMap CfgChunk.bytes).length + len₂ -
        chunk.bytes.length = (list.flatMap CfgChunk.bytes).length + len₂ := by omega
    rw [hsub]
    apply ih
    · rw [put_list hnot, hlist]
      simp
    · omega
    · omega
    · exact h

theorem body_length (formId : UInt32) (chunks : CfgChunks) (subForms : List PsdIFFContext)
    (h : (pInternalWriteForm ⟨formId, chunks, subForms⟩).length < 2 ^ 32) :
    evenDown (ulongSub (UInt32.ofNat (formLength ⟨formId, chunks, subForms⟩)).toNat 3) =
      chunks.bytes.length + (writeSubForms subForms).length := by
  have hl := formLength_eq _ h
  have h1 : chunks.bytes.length % 2 = 0 := flatMap_length_even _
  have h2 := writeSubForms_even subForms
  rw [write_length] at h hl
  rw [UInt32.toNat_ofNat', Nat.mod_eq_of_lt (by omega), ulongSub_of_le (by omega) (by omega)]
  unfold evenDown
  omega

theorem length_field (subpic : PsdIFFContext) (buf : List UInt8)
    (h : (pInternalWriteForm subpic).length + 1 < 2 ^ 32) :
    getLong ((pInternalWriteForm subpic ++ buf).drop 4) = some (.ofNat subpic.formLength) ∧
      chunkLen (UInt32.ofNat subpic.formLength).toNat = (pInternalWriteForm subpic).length := by
  have hl := formLength_eq subpic (by omega)
  have he := write_even subpic
  constructor
  · obtain ⟨formId, chunks, subForms⟩ := subpic
    rw [pInternalWriteForm]
    simp only [append_assoc]
    exact getLong_putLong _ _
  · rw [UInt32.toNat_ofNat', Nat.mod_eq_of_lt (by omega), chunkLen_eq (by omega)]
    omega

mutual

theorem pAddCfgChunk_form (subpic : PsdIFFContext) (fuel : ℕ) (mem : List Bool)
    (pic : PsdIFFContext) (buf : List UInt8)
    (hlt : (pInternalWriteForm subpic).length < 2 ^ 31)
    (hf : (pInternalWriteForm subpic).length ≤ fuel) :
    Adds mem (pAddCfgChunk fuel mem pic (pInternalWriteForm subpic ++ buf))
      (pic.addSubForm subpic) := by
  obtain ⟨formId, chunks, subForms⟩ := subpic
  have hbody := body_length formId chunks subForms (by omega)
  have hl := write_length formId chunks subForms
  obtain ⟨fuel, rfl⟩ : ∃ n, fuel = n + 1 := ⟨fuel - 1, by omega⟩
  have hread (mem' : List Bool) : AddsAll mem' (addChunks fuel mem' (alloc formId)
      (chunks.bytes ++ (writeSubForms subForms ++ buf))
      (chunks.bytes.length + (writeSubForms subForms).length))
      ⟨formId, chunks, subForms⟩ := by
    have hb : chunks.bytes.length = (chunks.list.flatMap CfgChunk.bytes).length := rfl
    refine addChunks_chunks chunks chunks.list ?_ (by omega) (by omega) fun fuel mem hfuel => ?_
    · rfl
    · exact addChunks_forms subForms fuel mem ⟨formId, chunks, []⟩ buf (by omega) hfuel
  rw [pAddCfgChunk, pInternalWriteForm]
  simp only [append_assoc]
  rw [getLong_putLong]
  have h4 (l : List UInt8) (n : UInt32) : (putLong n ++ l).drop 4 = l := rfl
  have h8 (l : List UInt8) (n m : UInt32) : (putLong n ++ (putLong m ++ l)).drop 8 = l := rfl
  have h12 (l : List UInt8) (n m k : UInt32) :
      (putLong n ++ (putLong m ++ (putLong k ++ l))).drop 12 = l := rfl
  simp only [Option.bind_eq_bind, Option.bind_some, h4, h8, h12, getLong_putLong, dif_pos, hbody]
  have hvec (hm : Ample mem) := psdAllocVec_ample hm
  rcases hv : psdAllocVec mem with ⟨ok, mem₁⟩
  simp only [hv] at hvec
  cases ok with
  | false =>
    refine ⟨pic, false, mem₁, rfl, fun h => absurd h Bool.false_ne_true, fun hm => ?_⟩
    exact absurd (hvec hm).1 Bool.false_ne_true
  | true =>
    obtain ⟨subpic, len, mem₂, hr, ht, ha⟩ := hread mem₁
    refine ⟨pic.addSubForm subpic, len = 0, mem₂, ?_, fun h => ?_, fun hm => ?_⟩
    · simp only [if_true]
      rw [hr]
      rfl
    · rw [ht (by simpa using h)]
    · obtain ⟨h0, hm₂⟩ := ha (hvec hm).2
      exact ⟨by simpa using h0, hm₂⟩

theorem addChunks_forms (subForms : List PsdIFFContext) (fuel : ℕ) (mem : List Bool)
    (pic : PsdIFFContext) (buf : List UInt8)
    (hlt : (writeSubForms subForms).length < 2 ^ 31)
    (hf : (writeSubForms subForms).length < fuel) :
    AddsAll mem (addChunks fuel mem pic (writeSubForms subForms ++ buf)
      (writeSubForms subForms).length) ⟨pic.formId, pic.chunks, pic.subForms ++ subForms⟩ := by
  obtain ⟨fuel, rfl⟩ : ∃ n, fuel = n + 1 := ⟨fuel - 1, by omega⟩
  match subForms with
  | [] =>
    obtain ⟨formId, chunks, subForms⟩ := pic
    have : AddsAll mem (addChunks (fuel + 1) mem ⟨formId, chunks, subForms⟩ buf 0) _ :=
      addChunks_end mem _ buf
    simpa [writeSubForms] using this
  | subpic :: subForms =>
    have hp : 12 ≤ (pInternalWriteForm subpic).length := by
      obtain ⟨formId, chunks, subForms⟩ := subpic
      rw [write_length]
      omega
    rw [writeSubForms, length_append] at hlt hf ⊢
    rw [append_assoc]
    have hform := pAddCfgChunk_form subpic fuel mem pic (writeSubForms subForms ++ buf)
      (by omega) (by omega)
    obtain ⟨hfield, hchunk⟩ := length_field subpic (writeSubForms subForms ++ buf) (by omega)
    refine addChunks_round (by omega) (by omega) hform hfield fun mem' => ?_
    rw [hchunk, ulongSub_of_le (by omega) (by omega), drop_left, Nat.add_sub_cancel_left]
    have := addChunks_forms subForms fuel mem' (pic.addSubForm subpic) buf (by omega)
      (by omega)
    simpa [addSubForm] using this

end

mutual

def footprint : PsdIFFContext → ℕ
  | ⟨_, chunks, subForms⟩ => 48 + chunks.bytes.length + footprints subForms

def footprints : List PsdIFFContext → ℕ
  | [] => 0
  | subpic :: subForms => footprint subpic + footprints subForms

end

mutual

theorem write_lt_footprint (pic : PsdIFFContext) :
    (pInternalWriteForm pic).length < footprint pic := by
  obtain ⟨formId, chunks, subForms⟩ := pic
  have := writeSubForms_le_footprints subForms
  rw [write_length, footprint]
  omega

theorem writeSubForms_le_footprints (subForms : List PsdIFFContext) :
    (writeSubForms subForms).length ≤ footprints subForms := by
  match subForms with
  | [] => exact le_rfl
  | subpic :: subForms =>
    have h1 := write_lt_footprint subpic
    have h2 := writeSubForms_le_footprints subForms
    rw [writeSubForms, length_append, footprints]
    omega

end

def Fits (pic : PsdIFFContext) : Prop := footprint pic + pGetFormLength pic ≤ 2 ^ 32

theorem Fits.length_lt (h : Fits pic) :
    pGetFormLength pic = (pInternalWriteForm pic).length ∧
      (pInternalWriteForm pic).length < 2 ^ 31 := by
  have hw := write_lt_footprint pic
  have hl := formLength_eq pic (by unfold Fits at h; omega)
  have hp : pGetFormLength pic = (pInternalWriteForm pic).length := by
    rw [pGetFormLength, hl]
    exact Nat.mod_eq_of_lt (by unfold Fits at h; omega)
  unfold Fits at h
  omega

/-- A written form fills its buffer, and is read back as it was wherever `psdReadCfg` returns
`TRUE`, which it does when no allocation fails. -/
theorem psdReadCfg_written (hm : Fits pic) (hid : old.formId = pic.formId) :
    (pInternalWriteForm pic).length = pGetFormLength pic ∧
      ∀ fuel mem, (pInternalWriteForm pic).length ≤ fuel →
        ∃ pic' ok mem', psdReadCfg fuel mem old (pInternalWriteForm pic) = some (pic', ok, mem') ∧
          (ok = true → pic' = pic) ∧ (Ample mem → ok = true) := by
  obtain ⟨hlen, hlt⟩ := hm.length_lt
  refine ⟨hlen.symm, fun fuel mem hf => ?_⟩
  obtain ⟨formId, chunks, subForms⟩ := pic
  have hbody := body_length formId chunks subForms (by omega)
  have hl := write_length formId chunks subForms
  have hread : AddsAll mem (addChunks fuel mem (alloc formId)
      (chunks.bytes ++ (writeSubForms subForms ++ []))
      (chunks.bytes.length + (writeSubForms subForms).length))
      ⟨formId, chunks, subForms⟩ := by
    have hb : chunks.bytes.length = (chunks.list.flatMap CfgChunk.bytes).length := rfl
    refine addChunks_chunks chunks chunks.list ?_ (by omega) (by omega) fun fuel mem hfuel => ?_
    · rfl
    · exact addChunks_forms subForms fuel mem ⟨formId, chunks, []⟩ [] (by omega) hfuel
  have h4 (l : List UInt8) (n : UInt32) : (putLong n ++ l).drop 4 = l := rfl
  have h8 (l : List UInt8) (n m : UInt32) : (putLong n ++ (putLong m ++ l)).drop 8 = l := rfl
  have h12 (l : List UInt8) (n m k : UInt32) :
      (putLong n ++ (putLong m ++ (putLong k ++ l))).drop 12 = l := rfl
  obtain ⟨pic', len, mem', hr, ht, ha⟩ := hread
  rw [append_nil] at hr
  refine ⟨pic', len = 0, mem', ?_, fun h => ht (by simpa using h), fun h => ?_⟩
  · rw [psdReadCfg, pInternalWriteForm]
    simp only [append_assoc, getLong_putLong, h4, h8, h12, Option.bind_eq_bind,
      Option.bind_some, hid, ne_eq, not_true_eq_false, or_self, if_false, hbody, hr]
    rfl
  · simpa using (ha h).1

def oddForm : PsdIFFContext :=
  ⟨1, ⟨[⟨2, [65, 66, 0], [0], by decide, rfl⟩], by simp⟩,
    [⟨3, ⟨[⟨2, [67], [9], by decide, rfl⟩], by simp⟩, []⟩]⟩

theorem psdReadCfg_written_oddForm :
    (pInternalWriteForm oddForm).length = pGetFormLength oddForm ∧
      ∀ fuel mem, (pInternalWriteForm oddForm).length ≤ fuel →
        ∃ pic' ok mem', psdReadCfg fuel mem (alloc 1) (pInternalWriteForm oddForm) =
            some (pic', ok, mem') ∧
          (ok = true → pic' = oddForm) ∧ (Ample mem → ok = true) :=
  psdReadCfg_written (by unfold Fits; decide) rfl

end Neptune
