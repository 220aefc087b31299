import Neptune.Proofs.CfgRoundTrip
import Neptune.Spec.CfgLoad

/-! The buffers of sound forms: finding, removing and adding a chunk ends and stays inside them. -/

namespace Neptune.CfgLoad

open List Option

theorem readLong_append (buf rest : List UInt8) : readLong (buf ++ rest) buf.length = getLong rest := by
  rw [readLong, drop_left]

theorem read_append (pre bytes rest : List UInt8) : read (pre ++ bytes ++ rest) pre.length bytes.length = some bytes := by
  rw [read, if_pos (by simp only [length_append]; omega), append_assoc, drop_left, take_left]

theorem write_append (pre old bytes rest : List UInt8) (h : old.length = bytes.length) :
    write (pre ++ old ++ rest) pre.length bytes = some (pre ++ bytes ++ rest) := by
  have hdrop : (pre ++ old ++ rest).drop (pre.length + bytes.length) = rest := by
    rw [← h, ← length_append, drop_left]
  rw [write, if_pos (by simp only [length_append]; omega), hdrop, append_assoc pre old, take_left]

theorem write_inside (pre : List UInt8) {rest bytes : List UInt8} (h : bytes.length ≤ rest.length) :
    write (pre ++ rest) pre.length bytes = some (pre ++ bytes ++ rest.drop bytes.length) := by
  obtain ⟨old, rest', rfl, hold⟩ : ∃ old rest', rest = old ++ rest' ∧ old.length = bytes.length :=
    ⟨rest.take bytes.length, rest.drop bytes.length, (take_append_drop ..).symm, by simpa using h⟩
  rw [← append_assoc, write_append pre old bytes rest' hold, ← hold, drop_left]

theorem read_length {buf bytes : List UInt8} {p n : ℕ} (h : read buf p n = some bytes) :
    p + n ≤ buf.length ∧ bytes.length = n := by
  obtain ⟨hin, hbytes⟩ := ite_none_right_eq_some.mp h
  refine ⟨hin, some.inj hbytes ▸ ?_⟩
  rw [length_take, length_drop]
  omega

def bytesOf (list : List CfgChunk) : List UInt8 := list.flatMap CfgChunk.bytes

def Small (list : List CfgChunk) : Prop := ∀ chunk ∈ list, chunk.data.length + 9 < 2 ^ 32

@[simp] theorem bytesOf_nil : bytesOf [] = [] := rfl

@[simp] theorem bytesOf_cons (chunk : CfgChunk) (list : List CfgChunk) :
    bytesOf (chunk :: list) = chunk.bytes ++ bytesOf list := rfl

@[simp] theorem bytesOf_append (list list' : List CfgChunk) :
    bytesOf (list ++ list') = bytesOf list ++ bytesOf list' := flatMap_append

theorem length_eq {chunk : CfgChunk} (h : chunk.data.length + 9 < 2 ^ 32) : chunk.length = chunk.bytes.length := by
  rw [CfgChunk.length, chunkLen_eq h, chunk.bytes_length]

theorem sum_padded {list : List CfgChunk} (h : Small list) : (list.map CfgChunk.length).sum = (bytesOf list).length := by
  induction list with
  | nil => rfl
  | cons chunk list ih =>
    rw [map_cons, sum_cons, ih fun c hc => h c (.tail _ hc), length_eq (h chunk (.head _)), bytesOf_cons,
      length_append]

theorem chunked_iff {chunks : List UInt8} {chunksLen : ℕ} : Chunked chunks chunksLen ↔
    ∃ list rest, Small list ∧ chunks = bytesOf list ++ rest ∧ chunksLen = (bytesOf list).length ∧ chunksLen < 2 ^ 32 := by
  constructor
  · rintro ⟨list, rest, hsmall, hchunks, hlen, hlt⟩
    exact ⟨list, rest, hsmall, hchunks, hlen.trans (sum_padded hsmall), hlt⟩
  · rintro ⟨list, rest, hsmall, hchunks, hlen, hlt⟩
    exact ⟨list, rest, hsmall, hchunks, hlen.trans (sum_padded hsmall).symm, hlt⟩

theorem readLong_header (pre rest : List UInt8) {chunk : CfgChunk} (h : chunk.data.length + 9 < 2 ^ 32) :
    readLong (pre ++ (chunk.bytes ++ rest)) pre.length = some chunk.id ∧
      ∃ length, readLong (pre ++ (chunk.bytes ++ rest)) (pre.length + 4) = some length ∧
        chunkLen length.toNat = chunk.bytes.length := by
  obtain ⟨hid, hlength⟩ := getLong_bytes chunk rest
  refine ⟨(readLong_append ..).trans hid, .ofNat chunk.data.length, ?_, ?_⟩
  · rw [readLong, ← drop_drop, drop_left, hlength]
  · rw [UInt32.toNat_ofNat', Nat.mod_eq_of_lt (by omega), ← length_eq h, CfgChunk.length]

theorem bytes_pos (chunk : CfgChunk) : 8 ≤ chunk.bytes.length := by
  rw [chunk.bytes_length]
  omega

namespace PsdIFFContext

theorem findLoop_chunks (chnkid : UInt32) {list : List CfgChunk} (pre rest : List UInt8) {fuel : ℕ} (hsmall : Small list)
    (hlt : (bytesOf list).length < 2 ^ 32) (hfuel : list.length < fuel) :
    findLoop (pre ++ (bytesOf list ++ rest)) chnkid fuel pre.length (bytesOf list).length = some none ∨
      ∃ list₁ chunk list₂, list = list₁ ++ chunk :: list₂ ∧ chunk.id = chnkid ∧
        findLoop (pre ++ (bytesOf list ++ rest)) chnkid fuel pre.length (bytesOf list).length =
          some (some (pre.length + (bytesOf list₁).length, (bytesOf (chunk :: list₂)).length)) := by
  induction list generalizing pre fuel with
  | nil =>
    cases fuel with
    | zero => exact absurd hfuel (Nat.not_lt_zero _)
    | succ fuel => exact .inl rfl
  | cons chunk list ih =>
    cases fuel with
    | zero => exact absurd hfuel (Nat.not_lt_zero _)
    | succ fuel =>
      have hpos := bytes_pos chunk
      rw [bytesOf_cons, length_append] at hlt
      obtain ⟨hid, length, hlength, hchlen⟩ := readLong_header pre (bytesOf list ++ rest) (hsmall chunk (.head _))
      rw [bytesOf_cons, append_assoc, length_append]
      unfold findLoop
      rw [if_neg (by omega), hid]
      by_cases hmatch : chunk.id = chnkid
      · refine .inr ⟨[], chunk, list, rfl, hmatch, ?_⟩
        simp [hmatch]
      · simp only [bind_eq_bind, bind_some, hmatch, if_false, hlength, hchlen]
        have hleft : ulongSub (chunk.bytes.length + (bytesOf list).length) chunk.bytes.length = (bytesOf list).length := by
          rw [ulongSub_of_le (by omega) (by omega), Nat.add_sub_cancel_left]
        rw [hleft, ← length_append, ← append_assoc pre]
        rcases ih (pre ++ chunk.bytes) (fun c hc => hsmall c (.tail _ hc)) (by omega) (by simpa using hfuel) with
          hnone | ⟨list₁, found, list₂, hlist, hfound, heq⟩
        · exact .inl hnone
        · refine .inr ⟨chunk :: list₁, found, list₂, by rw [hlist, cons_append], hfound, ?_⟩
          rw [heq]
          simp only [bytesOf_cons, length_append, Nat.add_assoc]

theorem length_le_bytes (list : List CfgChunk) : list.length ≤ (bytesOf list).length := by
  induction list with
  | nil => exact le_rfl
  | cons chunk list ih =>
    have hpos := bytes_pos chunk
    rw [bytesOf_cons, length_append, length_cons]
    omega

variable {pic : PsdIFFContext}

section

variable (h : Chunked pic.chunks pic.chunksLen)
include h

theorem find_chunked (chnkid : UInt32) : ∃ found, pic.find chnkid = some found := by
  obtain ⟨list, rest, hsmall, hchunks, hlen, hlt⟩ := chunked_iff.mp h
  have hle := length_le_bytes list
  unfold find
  rw [hlen, hchunks]
  rcases findLoop_chunks chnkid [] rest hsmall (hlen ▸ hlt)
    (show list.length < (bytesOf list ++ rest).length + 1 by rw [length_append]; omega) with hnone | ⟨_, _, _, _, _, heq⟩
  · exact ⟨_, hnone⟩
  · exact ⟨_, heq⟩

theorem pRemCfgChunk_chunked (chnkid : UInt32) :
    ∃ pic', pic.pRemCfgChunk chnkid = some pic' ∧ Chunked pic'.chunks pic'.chunksLen ∧
      pic'.chunksLen ≤ pic.chunksLen ∧ pic'.subForms = pic.subForms := by
  obtain ⟨list, rest, hsmall, hchunks, hlen, hlt⟩ := chunked_iff.mp h
  have hle := length_le_bytes list
  have hfind := findLoop_chunks chnkid [] rest hsmall (hlen ▸ hlt)
    (show list.length < (bytesOf list ++ rest).length + 1 by rw [length_append]; omega)
  simp only [nil_append, length_nil, Nat.zero_add, ← hchunks, ← hlen] at hfind
  unfold pRemCfgChunk find
  rcases hfind with hnone | ⟨list₁, chunk, list₂, hlist, -, heq⟩
  · exact ⟨pic, by rw [hnone]; rfl, h, le_rfl, rfl⟩
  · have hsmall₁ : Small list₁ := fun c hc => hsmall c (by rw [hlist]; exact mem_append_left _ hc)
    have hsmall₂ : Small list₂ := fun c hc => hsmall c (by rw [hlist]; exact mem_append_right _ (.tail _ hc))
    have hchunk := hsmall chunk (by rw [hlist]; exact mem_append_right _ (.head _))
    -- the buffer, with the chunk in it
    have hsplit : pic.chunks = bytesOf list₁ ++ (chunk.bytes ++ (bytesOf list₂ ++ rest)) := by
      rw [hchunks, hlist, bytesOf_append, bytesOf_cons]
      simp only [append_assoc]
    have htotal : pic.chunksLen = (bytesOf list₁).length + chunk.bytes.length + (bytesOf list₂).length := by
      rw [hlen, hlist, bytesOf_append, bytesOf_cons]
      simp only [length_append, Nat.add_assoc]
    obtain ⟨-, length, hlength, hchlen⟩ := readLong_header (bytesOf list₁) (bytesOf list₂ ++ rest) hchunk
    rw [← hsplit] at hlength
    have hleft : ulongSub (bytesOf (chunk :: list₂)).length chunk.bytes.length = (bytesOf list₂).length := by
      rw [bytesOf_cons, length_append, ulongSub_of_le (by omega) (by omega), Nat.add_sub_cancel_left]
    have hgone : ulongSub pic.chunksLen chunk.bytes.length = (bytesOf list₁).length + (bytesOf list₂).length := by
      rw [ulongSub_of_le (by omega) hlt]
      omega
    rw [heq]
    simp only [bind_eq_bind, bind_some, hlength, hchlen, hleft, hgone]
    by_cases hlast : (bytesOf list₂).length = 0
    · rw [if_pos hlast]
      refine ⟨_, rfl, chunked_iff.mpr ⟨list₁, chunk.bytes ++ (bytesOf list₂ ++ rest), hsmall₁, hsplit, ?_, ?_⟩, ?_, rfl⟩
      · simp only [hlast, Nat.add_zero]
      · simp only
        omega
      · simp only
        omega
    · have hread : read pic.chunks ((bytesOf list₁).length + chunk.bytes.length) (bytesOf list₂).length =
          some (bytesOf list₂) := by
        have hr := read_append (bytesOf list₁ ++ chunk.bytes) (bytesOf list₂) rest
        rwa [length_append, append_assoc, append_assoc, ← hsplit] at hr
      have hwrite : write pic.chunks (bytesOf list₁).length (bytesOf list₂) =
          some (bytesOf list₁ ++ bytesOf list₂ ++ (chunk.bytes ++ (bytesOf list₂ ++ rest)).drop (bytesOf list₂).length) := by
        rw [hsplit]
        exact write_inside _ (by simp only [length_append]; omega)
      rw [if_neg hlast, hread, bind_some, hwrite]
      refine ⟨_, rfl, chunked_iff.mpr ⟨list₁ ++ list₂, _, ?_, by rw [bytesOf_append], ?_, ?_⟩, ?_, rfl⟩
      · intro c hc
        rcases mem_append.mp hc with hc | hc
        · exact hsmall₁ c hc
        · exact hsmall₂ c hc
      · rw [bytesOf_append, length_append]
      · simp only
        omega
      · simp only
        omega

theorem expand_chunked (mem : List Bool) {need : ℕ} (hle : pic.chunksLen ≤ need)
    (hneed : 2 * need < 2 ^ 32) :
    ∃ pic' ok mem', pic.expand mem need = some (pic', ok, mem') ∧ Chunked pic'.chunks pic'.chunksLen ∧
      pic'.chunksLen = pic.chunksLen ∧ pic'.subForms = pic.subForms ∧ (ok = true → need ≤ pic'.chunks.length) := by
  unfold expand
  by_cases hroom : need ≤ pic.chunks.length
  · rw [if_pos hroom]
    exact ⟨pic, true, mem, rfl, h, rfl, rfl, fun _ => hroom⟩
  · rw [if_neg hroom]
    dsimp only
    cases hok : (psdAllocVec mem).1 with
    | false =>
      exact ⟨pic, false, _, rfl, h, rfl, rfl, nofun⟩
    | true =>
      have hsize : ulong (2 * need) = 2 * need := Nat.mod_eq_of_lt hneed
      rw [if_pos rfl, hsize]
      by_cases hempty : pic.chunksLen = 0
      · rw [if_pos hempty]
        refine ⟨_, true, _, rfl, ⟨[], List.replicate (2 * need) 0, nofun, rfl, hempty, hempty ▸ Nat.two_pow_pos 32⟩, rfl, rfl,
          fun _ => ?_⟩
        simp only [length_replicate]
        omega
      · obtain ⟨list, rest, hsmall, hchunks, hlen, hlt⟩ := chunked_iff.mp h
        have hread : read pic.chunks 0 pic.chunksLen = some (bytesOf list) := by
          have hr := read_append [] (bytesOf list) rest
          rwa [nil_append, ← hchunks, ← hlen] at hr
        have hwrite : write (List.replicate (2 * need) 0) 0 (bytesOf list) =
            some ([] ++ bytesOf list ++ (List.replicate (2 * need) 0).drop (bytesOf list).length) :=
          write_inside [] (by rw [length_replicate]; omega)
        rw [if_neg hempty, hread, bind_some, hwrite]
        refine ⟨_, true, _, rfl, chunked_iff.mpr ⟨list, _, hsmall, rfl, hlen, hlt⟩, rfl, rfl, fun _ => ?_⟩
        simp only [nil_append, length_append, length_drop, length_replicate]
        omega

end

end PsdIFFContext

theorem getLong_putLong_drop {buf : List UInt8} {n : UInt32} (h : getLong buf = some n) : buf = putLong n ++ buf.drop 4 := by
  match buf with
  | a :: b :: c :: d :: rest =>
    have ha := a.toNat_lt
    have hb := b.toNat_lt
    have hc := c.toNat_lt
    have hd := d.toNat_lt
    rw [← some.inj h]
    simp only [putLong, cons_append, nil_append, drop_succ_cons, drop_zero, List.cons.injEq, and_true,
      ← UInt8.toNat_inj, UInt8.toNat_ofNat', UInt32.toNat_ofNat']
    omega

theorem chunk_of_data {data : List UInt8} {p : ℕ} {id length : UInt32} (hid : readLong data p = some id)
    (hne : id ≠ ID_FORM) (hlength : readLong data (p + 4) = some length) (hwrap : length.toNat + 9 < 2 ^ 32)
    (hin : p + chunkLen length.toNat ≤ data.length) :
    ∃ chunk : CfgChunk, chunk.data.length = length.toNat ∧ read data p (chunkLen length.toNat) = some chunk.bytes := by
  have hlen := chunkLen_eq hwrap
  rw [hlen] at hin ⊢
  set n := length.toNat with hn
  have hbody : data.drop p = putLong id ++ (putLong length ++ data.drop (p + 8)) := by
    have h4 := getLong_putLong_drop hlength
    have h0 := getLong_putLong_drop hid
    rw [drop_drop] at h0 h4
    rw [h0, h4]
  have hsize : (data.drop (p + 8)).length = data.length - (p + 8) := length_drop
  refine ⟨⟨id, (data.drop (p + 8)).take n, ((data.drop (p + 8)).drop n).take (n % 2), hne, ?_⟩, ?_, ?_⟩
  · simp only [length_take, length_drop]
    omega
  · simp only [length_take, length_drop]
    omega
  · have hlength' : UInt32.ofNat ((data.drop (p + 8)).take n).length = length := by
      rw [length_take, Nat.min_eq_left (by omega), hn]
      exact UInt32.ofNat_toNat
    rw [read, if_pos (by omega), hbody, CfgChunk.bytes]
    rw [hlength', show 8 + n + n % 2 = (putLong id).length + ((putLong length).length + (n + n % 2)) by
      simp only [putLong_length]; omega, take_length_add_append, take_length_add_append, take_add]
    simp only [append_assoc]

namespace PsdIFFContext

variable {pic : PsdIFFContext}

theorem putChunk_chunked (h : Chunked pic.chunks pic.chunksLen) (mem : List Bool) {data : List UInt8} {p : ℕ}
    {id length : UInt32} (hid : readLong data p = some id) (hne : id ≠ ID_FORM)
    (hlength : readLong data (p + 4) = some length) (hwrap : length.toNat + 9 < 2 ^ 32)
    (hin : p + chunkLen length.toNat ≤ data.length) (hneed : 2 * (pic.chunksLen + chunkLen length.toNat) < 2 ^ 32) :
    ∃ pic' ok mem', pic.putChunk mem id data p = some (pic', ok, mem') ∧ Chunked pic'.chunks pic'.chunksLen ∧
      pic'.chunksLen ≤ pic.chunksLen + chunkLen length.toNat ∧ pic'.subForms = pic.subForms := by
  obtain ⟨pic₁, hrem, h₁, hle₁, hsub₁⟩ := pRemCfgChunk_chunked h id
  obtain ⟨chunk, hdata, hread⟩ := chunk_of_data hid hne hlength hwrap hin
  have hsmall : chunk.data.length + 9 < 2 ^ 32 := hdata ▸ hwrap
  have hbytes : chunkLen length.toNat = chunk.bytes.length := by rw [← length_eq hsmall, CfgChunk.length, hdata]
  rw [hbytes] at hread hneed ⊢
  have hulong : ulong (pic₁.chunksLen + chunk.bytes.length) = pic₁.chunksLen + chunk.bytes.length :=
    Nat.mod_eq_of_lt (by omega)
  obtain ⟨pic₂, ok, mem₂, hexpand, h₂, hlen₂, hsub₂, hroom⟩ := expand_chunked h₁ mem
    (show pic₁.chunksLen ≤ pic₁.chunksLen + chunk.bytes.length by omega) (by omega)
  unfold putChunk
  rw [hrem]
  simp only [bind_eq_bind, bind_some, hlength, hbytes, hulong, hexpand]
  cases ok with
  | false =>
    exact ⟨pic₂, false, mem₂, rfl, h₂, by omega, hsub₂.trans hsub₁⟩
  | true =>
    obtain ⟨list, rest, hlist, hchunks, hlen, hlt⟩ := chunked_iff.mp h₂
    have hroom := hroom rfl
    have hwrite : write pic₂.chunks pic₂.chunksLen chunk.bytes =
        some (bytesOf list ++ chunk.bytes ++ rest.drop chunk.bytes.length) := by
      rw [hchunks, hlen]
      refine write_inside _ ?_
      rw [hchunks, length_append] at hroom
      omega
    rw [← hlen₂] at hulong
    rw [if_pos rfl, hread, bind_some, hwrite, hulong]
    refine ⟨_, true, mem₂, rfl, chunked_iff.mpr ⟨list ++ [chunk], rest.drop chunk.bytes.length, ?_, ?_, ?_, ?_⟩, ?_,
      hsub₂.trans hsub₁⟩
    · intro c hc
      rcases mem_append.mp hc with hc | hc
      · exact hlist c hc
      · exact mem_singleton.mp hc ▸ hsmall
    · simp only [bytesOf_append, bytesOf_cons, bytesOf_nil, append_nil]
    · simp only [bytesOf_append, bytesOf_cons, bytesOf_nil, append_nil, length_append, hlen]
    · simp only
      omega
    · simp only
      omega

end PsdIFFContext

end Neptune.CfgLoad
