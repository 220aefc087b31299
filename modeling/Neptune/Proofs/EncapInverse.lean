import Neptune.Spec.CdcEncap

/-! What is put into a block is read from it, whatever stands behind the block and however many blocks of EEM
follow one another. Whatever comes in, the receive loops stay inside of it. -/

namespace Neptune.CdcEth

open List Option

open Fields

variable {ncp ncp' : NepClassEth} {buf payload b : List UInt8} {n len total : ℕ}

theorem and_align (h : n < 2 ^ 32) : n &&& (2 ^ 32 - 1 - (4 - 1)) = n / 4 * 4 := by
  have hdiv : n / 4 * 4 = (n >>> 2) <<< 2 := by rw [Nat.shiftRight_eq_div_pow, Nat.shiftLeft_eq]
  rw [hdiv]
  apply Nat.eq_of_testBit_eq
  intro i
  have hmask : (2 ^ 32 - 1 - (4 - 1) : ℕ) = (2 ^ 30 - 1) <<< 2 := by decide
  rw [hmask, Nat.testBit_and, Nat.testBit_shiftLeft, Nat.testBit_shiftLeft, Nat.testBit_shiftRight,
    Nat.testBit_two_pow_sub_one]
  by_cases hlow : i ≥ 2
  · rw [show 2 + (i - 2) = i by omega]
    by_cases hhigh : i < 32
    · simp [hlow, show i - 2 < 30 by omega]
    · have hzero : n.testBit i = false :=
        Nat.testBit_lt_two_pow (Nat.lt_of_lt_of_le h (Nat.pow_le_pow_right (by decide) (Nat.not_lt.mp hhigh)))
      simp [hzero]
  · simp [hlow]

theorem align_eq (h : n + 3 < 2 ^ 32) : cdcethAlign n 4 = (n + 3) / 4 * 4 := by
  have hlong : ulong (n + (4 - 1)) = n + 3 := Nat.mod_eq_of_lt h
  unfold cdcethAlign
  rw [hlong]
  exact and_align h

theorem ndpOffset_eq : ndpOffset = 12 := align_eq (by decide)

theorem ulong_eq (h : n < 2 ^ 32) : ulong n = n := Nat.mod_eq_of_lt h

theorem and_eemLenMask : n &&& eemLenMask = n % 2 ^ 14 := Nat.and_two_pow_sub_one_eq_mod n 14

theorem and_bit {i : ℕ} (h : n < 2 ^ i) : n &&& 2 ^ i = 0 := by
  apply Nat.eq_of_testBit_eq
  intro j
  rw [Nat.testBit_and, Nat.testBit_two_pow, Nat.zero_testBit]
  by_cases hj : i = j
  · subst hj
    rw [Nat.testBit_lt_two_pow h, Bool.false_and]
  · rw [decide_eq_false hj, Bool.and_false]

theorem layout_eem (h : len ≤ eemLenMask) : layout .eem len = some (2, (len + 5) / 4 * 4) := by
  have hlen : len ≤ 0x3fff := h
  unfold layout
  dsimp only
  rw [if_neg (Nat.not_lt.mpr h), ulong_eq (show eemHeaderLen + len < 2 ^ 32 by unfold eemHeaderLen; omega)]
  have halign : cdcethAlign (eemHeaderLen + len) eemAlign = (2 + len + 3) / 4 * 4 := align_eq (show 2 + len + 3 < _ by omega)
  rw [halign, show 2 + len + 3 = len + 5 by omega]
  rfl

theorem layout_ncm (h : len + 31 < 2 ^ 32) : layout .ncm len = some (28, (len + 31) / 4 * 4) := by
  have hoffset : cdcethAlign (ulong (ndpOffset + ndpLen)) ncmAlign = 28 := by
    rw [ndpOffset_eq]
    exact align_eq (by decide)
  unfold layout
  dsimp only
  rw [hoffset, ulong_eq (show 28 + len < 2 ^ 32 by omega)]
  have halign : cdcethAlign (28 + len) ncmAlign = (28 + len + 3) / 4 * 4 := align_eq (show 28 + len + 3 < _ by omega)
  rw [halign, show 28 + len + 3 = len + 31 by omega]

theorem prepare_some {size offset : ℕ} (hpos : 0 < len) (h : cdcethPrepareTx ncp len size = some (offset, total)) :
    layout ncp.encapType len = some (offset, total) ∧ total ≤ size := by
  unfold cdcethPrepareTx at h
  obtain ⟨⟨o, t⟩, hlayout, h⟩ := bind_eq_some_iff.mp h
  dsimp only at h
  split at h
  · exact absurd h nofun
  · next hfits =>
    obtain ⟨rfl, rfl⟩ := Prod.mk.inj (some.inj h)
    exact ⟨hlayout, Nat.not_lt.mp fun ht => hfits ⟨hpos, ht⟩⟩

theorem block_some (h : block ncp buf payload = some (ncp', b, total)) (hpos : 0 < payload.length) :
    ∃ offset, layout ncp.encapType payload.length = some (offset, total) ∧ total ≤ ncp.writeBufSize ∧
      b = (cdcethFinalizeTx ncp (put buf offset payload) offset payload.length total).2 := by
  unfold block at h
  obtain ⟨⟨offset, t⟩, hprepare, h⟩ := bind_eq_some_iff.mp h
  obtain ⟨hlayout, hfits⟩ := prepare_some hpos hprepare
  obtain ⟨rfl, hb⟩ := Prod.mk.inj (some.inj h)
  obtain ⟨rfl, rfl⟩ := Prod.mk.inj hb
  exact ⟨offset, hlayout, hfits, rfl⟩

def eemBlock (payload : List UInt8) : List UInt8 :=
  bytes 2 payload.length ++ (payload ++ List.replicate ((payload.length + 5) / 4 * 4 - (payload.length + 2)) 0)

theorem length_eemBlock (payload : List UInt8) : (eemBlock payload).length = (payload.length + 5) / 4 * 4 := by
  unfold eemBlock
  rw [length_append, length_append, length_bytes, length_replicate]
  omega

theorem eem_block (hencap : ncp.encapType = .eem) (hbuf : buf.length = ncp.writeBufSize) (hpos : 0 < payload.length)
    (h : block ncp buf payload = some (ncp', b, total)) :
    payload.length ≤ eemLenMask ∧ b.take total = eemBlock payload ∧ total = (eemBlock payload).length := by
  obtain ⟨offset, hlayout, hfits, rfl⟩ := block_some h hpos
  rw [hencap] at hlayout
  by_cases hmask : payload.length ≤ eemLenMask
  · rw [layout_eem hmask] at hlayout
    obtain ⟨rfl, rfl⟩ := Prod.mk.inj (some.inj hlayout)
    refine ⟨hmask, ?_, (length_eemBlock payload).symm⟩
    have hlen : payload.length ≤ 0x3fff := hmask
    have hroom : 2 + payload.length ≤ buf.length := by omega
    have hheader : uword (payload.length &&& eemLenMask) = payload.length := by
      rw [and_eemLenMask, Nat.mod_eq_of_lt (by omega)]
      exact uword_of_lt (by omega)
    have hlast : ulong (2 + payload.length) = payload.length + 2 := by
      rw [ulong_eq (by omega), Nat.add_comm]
    -- the header goes before the payload
    have hput : put (put buf 2 payload) 0 (bytes 2 payload.length) =
        (bytes 2 payload.length ++ payload) ++ buf.drop (2 + payload.length) := by
      unfold put
      simp only [take_zero, nil_append, length_bytes, Nat.zero_add, append_assoc]
      rw [drop_left' (length_take_of_le (by omega))]
    have hlength : (bytes 2 payload.length ++ payload).length = payload.length + 2 := by
      rw [length_append, length_bytes, Nat.add_comm]
    unfold cdcethFinalizeTx
    rw [hencap]
    dsimp only
    rw [hheader, hlast, hput]
    by_cases hpad : (payload.length + 5) / 4 * 4 > payload.length + 2
    · rw [if_pos hpad, ← hlength, put_append, hlength, ← append_assoc]
      rw [take_left' (by rw [length_append, hlength, length_replicate]; omega)]
      unfold eemBlock
      rw [append_assoc]
    · rw [if_neg hpad]
      rw [take_left' (by rw [hlength]; omega)]
      unfold eemBlock
      rw [show (payload.length + 5) / 4 * 4 - (payload.length + 2) = 0 by omega]
      rw [replicate_zero, append_nil]
  · unfold layout at hlayout
    dsimp only at hlayout
    rw [if_pos (Nat.not_le.mp hmask)] at hlayout
    exact absurd hlayout nofun

theorem eemLoop_block {pre : List UInt8} {pktlen : ℕ} (post : List UInt8) (fuel : ℕ) (hpos : etherHeaderLen ≤ payload.length)
    (hmask : payload.length ≤ eemLenMask) (hpre : pre.length % 4 = 0)
    (hpktlen : pre.length + (eemBlock payload).length ≤ pktlen) (hlong : pktlen < 2 ^ 32) :
    eemLoop (pre ++ (eemBlock payload ++ post)) pktlen (fuel + 1) pre.length =
      (eemLoop (pre ++ (eemBlock payload ++ post)) pktlen fuel (pre.length + (eemBlock payload).length)).map
        (Rx.append ⟨[(payload, payload.length)], 0⟩) := by
  have hlen : payload.length ≤ 0x3fff := hmask
  have hmin : 14 ≤ payload.length := hpos
  rw [length_eemBlock] at hpktlen ⊢
  have hword : word (pre ++ (eemBlock payload ++ post)) pre.length = payload.length := by
    have hget := get_append pre (bytes 2 payload.length)
      ((payload ++ List.replicate ((payload.length + 5) / 4 * 4 - (payload.length + 2)) 0) ++ post)
    rw [length_bytes, ← append_assoc (bytes 2 payload.length)] at hget
    unfold word eemBlock
    rw [hget]
    exact value_bytes_of_lt (by omega)
  have hpayload : get (pre ++ (eemBlock payload ++ post)) (pre.length + 2) payload.length = payload := by
    have hget := get_append (pre ++ bytes 2 payload.length) payload
      (List.replicate ((payload.length + 5) / 4 * 4 - (payload.length + 2)) 0 ++ post)
    rw [length_append, length_bytes] at hget
    unfold eemBlock
    simpa only [append_assoc] using hget
  generalize pre ++ (eemBlock payload ++ post) = mem at *
  have hmod : payload.length &&& eemLenMask = payload.length := by
    rw [and_eemLenMask]
    exact Nat.mod_eq_of_lt (by omega)
  have hcommand : payload.length &&& 0x8000 = 0 := and_bit (i := 15) (by omega)
  have hcrc : payload.length &&& 0x4000 = 0 := and_bit (i := 14) (by omega)
  have hnext : cdcethAlign (ulong (ulong (pre.length + 2) + payload.length)) eemAlign =
      pre.length + (payload.length + 5) / 4 * 4 := by
    rw [ulong_eq (show pre.length + 2 < _ by omega), ulong_eq (by omega)]
    exact (align_eq (by omega)).trans (by omega)
  rw [eemLoop]
  dsimp only
  rw [hword, hmod, hcommand, hcrc, hnext, if_pos (by rw [ulong_eq (by omega)]; omega), if_neg (by omega),
    if_neg (by rw [ulong_eq (show pre.length + 2 < _ by omega), ulong_eq (by omega)]; omega), if_neg (by simp),
    if_neg (by simp), ulong_eq (show pre.length + 2 < _ by omega)]
  unfold deliver
  rw [if_pos hpos, hpayload]

/-- A loop that takes a block off in each round has passed on all of them when it ends. -/
theorem loop_blocks {β : Type} {bs : List β} {loop : ℕ → ℕ → Option Rx} {mem : List UInt8} {stop : ℕ}
    (bytes : β → List UInt8) (rx : β → Rx) (post : List UInt8)
    (hstep : ∀ b ∈ bs, ∀ pre post fuel, pre ++ (bytes b ++ post) = mem → pre.length % 4 = 0 →
      pre.length + (bytes b).length ≤ stop →
      loop (fuel + 1) pre.length = (loop fuel (pre.length + (bytes b).length)).map (rx b).append)
    (haligned : ∀ b ∈ bs, (bytes b).length % 4 = 0)
    (hend : stop % 4 = 0 → ∀ fuel, loop (fuel + 1) stop = some .none) (pre : List UInt8) (fuel : ℕ)
    (hmem : pre ++ ((bs.map bytes).flatten ++ post) = mem) (hpre : pre.length % 4 = 0)
    (hstop : pre.length + (bs.map bytes).flatten.length = stop) (hfuel : bs.length < fuel) :
    loop fuel pre.length = some ⟨bs.flatMap fun b => (rx b).packets, (bs.map fun b => (rx b).badData).sum⟩ := by
  induction bs generalizing pre fuel with
  | nil =>
    obtain ⟨fuel, rfl⟩ := Nat.exists_eq_add_of_lt hfuel
    obtain rfl : pre.length = stop := hstop
    exact hend hpre _
  | cons b bs ih =>
    obtain ⟨fuel, rfl⟩ := Nat.exists_eq_add_of_lt (Nat.lt_of_le_of_lt (Nat.zero_le _) hfuel)
    rw [map_cons, flatten_cons, append_assoc] at hmem
    rw [map_cons, flatten_cons, length_append] at hstop
    have hb := haligned b mem_cons_self
    have hrest := ih (fun c hc => hstep c (mem_cons_of_mem b hc)) (fun c hc => haligned c (mem_cons_of_mem b hc))
      (pre ++ bytes b) fuel (by rw [append_assoc, hmem]) (by rw [length_append]; omega)
      (by rw [length_append]; omega) (by rw [length_cons] at hfuel; omega)
    rw [length_append] at hrest
    rw [Nat.zero_add, hstep b mem_cons_self pre _ fuel hmem hpre (by omega), hrest]
    rfl

theorem length_le_blocks {β : Type} {bytes : β → List UInt8} {bs : List β} (h : ∀ b ∈ bs, 0 < (bytes b).length) :
    bs.length ≤ (bs.map bytes).flatten.length := by
  induction bs with
  | nil => exact Nat.le_refl 0
  | cons b bs ih =>
    have hb := h b mem_cons_self
    have hrest := ih fun c hc => h c (mem_cons_of_mem b hc)
    rw [map_cons, flatten_cons, length_append, length_cons]
    omega

theorem eemLoop_blocks {payloads : List (List UInt8)} (pre post : List UInt8) (fuel : ℕ)
    (hpayloads : ∀ p ∈ payloads, etherHeaderLen ≤ p.length ∧ p.length ≤ eemLenMask) (hpre : pre.length % 4 = 0)
    (hlong : pre.length + (payloads.map eemBlock).flatten.length < 2 ^ 32) (hfuel : payloads.length < fuel) :
    eemLoop (pre ++ ((payloads.map eemBlock).flatten ++ post)) (pre.length + (payloads.map eemBlock).flatten.length)
      fuel pre.length = some ⟨payloads.map fun p => (p, p.length), 0⟩ := by
  refine (loop_blocks eemBlock (fun p => ⟨[(p, p.length)], 0⟩) post (fun p hp pre post fuel hmem hpre hstop => ?_)
    (fun p _ => ?_) (fun hstop fuel => ?_) pre fuel rfl hpre rfl hfuel).trans ?_
  · rw [← hmem]
    exact eemLoop_block post fuel (hpayloads p hp).1 (hpayloads p hp).2 hpre hstop hlong
  · rw [length_eemBlock]
    omega
  · exact if_neg (by unfold ulong; omega)
  · simp [← map_eq_flatMap]

def ncmHeader (seq len total : ℕ) : List (ℕ × List UInt8) :=
  [(0, bytes 4 nth16Signature), (4, bytes 2 (uword 12)), (6, bytes 2 seq), (8, bytes 2 (uword total)),
    (10, bytes 2 (uword 12)), (12, bytes 4 ndp16SignatureNcm0), (16, bytes 2 (uword 16)), (18, bytes 2 0),
    (20, bytes 2 (uword 28)), (22, bytes 2 (uword len)), (24, bytes 2 0), (26, bytes 2 0)]

theorem ncmHeader_places (seq len total : ℕ) :
    (∀ w ∈ ncmHeader seq len total, w.1 + w.2.length ≤ 28) ∧
      (ncmHeader seq len total).Pairwise fun w v => w.1 + w.2.length ≤ v.1 := by
  unfold ncmHeader
  simp

theorem ncm_finalize (hencap : ncp.encapType = .ncm) (buf : List UInt8) (len total : ℕ) :
    (cdcethFinalizeTx ncp buf 28 len total).2 =
      putAll (put buf 0 (List.replicate 28 0)) (ncmHeader ncp.ncmSeq len total) := by
  unfold cdcethFinalizeTx
  rw [hencap, ndpOffset_eq]
  rfl

structure NcmBlock (mem payload : List UInt8) (total : ℕ) : Prop where
  signature : long mem 0 = nth16Signature
  headerLength : word mem 4 = nthLen
  blockLength : word mem 8 = total
  ndpIndex : word mem 10 = 12
  ndpSignature : long mem 12 = ndp16SignatureNcm0
  ndpLength : word mem 16 = ndpLen
  nextNdp : word mem 18 = 0
  index : word mem 20 = 28
  length : word mem 22 = payload.length
  last : word mem 24 = 0
  payload : get mem 28 payload.length = payload

theorem NcmBlock.extend {mem rest : List UInt8} (h : NcmBlock mem payload total) (htotal : 28 + payload.length ≤ total)
    (hmem : total ≤ mem.length) : NcmBlock (mem.take total ++ rest) payload total := by
  have hsame : ∀ i k, i + k ≤ 28 + payload.length → get (mem.take total ++ rest) i k = get mem i k := by
    intro i k hik
    rw [get_append_left (by rw [length_take]; omega), get_take (by omega)]
  have hword : ∀ i, i ≤ 26 → word (mem.take total ++ rest) i = word mem i := fun i hi =>
    congrArg value (hsame i 2 (by omega))
  have hlong : ∀ i, i ≤ 24 → long (mem.take total ++ rest) i = long mem i := fun i hi =>
    congrArg value (hsame i 4 (by omega))
  exact ⟨(hlong 0 (by decide)).trans h.signature, (hword 4 (by decide)).trans h.headerLength,
    (hword 8 (by decide)).trans h.blockLength, (hword 10 (by decide)).trans h.ndpIndex,
    (hlong 12 (by decide)).trans h.ndpSignature, (hword 16 (by decide)).trans h.ndpLength,
    (hword 18 (by decide)).trans h.nextNdp, (hword 20 (by decide)).trans h.index,
    (hword 22 (by decide)).trans h.length, (hword 24 (by decide)).trans h.last,
    (hsame 28 _ le_rfl).trans h.payload⟩

theorem ncm_block (hencap : ncp.encapType = .ncm) (hsize : ncp.writeBufSize = ncmDefaultNtb)
    (hbuf : buf.length = ncp.writeBufSize) (hpos : 0 < payload.length) (hlong : payload.length + 31 < 2 ^ 32)
    (h : block ncp buf payload = some (ncp', b, total)) :
    NcmBlock b payload total ∧ 28 + payload.length ≤ total ∧ total ≤ b.length ∧ total ≤ ncp.writeBufSize := by
  obtain ⟨offset, hlayout, hfits, rfl⟩ := block_some h hpos
  rw [hencap, layout_ncm hlong] at hlayout
  obtain ⟨rfl, rfl⟩ := Prod.mk.inj (some.inj hlayout)
  have hntb : ncp.writeBufSize = 16384 := hsize
  have hroom : 28 + payload.length ≤ buf.length := by omega
  have hplaced : (put buf 28 payload).length = buf.length := length_put hroom
  have hzero : (put (put buf 28 payload) 0 (List.replicate 28 0)).length = buf.length :=
    (length_put (by rw [length_replicate]; omega)).trans hplaced
  obtain ⟨hplaces, hpairs⟩ := ncmHeader_places ncp.ncmSeq payload.length ((payload.length + 31) / 4 * 4)
  rw [ncm_finalize hencap]
  generalize hws : ncmHeader ncp.ncmSeq payload.length ((payload.length + 31) / 4 * 4) = ws at hplaces hpairs ⊢
  have hin : ∀ w ∈ ws, w.1 + w.2.length ≤ (put (put buf 28 payload) 0 (List.replicate 28 0)).length := fun w hw =>
    Nat.le_trans (hplaces w hw) (by omega)
  have hfield : ∀ i k n, (i, bytes k n) ∈ ws → n < 256 ^ k →
      value (get (putAll (put (put buf 28 payload) 0 (List.replicate 28 0)) ws) i k) = n := by
    intro i k n hw hn
    have hget := get_putAll hin hpairs hw
    rw [length_bytes] at hget
    rw [hget, value_bytes_of_lt hn]
  have hpayload : get (putAll (put (put buf 28 payload) 0 (List.replicate 28 0)) ws) 28 payload.length = payload := by
    rw [get_putAll_of_disjoint hin fun w hw => .inr (hplaces w hw),
      get_put_of_disjoint (by rw [length_replicate]; omega) (.inr (by rw [length_replicate]))]
    exact get_put hroom
  have hlength := (length_putAll hin).trans hzero
  have hword : ∀ n, n < 2 ^ 16 → uword n = n := fun n hn => uword_of_lt hn
  rw [← hws] at hfield hpayload hlength ⊢
  unfold ncmHeader at hfield hpayload hlength ⊢
  rw [hword 12 (by decide), hword _ (show (payload.length + 31) / 4 * 4 < 2 ^ 16 by omega), hword 16 (by decide),
    hword 28 (by decide), hword _ (show payload.length < 2 ^ 16 by omega)] at hfield hpayload hlength ⊢
  refine ⟨⟨hfield 0 4 _ (by simp) (by decide), hfield 4 2 12 (by simp) (by decide), hfield 8 2 _ (by simp) (by omega),
    hfield 10 2 12 (by simp) (by decide), hfield 12 4 _ (by simp) (by decide), hfield 16 2 16 (by simp) (by decide),
    hfield 18 2 _ (by simp) (by decide), hfield 20 2 _ (by simp) (by decide), hfield 22 2 _ (by simp) (by omega),
    hfield 24 2 _ (by simp) (by decide), hpayload⟩, by omega, ?_, hfits⟩
  omega

theorem NcmBlock.reads {mem : List UInt8} (h : NcmBlock mem payload total) (hmin : etherHeaderLen ≤ payload.length)
    (htotal : 28 + payload.length ≤ total) : cdcethHandleNcmRx mem total = some ⟨[(payload, payload.length)], 0⟩ := by
  have hpos : 14 ≤ payload.length := hmin
  have hentries : ncmEntries mem total 28 17 20 = some ⟨[(payload, payload.length)], 0⟩ := by
    rw [ncmEntries, if_pos (by decide)]
    dsimp only
    rw [h.index, h.length, if_neg (by omega), if_neg (by omega), ncmEntries, if_pos (by decide)]
    dsimp only
    rw [show 20 + dpeLen = 24 from rfl, h.last, if_pos (.inl rfl)]
    unfold deliver
    rw [if_pos hmin, h.payload]
    rfl
  have hloop : ncmLoop mem total 4 12 = some ⟨[(payload, payload.length)], 0⟩ := by
    rw [ncmLoop, if_neg (by decide), if_neg (by unfold ndpHeaderLen; omega), if_neg (fun hsig => hsig.1 h.ndpSignature)]
    dsimp only
    rw [h.ndpLength, h.nextNdp, if_neg (by decide), if_neg (by unfold ndpLen ndpHeaderLen dpeLen; omega)]
    show ((ncmEntries mem total 28 17 20).bind fun rx => (ncmLoop mem total 3 0).bind fun rest => some (rx.append rest)) = _
    rw [hentries, ncmLoop]
    rfl
  unfold cdcethHandleNcmRx
  dsimp only
  rw [if_neg (by unfold nthLen; omega), if_neg (fun hsig => hsig h.signature), h.blockLength, h.ndpIndex,
    if_neg (show ¬ (total = 0 ∨ total > total) by omega)]
  exact hloop

/-- A payload comes back, from a block that fits and whose header says what it is. -/
structure Inverse (ncp : NepClassEth) (payload b : List UInt8) (total : ℕ) : Prop where
  fits : total ≤ ncp.writeBufSize
  header : match ncp.encapType with
    | .ecm => True
    | .eem => word b 0 = payload.length
    | .ncm => word b 4 = nthLen ∧ word b 8 = total ∧ word b 10 = ndpOffset ∧ word b 16 = ndpLen ∧ word b 20 = 28 ∧
        word b 22 = payload.length
  reads : ∀ rest, cdcethHandleRx ncp (b.take total ++ rest) total = some ⟨[(payload, payload.length)], 0⟩

def unit (encap : EncapType) (mac : List UInt8) (seq : ℕ) : NepClassEth :=
  { cdcethEncapConfigure encap mac with ncmSeq := seq }

variable {encap : EncapType} {mac : List UInt8} {seq : ℕ}

theorem ecm_inverse (hbuf : buf.length = (unit .ecm mac seq).writeBufSize) (hpos : 0 < payload.length)
    (h : block (unit .ecm mac seq) buf payload = some (ncp', b, total)) :
    Inverse (unit .ecm mac seq) payload b total := by
  obtain ⟨offset, hlayout, hfits, rfl⟩ := block_some h hpos
  obtain ⟨rfl, rfl⟩ := Prod.mk.inj (some.inj hlayout)
  have htake : (put buf 0 payload).take payload.length = payload := by
    have hget : Fields.get (put buf 0 payload) 0 payload.length = payload := get_put (by omega)
    exact hget
  refine ⟨hfits, trivial, fun rest => ?_⟩
  show some (Rx.mk [(get ((put buf 0 payload).take payload.length ++ rest) 0 payload.length, payload.length)] 0) = _
  rw [htake]
  unfold Fields.get
  rw [drop_zero, take_left]

theorem eem_inverse (hbuf : buf.length = (unit .eem mac seq).writeBufSize) (hmin : etherHeaderLen ≤ payload.length)
    (h : block (unit .eem mac seq) buf payload = some (ncp', b, total)) :
    Inverse (unit .eem mac seq) payload b total := by
  have hpos : 0 < payload.length := Nat.lt_of_lt_of_le (by decide) hmin
  obtain ⟨-, hlayout, hfits, -⟩ := block_some h hpos
  obtain ⟨hmask, hblock, rfl⟩ := eem_block rfl hbuf hpos h
  have hlen : payload.length ≤ 0x3fff := hmask
  have hlength := length_eemBlock payload
  have hget : ∀ rest, get (eemBlock payload ++ rest) 0 2 = bytes 2 payload.length := fun rest => by
    unfold eemBlock Fields.get
    rw [drop_zero, append_assoc]
    exact take_left' (length_bytes ..)
  refine ⟨hfits, ?_, fun rest => ?_⟩
  · show value (get b 0 2) = payload.length
    rw [← get_take (n := (eemBlock payload).length) (by omega), hblock, ← append_nil (eemBlock payload), hget]
    exact value_bytes_of_lt (by omega)
  · rw [hblock]
    have hall : ∀ p ∈ [payload], etherHeaderLen ≤ p.length ∧ p.length ≤ eemLenMask := by simpa using ⟨hmin, hmask⟩
    have hloop := eemLoop_blocks [] rest ((eemBlock payload).length + 1) hall rfl (by simp; omega) (by simp; omega)
    simp only [map_cons, map_nil, flatten_cons, flatten_nil, append_nil, nil_append,
      length_nil, Nat.zero_add] at hloop
    exact hloop

theorem ncm_inverse (hbuf : buf.length = (unit .ncm mac seq).writeBufSize) (hmin : etherHeaderLen ≤ payload.length)
    (hlong : payload.length + 31 < 2 ^ 32) (h : block (unit .ncm mac seq) buf payload = some (ncp', b, total)) :
    Inverse (unit .ncm mac seq) payload b total := by
  obtain ⟨hncm, htotal, hmem, hfits⟩ := ncm_block rfl rfl hbuf (Nat.lt_of_lt_of_le (by decide) hmin) hlong h
  refine ⟨hfits, ⟨hncm.headerLength, hncm.blockLength, ?_, hncm.ndpLength, hncm.index, hncm.length⟩, fun rest => ?_⟩
  · rw [ndpOffset_eq]
    exact hncm.ndpIndex
  · exact (hncm.extend htotal hmem).reads hmin htotal

def Sent (ncp : NepClassEth) (payload bs : List UInt8) : Prop :=
  ∃ buf ncp' b total, buf.length = ncp.writeBufSize ∧ etherMinLen ≤ payload.length ∧
    block ncp buf payload = some (ncp', b, total) ∧ bs = b.take total

theorem eem_blocks {payloads blocks : List (List UInt8)} (h : List.Forall₂ (Sent (unit .eem mac seq)) payloads blocks) :
    blocks = payloads.map eemBlock ∧ ∀ p ∈ payloads, etherHeaderLen ≤ p.length ∧ p.length ≤ eemLenMask := by
  induction h with
  | nil => exact ⟨rfl, fun p hp => absurd hp not_mem_nil⟩
  | @cons p bs payloads blocks hsent _ ih =>
    obtain ⟨buf, ncp', b, total, hbuf, hmin, hblock, rfl⟩ := hsent
    have hmin : 60 ≤ p.length := hmin
    obtain ⟨hmask, htake, -⟩ := eem_block rfl hbuf (by omega) hblock
    refine ⟨by rw [htake, ih.1]; rfl, fun q hq => ?_⟩
    rcases mem_cons.mp hq with rfl | hq
    · exact ⟨Nat.le_trans (by decide) hmin, hmask⟩
    · exact ih.2 q hq

def InOrder (ncp : NepClassEth) : Prop :=
  ∀ payloads blocks rest, List.Forall₂ (Sent ncp) payloads blocks → blocks.flatten.length < 2 ^ 32 →
    cdcethHandleRx ncp (blocks.flatten ++ rest) blocks.flatten.length = some ⟨payloads.map fun p => (p, p.length), 0⟩

theorem eem_inOrder (mac : List UInt8) (seq : ℕ) : InOrder (unit .eem mac seq) := by
  intro payloads blocks rest hsent hlong
  obtain ⟨rfl, hall⟩ := eem_blocks hsent
  have hmany : payloads.length ≤ (payloads.map eemBlock).flatten.length :=
    length_le_blocks fun p _ => by rw [length_eemBlock]; omega
  have hloop := eemLoop_blocks [] rest ((payloads.map eemBlock).flatten.length + 1) hall rfl
    (by rw [length_nil, Nat.zero_add]; exact hlong) (Nat.lt_succ_of_le hmany)
  rw [nil_append, length_nil, Nat.zero_add] at hloop
  exact hloop

/-- What goes in comes out: for each payload and each earlier content of the buffer, where the lengths do not
wrap, and for EEM in blocks one after another. -/
theorem encap_inverse (encap : EncapType) (mac : List UInt8) (seq : ℕ) :
    (∀ buf payload ncp' b total, buf.length = (unit encap mac seq).writeBufSize → etherMinLen ≤ payload.length →
      payload.length + 31 < 2 ^ 32 → block (unit encap mac seq) buf payload = some (ncp', b, total) →
      Inverse (unit encap mac seq) payload b total) ∧
      (encap = .eem → InOrder (unit encap mac seq)) := by
  refine ⟨fun buf payload ncp' b total hbuf hmin hlong h => ?_, ?_⟩
  · have hmin' : etherHeaderLen ≤ payload.length := Nat.le_trans (by decide) hmin
    cases encap with
    | ecm => exact ecm_inverse hbuf (Nat.lt_of_lt_of_le (by decide) hmin) h
    | eem => exact eem_inverse hbuf hmin' h
    | ncm => exact ncm_inverse hbuf hmin' hlong h
  · rintro rfl
    exact eem_inOrder mac seq

/-- A frame of 60 bytes in an NCM block. -/
theorem encap_inverse_ncm :
    ∃ ncp' b total, block (unit .ncm [] 7) (List.replicate 16384 0) (List.replicate 60 0x55) = some (ncp', b, total) ∧
      total = 88 ∧ Inverse (unit .ncm [] 7) (List.replicate 60 0x55) b total :=
  ⟨_, _, _, rfl, by decide, (encap_inverse .ncm [] 7).1 (List.replicate 16384 0) _ _ _ _ length_replicate (by decide)
    (by decide) rfl⟩

theorem prepare_wraps : cdcethPrepareTx (unit .ncm [] 0) (2 ^ 32 - 28) 16384 = some (28, 0) := by decide

/-- The length of a payload of nearly 4 GiB wraps, and the block is empty. -/
theorem encap_not_inverse :
    ¬ ∀ encap mac seq buf payload ncp' b total, buf.length = (unit encap mac seq).writeBufSize →
      etherMinLen ≤ payload.length → payload.length < 2 ^ 32 →
      block (unit encap mac seq) buf payload = some (ncp', b, total) → Inverse (unit encap mac seq) payload b total := by
  intro h
  have hlength : (List.replicate (2 ^ 32 - 28) (0 : UInt8)).length = 2 ^ 32 - 28 := length_replicate
  generalize List.replicate (2 ^ 32 - 28) (0 : UInt8) = payload at hlength
  have hblock : block (unit .ncm [] 0) (List.replicate 16384 0) payload =
      some ((cdcethFinalizeTx (unit .ncm [] 0) (put (List.replicate 16384 0) 28 payload) 28 payload.length 0).1,
        (cdcethFinalizeTx (unit .ncm [] 0) (put (List.replicate 16384 0) 28 payload) 28 payload.length 0).2, 0) := by
    unfold block
    rw [hlength, show (unit .ncm [] 0).writeBufSize = 16384 from rfl, prepare_wraps]
    rfl
  have hinverse := h .ncm [] 0 (List.replicate 16384 0) payload _ _ _ length_replicate (by rw [hlength]; decide)
    (by rw [hlength]; decide) hblock
  have hreads : some Rx.bad = some ⟨[(payload, payload.length)], 0⟩ := hinverse.reads []
  exact absurd (some.inj hreads) (by simp [Rx.bad])

/-- What is written for a request is received as one packet, which begins with its frame. -/
theorem nWritePacket_arrives {ioreq : IOSana2Req} (hbuf : buf.length = (unit encap mac seq).writeBufSize)
    (hmac : mac.length = 6) (hdst : ioreq.dstAddr.length = 6) (hdata : ioreq.data.length < 2 ^ 16)
    (h : nWritePacket (unit encap mac seq) buf ioreq = some (ncp', b, total)) (rest : List UInt8) :
    ∃ frame, (ioreq.frame (unit encap mac seq)) <+: frame ∧ etherMinLen ≤ frame.length ∧
      cdcethHandleRx (unit encap mac seq) (b.take total ++ rest) total = some ⟨[(frame, frame.length)], 0⟩ := by
  have hframe : (ioreq.frame (unit encap mac seq)).length ≤ ioreq.data.length + 14 := by
    unfold IOSana2Req.frame
    split
    · omega
    · rw [length_append, length_append, length_append, Bytes.length_toBE, hdst]
      show 6 + mac.length + 2 + _ ≤ _
      omega
  have hlen : (ioreq.payload (unit encap mac seq)).length =
      (ioreq.frame (unit encap mac seq)).length + (60 - (ioreq.frame (unit encap mac seq)).length) := by
    unfold IOSana2Req.payload
    rw [length_append, length_replicate]
    rfl
  have hmin : etherMinLen ≤ (ioreq.payload (unit encap mac seq)).length := by
    show 60 ≤ _
    omega
  refine ⟨ioreq.payload (unit encap mac seq), prefix_append .., hmin, ?_⟩
  cases encap with
  | ecm => exact (ecm_inverse hbuf (Nat.lt_of_lt_of_le (by decide) hmin) h).reads rest
  | eem => exact (eem_inverse hbuf (Nat.le_trans (by decide) hmin) h).reads rest
  | ncm => exact (ncm_inverse hbuf (Nat.le_trans (by decide) hmin) (by rw [hlen]; omega) h).reads rest

def arp : IOSana2Req := ⟨false, 0x0806, replicate 6 0xff, replicate 28 1⟩

theorem nWritePacket_arrives_arp : ∃ ncp' b total frame,
    nWritePacket (unit .ncm (replicate 6 2) 7) (replicate 16384 0) arp = some (ncp', b, total) ∧
    arp.frame (unit .ncm (replicate 6 2) 7) <+: frame ∧ etherMinLen ≤ frame.length ∧
      cdcethHandleRx (unit .ncm (replicate 6 2) 7) (b.take total ++ []) total = some ⟨[(frame, frame.length)], 0⟩ := by
  have hwrite : nWritePacket (unit .ncm (replicate 6 2) 7) (replicate 16384 0) arp = some _ := rfl
  obtain ⟨frame, hframe⟩ := nWritePacket_arrives length_replicate rfl rfl (by decide) hwrite []
  exact ⟨_, _, _, frame, hwrite, hframe⟩

variable {mem : List UInt8} {place len : ℕ}

/-- The loop ends. What it passes on are parts of the transfer of the lengths it tells, with room for a header unless it
is the whole. -/
def Ends (mem : List UInt8) (rx : Option Rx) : Prop :=
  ∃ r, rx = some r ∧ ∀ p ∈ r.packets, p.1 <:+: mem ∧ p.1.length = p.2 ∧ (etherHeaderLen ≤ p.2 ∨ p.2 = mem.length)

theorem ends_none : Ends mem (some .none) := ⟨_, rfl, fun _ h => absurd h not_mem_nil⟩

theorem ends_bad : Ends mem (some .bad) := ⟨_, rfl, fun _ h => absurd h not_mem_nil⟩

theorem ends_get (h : place + len ≤ mem.length) (hlen : etherHeaderLen ≤ len ∨ len = mem.length) :
    Ends mem (some ⟨[(get mem place len, len)], 0⟩) := by
  refine ⟨_, rfl, forall_mem_singleton.mpr
    ⟨(IsPrefix.isInfix <| take_prefix ..).trans (drop_suffix ..).isInfix, ?_, hlen⟩⟩
  rw [Fields.get, length_take, length_drop]
  omega

theorem ends_deliver (h : place + len ≤ mem.length) : Ends mem (some (deliver mem place len)) := by
  unfold deliver
  split
  · next hlen => exact ends_get h (.inl hlen)
  · exact ends_bad

theorem Ends.append {rx : Rx} {rest : Option Rx} (h : Ends mem (some rx)) (hrest : Ends mem rest) :
    Ends mem (rest.map rx.append) := by
  obtain ⟨_, hrx, h⟩ := h
  obtain rfl := some.inj hrx
  obtain ⟨r, rfl, hr⟩ := hrest
  exact ⟨_, rfl, fun p hp => (mem_append.mp hp).elim (h p) (hr p)⟩

theorem eemLoop_ends (hlong : mem.length ≤ 2 ^ 31) (fuel offset : ℕ) (hfuel : mem.length < offset + fuel)
    (hpos : 0 < fuel) (hoffset : offset ≤ mem.length + 3) : Ends mem (eemLoop mem mem.length fuel offset) := by
  induction fuel generalizing offset with
  | zero => exact absurd hpos (Nat.lt_irrefl 0)
  | succ fuel ih =>
    rw [eemLoop, ulong_eq (show offset + 2 < 2 ^ 32 by omega)]
    split
    · next hin =>
      have hlen : word mem offset &&& eemLenMask ≤ 0x3fff := Nat.and_le_right
      generalize word mem offset = header at hlen
      have halign : ∀ n ≤ mem.length, cdcethAlign n eemAlign = (n + 3) / 4 * 4 := fun n hn => align_eq (by omega)
      dsimp only
      split
      · rw [halign _ hin]
        exact ih _ (by omega) (by omega) (by omega)
      · rw [ulong_eq (show offset + 2 + (header &&& eemLenMask) < 2 ^ 32 by omega)]
        split
        · exact ends_bad
        · rw [halign _ (by omega)]
          refine Ends.append ?_ (ih _ (by omega) (by omega) (by omega))
          split
          · exact ends_none
          · exact ends_deliver (by split <;> omega)
    · exact ends_none

theorem ncmEntries_ends {blockLen ndpEnd : ℕ} (hblock : blockLen ≤ mem.length) (fuel entry : ℕ)
    (hfuel : ndpEnd < entry + fuel) (hpos : 0 < fuel) : Ends mem (ncmEntries mem blockLen ndpEnd fuel entry) := by
  induction fuel generalizing entry with
  | zero => exact absurd hpos (Nat.lt_irrefl 0)
  | succ fuel ih =>
    rw [ncmEntries]
    split
    · next hin =>
      have hin : entry + 4 ≤ ndpEnd := hin
      dsimp only
      split
      · exact ends_none
      · split
        · exact ends_bad
        · exact (ends_deliver (by omega)).append (ih (entry + 4) (by omega) (by omega))
    · exact ends_none

theorem ncmLoop_ends {blockLen : ℕ} (hblock : blockLen ≤ mem.length) (guard ndp : ℕ) :
    Ends mem (ncmLoop mem blockLen guard ndp) := by
  induction guard generalizing ndp with
  | zero => exact ends_none
  | succ guard ih =>
    rw [ncmLoop]
    dsimp only
    split
    · exact ends_none
    iterate 4
      split
      · exact ends_bad
    obtain ⟨rx, hrx, h⟩ := ncmEntries_ends hblock (word mem (ndp + 4) + 1) (ndp + ndpHeaderLen)
      (show ndp + word mem (ndp + 4) < _ by omega) (Nat.succ_pos _)
    obtain ⟨rest, hrest, hr⟩ := ih (word mem (ndp + 6))
    rw [hrx, hrest]
    exact Ends.append ⟨rx, rfl, h⟩ ⟨rest, rfl, hr⟩

end Neptune.CdcEth
