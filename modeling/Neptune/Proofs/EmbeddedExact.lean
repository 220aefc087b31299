import Neptune.Proofs.WholeFrame

/-! What `uvcExtractEmbedded` leaves at the start of the buffer, against the grammar of the segments. -/

namespace Neptune.Uvc

open List Option

def nextSegment : List UInt8 → Option (UInt8 × List UInt8 × List UInt8)
  | 0xff :: marker :: hi :: lo :: bs =>
    let n := 256 * hi.toNat + lo.toNat
    if marker ≠ 0xda ∧ 2 ≤ n ∧ n - 2 ≤ bs.length then some (marker, bs.take (n - 2), bs.drop (n - 2))
    else none
  | _ => none

variable {fourcc len pos seglen : ℕ} {marker : UInt8} {e : Extract} {data more : List UInt8}

theorem nextSegment_length {bs rest : List UInt8}
    (h : nextSegment bs = some (marker, data, rest)) : rest.length < bs.length := by
  unfold nextSegment at h
  split at h
  · dsimp only at h
    split at h
    · cases h
      simp only [length_drop, length_cons]
      omega
    · cases h
  · cases h

def segments (bs : List UInt8) : List (UInt8 × List UInt8) :=
  match h : nextSegment bs with
  | none => []
  | some (marker, data, rest) =>
    have := nextSegment_length h
    (marker, data) :: segments rest
termination_by bs.length

def muxData (bs : List UInt8) : List (List UInt8) :=
  (segments bs).filterMap fun (marker, data) => if marker = 0xe4 then some data else none

def streamHead (data : List UInt8) : Option (ℕ × ℕ × List UInt8) :=
  let hdrlen := wordLE data 2
  if 22 ≤ hdrlen ∧ hdrlen + 4 ≤ data.length then
    some (longBE data 4, longLE data hdrlen, data.drop (hdrlen + 4))
  else none

/-- The further segments of a stream with that many bytes to come; the marker and the length of each
are among them. -/
def further : ℕ → List (List UInt8) → List UInt8 × List (List UInt8)
  | _, [] => ([], [])
  | left, data :: rest =>
    if left = 0 then ([], data :: rest)
    else
      let piece := data.take (left - 4)
      let (more, rest) := further (left - 4 - piece.length) rest
      (piece ++ more, rest)

theorem further_length (left : ℕ) (rest : List (List UInt8)) :
    (further left rest).2.length ≤ rest.length := by
  induction rest generalizing left with
  | nil => rw [further]
  | cons data rest ih =>
    rw [further]
    split
    · exact le_rfl
    · exact (ih _).trans (Nat.le_succ _)

def streams : List (List UInt8) → List (ℕ × List UInt8)
  | [] => []
  | data :: rest =>
    match streamHead data with
    | none => (0, []) :: streams rest
    | some (kind, size, body) =>
      have := further_length (size - (body.take size).length) rest
      (kind, body.take size ++ (further (size - (body.take size).length) rest).1) ::
        streams (further (size - (body.take size).length) rest).2
termination_by datas => datas.length
decreasing_by
  all_goals simp only [length_cons]; omega

def embedded (frame : List UInt8) (fourcc : ℕ) : List UInt8 :=
  ((streams (muxData (frame.drop 2))).filter fun stream => stream.1 = fourcc).flatMap (·.2)

def peek (buf : List UInt8) (len i : ℕ) : Option ℕ := if i < len then some (byteAt buf i) else none

def peekWordLE (buf : List UInt8) (len i : ℕ) : Option ℕ := do
  let lo ← peek buf len i
  let hi ← peek buf len (i + 1)
  return lo + 256 * hi

def peekWordBE (buf : List UInt8) (len i : ℕ) : Option ℕ := do
  let hi ← peek buf len i
  let lo ← peek buf len (i + 1)
  return 256 * hi + lo

def checkedSegment (buf : List UInt8) (len pos : ℕ) : Option ℕ :=
  if len < pos + 4 then some 0
  else do
    let marker ← peek buf len pos
    if marker ≠ JPEG_MARKER then
      return 0
    let kind ← peek buf len (pos + 1)
    if kind = JPEG_SOS then
      return 0
    let seglen ← peekWordBE buf len (pos + 2)
    return if 2 ≤ seglen ∧ pos + 2 + seglen ≤ len then seglen else 0

def checkedHeader (buf : List UInt8) (len pos datalen : ℕ) : Option (ℕ × ℕ × ℕ) :=
  if datalen < 22 then some (0, 0, 0)
  else do
    let hdrlen ← peekWordLE buf len (pos + 2)
    if hdrlen < 22 ∨ datalen < hdrlen + 4 then
      return (0, 0, 0)
    let high ← peekWordBE buf len (pos + 4)
    let low ← peekWordBE buf len (pos + 6)
    let sizeLow ← peekWordLE buf len (pos + hdrlen)
    let sizeHigh ← peekWordLE buf len (pos + hdrlen + 2)
    return (hdrlen + 4, 65536 * high + low, sizeLow + 65536 * sizeHigh)

def checkedMove (buf : List UInt8) (len dst pos n : ℕ) : Option (List UInt8) :=
  if dst + n ≤ len ∧ pos + n ≤ len then some (copyTo buf dst ((buf.drop pos).take n)) else none

/-- Whether a stream goes on or begins in the segment at `pos`: what is skipped, whether the stream is
wanted and what is left of it. -/
def checkedStart (e : Extract) (len fourcc pos datalen : ℕ) : Option (ℕ × Bool × ℕ) :=
  if e.left ≠ 0 then some (0, e.wanted, e.left - min e.left 4)
  else (checkedHeader e.buf len (pos + 4) datalen).map fun (skip, kind, size) =>
    (skip, kind == fourcc, size)

def checkedStep (e : Extract) (len fourcc pos seglen : ℕ) : Option Extract := do
  let (skip, wanted, left) ← checkedStart e len fourcc pos (seglen - 2)
  let datalen := min (seglen - 2 - skip) left
  let buf ← if wanted then checkedMove e.buf len e.out (pos + 4 + skip) datalen else some e.buf
  return ⟨buf, if wanted then e.out + datalen else e.out, left - datalen, wanted⟩

def checkedBody (e : Extract) (len fourcc pos seglen : ℕ) : Option Extract := do
  let marker ← peek e.buf len (pos + 1)
  if marker = UVCX_MUX_MARKER then checkedStep e len fourcc pos seglen else some e

theorem checkedSegment_inside {buf : List UInt8}
    (h : checkedSegment buf len pos = some seglen) (hne : seglen ≠ 0) : pos + 2 + seglen ≤ len := by
  unfold checkedSegment at h
  split at h
  · exact absurd (some.inj h).symm hne
  · simp only [bind_eq_bind, bind_eq_some_iff] at h
    obtain ⟨marker, -, h⟩ := h
    split at h
    · exact absurd (some.inj h).symm hne
    · simp only [bind_eq_some_iff] at h
      obtain ⟨kind, -, h⟩ := h
      split at h
      · exact absurd (some.inj h).symm hne
      · simp only [bind_eq_some_iff, Option.pure_def, some.injEq] at h
        obtain ⟨n, -, h⟩ := h
        split at h
        · rename_i hn
          omega
        · exact absurd h.symm hne

def checkedFrom (fourcc len : ℕ) (e : Extract) (pos : ℕ) : Option Extract :=
  match h : checkedSegment e.buf len pos with
  | none => none
  | some seglen =>
    if hne : seglen = 0 then some e
    else
      have := checkedSegment_inside h hne
      match checkedBody e len fourcc pos seglen with
      | none => none
      | some e => checkedFrom fourcc len e (pos + 2 + seglen)
termination_by len - pos

def checkedExtract (buf : List UInt8) (len fourcc : ℕ) : Option (List UInt8 × ℕ) :=
  (checkedFrom fourcc len ⟨buf, 0, 0, false⟩ 2).map fun e => (e.buf, e.out)

section access

variable {buf : List UInt8} {len pos i n : ℕ}

theorem peek_inside (h : i < len) : peek buf len i = some (byteAt buf i) := if_pos h

theorem peekWordLE_inside (h : i + 1 < len) : peekWordLE buf len i = some (wordLE buf i) := by
  rw [peekWordLE, peek_inside (by omega), peek_inside h]
  rfl

theorem peekWordBE_inside (h : i + 1 < len) : peekWordBE buf len i = some (wordBE buf i) := by
  rw [peekWordBE, peek_inside (by omega), peek_inside h]
  rfl

theorem checkedSegment_eq (buf : List UInt8) (len pos : ℕ) :
    checkedSegment buf len pos = some (uvcJpegSegment buf len pos) := by
  unfold checkedSegment uvcJpegSegment
  by_cases hshort : len < pos + 4
  · rw [if_pos hshort, if_pos (Or.inl hshort)]
  · rw [if_neg hshort, peek_inside (by omega), peek_inside (by omega), peekWordBE_inside (by omega)]
    simp only [bind_eq_bind, bind_some, Option.pure_def]
    by_cases hmarker : byteAt buf pos = JPEG_MARKER
    · by_cases hsos : byteAt buf (pos + 1) = JPEG_SOS
      · simp [hmarker, hsos]
      · simp [hmarker, hsos, hshort]
    · simp [hmarker]

theorem byteAt_part (h : i < n) : byteAt ((buf.drop pos).take n) i = byteAt buf (pos + i) := by
  unfold byteAt
  rw [getD_eq_getElem?_getD, List.getElem?_take_of_lt h, List.getElem?_drop,
    getD_eq_getElem?_getD]

theorem wordLE_part (h : i + 1 < n) : wordLE ((buf.drop pos).take n) i = wordLE buf (pos + i) := by
  rw [wordLE, byteAt_part (by omega), byteAt_part h]
  rfl

theorem wordBE_part (h : i + 1 < n) : wordBE ((buf.drop pos).take n) i = wordBE buf (pos + i) := by
  rw [wordBE, byteAt_part (by omega), byteAt_part h]
  rfl

theorem length_part (h : pos + n ≤ buf.length) : ((buf.drop pos).take n).length = n := by
  rw [length_take, length_drop]
  omega

theorem checkedHeader_eq (h : pos + n ≤ len) (hlen : len ≤ buf.length) :
    checkedHeader buf len pos n = some (uvcEmbeddedHeader ((buf.drop pos).take n)) := by
  unfold checkedHeader uvcEmbeddedHeader
  rw [length_part (by omega)]
  by_cases hshort : n < 22
  · rw [if_pos hshort, if_neg (show ¬ 22 ≤ n by omega)]
    rfl
  · rw [if_neg hshort, if_pos (show 22 ≤ n by omega), peekWordLE_inside (by omega), wordLE_part (by omega)]
    simp only [bind_eq_bind, bind_some, Option.pure_def]
    by_cases hbad : wordLE buf (pos + 2) < 22 ∨ n < wordLE buf (pos + 2) + 4
    · rw [if_pos hbad, if_pos hbad]
    · rw [if_neg hbad, if_neg hbad, peekWordBE_inside (by omega), peekWordBE_inside (by omega),
        peekWordLE_inside (by omega), peekWordLE_inside (by omega)]
      simp only [bind_some, longBE, longLE]
      rw [wordBE_part (by omega), wordBE_part (by omega), wordLE_part (by omega),
        wordLE_part (by omega), Nat.add_assoc pos]

end access

theorem byteAt_append (pre bs : List UInt8) (i : ℕ) : byteAt (pre ++ bs) (pre.length + i) = byteAt bs i := by
  unfold byteAt
  rw [getD_eq_getElem?_getD, List.getElem?_append_right (Nat.le_add_right ..), Nat.add_sub_cancel_left,
    getD_eq_getElem?_getD]

theorem nextSegment_some {bs : List UInt8}
    (h : nextSegment bs = some (marker, data, more)) :
    ∃ hi lo : UInt8, bs = 0xff :: marker :: hi :: lo :: (data ++ more) ∧ marker ≠ 0xda ∧
      256 * hi.toNat + lo.toNat = data.length + 2 := by
  unfold nextSegment at h
  split at h
  · rename_i kind hi lo bs
    dsimp only at h
    split at h
    · rename_i hok
      obtain ⟨hsos, htwo, hfits⟩ := hok
      cases h
      refine ⟨hi, lo, ?_, hsos, ?_⟩
      · rw [take_append_drop]
      · rw [length_take]
        omega
    · cases h
  · cases h

variable {pre bs rest : List UInt8}

theorem uvcJpegSegment_some
    (h : nextSegment bs = some (marker, data, more)) :
    uvcJpegSegment (pre ++ (bs ++ rest)) (pre.length + bs.length) pre.length = data.length + 2 := by
  obtain ⟨hi, lo, rfl, hsos, hlength⟩ := nextSegment_some h
  have hzero : byteAt (pre ++ (0xff :: marker :: hi :: lo :: (data ++ more) ++ rest)) pre.length = JPEG_MARKER :=
    byteAt_append pre _ 0
  have hone : byteAt (pre ++ (0xff :: marker :: hi :: lo :: (data ++ more) ++ rest)) (pre.length + 1) =
    marker.toNat := byteAt_append pre _ 1
  have hword : wordBE (pre ++ (0xff :: marker :: hi :: lo :: (data ++ more) ++ rest)) (pre.length + 2) =
      data.length + 2 := by
    rw [wordBE, Nat.add_assoc, byteAt_append, byteAt_append]
    exact hlength
  have hkind : marker.toNat ≠ JPEG_SOS := fun heq => hsos (UInt8.toNat_inj.1 heq)
  unfold uvcJpegSegment
  rw [if_neg, hword]
  · exact if_pos ⟨by omega, by simp only [length_cons, length_append]; omega⟩
  · rintro (hshort | hmarker | hscan)
    · simp only [length_cons] at hshort
      omega
    · exact hmarker hzero
    · exact hkind (hone.symm.trans hscan)

theorem uvcJpegSegment_none (h : nextSegment bs = none) :
    uvcJpegSegment (pre ++ (bs ++ rest)) (pre.length + bs.length) pre.length = 0 := by
  match bs with
  | [] | [_] | [_, _] | [_, _, _] => exact if_pos (Or.inl (by simp))
  | first :: marker :: hi :: lo :: bs =>
    have hzero : byteAt (pre ++ (first :: marker :: hi :: lo :: bs ++ rest)) pre.length = first.toNat :=
      byteAt_append pre _ 0
    have hone : byteAt (pre ++ (first :: marker :: hi :: lo :: bs ++ rest)) (pre.length + 1) = marker.toNat :=
      byteAt_append pre _ 1
    have hword : wordBE (pre ++ (first :: marker :: hi :: lo :: bs ++ rest)) (pre.length + 2) =
        256 * hi.toNat + lo.toNat := by
      rw [wordBE, Nat.add_assoc, byteAt_append, byteAt_append]
      rfl
    simp only [uvcJpegSegment, hzero, hone, hword, length_cons]
    by_cases hfirst : first = 0xff
    · subst hfirst
      by_cases hsos : marker = 0xda
      · exact if_pos (Or.inr (Or.inr (congrArg UInt8.toNat hsos)))
      · have hbad : ¬(2 ≤ 256 * hi.toNat + lo.toNat ∧ 256 * hi.toNat + lo.toNat - 2 ≤ bs.length) := by
          intro hok
          simp only [nextSegment, if_pos (show marker ≠ 0xda ∧ _ from ⟨hsos, hok⟩)] at h
          cases h
        rw [if_neg (show ¬(2 ≤ 256 * hi.toNat + lo.toNat ∧
          pre.length + 2 + (256 * hi.toNat + lo.toNat) ≤ pre.length + (bs.length + 1 + 1 + 1 + 1)) by omega), ite_self]
    · exact if_pos (Or.inr (Or.inl fun heq => hfirst (UInt8.toNat_inj.1 heq)))

/-- Of the data of a segment: whether the stream it is of is wanted, its piece of that, and what is left. -/
def pieceOf (fourcc left : ℕ) (wanted : Bool) (data : List UInt8) : Bool × List UInt8 × ℕ :=
  let (skip, wanted, left) :=
    if left ≠ 0 then (0, wanted, left - min left 4)
    else
      let (skip, kind, size) := uvcEmbeddedHeader data
      (skip, kind == fourcc, size)
  let piece := (data.drop skip).take left
  (wanted, piece, left - piece.length)

def parts (fourcc : ℕ) : ℕ → Bool → List (List UInt8) → List UInt8
  | _, _, [] => []
  | left, wanted, data :: datas =>
    let (wanted, piece, left) := pieceOf fourcc left wanted data
    (if wanted then piece else []) ++ parts fourcc left wanted datas

section grammar

variable {fourcc left : ℕ} {wanted : Bool} {data : List UInt8} {datas : List (List UInt8)}

theorem parts_further (fourcc left : ℕ) (wanted : Bool) (datas : List (List UInt8)) :
    parts fourcc left wanted datas =
      (if wanted then (further left datas).1 else []) ++ parts fourcc 0 wanted (further left datas).2 := by
  induction datas generalizing left with
  | nil => cases wanted <;> rfl
  | cons data datas ih =>
    by_cases hleft : left = 0
    · subst hleft
      have hnone : further 0 (data :: datas) = ([], data :: datas) := rfl
      rw [hnone]
      cases wanted <;> rfl
    · have hpiece : pieceOf fourcc left wanted data =
          (wanted, data.take (left - 4), left - 4 - (data.take (left - 4)).length) := by
        simp only [pieceOf, if_pos (show left ≠ 0 from hleft), drop_zero,
          show left - min left 4 = left - 4 by omega]
      have hfurther : further left (data :: datas) =
          (data.take (left - 4) ++ (further (left - 4 - (data.take (left - 4)).length) datas).1,
            (further (left - 4 - (data.take (left - 4)).length) datas).2) := by
        rw [further, if_neg hleft]
      rw [parts, hpiece, hfurther]
      dsimp only
      rw [ih]
      cases wanted
      · rfl
      · exact (append_assoc ..).symm

theorem streamHead_none (h : streamHead data = none) : uvcEmbeddedHeader data = (0, 0, 0) := by
  unfold streamHead at h
  unfold uvcEmbeddedHeader
  by_cases hlong : 22 ≤ data.length
  · rw [if_pos hlong]
    by_cases hok : 22 ≤ wordLE data 2 ∧ wordLE data 2 + 4 ≤ data.length
    · simp only [if_pos hok] at h
      cases h
    · exact if_pos (by omega)
  · rw [if_neg hlong]
    rfl

theorem streamHead_some {kind size : ℕ} {body : List UInt8} (h : streamHead data = some (kind, size, body)) :
    ∃ skip, uvcEmbeddedHeader data = (skip, kind, size) ∧ data.drop skip = body := by
  unfold streamHead at h
  unfold uvcEmbeddedHeader
  by_cases hok : 22 ≤ wordLE data 2 ∧ wordLE data 2 + 4 ≤ data.length
  · simp only [if_pos hok] at h
    cases h
    rw [if_pos (show 22 ≤ data.length by omega)]
    exact ⟨_, if_neg (by omega), rfl⟩
  · simp only [if_neg hok] at h
    cases h

theorem parts_streams (fourcc : ℕ) (wanted : Bool) (datas : List (List UInt8)) :
    parts fourcc 0 wanted datas =
      ((streams datas).filter fun stream => stream.1 = fourcc).flatMap (·.2) := by
  induction datas using streams.induct generalizing wanted with
  | case1 =>
    rw [streams]
    rfl
  | case2 data datas hhead ih =>
    have hpiece : pieceOf fourcc 0 wanted data = ((0 == fourcc), [], 0) := by
      simp only [pieceOf, ne_eq, not_true_eq_false, if_false, streamHead_none hhead, take_zero, length_nil]
    have hstreams : streams (data :: datas) = (0, []) :: streams datas := by
      rw [streams]
      split
      · rfl
      · rename_i hsome
        rw [hhead] at hsome
        cases hsome
    rw [parts, hpiece, hstreams]
    dsimp only
    rw [ih, ite_self, nil_append, filter_cons]
    split <;> rfl
  | case3 data datas kind size body hhead _ ih =>
    obtain ⟨skip, hheader, hbody⟩ := streamHead_some hhead
    have hpiece : pieceOf fourcc 0 wanted data =
        ((kind == fourcc), body.take size, size - (body.take size).length) := by
      simp only [pieceOf, ne_eq, not_true_eq_false, if_false, hheader, hbody]
    have hstreams : streams (data :: datas) =
        (kind, body.take size ++ (further (size - (body.take size).length) datas).1) ::
          streams (further (size - (body.take size).length) datas).2 := by
      rw [streams]
      split
      · rename_i hnone
        rw [hhead] at hnone
        cases hnone
      · rename_i hsome
        rw [hhead] at hsome
        cases hsome
        rfl
    rw [parts, hpiece, hstreams]
    dsimp only
    rw [parts_further, ih, filter_cons]
    dsimp only
    by_cases hkind : kind = fourcc
    · rw [if_pos (beq_iff_eq.2 hkind), if_pos (beq_iff_eq.2 hkind), if_pos (decide_eq_true hkind), flatMap_cons,
        append_assoc]
    · rw [show (kind == fourcc) = false from beq_false_of_ne hkind,
        show decide (kind = fourcc) = false from decide_eq_false hkind]
      rfl

end grammar

def Extract.put (e : Extract) (wanted : Bool) (piece : List UInt8) (left : ℕ) : Extract where
  buf := if wanted then copyTo e.buf e.out piece else e.buf
  out := if wanted then e.out + piece.length else e.out
  left := left
  wanted := wanted

theorem segment_put
    (hdata : (e.buf.drop (pos + 4)).take (seglen - 2) = data) :
    e.segment fourcc pos seglen =
      e.put (pieceOf fourcc e.left e.wanted data).1 (pieceOf fourcc e.left e.wanted data).2.1
        (pieceOf fourcc e.left e.wanted data).2.2 := by
  subst hdata
  rfl

theorem uvcEmbeddedHeader_skip (data : List UInt8) : (uvcEmbeddedHeader data).1 ≤ data.length := by
  simp only [uvcEmbeddedHeader]
  generalize (if 22 ≤ data.length then wordLE data 2 else 0) = hdrlen
  split
  · exact Nat.zero_le _
  · rename_i hok
    exact not_lt.1 (not_or.1 hok).2

theorem pieceOf_length (fourcc left : ℕ) (wanted : Bool) (data : List UInt8) :
    (pieceOf fourcc left wanted data).2.1.length ≤ data.length := by
  simp only [pieceOf, length_take, length_drop]
  omega

theorem copyTo_append {a b bs : List UInt8} {i : ℕ} (h : i + bs.length ≤ a.length) :
    copyTo (a ++ b) i bs = copyTo a i bs ++ b := by
  unfold copyTo
  rw [take_append_of_le_length (by omega), drop_append_of_le_length h, append_assoc, append_assoc,
    append_assoc]

section

variable (hin : pos + 2 + seglen ≤ len) (htwo : 2 ≤ seglen) (hlen : len ≤ e.buf.length) (hout : e.out ≤ pos)
include hin htwo hlen hout

theorem checkedStep_eq :
    checkedStep e len fourcc pos seglen = some (e.segment fourcc pos seglen) := by
  have hlength : ((e.buf.drop (pos + 4)).take (seglen - 2)).length = seglen - 2 := length_part (by omega)
  have hpiece (skip left : ℕ) (hskip : skip ≤ seglen - 2) :
      (((e.buf.drop (pos + 4)).take (seglen - 2)).drop skip).take left =
        (e.buf.drop (pos + 4 + skip)).take (min (seglen - 2 - skip) left) := by
    rw [drop_take, drop_drop, take_take, Nat.min_comm]
  have hmove (skip left : ℕ) (hskip : skip ≤ seglen - 2) :
      checkedMove e.buf len e.out (pos + 4 + skip) (min (seglen - 2 - skip) left) =
        some (copyTo e.buf e.out ((((e.buf.drop (pos + 4)).take (seglen - 2)).drop skip).take left)) := by
    rw [hpiece skip left hskip]
    exact if_pos (by omega)
  have hwrite (skip left : ℕ) (hskip : skip ≤ seglen - 2) :
      min (seglen - 2 - skip) left = ((((e.buf.drop (pos + 4)).take (seglen - 2)).drop skip).take left).length := by
    rw [length_take, length_drop, hlength, Nat.min_comm]
  by_cases hleft : e.left = 0
  · have hskip := uvcEmbeddedHeader_skip ((e.buf.drop (pos + 4)).take (seglen - 2))
    rw [hlength] at hskip
    simp only [checkedStep, checkedStart, Extract.segment, hleft, ne_eq, not_true_eq_false, if_false]
    rw [checkedHeader_eq (by omega) hlen]
    generalize uvcEmbeddedHeader ((e.buf.drop (pos + 4)).take (seglen - 2)) = header at hskip ⊢
    obtain ⟨skip, kind, size⟩ := header
    simp only [map_some, bind_eq_bind, bind_some]
    rw [hmove skip size hskip, hwrite skip size hskip]
    cases kind == fourcc <;> rfl
  · simp only [checkedStep, checkedStart, Extract.segment, hleft, ne_eq, not_false_eq_true, if_true,
      bind_eq_bind, bind_some]
    rw [hmove 0 _ (Nat.zero_le _), hwrite 0 _ (Nat.zero_le _)]
    cases e.wanted <;> rfl

theorem checkedBody_eq :
    checkedBody e len fourcc pos seglen =
      some (if byteAt e.buf (pos + 1) = UVCX_MUX_MARKER then e.segment fourcc pos seglen else e) := by
  unfold checkedBody
  rw [peek_inside (by omega), checkedStep_eq hin htwo hlen hout]
  simp only [bind_eq_bind, bind_some]
  split <;> rfl

end

theorem checkedFrom_stop (h : uvcJpegSegment e.buf len pos = 0) :
    checkedFrom fourcc len e pos = some e := by
  rw [checkedFrom]
  split
  · rename_i hnone
    rw [checkedSegment_eq] at hnone
    cases hnone
  · rename_i seglen hsome
    rw [checkedSegment_eq, h] at hsome
    cases hsome
    exact dif_pos rfl

theorem checkedFrom_step {e' : Extract} (h : uvcJpegSegment e.buf len pos ≠ 0)
    (hbody : checkedBody e len fourcc pos (uvcJpegSegment e.buf len pos) = some e') :
    checkedFrom fourcc len e pos = checkedFrom fourcc len e' (pos + 2 + uvcJpegSegment e.buf len pos) := by
  rw [checkedFrom]
  split
  · rename_i hnone
    rw [checkedSegment_eq] at hnone
    cases hnone
  · rename_i seglen hsome
    rw [checkedSegment_eq] at hsome
    cases hsome
    rw [dif_neg h]
    split
    · rename_i hnone
      rw [hbody] at hnone
      cases hnone
    · rename_i hsome
      rw [hbody] at hsome
      cases hsome
      rfl

theorem muxData_none {bs : List UInt8} (h : nextSegment bs = none) : muxData bs = [] := by
  rw [muxData, segments]
  split
  · rfl
  · rename_i hsome
    rw [h] at hsome
    cases hsome

theorem muxData_some {bs : List UInt8} (h : nextSegment bs = some (marker, data, more)) :
    muxData bs = if marker = 0xe4 then data :: muxData more else muxData more := by
  unfold muxData
  rw [segments]
  split
  · rename_i hnone
    rw [h] at hnone
    cases hnone
  · rename_i hsome
    rw [h] at hsome
    cases hsome
    rw [filterMap_cons]
    split <;> simp_all

/-- What the loop has done when it ends, from the first byte it has not read. -/
structure Extracted (fourcc : ℕ) (pre bs rest : List UInt8) (e : Extract) : Prop where
  checked : checkedFrom fourcc (pre.length + bs.length) e pre.length =
    some (uvcExtractEmbeddedFrom fourcc (pre.length + bs.length) e pre.length)
  out : (uvcExtractEmbeddedFrom fourcc (pre.length + bs.length) e pre.length).out =
    e.out + (parts fourcc e.left e.wanted (muxData bs)).length
  buf : ∃ left, (uvcExtractEmbeddedFrom fourcc (pre.length + bs.length) e pre.length).buf =
      pre.take e.out ++ parts fourcc e.left e.wanted (muxData bs) ++ left ++ rest ∧
    (pre.take e.out ++ parts fourcc e.left e.wanted (muxData bs) ++ left).length = pre.length + bs.length

theorem put_unread {wanted : Bool} {piece behind : List UInt8} {left : ℕ}
    (hbuf : e.buf = pre ++ behind) (hfits : e.out + piece.length ≤ pre.length) :
    ∃ pre', (e.put wanted piece left).buf = pre' ++ behind ∧ pre'.length = pre.length ∧
      (e.put wanted piece left).out ≤ pre'.length ∧
      pre'.take (e.put wanted piece left).out = pre.take e.out ++ (if wanted then piece else []) := by
  cases wanted
  · exact ⟨pre, hbuf, rfl, (Nat.le_add_right ..).trans hfits, (append_nil _).symm⟩
  · refine ⟨copyTo pre e.out piece, ?_, length_copyTo hfits, ?_, take_copyTo ((Nat.le_add_right ..).trans hfits)⟩
    · exact (congrArg (copyTo · e.out piece) hbuf).trans (copyTo_append hfits)
    · rw [length_copyTo hfits]
      exact hfits

theorem segment_read {bs rest : List UInt8} (fourcc : ℕ)
    (hbuf : e.buf = pre ++ (bs ++ rest)) (hout : e.out ≤ pre.length)
    (hsome : nextSegment bs = some (marker, data, more)) (e' : Extract)
    (hbody : e' = if byteAt e.buf (pre.length + 1) = UVCX_MUX_MARKER then e.segment fourcc pre.length (data.length + 2)
      else e) :
    ∃ head piece, e'.buf = head ++ (more ++ rest) ∧ head.length = pre.length + 2 + (data.length + 2) ∧
      e'.out ≤ head.length ∧ e'.out = e.out + piece.length ∧ head.take e'.out = pre.take e.out ++ piece ∧
      parts fourcc e.left e.wanted (muxData bs) = piece ++ parts fourcc e'.left e'.wanted (muxData more) := by
  obtain ⟨hi, lo, hbs, -, -⟩ := nextSegment_some hsome
  have hmarker : byteAt e.buf (pre.length + 1) = marker.toNat := by
    rw [hbuf, hbs]
    exact byteAt_append pre _ 1
  have hsplit : e.buf = pre ++ 0xff :: marker :: hi :: lo :: data ++ (more ++ rest) := by
    rw [hbuf, hbs]
    simp only [append_assoc, cons_append]
  have hread : (pre ++ 0xff :: marker :: hi :: lo :: data).length = pre.length + 2 + (data.length + 2) := by
    simp only [length_cons, length_append]
    omega
  have htake : (pre ++ 0xff :: marker :: hi :: lo :: data).take e.out = pre.take e.out :=
    take_append_of_le_length hout
  rw [hmarker] at hbody
  by_cases hmux : marker = 0xe4
  · have hdata : (e.buf.drop (pre.length + 4)).take (data.length + 2 - 2) = data := by
      rw [hbuf, hbs, ← drop_drop, drop_left]
      exact (congrArg (List.take data.length) (append_assoc ..)).trans take_left
    rw [if_pos (show marker.toNat = UVCX_MUX_MARKER from congrArg UInt8.toNat hmux), segment_put hdata] at hbody
    rw [muxData_some hsome, if_pos hmux, parts, hbody]
    have hpiece := pieceOf_length fourcc e.left e.wanted data
    generalize pieceOf fourcc e.left e.wanted data = written at hpiece ⊢
    obtain ⟨wanted, piece, left⟩ := written
    dsimp only at hpiece ⊢
    have hfits : e.out + piece.length ≤ (pre ++ 0xff :: marker :: hi :: lo :: data).length := by
      rw [hread]
      omega
    obtain ⟨head, hunread, hlength, hin, hhead⟩ := @put_unread e _ wanted piece _ left hsplit hfits
    refine ⟨head, if wanted then piece else [], hunread, hlength.trans hread, hin, ?_, hhead.trans ?_, rfl⟩
    · cases wanted <;> rfl
    · rw [htake]
  · rw [if_neg (show ¬marker.toNat = UVCX_MUX_MARKER from fun heq => hmux (UInt8.toNat_inj.1 heq))] at hbody
    rw [muxData_some hsome, if_neg hmux, hbody]
    refine ⟨_, [], hsplit, hread, ?_, rfl, ?_, rfl⟩
    · rw [hread]
      omega
    · rw [htake, append_nil]

/-- By induction on the unread bytes. -/
theorem extracted (fourcc : ℕ) (rest bs pre : List UInt8) (e : Extract)
    (hbuf : e.buf = pre ++ (bs ++ rest)) (hout : e.out ≤ pre.length) : Extracted fourcc pre bs rest e := by
  induction bs using segments.induct generalizing pre e with
  | case1 bs hnone =>
    have hstop : uvcJpegSegment e.buf (pre.length + bs.length) pre.length = 0 := hbuf ▸ uvcJpegSegment_none hnone
    have hsame : uvcExtractEmbeddedFrom fourcc (pre.length + bs.length) e pre.length = e := by
      rw [uvcExtractEmbeddedFrom, dif_pos hstop]
    refine ⟨(checkedFrom_stop hstop).trans (congrArg some hsame.symm), ?_, pre.drop e.out ++ bs, ?_⟩
    · rw [hsame, muxData_none hnone]
      rfl
    · rw [hsame, muxData_none hnone, hbuf, parts, append_nil, ← append_assoc (pre.take e.out),
        take_append_drop]
      exact ⟨(append_assoc ..).symm, length_append⟩
  | case2 bs marker data more hsome _ ih =>
    have hseg : uvcJpegSegment e.buf (pre.length + bs.length) pre.length = data.length + 2 :=
      hbuf ▸ uvcJpegSegment_some hsome
    have hne : uvcJpegSegment e.buf (pre.length + bs.length) pre.length ≠ 0 := hseg.trans_ne (Nat.succ_ne_zero _)
    obtain ⟨hi, lo, hbs, -, -⟩ := nextSegment_some hsome
    have hlength : bs.length = 4 + data.length + more.length := by
      rw [hbs]
      simp only [length_cons, length_append]
      omega
    have hlong : pre.length + bs.length ≤ e.buf.length := by
      rw [hbuf, length_append, length_append]
      omega
    obtain ⟨e', hbody⟩ : ∃ e', e' = if byteAt e.buf (pre.length + 1) = UVCX_MUX_MARKER then
        e.segment fourcc pre.length (data.length + 2) else e := ⟨_, rfl⟩
    obtain ⟨head, piece, hunread, hhead, hin, hmore, htake, hparts⟩ :=
      segment_read fourcc hbuf hout hsome e' hbody
    have hlen : pre.length + bs.length = head.length + more.length := by omega
    have hchecked : checkedFrom fourcc (pre.length + bs.length) e pre.length =
        checkedFrom fourcc (head.length + more.length) e' head.length := by
      rw [checkedFrom_step hne (checkedBody_eq (uvcJpegSegment_inside hne) (hseg ▸ Nat.le_add_left ..) hlong hout),
        hseg, ← hbody, hlen, ← hhead]
    have hstep : uvcExtractEmbeddedFrom fourcc (pre.length + bs.length) e pre.length =
        uvcExtractEmbeddedFrom fourcc (head.length + more.length) e' head.length := by
      rw [uvcExtractEmbeddedFrom, dif_neg hne, hseg, ← hbody, hlen, ← hhead]
    obtain ⟨hc, ho, left, hb, hl⟩ := ih head e' hunread hin
    refine ⟨?_, ?_, left, ?_, ?_⟩
    · rw [hchecked, hstep, hc]
    · rw [hstep, ho, hmore, hparts, length_append, Nat.add_assoc]
    · rw [hstep, hb, htake, hparts, append_assoc (pre.take e.out)]
    · rw [hparts, ← append_assoc (pre.take e.out), ← htake, hl, hlen]

/-- The buffer keeps its length, with the wanted streams at its start and what is behind it untouched. -/
theorem embedded_exact (frame rest : List UInt8) (fourcc : ℕ) :
    checkedExtract (frame ++ rest) frame.length fourcc =
        some (uvcExtractEmbedded (frame ++ rest) frame.length fourcc) ∧
      ∃ left, uvcExtractEmbedded (frame ++ rest) frame.length fourcc =
          (embedded frame fourcc ++ left ++ rest, (embedded frame fourcc).length) ∧
        (embedded frame fourcc).length + left.length = frame.length := by
  by_cases hshort : frame.length < 2
  · have hstop : uvcJpegSegment (frame ++ rest) frame.length 2 = 0 := if_pos (Or.inl (by omega))
    have hnone : embedded frame fourcc = [] := by
      rw [embedded, drop_of_length_le hshort.le, muxData_none rfl, streams]
      rfl
    have hsame : uvcExtractEmbedded (frame ++ rest) frame.length fourcc = (frame ++ rest, 0) := by
      rw [uvcExtractEmbedded, uvcExtractEmbeddedFrom, dif_pos hstop]
    rw [checkedExtract, checkedFrom_stop hstop, hsame, hnone]
    exact ⟨rfl, frame, rfl, Nat.zero_add _⟩
  · have htwo : (frame.take 2).length = 2 := by
      rw [length_take]
      omega
    have hlength : (frame.take 2).length + (frame.drop 2).length = frame.length := by
      rw [← length_append, take_append_drop]
    obtain ⟨hchecked, hout, left, hbuf, hleft⟩ := extracted fourcc rest (frame.drop 2) (frame.take 2)
      ⟨frame ++ rest, 0, 0, false⟩ (by rw [← append_assoc, take_append_drop]) (Nat.zero_le _)
    rw [hlength, htwo] at hchecked hout hbuf
    rw [show parts fourcc 0 false (muxData (frame.drop 2)) = embedded frame fourcc from parts_streams ..]
      at hout hbuf hleft
    have hpair : uvcExtractEmbedded (frame ++ rest) frame.length fourcc =
        (embedded frame fourcc ++ left ++ rest, (embedded frame fourcc).length) :=
      Prod.ext hbuf (hout.trans (Nat.zero_add _))
    refine ⟨?_, left, hpair, ?_⟩
    · rw [checkedExtract, hchecked]
      rfl
    · rw [hlength, take_zero, nil_append, length_append] at hleft
      exact hleft

end Neptune.Uvc
