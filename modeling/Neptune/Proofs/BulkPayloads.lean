import Neptune.Proofs.FramesCounted

/-! Where the payloads of a bulk stream begin and end: they come in packets, and the class takes them in
transfers. -/

namespace Neptune.Uvc

open List

namespace Bulk

def UVC_BULK_CHUNK : ℕ := 32768
def UVC_BULK_MAX_ERRORS : ℕ := 8

/-- The negotiated payload size, 0 if the camera named none, and the packets of its endpoint. -/
structure Stream where
  payloadSize : ℕ
  isUlong : payloadSize < 2 ^ 32
  maxPacket : ℕ
  legal : maxPacket ∈ [8, 16, 32, 64, 512, 1024]

structure State where
  ns : NepVideoStream
  payDone : ℕ
  paySkip : Bool
  errors : ℕ

variable (mode : Mode) (st : Stream)

def uvcBulkBufferSize : ℕ :=
  if st.payloadSize ≠ 0 ∧ st.payloadSize < UVC_BULK_CHUNK then st.payloadSize else UVC_BULK_CHUNK

def uvcBulkAsk (payDone : ℕ) : ℕ :=
  let left := ulongSub st.payloadSize payDone
  if st.payloadSize ≠ 0 ∧ left < uvcBulkBufferSize st then left else uvcBulkBufferSize st

def uvcBulkTransfer (s : State) (ioerr : Bool) (bytes : List UInt8) : State × List Call × ℕ :=
  let asked := uvcBulkAsk st s.payDone
  if ioerr then
    let calls := [.payloadBegin [] true 0]
    let s := { s with ns := calls.foldl (Call.run mode) s.ns, payDone := 0, errors := s.errors + 1 }
    (s, calls, if s.errors < UVC_BULK_MAX_ERRORS then uvcBulkAsk st 0 else 0)
  else if s.payDone = 0 ∧ bytes.length = 0 then ({ s with errors := 0 }, [], asked)
  else
    let hdrlen := if s.payDone = 0 then (uvcPayloadBegin mode s.ns bytes false 0).2 else 0
    let paySkip := if s.payDone = 0 then hdrlen == 0 else s.paySkip
    let payDone := ulong (s.payDone + bytes.length)
    let ended := decide (bytes.length < asked ∨ payDone = st.payloadSize)
    let calls :=
      (if s.payDone = 0 then [.payloadBegin bytes false 0] else []) ++
        (if paySkip then [] else [.payloadData (bytes.drop hdrlen)]) ++
          (if ended && !paySkip then [.payloadEnd] else [])
    let payDone := if ended then 0 else payDone
    (⟨calls.foldl (Call.run mode) s.ns, payDone, paySkip, 0⟩, calls, uvcBulkAsk st payDone)

def packets (n : ℕ) (bs : List UInt8) : List (List UInt8) :=
  if bs = [] ∨ n = 0 then [] else bs.take n :: packets n (bs.drop n)
termination_by bs.length
decreasing_by
  rename_i hgo
  have hpos : 0 < bs.length := length_pos_iff.2 fun hnil => hgo (.inl hnil)
  rw [length_drop]
  omega

/-- A payload; behind one of the full size an empty packet may follow. -/
structure Sent where
  bytes : List UInt8
  some : bytes ≠ []
  fits : bytes.length ≤ if st.payloadSize = 0 then 2 ^ 32 else st.payloadSize
  emptyAfter : Bool

variable {st} in
def Sent.emptyPacket (p : Sent st) : Bool :=
  if p.bytes.length = st.payloadSize then p.emptyAfter else p.bytes.length % st.maxPacket = 0

variable {st} in
def Sent.packets (p : Sent st) : List (List UInt8) :=
  Bulk.packets st.maxPacket p.bytes ++ if p.emptyPacket then [[]] else []

/-- A transfer of `a` bytes ends with them, or with a short packet; it fails of a packet too long. -/
def receive (n : ℕ) : ℕ → List (List UInt8) → Option (List UInt8 × List (List UInt8))
  | _, [] => none
  | a, p :: ps =>
    if a < p.length then none
    else if p.length < n ∨ p.length = a then some (p, ps)
    else (receive n (a - p.length) ps).map fun (bytes, ps) => (p ++ bytes, ps)

variable {ask d : ℕ} {s : State} {g r : List UInt8} {ps rest : List (List UInt8)}

theorem receive_length {n a : ℕ} {bytes : List UInt8}
    (h : receive n a ps = some (bytes, rest)) : rest.length < ps.length := by
  induction ps generalizing a bytes with
  | nil => cases h
  | cons p ps ih =>
    rw [receive] at h
    split at h
    · cases h
    · split at h
      · cases h
        exact Nat.lt_succ_self _
      · obtain ⟨⟨bytes', rest'⟩, hrest, heq⟩ := Option.map_eq_some_iff.1 h
        cases heq
        exact (ih hrest).trans (Nat.lt_succ_self _)

/-- A transfer: what it asked for, what it got, and the calls it led to. -/
structure Step where
  asked : ℕ
  got : List UInt8
  calls : List Call

structure Seen where
  steps : List Step
  last : State
  rest : List (List UInt8)

def uvcBulkRun (s : State) (ask : ℕ) (ps : List (List UInt8)) : Seen :=
  if ask = 0 then ⟨[], s, ps⟩
  else
    match h : receive st.maxPacket ask ps with
    | none => ⟨[], s, ps⟩
    | some (bytes, rest) =>
      have := receive_length h
      let (s, calls, next) := uvcBulkTransfer mode st s false bytes
      let seen := uvcBulkRun s next rest
      { seen with steps := ⟨ask, bytes, calls⟩ :: seen.steps }
termination_by ps.length

def uvcBulkSeen (ns : NepVideoStream) (ps : List (List UInt8)) : Seen :=
  uvcBulkRun mode st ⟨ns, 0, false, 0⟩ (uvcBulkAsk st 0) ps

variable {mode} {st} {n a : ℕ} {bs : List UInt8} {tail : List (List UInt8)}

theorem packets_nil : packets n [] = [] := by rw [packets, if_pos (.inl rfl)]

theorem packets_cons (hbs : bs ≠ []) (hn : 0 < n) : packets n bs = bs.take n :: packets n (bs.drop n) := by
  rw [packets, if_neg]
  rintro (h | h)
  · exact hbs h
  · omega

theorem receive_full (hn : 0 < n) (hdvd : n ∣ a) (ha : 0 < a) (h : a ≤ bs.length) :
    receive n a (packets n bs ++ tail) = some (bs.take a, packets n (bs.drop a) ++ tail) := by
  obtain ⟨k, rfl⟩ := hdvd
  induction k generalizing bs with
  | zero => omega
  | succ k ih =>
    have hle : n ≤ n * (k + 1) := Nat.le_mul_of_pos_right n (Nat.succ_pos k)
    have htake : (bs.take n).length = n := length_take_of_le (hle.trans h)
    rw [packets_cons (length_pos_iff.1 (by omega)) hn, cons_append, receive, htake, if_neg (by omega)]
    by_cases hk : k = 0
    · subst hk
      rw [if_pos (by omega), Nat.zero_add, Nat.mul_one]
    · have hmore : n * (k + 1) = n + n * k := by rw [Nat.mul_succ, Nat.add_comm]
      have hpos : 0 < n * k := Nat.mul_pos hn (Nat.pos_of_ne_zero hk)
      rw [if_neg (by omega), show n * (k + 1) - n = n * k by omega,
        ih hpos (by rw [length_drop]; omega), Option.map_some, hmore, take_add, drop_drop]

theorem receive_exact (hn : 0 < n) (ha : 0 < a) (h : bs.length = a) :
    receive n a (packets n bs ++ tail) = some (bs, tail) := by
  induction hlen : bs.length using Nat.strong_induction_on generalizing bs a with
  | _ len ih =>
    rw [packets_cons (length_pos_iff.1 (by omega)) hn, cons_append, receive]
    by_cases hlast : bs.length ≤ n
    · rw [take_of_length_le hlast, drop_of_length_le hlast, packets_nil, if_neg (by omega),
        if_pos (Or.inr h)]
      rfl
    · rw [length_take_of_le (by omega), if_neg (by omega), if_neg (by omega),
        ih (bs.length - n) (by omega) (by omega) (by rw [length_drop]; omega) (by rw [length_drop]),
        Option.map_some]
      exact congrArg (fun bs => some (bs, tail)) (take_append_drop n bs)

theorem receive_short (hn : 0 < n) (h : bs.length < a) :
    receive n a (packets n bs ++ ((if bs.length % n = 0 then [[]] else []) ++ tail)) = some (bs, tail) := by
  induction hlen : bs.length using Nat.strong_induction_on generalizing bs a with
  | _ len ih =>
    by_cases hnil : bs = []
    · subst hnil
      subst hlen
      rw [packets_nil, if_pos (show ([] : List UInt8).length % n = 0 from Nat.zero_mod n), nil_append,
        singleton_append, receive, if_neg h.not_gt,
        if_pos (show ([] : List UInt8).length < n ∨ _ from Or.inl hn)]
    · rw [packets_cons hnil hn, cons_append, receive]
      have hpos := length_pos_iff.2 hnil
      by_cases hlast : bs.length < n
      · rw [take_of_length_le hlast.le, drop_of_length_le hlast.le, packets_nil, if_neg (by omega),
          if_pos (Or.inl hlast), if_neg (by rw [← hlen, Nat.mod_eq_of_lt hlast]; omega)]
        rfl
      · have hmod : len % n = (bs.length - n) % n := by rw [← hlen, Nat.mod_eq_sub_mod (by omega)]
        rw [length_take_of_le (by omega), if_neg (by omega), if_neg (by omega), hmod,
          ih (bs.length - n) (by omega) (by rw [length_drop]; omega) (by rw [length_drop]),
          Option.map_some]
        exact congrArg (fun bs => some (bs, tail)) (take_append_drop n bs)

theorem Stream.maxPacket_pos (st : Stream) : 0 < st.maxPacket := by
  have hlegal := st.legal
  simp only [mem_cons, not_mem_nil, or_false] at hlegal
  omega

theorem Stream.maxPacket_dvd (st : Stream) : st.maxPacket ∣ UVC_BULK_CHUNK := by
  have hlegal := st.legal
  simp only [mem_cons, not_mem_nil, or_false] at hlegal
  rcases hlegal with h | h | h | h | h | h <;> rw [h] <;> decide

theorem uvcBulkBufferSize_pos (st : Stream) : 0 < uvcBulkBufferSize st := by
  unfold uvcBulkBufferSize
  split
  · omega
  · decide

theorem uvcBulkAsk_eq (hd : st.payloadSize ≠ 0 → d < st.payloadSize) :
    uvcBulkAsk st d =
      if st.payloadSize = 0 then UVC_BULK_CHUNK else min (st.payloadSize - d) (uvcBulkBufferSize st) := by
  unfold uvcBulkAsk
  by_cases hnone : st.payloadSize = 0
  · rw [if_pos hnone, if_neg fun h => h.1 hnone, uvcBulkBufferSize, if_neg fun h => h.1 hnone]
  · rw [if_neg hnone, ulongSub_of_le (hd hnone).le st.isUlong]
    dsimp only
    split <;> omega

/-- How the transfer at `d` bytes of a payload ends, with `r` the rest of it. -/
inductive Outcome (p : Sent st) (d : ℕ) (r : List UInt8) : Prop
  | last (after : List (List UInt8)) (hafter : after = [] ∨ after = [[]])
      (hgot : ∀ tail, receive st.maxPacket (uvcBulkAsk st d)
        (packets st.maxPacket r ++ ((if p.emptyPacket then [[]] else []) ++ tail)) = some (r, after ++ tail))
      (hended : r.length < uvcBulkAsk st d ∨ ulong (d + r.length) = st.payloadSize)
  | more (hchunk : uvcBulkAsk st d = UVC_BULK_CHUNK) (hlong : UVC_BULK_CHUNK ≤ r.length)
      (hgot : ∀ tail, receive st.maxPacket (uvcBulkAsk st d)
        (packets st.maxPacket r ++ ((if p.emptyPacket then [[]] else []) ++ tail)) =
          some (r.take UVC_BULK_CHUNK, packets st.maxPacket (r.drop UVC_BULK_CHUNK) ++
            ((if p.emptyPacket then [[]] else []) ++ tail)))
      (hgoes : d + UVC_BULK_CHUNK < 2 ^ 32)
      (hleft : st.payloadSize ≠ 0 → d + UVC_BULK_CHUNK < st.payloadSize)

theorem outcome (p : Sent st) (hlength : d + r.length = p.bytes.length)
    (hd : st.payloadSize ≠ 0 → d < st.payloadSize) (hdvd : st.maxPacket ∣ d) : Outcome p d r := by
  have hask := uvcBulkAsk_eq hd
  have hpos : 0 < uvcBulkAsk st d := by
    have hbuffer := uvcBulkBufferSize_pos st
    rw [hask]
    split
    · decide
    · rename_i hsome
      have := hd hsome
      omega
  have hfits := p.fits
  have hsome : 0 < p.bytes.length := length_pos_iff.2 p.some
  have hmod : p.bytes.length % st.maxPacket = r.length % st.maxPacket := by
    rw [← hlength, Nat.add_mod, Nat.mod_eq_zero_of_dvd hdvd, Nat.zero_add, Nat.mod_mod]
  by_cases hshort : r.length < uvcBulkAsk st d
  · have hother : p.bytes.length ≠ st.payloadSize := by
      rw [hask] at hshort
      split at hshort <;> omega
    refine .last [] (.inl rfl) (fun tail => ?_) (.inl hshort)
    rw [Sent.emptyPacket, if_neg hother, hmod, nil_append]
    have hreceive := @receive_short _ _ _ tail st.maxPacket_pos hshort
    by_cases hzero : r.length % st.maxPacket = 0
    · simpa only [hzero, if_true, decide_true] using hreceive
    · simpa only [hzero, if_false, decide_false, Bool.false_eq_true] using hreceive
  · by_cases hwhole : r.length = uvcBulkAsk st d ∧ ulong (d + r.length) = st.payloadSize
    · refine .last (if p.emptyPacket then [[]] else []) ?_ (fun tail => receive_exact st.maxPacket_pos hpos hwhole.1)
        (.inr hwhole.2)
      split
      · exact .inr rfl
      · exact .inl rfl
    · -- only a whole buffer is not the end
      have hbuffer : uvcBulkAsk st d = UVC_BULK_CHUNK ∧ d + UVC_BULK_CHUNK < 2 ^ 32 ∧
          (st.payloadSize ≠ 0 → d + UVC_BULK_CHUNK < st.payloadSize) := by
        have hulong := st.isUlong
        unfold ulong at hwhole
        unfold uvcBulkBufferSize at hask
        by_cases hnone : st.payloadSize = 0
        · rw [if_pos hnone] at hfits hask
          refine ⟨hask, ?_, fun h => absurd hnone h⟩
          omega
        · rw [if_neg hnone] at hfits hask
          split at hask <;> omega
      obtain ⟨hchunk, hgoes, hleft⟩ := hbuffer
      refine .more hchunk (by omega) (fun tail => ?_) hgoes hleft
      rw [hchunk]
      exact receive_full st.maxPacket_pos st.maxPacket_dvd (by decide) (by omega)

theorem uvcPayloadBegin_length (mode : Mode) (ns : NepVideoStream) (hdr : List UInt8) (wireerror : Bool)
    (busframe : ℕ) : (uvcPayloadBegin mode ns hdr wireerror busframe).2 = headerLength hdr := by
  unfold uvcPayloadBegin
  dsimp only
  split
  · rename_i hnone
    exact hnone.symm
  · rfl

theorem headerLength_le (bs : List UInt8) : headerLength bs ≤ 255 := by
  have hsmall : byteAt bs 0 < 256 := (bs.getD 0 0).toNat_lt
  unfold headerLength
  dsimp only
  split <;> split <;> omega

theorem headerLength_chunk (bs : List UInt8) : headerLength (bs.take UVC_BULK_CHUNK) = headerLength bs := by
  have hbyte : byteAt (bs.take UVC_BULK_CHUNK) 0 = byteAt bs 0 := by
    unfold byteAt
    rw [getD_eq_getElem?_getD, List.getElem?_take_of_lt (by decide), getD_eq_getElem?_getD]
  have hsmall : byteAt bs 0 < 256 := (bs.getD 0 0).toNat_lt
  by_cases hlong : bs.length ≤ UVC_BULK_CHUNK
  · rw [take_of_length_le hlong]
  · unfold headerLength
    rw [hbyte, length_take_of_le (by omega)]
    unfold UVC_BULK_CHUNK at *
    rw [if_pos (show 2 ≤ 32768 by decide), if_pos (show 2 ≤ bs.length by omega)]
    dsimp only
    split <;> split <;> omega

def callsAt (d : ℕ) (skip ended : Bool) (g : List UInt8) : List Call :=
  (if d = 0 then [.payloadBegin g false 0] else []) ++
    (if skip then [] else [.payloadData (g.drop (if d = 0 then headerLength g else 0))]) ++
      (if ended && !skip then [.payloadEnd] else [])

theorem uvcBulkTransfer_eq {skip ended : Bool} (hd : s.payDone = d)
    (hsome : d ≠ 0 ∨ g ≠ []) (hskip : (if d = 0 then headerLength g == 0 else s.paySkip) = skip)
    (hended : decide (g.length < uvcBulkAsk st d ∨ ulong (d + g.length) = st.payloadSize) = ended) :
    uvcBulkTransfer mode st s false g =
      (⟨(callsAt d skip ended g).foldl (Call.run mode) s.ns, if ended then 0 else ulong (d + g.length), skip, 0⟩,
        callsAt d skip ended g, uvcBulkAsk st (if ended then 0 else ulong (d + g.length))) := by
  have hnot : ¬(s.payDone = 0 ∧ g.length = 0) := by
    rintro ⟨hzero, hnil⟩
    exact hsome.elim (fun h => h (hd.symm.trans hzero)) fun h => h (length_eq_zero_iff.1 hnil)
  unfold uvcBulkTransfer
  subst hd hskip hended
  rw [if_neg Bool.false_ne_true, if_neg hnot]
  simp only [uvcPayloadBegin_length]
  by_cases hzero : s.payDone = 0
  · simp only [hzero, if_true, callsAt]
  · simp only [hzero, if_false, callsAt]

def Seen.behind (steps : List Step) (seen : Seen) : Seen := { seen with steps := steps ++ seen.steps }

theorem Seen.behind_behind (steps more : List Step) (seen : Seen) :
    (seen.behind more).behind steps = seen.behind (steps ++ more) := by
  unfold Seen.behind
  rw [append_assoc]

theorem uvcBulkRun_step (hask : ask ≠ 0)
    (h : receive st.maxPacket ask ps = some (g, rest)) :
    uvcBulkRun mode st s ask ps =
      (uvcBulkRun mode st (uvcBulkTransfer mode st s false g).1 (uvcBulkTransfer mode st s false g).2.2 rest).behind
        [⟨ask, g, (uvcBulkTransfer mode st s false g).2.1⟩] := by
  rw [uvcBulkRun, if_neg hask]
  split
  · rename_i hnone
    rw [h] at hnone
    cases hnone
  · rename_i hsome
    rw [h] at hsome
    cases hsome
    rfl

structure Asks (st : Stream) (d ask : ℕ) : Prop where
  some : 0 < ask
  buffer : ask ≤ uvcBulkBufferSize st
  left : st.payloadSize ≠ 0 → d + ask ≤ st.payloadSize

theorem uvcBulkAsk_asks (hd : st.payloadSize ≠ 0 → d < st.payloadSize) : Asks st d (uvcBulkAsk st d) := by
  have hbuffer := uvcBulkBufferSize_pos st
  have hask := uvcBulkAsk_eq hd
  by_cases hnone : st.payloadSize = 0
  · rw [if_pos hnone] at hask
    refine ⟨?_, ?_, fun h => absurd hnone h⟩
    · rw [hask]
      decide
    · rw [hask, uvcBulkBufferSize, if_neg fun h => h.1 hnone]
  · have hless := hd hnone
    rw [if_neg hnone] at hask
    exact ⟨by omega, by omega, fun _ => by omega⟩

/-- The transfers that bring the bytes `r` of a payload from its byte `d` on. -/
structure Brings (st : Stream) (d : ℕ) (r : List UInt8) (steps : List Step) : Prop where
  got : steps.flatMap (·.got) = r
  asks : ∀ before t behind, steps = before ++ t :: behind →
    Asks st (d + (before.flatMap (·.got)).length) t.asked

theorem Brings.one {calls : List Call} (h : Asks st d ask) :
    Brings st d g [⟨ask, g, calls⟩] := by
  refine ⟨append_nil g, fun before t behind heq => ?_⟩
  match before with
  | [] =>
    cases heq
    exact h
  | _ :: before => exact absurd (List.cons.inj heq).2.symm (append_ne_nil_of_right_ne_nil _ (cons_ne_nil _ _))

theorem Brings.cons {calls : List Call} {steps : List Step} (h : Asks st d ask)
    (hrest : Brings st (d + g.length) r steps) : Brings st d (g ++ r) (⟨ask, g, calls⟩ :: steps) := by
  refine ⟨congrArg (g ++ ·) hrest.got, fun before t behind heq => ?_⟩
  match before with
  | [] =>
    cases heq
    exact h
  | t' :: before =>
    obtain ⟨rfl, htail⟩ := List.cons.inj heq
    have hasks := hrest.asks before t behind htail
    rw [flatMap_cons, length_append, ← Nat.add_assoc]
    exact hasks

structure Ends (mode : Mode) (st : Stream) (s : State) (d : ℕ) (r : List UInt8) (ps tail : List (List UInt8))
    (steps : List Step) (last : State) : Prop where
  after : ∃ after, (after = [] ∨ after = [[]]) ∧ uvcBulkRun mode st s (uvcBulkAsk st d) ps =
    (uvcBulkRun mode st last (uvcBulkAsk st 0) (after ++ tail)).behind steps
  between : last.payDone = 0
  engine : last.ns = (steps.flatMap (·.calls)).foldl (Call.run mode) s.ns
  brings : Brings st d r steps

section transfer

variable {s : State} {d : ℕ} {r : List UInt8} {skip : Bool} {ps : List (List UInt8)}

theorem ends_last {after : List (List UInt8)} (hpay : s.payDone = d) (hsome : d ≠ 0 ∨ r ≠ [])
    (hskip : (if d = 0 then headerLength r == 0 else s.paySkip) = skip) (hasks : Asks st d (uvcBulkAsk st d))
    (hafter : after = [] ∨ after = [[]]) (hgot : receive st.maxPacket (uvcBulkAsk st d) ps = some (r, after ++ tail))
    (hended : r.length < uvcBulkAsk st d ∨ ulong (d + r.length) = st.payloadSize) :
    Ends mode st s d r ps tail [⟨uvcBulkAsk st d, r, callsAt d skip true r⟩]
      ⟨(callsAt d skip true r).foldl (Call.run mode) s.ns, 0, skip, 0⟩ := by
  refine ⟨⟨after, hafter, ?_⟩, rfl, congrArg (List.foldl _ _) (append_nil _).symm, .one hasks⟩
  rw [uvcBulkRun_step hasks.some.ne' hgot, uvcBulkTransfer_eq hpay hsome hskip (decide_eq_true hended)]
  rfl

theorem ends_more {ps' : List (List UInt8)} {steps : List Step} {last : State} (hpay : s.payDone = d)
    (hskip : (if d = 0 then headerLength (r.take UVC_BULK_CHUNK) == 0 else s.paySkip) = skip)
    (hasks : Asks st d (uvcBulkAsk st d)) (hchunk : uvcBulkAsk st d = UVC_BULK_CHUNK)
    (hlong : UVC_BULK_CHUNK ≤ r.length)
    (hgot : receive st.maxPacket (uvcBulkAsk st d) ps = some (r.take UVC_BULK_CHUNK, ps'))
    (hgoes : d + UVC_BULK_CHUNK < 2 ^ 32) (hleft : st.payloadSize ≠ 0 → d + UVC_BULK_CHUNK < st.payloadSize)
    (hrest : Ends mode st
      ⟨(callsAt d skip false (r.take UVC_BULK_CHUNK)).foldl (Call.run mode) s.ns, d + UVC_BULK_CHUNK, skip, 0⟩
      (d + UVC_BULK_CHUNK) (r.drop UVC_BULK_CHUNK) ps' tail steps last) :
    Ends mode st s d r ps tail
      (⟨uvcBulkAsk st d, r.take UVC_BULK_CHUNK, callsAt d skip false (r.take UVC_BULK_CHUNK)⟩ :: steps) last := by
  have htake : (r.take UVC_BULK_CHUNK).length = UVC_BULK_CHUNK := length_take_of_le hlong
  have hsum : ulong (d + (r.take UVC_BULK_CHUNK).length) = d + UVC_BULK_CHUNK := by
    rw [htake]
    exact Nat.mod_eq_of_lt hgoes
  have hgoing : decide ((r.take UVC_BULK_CHUNK).length < uvcBulkAsk st d ∨
      ulong (d + (r.take UVC_BULK_CHUNK).length) = st.payloadSize) = false := by
    rw [decide_eq_false_iff_not, hsum, htake, hchunk]
    unfold UVC_BULK_CHUNK at *
    omega
  have hsome : d ≠ 0 ∨ r.take UVC_BULK_CHUNK ≠ [] := by
    refine .inr fun hnil => ?_
    rw [hnil] at htake
    exact absurd htake (by decide)
  obtain ⟨⟨after, hafter, hrun⟩, hbetween, hengine, hbrings⟩ := hrest
  refine ⟨⟨after, hafter, ?_⟩, hbetween, ?_, ?_⟩
  · rw [uvcBulkRun_step hasks.some.ne' hgot, uvcBulkTransfer_eq hpay hsome hskip hgoing]
    simp only [Bool.false_eq_true, if_false, hsum]
    rw [hrun, Seen.behind_behind]
    rfl
  · rw [hengine, flatMap_cons, foldl_append]
  · have hthen : Brings st (d + (r.take UVC_BULK_CHUNK).length) (r.drop UVC_BULK_CHUNK) steps := by
      rw [htake]
      exact hbrings
    have hcons := @Brings.cons _ _ _ _ _ (callsAt d skip false (r.take UVC_BULK_CHUNK)) _ hasks hthen
    rwa [take_append_drop] at hcons

end transfer

theorem callsAt_later (hd : d ≠ 0) (skip ended : Bool) (g : List UInt8) :
    callsAt d skip ended g = if skip then [] else .payloadData g :: if ended then [.payloadEnd] else [] := by
  unfold callsAt
  rw [if_neg hd, if_neg hd]
  cases skip <;> cases ended <;> rfl

/-- The payload goes on; by induction on what is left of it. -/
theorem goes_on (p : Sent st) (tail : List (List UInt8)) (hpay : s.payDone = d)
    (hd : d ≠ 0) (hlength : d + r.length = p.bytes.length) (hleft : st.payloadSize ≠ 0 → d < st.payloadSize)
    (hdvd : st.maxPacket ∣ d) :
    ∃ steps last, Ends mode st s d r
        (packets st.maxPacket r ++ ((if p.emptyPacket then [[]] else []) ++ tail)) tail steps last ∧
      ∃ datas : List (List UInt8), datas.flatten = r ∧
        steps.flatMap (·.calls) = if s.paySkip then [] else datas.map .payloadData ++ [.payloadEnd] := by
  induction hr : r.length using Nat.strong_induction_on generalizing s d r with
  | _ len ih =>
    have hasks := uvcBulkAsk_asks hleft
    cases outcome p hlength hleft hdvd with
    | last after hafter hgot hended =>
      refine ⟨_, _, ends_last hpay (.inl hd) (if_neg hd) hasks hafter (hgot tail) hended, [r], append_nil r, ?_⟩
      rw [flatMap_singleton, callsAt_later hd]
      rfl
    | more hchunk hlong hgot hgoes hmore =>
      obtain ⟨steps, last, hends, datas, hdatas, hcalls⟩ := @ih (len - UVC_BULK_CHUNK)
        (by unfold UVC_BULK_CHUNK at *; omega) (d + UVC_BULK_CHUNK)
        ⟨(callsAt d s.paySkip false (r.take UVC_BULK_CHUNK)).foldl (Call.run mode) s.ns, d + UVC_BULK_CHUNK,
          s.paySkip, 0⟩
        (r.drop UVC_BULK_CHUNK) rfl (by omega) (by rw [length_drop]; omega) hmore
        ((Nat.dvd_add_right hdvd).2 st.maxPacket_dvd) (by rw [length_drop, hr])
      refine ⟨_, _, ends_more hpay (if_neg hd) hasks hchunk hlong (hgot tail) hgoes hmore hends,
        r.take UVC_BULK_CHUNK :: datas, ?_, ?_⟩
      · rw [flatten_cons, hdatas, take_append_drop]
      · rw [flatMap_cons, hcalls, callsAt_later hd]
        cases s.paySkip <;> rfl

/-- The calls for a payload: it begins once, with first bytes that hold any header, and behind a valid one its
data comes once and in order, and it ends once. -/
def Calls (bytes : List UInt8) (calls : List Call) : Prop :=
  ∃ (first : List UInt8) (datas : List (List UInt8)), first ≠ [] ∧ first <+: bytes ∧
    headerLength first = headerLength bytes ∧ datas.flatten = bytes.drop (headerLength bytes) ∧
    calls = .payloadBegin first false 0 ::
      if headerLength bytes = 0 then [] else datas.map .payloadData ++ [.payloadEnd]

theorem callsAt_first (ended : Bool) (g : List UInt8) :
    callsAt 0 (headerLength g == 0) ended g =
      .payloadBegin g false 0 :: if headerLength g = 0 then [] else
        .payloadData (g.drop (headerLength g)) :: if ended then [.payloadEnd] else [] := by
  by_cases hnone : headerLength g = 0
  · rw [if_pos hnone, beq_iff_eq.2 hnone]
    cases ended <;> rfl
  · rw [if_neg hnone, beq_false_of_ne hnone]
    cases ended <;> rfl

theorem begins (p : Sent st) (tail : List (List UInt8)) (hpay : s.payDone = 0) :
    ∃ steps last, Ends mode st s 0 p.bytes (p.packets ++ tail) tail steps last ∧
      Calls p.bytes (steps.flatMap (·.calls)) := by
  have hleft : st.payloadSize ≠ 0 → 0 < st.payloadSize := Nat.pos_of_ne_zero
  have hasks := uvcBulkAsk_asks hleft
  rw [Sent.packets, append_assoc]
  cases outcome p (Nat.zero_add _) hleft (Nat.dvd_zero _) with
  | last after hafter hgot hended =>
    refine ⟨_, _, ends_last hpay (.inr p.some) (if_pos rfl) hasks hafter (hgot tail) hended,
      p.bytes, [p.bytes.drop (headerLength p.bytes)], p.some, prefix_rfl, rfl, append_nil _, ?_⟩
    rw [flatMap_singleton, callsAt_first]
    rfl
  | more hchunk hlong hgot hgoes hmore =>
    obtain ⟨steps, last, hends, datas, hdatas, hcalls⟩ := @goes_on mode st (0 + UVC_BULK_CHUNK)
      ⟨(callsAt 0 (headerLength (p.bytes.take UVC_BULK_CHUNK) == 0) false (p.bytes.take UVC_BULK_CHUNK)).foldl
          (Call.run mode) s.ns, 0 + UVC_BULK_CHUNK, headerLength (p.bytes.take UVC_BULK_CHUNK) == 0, 0⟩
      (p.bytes.drop UVC_BULK_CHUNK) p tail rfl (by decide) (by rw [length_drop]; omega) hmore
      ((Nat.dvd_add_right (Nat.dvd_zero _)).2 st.maxPacket_dvd)
    refine ⟨_, _, ends_more hpay (if_pos rfl) hasks hchunk hlong (hgot tail) hgoes hmore hends,
      p.bytes.take UVC_BULK_CHUNK,
      (p.bytes.take UVC_BULK_CHUNK).drop (headerLength p.bytes) :: datas, ?_, take_prefix _ _,
      headerLength_chunk _, ?_, ?_⟩
    · intro hnil
      have htake : (p.bytes.take UVC_BULK_CHUNK).length = UVC_BULK_CHUNK := length_take_of_le hlong
      rw [hnil] at htake
      exact absurd htake (by decide)
    · have hin : headerLength p.bytes ≤ (p.bytes.take UVC_BULK_CHUNK).length := by
        rw [length_take_of_le hlong]
        exact (headerLength_le p.bytes).trans (by decide)
      rw [flatten_cons, hdatas, ← drop_append_of_le_length hin, take_append_drop]
    · rw [flatMap_cons, hcalls, callsAt_first, headerLength_chunk]
      by_cases hnone : headerLength p.bytes = 0
      · rw [if_pos hnone, if_pos hnone, if_pos (beq_iff_eq.2 hnone)]
        rfl
      · rw [if_neg hnone, if_neg hnone, beq_false_of_ne hnone]
        rfl

def Carried (p : Sent st) (segment : List Step) : Prop :=
  ∃ steps after, segment = steps ++ after ∧ Brings st 0 p.bytes steps ∧ Calls p.bytes (steps.flatMap (·.calls)) ∧
    (after = [] ∨ ∃ ask, Asks st 0 ask ∧ after = [⟨ask, [], []⟩])

theorem carried (p : Sent st) (tail : List (List UInt8)) (hpay : s.payDone = 0) :
    ∃ segment last, Carried p segment ∧ last.payDone = 0 ∧
      last.ns = (segment.flatMap (·.calls)).foldl (Call.run mode) s.ns ∧
      uvcBulkRun mode st s (uvcBulkAsk st 0) (p.packets ++ tail) =
        (uvcBulkRun mode st last (uvcBulkAsk st 0) tail).behind segment := by
  obtain ⟨steps, last, ⟨⟨after, hafter, hrun⟩, hbetween, hengine, hbrings⟩, hcalls⟩ := begins p tail hpay
  rcases hafter with rfl | rfl
  · exact ⟨steps, last, ⟨steps, [], (append_nil _).symm, hbrings, hcalls, .inl rfl⟩, hbetween, hengine, hrun⟩
  · have hasks : Asks st 0 (uvcBulkAsk st 0) := uvcBulkAsk_asks Nat.pos_of_ne_zero
    have hnothing : uvcBulkTransfer mode st last false [] = ({ last with errors := 0 }, [], uvcBulkAsk st 0) := by
      unfold uvcBulkTransfer
      rw [if_neg Bool.false_ne_true, if_pos ⟨hbetween, rfl⟩, hbetween]
    have hempty : receive st.maxPacket (uvcBulkAsk st 0) ([[]] ++ tail) = some ([], tail) := by
      have hshort := @receive_short _ _ [] tail st.maxPacket_pos hasks.some
      rwa [packets_nil] at hshort
    refine ⟨steps ++ [⟨_, [], []⟩], { last with errors := 0 },
      ⟨steps, _, rfl, hbrings, hcalls, .inr ⟨_, hasks, rfl⟩⟩, hbetween, ?_, ?_⟩
    · rw [flatMap_append, hengine]
      exact congrArg (List.foldl _ _) (append_nil _).symm
    · rw [hrun, uvcBulkRun_step hasks.some.ne' hempty, hnothing, Seen.behind_behind]

/-- The transfers of any payloads, one after the other. -/
theorem bulk_payloads (mode : Mode) (st : Stream) (ns : NepVideoStream) (payloads : List (Sent st)) :
    ∃ segments : List (List Step), List.Forall₂ Carried payloads segments ∧
      (uvcBulkSeen mode st ns (payloads.flatMap Sent.packets)).steps = segments.flatten ∧
      (uvcBulkSeen mode st ns (payloads.flatMap Sent.packets)).rest = [] ∧
      (uvcBulkSeen mode st ns (payloads.flatMap Sent.packets)).last.payDone = 0 ∧
      (uvcBulkSeen mode st ns (payloads.flatMap Sent.packets)).last.ns =
        (segments.flatten.flatMap (·.calls)).foldl (Call.run mode) ns := by
  have hrun : ∀ s : State, s.payDone = 0 → ∃ segments : List (List Step), List.Forall₂ Carried payloads segments ∧
      ∃ last, uvcBulkRun mode st s (uvcBulkAsk st 0) (payloads.flatMap Sent.packets) = ⟨segments.flatten, last, []⟩ ∧
        last.payDone = 0 ∧ last.ns = (segments.flatten.flatMap (·.calls)).foldl (Call.run mode) s.ns := by
    induction payloads with
    | nil =>
      intro s hpay
      refine ⟨[], .nil, s, ?_, hpay, rfl⟩
      rw [uvcBulkRun, flatMap_nil]
      split <;> rfl
    | cons p payloads ih =>
      intro s hpay
      obtain ⟨segment, last, hcarried, hbetween, hengine, hfirst⟩ :=
        @carried mode _ _ p (payloads.flatMap Sent.packets) hpay
      obtain ⟨segments, hall, final, hrest, hdone, hns⟩ := ih last hbetween
      refine ⟨segment :: segments, .cons hcarried hall, final, ?_, hdone, ?_⟩
      · rw [flatMap_cons, hfirst, hrest]
        rfl
      · rw [hns, hengine, flatten_cons, flatMap_append, foldl_append]
  obtain ⟨segments, hall, last, hseen, hdone, hns⟩ := hrun ⟨ns, 0, false, 0⟩ rfl
  rw [← uvcBulkSeen] at hseen
  rw [hseen]
  exact ⟨segments, hall, rfl, rfl, hdone, hns⟩

def nameless : Stream := ⟨0, Nat.succ_pos _, 512, by decide⟩

def headless : Sent nameless := ⟨[1], by decide, by decide, false⟩

theorem headless_never_ends :
    Call.payloadEnd ∉
      (uvcBulkSeen frameBased nameless (.started [] .init) headless.packets).steps.flatMap (·.calls) := by
  obtain ⟨segment, last, ⟨steps, after, rfl, -, ⟨first, datas, -, -, -, -, hcalls⟩, hafter⟩, -, -, hrun⟩ :=
    @carried frameBased nameless ⟨.started [] .init, 0, false, 0⟩ headless [] rfl
  have hnone : uvcBulkRun frameBased nameless last (uvcBulkAsk nameless 0) [] = ⟨[], last, []⟩ := by
    rw [uvcBulkRun]
    split <;> rfl
  have hnothing : after.flatMap (·.calls) = [] := by
    rcases hafter with rfl | ⟨ask, -, rfl⟩ <;> rfl
  rw [append_nil, hnone] at hrun
  rw [uvcBulkSeen, hrun, Seen.behind, append_nil, flatMap_append, hcalls, hnothing]
  rintro (_ | ⟨_, h⟩)
  cases h

end Bulk

end Neptune.Uvc
