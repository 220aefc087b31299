import Neptune.Lib.Bytes
import Neptune.Lib.Word

/-! RNDIS messages by their length fields: the data packets of a transfer, the buffer of a query's reply and the
requests that are sent. -/

namespace Neptune.Rndis

open List

open Fields

def long (buf : List UInt8) (i : ℕ) : ℕ := value (get buf i 4)

/-- `RNDIS_HEADER_OFFSET`; `sizeof` of `struct urndis_packet_msg`, `EtherPacketHeader` and `urndis_set_req`. -/
def headerOffset : ℕ := 8

def packetMsgLen : ℕ := 44

def etherHeaderLen : ℕ := 14

def requestLen : ℕ := 28

def remoteNdisPacketMsg : ℕ := 1

/-- A call of `nReadPacket`, for the message at a place: the place is that of a 32 bit pointer. -/
structure Frame where
  msg : ℕ
  place : ℕ
  len : ℕ
  deriving DecidableEq

section

variable (buf : List UInt8)

def Accepted (msg left : ℕ) : Prop :=
  packetMsgLen ≤ left ∧ long buf msg = remoteNdisPacketMsg ∧ packetMsgLen ≤ long buf (msg + 4) ∧
    long buf (msg + 4) ≤ left ∧
    ulong (long buf (msg + 8) + long buf (msg + 12) + headerOffset) ≤ long buf (msg + 4) ∧
    etherHeaderLen ≤ long buf (msg + 12)

instance (msg left : ℕ) : Decidable (Accepted buf msg left) := inferInstanceAs (Decidable (_ ∧ _))

def frame (msg : ℕ) : Frame where
  msg := msg
  place := msg + ulong (headerOffset + long buf (msg + 8))
  len := long buf (msg + 12)

def decapLoop : ℕ → ℕ → ℕ → Option (List Frame)
  | 0, _, _ => none
  | rounds + 1, offset, len =>
    if len = 0 then some []
    else if len < packetMsgLen then some []
    else if long buf offset ≠ remoteNdisPacketMsg then some []
    else if long buf (offset + 4) < packetMsgLen then some []
    else if long buf (offset + 4) > len then some []
    else if ulong (long buf (offset + 8) + long buf (offset + 12) + headerOffset) > long buf (offset + 4) then some []
    else if long buf (offset + 12) < etherHeaderLen then some []
    else (decapLoop rounds (offset + long buf (offset + 4)) (len - long buf (offset + 4))).map (frame buf offset :: ·)

def urndisDecap : Option (List Frame) := decapLoop buf (buf.length + 1) 0 buf.length

/-- From one message on, the messages up to the first that is refused. -/
inductive Reached : ℕ → ℕ → Prop
  | here (msg : ℕ) : Reached msg msg
  | behind {i msg : ℕ} : Accepted buf i (buf.length - i) → Reached (i + long buf (i + 4)) msg → Reached i msg

def Frame.Inside (f : Frame) : Prop :=
  f.msg + long buf (f.msg + 4) ≤ buf.length ∧ f.msg ≤ f.place ∧ f.place + f.len ≤ f.msg + long buf (f.msg + 4)

def EndFits (msg : ℕ) : Prop := ulong (headerOffset + long buf (msg + 8)) + long buf (msg + 12) < 2 ^ 32

/-- What `urndis_ctrl_recv` leaves of a reply, in its buffer behind that nothing of the reply. -/
def urndisCtrlRecv (stale : List UInt8) : Option (List UInt8) :=
  let mem := buf ++ stale.drop buf.length
  if long mem 4 > 0x400 then none else some mem

def urndisCtrlHandleQuery : Option (ℕ × ℕ) :=
  let len := long buf 4
  let infobuflen := long buf 16
  let infobufoffset := long buf 20
  if long buf 12 ≠ 0 then none
  else if infobuflen > len ∨ infobufoffset > ulongSub len infobuflen ∨
      headerOffset > ulongSub (ulongSub len infobuflen) infobufoffset then none
  else some (headerOffset + infobufoffset, infobuflen)

end

def request (type : ℕ) (oid : UInt32) (buf : List UInt8) : List UInt8 :=
  let msg := putAll (replicate (requestLen + buf.length) 0)
    [(0, bytes 4 type), (4, bytes 4 (requestLen + buf.length)), (8, bytes 4 0), (12, bytes 4 oid.toNat),
      (16, bytes 4 buf.length)]
  let msg :=
    if buf.length ≠ 0 then put (put msg 20 (bytes 4 20)) 20 buf
    else put msg 20 (bytes 4 0)
  (put msg 24 (bytes 4 0)).take requestLen

def urndisCtrlSet : UInt32 → List UInt8 → List UInt8 := request 5

def urndisCtrlQuery : UInt32 → List UInt8 → List UInt8 := request 4

/-- A message on the wire says what it is, and has its buffer where it says. -/
structure Whole (type : ℕ) (oid : UInt32) (buf wire : List UInt8) : Prop where
  len : wire.length = requestLen + buf.length ∧ long wire 4 = wire.length
  type : long wire 0 = type
  rid : long wire 8 = 0
  oid : long wire 12 = oid.toNat
  infobuflen : long wire 16 = buf.length
  infobuf : get wire (headerOffset + long wire 20) buf.length = buf
  devicevchdl : long wire 24 = 0

variable {buf msg tail : List UInt8} {i left len rounds : ℕ}

theorem decapLoop_succ (h : Accepted buf i left) : decapLoop buf (rounds + 1) i left =
    (decapLoop buf rounds (i + long buf (i + 4)) (left - long buf (i + 4))).map (frame buf i :: ·) := by
  obtain ⟨hleft, htype, hmin, hmax, hsum, hether⟩ := h
  have hpos : left ≠ 0 := fun h => absurd hleft (by rw [h]; decide)
  rw [decapLoop, if_neg hpos, if_neg (Nat.not_lt.mpr hleft), if_neg (not_not_intro htype), if_neg (Nat.not_lt.mpr hmin),
    if_neg (Nat.not_lt.mpr hmax), if_neg (Nat.not_lt.mpr hsum), if_neg (Nat.not_lt.mpr hether)]

theorem decapLoop_refused (h : ¬ Accepted buf i left) : decapLoop buf (rounds + 1) i left = some [] := by
  rw [decapLoop]
  split_ifs with hpos hleft htype hmin hmax hsum hether
  · rfl
  · rfl
  · rfl
  · rfl
  · rfl
  · rfl
  · rfl
  · exact absurd ⟨Nat.not_lt.mp hleft, not_not.mp htype, Nat.not_lt.mp hmin, Nat.not_lt.mp hmax, Nat.not_lt.mp hsum,
      Nat.not_lt.mp hether⟩ h

theorem ofBE_lt (bs : List UInt8) : Bytes.ofBE bs < 256 ^ bs.length := by
  induction bs using List.reverseRecOn with
  | nil => exact Nat.one_pos
  | append_singleton bs b ih =>
    have hb : Bytes.ofBE [b] < 256 := by simpa [Bytes.ofBE] using b.toNat_lt
    rw [Bytes.ofBE_append, length_append, length_singleton, Nat.pow_succ]
    omega

theorem long_lt (buf : List UInt8) (i : ℕ) : long buf i < 2 ^ 32 := by
  have hlen : (get buf i 4).reverse.length ≤ 4 := by
    rw [length_reverse]
    exact length_take_le _ _
  exact Nat.lt_of_lt_of_le (ofBE_lt _) (Nat.pow_le_pow_right (by decide) hlen)

theorem get_behind (before msg behind : List UInt8) {k n : ℕ} (h : k + n ≤ msg.length) :
    get (before ++ (msg ++ behind)) (before.length + k) n = get msg k n := by
  rw [← get_append_left (g := behind) h]
  unfold Fields.get
  rw [drop_length_add_append]

theorem decapLoop_spec (buf : List UInt8) (i left : ℕ) (hleft : left = buf.length - i) (hrounds : left < rounds) : ∃ frames,
    decapLoop buf rounds i left = some frames ∧
      ∀ f, f ∈ frames ↔ ∃ msg, Reached buf i msg ∧ Accepted buf msg (buf.length - msg) ∧ f = frame buf msg := by
  induction rounds generalizing i left with
  | zero => exact absurd hrounds (Nat.not_lt_zero _)
  | succ rounds ih =>
    subst hleft
    by_cases h : Accepted buf i (buf.length - i)
    · have ⟨hmin, _, hlen, hmax, _⟩ := h
      have hpos : 0 < packetMsgLen := by decide
      obtain ⟨frames, hrun, hframes⟩ := ih (i + long buf (i + 4)) (buf.length - i - long buf (i + 4))
        (by omega) (by omega)
      refine ⟨frame buf i :: frames, by rw [decapLoop_succ h, hrun]; rfl, fun f => ?_⟩
      rw [mem_cons, hframes]
      constructor
      · rintro (rfl | ⟨msg, hmsg, hacc, rfl⟩)
        · exact ⟨i, .here i, h, rfl⟩
        · exact ⟨msg, .behind h hmsg, hacc, rfl⟩
      · rintro ⟨msg, hmsg, hacc, rfl⟩
        cases hmsg with
        | here => exact .inl rfl
        | behind _ hmsg => exact .inr ⟨msg, hmsg, hacc, rfl⟩
    · refine ⟨[], decapLoop_refused h, fun f => ⟨fun hf => absurd hf not_mem_nil, ?_⟩⟩
      rintro ⟨msg, hmsg, hacc, rfl⟩
      cases hmsg with
      | here => exact absurd hacc h
      | behind hi _ => exact absurd hi h

theorem inside_iff (h : Accepted buf i (buf.length - i)) : (frame buf i).Inside buf ↔ EndFits buf i := by
  obtain ⟨hmin, -, hlen, hmax, hsum, -⟩ := h
  have hlt := long_lt buf (i + 4)
  unfold Frame.Inside EndFits frame
  unfold ulong at *
  simp only [packetMsgLen, headerOffset] at *
  constructor
  · rintro ⟨-, -, hend⟩
    omega
  · intro hend
    exact ⟨by omega, Nat.le_add_right .., by omega⟩

structure WellFormed (msg : List UInt8) : Prop where
  type : long msg 0 = remoteNdisPacketMsg
  len : long msg 4 = msg.length
  header : packetMsgLen ≤ msg.length
  data : headerOffset + long msg 8 + long msg 12 ≤ msg.length
  ether : etherHeaderLen ≤ long msg 12

def content (msg : List UInt8) : List UInt8 := get msg (headerOffset + long msg 8) (long msg 12)

theorem decapLoop_messages {msgs : List (List UInt8)} (before : List UInt8) (rounds : ℕ) (hmsgs : ∀ msg ∈ msgs, WellFormed msg)
    (hrounds : (msgs.flatten ++ tail).length < rounds) : ∃ frames rest,
    decapLoop (before ++ (msgs.flatten ++ tail)) rounds before.length (msgs.flatten ++ tail).length =
        some (frames ++ rest) ∧
      frames.map (fun f => get (before ++ (msgs.flatten ++ tail)) f.place f.len) = msgs.map content ∧
      (tail = [] → rest = []) := by
  induction msgs generalizing before rounds with
  | nil =>
    obtain ⟨rest, hrun, -⟩ := decapLoop_spec (before ++ tail) before.length tail.length
      (by rw [length_append]; omega) hrounds
    refine ⟨[], rest, hrun, rfl, ?_⟩
    rintro rfl
    cases rounds with
    | zero => exact absurd hrounds (Nat.not_lt_zero _)
    | succ rounds => exact (Option.some.inj hrun).symm
  | cons msg msgs ih =>
    obtain ⟨hmsg, hmsgs⟩ := forall_mem_cons.mp hmsgs
    cases rounds with
    | zero => exact absurd hrounds (Nat.not_lt_zero _)
    | succ rounds =>
      have hflat : (msg :: msgs).flatten ++ tail = msg ++ (msgs.flatten ++ tail) := by rw [flatten_cons, append_assoc]
      rw [hflat] at hrounds ⊢
      obtain ⟨frames, rest, hrun, hframes, hrest⟩ := ih (before ++ msg) rounds hmsgs
        (by have := hmsg.header; rw [length_append] at hrounds; simp only [packetMsgLen] at this; omega)
      have hget := fun k n => get_behind before msg (msgs.flatten ++ tail) (k := k) (n := n)
      rw [length_append]
      rw [append_assoc, length_append] at hrun
      rw [append_assoc] at hframes
      generalize before ++ (msg ++ (msgs.flatten ++ tail)) = all at *
      have hlong : ∀ k, k + 4 ≤ msg.length → long all (before.length + k) = long msg k := fun k hk =>
        congrArg value (hget k 4 hk)
      obtain ⟨htype, hlen, hheader, hdata, hether⟩ := hmsg
      simp only [packetMsgLen, headerOffset] at hheader hdata
      have hlt := long_lt msg 4
      have htype' := (hlong 0 (by omega)).trans htype
      have hlen' := (hlong 4 (by omega)).trans hlen
      have hoffset' := hlong 8 (by omega)
      have hdatalen' := hlong 12 (by omega)
      have hacc : Accepted all before.length (msg.length + (msgs.flatten ++ tail).length) := by
        unfold Accepted ulong
        rw [hlen', hoffset', hdatalen', Nat.mod_eq_of_lt (by simp only [headerOffset]; omega)]
        simp only [packetMsgLen, headerOffset]
        exact ⟨by omega, htype', hheader, by omega, by omega, hether⟩
      refine ⟨frame all before.length :: frames, rest, ?_, ?_, hrest⟩
      · rw [decapLoop_succ hacc, hlen', Nat.add_sub_cancel_left, hrun]
        rfl
      · have hframe : frame all before.length =
            ⟨before.length, before.length + (headerOffset + long msg 8), long msg 12⟩ := by
          unfold frame ulong
          rw [hoffset', hdatalen', Nat.mod_eq_of_lt (by simp only [headerOffset]; omega)]
        rw [map_cons, map_cons, hframes, hframe]
        exact congrArg (· :: _) (hget _ _ (by simp only [headerOffset]; omega))

def Copied (reply : List UInt8) (place n : ℕ) : Prop := ∀ i, place ≤ i → i < place + n → i < reply.length

theorem urndisCtrlHandleQuery_spec {mem reply : List UInt8} {place n : ℕ}
    (h : urndisCtrlHandleQuery mem = some (place, n)) : place + n ≤ long mem 4 ∧
      (Copied reply place n ↔ long mem 16 = 0 ∨ headerOffset + long mem 20 + long mem 16 ≤ reply.length) := by
  have hlt := long_lt mem 4
  unfold urndisCtrlHandleQuery at h
  dsimp only at h
  split_ifs at h with hstatus hbad
  obtain ⟨hlen, hoffset, hend⟩ := not_or.mp hbad |>.imp id not_or.mp
  obtain ⟨rfl, rfl⟩ := Prod.mk.inj (Option.some.inj h)
  unfold ulongSub at hoffset hend
  refine ⟨by omega, fun hcopied => ?_, fun hfits i hlow hhigh => ?_⟩
  · by_cases hnone : long mem 16 = 0
    · exact .inl hnone
    · have := hcopied (headerOffset + long mem 20 + long mem 16 - 1) (by omega) (by omega)
      exact .inr (by omega)
  · omega

def header (type : ℕ) (oid : UInt32) : List (ℕ × List UInt8) :=
  [(0, bytes 4 type), (4, bytes 4 requestLen), (8, bytes 4 0), (12, bytes 4 oid.toNat), (16, bytes 4 0), (20, bytes 4 0),
    (24, bytes 4 0)]

theorem header_fits (type : ℕ) (oid : UInt32) :
    ∀ w ∈ header type oid, w.1 + w.2.length ≤ (replicate requestLen (0 : UInt8)).length := by
  simp [header, requestLen]

theorem length_header (type : ℕ) (oid : UInt32) :
    (putAll (replicate requestLen 0) (header type oid)).length = requestLen :=
  (length_putAll (header_fits type oid)).trans length_replicate

theorem request_nil (type : ℕ) (oid : UInt32) :
    request type oid [] = putAll (replicate requestLen 0) (header type oid) :=
  take_of_length_le (Nat.le_of_eq (length_header type oid))

theorem request_whole {type : ℕ} (htype : type < 2 ^ 32) (oid : UInt32) (buf : List UInt8) :
    Whole type oid buf (request type oid buf) ↔ buf = [] := by
  constructor
  · intro h
    have hlen : (request type oid buf).length ≤ requestLen := length_take_le _ _
    have hwhole := h.len.1
    exact length_eq_zero_iff.mp (by omega)
  · rintro rfl
    rw [request_nil]
    have hlen := length_header type oid
    have hfield : ∀ i n, (i, bytes 4 n) ∈ header type oid → n < 2 ^ 32 →
        long (putAll (replicate requestLen 0) (header type oid)) i = n := fun i n hmem hn => by
      have hget := get_putAll (header_fits type oid) (by simp [header]) hmem
      exact (congrArg value hget).trans (value_bytes_of_lt hn)
    exact ⟨⟨hlen, (hfield 4 requestLen (by simp [header]) (by decide)).trans hlen.symm⟩,
      hfield 0 type (by simp [header]) htype, hfield 8 0 (by simp [header]) (by decide),
      hfield 12 _ (by simp [header]) oid.toNat_lt, hfield 16 0 (by simp [header]) (by decide), take_zero,
      hfield 24 0 (by simp [header]) (by decide)⟩

theorem lengths_obeyed (buf reply stale : List UInt8) (oid : UInt32) : (∃ frames, urndisDecap buf = some frames ∧
      ((∀ f ∈ frames, f.Inside buf) ↔
        ∀ msg, Reached buf 0 msg → Accepted buf msg (buf.length - msg) → EndFits buf msg)) ∧
    (∀ (msgs : List (List UInt8)) (tail : List UInt8), (∀ msg ∈ msgs, WellFormed msg) → ∃ frames rest,
      urndisDecap (msgs.flatten ++ tail) = some (frames ++ rest) ∧
        frames.map (fun f => get (msgs.flatten ++ tail) f.place f.len) = msgs.map content ∧ (tail = [] → rest = [])) ∧
    (∀ mem place n, urndisCtrlRecv reply stale = some mem → urndisCtrlHandleQuery mem = some (place, n) →
      (Copied reply place n ↔ long mem 16 = 0 ∨ headerOffset + long mem 20 + long mem 16 ≤ reply.length)) ∧
    (Whole 5 oid buf (urndisCtrlSet oid buf) ↔ buf = []) ∧
    (Whole 4 oid buf (urndisCtrlQuery oid buf) ↔ buf = []) := by
  refine ⟨?_, fun msgs tail hmsgs => decapLoop_messages [] _ hmsgs (Nat.lt_succ_self _),
    fun mem place n _ h => (urndisCtrlHandleQuery_spec h).2,
    request_whole (by decide) oid buf, request_whole (by decide) oid buf⟩
  obtain ⟨frames, hrun, hframes⟩ := decapLoop_spec buf 0 buf.length rfl (Nat.lt_succ_self _)
  refine ⟨frames, hrun, fun h msg hmsg hacc => ?_, fun h f hf => ?_⟩
  · exact (inside_iff hacc).mp (h _ ((hframes _).mpr ⟨msg, hmsg, hacc, rfl⟩))
  · obtain ⟨msg, hmsg, hacc, rfl⟩ := (hframes f).mp hf
    exact (inside_iff hacc).mpr (h msg hmsg hacc)

/-- A message with an offset of 8 and a length of 2 ^ 32 - 16: the sum that is compared is 0. -/
def wrapped : List UInt8 :=
  bytes 4 1 ++ bytes 4 44 ++ bytes 4 8 ++ bytes 4 (2 ^ 32 - 16) ++ replicate 28 0

/-- And a packet filter of 11 is set. -/
theorem lengths_obeyed_false :
    urndisDecap wrapped = some [⟨0, 16, 2 ^ 32 - 16⟩] ∧ ¬ Frame.Inside wrapped ⟨0, 16, 2 ^ 32 - 16⟩ ∧
      ¬ Whole 5 0x1010e [11, 0, 0, 0] (urndisCtrlSet 0x1010e [11, 0, 0, 0]) := by
  refine ⟨by decide +kernel, fun h => ?_, fun h => ?_⟩
  · exact absurd h.2.2 (by decide +kernel)
  · exact absurd h.len.2 (by decide +kernel)

end Neptune.Rndis
