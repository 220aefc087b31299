import Neptune.Spec.StreamRead

/-! The pending bytes of a pipe stream stay in the buffer of pipe 0 exactly in the runs whose writes find room up to
the next packet boundary. A flush in a write that fails can leave the buffer full, and the next write then fills up a
packet behind its end; where no such flush fails there is always room. -/

namespace Neptune

open List Option

namespace PipeStream

open Runs PsdPipeStream

variable {pps t : PsdPipeStream} {data : List UInt8} {pend bulk outcome : Outcome}

section

variable (pps : PsdPipeStream) (data : List UInt8)

@[simp] theorem bytesPending_copyMem :
    (pps.copyMem data).bytesPending = pps.bytesPending + data.length := length_append

@[simp] theorem attrs_copyMem : (pps.copyMem data).attrs = pps.attrs := rfl

end

@[simp] theorem attrs_pendFlush (pps : PsdPipeStream) (outcome : Outcome) :
    (pps.pendFlush outcome).attrs = pps.attrs := rfl

theorem within_copyMem (h : Within pps) (data : List UInt8) :
    Within (pps.copyMem data) ↔ pps.bytesPending + data.length ≤ pps.attrs.bufferSize := by
  constructor
  · intro hw
    have := hw.pending
    rwa [bytesPending_copyMem] at this
  · intro hle
    refine ⟨by rwa [bytesPending_copyMem], fun c hc => ?_⟩
    rcases mem_append.mp hc with hc | hc
    · exact h.copies c hc
    · obtain rfl := mem_singleton.mp hc
      exact hle

theorem Within.send (h : Within pps) (data : List UInt8) (outcome : Outcome) (byFlush : Bool) :
    Within (pps.send data outcome byFlush) :=
  ⟨h.pending, h.copies⟩

theorem bytesPending_pendFlush (pps : PsdPipeStream) (outcome : Outcome) :
    (pps.pendFlush outcome).bytesPending =
      pps.bytesPending - outcome.actual (pps.bytesPending - pps.bytesPending % pps.attrs.maxPktSize) :=
  length_drop

theorem Within.pendFlush (h : Within pps) (outcome : Outcome) : Within (pps.pendFlush outcome) := by
  refine ⟨?_, h.copies⟩
  rw [bytesPending_pendFlush]
  exact (Nat.sub_le _ _).trans h.pending

theorem bulkAndRest_copies (pps : PsdPipeStream) (data : List UInt8) (actual : ℕ) (bulk : Outcome) :
    pps.copies <+: (pps.bulkAndRest data actual bulk).1.copies ∧
      (pps.bulkAndRest data actual bulk).1.attrs = pps.attrs := by
  unfold bulkAndRest
  dsimp only
  split
  · split
    · split
      · exact ⟨prefix_rfl, rfl⟩
      · exact ⟨prefix_append _ _, rfl⟩
    · exact ⟨prefix_rfl, rfl⟩
  · split
    · exact ⟨prefix_rfl, rfl⟩
    · exact ⟨prefix_append _ _, rfl⟩

theorem Within.bulkAndRest (h : Within pps) (actual : ℕ) (bulk : Outcome)
    (hlarge : pps.attrs.maxPktSize ≤ data.length → pps.bytesPending = 0)
    (hsmall : data.length < pps.attrs.maxPktSize → pps.bytesPending + data.length ≤ pps.attrs.bufferSize) :
    Within (pps.bulkAndRest data actual bulk).1 := by
  unfold PsdPipeStream.bulkAndRest
  dsimp only
  split
  · next hle =>
    split
    · split
      · exact h.send _ _ _
      · refine (within_copyMem (h.send _ _ _) _).mpr ?_
        have hmod := Nat.mod_lt data.length pps.attrs.pktSize_pos
        have hfits := pps.attrs.fits
        change pps.bytesPending + _ ≤ pps.attrs.bufferSize
        rw [hlarge hle, length_drop]
        omega
    · exact h.send _ _ _
  · next hlt =>
    split
    · exact h
    · exact (within_copyMem h _).mpr (hsmall (by omega))

theorem pendLength_spec (pps : PsdPipeStream) (length : ℕ) :
    pps.pendLength length ≤ length ∧
      (pps.bytesPending % pps.attrs.maxPktSize + length < pps.attrs.maxPktSize ∧ pps.pendLength length = length ∨
        pps.attrs.maxPktSize ≤ pps.bytesPending % pps.attrs.maxPktSize + length ∧
          (pps.bytesPending + pps.pendLength length) % pps.attrs.maxPktSize = 0 ∧
          pps.attrs.maxPktSize ≤ pps.bytesPending + pps.pendLength length ∧
          (pps.bytesPending + length ≤ pps.attrs.bufferSize ∧
              length - pps.pendLength length < pps.attrs.maxPktSize ∨
            pps.attrs.bufferSize < pps.bytesPending + length ∧
              pps.pendLength length = pps.attrs.maxPktSize - pps.bytesPending % pps.attrs.maxPktSize)) := by
  have hpos := pps.attrs.pktSize_pos
  unfold pendLength
  dsimp only
  generalize pps.attrs.maxPktSize = m at hpos ⊢
  generalize pps.bytesPending = bp
  have hbp := Nat.div_add_mod bp m
  have hr := Nat.mod_lt bp hpos
  split
  · next hcross =>
    split
    · next hfits =>
      have hs := Nat.div_add_mod (bp + length) m
      have hsr := Nat.mod_lt (bp + length) hpos
      have hq : m * (bp / m) + m ≤ m * ((bp + length) / m) := by
        rw [← Nat.mul_succ]
        refine Nat.mul_le_mul_left m ((Nat.le_div_iff_mul_le hpos).mpr ?_)
        rw [Nat.succ_mul, Nat.mul_comm]
        omega
      have hlast : bp + length - (bp + length) % m = m * ((bp + length) / m) := by omega
      rw [hlast]
      have hle : bp ≤ m * ((bp + length) / m) := by omega
      refine ⟨by omega, .inr ⟨hcross, ?_, by omega, .inl ⟨hfits, by omega⟩⟩⟩
      rw [Nat.add_sub_cancel' hle, Nat.mul_mod_right]
    · next hover =>
      have hnext : bp + (m - bp % m) = m * (bp / m) + m := by omega
      refine ⟨by omega, .inr ⟨hcross, ?_, by omega, .inr ⟨by omega, rfl⟩⟩⟩
      rw [hnext, ← Nat.mul_succ, Nat.mul_mod_right]
  · next hshort => exact ⟨le_rfl, .inl ⟨by omega, rfl⟩⟩

/-- The merge stays in the buffer exactly where the bytes to the next boundary do. -/
theorem pendLength_room (pps : PsdPipeStream) (length : ℕ) :
    pps.bytesPending + pps.pendLength length ≤ pps.attrs.bufferSize ↔
      pps.bytesPending + min length (pps.attrs.maxPktSize - pps.bytesPending % pps.attrs.maxPktSize) ≤
        pps.attrs.bufferSize := by
  obtain ⟨hle, ⟨hshort, heq⟩ | ⟨hcross, -, -, ⟨hfits, -⟩ | ⟨-, heq⟩⟩⟩ := pendLength_spec pps length
  · rw [heq, Nat.min_eq_left (by omega)]
  · have := Nat.min_le_left length (pps.attrs.maxPktSize - pps.bytesPending % pps.attrs.maxPktSize)
    exact ⟨fun _ => by omega, fun _ => by omega⟩
  · rw [heq, Nat.min_eq_right (by omega)]

theorem flushDue_eq_false {length : ℕ} (h : pps.flushDue length = false) :
    length < pps.attrs.maxPktSize ∧
      (pps.bytesPending < pps.attrs.bufferSize / 2 ∨ pps.bytesPending < pps.attrs.maxPktSize) := by
  simp only [flushDue, Bool.or_eq_false_iff, Bool.and_eq_false_iff, decide_eq_false_iff_not] at h
  omega

theorem bytesPending_pendDone (pps : PsdPipeStream) :
    (pps.pendFlush .done).bytesPending = pps.bytesPending % pps.attrs.maxPktSize := by
  rw [bytesPending_pendFlush, Outcome.actual]
  have := Nat.mod_le pps.bytesPending pps.attrs.maxPktSize
  omega

theorem rest_fits {length : ℕ}
    (hin : pps.bytesPending + pps.pendLength length ≤ pps.attrs.bufferSize)
    (hnot : length - pps.pendLength length < pps.attrs.maxPktSize ∧
      (pps.bytesPending + pps.pendLength length < pps.attrs.bufferSize / 2 ∨
        pps.bytesPending + pps.pendLength length < pps.attrs.maxPktSize)) :
    pps.bytesPending + pps.pendLength length + (length - pps.pendLength length) ≤ pps.attrs.bufferSize := by
  obtain ⟨hle, ⟨-, heq⟩ | ⟨-, -, hm, ⟨hfits, -⟩ | -⟩⟩ := pendLength_spec pps length
  · omega
  · omega
  · omega

theorem rest_aligned (pps : PsdPipeStream) (length : ℕ) :
    length - pps.pendLength length = 0 ∨
      (pps.bytesPending + pps.pendLength length) % pps.attrs.maxPktSize = 0 := by
  obtain ⟨-, ⟨-, heq⟩ | ⟨-, haligned, -⟩⟩ := pendLength_spec pps length
  · exact .inl (by omega)
  · exact .inr haligned

theorem bufferedWrite_copies (pps : PsdPipeStream) (data : List UInt8) (pend bulk : Outcome)
    (hpending : pps.bytesPending ≠ 0) :
    (pps.copyMem (data.take (pps.pendLength data.length))).copies <+:
      (pps.bufferedWrite data pend bulk).1.copies := by
  rw [bufferedWrite, if_neg hpending]
  dsimp only
  split
  · split
    · exact (bulkAndRest_copies ((pps.copyMem (data.take (pps.pendLength data.length))).pendFlush pend) _ _ _).1
    · exact prefix_rfl
  · exact (bulkAndRest_copies _ _ _ _).1

theorem length_take_pend (pps : PsdPipeStream) (data : List UInt8) :
    (data.take (pps.pendLength data.length)).length = pps.pendLength data.length := by
  rw [length_take, Nat.min_eq_left (pendLength_spec pps data.length).1]

theorem Within.bufferedWrite (h : Within pps) (pend bulk : Outcome)
    (hin : pps.bytesPending ≠ 0 → pps.bytesPending + pps.pendLength data.length ≤ pps.attrs.bufferSize) :
    Within (pps.bufferedWrite data pend bulk).1 := by
  rw [PsdPipeStream.bufferedWrite]
  split
  · next hempty =>
    refine h.bulkAndRest 0 bulk (fun _ => hempty) fun hlt => ?_
    have := pps.attrs.fits
    omega
  · next hpending =>
    have hlen := length_take_pend pps data
    have hmerged : Within (pps.copyMem (data.take (pps.pendLength data.length))) := by
      rw [within_copyMem h, hlen]
      exact hin hpending
    have hfits := pps.attrs.fits
    dsimp only
    split
    · split
      · next hdone =>
        subst hdone
        have hbp := bytesPending_pendDone (pps.copyMem (data.take (pps.pendLength data.length)))
        rw [bytesPending_copyMem, hlen, attrs_copyMem] at hbp
        refine (hmerged.pendFlush .done).bulkAndRest _ bulk (fun hle => ?_) fun hlt => ?_
        · rw [length_drop, attrs_pendFlush, attrs_copyMem] at hle
          have hpos := pps.attrs.pktSize_pos
          rw [hbp]
          exact (rest_aligned pps data.length).resolve_left (by omega)
        · have hmod := Nat.mod_lt (pps.bytesPending + pps.pendLength data.length) pps.attrs.pktSize_pos
          rw [length_drop, attrs_pendFlush, attrs_copyMem] at hlt
          rw [hbp, length_drop, attrs_pendFlush, attrs_copyMem]
          rcases rest_aligned pps data.length with hnone | haligned
          · omega
          · omega
      · exact hmerged.pendFlush pend
    · next hnot =>
      have hnone := flushDue_eq_false (Bool.eq_false_iff.mpr hnot)
      rw [bytesPending_copyMem, hlen, attrs_copyMem] at hnone
      refine hmerged.bulkAndRest _ bulk (fun hle => ?_) fun _ => ?_
      · rw [length_drop, attrs_copyMem] at hle
        omega
      · rw [bytesPending_copyMem, hlen, length_drop, attrs_copyMem]
        exact rest_fits (hin hpending) hnone

theorem bufferedWrite_attrs (pps : PsdPipeStream) (data : List UInt8) (pend bulk : Outcome) :
    (pps.bufferedWrite data pend bulk).1.attrs = pps.attrs := by
  rw [bufferedWrite]
  split
  · exact (bulkAndRest_copies _ _ _ _).2
  · dsimp only
    split
    · split
      · exact (bulkAndRest_copies _ _ _ _).2
      · rfl
    · exact (bulkAndRest_copies _ _ _ _).2

theorem bufferedWrite_within_iff (h : Within pps) (data : List UInt8) (pend bulk : Outcome) :
    Within (pps.bufferedWrite data pend bulk).1 ↔
      pps.bytesPending = 0 ∨
        pps.bytesPending + min data.length (pps.attrs.maxPktSize - pps.bytesPending % pps.attrs.maxPktSize) ≤
          pps.attrs.bufferSize := by
  rw [← pendLength_room]
  constructor
  · intro hw
    by_cases hpending : pps.bytesPending = 0
    · exact .inl hpending
    · refine .inr ?_
      have hcopy := hw.copies _ ((bufferedWrite_copies pps data pend bulk hpending).subset
        (mem_append_right _ (mem_singleton_self _)))
      rwa [bufferedWrite_attrs, length_take_pend] at hcopy
  · exact fun hroom => h.bufferedWrite pend bulk fun hpending => hroom.resolve_left hpending

theorem within_of_eq (h : Within pps) (written : List UInt8) (returns : List (ℕ × ℕ)) :
    Within { pps with written := written, returns := returns } := ⟨h.pending, h.copies⟩

theorem step_within {e : Call} (h : Within pps) (ht : step pps e = some t) : Within t ↔ HasRoom pps e := by
  cases e with
  | write buffer length pend bulk =>
    obtain rfl := some.inj ht
    have hiff : Within (pps.psdStreamWrite buffer length pend bulk).1 ↔ HasRoom pps (.write buffer length pend bulk) := by
      rw [psdStreamWrite]
      split
      · next hnil =>
        have hroom : HasRoom pps (.write buffer length pend bulk) := by
          refine .inr ?_
          rw [hnil, length_nil, Nat.zero_min]
          exact h.pending
        exact iff_of_true h hroom
      · exact bufferedWrite_within_iff h _ pend bulk
    exact Iff.trans ⟨fun hw => within_of_eq hw _ _, fun hw => within_of_eq hw _ _⟩ hiff
  | flush outcome =>
    obtain rfl := some.inj ht
    refine iff_of_true ?_ trivial
    rw [psdStreamFlush]
    split
    · exact h
    · exact ⟨Nat.zero_le _, h.copies⟩

theorem within_start (attrs : Attrs) : Within (start attrs) := ⟨Nat.zero_le _, fun _ hc => absurd hc not_mem_nil⟩

/-- Less than a packet is pending, or its whole packets fill less than half of the buffer. -/
def Quiet (pps : PsdPipeStream) : Prop :=
  pps.bytesPending < pps.attrs.maxPktSize ∨
    pps.bytesPending - pps.bytesPending % pps.attrs.maxPktSize < pps.attrs.bufferSize / 2

theorem Quiet.room (h : Quiet pps) (length : ℕ) :
    pps.bytesPending + min length (pps.attrs.maxPktSize - pps.bytesPending % pps.attrs.maxPktSize) ≤
      pps.attrs.bufferSize := by
  have hfits := pps.attrs.fits
  have hmin := Nat.min_le_right length (pps.attrs.maxPktSize - pps.bytesPending % pps.attrs.maxPktSize)
  have hmod := Nat.mod_lt pps.bytesPending pps.attrs.pktSize_pos
  by_cases hlt : pps.bytesPending < pps.attrs.maxPktSize
  · rw [Nat.mod_eq_of_lt hlt] at hmin
    rw [Nat.mod_eq_of_lt hlt]
    omega
  · have hhalf := h.resolve_left hlt
    have hpacket : pps.attrs.maxPktSize ≤ pps.bytesPending - pps.bytesPending % pps.attrs.maxPktSize := by
      have hdiv := Nat.div_add_mod pps.bytesPending pps.attrs.maxPktSize
      have hone : 1 ≤ pps.bytesPending / pps.attrs.maxPktSize :=
        (Nat.one_le_div_iff pps.attrs.pktSize_pos).mpr (by omega)
      have := Nat.mul_le_mul_left pps.attrs.maxPktSize hone
      omega
    omega

theorem Quiet.bulkAndRest (hquiet : data.length < pps.attrs.maxPktSize → Quiet (pps.copyMem data)) (actual : ℕ)
    (hlarge : pps.attrs.maxPktSize ≤ data.length → pps.bytesPending = 0) (hq : Quiet pps) :
    Quiet (pps.bulkAndRest data actual bulk).1 := by
  unfold PsdPipeStream.bulkAndRest
  dsimp only
  split
  · next hle =>
    split
    · split
      · exact hq
      · refine .inl ?_
        have hmod := Nat.mod_lt data.length pps.attrs.pktSize_pos
        rw [bytesPending_copyMem, length_drop]
        change pps.bytesPending + _ < pps.attrs.maxPktSize
        omega
    · exact hq
  · next hlt =>
    split
    · exact hq
    · exact hquiet (by omega)

theorem quiet_of_lt (h : pps.bytesPending < pps.attrs.maxPktSize) : Quiet pps := .inl h

theorem Quiet.bufferedWrite (hquiet : Quiet pps) (data : List UInt8) (bulk : Outcome) :
    Quiet (pps.bufferedWrite data .done bulk).1 := by
  have hpos := pps.attrs.pktSize_pos
  rw [PsdPipeStream.bufferedWrite]
  split
  · next hempty =>
    refine Quiet.bulkAndRest (fun hlt => quiet_of_lt ?_) 0 (fun _ => hempty) hquiet
    rw [bytesPending_copyMem, hempty, Nat.zero_add]
    exact hlt
  · have hlen := length_take_pend pps data
    have hrest := rest_aligned pps data.length
    dsimp only
    rw [if_pos rfl]
    split
    · have hbp := bytesPending_pendDone (pps.copyMem (data.take (pps.pendLength data.length)))
      rw [bytesPending_copyMem, hlen, attrs_copyMem] at hbp
      have hmod := Nat.mod_lt (pps.bytesPending + pps.pendLength data.length) hpos
      refine Quiet.bulkAndRest (fun hlt => quiet_of_lt ?_) _ (fun hle => ?_) (quiet_of_lt ?_)
      · rw [length_drop, attrs_pendFlush, attrs_copyMem] at hlt
        rw [bytesPending_copyMem, hbp, length_drop, attrs_copyMem, attrs_pendFlush, attrs_copyMem]
        omega
      · rw [length_drop, attrs_pendFlush, attrs_copyMem] at hle
        rw [hbp]
        exact hrest.resolve_left (by omega)
      · rw [hbp, attrs_pendFlush, attrs_copyMem]
        exact hmod
    · next hnot =>
      have hnone := flushDue_eq_false (Bool.eq_false_iff.mpr hnot)
      rw [bytesPending_copyMem, hlen, attrs_copyMem] at hnone
      have hmerged : Quiet (pps.copyMem (data.take (pps.pendLength data.length))) := by
        rw [Quiet, bytesPending_copyMem, hlen, attrs_copyMem]
        omega
      refine Quiet.bulkAndRest (fun hlt => ?_) _ (fun hle => ?_) hmerged
      · rw [Quiet, bytesPending_copyMem, bytesPending_copyMem, hlen, length_drop, attrs_copyMem, attrs_copyMem]
        obtain ⟨-, ⟨-, heq⟩ | ⟨-, haligned, hm, -⟩⟩ := pendLength_spec pps data.length
        · omega
        · refine .inr ?_
          rw [Nat.add_mod, haligned, Nat.zero_add, Nat.mod_mod, Nat.mod_eq_of_lt hnone.1]
          omega
      · rw [length_drop, attrs_copyMem] at hle
        omega

theorem Quiet.step {e : Call} (h : Quiet pps) (hdone : PendDone e) (ht : step pps e = some t) : Quiet t := by
  cases e with
  | write buffer length pend bulk =>
    obtain rfl := some.inj ht
    obtain rfl : pend = .done := hdone
    change Quiet (pps.psdStreamWrite buffer length .done bulk).1
    rw [psdStreamWrite]
    split
    · exact h
    · exact h.bufferedWrite _ bulk
  | flush outcome =>
    obtain rfl := some.inj ht
    rw [psdStreamFlush]
    split
    · exact h
    · exact quiet_of_lt pps.attrs.pktSize_pos

theorem Quiet.hasRoom (h : Quiet pps) (e : Call) : HasRoom pps e := by
  cases e with
  | write buffer length pend bulk => exact .inr (h.room _)
  | flush outcome => trivial

theorem quiet_runs (h : Quiet pps) (evs : List Call) (hdone : ∀ e ∈ evs, PendDone e) :
    Always step (fun s e _ => HasRoom s e) pps evs := by
  induction evs generalizing pps with
  | nil => trivial
  | cons e es ih =>
    refine fun t ht => ⟨h.hasRoom e, ih (h.step (hdone e mem_cons_self) ht) fun e' he => ?_⟩
    exact hdone e' (mem_cons_of_mem _ he)

theorem buffer_never_overrun (attrs : Attrs) (evs : List Call) :
    (Always step (fun _ _ t => Within t) (start attrs) evs ↔ Always step (fun s e _ => HasRoom s e) (start attrs) evs) ∧
      ((∀ e ∈ evs, PendDone e) → Always step (fun s e _ => HasRoom s e) (start attrs) evs) := by
  have hempty : (start attrs).bytesPending < (start attrs).attrs.maxPktSize := attrs.pktSize_pos
  refine ⟨?_, quiet_runs (quiet_of_lt hempty) evs⟩
  exact Always.invariant_iff (fun _ _ _ hw ht => step_within hw ht) (within_start attrs) evs

def onePacket : Attrs := setAttrs 4 4 1 none (Nat.succ_pos 3)

def overrunCalls : List Call :=
  [.write [1] (some 1) .done .done, .write [2, 3, 4, 5] (some 4) (.failed 0) .done,
    .write [5, 6, 7, 8] (some 4) .done .done]

theorem buffer_overrun :
    (∃ pps, Run step anyStep (start onePacket) overrunCalls pps ∧ pps.attrs.bufferSize = 4 ∧
      pps.copies = [(0, 1), (1, 3), (4, 4)]) ∧
    ¬∀ attrs evs pps, Run step anyStep (start attrs) evs pps → Within pps := by
  have hrun : Run step anyStep (start onePacket) overrunCalls _ := Run.get (by decide)
  refine ⟨⟨_, hrun, by decide, by decide⟩, fun hall => ?_⟩
  exact absurd ((hall _ _ _ hrun).copies (4, 4) (by decide)) (by decide)

def PsdPipeStream.sent (pps : PsdPipeStream) : List UInt8 := (pps.wire.map Transfer.data).flatten

theorem sent_send (pps : PsdPipeStream) (data : List UInt8) (outcome : Outcome) (byFlush : Bool) :
    (pps.send data outcome byFlush).sent = pps.sent ++ data := by
  simp [sent, send]

def Packets (pps : PsdPipeStream) : Prop :=
  ∀ t ∈ pps.wire, t.byFlush = false → pps.attrs.maxPktSize ∣ t.data.length

theorem Packets.send (h : Packets pps) {outcome : Outcome} {byFlush : Bool}
    (hdvd : byFlush = false → pps.attrs.maxPktSize ∣ data.length) : Packets (pps.send data outcome byFlush) := by
  intro t ht
  rcases mem_append.mp ht with ht | ht
  · exact h t ht
  · obtain rfl := mem_singleton.mp ht
    exact hdvd

/-- `data` has gone behind what was sent and pending before, `n` of its bytes counted. -/
structure Took (pps t : PsdPipeStream) (data : List UInt8) : Prop where
  bytes : t.sent ++ t.buffer = pps.sent ++ pps.buffer ++ data
  packets : Packets pps → Packets t
  attrs : t.attrs = pps.attrs

theorem Took.refl (pps : PsdPipeStream) : Took pps pps [] := ⟨(append_nil _).symm, id, rfl⟩

theorem Took.trans {u : PsdPipeStream} {data' : List UInt8} (h : Took pps t data) (h' : Took t u data') :
    Took pps u (data ++ data') :=
  ⟨by rw [h'.bytes, h.bytes, append_assoc], fun hp => h'.packets (h.packets hp), h'.attrs.trans h.attrs⟩

theorem took_copyMem (pps : PsdPipeStream) (data : List UInt8) : Took pps (pps.copyMem data) data :=
  ⟨(append_assoc _ _ _).symm, id, rfl⟩

theorem took_send (hempty : pps.buffer = []) (hdvd : pps.attrs.maxPktSize ∣ data.length) (outcome : Outcome) :
    Took pps (pps.send data outcome false) data := by
  refine ⟨?_, fun hp => hp.send fun _ => hdvd, rfl⟩
  change (pps.send data outcome false).sent ++ pps.buffer = _
  rw [sent_send, hempty, append_nil, append_nil]

theorem took_pendFlush (pps : PsdPipeStream) : Took pps (pps.pendFlush .done) [] := by
  have hlen : (pps.buffer.take (pps.bytesPending - pps.bytesPending % pps.attrs.maxPktSize)).length =
      pps.bytesPending - pps.bytesPending % pps.attrs.maxPktSize := by
    rw [length_take]
    exact Nat.min_eq_left (Nat.sub_le _ _)
  refine ⟨?_, fun hp => ?_, rfl⟩
  · change (pps.send _ .done false).sent ++ pps.buffer.drop _ = _
    rw [sent_send, append_assoc, append_nil, Outcome.actual, take_append_drop]
  · refine Packets.send hp fun _ => ?_
    rw [hlen]
    exact Nat.dvd_sub_mod _

theorem bulkAndRest_took (pps : PsdPipeStream) (data : List UInt8) (actual : ℕ)
    (hlarge : pps.attrs.maxPktSize ≤ data.length → pps.buffer = []) :
    Took pps (pps.bulkAndRest data actual .done).1 data ∧
      (pps.bulkAndRest data actual .done).2 = actual + data.length := by
  unfold bulkAndRest
  split
  · next hle =>
    have hlen : (data.take (data.length - data.length % pps.attrs.maxPktSize)).length =
        data.length - data.length % pps.attrs.maxPktSize := by
      rw [length_take, Nat.min_eq_left (Nat.sub_le _ _)]
    have hdvd : pps.attrs.maxPktSize ∣ (data.take (data.length - data.length % pps.attrs.maxPktSize)).length := by
      rw [hlen]
      exact Nat.dvd_sub_mod _
    have hsent := took_send (hlarge hle) hdvd .done
    rw [if_pos rfl]
    split
    · next hnone =>
      have hall := take_append_drop (data.length - data.length % pps.attrs.maxPktSize) data
      rw [hnone, append_nil] at hall
      rw [hall] at hsent hlen
      exact ⟨by rwa [hall], by rw [← hlen]⟩
    · have hboth := hsent.trans (took_copyMem _ (data.drop (data.length - data.length % pps.attrs.maxPktSize)))
      rw [take_append_drop] at hboth
      refine ⟨hboth, ?_⟩
      rw [length_drop]
      omega
  · split
    · next hnil => exact ⟨hnil ▸ .refl pps, by rw [hnil, length_nil, Nat.add_zero]⟩
    · exact ⟨took_copyMem pps data, rfl⟩

theorem bufferedWrite_took (pps : PsdPipeStream) (data : List UInt8) :
    Took pps (pps.bufferedWrite data .done .done).1 data ∧ (pps.bufferedWrite data .done .done).2 = data.length := by
  rw [bufferedWrite]
  split
  · next hempty =>
    have htook := bulkAndRest_took pps data 0 fun _ => length_eq_zero_iff.mp hempty
    rwa [Nat.zero_add] at htook
  · have hlen := length_take_pend pps data
    have hle := (pendLength_spec pps data.length).1
    have hmerged := took_copyMem pps (data.take (pps.pendLength data.length))
    have hcount : pps.pendLength data.length + (data.drop (pps.pendLength data.length)).length = data.length := by
      rw [length_drop]
      omega
    dsimp only
    rw [if_pos rfl]
    split
    · have hbp := bytesPending_pendDone (pps.copyMem (data.take (pps.pendLength data.length)))
      rw [bytesPending_copyMem, hlen, attrs_copyMem] at hbp
      obtain ⟨hbulk, hreturn⟩ := bulkAndRest_took
        ((pps.copyMem (data.take (pps.pendLength data.length))).pendFlush .done)
        (data.drop (pps.pendLength data.length)) (pps.pendLength data.length) fun hlarge => by
          rw [length_drop, attrs_pendFlush, attrs_copyMem] at hlarge
          have hpos := pps.attrs.pktSize_pos
          refine length_eq_zero_iff.mp (hbp.trans ?_)
          exact (rest_aligned pps data.length).resolve_left (by omega)
      have hall := (hmerged.trans (took_pendFlush _)).trans hbulk
      rw [append_nil, take_append_drop] at hall
      exact ⟨hall, hreturn.trans hcount⟩
    · next hnot =>
      have hnone := flushDue_eq_false (Bool.eq_false_iff.mpr hnot)
      rw [attrs_copyMem] at hnone
      obtain ⟨hbulk, hreturn⟩ := bulkAndRest_took (pps.copyMem (data.take (pps.pendLength data.length)))
        (data.drop (pps.pendLength data.length)) (pps.pendLength data.length) fun hlarge => by
          rw [length_drop, attrs_copyMem] at hlarge
          omega
      have hall := hmerged.trans hbulk
      rw [take_append_drop] at hall
      exact ⟨hall, hreturn.trans hcount⟩

structure Ordered (pps : PsdPipeStream) : Prop where
  bytes : pps.sent ++ pps.buffer = pps.written
  packets : Packets pps
  returns : ∀ r ∈ pps.returns, r.2 = r.1

theorem Ordered.write (h : Ordered pps) (buffer : List UInt8) (length : Option ℕ)
    (ht : step pps (.write buffer length .done .done) = some t) : Ordered t := by
  obtain rfl := some.inj ht
  have htook : Took pps (pps.psdStreamWrite buffer length .done .done).1 (pps.toWrite buffer length) ∧
      (pps.psdStreamWrite buffer length .done .done).2 = (pps.toWrite buffer length).length := by
    rw [psdStreamWrite]
    split
    · next hnil => exact ⟨hnil ▸ .refl pps, by rw [hnil, length_nil]⟩
    · exact bufferedWrite_took pps _
  refine ⟨?_, htook.1.packets h.packets, fun r hr => ?_⟩
  · exact htook.1.bytes.trans (congrArg (· ++ pps.toWrite buffer length) h.bytes)
  · rcases mem_append.mp hr with hr | hr
    · exact h.returns r hr
    · obtain rfl := mem_singleton.mp hr
      exact htook.2

theorem Ordered.flush (h : Ordered pps) (ht : step pps (.flush .done) = some t) : Ordered t ∧ t.buffer = [] := by
  obtain rfl := some.inj ht
  rw [psdStreamFlush]
  split
  · next hempty => exact ⟨h, length_eq_zero_iff.mp hempty⟩
  · refine ⟨⟨?_, ?_, h.returns⟩, rfl⟩
    · change (pps.send pps.buffer .done true).sent ++ [] = _
      rw [sent_send, append_nil]
      exact h.bytes
    · exact Packets.send h.packets nofun

theorem ordered_start (attrs : Attrs) : Ordered (start attrs) :=
  ⟨rfl, fun _ ht => absurd ht not_mem_nil, fun _ hr => absurd hr not_mem_nil⟩

theorem Ordered.step {e : Call} (h : Ordered pps) (hdone : AllDone e) (ht : step pps e = some t) : Ordered t := by
  cases e with
  | write buffer length pend bulk =>
    obtain ⟨rfl, rfl⟩ : pend = .done ∧ bulk = .done := hdone
    exact h.write buffer length ht
  | flush outcome =>
    obtain rfl : outcome = .done := hdone
    exact (h.flush ht).1

theorem writes_carried {attrs : Attrs} {evs : List Call}
    (h : Run step (fun _ e => AllDone e) (start attrs) evs pps) (ht : PipeStream.step pps (.flush .done) = some t) :
    Carried t := by
  have hordered : Ordered pps := h.invariant Ordered (ordered_start attrs) fun _ _ _ hi hok => hi.step hok
  obtain ⟨hflushed, hempty⟩ := hordered.flush ht
  refine ⟨hflushed.returns, ?_, hflushed.packets⟩
  have hbytes := hflushed.bytes
  rwa [hempty, append_nil] at hbytes

def routesCalls : List Call :=
  [.write [1, 2, 3] (some 3) .done .done, .write [4, 5, 6, 7, 8, 9, 10, 11, 12, 13] (some 10) .done .done]

def twoPackets : Attrs := setAttrs 4 8 1 none (Nat.succ_pos 3)

theorem writes_carried_routes :
    ∃ pps t, Run step (fun _ e => AllDone e) (start twoPackets) routesCalls pps ∧
      PipeStream.step pps (.flush .done) = some t ∧ Carried t ∧
      t.wire.map Transfer.data = [[1, 2, 3, 4], [5, 6, 7, 8, 9, 10, 11, 12], [13]] := by
  have hmeets : Meets step (fun _ e => AllDone e) (start twoPackets) routesCalls :=
    ⟨⟨rfl, rfl⟩, fun _ _ => ⟨⟨rfl, rfl⟩, fun _ _ => trivial⟩⟩
  have hrun : Run step (fun _ e => AllDone e) (start twoPackets) routesCalls _ := Run.get_meets hmeets (by decide)
  exact ⟨_, _, hrun, rfl, writes_carried hrun rfl, by decide⟩

end PipeStream

end Neptune
