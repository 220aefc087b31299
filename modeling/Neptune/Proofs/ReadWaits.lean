import Neptune.Proofs.TermScans

/-! A buffered read that comes to its `Wait()` has a packet to wait for exactly when, at the start of each loop body
with bytes left to read, not every pipe of the stream is a packet without data: the loop that frees the ready pipes
runs on the number of bytes, and such packets stay where they are. -/

namespace Neptune.StreamRead

open List Option

open PipeStream Runs

variable {pps t : PsdPipeStream} {pp : Pipe} {l ready rest : List Pipe} {pass next : Pass} {call : Call}

/-! Every pipe is somewhere, and the counters are those of the lists. `l` are the replies not looked at yet. -/

def HeadOffset (offset : ℕ) : List Pipe → Prop
  | [] => offset = 0
  | pp :: _ => offset = 0 ∨ offset < pp.actual

structure InvOf (pps : PsdPipeStream) (l : List Pipe) : Prop where
  pipes : pps.free.length + pps.ready.length + pps.inFlight.length + l.length = pps.attrs.numPipes
  req : pps.reqBytes = (pps.inFlight.map Pipe.length).sum + (l.map Pipe.length).sum
  pending : pps.bytesPending + pps.offset = (pps.ready.map Pipe.actual).sum
  offset : HeadOffset pps.offset pps.ready

def Inv (pps : PsdPipeStream) : Prop := InvOf pps pps.replied

theorem HeadOffset.snoc {offset : ℕ} (h : HeadOffset offset ready) (pp : Pipe) : HeadOffset offset (ready ++ [pp]) := by
  cases ready with
  | nil => exact .inl h
  | cons head rest => exact h

theorem InvOf.getMsg {term : Bool} (h : InvOf pps (pp :: l)) : InvOf (PsdPipeStream.getMsg (pps, term) pp).1 l := by
  have hpipes := h.pipes
  have hreq := h.req
  have hpending := h.pending
  rw [length_cons] at hpipes
  rw [map_cons, sum_cons] at hreq
  have hrest : pps.reqBytes - pp.length = (pps.inFlight.map Pipe.length).sum + (l.map Pipe.length).sum := by omega
  unfold PsdPipeStream.getMsg
  dsimp only
  split
  · refine ⟨?_, hrest, h.pending, h.offset⟩
    dsimp only
    rw [length_append, length_singleton]
    omega
  · refine ⟨?_, hrest, ?_, h.offset.snoc pp⟩
    · dsimp only
      rw [length_append, length_singleton]
      omega
    · dsimp only
      rw [map_append, sum_append, map_singleton, sum_singleton]
      omega

structure Fetched (pps : PsdPipeStream) (term : Bool) (l : List Pipe) (res : PsdPipeStream × Bool) : Prop where
  inv : InvOf pps l → InvOf res.1 []
  free : res.1.free = pps.free ++ (l.filter Pipe.failed).map Pipe.num
  ready : res.1.ready = pps.ready ++ l.filter fun pp => !pp.failed
  inFlight : res.1.inFlight = pps.inFlight
  replied : res.1.replied = pps.replied
  attrs : res.1.attrs = pps.attrs
  term : res.2 = (term || l.any Pipe.failed)

theorem getMsg_foldl (l : List Pipe) (pps : PsdPipeStream) (term : Bool) :
    Fetched pps term l (l.foldl PsdPipeStream.getMsg (pps, term)) := by
  induction l generalizing pps term with
  | nil => exact ⟨id, by simp, by simp, rfl, rfl, rfl, by simp⟩
  | cons pp l ih =>
    have hstep := ih (PsdPipeStream.getMsg (pps, term) pp).1 (PsdPipeStream.getMsg (pps, term) pp).2
    rw [foldl_cons]
    refine ⟨fun h => hstep.inv h.getMsg, ?_, ?_, ?_, ?_, ?_, ?_⟩
    · rw [hstep.free, PsdPipeStream.getMsg]
      cases hf : pp.failed <;> simp [hf]
    · rw [hstep.ready, PsdPipeStream.getMsg]
      cases hf : pp.failed <;> simp [hf]
    · rw [hstep.inFlight, PsdPipeStream.getMsg]
      cases pp.failed <;> rfl
    · rw [hstep.replied, PsdPipeStream.getMsg]
      cases pp.failed <;> rfl
    · rw [hstep.attrs, PsdPipeStream.getMsg]
      cases pp.failed <;> rfl
    · rw [hstep.term, PsdPipeStream.getMsg]
      cases hf : pp.failed <;> simp [hf]

theorem dataOf_length (pps : PsdPipeStream) (pp : Pipe) (length : ℕ) : (pps.dataOf pp length).length = length := by
  rw [PsdPipeStream.dataOf, length_map, length_range]

theorem take_spec (pass : Pass) (pp : Pipe) :
    (pass.take pp).1 ≤ min pass.length (pp.actual - pass.pps.offset) ∧
      ((pass.take pp).2.2 = false → (pass.take pp).1 = min pass.length (pp.actual - pass.pps.offset)) := by
  unfold Pass.take
  dsimp only
  split
  · exact ⟨le_rfl, fun _ => rfl⟩
  · cases hterm : pass.pps.attrs.termArray with
    | none => exact ⟨le_rfl, fun _ => rfl⟩
    | some tarrptr =>
      have hlen := dataOf_length pass.pps pp (min pass.length (pp.actual - pass.pps.offset))
      constructor
      · refine le_of_le_of_eq ?_ hlen
        dsimp only
        rw [readScan, scan_taken]
        exact length_upTo_le _ _
      · intro hnone
        dsimp only at hnone ⊢
        rw [readScan, scan_found] at hnone
        rw [readScan, scan_taken, upTo_of_none hnone, hlen]

structure Apart (pps t : PsdPipeStream) : Prop where
  inFlight : t.inFlight = pps.inFlight
  replied : t.replied = pps.replied
  attrs : t.attrs = pps.attrs
  free : pps.free <+: t.free

theorem Apart.refl (pps : PsdPipeStream) : Apart pps pps := ⟨rfl, rfl, rfl, prefix_rfl⟩

theorem Apart.trans {u : PsdPipeStream} (h : Apart pps t) (h' : Apart t u) : Apart pps u :=
  ⟨h'.inFlight.trans h.inFlight, h'.replied.trans h.replied, h'.attrs.trans h.attrs, h.free.trans h'.free⟩

/-- A packet at the head: used up and its pipe freed, or the loop ends on it. -/
structure Copied (pass : Pass) (rest : List Pipe) (next : Pass × Bool) : Prop where
  inv : InvOf next.1.pps []
  apart : Apart pass.pps next.1.pps
  used : next.2 = true → next.1.pps.ready = rest ∧ next.1.pps.free ≠ []
  le : next.1.length ≤ pass.length
  left : next.2 = false → next.1.length = 0 ∨ next.1.term = true
  term : pass.term = true → next.1.term = true

theorem copyPacket_spec (h : InvOf pass.pps []) (hready : pass.pps.ready = pp :: rest)
    (hoff : ¬pp.actual < pass.pps.offset) : Copied pass rest (pass.copyPacket pp rest) := by
  obtain ⟨hle, hall⟩ := take_spec pass pp
  have hpipes := h.pipes
  have hpending := h.pending
  rw [hready] at hpipes hpending
  rw [length_cons] at hpipes
  rw [map_cons, sum_cons] at hpending
  have hmin := Nat.le_min.mp hle
  unfold Pass.copyPacket
  dsimp only
  split
  · next hend =>
    refine ⟨⟨?_, h.req, ?_, ?_⟩, ⟨rfl, rfl, rfl, prefix_append _ _⟩, fun _ => ⟨rfl, ?_⟩, Nat.sub_le _ _, nofun,
      fun hterm => ?_⟩
    · dsimp only
      rw [length_append, length_singleton]
      omega
    · dsimp only
      omega
    · cases rest with
      | nil => exact rfl
      | cons head rest => exact .inl rfl
    · exact append_ne_nil_of_right_ne_nil _ (cons_ne_nil _ _)
    · simp [hterm]
  · next hleft =>
    refine ⟨⟨h.pipes, h.req, ?_, ?_⟩, ⟨rfl, rfl, rfl, prefix_rfl⟩, nofun, Nat.sub_le _ _, fun _ => ?_,
      fun hterm => ?_⟩
    · dsimp only
      rw [hready, map_cons, sum_cons]
      omega
    · dsimp only
      rw [hready]
      exact .inr (by omega)
    · by_cases hterm : (pass.take pp).2.2 = true
      · exact .inr (by simp [hterm])
      · have := hall (Bool.eq_false_iff.mpr hterm)
        refine .inl ?_
        dsimp only
        omega
    · simp [hterm]

/-- The loop ends with nothing asked for, with nothing pending or at the end of the call; what it used up is free. -/
structure Drained (pass next : Pass) : Prop where
  inv : InvOf next.pps []
  apart : Apart pass.pps next.pps
  ends : next.length = 0 ∨ next.pps.bytesPending = 0 ∨ next.term = true
  freed : pass.length ≠ 0 → pass.pps.bytesPending ≠ 0 → next.pps.free ≠ [] ∨ next.length = 0 ∨ next.term = true
  idle : pass.pps.bytesPending = 0 → next = pass
  le : next.length ≤ pass.length
  term : pass.term = true → next.term = true

theorem drain_spec (ready : List Pipe) (pass : Pass) (h : InvOf pass.pps []) (hready : pass.pps.ready = ready) :
    ∃ next, Pass.drain ready pass = some next ∧ Drained pass next := by
  induction ready generalizing pass with
  | nil =>
    have hempty : pass.pps.bytesPending = 0 := by
      have hpending := h.pending
      rw [hready] at hpending
      exact (Nat.add_eq_zero_iff.mp hpending).1
    rw [Pass.drain, if_pos (.inr hempty)]
    exact ⟨pass, rfl, h, .refl _, .inr (.inl hempty), fun _ hne => absurd hempty hne, fun _ => rfl, le_rfl,
      id⟩
  | cons pp rest ih =>
    rw [Pass.drain]
    split
    · next hstop =>
      refine ⟨pass, rfl, h, .refl _, ?_, fun hlen hne => ?_, fun _ => rfl, le_rfl, id⟩
      · rcases hstop with hlen | hempty
        · exact .inl hlen
        · exact .inr (.inl hempty)
      · exact absurd hstop (not_or.mpr ⟨hlen, hne⟩)
    · next hgo =>
      have hne := (not_or.mp hgo).2
      have hoff : ¬pp.actual < pass.pps.offset := by
        have hhead := h.offset
        rw [hready] at hhead
        rcases hhead with hzero | hlt <;> omega
      have hcopied := copyPacket_spec h hready hoff
      rw [if_neg hoff]
      dsimp only
      split
      · next hon =>
        obtain ⟨hused, -⟩ := Bool.and_eq_true_iff.mp hon
        obtain ⟨hrest, hfree⟩ := hcopied.used hused
        obtain ⟨next, hnext, hdrained⟩ := ih (pass.copyPacket pp rest).1 hcopied.inv hrest
        refine ⟨next, hnext, hdrained.inv, hcopied.apart.trans hdrained.apart, hdrained.ends, fun _ _ => .inl ?_,
          fun hempty => absurd hempty hne, hdrained.le.trans hcopied.le,
          fun hterm => hdrained.term (hcopied.term hterm)⟩
        intro hnil
        exact hfree (prefix_nil.mp (hnil ▸ hdrained.apart.free))
      · next hend =>
        have hout : (pass.copyPacket pp rest).1.length = 0 ∨ (pass.copyPacket pp rest).1.term = true := by
          cases hused : (pass.copyPacket pp rest).2 with
          | true => exact .inr (by simpa [hused] using hend)
          | false => exact hcopied.left hused
        exact ⟨_, rfl, hcopied.inv, hcopied.apart, hout.imp id .inr, fun _ _ => .inr hout,
          fun hempty => absurd hempty hne, hcopied.le, hcopied.term⟩

structure Sent (pps t : PsdPipeStream) : Prop where
  inv : InvOf pps [] → InvOf t []
  inFlight : pps.inFlight <+: t.inFlight
  replied : t.replied = pps.replied
  attrs : t.attrs = pps.attrs
  idle : pps.free = [] → t = pps

theorem Sent.refl (pps : PsdPipeStream) : Sent pps pps := ⟨id, prefix_rfl, rfl, rfl, fun _ => rfl⟩

theorem sendPipe_sent {num : ℕ} {free : List ℕ} (hfree : pps.free = num :: free) (inPlace : Option (ℕ × ℕ))
    (length : ℕ) : Sent pps (pps.sendPipe num free inPlace length) := by
  refine ⟨fun h => ⟨?_, ?_, h.pending, h.offset⟩, prefix_append _ _, rfl, rfl, fun hnil => ?_⟩
  · have hpipes := h.pipes
    rw [hfree, length_cons] at hpipes
    dsimp only [PsdPipeStream.sendPipe]
    rw [length_append, length_singleton]
    omega
  · have hreq := h.req
    dsimp only [PsdPipeStream.sendPipe]
    rw [map_append, sum_append, map_singleton, sum_singleton]
    dsimp only
    omega
  · rw [hfree] at hnil
    cases hnil

theorem Sent.trans {u : PsdPipeStream} (h : Sent pps t) (h' : Sent t u) : Sent pps u := by
  refine ⟨fun hi => h'.inv (h.inv hi), h.inFlight.trans h'.inFlight, h'.replied.trans h.replied,
    h'.attrs.trans h.attrs, fun hnil => ?_⟩
  obtain rfl := h.idle hnil
  exact h'.idle hnil

theorem Sent.inFlight_ne (h : Sent pps t) (hne : pps.inFlight ≠ []) : t.inFlight ≠ [] := by
  intro hnil
  exact hne (prefix_nil.mp (hnil ▸ h.inFlight))

theorem sendSlow_sent (free : List ℕ) (pps : PsdPipeStream) (remlen : ℕ) (hfree : pps.free = free) :
    Sent pps (sendSlow free pps remlen) ∧
      (free ≠ [] → pps.reqBytes < remlen → (sendSlow free pps remlen).inFlight ≠ []) := by
  induction free generalizing pps remlen with
  | nil => exact ⟨.refl pps, fun hne => absurd rfl hne⟩
  | cons num rest ih =>
    rw [sendSlow]
    split
    · dsimp only
      generalize (if pps.readAhead = true ∨ remlen % pps.attrs.maxPktSize ≠ 0 then pps.attrs.bufferSize
        else remlen) = size
      have hrest := (ih (pps.sendPipe num rest none size) size rfl).1
      refine ⟨(sendPipe_sent hfree none size).trans hrest, fun _ _ => hrest.inFlight_ne ?_⟩
      exact append_ne_nil_of_right_ne_nil _ (cons_ne_nil _ _)
    · next hstop => exact ⟨.refl pps, fun _ hlt => absurd (.inl hlt) hstop⟩

theorem sendFast_sent (pass : Pass) :
    Sent pass.pps pass.sendFast.1 ∧
      (pass.sendFast = (pass.pps, pass.length) ∨ pass.sendFast.1.inFlight ≠ []) := by
  unfold Pass.sendFast
  dsimp only
  split
  · split
    · exact ⟨.refl _, .inl rfl⟩
    · next num rest hfree =>
      refine ⟨sendPipe_sent hfree _ _, .inr ?_⟩
      exact append_ne_nil_of_right_ne_nil _ (cons_ne_nil _ _)
  · exact ⟨.refl _, .inl rfl⟩

def Pass.send (pass : Pass) : PsdPipeStream := sendSlow pass.sendFast.1.free pass.sendFast.1 pass.sendFast.2

theorem send_sent (pass : Pass) :
    Sent pass.pps pass.send ∧
      (pass.pps.free ≠ [] → pass.pps.reqBytes < pass.length → pass.send.inFlight ≠ []) := by
  obtain ⟨hfast, hor⟩ := sendFast_sent pass
  obtain ⟨hslow, hsome⟩ := sendSlow_sent pass.sendFast.1.free pass.sendFast.1 pass.sendFast.2 rfl
  refine ⟨hfast.trans hslow, fun hfree hlt => ?_⟩
  rcases hor with heq | hne
  · rw [heq] at hsome
    rw [Pass.send, heq]
    exact hsome hfree hlt
  · exact hslow.inFlight_ne hne

theorem pass_eq (pps : PsdPipeStream) (call : Call) :
    pps.pass call =
      match Pass.drain pps.getMsgs.1.ready
        ⟨pps.getMsgs.1, call.length.getD pps.getMsgs.1.bytesPending, call.actual, call.dest, pps.getMsgs.2⟩ with
      | none => { pps.getMsgs.1 with call := none }
      | some pass =>
        if pass.term ∨ pass.length = 0 ∨ pps.attrs.doNotWait then pass.send.returns pass.actual pass.dest
        else { pass.send with call := some ⟨some pass.length, pass.actual, pass.dest, true⟩ } := rfl

theorem pass_spec (h : Inv pps) (call : Call) :
    Fetched { pps with replied := [] } false pps.replied pps.getMsgs ∧
      ∃ next, Drained ⟨pps.getMsgs.1, call.length.getD pps.getMsgs.1.bytesPending, call.actual, call.dest,
          pps.getMsgs.2⟩ next ∧ Sent next.pps next.send ∧
        pps.pass call =
          if next.term ∨ next.length = 0 ∨ pps.attrs.doNotWait then next.send.returns next.actual next.dest
          else { next.send with call := some ⟨some next.length, next.actual, next.dest, true⟩ } := by
  have hfetched := getMsg_foldl pps.replied { pps with replied := [] } false
  have hinv : InvOf { pps with replied := [] } pps.replied := ⟨h.pipes, h.req, h.pending, h.offset⟩
  obtain ⟨next, hnext, hdrained⟩ := drain_spec pps.getMsgs.1.ready
    ⟨pps.getMsgs.1, call.length.getD pps.getMsgs.1.bytesPending, call.actual, call.dest, pps.getMsgs.2⟩
    (hfetched.inv hinv) rfl
  refine ⟨hfetched, next, hdrained, (send_sent next).1, ?_⟩
  rw [pass_eq, hnext]

theorem pending_of_data (pp : Pipe) (h : InvOf pps []) (hpp : pp ∈ pps.ready) (hdata : pp.actual ≠ 0) :
    pps.bytesPending ≠ 0 := by
  intro hzero
  have hpending := h.pending
  have hoffset := h.offset
  cases hready : pps.ready with
  | nil =>
    rw [hready] at hpp
    exact not_mem_nil hpp
  | cons head rest =>
    rw [hready] at hpp hpending hoffset
    have hle : pp.actual ≤ ((head :: rest).map Pipe.actual).sum := le_sum_of_mem (List.mem_map_of_mem hpp)
    rw [map_cons, sum_cons] at hle hpending
    rcases hoffset with hnone | hlt <;> omega

theorem send_outstanding (h : InvOf pass.pps []) (hfree : pass.pps.free ≠ []) (hlen : pass.length ≠ 0) :
    pass.send.inFlight ≠ [] := by
  obtain ⟨hsent, hsome⟩ := send_sent pass
  by_cases hreq : pass.pps.reqBytes = 0
  · exact hsome hfree (by omega)
  · refine hsent.inFlight_ne fun hnil => hreq ?_
    rw [h.req, hnil]
    rfl

section

variable (h : Inv pps) (hcall : pps.call = some call)
include h hcall

theorem alive_wait (hfed : Asks pps → Alive pps)
    (hnext : Drained ⟨pps.getMsgs.1, call.length.getD pps.getMsgs.1.bytesPending, call.actual, call.dest,
      pps.getMsgs.2⟩ next) (hfetched : Fetched { pps with replied := [] } false pps.replied pps.getMsgs)
    (hterm : next.term = false) (hlen : next.length ≠ 0) (hwaits : pps.attrs.doNotWait = false) :
    next.send.inFlight ≠ [] := by
  have hinv : InvOf pps.getMsgs.1 [] := hfetched.inv ⟨h.pipes, h.req, h.pending, h.offset⟩
  have hgot : pps.getMsgs.2 = false := by
    by_contra hgot
    rw [hnext.term (Bool.eq_true_of_not_eq_false hgot)] at hterm
    cases hterm
  -- where something is pending, the loop over the ready pipes frees one
  have hdrain : pps.getMsgs.1.bytesPending ≠ 0 → next.send.inFlight ≠ [] := by
    intro hpending
    have hasked : call.length.getD pps.getMsgs.1.bytesPending ≠ 0 := by
      intro hzero
      have hle := hnext.le
      dsimp only at hle
      omega
    rcases hnext.freed hasked hpending with hfree | hzero | hstop
    · exact send_outstanding hnext.inv hfree hlen
    · exact absurd hzero hlen
    · rw [hstop] at hterm
      cases hterm
  cases hlength : call.length with
  | none =>
    by_cases hpending : pps.getMsgs.1.bytesPending = 0
    · have hsame := congrArg Pass.length (hnext.idle hpending)
      dsimp only at hsame
      rw [hlength, getD_none, hpending] at hsame
      exact absurd hsame hlen
    · exact hdrain hpending
  | some length =>
    have hasks : Asks pps := by
      refine ⟨hwaits, call, length, hcall, hlength, fun hzero => ?_⟩
      have hle := hnext.le
      dsimp only at hle
      rw [hlength, getD_some] at hle
      omega
    rcases hfed hasks with hfree | hflight | ⟨pp, hpp, hdata⟩ | ⟨pp, hpp, hor⟩
    · refine send_outstanding hnext.inv (fun hnil => hfree ?_) hlen
      have hprefix := hnext.apart.free
      rw [hnil] at hprefix
      have hgone := prefix_nil.mp hprefix
      rw [hfetched.free] at hgone
      exact (append_eq_nil_iff.mp hgone).1
    · refine (send_sent next).1.inFlight_ne ?_
      rw [hnext.apart.inFlight, hfetched.inFlight]
      exact hflight
    · refine hdrain (pending_of_data pp hinv ?_ hdata)
      rw [hfetched.ready]
      exact mem_append_left _ hpp
    · have hnone : pp.failed = false := by
        have hall := hfetched.term.symm.trans hgot
        rw [Bool.false_or, List.any_eq_false] at hall
        exact Bool.eq_false_iff.mpr (hall pp hpp)
      have hdata := hor.resolve_right (Bool.eq_false_iff.mp hnone)
      refine hdrain (pending_of_data pp hinv ?_ hdata)
      rw [hfetched.ready]
      exact mem_append_right _ (mem_filter.mpr ⟨hpp, by rw [hnone]; rfl⟩)

theorem dead_wait (hasks : Asks pps) (hdead : ¬Alive pps) :
    ¬Outstanding (pps.pass call) := by
  obtain ⟨hwaits, call', length, hcall', hlength, hlen⟩ := hasks
  obtain rfl : call = call' := some.inj (hcall.symm.trans hcall')
  simp only [Alive, not_or, not_exists, not_and, not_not] at hdead
  obtain ⟨hfree, hflight, hready, hreplied⟩ := hdead
  obtain ⟨hfetched, next, hdrained, hsent, heq⟩ := pass_spec h call
  have hfine : ∀ pp ∈ pps.replied, pp.failed = false := fun pp hpp => Bool.eq_false_iff.mpr (hreplied pp hpp).2
  have hgot : pps.getMsgs.2 = false := by
    rw [hfetched.term, Bool.false_or, List.any_eq_false]
    exact fun pp hpp => Bool.eq_false_iff.mp (hfine pp hpp)
  have hempty : pps.getMsgs.1.bytesPending = 0 := by
    have hinv : InvOf pps.getMsgs.1 [] := hfetched.inv ⟨h.pipes, h.req, h.pending, h.offset⟩
    refine (Nat.add_eq_zero_iff.mp (hinv.pending.trans (sum_eq_zero fun n hn => ?_))).1
    obtain ⟨pp, hpp, rfl⟩ := List.mem_map.mp hn
    rw [hfetched.ready] at hpp
    rcases mem_append.mp hpp with hpp | hpp
    · exact hready pp hpp
    · exact (hreplied pp (mem_filter.mp hpp).1).1
  obtain rfl := hdrained.idle hempty
  have hnone : pps.getMsgs.1.free = [] := by
    rw [hfetched.free, filter_eq_nil_iff.mpr fun pp hpp => Bool.eq_false_iff.mp (hfine pp hpp)]
    exact (append_nil _).trans hfree
  rw [hlength, getD_some] at heq
  rw [heq, if_neg (by simp [hgot, hlen, hwaits])]
  intro hout
  rcases hout _ rfl rfl with hsome | hsome
  · refine hsome ?_
    change (Pass.send _).inFlight = []
    rw [(send_sent _).1.idle hnone]
    exact hfetched.inFlight.trans hflight
  · refine hsome ?_
    change (Pass.send _).replied = []
    rw [(send_sent _).1.idle hnone]
    exact hfetched.replied

theorem pass_outstanding :
    Outstanding (pps.pass call) ↔ (Asks pps → Alive pps) := by
  refine ⟨fun hout hasks => ?_, fun hfed => ?_⟩
  · by_contra hdead
    exact dead_wait h hcall hasks hdead hout
  · obtain ⟨hfetched, next, hdrained, -, heq⟩ := pass_spec h call
    rw [heq]
    split
    · exact fun _ hreturned => nomatch hreturned
    · next hgo =>
      obtain ⟨hterm, hlen, hwaits⟩ : ¬next.term = true ∧ next.length ≠ 0 ∧ ¬pps.attrs.doNotWait = true := by
        simpa only [not_or] using hgo
      intro _ _ _
      exact .inl (alive_wait h hcall hfed hdrained hfetched (Bool.eq_false_iff.mpr hterm) hlen
        (Bool.eq_false_iff.mpr hwaits))

end

theorem Inv.loopBody (h : Inv pps) (call : Call) : Inv (pps.pass call) := by
  obtain ⟨hfetched, next, hdrained, hsent, heq⟩ := pass_spec h call
  have hreplied : next.send.replied = [] := by
    rw [hsent.replied, hdrained.apart.replied]
    exact hfetched.replied
  have hinv := hsent.inv hdrained.inv
  rw [heq]
  split
  · rw [Inv, PsdPipeStream.returns, hreplied]
    exact ⟨hinv.pipes, hinv.req, hinv.pending, hinv.offset⟩
  · rw [Inv, hreplied]
    exact ⟨hinv.pipes, hinv.req, hinv.pending, hinv.offset⟩

theorem Inv.reply (h : Inv pps) {i : ℕ} (hi : pps.inFlight[i]? = some pp) (done : Pipe)
    (hlength : done.length = pp.length) :
    InvOf { pps with inFlight := pps.inFlight.eraseIdx i } (pps.replied ++ [done]) := by
  have hpipes := h.pipes
  have hreq := h.req
  obtain ⟨hlt, hget⟩ := List.getElem?_eq_some_iff.mp hi
  have hsum : ((pps.inFlight.eraseIdx i).map Pipe.length).sum + pp.length = (pps.inFlight.map Pipe.length).sum := by
    have hperm := (getElem_cons_eraseIdx_perm hlt).map Pipe.length
    rw [hget] at hperm
    rw [← hperm.sum_eq, map_cons, sum_cons, Nat.add_comm]
  refine ⟨?_, ?_, h.pending, h.offset⟩
  · dsimp only
    rw [length_eraseIdx_of_lt hlt, length_append, length_singleton]
    omega
  · dsimp only
    rw [map_append, sum_append, map_singleton, sum_singleton, hlength]
    omega

theorem complete_spec {i : ℕ} {data : List UInt8} {error : IoErr} (ht : step pps (.complete i data error) = some t) :
    ∃ pp done, pps.inFlight[i]? = some pp ∧ done.length = pp.length ∧
      t.inFlight = pps.inFlight.eraseIdx i ∧ t.replied = pps.replied ++ [done] ∧
      t.free = pps.free ∧ t.ready = pps.ready ∧ t.attrs = pps.attrs ∧ t.reqBytes = pps.reqBytes ∧
      t.bytesPending = pps.bytesPending ∧ t.offset = pps.offset := by
  rw [step] at ht
  split at ht
  · cases ht
  · next pp hi =>
    refine ⟨pp, { pp with actual := data.length, error := error }, hi, rfl, ?_⟩
    split at ht
    · dsimp only at ht
      split at ht
      · obtain rfl := some.inj ht
        exact ⟨rfl, rfl, rfl, rfl, rfl, rfl, rfl, rfl⟩
      · split at ht
        · obtain rfl := some.inj ht
          exact ⟨rfl, rfl, rfl, rfl, rfl, rfl, rfl, rfl⟩
        · split at ht
          · obtain rfl := some.inj ht
            exact ⟨rfl, rfl, rfl, rfl, rfl, rfl, rfl, rfl⟩
          · obtain rfl := some.inj ht
            exact ⟨rfl, rfl, rfl, rfl, rfl, rfl, rfl, rfl⟩
    · cases ht

theorem Inv.step {e : Event} (h : Inv pps) (ht : step pps e = some t) : Inv t := by
  cases e with
  | read length dest =>
    obtain ⟨-, rfl⟩ := of_guard ht
    exact ⟨h.pipes, h.req, h.pending, h.offset⟩
  | pass =>
    rw [StreamRead.step] at ht
    split at ht
    · cases ht
    · next call _ =>
      split at ht
      · cases ht
      · exact some.inj ht ▸ h.loopBody call
  | wake aborted =>
    rw [StreamRead.step] at ht
    split at ht
    · cases ht
    · split at ht
      · split at ht
        · obtain rfl := some.inj ht
          exact ⟨h.pipes, h.req, h.pending, h.offset⟩
        · obtain rfl := some.inj ht
          exact ⟨h.pipes, h.req, h.pending, h.offset⟩
      · cases ht
  | complete i data error =>
    obtain ⟨pp, done, hi, hlength, hflight, hreplied, hfree, hready, hattrs, hreq, hbytes, hoffset⟩ := complete_spec ht
    have hrep := h.reply hi done hlength
    rw [Inv, hreplied]
    exact ⟨by rw [hfree, hready, hflight, hattrs]; exact hrep.pipes, by rw [hreq, hflight]; exact hrep.req,
      by rw [hbytes, hoffset, hready]; exact hrep.pending, by rw [hoffset, hready]; exact hrep.offset⟩

theorem step_outstanding {e : Event} (h : Inv pps) (ht : StreamRead.step pps e = some t) :
    Outstanding t ↔ Fed pps e := by
  cases e with
  | read length dest =>
    obtain ⟨-, rfl⟩ := of_guard ht
    refine iff_of_true (fun call hcall hwait => ?_) trivial
    obtain rfl := some.inj hcall
    cases hwait
  | pass =>
    rw [StreamRead.step] at ht
    split at ht
    · cases ht
    · next call hcall =>
      split at ht
      · cases ht
      · exact some.inj ht ▸ pass_outstanding h hcall
  | wake aborted =>
    refine iff_of_true ?_ trivial
    rw [StreamRead.step] at ht
    split at ht
    · cases ht
    · split at ht
      · split at ht
        · obtain rfl := some.inj ht
          exact fun _ hcall => nomatch hcall
        · obtain rfl := some.inj ht
          intro call hcall hwait
          obtain rfl := some.inj hcall
          cases hwait
      · cases ht
  | complete i data error =>
    obtain ⟨pp, done, -, -, -, hreplied, -⟩ := complete_spec ht
    refine iff_of_true (fun _ _ _ => .inr ?_) trivial
    rw [hreplied]
    exact append_ne_nil_of_right_ne_nil _ (cons_ne_nil _ _)

theorem inv_start (attrs : Attrs) (readAhead : Bool) : Inv (start attrs readAhead) :=
  ⟨length_range, rfl, rfl, rfl⟩

theorem read_waits_iff (attrs : Attrs) (readAhead : Bool) (evs : List Event) :
    Always StreamRead.step (fun _ _ t => Outstanding t) (start attrs readAhead) evs ↔
      Always StreamRead.step (fun s e _ => Fed s e) (start attrs readAhead) evs :=
  Always.congr_invariant (I := Inv) (fun _ _ _ h ht => h.step ht) (fun _ _ _ h ht => step_outstanding h ht)
    (inv_start attrs readAhead) evs

def inAttrs : Attrs := ⟨64, 64 * 32, 4, false, false, none, by decide, by decide, Nat.le_add_left 1 3⟩

def emptyPackets : List Event :=
  [.read (some 1) (fun _ => 0), .pass, .complete 0 [] .none, .complete 0 [] .none, .complete 0 [] .none,
    .complete 0 [] .none, .wake false, .pass]

theorem read_waits_for_nothing :
    (∃ pps call, Run StreamRead.step anyStep (start inAttrs true) emptyPackets pps ∧ pps.call = some call ∧
      call.waiting = true ∧ pps.inFlight = [] ∧ pps.replied = [] ∧ pps.ready.length = 4 ∧ pps.bytesPending = 0) ∧
    ¬∀ attrs readAhead evs pps, Run StreamRead.step anyStep (start attrs readAhead) evs pps → Outstanding pps := by
  have hrun : Run StreamRead.step anyStep (start inAttrs true) emptyPackets _ := Run.get (by decide)
  refine ⟨⟨_, _, hrun, rfl, by decide, by decide, by decide, by decide, by decide⟩, fun hall => ?_⟩
  rcases hall _ _ _ _ hrun _ rfl (by decide) with hout | hout
  · exact hout (by decide)
  · exact hout (by decide)

end Neptune.StreamRead
