import Neptune.Spec.UvcEngine

/-! A frame that is delivered as whole is whole, but for what was lost or flagged before its first data:
the mark is on the assembly, and the frame that opens wipes it out. -/

namespace Neptune.Uvc

open List Option

open Runs

variable {mode : Mode} {ns ns' : NepVideoStream} {s t : State} {f g : Frame} {x : Transfer} {r : Reply}

def Transfer.payInfo (x : Transfer) : UInt8 := x.info ||| (if x.wireerror then UVPHF_ERR else 0)

theorem flagged_bits (i : UInt8) :
    (i ||| UVPHF_ERR) &&& UVPHF_FID = i &&& UVPHF_FID ∧ (i ||| UVPHF_ERR) &&& UVPHF_EOF = i &&& UVPHF_EOF ∧
      (i ||| UVPHF_ERR) &&& UVPHF_ERR ≠ 0 := by
  have hall : ∀ n : Fin 256,
      (UInt8.ofFin n ||| UVPHF_ERR) &&& UVPHF_FID = UInt8.ofFin n &&& UVPHF_FID ∧
        (UInt8.ofFin n ||| UVPHF_ERR) &&& UVPHF_EOF = UInt8.ofFin n &&& UVPHF_EOF ∧
          (UInt8.ofFin n ||| UVPHF_ERR) &&& UVPHF_ERR ≠ 0 := by decide +kernel
  exact hall i.toFin

theorem payInfo_fid (x : Transfer) : x.payInfo &&& UVPHF_FID = x.fid := by
  unfold Transfer.payInfo Payload.fid
  split
  · exact (flagged_bits x.info).1
  · rw [UInt8.or_zero]

theorem payInfo_eof (x : Transfer) : (x.payInfo &&& UVPHF_EOF != 0) = x.eof := by
  unfold Transfer.payInfo Payload.eof
  split
  · rw [(flagged_bits x.info).2.1]
  · rw [UInt8.or_zero]

theorem clean_of_payInfo (h : x.payInfo &&& UVPHF_ERR = 0) : x.clean = true := by
  unfold Transfer.payInfo at h
  unfold Transfer.clean
  by_cases hwire : x.wireerror
  · rw [if_pos hwire] at h
    exact absurd h (flagged_bits x.info).2.2
  · rw [if_neg hwire, UInt8.or_zero] at h
    simp [hwire, h]

theorem brought_eq (x : Transfer) : ∃ n, x.brought = x.bytes.take n := by
  unfold Transfer.brought
  split
  · exact ⟨x.bytes.length, take_length.symm⟩
  · exact ⟨_, rfl⟩

theorem Payload.headerLength_le (p : Payload) : 2 ≤ p.headerLength ∧ p.headerLength ≤ 255 := by
  have hfits := p.fits
  unfold Payload.headerLength
  omega

theorem Payload.bytes_drop (p : Payload) : p.bytes.drop p.headerLength = p.data := by
  have hlen : (p.info :: p.fields).length = p.fields.length + 1 := rfl
  rw [show p.bytes = UInt8.ofNat p.headerLength :: (p.info :: p.fields ++ p.data) from rfl,
    show p.headerLength = (p.fields.length + 1) + 1 by unfold Payload.headerLength; omega,
    drop_succ_cons, ← hlen, drop_left]

theorem byteAt_take {n : ℕ} (p : Payload) (h : 0 < n) : byteAt (p.bytes.take n) 0 = p.headerLength := by
  obtain ⟨k, rfl⟩ : ∃ k, n = k + 1 := ⟨n - 1, by omega⟩
  have hle := p.headerLength_le.2
  have hmod : p.headerLength % 2 ^ 8 = p.headerLength := Nat.mod_eq_of_lt (by omega)
  simpa [byteAt, Payload.bytes] using hmod

theorem header_brought (x : Transfer) :
    headerLength x.brought = 0 ∧ x.received = [] ∨ headerLength x.brought = x.headerLength := by
  obtain ⟨n, hn⟩ := brought_eq x
  have htwo := x.headerLength_le.1
  by_cases hlen : x.brought.length < x.headerLength
  · left
    refine ⟨?_, drop_eq_nil_of_le hlen.le⟩
    unfold headerLength
    by_cases hshort : 2 ≤ x.brought.length
    · have hpos : 0 < n := by
        rw [hn, length_take] at hshort
        omega
      have hbyte : byteAt x.brought 0 = x.headerLength := hn ▸ byteAt_take _ hpos
      simp only [if_pos hshort, hbyte]
      rw [if_pos (.inr hlen)]
    · simp only [if_neg hshort]
      rw [if_pos (.inl (by omega))]
  · right
    have hpos : 0 < n := by
      rw [hn, length_take] at hlen
      omega
    have hbyte : byteAt x.brought 0 = x.headerLength := hn ▸ byteAt_take _ hpos
    unfold headerLength
    simp only [if_pos (show 2 ≤ x.brought.length by omega), hbyte]
    rw [if_neg (by omega)]

theorem info_brought (h : headerLength x.brought = x.headerLength) : x.brought.getD 1 0 = x.info := by
  obtain ⟨n, hn⟩ := brought_eq x
  have htwo : 2 ≤ x.brought.length := by
    by_contra hshort
    have hle := x.headerLength_le.1
    unfold headerLength at h
    simp only [if_neg hshort] at h
    rw [if_pos (.inl (by omega))] at h
    omega
  rw [hn, length_take] at htwo
  obtain ⟨k, rfl⟩ : ∃ k, n = k + 2 := ⟨n - 2, by omega⟩
  rw [hn]
  rfl

theorem received_of_clean (h : x.clean = true) : x.received = x.data := by
  have hwhole : x.brought = x.bytes := by
    unfold Transfer.clean Transfer.wireerror at h
    unfold Transfer.brought
    cases hfailed : x.failed with
    | none => rfl
    | some n => simp [hfailed] at h
  unfold Transfer.received
  rw [hwhole, Payload.bytes_drop]

namespace Frame

def add (f : Frame) (x : Transfer) : Frame := { f with transfers := f.transfers ++ [x] }

theorem lead_append_rest (f : Frame) : f.lead ++ f.rest = f.transfers := takeWhile_append_dropWhile

theorem received_of_lead (h : x ∈ f.lead) : x.received = [] := by
  simpa using mem_takeWhile_imp h

theorem silent_of_rest (h : f.rest = []) : ∀ y ∈ f.transfers, y.received = [] := by
  intro y hy
  rw [← f.lead_append_rest, h, append_nil] at hy
  exact received_of_lead hy

theorem rest_add_of_silent (h : f.rest = []) (hx : x.received = []) : (f.add x).rest = [] := by
  have hall : ∀ y ∈ (f.add x).transfers, decide (y.received = []) = true := by
    intro y hy
    rcases mem_append.mp hy with hy | hy
    · exact decide_eq_true (silent_of_rest h y hy)
    · rw [mem_singleton.mp hy]
      exact decide_eq_true hx
  exact dropWhile_eq_nil_iff.mpr hall

theorem rest_add_first (h : f.rest = []) (hx : x.received ≠ []) : (f.add x).rest = [x] := by
  have hall : ∀ y ∈ f.transfers, decide (y.received = []) = true := fun y hy =>
    decide_eq_true (silent_of_rest h y hy)
  unfold rest add
  rw [dropWhile_append_of_pos hall, dropWhile_cons_of_neg (by simpa using hx)]

theorem rest_add_of_rest (h : f.rest ≠ []) : (f.add x).rest = f.rest ++ [x] := by
  unfold rest add at *
  rw [dropWhile_append, if_neg (by simpa using h)]

theorem data_of_clean (h : f.clean = true) : f.data = f.rest.flatMap (·.received) := by
  have hdata : f.data = f.transfers.flatMap (·.received) := by
    unfold data
    refine flatMap_congr fun y hy => ?_
    exact (received_of_clean (List.all_eq_true.mp h y hy)).symm
  have hlead : f.lead.flatMap (·.received) = [] :=
    flatMap_eq_nil_iff.mpr fun y hy => received_of_lead hy
  rw [hdata, ← f.lead_append_rest, flatMap_append, hlead, nil_append]

end Frame

def Reply.AsWhole (r : Reply) : Prop := r.error = .none ∧ r.flags &&& IVRF_DAMAGED = 0

def Reply.Holds (r : Reply) (f : Frame) : Prop :=
  f.clean = true ∧ r.actual = f.data.length ∧ r.data.take r.actual = f.data

def Adds (P : Reply → Prop) (ns ns' : NepVideoStream) : Prop :=
  ∀ r ∈ ns'.replies, r ∈ ns.replies ∨ (r.AsWhole → P r)

variable {ended : Bool} {cam : Camera} {P : Reply → Prop}

theorem Adds.of_eq (h : ns'.replies = ns.replies) : Adds P ns ns' := fun _ hr => .inl (h ▸ hr)

theorem Adds.trans {ns'' : NepVideoStream} (h : Adds P ns ns') (h' : Adds P ns' ns'') :
    Adds P ns ns'' := by
  intro r hr
  rcases h' r hr with hr | hr
  · exact h r hr
  · exact .inr hr

variable (ns) in
theorem adds_deliver {ioreq : IoStdReq} {error : IoError} {flags : ℕ}
    (h : error = .none → flags &&& IVRF_DAMAGED = 0 →
      ∀ reply : Reply, reply.data = ioreq.data → reply.actual = ns.asm.fill → P reply) :
    Adds P ns (uvcDeliver ns ioreq error flags) := by
  intro r hr
  rcases mem_append.mp hr with hr | hr
  · exact .inl hr
  · obtain rfl := mem_singleton.mp hr
    exact .inr fun hwhole => h hwhole.1 hwhole.2 _ rfl rfl

section

variable (P : Reply → Prop) (ns : NepVideoStream)

theorem adds_giveBack : Adds P ns (giveBack ns) := by
  unfold giveBack
  split
  · split
    · exact adds_deliver (ns.setAsm ({ · with fill := 0 })) nofun
    · exact .of_eq rfl
  · exact .of_eq rfl

theorem adds_abort (id : ℕ) : Adds P ns ( devAbortIO ns id) := by
  unfold devAbortIO
  split
  · exact .of_eq rfl
  · split
    · intro r hr
      rcases mem_append.mp hr with hr | hr
      · exact .inl hr
      · obtain rfl := mem_singleton.mp hr
        exact .inr fun hwhole => absurd hwhole.1 nofun
    · exact .of_eq rfl

theorem adds_flush : Adds P ns (uvcAbortReads ns) := by
  intro r hr
  rcases mem_append.mp hr with hr | hr
  · exact .inl hr
  · obtain ⟨ioreq, -, rfl⟩ := List.mem_map.mp hr
    exact .inr fun hwhole => absurd hwhole.1 nofun

end

/-- The data of the open frame: what `g` has brought, `f` being what of it the engine has finished with. -/
structure Exact (ns : NepVideoStream) (f g : Frame) (ioreq : IoStdReq) : Prop where
  held : f.held = false
  some_rest : g.rest ≠ []
  clean : ∀ y ∈ f.rest, y.clean = true
  data : ioreq.data.take ns.asm.fill = g.rest.flatMap (·.received)

structure Follows (ns : NepVideoStream) (f g : Frame) (ended : Bool) : Prop where
  fits : ns.asm.opened = true → ∀ ioreq, ns.reads.cur = some ioreq → ns.asm.fill ≤ ioreq.data.length
  same : ns.asm.opened = true → ns.asm.damaged = true ∨ ns.asm.fid = f.fid
  exact : ns.asm.opened = true → ns.asm.damaged = false → ns.asm.overflow = false →
    ∀ ioreq, ns.reads.cur = some ioreq → Exact ns f g ioreq
  held : f.held = true → ended = true ∨
    ns.asm.opened = true ∧ ns.asm.damaged = true ∧ ns.asm.fid = f.fid
  quiet : g.rest = [] ∨ ended = true ∨ ns.asm.opened = true ∧ ns.asm.fid = f.fid

/-- What counts of the stream: the frame in the assembly, and the read that is filled. -/
structure Still (ns ns' : NepVideoStream) : Prop where
  opened : ns'.asm.opened = ns.asm.opened
  damaged : ns'.asm.damaged = ns.asm.damaged
  overflow : ns'.asm.overflow = ns.asm.overflow
  fid : ns'.asm.fid = ns.asm.fid
  fill : ns'.asm.fill = ns.asm.fill
  cur : ns'.reads.cur = ns.reads.cur

theorem Follows.congr (h : Follows ns f g ended) (hstill : Still ns ns') : Follows ns' f g ended := by
  refine ⟨?_, ?_, ?_, ?_, ?_⟩
  · rw [hstill.opened, hstill.fill, hstill.cur]
    exact h.fits
  · rw [hstill.opened, hstill.damaged, hstill.fid]
    exact h.same
  · rw [hstill.opened, hstill.damaged, hstill.overflow, hstill.cur]
    intro hopen hdamaged hoverflow ioreq hioreq
    have hexact := h.exact hopen hdamaged hoverflow ioreq hioreq
    exact ⟨hexact.held, hexact.some_rest, hexact.clean, hstill.fill ▸ hexact.data⟩
  · rw [hstill.opened, hstill.damaged, hstill.fid]
    exact h.held
  · rw [hstill.opened, hstill.fid]
    exact h.quiet

theorem Follows.forget (h : Follows ns f g ended) (hopen : ns'.asm.opened = ns.asm.opened)
    (hdamaged : ns'.asm.damaged = ns.asm.damaged) (hfid : ns'.asm.fid = ns.asm.fid)
    (hcur : ns'.reads.cur = none) : Follows ns' f g ended := by
  refine ⟨?_, ?_, ?_, ?_, ?_⟩
  · intro _ ioreq hioreq
    exact absurd (hcur ▸ hioreq) nofun
  · rw [hopen, hdamaged, hfid]
    exact h.same
  · intro _ _ _ ioreq hioreq
    exact absurd (hcur ▸ hioreq) nofun
  · rw [hopen, hdamaged, hfid]
    exact h.held
  · rw [hopen, hfid]
    exact h.quiet

theorem Follows.giveBack (h : Follows ns f g ended) : Follows (giveBack ns) f g ended := by
  unfold Uvc.giveBack
  split
  · split
    · exact h.forget rfl rfl rfl rfl
    · exact h.congr ⟨rfl, rfl, rfl, rfl, rfl, rfl⟩
  · exact h

theorem giveBack_asm (ns : NepVideoStream) :
    (giveBack ns).asm.opened = ns.asm.opened ∧ (giveBack ns).asm.damaged = ns.asm.damaged ∧
      (giveBack ns).asm.fid = ns.asm.fid := by
  unfold Uvc.giveBack
  split
  · split <;> exact ⟨rfl, rfl, rfl⟩
  · exact ⟨rfl, rfl, rfl⟩

section

variable (mode : Mode) (ns : NepVideoStream)

theorem uvcCloseWhole_asm (ioreq : IoStdReq) :
    (uvcCloseWhole mode ns ioreq).asm.opened = ns.asm.opened ∧
      (uvcCloseWhole mode ns ioreq).asm.payInfo = ns.asm.payInfo := by
  unfold uvcCloseWhole
  split
  · dsimp only
    split <;> exact ⟨rfl, rfl⟩
  · exact ⟨rfl, rfl⟩

theorem uvcCloseDamaged_asm (ioreq : IoStdReq) :
    (uvcCloseDamaged mode ns ioreq).asm = ns.asm := by
  unfold uvcCloseDamaged
  split <;> rfl

theorem uvcCloseFrame_closed :
    (uvcCloseFrame mode ns).asm.opened = false ∧ (uvcCloseFrame mode ns).asm.payInfo = ns.asm.payInfo := by
  unfold uvcCloseFrame
  split
  · next hopen => exact ⟨by simpa using hopen, rfl⟩
  · dsimp only
    split
    · exact ⟨rfl, rfl⟩
    · next ioreq _ =>
      split
      · exact ⟨rfl, rfl⟩
      · split
        · exact uvcCloseWhole_asm mode _ ioreq
        · rw [uvcCloseDamaged_asm]
          exact ⟨rfl, rfl⟩

end

theorem adds_closeDamaged (P : Reply → Prop) (mode : Mode) (ns : NepVideoStream) (ioreq : IoStdReq) :
    Adds P ns (uvcCloseDamaged mode ns ioreq) := by
  unfold uvcCloseDamaged
  split
  · exact adds_deliver (ns.count _) nofun
  · exact .of_eq rfl

theorem uvcCloseFrame_adds (hplain : mode.payload.has UPF_EMBEDDED = false)
    (h : ns.asm.opened = true → ns.asm.damaged = false → ns.asm.overflow = false →
      ∀ ioreq, ns.reads.cur = some ioreq → mode.joinedHalfway (ioreq.data.take ns.asm.fill) = false →
        ∀ r : Reply, r.data = ioreq.data → r.actual = ns.asm.fill → P r) :
    Adds P ns (uvcCloseFrame mode ns) := by
  unfold uvcCloseFrame
  split
  · exact .of_eq rfl
  · next hopen =>
    dsimp only
    split
    · exact .of_eq rfl
    · next ioreq hcur =>
      split
      · exact adds_deliver ((ns.setAsm _).count _) nofun
      · next hoverflow =>
        split
        · next hjudged =>
          have hjudged : (ns.asm.damaged || mode.joinedHalfway (ioreq.data.take ns.asm.fill)) = false :=
            (Bool.not_eq_true' _).mp hjudged
          obtain ⟨hdamaged, hhalf⟩ := Bool.or_eq_false_iff.mp hjudged
          unfold uvcCloseWhole
          rw [if_neg (by rw [hplain]; nofun)]
          refine adds_deliver (((ns.setAsm _).setAsm _).count _) fun _ _ r hdata hactual => ?_
          exact h (by simpa using hopen) hdamaged (eq_false_of_ne_true hoverflow) ioreq hcur hhalf r hdata hactual
        · exact adds_closeDamaged P mode ((ns.setAsm _).setAsm _) ioreq

structure Under (ns : NepVideoStream) (f : Frame) (x : Transfer) : Prop where
  fid : f.fid = x.fid
  payInfo : ns.asm.payInfo = x.payInfo
  header : headerLength x.brought = x.headerLength
  same : ns.asm.opened = true → ns.asm.fid = f.fid

def Sound (mode : Mode) (frames : List Frame) (r : Reply) : Prop := ∃ f ∈ frames, f.Heard mode → r.Holds f

theorem Follows.closes (h : Follows ns f g ended) (hheld : g.held = f.held)
    (hclean : (∀ y ∈ f.rest, y.clean = true) → ns.asm.damaged = false → ∀ y ∈ g.rest, y.clean = true)
    (hplain : mode.payload.has UPF_EMBEDDED = false) {frames : List Frame}
    (hmem : ns.asm.opened = true → ns.asm.damaged = false → g ∈ frames) :
    Adds (Sound mode frames) ns (uvcCloseFrame mode ns) := by
  refine uvcCloseFrame_adds hplain fun hopen hdamaged hoverflow ioreq hcur hhalf r hdata hactual => ?_
  have hexact := h.exact hopen hdamaged hoverflow ioreq hcur
  refine ⟨g, hmem hopen hdamaged, fun hheard => ?_⟩
  have hrest : g.rest.all (·.clean) = true := List.all_eq_true.mpr (hclean hexact.clean hdamaged)
  have hlead : g.lead.all (·.clean) = true := by
    rcases hheard with hlead | hlost | hnone | hold | hjoined
    · exact hlead
    · obtain ⟨y, hy, hlost⟩ := List.any_eq_true.mp hlost
      rw [List.all_eq_true.mp hrest y hy] at hlost
      exact absurd hlost nofun
    · exact absurd hnone hexact.some_rest
    · rw [hheld, hexact.held] at hold
      exact absurd hold nofun
    · rw [← hexact.data, hhalf] at hjoined
      exact absurd hjoined nofun
  have hall : g.clean = true := by
    unfold Frame.clean
    rw [← g.lead_append_rest, all_append, hlead, hrest]
    rfl
  have hholds : ioreq.data.take ns.asm.fill = g.data := hexact.data.trans (g.data_of_clean hall).symm
  refine ⟨hall, ?_, by rw [hdata, hactual, hholds]⟩
  rw [hactual, ← hholds, length_take, Nat.min_eq_left (h.fits hopen ioreq hcur)]

theorem Follows.closed (hopen : ns.asm.opened = false) (hheld : f.held = true → ended = true)
    (hquiet : g.rest = [] ∨ ended = true) : Follows ns f g ended := by
  refine ⟨?_, ?_, ?_, fun h => .inl (hheld h), ?_⟩
  · rw [hopen]
    nofun
  · rw [hopen]
    nofun
  · rw [hopen]
    nofun
  · rcases hquiet with h | h
    · exact .inl h
    · exact .inr (.inl h)

theorem Follows.fail (hheld : f.held = true → ns.asm.opened = true ∧ ns.asm.fid = f.fid)
    (hquiet : f.rest = [] ∨ ns.asm.opened = true ∧ ns.asm.fid = f.fid)
    (hfits : ns.asm.opened = true → ∀ ioreq, ns.reads.cur = some ioreq → ns.asm.fill ≤ ioreq.data.length)
    (hx : x.received = []) (ended : Bool) :
    Follows (ns.setAsm ({ · with damaged := true })) (f.add x) (f.add x) ended := by
  refine ⟨hfits, fun _ => .inl rfl, fun _ hdamaged => absurd hdamaged nofun, fun h => ?_, ?_⟩
  · exact .inr ⟨(hheld h).1, rfl, (hheld h).2⟩
  · rcases hquiet with h | h
    · exact .inl (Frame.rest_add_of_silent h hx)
    · exact .inr (.inr h)

variable (mode) (ns) (f) (x) in
theorem uvcPayloadHeader_spec (hkeep : ns.asm.opened = true → ns.asm.fid = f.fid → Follows ns f f false)
    (hheld : f.held = true → ns.asm.opened = true ∧ ns.asm.fid = f.fid)
    (hquiet : f.rest = [] ∨ ns.asm.opened = true ∧ ns.asm.fid = f.fid) (hfid : f.fid = x.fid)
    (hheader : headerLength x.brought = x.headerLength) (hinfo : x.brought.getD 1 0 = x.info) (busframe : ℕ) (hadds : ∀ u, Still ns u → u.replies = ns.replies → ns.asm.opened = true →
      ns.asm.fid ≠ x.fid → Adds P u (uvcCloseFrame mode u)) :
    let u := uvcPayloadHeader mode ns x.brought x.wireerror busframe
    Follows u f f false ∧ Under u f x ∧ Adds P ns u := by
  intro u
  obtain ⟨v, hstill, hreplies, hpay, hu⟩ : ∃ v, Still ns v ∧ v.replies = ns.replies ∧ v.asm.payInfo = x.payInfo ∧
      u = (let w := if v.asm.opened && v.asm.payInfo &&& UVPHF_FID != v.asm.fid then uvcCloseFrame mode v else v
        if !w.asm.opened then
          w.setAsm (·.stamp mode.payload.infoBytes x.brought (headerLength x.brought) busframe) else w) := by
    refine ⟨_, ?_, ?_, ?_, rfl⟩
    · split <;> exact ⟨rfl, rfl, rfl, rfl, rfl, rfl⟩
    · split <;> rfl
    · rw [hinfo]
      split <;> rfl
  rw [hu]
  dsimp only
  by_cases hclose : (v.asm.opened && v.asm.payInfo &&& UVPHF_FID != v.asm.fid) = true
  · rw [if_pos hclose]
    obtain ⟨hclosed, hpay'⟩ := uvcCloseFrame_closed mode v
    rw [hpay, payInfo_fid, hstill.opened, hstill.fid, Bool.and_eq_true, bne_iff_ne] at hclose
    obtain ⟨hopen, hother⟩ := hclose
    rw [if_pos (by rw [hclosed]; rfl)]
    refine ⟨.closed hclosed (fun h => ?_) ?_, ⟨hfid, hpay'.trans hpay, hheader, ?_⟩, ?_⟩
    · exact absurd ((hheld h).2.trans hfid).symm hother
    · rcases hquiet with h | ⟨-, h⟩
      · exact .inl h
      · exact absurd (h.trans hfid).symm hother
    · exact fun h => absurd (hclosed.symm.trans h) nofun
    · exact Adds.trans (.of_eq hreplies) ((hadds v hstill hreplies hopen (Ne.symm hother)).trans (.of_eq rfl))
  · rw [if_neg hclose]
    rw [hpay, payInfo_fid, hstill.opened, hstill.fid, Bool.and_eq_true, bne_iff_ne, not_and_not_right] at hclose
    by_cases hopen : v.asm.opened = true
    · rw [if_neg (by rw [hopen]; nofun)]
      have hthis : ns.asm.fid = f.fid := (hclose (hstill.opened ▸ hopen)).symm.trans hfid.symm
      exact ⟨(hkeep (hstill.opened ▸ hopen) hthis).congr hstill, ⟨hfid, hpay, hheader, fun _ => hstill.fid.trans hthis⟩,
        .of_eq hreplies⟩
    · have hshut : ns.asm.opened = false := hstill.opened ▸ eq_false_of_ne_true hopen
      rw [if_pos (by rw [eq_false_of_ne_true hopen]; rfl)]
      refine ⟨.closed (eq_false_of_ne_true hopen) (fun h => ?_) ?_, ⟨hfid, hpay, hheader, fun h => absurd h hopen⟩,
        .of_eq hreplies⟩
      · exact absurd ((hheld h).1.symm.trans hshut) nofun
      · rcases hquiet with h | ⟨h, -⟩
        · exact .inl h
        · exact absurd (h.symm.trans hshut) nofun

theorem length_copyTo {buf bs : List UInt8} {i : ℕ} (h : i + bs.length ≤ buf.length) :
    (copyTo buf i bs).length = buf.length := by
  simp only [copyTo, length_append, length_take, length_drop]
  omega

theorem take_copyTo {buf bs : List UInt8} {i : ℕ} (h : i ≤ buf.length) :
    (copyTo buf i bs).take (i + bs.length) = buf.take i ++ bs := by
  unfold copyTo
  rw [take_append_of_le_length (by rw [length_append, length_take]; omega)]
  exact take_of_length_le (by rw [length_append, length_take]; omega)

theorem uvcStore_asm (ns : NepVideoStream) (data : List UInt8) :
    (uvcStore ns data).asm.opened = ns.asm.opened ∧ (uvcStore ns data).asm.damaged = ns.asm.damaged ∧
      (uvcStore ns data).asm.fid = ns.asm.fid ∧ (uvcStore ns data).asm.payInfo = ns.asm.payInfo ∧
        (uvcStore ns data).replies = ns.replies := by
  unfold uvcStore
  split <;> exact ⟨rfl, rfl, rfl, rfl, rfl⟩

theorem uvcStore_cur {data : List UInt8} {ioreq' : IoStdReq}
    (hfits : ∀ ioreq, ns.reads.cur = some ioreq → ns.asm.fill ≤ ioreq.data.length)
    (h : (uvcStore ns data).reads.cur = some ioreq') :
    ∃ ioreq, ns.reads.cur = some ioreq ∧ (uvcStore ns data).asm.fill ≤ ioreq'.data.length ∧
      ((uvcStore ns data).asm.overflow = false → ns.asm.overflow = false ∧
        ioreq'.data.take (uvcStore ns data).asm.fill = ioreq.data.take ns.asm.fill ++ data) := by
  unfold uvcStore at h ⊢
  split at h
  · next hcur => exact absurd (hcur ▸ h) nofun
  · next ioreq hcur =>
    obtain rfl := some.inj h
    have hle := hfits ioreq hcur
    have hbs : (data.take (ioreq.data.length - ns.asm.fill)).length ≤ ioreq.data.length - ns.asm.fill := by
      rw [length_take]
      omega
    refine ⟨ioreq, hcur, ?_, fun hoverflow => ?_⟩
    · dsimp only
      rw [length_copyTo (by omega)]
      omega
    · obtain ⟨hbefore, hroom⟩ := Bool.or_eq_false_iff.mp hoverflow
      have hroom : data.length ≤ ioreq.data.length - ns.asm.fill := by simpa using hroom
      refine ⟨hbefore, ?_⟩
      dsimp only
      rw [take_copyTo hle, take_of_length_le hroom]

theorem uvcOpenFrame_asm (ns : NepVideoStream) :
    (uvcOpenFrame ns).asm.opened = true ∧ (uvcOpenFrame ns).asm.fid = ns.asm.payInfo &&& UVPHF_FID ∧
      (uvcOpenFrame ns).asm.fill = 0 ∧ (uvcOpenFrame ns).asm.payInfo = ns.asm.payInfo ∧
        (uvcOpenFrame ns).replies = ns.replies := by
  unfold uvcOpenFrame
  dsimp only
  split <;> exact ⟨rfl, rfl, rfl, rfl, rfl⟩

theorem Follows.rest_add (h : Follows ns f f false) (hx : x.received = []) :
    (f.add x).rest = [] ∨ ns.asm.opened = true ∧ ns.asm.fid = f.fid := by
  rcases h.quiet with h | h | h
  · exact .inl (Frame.rest_add_of_silent h hx)
  · exact absurd h nofun
  · exact .inr h

theorem Follows.payloadData (h : Follows ns f f false) (hunder : Under ns f x) :
    Follows (uvcPayloadData ns x.received) f (f.add x) false ∧ Under (uvcPayloadData ns x.received) f x ∧
      (uvcPayloadData ns x.received).replies = ns.replies := by
  unfold uvcPayloadData
  by_cases hx : x.received = []
  · rw [if_pos (by rw [hx]; rfl)]
    refine ⟨⟨h.fits, h.same, fun hopen hdamaged hoverflow ioreq hcur => ?_, h.held, ?_⟩, hunder, rfl⟩
    · have hexact := h.exact hopen hdamaged hoverflow ioreq hcur
      have hrest : (f.add x).rest = f.rest ++ [x] := Frame.rest_add_of_rest hexact.some_rest
      refine ⟨hexact.held, by rw [hrest]; simp, hexact.clean, ?_⟩
      rw [hrest, flatMap_append, flatMap_singleton, hx, append_nil]
      exact hexact.data
    · rcases h.rest_add hx with h | h
      · exact .inl h
      · exact .inr (.inr h)
  · rw [if_neg (by simpa using hx)]
    by_cases hopen : ns.asm.opened = true
    · -- more of the open frame
      rw [if_neg (by rw [hopen]; nofun)]
      obtain ⟨hopened, hdamaged', hfid, hpay, hreplies⟩ := uvcStore_asm ns x.received
      refine ⟨⟨?_, ?_, ?_, ?_, ?_⟩, ⟨hunder.fid, hpay.trans hunder.payInfo, hunder.header, ?_⟩, hreplies⟩
      · intro _ ioreq' hcur
        obtain ⟨_, _, hle, _⟩ := uvcStore_cur (h.fits hopen) hcur
        exact hle
      · rw [hdamaged', hfid]
        exact fun _ => h.same hopen
      · rw [hdamaged']
        intro _ hdamaged hoverflow ioreq' hcur
        obtain ⟨ioreq, hbefore, -, hdata⟩ := uvcStore_cur (h.fits hopen) hcur
        obtain ⟨hroom, hdata⟩ := hdata hoverflow
        have hexact := h.exact hopen hdamaged hroom ioreq hbefore
        have hrest : (f.add x).rest = f.rest ++ [x] := Frame.rest_add_of_rest hexact.some_rest
        refine ⟨hexact.held, by rw [hrest]; simp, hexact.clean, ?_⟩
        rw [hdata, hexact.data, hrest, flatMap_append, flatMap_singleton]
      · rw [hopened, hdamaged', hfid]
        exact h.held
      · rw [hopened, hfid]
        exact .inr (.inr ⟨hopen, hunder.same hopen⟩)
      · rw [hopened, hfid]
        exact hunder.same
    · -- the first of a new one
      rw [if_pos (by rw [eq_false_of_ne_true hopen]; rfl)]
      obtain ⟨hopened, hfid, hfill, hpay, hreplies⟩ := uvcOpenFrame_asm ns
      obtain ⟨hopened', hdamaged', hfid', hpay', hreplies'⟩ := uvcStore_asm (uvcOpenFrame ns) x.received
      have hthis : (uvcStore (uvcOpenFrame ns) x.received).asm.fid = f.fid := by
        rw [hfid', hfid, hunder.payInfo, payInfo_fid, hunder.fid]
      have hfits : ∀ ioreq, (uvcOpenFrame ns).reads.cur = some ioreq → (uvcOpenFrame ns).asm.fill ≤ ioreq.data.length := by
        rw [hfill]
        exact fun ioreq _ => Nat.zero_le _
      have hrest : f.rest = [] := (h.quiet.resolve_right fun h => by
        rcases h with h | ⟨h, -⟩
        · exact absurd h nofun
        · exact hopen h)
      have hheld : f.held = false := by
        by_contra hheld
        rcases h.held (by simpa using hheld) with h | ⟨h, -, -⟩
        · exact absurd h nofun
        · exact hopen h
      refine ⟨⟨?_, fun _ => .inr hthis, ?_, fun h => ?_, ?_⟩,
        ⟨hunder.fid, (hpay'.trans hpay).trans hunder.payInfo, hunder.header, fun _ => hthis⟩, hreplies'.trans hreplies⟩
      · intro _ ioreq' hcur
        obtain ⟨_, _, hle, _⟩ := uvcStore_cur hfits hcur
        exact hle
      · intro _ _ hoverflow ioreq' hcur
        obtain ⟨ioreq, -, -, hdata⟩ := uvcStore_cur hfits hcur
        have hfirst : (f.add x).rest = [x] := Frame.rest_add_first hrest hx
        refine ⟨hheld, by rw [hfirst]; simp, by rw [hrest]; simp, ?_⟩
        rw [(hdata hoverflow).2, hfill, hfirst]
        simp
      · exact absurd (hheld.symm.trans h) nofun
      · exact .inr (.inr ⟨hopened'.trans hopened, hthis⟩)

theorem Follows.payloadEnd (h : Follows ns f (f.add x) false) (hunder : Under ns f x)
    (hplain : mode.payload.has UPF_EMBEDDED = false) {frames : List Frame} (hmem : x.eof = true → f.add x ∈ frames) :
    Follows (uvcPayloadEnd mode ns) (f.add x) (f.add x) x.eof ∧ Adds (Sound mode frames) ns (uvcPayloadEnd mode ns) := by
  obtain ⟨v, hv, hflag, hpay, hreplies, hfollows⟩ : ∃ v : NepVideoStream,
      uvcPayloadEnd mode ns = (if v.asm.payInfo &&& UVPHF_EOF != 0 then uvcCloseFrame mode v else v) ∧
      (v.asm.damaged = false → x.clean = true) ∧ v.asm.payInfo = x.payInfo ∧ v.replies = ns.replies ∧
        Follows v f (f.add x) false := by
    refine ⟨_, rfl, ?_, ?_, ?_, ?_⟩
    · split
      · nofun
      · next herr => exact fun _ => clean_of_payInfo (by simpa [hunder.payInfo] using herr)
    · split <;> exact hunder.payInfo
    · split <;> rfl
    · split
      · refine ⟨h.fits, fun _ => .inl rfl, fun _ hdamaged => absurd hdamaged nofun, fun hheld => ?_, h.quiet⟩
        rcases h.held hheld with h | ⟨hopen, -, hfid⟩
        · exact .inl h
        · exact .inr ⟨hopen, rfl, hfid⟩
      · exact h
  have hclean : (∀ y ∈ f.rest, y.clean = true) → v.asm.damaged = false → ∀ y ∈ (f.add x).rest, y.clean = true := by
    intro hrest hdamaged y hy
    have hmem : y ∈ f.rest ∨ y = x := by
      by_cases hnone : f.rest = []
      · by_cases hx : x.received = []
        · rw [Frame.rest_add_of_silent hnone hx] at hy
          exact absurd hy nofun
        · rw [Frame.rest_add_first hnone hx] at hy
          exact .inr (mem_singleton.mp hy)
      · rw [Frame.rest_add_of_rest hnone] at hy
        exact (mem_append.mp hy).imp_right mem_singleton.mp
    rcases hmem with hy | rfl
    · exact hrest y hy
    · exact hflag hdamaged
  rw [hv, hpay, payInfo_eof]
  by_cases heof : x.eof = true
  · rw [if_pos heof]
    refine ⟨.closed (uvcCloseFrame_closed mode v).1 (fun _ => heof) (.inr heof), Adds.trans (.of_eq hreplies) ?_⟩
    exact hfollows.closes rfl hclean hplain fun _ _ => hmem heof
  · rw [if_neg heof]
    refine ⟨⟨hfollows.fits, hfollows.same, fun hopen hdamaged hoverflow ioreq hcur => ?_, fun h => ?_, ?_⟩, .of_eq hreplies⟩
    · have hexact := hfollows.exact hopen hdamaged hoverflow ioreq hcur
      exact ⟨hexact.held, hexact.some_rest, hclean hexact.clean hdamaged, hexact.data⟩
    · rcases hfollows.held h with h | h
      · exact absurd h nofun
      · exact .inr h
    · rcases hfollows.quiet with h | h | h
      · exact .inl h
      · exact absurd h nofun
      · exact .inr (.inr h)

def Stage (ns : NepVideoStream) (cam : Camera) : Hook → Prop
  | .idle => (cam.frame = none ∧ ns.asm.opened = false ∧ cam.ended = false) ∨
      ∃ f, cam.frame = some f ∧ Follows ns f f cam.ended
  | .data x => ∃ f, cam.frame = some f ∧ cam.ended = false ∧ Follows ns f f false ∧ Under ns f x
  | .close x => ∃ f, cam.frame = some f ∧ cam.ended = false ∧ Follows ns f (f.add x) false ∧ Under ns f x

structure Inv (mode : Mode) (s : State) : Prop where
  stage : Stage s.ns s.cam s.hook
  sound : ∀ r ∈ s.ns.replies, r.AsWhole → Sound mode s.cam.frames r

theorem Stage.congr {hook : Hook} (h : Stage ns cam hook) (hasm : ns'.asm = ns.asm)
    (hcur : ns'.reads.cur = ns.reads.cur) : Stage ns' cam hook := by
  have hstill : Still ns ns' := ⟨by rw [hasm], by rw [hasm], by rw [hasm], by rw [hasm], by rw [hasm], hcur⟩
  cases hook with
  | idle =>
    rcases h with ⟨hnone, hopen, hended⟩ | ⟨f, hf, h⟩
    · exact .inl ⟨hnone, by rw [hasm, hopen], hended⟩
    · exact .inr ⟨f, hf, h.congr hstill⟩
  | data x | close x =>
    obtain ⟨f, hf, hended, h, hunder⟩ := h
    exact ⟨f, hf, hended, h.congr hstill, ⟨hunder.fid, hasm ▸ hunder.payInfo, hunder.header, hasm ▸ hunder.same⟩⟩

theorem Inv.client (h : Inv mode s) (hasm : ns'.asm = s.ns.asm) (hcur : ns'.reads.cur = s.ns.reads.cur)
    (hadds : ∀ P, Adds P s.ns ns') : Inv mode { s with ns := ns' } := by
  refine ⟨h.stage.congr hasm hcur, fun r hr hwhole => ?_⟩
  rcases hadds (Sound mode s.cam.frames) r hr with hr | hr
  · exact h.sound r hr hwhole
  · exact hr hwhole

theorem Inv.reach (h : Inv mode s) (hmono : ∀ f ∈ s.cam.frames, f ∈ cam.frames)
    (hadds : Adds (Sound mode cam.frames) s.ns ns') {hook : Hook} (hstage : Stage ns' cam hook) :
    Inv mode ⟨ns', cam, hook⟩ := by
  refine ⟨hstage, fun r hr hwhole => ?_⟩
  rcases hadds r hr with hr | hr
  · obtain ⟨f, hf, hholds⟩ := h.sound r hr hwhole
    exact ⟨f, hmono f hf, hholds⟩
  · exact hr hwhole

theorem uvcPayloadBegin_eq (mode : Mode) (ns : NepVideoStream) (x : Transfer) (busframe : ℕ) :
    ∃ v, Still (giveBack ns) v ∧ v.replies = (giveBack ns).replies ∧
      (headerLength x.brought = 0 →
        uvcPayloadBegin mode ns x.brought x.wireerror busframe = (v.setAsm ({ · with damaged := true }), 0)) ∧
      (headerLength x.brought ≠ 0 → uvcPayloadBegin mode ns x.brought x.wireerror busframe =
        (uvcPayloadHeader mode v x.brought x.wireerror busframe, headerLength x.brought)) := by
  unfold uvcPayloadBegin
  by_cases hheader : headerLength x.brought = 0
  · simp only [if_pos hheader]
    refine ⟨_, ?_, ?_, fun _ => rfl, fun h => absurd hheader h⟩
    · split <;> exact ⟨rfl, rfl, rfl, rfl, rfl, rfl⟩
    · split <;> rfl
  · simp only [if_neg hheader]
    refine ⟨_, ?_, ?_, fun h => absurd h hheader, fun _ => rfl⟩
    · split <;> exact ⟨rfl, rfl, rfl, rfl, rfl, rfl⟩
    · split <;> rfl

variable (mode) (s) (x) in
theorem startHook_spec (cam : Camera) (hcam : cam.frame = some f) (hended : cam.ended = false) (hfid : f.fid = x.fid)
    (hfits : s.ns.asm.opened = true → ∀ ioreq, (giveBack s.ns).reads.cur = some ioreq →
      (giveBack s.ns).asm.fill ≤ ioreq.data.length)
    (hkeep : s.ns.asm.opened = true → s.ns.asm.fid = f.fid → Follows (giveBack s.ns) f f false)
    (hheld : f.held = true → s.ns.asm.opened = true ∧ s.ns.asm.fid = f.fid)
    (hquiet : f.rest = [] ∨ s.ns.asm.opened = true ∧ s.ns.asm.fid = f.fid) (busframe : ℕ)
    (hadds : ∀ u, Still (giveBack s.ns) u → s.ns.asm.opened = true → s.ns.asm.fid ≠ x.fid →
      Adds (Sound mode cam.frames) u (uvcCloseFrame mode u)) :
    let u := startHook mode s cam x busframe
    Stage u.ns u.cam u.hook ∧ (∀ g ∈ cam.frames, g ∈ u.cam.frames) ∧ Adds (Sound mode u.cam.frames) s.ns u.ns := by
  obtain ⟨v, hstill, hreplies, hnone, hsome⟩ := uvcPayloadBegin_eq mode s.ns x busframe
  obtain ⟨hopen, -, hfid'⟩ := giveBack_asm s.ns
  have hopened : v.asm.opened = s.ns.asm.opened := hstill.opened.trans hopen
  have hsame : v.asm.fid = s.ns.asm.fid := hstill.fid.trans hfid'
  have hback : ∀ frames, Adds (Sound mode frames) s.ns v := fun _ =>
    (adds_giveBack _ s.ns).trans (.of_eq hreplies)
  rcases header_brought x with ⟨hheader, hx⟩ | hheader
  · -- nothing but the mark
    rw [startHook, hnone hheader]
    dsimp only
    rw [if_pos rfl]
    refine ⟨.inr ⟨f.add x, ?_, ?_⟩, fun g hg => ?_, hback _⟩
    · exact congrArg (Option.map _) hcam
    · refine .fail ?_ ?_ ?_ hx _
      · rw [hopened, hsame]
        exact hheld
      · rw [hopened, hsame]
        exact hquiet
      · rw [hopened, hstill.cur, hstill.fill]
        exact hfits
    · rw [Camera.frames, hended] at hg
      have hg : g ∈ cam.past := by simpa using hg
      exact mem_append_left _ hg
  · have hne : headerLength x.brought ≠ 0 := by
      have hle := x.headerLength_le.1
      omega
    rw [startHook, hsome hne]
    dsimp only
    rw [if_neg hne]
    have hspec := uvcPayloadHeader_spec mode v f x (P := Sound mode cam.frames) ?_ ?_ ?_
      hfid hheader (info_brought hheader) busframe ?_
    · obtain ⟨hfollows, hunder, hreply⟩ := hspec
      exact ⟨⟨f, hcam, hended, hfollows, hunder⟩, fun _ hg => hg, (hback _).trans hreply⟩
    · rw [hopened, hsame]
      exact fun h h' => (hkeep h h').congr hstill
    · rw [hopened, hsame]
      exact hheld
    · rw [hopened, hsame]
      exact hquiet
    · rw [hopened, hsame]
      intro u hu _ hopen hother
      exact hadds u ⟨hu.opened.trans hstill.opened, hu.damaged.trans hstill.damaged, hu.overflow.trans hstill.overflow,
        hu.fid.trans hstill.fid, hu.fill.trans hstill.fill, hu.cur.trans hstill.cur⟩ hopen hother

section

variable (h : Inv mode s) (hplain : mode.payload.has UPF_EMBEDDED = false) (hidle : s.hook = .idle)
include h hplain hidle

theorem Inv.begin (hmay : s.cam.mayBegin x = true) (busframe : ℕ) :
    Inv mode (startHook mode s (s.cam.begin ⟨x.fid, s.ns.asm.opened && s.ns.asm.fid == x.fid, []⟩) x busframe) := by
  have hstage := h.stage
  rw [hidle] at hstage
  obtain ⟨hopen, hdamaged, hfid⟩ := giveBack_asm s.ns
  have hframes : ∀ g ∈ s.cam.frames, g ∈ (s.cam.begin ⟨x.fid, s.ns.asm.opened && s.ns.asm.fid == x.fid, []⟩).frames := by
    intro g hg
    rw [Camera.frames] at hg
    simp only [Camera.frames, Camera.begin]
    refine mem_append_left _ ?_
    rcases mem_append.mp hg with hg | hg
    · exact mem_append_left _ hg
    · split at hg
      · exact mem_append_right _ hg
      · exact absurd hg nofun
  have hspec := startHook_spec mode s x
    (s.cam.begin ⟨x.fid, s.ns.asm.opened && s.ns.asm.fid == x.fid, []⟩) rfl rfl rfl ?_ ?_ ?_ (.inl rfl) busframe ?_
  · obtain ⟨hstage', hmono, hadds⟩ := hspec
    exact h.reach (fun g hg => hmono g (hframes g hg)) hadds hstage'
  · intro hopened
    rcases hstage with ⟨-, hshut, -⟩ | ⟨f, hf, hfollows⟩
    · exact absurd (hshut.symm.trans hopened) nofun
    · exact hfollows.giveBack.fits (hopen.trans hopened)
  · -- the frame of this identifier that is open is an older one
    intro hopened hthis
    rcases hstage with ⟨-, hshut, -⟩ | ⟨f, hf, hfollows⟩
    · exact absurd (hshut.symm.trans hopened) nofun
    · have hother : s.ns.asm.fid ≠ f.fid := by
        rw [Camera.mayBegin, hf] at hmay
        rw [hthis]
        simpa using hmay
      have hmark : (giveBack s.ns).asm.damaged = true :=
        hdamaged.trans ((hfollows.same hopened).resolve_right hother)
      refine ⟨hfollows.giveBack.fits, fun _ => .inl hmark, fun _ hwhole => ?_, fun _ => ?_, .inl rfl⟩
      · exact absurd (hmark.symm.trans hwhole) nofun
      · exact .inr ⟨hopen.trans hopened, hmark, hfid.trans hthis⟩
  · intro hheld
    obtain ⟨hopened, hthis⟩ := Bool.and_eq_true_iff.mp hheld
    exact ⟨hopened, beq_iff_eq.mp hthis⟩
  · intro u hstill hopened _
    rcases hstage with ⟨-, hshut, -⟩ | ⟨f, hf, hfollows⟩
    · exact absurd (hshut.symm.trans hopened) nofun
    · refine (hfollows.giveBack.congr hstill).closes rfl (fun hrest _ => hrest) hplain fun _ _ => ?_
      simp [Camera.frames, Camera.begin, hf]

theorem Inv.goOn (hmay : s.cam.mayGoOn x = true) (busframe : ℕ) : Inv mode (startHook mode s s.cam x busframe) := by
  have hstage := h.stage
  rw [hidle] at hstage
  obtain ⟨hended, hframe⟩ := Bool.and_eq_true_iff.mp hmay
  have hended : s.cam.ended = false := by simpa using hended
  obtain ⟨f, hf, hfollows⟩ : ∃ f, s.cam.frame = some f ∧ Follows s.ns f f s.cam.ended := by
    rcases hstage with ⟨hnone, -, -⟩ | hstage
    · rw [hnone] at hframe
      exact absurd hframe nofun
    · exact hstage
  rw [hended] at hfollows
  have hfid : f.fid = x.fid := by
    rw [hf] at hframe
    exact (beq_iff_eq.mp hframe).symm
  obtain ⟨hopen, hdamaged, -⟩ := giveBack_asm s.ns
  have hspec := startHook_spec mode s x s.cam hf hended hfid ?_ ?_ ?_ ?_ busframe ?_
  · obtain ⟨hstage', hmono, hadds⟩ := hspec
    exact h.reach hmono hadds hstage'
  · exact fun hopened => hfollows.giveBack.fits (hopen.trans hopened)
  · exact fun _ _ => hfollows.giveBack
  · intro hheld
    rcases hfollows.held hheld with h | ⟨hopened, -, hthis⟩
    · exact absurd h nofun
    · exact ⟨hopened, hthis⟩
  · rcases hfollows.quiet with h | h | h
    · exact .inl h
    · exact absurd h nofun
    · exact .inr h
  · -- an older frame, and damaged
    intro u hstill hopened hother
    have hmark : u.asm.damaged = true := by
      rw [hstill.damaged, hdamaged]
      exact (hfollows.same hopened).resolve_right fun h => hother (h.trans hfid)
    exact uvcCloseFrame_adds hplain fun _ hwhole => absurd (hmark.symm.trans hwhole) nofun

end

theorem frames_sent (hended : cam.ended = false) (hf : cam.frame = some f) :
    (∀ g ∈ cam.frames, g ∈ (cam.sent x).frames) ∧ (x.eof = true → f.add x ∈ (cam.sent x).frames) := by
  refine ⟨fun g hg => ?_, fun heof => ?_⟩
  · rw [Camera.frames, hended] at hg
    have hg : g ∈ cam.past := by simpa using hg
    exact mem_append_left _ hg
  · simp [Camera.frames, Camera.sent, heof, hf, Frame.add]

theorem Inv.step {e : Event} (h : Inv mode s) (hplain : mode.payload.has UPF_EMBEDDED = false)
    (hs : step mode s e = some t) : Inv mode t := by
  cases e with
  | next begins x busframe =>
    cases hhook : s.hook with
    | data y => simp [Uvc.step, hhook] at hs
    | close y => simp [Uvc.step, hhook] at hs
    | idle =>
      simp only [Uvc.step, hhook] at hs
      split at hs
      · obtain ⟨hmay, rfl⟩ := of_guard hs
        exact h.begin hplain hhook hmay busframe
      · obtain ⟨hmay, rfl⟩ := of_guard hs
        exact h.goOn hplain hhook hmay busframe
  | go =>
    have hstage := h.stage
    cases hhook : s.hook with
    | idle => simp [Uvc.step, hhook] at hs
    | data x =>
      rw [hhook] at hstage
      obtain ⟨f, hf, hended, hfollows, hunder⟩ := hstage
      simp only [Uvc.step, hhook, some.injEq, hunder.header] at hs
      obtain ⟨hnext, hunder', hreplies⟩ := hfollows.payloadData hunder
      rw [← hs]
      exact h.reach (fun _ hg => hg) (.of_eq hreplies) ⟨f, hf, hended, hnext, hunder'⟩
    | close x =>
      rw [hhook] at hstage
      obtain ⟨f, hf, hended, hfollows, hunder⟩ := hstage
      simp only [Uvc.step, hhook, some.injEq] at hs
      obtain ⟨hmono, hlast⟩ := frames_sent (x := x) hended hf
      obtain ⟨hnext, hadds⟩ := hfollows.payloadEnd hunder hplain hlast
      rw [← hs]
      refine h.reach hmono hadds (.inr ⟨f.add x, ?_, hnext⟩)
      exact congrArg (Option.map _) hf
  | read ioreq =>
    rw [← some.inj hs]
    exact h.client rfl rfl fun _ => .of_eq rfl
  | abort id =>
    rw [← some.inj hs]
    refine h.client ?_ ?_ fun P => adds_abort P s.ns id
    · unfold devAbortIO
      split
      · rfl
      · split <;> rfl
    · unfold devAbortIO
      split
      · rfl
      · split <;> rfl
  | flush =>
    rw [← some.inj hs]
    exact h.client rfl rfl fun P => adds_flush P s.ns

theorem Inv.init (mode : Mode) (queue : List IoStdReq) : Inv mode (init queue) :=
  ⟨.inl ⟨rfl, rfl, rfl⟩, nofun⟩

/-- In every run, with every read queue and every abort: where no frame has lost its lead unheard, what is
delivered as whole is all data of one frame of the camera, none of it lost or flagged. -/
theorem whole_frame_whole (hplain : mode.payload.has UPF_EMBEDDED = false) {queue : List IoStdReq} {evs : List Event}
    (hrun : Run (step mode) anyStep (init queue) evs t) (hheard : ∀ f ∈ t.cam.frames, f.Heard mode)
    (hr : r ∈ t.ns.replies) (hwhole : r.AsWhole) : ∃ f ∈ t.cam.frames, r.Holds f := by
  have hinv : Inv mode t := hrun.invariant (Inv mode) (.init mode queue) fun _ _ _ h _ hs => h.step hplain hs
  obtain ⟨f, hf, hholds⟩ := hinv.sound r hr hwhole
  exact ⟨f, hf, hholds (hheard f hf)⟩

instance (f : Frame) (mode : Mode) : Decidable (f.Heard mode) :=
  inferInstanceAs (Decidable (_ ∨ _ ∨ _ ∨ _ ∨ _))

instance (r : Reply) (f : Frame) : Decidable (r.Holds f) := inferInstanceAs (Decidable (_ ∧ _ ∧ _))

instance (r : Reply) : Decidable r.AsWhole := inferInstanceAs (Decidable (_ ∧ _))

def frameBased : Mode := ⟨rowFrameBased, 0, false⟩

def mjpeg : Mode := ⟨rowMjpeg, 0, false⟩

def buffer : IoStdReq := ⟨1, List.replicate 4 0, true⟩

def transfer (info : UInt8) (data : List UInt8) (failed : Option ℕ) : Transfer :=
  ⟨⟨info, [], data, Nat.zero_le _⟩, failed⟩

def comes (begins : Bool) (info : UInt8) (data : List UInt8) : List Event :=
  [.next begins (transfer info data none) 0, .go, .go]

def wholeRun : List Event := comes true 0x00 [1, 2] ++ comes false 0x02 [3]

theorem whole_frame_whole_three :
    ∃ t, exec (step frameBased) (init [buffer]) wholeRun = some t ∧
      ∃ r ∈ t.ns.replies, r.data = [1, 2, 3, 0] ∧ ∃ f ∈ t.cam.frames, r.Holds f := by
  refine ⟨_, rfl, _, mem_singleton_self _, rfl, ?_⟩
  have hmeets : Meets (step frameBased) anyStep (init [buffer]) wholeRun := .any _ _
  exact whole_frame_whole rfl (.of_exec hmeets rfl) (by decide +kernel) (mem_singleton_self _) (by decide +kernel)

theorem lost_lead :
    (∃ t, exec (step frameBased) (init [buffer])
        (.next true (transfer 0x00 [1, 2] (some 0)) 0 :: comes false 0x02 [3]) = some t ∧
      ∃ r ∈ t.ns.replies, r.AsWhole ∧ r.data.take r.actual = [3] ∧ ¬ ∃ f ∈ t.cam.frames, r.Holds f) ∧
    ∃ t, exec (step mjpeg) (init [buffer]) (comes true 0x40 [] ++ comes false 0x02 [0xff, 0xd8]) = some t ∧
      ∃ r ∈ t.ns.replies, r.AsWhole ∧ ¬ ∃ f ∈ t.cam.frames, r.Holds f := by
  constructor
  · refine ⟨_, rfl, _, mem_singleton_self _, by decide +kernel, by decide +kernel, by decide +kernel⟩
  · refine ⟨_, rfl, _, mem_singleton_self _, by decide +kernel, by decide +kernel⟩

end Neptune.Uvc
