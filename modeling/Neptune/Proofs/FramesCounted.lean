import Neptune.Proofs.EmbeddedExact

/-! The frames of a stream, each with what came of it, against the counters and the numbers of the reads.
The counters are 32 bits wide. -/

namespace Neptune.Uvc

open List

/-- The calls of the transport, and of the clients between them. -/
inductive Call
  | payloadBegin (hdr : List UInt8) (wireerror : Bool) (busframe : ℕ)
  | payloadData (data : List UInt8)
  | payloadEnd
  | read (ioreq : IoStdReq)
  | abort (id : ℕ)
  | flush

def NepVideoStream.started (queue : List IoStdReq) (asm : UvcAssembly) : NepVideoStream :=
  { NepVideoStream.init queue with asm := { asm with opened := false } }

inductive Fate
  | delivered
  | skipped
  | overflowed
  | damaged (given : Bool)
  deriving DecidableEq, Repr

def Fate.handed : Fate → Bool
  | .delivered => true
  | .damaged given => given
  | _ => false

def Fate.isDamaged : Fate → Bool
  | .damaged _ => true
  | _ => false

section

variable (mode : Mode)

def Call.run (ns : NepVideoStream) : Call → NepVideoStream
  | .payloadBegin hdr wireerror busframe => (uvcPayloadBegin mode ns hdr wireerror busframe).1
  | .payloadData data => uvcPayloadData ns data
  | .payloadEnd => uvcPayloadEnd mode ns
  | .read ioreq => cmdRead ns ioreq
  | .abort id => devAbortIO ns id
  | .flush => uvcAbortReads ns

def fate (ns : NepVideoStream) : Option Fate :=
  match ns.reads.cur with
  | none => some .skipped
  | some ioreq =>
    if ns.asm.overflow then some .overflowed
    else if ns.asm.damaged || mode.joinedHalfway (ioreq.data.take ns.asm.fill) then some (.damaged mode.openDamaged)
    else if mode.payload.has UPF_EMBEDDED ∧ (uvcExtractEmbedded ioreq.data ns.asm.fill UVFCC_H264).2 = 0 then none
    else some .delivered

def Call.finds (ns : NepVideoStream) : Call → NepVideoStream
  | .payloadBegin .. => giveBack ns
  | .payloadEnd => if ns.asm.payInfo &&& UVPHF_ERR != 0 then ns.setAsm ({ · with damaged := true }) else ns
  | _ => ns

structure Ledger where
  ns : NepVideoStream
  fates : List Fate

def Ledger.step (l : Ledger) (c : Call) : Ledger where
  ns := c.run mode l.ns
  fates := l.fates ++
    bif l.ns.asm.opened && !(c.run mode l.ns).asm.opened then (fate mode (c.finds l.ns)).toList else []

def Ledger.steps (l : Ledger) (calls : List Call) : Ledger := calls.foldl (Ledger.step mode) l

end

def places (n : ℕ) : List Fate → List ℕ
  | [] => []
  | f :: fates => if f.handed then (n + 1) :: places (n + 1) fates else places (n + 1) fates

def NepVideoStream.done (ns : NepVideoStream) : List Reply := ns.replies.filter (·.error = .none)

structure Accounts (ns : NepVideoStream) (fates : List Fate) : Prop where
  frames : ns.stats.frames = ulong (fates.length + if ns.asm.opened then 1 else 0)
  delivered : ns.stats.delivered = ulong (fates.count .delivered)
  skipped : ns.stats.skipped = ulong (fates.count .skipped)
  overflowed : ns.stats.overflowed = ulong (fates.count .overflowed)
  damaged : ns.stats.damaged = ulong (fates.countP Fate.isDamaged)
  room : ∀ ioreq ∈ ns.reads.cur, ns.asm.fill ≤ ioreq.data.length
  actual : ∀ r ∈ ns.replies, r.actual ≤ r.data.length
  numbered : List.Forall₂ (fun r k => ∀ v ∈ r.video, v.sequence = ulong k) ns.done (places 0 fates)

variable {mode : Mode} {ns ns' : NepVideoStream} {fates : List Fate}

theorem places_append (n : ℕ) (fates more : List Fate) :
    places n (fates ++ more) = places n fates ++ places (n + fates.length) more := by
  induction fates generalizing n with
  | nil => rfl
  | cons f fates ih =>
    rw [cons_append, places, places, ih, length_cons, Nat.add_right_comm n, Nat.add_assoc]
    split <;> rfl

theorem length_places (n : ℕ) (fates : List Fate) : (places n fates).length = fates.countP Fate.handed := by
  induction fates generalizing n with
  | nil => rfl
  | cons f fates ih =>
    rw [places, countP_cons, ← ih (n + 1)]
    split <;> rfl

theorem places_split {n k : ℕ} {ks ks' : List ℕ} (h : places n fates = ks ++ k :: ks') :
    ∃ a f b, fates = a ++ f :: b ∧ f.handed ∧ k = n + a.length + 1 ∧ places n a = ks ∧ places k b = ks' := by
  induction fates generalizing n ks with
  | nil => exact absurd h.symm (append_ne_nil_of_right_ne_nil _ (cons_ne_nil _ _))
  | cons f fates ih =>
    rw [places] at h
    by_cases hf : f.handed
    · rw [if_pos hf] at h
      match ks with
      | [] =>
        obtain ⟨rfl, htail⟩ := cons.inj h
        exact ⟨[], f, fates, rfl, hf, rfl, rfl, htail⟩
      | k' :: ks =>
        obtain ⟨rfl, htail⟩ := cons.inj h
        obtain ⟨a, g, b, rfl, hg, hk, ha, hb⟩ := ih htail
        refine ⟨f :: a, g, b, rfl, hg, ?_, ?_, hb⟩
        · rw [hk, length_cons]
          omega
        · rw [places, if_pos hf, ha]
    · rw [if_neg hf] at h
      obtain ⟨a, g, b, rfl, hg, hk, ha, hb⟩ := ih h
      refine ⟨f :: a, g, b, rfl, hg, ?_, ?_, hb⟩
      · rw [hk, length_cons]
        omega
      · rw [places, if_neg hf, ha]

theorem ulong_succ (n : ℕ) : ulong (ulong n + 1) = ulong (n + 1) := Nat.mod_add_mod ..

structure Same (ns ns' : NepVideoStream) : Prop where
  frames : ns'.stats.frames = ns.stats.frames
  delivered : ns'.stats.delivered = ns.stats.delivered
  skipped : ns'.stats.skipped = ns.stats.skipped
  overflowed : ns'.stats.overflowed = ns.stats.overflowed
  damaged : ns'.stats.damaged = ns.stats.damaged
  opened : ns'.asm.opened = ns.asm.opened

section

variable (h : Accounts ns fates)
include h

theorem Accounts.congr (hsame : Same ns ns')
    (hroom : ∀ ioreq ∈ ns'.reads.cur, ns'.asm.fill ≤ ioreq.data.length)
    (hreplies : ∃ rs, ns'.replies = ns.replies ++ rs ∧ ∀ r ∈ rs, r.error = .aborted ∧ r.actual = 0) :
    Accounts ns' fates := by
  obtain ⟨rs, hrs, haborted⟩ := hreplies
  have hdone : ns'.done = ns.done := by
    have hnone : rs.filter (·.error = .none) = [] :=
      filter_eq_nil_iff.2 fun r hr => by rw [(haborted r hr).1]; exact Bool.false_ne_true
    rw [NepVideoStream.done, hrs, filter_append, hnone, append_nil]
    rfl
  refine ⟨?_, hsame.delivered.trans h.delivered, hsame.skipped.trans h.skipped, hsame.overflowed.trans h.overflowed,
    hsame.damaged.trans h.damaged, hroom, fun r hr => ?_, hdone ▸ h.numbered⟩
  · rw [hsame.frames, hsame.opened, h.frames]
  · rw [hrs] at hr
    rcases mem_append.1 hr with hr | hr
    · exact h.actual r hr
    · rw [(haborted r hr).2]
      exact Nat.zero_le _

theorem Accounts.quiet (hsame : Same ns ns') (hreads : ns'.reads.cur = ns.reads.cur)
    (hfill : ns'.asm.fill = ns.asm.fill) (hreplies : ns'.replies = ns.replies) : Accounts ns' fates :=
  h.congr hsame (by rw [hreads, hfill]; exact h.room) ⟨[], by rw [hreplies, append_nil], nofun⟩

theorem Accounts.back : Accounts (giveBack ns) fates := by
  unfold giveBack
  split
  · split
    · exact h.congr ⟨rfl, rfl, rfl, rfl, rfl, rfl⟩ nofun ⟨_, rfl, by rintro r (_ | ⟨_, ⟨⟩⟩); exact ⟨rfl, rfl⟩⟩
    · exact h.quiet ⟨rfl, rfl, rfl, rfl, rfl, rfl⟩ rfl rfl rfl
  · exact h

theorem Accounts.abort (id : ℕ) : Accounts ( devAbortIO ns id) fates := by
  unfold devAbortIO
  split
  · exact h.quiet ⟨rfl, rfl, rfl, rfl, rfl, rfl⟩ rfl rfl rfl
  · split
    · exact h.congr ⟨rfl, rfl, rfl, rfl, rfl, rfl⟩ h.room ⟨_, rfl, by rintro r (_ | ⟨_, ⟨⟩⟩); exact ⟨rfl, rfl⟩⟩
    · exact h

theorem Accounts.flush : Accounts (uvcAbortReads ns) fates := by
  refine h.congr ⟨rfl, rfl, rfl, rfl, rfl, rfl⟩ h.room ⟨_, rfl, fun r hr => ?_⟩
  obtain ⟨ioreq, -, rfl⟩ := mem_map.1 hr
  exact ⟨rfl, rfl⟩

end

theorem Accounts.reply {rs : List Reply} {ks : List ℕ} (h : Accounts ns fates)
    (hreplies : ns'.replies = ns.replies ++ rs)
    (hnumbered : List.Forall₂ (fun r k => ∀ v ∈ r.video, v.sequence = ulong k) (rs.filter (·.error = .none)) ks) :
    List.Forall₂ (fun r k => ∀ v ∈ r.video, v.sequence = ulong k) ns'.done (places 0 fates ++ ks) := by
  rw [NepVideoStream.done, hreplies, filter_append]
  exact rel_append h.numbered hnumbered

structure Counted (ns ns' : NepVideoStream) (f : Fate) : Prop where
  frames : ns'.stats.frames = ns.stats.frames
  delivered : ns'.stats.delivered = if f = .delivered then ulong (ns.stats.delivered + 1) else ns.stats.delivered
  skipped : ns'.stats.skipped = if f = .skipped then ulong (ns.stats.skipped + 1) else ns.stats.skipped
  overflowed : ns'.stats.overflowed = if f = .overflowed then ulong (ns.stats.overflowed + 1) else ns.stats.overflowed
  damaged : ns'.stats.damaged = if f.isDamaged then ulong (ns.stats.damaged + 1) else ns.stats.damaged
  closed : ns'.asm.opened = false

theorem Accounts.close {rs : List Reply} (h : Accounts ns fates) (hopen : ns.asm.opened = true) (f : Fate)
    (hcounted : Counted ns ns' f) (hroom : ∀ ioreq ∈ ns'.reads.cur, ns'.asm.fill ≤ ioreq.data.length)
    (hreplies : ns'.replies = ns.replies ++ rs) (hactual : ∀ r ∈ rs, r.actual ≤ r.data.length)
    (hnumbered : List.Forall₂ (fun r k => ∀ v ∈ r.video, v.sequence = ulong k) (rs.filter (·.error = .none))
      (if f.handed then [fates.length + 1] else [])) :
    Accounts ns' (fates ++ [f]) := by
  have hcount (g : Fate) (n : ℕ) (hn : n = ulong (fates.count g)) :
      (if f = g then ulong (n + 1) else n) = ulong ((fates ++ [f]).count g) := by
    rw [count_append, count_singleton, hn]
    by_cases hg : f = g
    · rw [if_pos hg, if_pos (beq_iff_eq.2 hg), ulong_succ]
    · rw [if_neg hg, if_neg (fun heq => hg (beq_iff_eq.1 heq)), Nat.add_zero]
  refine ⟨?_, hcounted.delivered.trans (hcount _ _ h.delivered), hcounted.skipped.trans (hcount _ _ h.skipped),
    hcounted.overflowed.trans (hcount _ _ h.overflowed), ?_, hroom, fun r hr => ?_, ?_⟩
  · rw [hcounted.frames, h.frames, hopen, hcounted.closed, length_append]
    rfl
  · rw [hcounted.damaged, h.damaged, countP_append, countP_singleton]
    split
    · exact ulong_succ _
    · rfl
  · rw [hreplies] at hr
    exact (mem_append.1 hr).elim (h.actual r) (hactual r)
  · rw [places_append]
    refine @Accounts.reply _ _ _ _ (places (0 + fates.length) [f]) h hreplies ?_
    rw [Nat.zero_add]
    exact hnumbered

theorem uvcExtractEmbedded_inside {buf : List UInt8} {len : ℕ} (fourcc : ℕ) (h : len ≤ buf.length) :
    (uvcExtractEmbedded buf len fourcc).2 ≤ len ∧ (uvcExtractEmbedded buf len fourcc).1.length = buf.length := by
  have hlength : (buf.take len).length = len := length_take_of_le h
  obtain ⟨-, left, hpair, hleft⟩ := embedded_exact (buf.take len) (buf.drop len) fourcc
  rw [take_append_drop, hlength] at hpair
  rw [hpair]
  refine ⟨by dsimp only; omega, ?_⟩
  rw [length_append, length_append, length_drop]
  omega

section deliver

variable {ioreq : IoStdReq} {error : IoError} {flags : ℕ}

theorem uvcDeliver_replies (ns : NepVideoStream) (ioreq : IoStdReq) (error : IoError) (flags : ℕ) :
    ∃ r, (uvcDeliver ns ioreq error flags).replies = ns.replies ++ [r] ∧ r.error = error ∧
      r.actual = ns.asm.fill ∧ r.data = ioreq.data ∧ ∀ v ∈ r.video, v.sequence = ns.stats.frames := by
  refine ⟨_, rfl, rfl, rfl, rfl, fun v hv => ?_⟩
  split at hv
  · cases hv
    rfl
  · cases hv

end deliver

section

variable (h : Accounts ns fates)
include h

theorem Accounts.deliver (hopen : ns.asm.opened = true) (f : Fate)
    (hcounted : Counted ns ns' f) (hreplies : ns'.replies = ns.replies) (hfits : ns'.asm.fill ≤ ioreq.data.length)
    (herror : decide (error = .none) = f.handed) :
    Accounts (uvcDeliver ns' ioreq error flags) (fates ++ [f]) := by
  obtain ⟨r, hrs, hrerror, hractual, hrdata, hrvideo⟩ := uvcDeliver_replies ns' ioreq error flags
  refine h.close hopen f { hcounted with } nofun (hrs.trans (by rw [hreplies]))
    ?_ ?_
  · rintro _ (_ | ⟨_, ⟨⟩⟩)
    rw [hractual, hrdata]
    exact hfits
  · rw [filter_singleton, hrerror, herror]
    cases f.handed
    · exact .nil
    · refine .cons (fun v hv => ?_) .nil
      rw [hrvideo v hv, hcounted.frames, h.frames, hopen]
      rfl

theorem Accounts.uncount (hopen : ns.asm.opened = true)
    (hframes : ns'.stats.frames = ulongSub ns.stats.frames 1) (hdelivered : ns'.stats.delivered = ns.stats.delivered)
    (hskipped : ns'.stats.skipped = ns.stats.skipped) (hoverflowed : ns'.stats.overflowed = ns.stats.overflowed)
    (hdamaged : ns'.stats.damaged = ns.stats.damaged) (hclosed : ns'.asm.opened = false)
    (hroom : ∀ ioreq ∈ ns'.reads.cur, ns'.asm.fill ≤ ioreq.data.length) (hreplies : ns'.replies = ns.replies) :
    Accounts ns' (fates ++ []) := by
  rw [append_nil]
  refine ⟨?_, hdelivered.trans h.delivered, hskipped.trans h.skipped, hoverflowed.trans h.overflowed,
    hdamaged.trans h.damaged, hroom, hreplies ▸ h.actual, ?_⟩
  · rw [hframes, h.frames, hopen, hclosed]
    change ulongSub (ulong (fates.length + 1)) 1 = ulong (fates.length + 0)
    simp only [ulongSub, ulong]
    omega
  · rw [NepVideoStream.done, hreplies]
    exact h.numbered

theorem Accounts.closeFrame (hopen : ns.asm.opened = true) :
    Accounts (uvcCloseFrame mode ns) (fates ++ (fate mode ns).toList) := by
  unfold uvcCloseFrame fate
  rw [if_neg (by rw [hopen]; nofun)]
  dsimp only [NepVideoStream.setAsm]
  match hcur : ns.reads.cur with
  | none =>
    exact h.close hopen .skipped ⟨rfl, rfl, rfl, rfl, rfl, rfl⟩ h.room (append_nil _).symm nofun .nil
  | some ioreq =>
    have hfits := h.room ioreq hcur
    dsimp only
    by_cases hoverflow : ns.asm.overflow = true
    · rw [if_pos hoverflow, if_pos hoverflow]
      exact h.deliver hopen .overflowed ⟨rfl, rfl, rfl, rfl, rfl, rfl⟩ rfl hfits rfl
    · rw [if_neg hoverflow, if_neg hoverflow]
      by_cases hdamaged : (ns.asm.damaged || mode.joinedHalfway (ioreq.data.take ns.asm.fill)) = true
      · rw [if_pos hdamaged, if_neg (by rw [hdamaged]; nofun), uvcCloseDamaged]
        by_cases hgiven : mode.openDamaged = true
        · rw [if_pos hgiven, hgiven]
          exact h.deliver hopen (.damaged true) ⟨rfl, rfl, rfl, rfl, rfl, rfl⟩ rfl hfits rfl
        · rw [if_neg hgiven, eq_false_of_ne_true hgiven]
          exact h.close hopen (.damaged false) ⟨rfl, rfl, rfl, rfl, rfl, rfl⟩ h.room (append_nil _).symm nofun .nil
      · rw [if_neg hdamaged, if_pos (by rw [eq_false_of_ne_true hdamaged]; rfl), uvcCloseWhole]
        by_cases hembedded : mode.payload.has UPF_EMBEDDED = true
        · obtain ⟨hout, hlength⟩ := uvcExtractEmbedded_inside UVFCC_H264 hfits
          rw [if_pos hembedded]
          generalize uvcExtractEmbedded ioreq.data ns.asm.fill UVFCC_H264 = extracted at hout hlength ⊢
          obtain ⟨data, out⟩ := extracted
          dsimp only at hout hlength ⊢
          have hroom : out ≤ data.length := by omega
          by_cases hnothing : out = 0
          · rw [if_pos hnothing, if_pos ⟨hembedded, hnothing⟩]
            exact h.uncount hopen rfl rfl rfl rfl rfl rfl (by rintro _ ⟨⟩; exact hroom) rfl
          · rw [if_neg hnothing, if_neg fun hboth => hnothing hboth.2]
            exact h.deliver hopen .delivered ⟨rfl, rfl, rfl, rfl, rfl, rfl⟩ rfl hroom rfl
        · rw [if_neg hembedded, if_neg fun hboth => hembedded hboth.1]
          exact h.deliver hopen .delivered ⟨rfl, rfl, rfl, rfl, rfl, rfl⟩ rfl hfits rfl

theorem Accounts.judged :
    Accounts (uvcCloseFrame mode ns) (fates ++
      bif ns.asm.opened && !(uvcCloseFrame mode ns).asm.opened then (fate mode ns).toList else []) := by
  rw [(uvcCloseFrame_closed mode ns).1]
  by_cases hopen : ns.asm.opened = true
  · rw [hopen]
    exact h.closeFrame hopen
  · rw [eq_false_of_ne_true hopen, uvcCloseFrame, if_pos (by rw [eq_false_of_ne_true hopen]; rfl)]
    exact (append_nil fates).symm ▸ h

theorem Accounts.openFrame (hopen : ns.asm.opened = false) :
    Accounts (uvcOpenFrame ns) fates := by
  have hframes : ulong (ns.stats.frames + 1) = ulong (fates.length + 1) := by
    rw [h.frames, hopen]
    exact ulong_succ _
  unfold uvcOpenFrame
  dsimp only [NepVideoStream.setAsm, NepVideoStream.count]
  split
  · exact ⟨hframes, h.delivered, h.skipped, h.overflowed, h.damaged, fun _ _ => Nat.zero_le _, h.actual, h.numbered⟩
  · exact ⟨hframes, h.delivered, h.skipped, h.overflowed, h.damaged, fun _ _ => Nat.zero_le _, h.actual, h.numbered⟩

theorem Accounts.store (data : List UInt8) : Accounts (uvcStore ns data) fates := by
  unfold uvcStore
  match hcur : ns.reads.cur with
  | none => exact h
  | some ioreq =>
    have hfits := h.room ioreq hcur
    have hroom : ns.asm.fill + (data.take (ioreq.data.length - ns.asm.fill)).length ≤ ioreq.data.length := by
      rw [length_take]
      omega
    refine h.congr ⟨rfl, rfl, rfl, rfl, rfl, rfl⟩ ?_ ⟨[], (append_nil _).symm, nofun⟩
    rintro _ ⟨⟩
    exact hroom.trans_eq (length_copyTo hroom).symm

theorem Accounts.payloadData (data : List UInt8) : Accounts (uvcPayloadData ns data) fates := by
  unfold uvcPayloadData
  split
  · exact h
  · refine Accounts.store ?_ data
    split
    · rename_i hopen
      exact h.openFrame (Bool.not_eq_true' _ ▸ hopen)
    · exact h

end

theorem uvcPayloadData_opened (h : ns.asm.opened = true) (data : List UInt8) :
    (uvcPayloadData ns data).asm.opened = true := by
  unfold uvcPayloadData
  rw [h]
  split
  · exact h
  · unfold uvcStore
    split <;> exact h

theorem Accounts.payloadEnd (h : Accounts ns fates) :
    Accounts (uvcPayloadEnd mode ns) (fates ++
      bif ns.asm.opened && !(uvcPayloadEnd mode ns).asm.opened then
        (fate mode (Call.payloadEnd.finds ns)).toList else []) := by
  unfold uvcPayloadEnd
  dsimp only [Call.finds]
  have hflag : Accounts
      (if ns.asm.payInfo &&& UVPHF_ERR != 0 then ns.setAsm ({ · with damaged := true }) else ns) fates := by
    split
    · exact h.quiet ⟨rfl, rfl, rfl, rfl, rfl, rfl⟩ rfl rfl rfl
    · exact h
  have hopened : (if ns.asm.payInfo &&& UVPHF_ERR != 0 then ns.setAsm ({ · with damaged := true }) else ns).asm.opened =
      ns.asm.opened := by
    split <;> rfl
  generalize (if ns.asm.payInfo &&& UVPHF_ERR != 0 then ns.setAsm ({ · with damaged := true }) else ns) = ns'
    at hflag hopened ⊢
  rw [← hopened]
  split
  · exact hflag.judged
  · rw [Bool.and_not_self]
    exact (append_nil fates).symm ▸ hflag

theorem fate_congr (hcur : ns'.reads.cur = ns.reads.cur) (hoverflow : ns'.asm.overflow = ns.asm.overflow)
    (hdamaged : ns'.asm.damaged = ns.asm.damaged) (hfill : ns'.asm.fill = ns.asm.fill) :
    fate mode ns' = fate mode ns := by
  unfold fate
  rw [hcur, hoverflow, hdamaged, hfill]

theorem uvcPayloadHeader_eq (mode : Mode) (ns : NepVideoStream) (hdr : List UInt8) (wireerror : Bool) (busframe : ℕ) :
    ∃ ns₁ ns₂ : NepVideoStream, Same ns ns₁ ∧ ns₁.reads = ns.reads ∧ ns₁.replies = ns.replies ∧
      ns₁.asm.fill = ns.asm.fill ∧ fate mode ns₁ = fate mode ns ∧ (ns₂ = ns₁ ∨ ns₂ = uvcCloseFrame mode ns₁) ∧
      uvcPayloadHeader mode ns hdr wireerror busframe =
        if !ns₂.asm.opened then ns₂.setAsm (·.stamp mode.payload.infoBytes hdr (headerLength hdr) busframe)
        else ns₂ := by
  refine ⟨NepVideoStream.setAsm (if hdr.getD 1 0 &&& UVPHF_ERR != 0 then
      ns.count fun c => { c with cameraErrors := ulong (c.cameraErrors + 1) } else ns)
      ({ · with payInfo := hdr.getD 1 0 ||| (if wireerror then UVPHF_ERR else 0) }),
    _, ?_, ?_, ?_, ?_, ?_, ?_, rfl⟩
  · split <;> exact ⟨rfl, rfl, rfl, rfl, rfl, rfl⟩
  · split <;> rfl
  · split <;> rfl
  · split <;> rfl
  · split <;> rfl
  · exact (ite_eq_or_eq ..).symm

theorem Accounts.payloadHeader (h : Accounts ns fates) (hdr : List UInt8) (wireerror : Bool) (busframe : ℕ) :
    Accounts (uvcPayloadHeader mode ns hdr wireerror busframe) (fates ++
      bif ns.asm.opened && !(uvcPayloadHeader mode ns hdr wireerror busframe).asm.opened then
        (fate mode ns).toList else []) := by
  obtain ⟨ns₁, ns₂, hsame, hreads, hreplies, hfill, hfate, hclose, heq⟩ :=
    uvcPayloadHeader_eq mode ns hdr wireerror busframe
  have h₁ : Accounts ns₁ fates := h.quiet hsame (congrArg (·.cur) hreads) hfill hreplies
  have h₂ : Accounts ns₂ (fates ++ bif ns.asm.opened && !ns₂.asm.opened then (fate mode ns).toList else []) := by
    rw [← hsame.opened, ← hfate]
    rcases hclose with rfl | rfl
    · rw [Bool.and_not_self]
      exact (append_nil fates).symm ▸ h₁
    · exact h₁.judged
  rw [heq]
  by_cases hopen : (!ns₂.asm.opened) = true
  · rw [if_pos hopen]
    exact h₂.quiet ⟨rfl, rfl, rfl, rfl, rfl, rfl⟩ rfl rfl rfl
  · rw [if_neg hopen]
    exact h₂

theorem Accounts.payloadBegin (h : Accounts ns fates) (hdr : List UInt8) (wireerror : Bool) (busframe : ℕ) :
    Accounts (uvcPayloadBegin mode ns hdr wireerror busframe).1 (fates ++
      bif ns.asm.opened && !(uvcPayloadBegin mode ns hdr wireerror busframe).1.asm.opened then
        (fate mode (giveBack ns)).toList else []) := by
  obtain ⟨ns₁, hns₁⟩ : ∃ ns₁, ns₁ = if wireerror then
    (giveBack ns).count fun c => { c with lostIntervals := ulong (c.lostIntervals + 1) } else giveBack ns := ⟨_, rfl⟩
  have hsame : Same (giveBack ns) ns₁ ∧ ns₁.asm = (giveBack ns).asm ∧ ns₁.reads = (giveBack ns).reads ∧
      ns₁.replies = (giveBack ns).replies := by
    rw [hns₁]
    split <;> exact ⟨⟨rfl, rfl, rfl, rfl, rfl, rfl⟩, rfl, rfl, rfl⟩
  obtain ⟨hsame, hasm, hreads, hreplies⟩ := hsame
  have h₁ : Accounts ns₁ fates :=
    h.back.quiet hsame (congrArg (·.cur) hreads) (congrArg (·.fill) hasm) hreplies
  have hfate : fate mode (giveBack ns) = fate mode ns₁ :=
    (fate_congr (congrArg (·.cur) hreads) (congrArg (·.overflow) hasm) (congrArg (·.damaged) hasm)
      (congrArg (·.fill) hasm)).symm
  have hopened : ns.asm.opened = ns₁.asm.opened := (hsame.opened.trans (giveBack_asm ns).1).symm
  unfold uvcPayloadBegin
  dsimp only
  rw [← hns₁, hopened, hfate]
  by_cases hheader : headerLength hdr = 0
  · rw [if_pos hheader]
    generalize hbad : (if wireerror then ns₁ else
      ns₁.count fun c => { c with badPayloads := ulong (c.badPayloads + 1) }) = ns₂
    have h₂ : Accounts ns₂ fates ∧ ns₂.asm.opened = ns₁.asm.opened := by
      subst hbad
      split
      · exact ⟨h₁, rfl⟩
      · exact ⟨h₁.quiet ⟨rfl, rfl, rfl, rfl, rfl, rfl⟩ rfl rfl rfl, rfl⟩
    obtain ⟨h₂, hopened₂⟩ := h₂
    rw [← hopened₂, show (ns₂.setAsm ({ · with damaged := true })).asm.opened = ns₂.asm.opened from rfl,
      Bool.and_not_self, cond_false, append_nil]
    exact h₂.quiet ⟨rfl, rfl, rfl, rfl, rfl, rfl⟩ rfl rfl rfl
  · rw [if_neg hheader]
    exact h₁.payloadHeader hdr wireerror busframe

theorem devAbortIO_asm (ns : NepVideoStream) (id : ℕ) : ( devAbortIO ns id).asm = ns.asm := by
  unfold devAbortIO
  split
  · rfl
  · split <;> rfl

theorem Ledger.step_accounts {l : Ledger} (h : Accounts l.ns l.fates) (c : Call) :
    Accounts (l.step mode c).ns (l.step mode c).fates := by
  have hnone {ns' : NepVideoStream} (h' : Accounts ns' l.fates) (hopened : ns'.asm.opened = l.ns.asm.opened) :
      Accounts ns' (l.fates ++
        bif l.ns.asm.opened && !ns'.asm.opened then (fate mode (c.finds l.ns)).toList else []) := by
    rw [hopened, Bool.and_not_self, cond_false, append_nil]
    exact h'
  cases c with
  | payloadBegin hdr wireerror busframe => exact h.payloadBegin hdr wireerror busframe
  | payloadData data =>
    unfold Ledger.step
    by_cases hopen : l.ns.asm.opened = true
    · exact hnone (h.payloadData data) ((uvcPayloadData_opened hopen data).trans hopen.symm)
    · rw [eq_false_of_ne_true hopen, Bool.false_and, cond_false, append_nil]
      exact h.payloadData data
  | payloadEnd => exact h.payloadEnd
  | read ioreq => exact hnone (h.quiet ⟨rfl, rfl, rfl, rfl, rfl, rfl⟩ rfl rfl rfl) rfl
  | abort id => exact hnone (h.abort id) (congrArg (·.opened) (devAbortIO_asm l.ns id))
  | flush => exact hnone h.flush rfl

theorem Ledger.steps_accounts {l : Ledger} (h : Accounts l.ns l.fates) (calls : List Call) :
    Accounts (l.steps mode calls).ns (l.steps mode calls).fates := by
  induction calls generalizing l with
  | nil => exact h
  | cons c calls ih => exact ih (l.step_accounts h c)

theorem accounts_started (queue : List IoStdReq) (asm : UvcAssembly) : Accounts (.started queue asm) [] :=
  ⟨rfl, rfl, rfl, rfl, rfl, nofun, nofun, .nil⟩

def Ledger.start (queue : List IoStdReq) (asm : UvcAssembly) : Ledger := ⟨.started queue asm, []⟩

theorem Ledger.steps_ns (l : Ledger) (calls : List Call) :
    (l.steps mode calls).ns = calls.foldl (Call.run mode) l.ns := by
  induction calls generalizing l with
  | nil => rfl
  | cons c calls ih => exact ih (l.step mode c)

theorem forall₂_split {α β : Type} {R : α → β → Prop} {xs ys : List α} {zs : List β}
    (h : List.Forall₂ R (xs ++ ys) zs) : ∃ as bs, zs = as ++ bs ∧ List.Forall₂ R xs as ∧ List.Forall₂ R ys bs :=
  ⟨_, _, (take_append_drop xs.length zs).symm, (forall₂_take_append _ _ _ h.flip).flip,
    (forall₂_drop_append _ _ _ h.flip).flip⟩

theorem length_fates (fates : List Fate) :
    fates.length = fates.count .delivered + fates.count .skipped + fates.count .overflowed +
      fates.countP Fate.isDamaged := by
  induction fates with
  | nil => rfl
  | cons f fates ih =>
    simp only [length_cons, count_cons, countP_cons]
    cases f <;> simp [Fate.isDamaged] <;> omega

theorem Accounts.numbers (h : Accounts ns fates) {xs ms ys : List Reply} {r r' : Reply} {v v' : IoVideoReq}
    (hdone : ns.done = xs ++ r :: (ms ++ r' :: ys)) (hv : r.video = some v) (hv' : r'.video = some v') :
    ∃ a f mid f' b, fates = a ++ f :: (mid ++ f' :: b) ∧ f.handed ∧ f'.handed ∧
      a.countP Fate.handed = xs.length ∧ mid.countP Fate.handed = ms.length ∧
      v'.sequence = ulong (v.sequence + 1 + mid.length) ∧ (fates.length < 2 ^ 32 → v.sequence < v'.sequence) := by
  have hnumbered := h.numbered
  rw [hdone] at hnumbered
  obtain ⟨ks, _, hplaces, hks, htail⟩ := forall₂_split hnumbered
  obtain ⟨k, _, hk, hmore, rfl⟩ := forall₂_cons_left_iff.1 htail
  obtain ⟨a, f, rest, hfates, hf, hkplace, ha, hrest⟩ := places_split hplaces
  obtain ⟨ks', _, hplaces', hks', htail'⟩ := forall₂_split hmore
  obtain ⟨k', _, hk', -, rfl⟩ := forall₂_cons_left_iff.1 htail'
  obtain ⟨mid, f', b, hrest', hf', hkplace', hmid, -⟩ := places_split (hrest.trans hplaces')
  have hfirst : v.sequence = ulong k := hk v hv
  have hsecond : v'.sequence = ulong k' := hk' v' hv'
  refine ⟨a, f, mid, f', b, by rw [hfates, hrest'], hf, hf', ?_, ?_, ?_, fun hfew => ?_⟩
  · rw [← length_places 0, ha, hks.length_eq]
  · rw [← length_places k, hmid, hks'.length_eq]
  · rw [hsecond, hfirst, hkplace']
    simp only [ulong]
    omega
  · have hin : k' ≤ fates.length := by
      rw [hfates, hrest', hkplace', hkplace]
      simp only [length_append, length_cons]
      omega
    rw [hfirst, hsecond]
    simp only [ulong]
    omega

/-- With the counters taken modulo `2 ^ 32`: of any two reads that end without an error the second has the
number of the first, one more, and one more for each frame counted between them. -/
theorem frames_accounted (mode : Mode) (queue : List IoStdReq) (asm : UvcAssembly) (calls : List Call) :
    ((Ledger.start queue asm).steps mode calls).ns = calls.foldl (Call.run mode) (.started queue asm) ∧
      (let ns := calls.foldl (Call.run mode) (.started queue asm)
      let fates := ((Ledger.start queue asm).steps mode calls).fates
      ns.stats.frames = ulong (ns.stats.delivered + ns.stats.skipped + ns.stats.overflowed + ns.stats.damaged +
          if ns.asm.opened then 1 else 0) ∧
        (∀ r ∈ ns.replies, r.actual ≤ r.data.length) ∧
        ∀ xs r ms r' ys v v', ns.done = xs ++ r :: (ms ++ r' :: ys) → r.video = some v → r'.video = some v' →
          ∃ a f mid f' b, fates = a ++ f :: (mid ++ f' :: b) ∧ f.handed ∧ f'.handed ∧
            a.countP Fate.handed = xs.length ∧ mid.countP Fate.handed = ms.length ∧
            v'.sequence = ulong (v.sequence + 1 + mid.length) ∧
            (fates.length < 2 ^ 32 → v.sequence < v'.sequence)) := by
  have hns : ((Ledger.start queue asm).steps mode calls).ns = calls.foldl (Call.run mode) (.started queue asm) :=
    Ledger.steps_ns ..
  have h : Accounts ((Ledger.start queue asm).steps mode calls).ns ((Ledger.start queue asm).steps mode calls).fates :=
    Ledger.steps_accounts (accounts_started queue asm) calls
  rw [hns] at h
  refine ⟨hns, ?_, h.actual, fun xs r ms r' ys v v' hdone hv hv' => h.numbers hdone hv hv'⟩
  rw [h.frames, h.delivered, h.skipped, h.overflowed, h.damaged, length_fates]
  simp only [ulong]
  omega

def picture : List Call := [.payloadBegin [2, 0x02] false 0, .payloadData [7], .payloadEnd]

/-- A read gets a frame before so many that find none waiting, and one gets the frame after them. -/
def farApart (n : ℕ) : List Call :=
  .read buffer :: picture ++ (List.replicate n picture).flatten ++ .read buffer :: picture

structure Unread (ns : NepVideoStream) (stats : UsbVideoStats) (replies : List Reply) : Prop where
  reads : ns.reads = ⟨[], none, false⟩
  opened : ns.asm.opened = false
  stats : ns.stats = stats
  replies : ns.replies = replies

theorem picture_begins (reads : UvcReads) (asm : UvcAssembly) (stats : UsbVideoStats) (replies : List Reply)
    (h : reads.abortCur = false) (hopen : asm.opened = false) :
    ∃ asm' : UvcAssembly, Call.run frameBased ⟨reads, asm, stats, replies⟩ (.payloadBegin [2, 0x02] false 0) =
      ⟨reads, asm', stats, replies⟩ ∧ asm'.opened = false ∧ asm'.payInfo = 2 := by
  obtain ⟨queue, cur, abortCur⟩ := reads
  cases asm
  cases h
  cases hopen
  exact ⟨_, rfl, rfl, rfl⟩

theorem picture_ends (h : ns.asm.payInfo = 2) : uvcPayloadEnd frameBased ns = uvcCloseFrame frameBased ns := by
  have hfine : ¬((2 : UInt8) &&& UVPHF_ERR != 0) = true := by decide
  have hlast : ((2 : UInt8) &&& UVPHF_EOF != 0) = true := by decide
  simp only [uvcPayloadEnd, h, if_neg hfine, if_pos hlast]

variable {replies : List Reply} {stats : UsbVideoStats}

theorem picture_unread (h : Unread ns stats replies) :
    Unread (picture.foldl (Call.run frameBased) ns)
      { stats with frames := ulong (stats.frames + 1), skipped := ulong (stats.skipped + 1) } replies := by
  obtain ⟨reads, asm, _, _⟩ := ns
  obtain ⟨hreads, hopen, hstats, hreplies⟩ := h
  subst hreads hstats hreplies
  obtain ⟨asm₁, hbegin, hopen₁, hinfo⟩ := picture_begins ⟨[], none, false⟩ asm _ _ rfl hopen
  rw [picture, foldl_cons, hbegin]
  cases asm₁
  cases hopen₁
  cases hinfo
  rw [foldl_cons, foldl_cons, foldl_nil, Call.run, Call.run, picture_ends rfl]
  exact ⟨rfl, rfl, rfl, rfl⟩

theorem picture_read (h : Unread ns stats replies) :
    ∃ r v, Unread ((.read buffer :: picture).foldl (Call.run frameBased) ns)
      { stats with frames := ulong (stats.frames + 1), delivered := ulong (stats.delivered + 1) } (replies ++ [r]) ∧
      r.error = .none ∧ r.video = some v ∧ v.sequence = ulong (stats.frames + 1) := by
  obtain ⟨reads, asm, _, _⟩ := ns
  obtain ⟨hreads, hopen, hstats, hreplies⟩ := h
  subst hreads hstats hreplies
  obtain ⟨asm₁, hbegin, hopen₁, hinfo⟩ := picture_begins ⟨[buffer], none, false⟩ asm _ _ rfl hopen
  rw [foldl_cons, picture, foldl_cons,
    show Call.run frameBased ⟨⟨[], none, false⟩, asm, _, _⟩ (.read buffer) =
      ⟨⟨[buffer], none, false⟩, asm, _, _⟩ from rfl, hbegin]
  cases asm₁
  cases hopen₁
  cases hinfo
  rw [foldl_cons, foldl_cons, foldl_nil, Call.run, Call.run, picture_ends rfl]
  exact ⟨_, _, ⟨rfl, rfl, rfl, rfl⟩, rfl, rfl, rfl⟩

theorem pictures_unread {frames skipped : ℕ} (n : ℕ)
    (h : Unread ns { stats with frames := ulong frames, skipped := ulong skipped } replies) :
    Unread ((replicate n picture).flatten.foldl (Call.run frameBased) ns)
      { stats with frames := ulong (frames + n), skipped := ulong (skipped + n) } replies := by
  induction n generalizing ns frames skipped with
  | zero => exact h
  | succ n ih =>
    have hone := picture_unread h
    rw [ulong_succ, ulong_succ] at hone
    rw [replicate_succ, flatten_cons, foldl_append, Nat.add_comm n, ← Nat.add_assoc, ← Nat.add_assoc]
    exact ih hone

theorem farApart_ends (n : ℕ) :
    ∃ r r' v v', Unread ((farApart n).foldl (Call.run frameBased) (.started [] .init))
        ⟨ulong (n + 2), 2, ulong n, 0, 0, 0, 0, 0⟩ [r, r'] ∧ r.error = .none ∧ r'.error = .none ∧
      r.video = some v ∧ r'.video = some v' ∧ v.sequence = 1 ∧ v'.sequence = ulong (n + 2) := by
  obtain ⟨r, v, h₁, herror, hvideo, hsequence⟩ := @picture_read (.started [] .init) _ _ ⟨rfl, rfl, rfl, rfl⟩
  obtain ⟨r', v', h₃, herror', hvideo', hsequence'⟩ := picture_read
    (@pictures_unread _ [r] ⟨1, 1, 0, 0, 0, 0, 0, 0⟩ 1 0 n h₁)
  rw [ulong_succ, Nat.add_comm 1, Nat.zero_add] at h₃
  refine ⟨r, r', v, v', ?_, herror, herror', hvideo, hvideo', hsequence, hsequence'.trans ?_⟩
  · rw [farApart, foldl_append, foldl_append]
    exact h₃
  · rw [ulong_succ, Nat.add_comm 1]

/-- The second read has the number of the first, and the frames are fewer than the delivered ones. -/
theorem numbers_begin_again :
    let ns := (farApart (2 ^ 32 - 1)).foldl (Call.run frameBased) (.started [] .init)
    (∃ r r' v v', ns.done = [r, r'] ∧ r.video = some v ∧ r'.video = some v' ∧ v'.sequence = v.sequence) ∧
      ns.asm.opened = false ∧ ns.stats.frames < ns.stats.delivered := by
  obtain ⟨r, r', v, v', h, herror, herror', hvideo, hvideo', hsequence, hsequence'⟩ := farApart_ends (2 ^ 32 - 1)
  refine ⟨⟨r, r', v, v', ?_, hvideo, hvideo', hsequence'.trans hsequence.symm⟩, h.opened, ?_⟩
  · rw [NepVideoStream.done, h.replies]
    simp [herror, herror']
  · rw [h.stats]
    decide

end Neptune.Uvc
