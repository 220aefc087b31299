import Neptune.Spec.EthRequests

/-! The queues of an ethernet unit: what an event, an abort or a received packet takes off them is replied. Requests are
counted by their id. -/

namespace Neptune

open List Option

namespace EthRequests

open NepClassEth

variable {ncp t u : NepClassEth} {ioreq : IOSana2Req} {l : List IOSana2Req} {r : ℕ}

def num (l : List IOSana2Req) (r : ℕ) : ℕ := (l.map IOSana2Req.id).count r

@[simp]
theorem num_nil : num [] r = 0 := rfl

def one (ioreq : IOSana2Req) (r : ℕ) : ℕ := if ioreq.id = r then 1 else 0

@[simp]
theorem num_cons : num (ioreq :: l) r = num l r + one ioreq r := by
  simp [num, one, count_cons]

@[simp]
theorem num_append (l l' : List IOSana2Req) : num (l ++ l') r = num l r + num l' r := by
  simp [num, count_append]

theorem num_filter (p : IOSana2Req → Prop) [DecidablePred p] (l : List IOSana2Req) :
    num (l.filter fun ioreq => ¬p ioreq) r + num (l.filter fun ioreq => p ioreq) r = num l r := by
  induction l with
  | nil => rfl
  | cons ioreq l ih =>
    rw [num_cons, ← ih]
    by_cases hp : p ioreq
    · simp [hp]
      omega
    · simp [hp]
      omega

theorem num_held : num ncp.held r = num ncp.msgPort r + num ncp.writeQueue r + num ncp.writePending.toList r +
    num ncp.orphanQueue r + num ncp.eventList r + num (ncp.bufManList.flatMap BufMan.rxQueue) r +
    num ncp.task.ioreq.toList r + num (ncp.callers.map Prod.fst) r := by
  rw [held, queued]
  simp only [num_append]

theorem queued_eq_nil : ncp.queued = [] ↔ ncp.msgPort = [] ∧ ncp.writeQueue = [] ∧ ncp.writePending = none ∧
    ncp.orphanQueue = [] ∧ ncp.eventList = [] ∧ ∀ bufman ∈ ncp.bufManList, bufman.rxQueue = [] := by
  simp only [queued, append_eq_nil_iff, flatMap_eq_nil_iff, toList_eq_nil_iff, and_assoc]

theorem reply_eq : ncp.reply ioreq = { ncp with replied := fun r => ncp.replied r + one ioreq r } := by
  unfold reply
  congr 1
  funext r
  by_cases hr : r = ioreq.id
  · subst hr
    simp [one]
  · simp [one, hr, Ne.symm hr]

theorem replyAll_eq (l : List IOSana2Req) (ncp : NepClassEth) :
    ncp.replyAll l = { ncp with replied := fun r => ncp.replied r + num l r } := by
  induction l generalizing ncp with
  | nil => rfl
  | cons ioreq l ih =>
    have hstep := ih (ncp.reply ioreq)
    unfold replyAll at hstep ⊢
    rw [foldl_cons, hstep, reply_eq]
    congr 1
    funext r
    dsimp only
    rw [num_cons]
    omega

structure Counts (ncp t : NepClassEth) : Prop where
  issued : t.issued = ncp.issued
  task : t.task = ncp.task
  count : ∀ r, t.replied r + num t.held r = ncp.replied r + num ncp.held r

theorem Counts.trans (h1 : Counts ncp t) (h2 : Counts t u) : Counts ncp u :=
  ⟨h2.issued.trans h1.issued, h2.task.trans h1.task, fun r => (h2.count r).trans (h1.count r)⟩

structure Moves (ncp t : NepClassEth) : Prop extends Counts ncp t where
  pending : t.writePending = ncp.writePending
  empty : ncp.queued = [] → t.queued = []

theorem Moves.refl (ncp : NepClassEth) : Moves ncp ncp := ⟨⟨rfl, rfl, fun _ => rfl⟩, rfl, id⟩

theorem Moves.trans (h1 : Moves ncp t) (h2 : Moves t u) : Moves ncp u :=
  ⟨h1.toCounts.trans h2.toCounts, h2.pending.trans h1.pending, fun he => h2.empty (h1.empty he)⟩

theorem Moves.of_queues (hissued : t.issued = ncp.issued) (htask : t.task = ncp.task)
    (hreplied : t.replied = ncp.replied) (hpending : t.writePending = ncp.writePending)
    (hqueued : t.queued = ncp.queued) (hheld : t.held = ncp.held) : Moves ncp t :=
  ⟨⟨hissued, htask, fun r => by rw [hreplied, hheld]⟩, hpending, fun he => hqueued.trans he⟩

theorem nDoEvent_moves (ncp : NepClassEth) (events : ℕ) : Moves ncp (ncp.nDoEvent events) := by
  rw [nDoEvent, replyAll_eq]
  refine ⟨⟨rfl, rfl, fun r => ?_⟩, rfl, fun he => ?_⟩
  · have hsplit := num_filter (fun ioreq => ioreq.wireError &&& events = 0) ncp.eventList (r := r)
    simp only [num_held]
    omega
  · rw [queued_eq_nil] at he ⊢
    obtain ⟨hport, hwrite, hpending, horphan, hevents, hrx⟩ := he
    exact ⟨hport, hwrite, hpending, horphan, by simp [hevents], hrx⟩

theorem num_clearRx (b : ℕ) (l : List BufMan) :
    num ((l.map (clearRx b)).flatMap BufMan.rxQueue) r + num (l.flatMap (rxOf b)) r =
      num (l.flatMap BufMan.rxQueue) r := by
  induction l with
  | nil => rfl
  | cons bufman l ih =>
    simp only [map_cons, flatMap_cons, num_append]
    by_cases hb : bufman.num = b
    · simp only [clearRx, rxOf, hb, if_true, num_nil]
      omega
    · simp only [clearRx, rxOf, hb, if_false, num_nil]
      omega

theorem abortRw_moves (ncp : NepClassEth) (b : ℕ) : Moves ncp (ncp.abortRw b) := by
  unfold abortRw
  simp only [replyAll_eq]
  refine ⟨⟨rfl, rfl, fun r => ?_⟩, rfl, fun he => ?_⟩
  · have hrx := num_clearRx (r := r) b ncp.bufManList
    have horphan := num_filter (r := r) (fun ioreq => ioreq.bufMan = some b) ncp.orphanQueue
    have hwrite := num_filter (r := r) (fun ioreq => ioreq.bufMan = some b) ncp.writeQueue
    simp only [num_held]
    omega
  · rw [queued_eq_nil] at he ⊢
    obtain ⟨hport, hwrite, hpending, horphan, hevents, hrx⟩ := he
    refine ⟨hport, by simp [hwrite], hpending, by simp [horphan], hevents, fun bufman hmem => ?_⟩
    obtain ⟨bufman', hmem', rfl⟩ := List.mem_map.mp hmem
    unfold clearRx
    split
    · rfl
    · exact hrx bufman' hmem'

theorem cmdFlush_moves (ncp : NepClassEth) (ioreq : IOSana2Req) : Moves ncp (ncp.cmdFlush ioreq) := by
  unfold cmdFlush
  split
  · exact .refl ncp
  · rename_i b _
    refine (abortRw_moves ncp b).trans ?_
    dsimp only
    rw [replyAll_eq]
    refine ⟨⟨rfl, rfl, fun r => ?_⟩, rfl, fun he => ?_⟩
    · have hevents := num_filter (r := r) (fun ioreq => ioreq.bufMan = some b) (ncp.abortRw b).eventList
      simp only [num_held]
      omega
    · rw [queued_eq_nil] at he ⊢
      obtain ⟨hport, hwrite, hpending, horphan, hevents, hrx⟩ := he
      exact ⟨hport, hwrite, hpending, horphan, by simp [hevents], hrx⟩

theorem abortReq_spec {l' : List IOSana2Req} (h : abortReq ioreq.id l = some l') :
    l ≠ [] ∧ ∀ r, num l' r + one ioreq r = num l r := by
  constructor
  · intro hl
    rw [hl] at h
    exact nomatch h
  intro r
  induction l generalizing l' with
  | nil => exact nomatch h
  | cons node l ih =>
    rw [abortReq] at h
    split at h
    · rename_i hid
      cases h
      rw [num_cons, one, one, hid]
    · obtain ⟨rest, hrest, rfl⟩ := map_eq_some_iff.mp h
      rw [num_cons, num_cons, ← ih hrest]
      omega

theorem abortRead_spec {list list' : List BufMan} (h : abortRead ioreq.id list = some list') :
    (∃ bufman ∈ list, bufman.rxQueue ≠ []) ∧
      ∀ r, num (list'.flatMap BufMan.rxQueue) r + one ioreq r = num (list.flatMap BufMan.rxQueue) r := by
  induction list generalizing list' with
  | nil => exact nomatch h
  | cons worknode rest ih =>
    rw [abortRead] at h
    split at h
    · rename_i rxQueue hreq
      cases h
      obtain ⟨hne, hcount⟩ := abortReq_spec hreq
      refine ⟨⟨worknode, mem_cons_self, hne⟩, fun r => ?_⟩
      simp only [flatMap_cons, num_append]
      have hr := hcount r
      omega
    · obtain ⟨list, hlist, rfl⟩ := map_eq_some_iff.mp h
      obtain ⟨⟨bufman, hmem, hne⟩, hcount⟩ := ih hlist
      refine ⟨⟨bufman, mem_cons_of_mem _ hmem, hne⟩, fun r => ?_⟩
      simp only [flatMap_cons, num_append]
      have hr := hcount r
      omega

theorem Moves.aborted (hne : ncp.queued ≠ []) (hissued : t.issued = ncp.issued) (htask : t.task = ncp.task)
    (hreplied : t.replied = ncp.replied) (hpending : t.writePending = ncp.writePending)
    (hcount : ∀ r, num t.held r + one ioreq r = num ncp.held r) : Moves ncp (t.reply ioreq) := by
  rw [reply_eq]
  refine ⟨⟨hissued, htask, fun r => ?_⟩, hpending, fun he => absurd he hne⟩
  have hr := hcount r
  change t.replied r + one ioreq r + num t.held r = _
  rw [hreplied]
  omega

theorem Moves.aborted_of (ioreq : IOSana2Req) (place : List IOSana2Req → NepClassEth) (hne : l ≠ [] → ncp.queued ≠ [])
    (hplace : ∀ l', (place l').issued = ncp.issued ∧ (place l').task = ncp.task ∧
      (place l').replied = ncp.replied ∧ (place l').writePending = ncp.writePending)
    (hheld : ∀ l' r, num (place l').held r + num l r = num ncp.held r + num l' r) :
    Moves ncp (match abortReq ioreq.id l with
      | some l' => (place l').reply ioreq
      | none => ncp) := by
  split
  · rename_i l' hl'
    obtain ⟨hl, hcount⟩ := abortReq_spec hl'
    obtain ⟨hissued, htask, hreplied, hpending⟩ := hplace l'
    refine .aborted (hne hl) hissued htask hreplied hpending fun r => ?_
    have hcountr := hcount r
    have hheldr := hheld l' r
    omega
  · exact .refl ncp

theorem abortRead_moves (ncp : NepClassEth) (ioreq : IOSana2Req) :
    Moves ncp (match abortRead ioreq.id ncp.bufManList with
      | some bufManList => { ncp with bufManList := bufManList }.reply ioreq
      | none => ncp) := by
  split
  · rename_i list hlist
    obtain ⟨⟨bufman, hmem, hne⟩, hcount⟩ := abortRead_spec hlist
    refine .aborted (fun he => hne ((queued_eq_nil.mp he).2.2.2.2.2 bufman hmem)) rfl rfl rfl rfl fun r => ?_
    simp only [num_held, ← hcount r]
    omega
  · exact .refl ncp

theorem devAbortIo_moves (ncp : NepClassEth) (ioreq : IOSana2Req) : Moves ncp (ncp.devAbortIo ioreq) := by
  have horphan := Moves.aborted_of ioreq (fun orphanQueue => { ncp with orphanQueue := orphanQueue })
    (fun hl he => hl (queued_eq_nil.mp he).2.2.2.1) (fun _ => ⟨rfl, rfl, rfl, rfl⟩)
    (fun l' r => by simp only [num_held]; omega)
  have hwrite := Moves.aborted_of ioreq (fun writeQueue => { ncp with writeQueue := writeQueue })
    (fun hl he => hl (queued_eq_nil.mp he).2.1) (fun _ => ⟨rfl, rfl, rfl, rfl⟩)
    (fun l' r => by simp only [num_held]; omega)
  have hport := Moves.aborted_of ioreq (fun msgPort => { ncp with msgPort := msgPort })
    (fun hl he => hl (queued_eq_nil.mp he).1) (fun _ => ⟨rfl, rfl, rfl, rfl⟩)
    (fun l' r => by simp only [num_held]; omega)
  have hevent := Moves.aborted_of ioreq (fun eventList => { ncp with eventList := eventList })
    (fun hl he => hl (queued_eq_nil.mp he).2.2.2.2.1) (fun _ => ⟨rfl, rfl, rfl, rfl⟩)
    (fun l' r => by simp only [num_held]; omega)
  unfold devAbortIo
  split
  · exact .refl ncp
  · split
    · exact abortRead_moves ncp ioreq
    · exact horphan
    all_goals first | exact hwrite | exact hport | exact hevent | exact .refl ncp

def Offered (ncp t : NepClassEth) (l l' : List IOSana2Req) : Prop :=
  ∃ eventList replied, t = { ncp with eventList := eventList, replied := replied } ∧
    ∀ r, replied r + num eventList r + num l' r = ncp.replied r + num ncp.eventList r + num l r

theorem Offered.refl (ncp : NepClassEth) (l : List IOSana2Req) : Offered ncp ncp l l := ⟨_, _, rfl, fun _ => rfl⟩

theorem Offered.trans {l1 l1' l2 l2' : List IOSana2Req} (h1 : Offered ncp t l1 l1') (h2 : Offered t u l2 l2') :
    Offered ncp u (l1 ++ l2) (l1' ++ l2') := by
  obtain ⟨events1, replied1, rfl, hcount1⟩ := h1
  obtain ⟨events2, replied2, rfl, hcount2⟩ := h2
  refine ⟨events2, replied2, rfl, fun r => ?_⟩
  have h1r := hcount1 r
  have h2r := hcount2 r
  dsimp only at h2r
  simp only [num_append]
  omega

theorem Offered.frame {l' : List IOSana2Req} (h : Offered ncp t l l') (rest : List IOSana2Req) :
    Offered ncp t (l ++ rest) (l' ++ rest) := h.trans (.refl t rest)

theorem one_build (packet : Packet) : one (packet.build ioreq) r = one ioreq r := rfl

theorem nReadIoReq_offered (ncp : NepClassEth) (packet : Packet) (ioreq : IOSana2Req) (packetFilter dropped : Bool) :
    Offered ncp (ncp.nReadIoReq packet ioreq packetFilter dropped).1 [ioreq]
      (ncp.nReadIoReq packet ioreq packetFilter dropped).2.2.toList := by
  unfold nReadIoReq
  dsimp only
  split
  · refine ⟨_, _, rfl, fun r => ?_⟩
    simp only [num_cons, num_nil, toList_some, one_build]
  · split
    · refine ⟨_, _, reply_eq, fun r => ?_⟩
      simp only [num_cons, num_nil, toList_none, one_build]
      omega
    · rw [nDoEvent, replyAll_eq, reply_eq]
      refine ⟨_, _, rfl, fun r => ?_⟩
      have hsplit := num_filter (r := r) (fun ioreq =>
        ioreq.wireError &&& (s2eventError ||| s2eventRx ||| s2eventBuff) = 0) ncp.eventList
      simp only [num_cons, num_nil, toList_none, one_build]
      omega

section

variable (packet : Packet)

theorem offerQueue_offered (l : List IOSana2Req) (ncp : NepClassEth) (dropped : Bool) :
    Offered ncp (offerQueue packet ncp dropped l).1 l (offerQueue packet ncp dropped l).2.2 := by
  induction l with
  | nil => exact .refl ncp []
  | cons worknode rest ih =>
    rw [offerQueue]
    split
    · exact (nReadIoReq_offered ncp packet worknode true dropped).frame rest
    · exact (Offered.refl ncp [worknode]).trans ih

theorem offerAll_offered (list : List BufMan) (ncp : NepClassEth) (dropped : Bool) :
    Offered ncp (offerAll packet ncp dropped list).1 (list.flatMap BufMan.rxQueue)
      ((offerAll packet ncp dropped list).2.2.flatMap BufMan.rxQueue) := by
  induction list generalizing ncp dropped with
  | nil => exact .refl ncp []
  | cons bufman rest ih =>
    rw [offerAll]
    exact (offerQueue_offered packet bufman.rxQueue ncp dropped).trans (ih _ _)

theorem readOrphan_offered (ncp : NepClassEth) (worknode : IOSana2Req) :
    Offered ncp (readOrphan packet ncp worknode) [worknode] [] := by
  have hoffer := nReadIoReq_offered ncp packet worknode false false
  have hnone : (ncp.nReadIoReq packet worknode false false).2.2 = none := by
    rw [nReadIoReq, Bool.false_and, if_neg Bool.false_ne_true]
    split <;> rfl
  rw [hnone] at hoffer
  exact hoffer

theorem orphans_offered (l : List IOSana2Req) (ncp : NepClassEth) :
    Offered ncp (l.foldl (readOrphan packet) ncp) l [] := by
  induction l generalizing ncp with
  | nil => exact .refl ncp []
  | cons worknode l ih => exact (readOrphan_offered packet ncp worknode).trans (ih _)

theorem orphanQueue_counts (ncp : NepClassEth) :
    Counts ncp (ncp.orphanQueue.foldl (readOrphan packet) { ncp with orphanQueue := [] }) := by
  obtain ⟨events, replied, horphans, hcount⟩ :=
    orphans_offered packet ncp.orphanQueue { ncp with orphanQueue := [] }
  rw [horphans]
  refine ⟨rfl, rfl, fun r => ?_⟩
  have hr := hcount r
  rw [num_nil] at hr
  simp only [num_held, num_nil] at hr ⊢
  omega

end

theorem nReadPacket_counts (ncp : NepClassEth) (packet : Packet) : Counts ncp (ncp.nReadPacket packet) := by
  unfold nReadPacket
  split
  · exact (Moves.refl ncp).toCounts
  · split
    · obtain ⟨events, replied, hoffer, hcount⟩ := offerAll_offered packet ncp.bufManList ncp true
      have hoffered : Counts ncp { (offerAll packet ncp true ncp.bufManList).1 with
          bufManList := (offerAll packet ncp true ncp.bufManList).2.2 } := by
        rw [hoffer]
        refine ⟨rfl, rfl, fun r => ?_⟩
        have hr := hcount r
        simp only [num_held]
        omega
      dsimp only
      split
      · exact (hoffered.trans (orphanQueue_counts packet _)).trans (nDoEvent_moves _ _).toCounts
      · exact hoffered
    · exact (nDoEvent_moves ncp _).toCounts

structure Left (ncp : NepClassEth) (done : Ret × NepClassEth) : Prop where
  ret : done.1 ≠ .dontReply
  moves : Moves ncp done.2

def Put (ncp : NepClassEth) (ioreq : IOSana2Req) (done : Ret × NepClassEth) : Prop :=
  ∃ t, Moves ncp t ∧ done = (.dontReply, t.putMsg ioreq)

theorem cmdRead_ne : ncp.cmdRead ioreq ≠ .dontReply := by
  unfold cmdRead
  split
  · exact nofun
  · split
    · exact nofun
    · split
      · exact nofun
      · split <;> exact nofun

theorem cmdReadOrphan_ne : ncp.cmdReadOrphan ioreq ≠ .dontReply := by
  unfold cmdReadOrphan
  split
  · exact nofun
  · split
    · exact nofun
    · split
      · exact nofun
      · split <;> exact nofun

theorem cmdOnEvent_ne : ncp.cmdOnEvent ioreq ≠ .dontReply := by
  unfold cmdOnEvent
  split
  · exact nofun
  · split
    · split <;> exact nofun
    · split <;> exact nofun

theorem cmdWrite_left : Left ncp (ncp.cmdWrite ioreq) := by
  unfold cmdWrite
  split
  · exact ⟨nofun, .refl ncp⟩
  · split
    · exact ⟨nofun, .refl ncp⟩
    · split
      · exact ⟨nofun, .refl ncp⟩
      · split
        · exact ⟨nofun, .refl ncp⟩
        · by_cases hlen : ioreq.dataLength > if ioreq.raw then rawPktSize else etherPktSize
          · rw [if_pos hlen]
            exact ⟨nofun, nDoEvent_moves ncp _⟩
          · rw [if_neg hlen]
            exact ⟨nofun, .refl ncp⟩

theorem addMCastRange_left (lower upper : EthOnline.EtherAddr) (mem : Bool) :
    Left ncp (ncp.addMCastRange lower upper mem) := by
  unfold addMCastRange
  split
  · exact ⟨nofun, .refl ncp⟩
  · split
    · split
      · exact ⟨nofun, .refl ncp⟩
      · exact ⟨nofun, .of_queues rfl rfl rfl rfl rfl rfl⟩
    · exact ⟨nofun, .of_queues rfl rfl rfl rfl rfl rfl⟩

theorem delMCastRange_left (lower upper : EthOnline.EtherAddr) : Left ncp (ncp.delMCastRange lower upper) := by
  unfold delMCastRange
  split
  · exact ⟨nofun, .refl ncp⟩
  · split
    · exact ⟨nofun, .of_queues rfl rfl rfl rfl rfl rfl⟩
    · exact ⟨nofun, .of_queues rfl rfl rfl rfl rfl rfl⟩

theorem cmdMulticast_left : Left ncp (ncp.cmdMulticast ioreq) := by
  unfold cmdMulticast
  split
  · exact cmdWrite_left
  · exact ⟨nofun, nDoEvent_moves ncp _⟩

def Did (ncp : NepClassEth) (ioreq : IOSana2Req) (done : Ret × NepClassEth) : Prop :=
  ncp.puts ioreq = false ∧ Left ncp done ∨ ncp.puts ioreq = true ∧ Put ncp ioreq done

theorem cmdConfigInterface_did (hcmd : ioreq.command = .configInterface) :
    Did ncp ioreq (ncp.cmdConfigInterface ioreq) := by
  unfold cmdConfigInterface
  split
  · rename_i hconf
    exact .inl ⟨by simp [puts, hcmd, hconf], nofun, .refl ncp⟩
  · rename_i hconf
    split
    · rename_i haddr
      exact .inl ⟨by simp [puts, hcmd, haddr], nofun, .refl ncp⟩
    · rename_i haddr
      rw [ne_eq, not_not] at haddr
      exact .inr ⟨by simp [puts, hcmd, hconf, haddr], ncp, .refl ncp, rfl⟩

theorem cmdOnline_did (hcmd : ioreq.command = .online) : Did ncp ioreq (ncp.cmdOnline ioreq) := by
  unfold cmdOnline
  split
  · rename_i hoff
    split
    · rename_i hconf
      rw [Bool.not_eq_true'] at hconf
      exact .inl ⟨by simp [puts, hcmd, hconf], nofun, .refl ncp⟩
    · rename_i hconf
      rw [Bool.not_eq_true', Bool.not_eq_false] at hconf
      exact .inr ⟨by simp [puts, hcmd, hoff, hconf], ncp, .refl ncp, rfl⟩
  · rename_i hon
    exact .inl ⟨by simp [puts, hcmd, hon], nofun, .refl ncp⟩

theorem cmdOffline_did (hcmd : ioreq.command = .offline) : Did ncp ioreq (ncp.cmdOffline ioreq) := by
  unfold cmdOffline
  split
  · rename_i hon
    have hoff : Moves ncp { ncp with online := false } := .of_queues rfl rfl rfl rfl rfl rfl
    refine .inr ⟨by simp [puts, hcmd, hon], ?_⟩
    split
    · exact ⟨_, hoff.trans (nDoEvent_moves _ _), rfl⟩
    · exact ⟨_, (hoff.trans (abortRw_moves _ _)).trans (nDoEvent_moves _ _), rfl⟩
  · rename_i hoff
    exact .inl ⟨by simp [puts, hcmd, hoff], nofun, .refl ncp⟩

theorem command_did (ncp : NepClassEth) (ioreq : IOSana2Req) (mem : Bool) : Did ncp ioreq (ncp.command ioreq mem) := by
  unfold command
  cases hcmd : ioreq.command with
  | read => exact .inl ⟨by simp [puts, hcmd], cmdRead_ne, .refl ncp⟩
  | write | broadcast => exact .inl ⟨by simp [puts, hcmd], cmdWrite_left⟩
  | multicast => exact .inl ⟨by simp [puts, hcmd], cmdMulticast_left⟩
  | flush => exact .inl ⟨by simp [puts, hcmd], nofun, cmdFlush_moves ncp ioreq⟩
  | configInterface => exact cmdConfigInterface_did hcmd
  | addMulticastAddress | addMulticastAddresses => exact .inl ⟨by simp [puts, hcmd], addMCastRange_left _ _ mem⟩
  | delMulticastAddress | delMulticastAddresses => exact .inl ⟨by simp [puts, hcmd], delMCastRange_left _ _⟩
  | onEvent => exact .inl ⟨by simp [puts, hcmd], cmdOnEvent_ne, .refl ncp⟩
  | readOrphan => exact .inl ⟨by simp [puts, hcmd], cmdReadOrphan_ne, .refl ncp⟩
  | online => exact cmdOnline_did hcmd
  | offline => exact cmdOffline_did hcmd
  | query => exact .inl ⟨by simp [puts, hcmd], nofun, .refl ncp⟩

structure Begun (ncp t : NepClassEth) (ioreq : IOSana2Req) : Prop where
  task : t.task = ncp.task
  pending : t.writePending = ncp.writePending
  issued : ∀ r, t.issued r = ncp.issued r + one ioreq r
  count : ∀ r, t.replied r + num t.held r = ncp.replied r + num ncp.held r + one ioreq r
  empty : ncp.queued = [] → (t.queued = [] ↔ ncp.puts ioreq = false)

theorem devBeginIo_begun (ncp : NepClassEth) (ioreq : IOSana2Req) (mem : Bool) :
    Begun ncp (ncp.devBeginIo ioreq mem) ioreq := by
  have hissued : ∀ r, Function.update ncp.issued ioreq.id (ncp.issued ioreq.id + 1) r = ncp.issued r + one ioreq r := by
    intro r
    by_cases hr : r = ioreq.id
    · subst hr
      simp [one]
    · simp [one, hr, Ne.symm hr]
  have hdid := command_did { ncp with issued := Function.update ncp.issued ioreq.id (ncp.issued ioreq.id + 1) } ioreq mem
  unfold devBeginIo
  generalize NepClassEth.command { ncp with
    issued := Function.update ncp.issued ioreq.id (ncp.issued ioreq.id + 1) } ioreq mem = done at hdid ⊢
  rcases hdid with ⟨hputs, hret, hmoves⟩ | ⟨hputs, t, hmoves, rfl⟩
  · obtain ⟨ret, t⟩ := done
    have hterm : Begun ncp (t.reply ioreq) ioreq := by
      rw [reply_eq]
      refine ⟨hmoves.task, hmoves.pending, fun r => (congrFun hmoves.issued r).trans (hissued r), fun r => ?_, fun he => ?_⟩
      · have hr := hmoves.count r
        simp only [num_held] at hr ⊢
        omega
      · exact ⟨fun _ => hputs, fun _ => hmoves.empty he⟩
    cases ret with
    | ok => exact hterm
    | error ioError wireError => exact hterm
    | dontReply => exact absurd rfl hret
    | queue q =>
      refine ⟨hmoves.task, hmoves.pending, fun r => (congrFun hmoves.issued r).trans (hissued r), fun r => ?_, fun he => ?_⟩
      · have hr := hmoves.count r
        simp only [num_held, map_append, map_cons, map_nil, num_append, num_cons, num_nil] at hr ⊢
        omega
      · exact ⟨fun _ => hputs, fun _ => hmoves.empty he⟩
  · have hputs : ncp.puts ioreq = true := hputs
    refine ⟨hmoves.task, hmoves.pending, fun r => (congrFun hmoves.issued r).trans (hissued r), fun r => ?_, fun he => ?_⟩
    · have hr := hmoves.count r
      simp only [num_held, putMsg, num_append, num_cons, num_nil] at hr ⊢
      omega
    · rw [hputs, queued_eq_nil]
      simp [putMsg]

end EthRequests

end Neptune
