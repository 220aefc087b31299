import Neptune.Proofs.EthQueues

/-! Every call of `devBeginIO` is replied once or held in one place, and nothing stays queued behind a unit that has
shut down, exactly as long as no packet fails to be written, no opener goes while it has a read, and a unit shuts down
with nothing but its port to clear. -/

namespace Neptune.EthRequests

open List Option

open Runs NepClassEth

variable {ncp t : NepClassEth} {ioreq : IOSana2Req} {l : List IOSana2Req} {r b : ℕ}

theorem Answered.of_count (ha : Answered ncp) (hissued : t.issued = ncp.issued)
    (hcount : ∀ r, t.replied r + num t.held r = ncp.replied r + num ncp.held r)
    (he : t.task = .gone → t.queued = []) : Answered t :=
  ⟨fun r => by rw [hissued]; exact (hcount r).trans (ha.once r), he⟩

theorem Counts.answered (hc : Counts ncp t) (ha : Answered ncp) (he : t.task = .gone → t.queued = []) : Answered t :=
  ha.of_count hc.issued hc.count he

theorem Moves.answered (hm : Moves ncp t) (ha : Answered ncp) : Answered t :=
  hm.toCounts.answered ha fun hgone => hm.empty (ha.empty (hm.task.symm.trans hgone))

theorem num_eq_zero (h : ∀ r, num l r = 0) : l = [] := by
  cases l with
  | nil => rfl
  | cons ioreq l =>
    have hr := h ioreq.id
    rw [num_cons, one, if_pos rfl] at hr
    omega

theorem num_closed (b : ℕ) (l : List BufMan) :
    num ((l.filter fun bufman => ¬bufman.num = b).flatMap BufMan.rxQueue) r + num (l.flatMap (rxOf b)) r =
      num (l.flatMap BufMan.rxQueue) r := by
  induction l with
  | nil => rfl
  | cons bufman l ih =>
    by_cases hb : bufman.num = b
    · rw [filter_cons_of_neg (by simpa using hb)]
      simp only [flatMap_cons, num_append, rxOf, hb, if_true]
      omega
    · rw [filter_cons_of_pos (by simpa using hb)]
      simp only [flatMap_cons, num_append, rxOf, hb, if_false, num_nil]
      omega

theorem rxOf_eq_nil (l : List BufMan) :
    l.flatMap (rxOf b) = [] ↔ ∀ bufman ∈ l, bufman.num = b → bufman.rxQueue = [] := by
  rw [flatMap_eq_nil_iff]
  refine forall₂_congr fun bufman _ => ?_
  unfold rxOf
  split
  · rename_i hb
    exact ⟨fun he _ => he, fun he => he hb⟩
  · rename_i hb
    exact ⟨fun _ hb' => absurd hb' hb, fun _ => rfl⟩

theorem devClose_answered (ha : Answered ncp) (b : ℕ) :
    Answered { ncp with bufManList := ncp.bufManList.filter fun bufman => ¬bufman.num = b } ↔
      ∀ bufman ∈ ncp.bufManList, bufman.num = b → bufman.rxQueue = [] := by
  rw [← rxOf_eq_nil]
  have hcount : ∀ r, num (NepClassEth.held { ncp with
      bufManList := ncp.bufManList.filter fun bufman => ¬bufman.num = b }) r +
        num (ncp.bufManList.flatMap (rxOf b)) r = num ncp.held r := by
    intro r
    simp only [num_held, ← num_closed (r := r) b ncp.bufManList]
    omega
  constructor
  · refine fun ht => num_eq_zero fun r => ?_
    have hold : ncp.replied r + num ncp.held r = ncp.issued r := ha.once r
    have hnew : ncp.replied r + num (NepClassEth.held { ncp with
      bufManList := ncp.bufManList.filter fun bufman => ¬bufman.num = b }) r = ncp.issued r := ht.once r
    have hr := hcount r
    omega
  · intro hnil
    refine ⟨fun r => ?_, fun hgone => ?_⟩
    · have hr := hcount r
      rw [hnil, num_nil] at hr
      exact (congrArg (ncp.replied r + ·) hr).trans (ha.once r)
    · have he := ha.empty hgone
      rw [queued_eq_nil] at he ⊢
      obtain ⟨hport, hwrite, hpending, horphan, hevents, hrx⟩ := he
      exact ⟨hport, hwrite, hpending, horphan, hevents, fun bufman hmem => hrx bufman (mem_of_mem_filter hmem)⟩

theorem beginIo_answered (ha : Answered ncp) (hb : Begun ncp t ioreq) :
    Answered t ↔ (ncp.task = .gone → ncp.puts ioreq = false) := by
  constructor
  · exact fun ht hgone => (hb.empty (ha.empty hgone)).mp (ht.empty (hb.task.trans hgone))
  · intro hputs
    refine ⟨fun r => ?_, fun hgone => ?_⟩
    · have hold : ncp.replied r + num ncp.held r = ncp.issued r := ha.once r
      have hr := hb.count r
      rw [hb.issued r]
      change t.replied r + num t.held r = _
      omega
    · have hgone := hb.task.symm.trans hgone
      exact (hb.empty (ha.empty hgone)).mpr (hputs hgone)

theorem num_addRx (b : ℕ) (ioreq : IOSana2Req) (list : List BufMan) (h : ∃ bufman ∈ list, bufman.num = b) :
    num ((addRx b ioreq list).flatMap BufMan.rxQueue) r = num (list.flatMap BufMan.rxQueue) r + one ioreq r := by
  induction list with
  | nil =>
    obtain ⟨bufman, hmem, -⟩ := h
    exact nomatch hmem
  | cons bufman rest ih =>
    rw [addRx]
    split
    · simp only [flatMap_cons, num_append, num_cons, num_nil]
      omega
    · rename_i hb
      have hrest : ∃ bufman ∈ rest, bufman.num = b := by
        obtain ⟨bufman', hmem, hb'⟩ := h
        rcases mem_cons.mp hmem with rfl | hmem
        · exact absurd hb' hb
        · exact ⟨bufman', hmem, hb'⟩
      simp only [flatMap_cons, num_append, ih hrest]
      omega

theorem addRx_freed (b : ℕ) (ioreq : IOSana2Req) (list : List BufMan) (h : ¬∃ bufman ∈ list, bufman.num = b) :
    addRx b ioreq list = list := by
  induction list with
  | nil => rfl
  | cons bufman rest ih =>
    rw [addRx, if_neg fun hb => h ⟨bufman, mem_cons_self, hb⟩,
      ih fun ⟨bufman', hmem, hb⟩ => h ⟨bufman', mem_cons_of_mem _ hmem, hb⟩]

theorem num_perm {l' : List IOSana2Req} (h : l.Perm l') : num l r = num l' r := (h.map _).count_eq r

theorem num_callers {q : Queue} (hmem : (ioreq, q) ∈ ncp.callers) :
    num ((ncp.callers.erase (ioreq, q)).map Prod.fst) r + one ioreq r = num (ncp.callers.map Prod.fst) r := by
  rw [num_perm ((perm_cons_erase hmem).map Prod.fst), map_cons, num_cons]

theorem addTail_held (ncp : NepClassEth) (ioreq : IOSana2Req) {q : Queue} (hq : ∀ b, q = .rx b → ∃ bufman ∈ ncp.bufManList, bufman.num = b) :
    num (ncp.addTail ioreq q).held r = num ncp.held r + one ioreq r ∧ (ncp.addTail ioreq q).queued ≠ [] := by
  have hne : ∀ u : NepClassEth, num u.queued ioreq.id = num ncp.queued ioreq.id + one ioreq ioreq.id → u.queued ≠ [] := by
    intro u hu he
    rw [he, num_nil, one, if_pos rfl] at hu
    omega
  cases q with
  | rx b =>
    refine ⟨?_, hne _ ?_⟩
    · simp only [addTail, num_held, num_addRx b ioreq ncp.bufManList (hq b rfl)]
      omega
    · simp only [addTail, queued, num_append, num_addRx b ioreq ncp.bufManList (hq b rfl)]
      omega
  | write | orphan | events =>
    refine ⟨?_, hne _ ?_⟩
    · simp only [addTail, num_held, num_append, num_cons, num_nil]
      omega
    · simp only [addTail, queued, num_append, num_cons, num_nil]
      omega
  | port =>
    refine ⟨?_, hne _ ?_⟩
    · simp only [addTail, putMsg, num_held, num_append, num_cons, num_nil]
      omega
    · simp only [addTail, putMsg, queued, num_append, num_cons, num_nil]
      omega

theorem addTail_frame (ncp : NepClassEth) (ioreq : IOSana2Req) (q : Queue) :
    (ncp.addTail ioreq q).replied = ncp.replied ∧ (ncp.addTail ioreq q).issued = ncp.issued ∧
      (ncp.addTail ioreq q).task = ncp.task ∧ (ncp.addTail ioreq q).writePending = ncp.writePending := by
  cases q <;> exact ⟨rfl, rfl, rfl, rfl⟩

theorem addTail_answered {q : Queue} (ha : Answered ncp) (hmem : (ioreq, q) ∈ ncp.callers) :
    Answered ({ ncp with callers := ncp.callers.erase (ioreq, q) }.addTail ioreq q) ↔
      ncp.task ≠ .gone ∧ ∀ b, q = .rx b → ∃ bufman ∈ ncp.bufManList, bufman.num = b := by
  set called := { ncp with callers := ncp.callers.erase (ioreq, q) } with hcalled
  obtain ⟨hreplied, hissued, htask, -⟩ := addTail_frame called ioreq q
  have hcount : ∀ r, num called.held r + one ioreq r = num ncp.held r := by
    intro r
    have hr := num_callers (r := r) hmem
    simp only [hcalled, num_held] at hr ⊢
    omega
  constructor
  · intro ht
    have hopen : ∀ b, q = .rx b → ∃ bufman ∈ ncp.bufManList, bufman.num = b := by
      rintro b rfl
      by_contra hfreed
      have hlost : called.addTail ioreq (.rx b) = called := by
        rw [addTail, addRx_freed b ioreq called.bufManList hfreed]
      have hnew : called.replied ioreq.id + num called.held ioreq.id = called.issued ioreq.id := by
        rw [hlost] at ht
        exact ht.once ioreq.id
      have hold : ncp.replied ioreq.id + num ncp.held ioreq.id = ncp.issued ioreq.id := ha.once ioreq.id
      have hr := hcount ioreq.id
      rw [one, if_pos rfl] at hr
      have hsame : called.replied = ncp.replied ∧ called.issued = ncp.issued := ⟨rfl, rfl⟩
      rw [hsame.1, hsame.2] at hnew
      omega
    exact ⟨fun hgone => (addTail_held (r := 0) called ioreq hopen).2 (ht.empty (htask.trans hgone)), hopen⟩
  · rintro ⟨hgone, hopen⟩
    refine ⟨fun r => ?_, fun hgone' => absurd (htask.symm.trans hgone') hgone⟩
    have hold : ncp.replied r + num ncp.held r = ncp.issued r := ha.once r
    have hr := hcount r
    have hheld := (addTail_held (r := r) called ioreq hopen).1
    change (called.addTail ioreq q).replied r + num (called.addTail ioreq q).held r = (called.addTail ioreq q).issued r
    rw [hreplied, hissued]
    change ncp.replied r + _ = ncp.issued r
    omega

theorem nWritePacket_answered {prepared copied : Bool} (ha : Answered ncp) (htask : ncp.task = .writing ioreq)
    (hnone : ncp.writePending = none) :
    Answered ({ ncp with task := .waiting }.nWritePacket ioreq prepared copied).2 ↔
      prepared = true ∧ copied = true := by
  have hlost : ¬Answered (NepClassEth.nDoEvent { ncp with task := .waiting }
      (s2eventError ||| s2eventTx ||| s2eventBuff)) := by
    intro ht
    have hevent := nDoEvent_moves { ncp with task := .waiting } (s2eventError ||| s2eventTx ||| s2eventBuff)
    have hnew := (hevent.count ioreq.id).symm.trans (ht.once ioreq.id)
    rw [hevent.issued] at hnew
    have hold : ncp.replied ioreq.id + num ncp.held ioreq.id = ncp.issued ioreq.id := ha.once ioreq.id
    simp only [num_held, htask, Task.ioreq, toList_some, toList_none, num_cons, num_nil] at hnew hold
    rw [one, if_pos rfl] at hold
    omega
  cases prepared with
  | false => exact ⟨fun ht => absurd ht hlost, fun hboth => absurd hboth.1 Bool.false_ne_true⟩
  | true =>
    cases copied with
    | false => exact ⟨fun ht => absurd ht hlost, fun hboth => absurd hboth.2 Bool.false_ne_true⟩
    | true =>
      refine ⟨fun _ => ⟨rfl, rfl⟩, fun _ => ⟨fun r => ?_, by rintro ⟨⟩⟩⟩
      have hold : ncp.replied r + num ncp.held r = ncp.issued r := ha.once r
      change ncp.replied r + num (NepClassEth.held { ncp with task := .waiting, writePending := some ioreq }) r =
        ncp.issued r
      simp only [num_held, htask, hnone, Task.ioreq, toList_some, toList_none, num_cons, num_nil] at hold ⊢
      omega

theorem cdcethCompleteWrite_counts (ncp : NepClassEth) (ioerr : Bool) : Counts ncp (ncp.cdcethCompleteWrite ioerr) := by
  unfold cdcethCompleteWrite
  split
  · exact (Moves.refl ncp).toCounts
  · rename_i ioreq hpending
    have hreply : ∀ u : NepClassEth, u.writePending = some ioreq → Counts u { u.reply ioreq with writePending := none } := by
      intro u hu
      rw [reply_eq]
      refine ⟨rfl, rfl, fun r => ?_⟩
      simp only [num_held, hu, toList_some, toList_none, num_cons, num_nil]
      omega
    dsimp only
    split
    · refine (nDoEvent_moves ncp _).toCounts.trans (hreply _ ?_)
      rw [nDoEvent, replyAll_eq]
      exact hpending
    · exact hreply ncp hpending

theorem handle_moves (ncp : NepClassEth) (ioreq : IOSana2Req) : Moves ncp (ncp.handle ioreq) := by
  unfold handle
  split
  · have hconf : Moves ncp { ncp with configured := true } := .of_queues rfl rfl rfl rfl rfl rfl
    have hon : Moves { ncp with configured := true } { ncp with configured := true, online := true } :=
      .of_queues rfl rfl rfl rfl rfl rfl
    dsimp only
    split
    · exact (hconf.trans hon).trans (nDoEvent_moves _ _)
    · exact hconf
  · have hon : Moves ncp { ncp with online := true } := .of_queues rfl rfl rfl rfl rfl rfl
    exact hon.trans (nDoEvent_moves _ _)
  · exact .of_queues rfl rfl rfl rfl rfl rfl
  · exact .refl ncp

def Task.inLoop : Task → Bool
  | .waiting | .handling _ => true
  | _ => false

def Sending (ncp : NepClassEth) : Prop := ncp.writePending ≠ none → ncp.task.inLoop = true

theorem Sending.of_same (hI : Sending ncp) (htask : t.task = ncp.task) (hpending : t.writePending = ncp.writePending) :
    Sending t := by
  rw [Sending, htask, hpending]
  exact hI

theorem Sending.of_task (htask : t.task.inLoop = true) : Sending t := fun _ => htask

theorem Sending.none (hI : Sending ncp) (htask : ncp.task.inLoop = false) : ncp.writePending = none := by
  by_contra hpending
  rw [hI hpending] at htask
  exact nomatch htask

theorem stop_pending (ncp : NepClassEth) : ncp.stop.writePending = none := by
  unfold NepClassEth.stop
  split
  · assumption
  · rfl

theorem step_sending {e : Event} (hI : Sending ncp) (hs : step ncp e = some t) : Sending t := by
  cases e with
  | devOpen num copyFromBuf copyToBuf =>
    obtain ⟨-, rfl⟩ := of_guard hs
    exact hI
  | devClose num =>
    cases hs
    exact hI
  | beginIo ioreq mem =>
    obtain ⟨-, rfl⟩ := of_guard hs
    have hbegun := devBeginIo_begun ncp ioreq mem
    exact hI.of_same hbegun.task hbegun.pending
  | addTail ioreq q =>
    obtain ⟨-, rfl⟩ := of_guard hs
    obtain ⟨-, -, htask, hpending⟩ := addTail_frame { ncp with callers := ncp.callers.erase (ioreq, q) } ioreq q
    exact hI.of_same htask hpending
  | abortIo ioreq =>
    cases hs
    exact hI.of_same (devAbortIo_moves ncp ioreq).task (devAbortIo_moves ncp ioreq).pending
  | takeWrite =>
    cases hq : ncp.writeQueue <;> simp only [step, hq, reduceCtorEq] at hs
    obtain ⟨⟨-, hnone⟩, rfl⟩ := of_guard hs
    exact fun hsome => absurd hnone hsome
  | nWritePacket prepared copied =>
    cases htask : ncp.task <;> simp only [step, htask, reduceCtorEq, some.injEq] at hs
    subst hs
    refine .of_task ?_
    have hevent := nDoEvent_moves { ncp with task := .waiting } (s2eventError ||| s2eventTx ||| s2eventBuff)
    cases prepared with
    | false => exact congrArg Task.inLoop hevent.task
    | true =>
      cases copied with
      | false => exact congrArg Task.inLoop hevent.task
      | true => rfl
  | writeBack ioerr =>
    obtain ⟨htask, rfl⟩ := of_guard hs
    exact .of_task (by rw [(cdcethCompleteWrite_counts ncp ioerr).task, htask]; rfl)
  | readBack packet =>
    obtain ⟨htask, rfl⟩ := of_guard hs
    exact .of_task (by rw [(nReadPacket_counts ncp packet).task, htask]; rfl)
  | getMsg =>
    cases hq : ncp.msgPort <;> simp only [step, hq, reduceCtorEq] at hs
    obtain ⟨-, rfl⟩ := of_guard hs
    exact .of_task rfl
  | handled =>
    cases htask : ncp.task <;> simp only [step, htask, reduceCtorEq, some.injEq] at hs
    subst hs
    exact .of_task (congrArg Task.inLoop (handle_moves { ncp with task := .waiting } _).task)
  | stop =>
    obtain ⟨-, rfl⟩ := of_guard hs
    exact fun hsome => absurd (stop_pending ncp) hsome
  | offlineEvent =>
    obtain ⟨htask, rfl⟩ := of_guard hs
    have hnone := hI.none (by rw [htask]; rfl)
    exact fun hsome => absurd ((nDoEvent_moves ncp s2eventOffline).pending.trans hnone) hsome
  | nFreeEth =>
    obtain ⟨htask, rfl⟩ := of_guard hs
    have hnone := hI.none (by rw [htask]; rfl)
    rw [NepClassEth.nFreeEth, replyAll_eq]
    exact fun hsome => absurd hnone hsome

theorem handled_answered (ha : Answered ncp) (htask : ncp.task = .handling ioreq) :
    Answered ((NepClassEth.handle { ncp with task := .waiting } ioreq).reply ioreq) := by
  have hm := handle_moves { ncp with task := .waiting } ioreq
  rw [reply_eq]
  refine ha.of_count hm.issued (fun r => ?_) fun hgone => nomatch hm.task.symm.trans hgone
  have hr := hm.count r
  simp only [num_held, htask, hm.task, Task.ioreq, num_cons, num_nil, toList_some, toList_none] at hr ⊢
  omega

theorem stop_answered (ha : Answered ncp) (htask : ncp.task = .waiting) : Answered ncp.stop := by
  unfold NepClassEth.stop
  split
  · refine ha.of_count rfl (fun r => ?_) nofun
    simp only [num_held, htask, Task.ioreq]
  · rename_i ioreq hpending
    rw [reply_eq]
    refine ha.of_count rfl (fun r => ?_) nofun
    simp only [num_held, htask, hpending, Task.ioreq, num_cons, num_nil, toList_some, toList_none]
    omega

theorem nFreeEth_answered (ha : Answered ncp) (htask : ncp.task = .offline) (hnone : ncp.writePending = none) :
    Answered ncp.nFreeEth ↔ ncp.writeQueue = [] ∧ ncp.orphanQueue = [] ∧ ncp.eventList = [] ∧
      ∀ bufman ∈ ncp.bufManList, bufman.rxQueue = [] := by
  rw [NepClassEth.nFreeEth, replyAll_eq]
  constructor
  · intro ht
    have he := ht.empty rfl
    rw [queued_eq_nil] at he
    exact ⟨he.2.1, he.2.2.2.1, he.2.2.2.2.1, he.2.2.2.2.2⟩
  · rintro ⟨hwrite, horphan, hevents, hrx⟩
    refine ha.of_count rfl (fun r => ?_) fun _ => ?_
    · simp only [num_held, htask, Task.ioreq, num_nil]
      omega
    · rw [queued_eq_nil]
      exact ⟨rfl, hwrite, hnone, horphan, hevents, hrx⟩

theorem step_answered {e : Event} (hI : Sending ncp) (ha : Answered ncp) (hs : step ncp e = some t) :
    Answered t ↔ Kept ncp e := by
  cases e with
  | devOpen num copyFromBuf copyToBuf =>
    obtain ⟨-, rfl⟩ := of_guard hs
    have hm : Moves ncp { ncp with bufManList := ⟨num, copyFromBuf, copyToBuf, []⟩ :: ncp.bufManList } :=
      .of_queues rfl rfl rfl rfl rfl rfl
    exact iff_of_true (hm.answered ha) trivial
  | devClose num =>
    cases hs
    exact devClose_answered ha num
  | beginIo ioreq mem =>
    obtain ⟨-, rfl⟩ := of_guard hs
    exact beginIo_answered ha (devBeginIo_begun ncp ioreq mem)
  | addTail ioreq q =>
    obtain ⟨hmem, rfl⟩ := of_guard hs
    exact addTail_answered ha hmem
  | abortIo ioreq =>
    cases hs
    exact iff_of_true ((devAbortIo_moves ncp ioreq).answered ha) trivial
  | takeWrite =>
    cases hq : ncp.writeQueue <;> simp only [step, hq, reduceCtorEq] at hs
    obtain ⟨⟨htask, -⟩, rfl⟩ := of_guard hs
    refine iff_of_true (ha.of_count rfl (fun r => ?_) nofun) trivial
    simp only [num_held, hq, htask, Task.ioreq, num_cons, num_nil, toList_some, toList_none]
    omega
  | nWritePacket prepared copied =>
    cases htask : ncp.task <;> simp only [step, htask, reduceCtorEq, some.injEq] at hs
    subst hs
    exact nWritePacket_answered ha htask (hI.none (by rw [htask]; rfl))
  | writeBack ioerr =>
    obtain ⟨htask, rfl⟩ := of_guard hs
    have hc := cdcethCompleteWrite_counts ncp ioerr
    exact iff_of_true (hc.answered ha fun hgone => nomatch htask.symm.trans (hc.task.symm.trans hgone)) trivial
  | readBack packet =>
    obtain ⟨htask, rfl⟩ := of_guard hs
    have hc := nReadPacket_counts ncp packet
    exact iff_of_true (hc.answered ha fun hgone => nomatch htask.symm.trans (hc.task.symm.trans hgone)) trivial
  | getMsg =>
    cases hq : ncp.msgPort <;> simp only [step, hq, reduceCtorEq] at hs
    obtain ⟨htask, rfl⟩ := of_guard hs
    refine iff_of_true (ha.of_count rfl (fun r => ?_) nofun) trivial
    simp only [num_held, hq, htask, Task.ioreq, num_cons, num_nil, toList_some, toList_none]
    omega
  | handled =>
    cases htask : ncp.task <;> simp only [step, htask, reduceCtorEq, some.injEq] at hs
    subst hs
    exact iff_of_true (handled_answered ha htask) trivial
  | stop =>
    obtain ⟨htask, rfl⟩ := of_guard hs
    exact iff_of_true (stop_answered ha htask) trivial
  | offlineEvent =>
    obtain ⟨htask, rfl⟩ := of_guard hs
    have hm := nDoEvent_moves ncp s2eventOffline
    refine iff_of_true (ha.of_count hm.issued (fun r => ?_) nofun) trivial
    have hr := hm.count r
    simp only [num_held, hm.task, htask] at hr ⊢
    exact hr
  | nFreeEth =>
    obtain ⟨htask, rfl⟩ := of_guard hs
    exact nFreeEth_answered ha htask (hI.none (by rw [htask]; rfl))

theorem start_answered (configured : Bool) : Answered (start configured) := ⟨fun _ => rfl, nofun⟩

/-- Every request is answered along a run exactly when all its steps keep them. -/
theorem requests_answered_iff (configured : Bool) (evs : List Event) :
    Always step (fun _ _ t => Answered t) (start configured) evs ↔
      Always step (fun ncp e _ => Kept ncp e) (start configured) evs := by
  have hstart : Sending (start configured) ∧ Answered (start configured) :=
    ⟨fun hsome => absurd rfl hsome, start_answered configured⟩
  rw [← Always.invariant_iff (I := fun ncp => Sending ncp ∧ Answered ncp) ?_ hstart]
  · exact Always.congr_invariant (I := Sending) (fun _ _ _ => step_sending)
      (fun _ _ _ hI hs => ⟨fun ha => ⟨step_sending hI hs, ha⟩, And.right⟩) hstart.1 evs
  · intro ncp e t hI hs
    rw [← step_answered hI.1 hI.2 hs]
    exact ⟨And.right, fun ha => ⟨step_sending hI.1 hs, ha⟩⟩

def lostWrite : List Event :=
  let ioreq : IOSana2Req := ⟨7, .write, false, 2048, 100, 0, Vector.replicate 6 0, Vector.replicate 6 0, some 1⟩
  let config : IOSana2Req := ⟨3, .configInterface, false, 0, 0, 0, Vector.replicate 6 0, Vector.replicate 6 0, some 1⟩
  [.devOpen 1 true true, .beginIo config true, .getMsg, .handled, .beginIo ioreq true, .addTail ioreq .write,
    .takeWrite, .nWritePacket true false]

theorem write_unanswered : ∃ evs t, Run step anyStep (start false) evs t ∧ t.issued 7 = 1 ∧ t.replied 7 = 0 ∧
    t.held = [] ∧ ¬Answered t := by
  refine ⟨lostWrite, _, Run.get (by decide), by decide, by decide, by decide, fun ha => ?_⟩
  exact absurd (ha.once 7) (by decide)

end Neptune.EthRequests
