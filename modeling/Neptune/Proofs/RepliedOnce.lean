import Neptune.Spec.UnitTask
import Neptune.Proofs.UasLedger

/-! Every request that is put on the port of a mass storage unit is in one of its places until it is
replied, once. After `nFreeMS` no request is left behind exactly where no client has come to its
`PutMsg` only then. -/

namespace Neptune.MSTask

open List

open Uas (Ncm UasTag Streams)

namespace NepClassMS

variable {s t : NepClassMS} {io : IoReq} {id : ℕ}

theorem pending_count (s : NepClassMS) (id : ℕ) : s.pending.count id =
    (s.port.map IoReq.id).count id + (s.queue.map IoReq.id).count id + s.current.count id +
      s.engine.owed id := by
  simp only [pending, count_append, Ncm.owed]

theorem replies_count (s : NepClassMS) (id : ℕ) :
    s.replies.count id = s.replied.count id + Uas.paid s.engine.wire id := by
  simp only [replies, count_append, Uas.paid]

structure Inv (s : NepClassMS) : Prop where
  engine : s.engine.Inv
  tidy : s.engine.Tidy
  account : ∀ id, s.pending.count id + s.replies.count id = s.sent.count id
  once : ∀ id, s.pending.count id + (s.checked.map IoReq.id).count id ≤ 1
  down : s.pc = .down → s.engine.tags = [] ∧ s.queue = []
  closed : s.pc = .down ∨ s.pc = .leaving → s.engine.denyRequests = true

structure Moves (s t : NepClassMS) : Prop where
  sent : t.sent = s.sent
  checked : t.checked = s.checked
  owed : ∀ id, t.pending.count id + t.replies.count id = s.pending.count id + s.replies.count id
  grows : ∀ id, s.replies.count id ≤ t.replies.count id

theorem Moves.of_places (hs : t.sent = s.sent) (hc : t.checked = s.checked)
    (hp : ∀ id, (t.port.map IoReq.id).count id + (t.queue.map IoReq.id).count id +
        t.current.count id + t.engine.owed id + (t.replied.count id + Uas.paid t.engine.wire id) =
      (s.port.map IoReq.id).count id + (s.queue.map IoReq.id).count id + s.current.count id +
        s.engine.owed id + (s.replied.count id + Uas.paid s.engine.wire id))
    (hg : ∀ id, s.replied.count id + Uas.paid s.engine.wire id ≤
      t.replied.count id + Uas.paid t.engine.wire id) : Moves s t where
  sent := hs
  checked := hc
  owed := by
    intro id
    rw [pending_count, pending_count, replies_count, replies_count]
    exact hp id
  grows := by
    intro id
    rw [replies_count, replies_count]
    exact hg id

theorem Inv.moves (h : s.Inv) (hm : Moves s t) (he : t.engine.Inv) (ht : t.engine.Tidy)
    (hd : t.pc = .down → t.engine.tags = [] ∧ t.queue = [])
    (hc : t.pc = .down ∨ t.pc = .leaving → t.engine.denyRequests = true) : t.Inv where
  engine := he
  tidy := ht
  account := by
    intro id
    rw [hm.sent, hm.owed]
    exact h.account id
  once := by
    intro id
    have howed := hm.owed id
    have hgrows := hm.grows id
    have honce := h.once id
    rw [hm.checked]
    omega
  down := hd
  closed := hc

theorem not_inUse (h : ¬ s.InUse id) :
    s.pending.count id = 0 ∧ (s.checked.map IoReq.id).count id = 0 := by
  unfold InUse at h
  push Not at h
  exact ⟨count_eq_zero.mpr h.1, count_eq_zero.mpr h.2⟩

theorem check_inv (h : s.Inv) (hu : ¬ s.InUse io.id) :
    Inv { s with checked := s.checked ++ [io] } where
  engine := h.engine
  tidy := h.tidy
  account := h.account
  once := by
    intro id
    have honce := h.once id
    obtain ⟨hp, hc⟩ := not_inUse hu
    simp only [map_append, map_cons, map_nil, count_append,
      count_singleton]
    by_cases he : io.id = id
    · subst he
      have hsame : (NepClassMS.pending { s with checked := s.checked ++ [io] }).count io.id =
          s.pending.count io.id := rfl
      simp only [hsame, beq_self_eq_true, if_true]
      omega
    · have hne : (io.id == id) = false := by simpa using he
      simp only [hne, Bool.false_eq_true, if_false, Nat.add_zero]
      exact honce
  down := h.down
  closed := h.closed

theorem putMsg_pending (id : ℕ) :
    (s.putMsg io).pending.count id = s.pending.count id + [io.id].count id := by
  rw [pending_count, pending_count]
  simp only [putMsg, map_append, map_cons, map_nil, count_append]
  have hc : (NepClassMS.current { s with port := s.port ++ [io], sent := s.sent ++ [io.id] }) =
      s.current := rfl
  rw [hc]
  omega

theorem putMsg_inv (h : s.Inv) {checked : List IoReq}
    (hc : ∀ id, [io.id].count id + (checked.map IoReq.id).count id ≤
      (s.checked.map IoReq.id).count id ∨
      s.pending.count id + [io.id].count id + (checked.map IoReq.id).count id ≤ 1) :
    Inv { s.putMsg io with checked := checked } where
  engine := h.engine
  tidy := h.tidy
  account := by
    intro id
    have hp := @putMsg_pending s io id
    have haccount := h.account id
    have hr : (NepClassMS.replies { s.putMsg io with checked := checked }).count id =
        s.replies.count id := rfl
    have hp' : (NepClassMS.pending { s.putMsg io with checked := checked }).count id =
        (s.putMsg io).pending.count id := rfl
    rw [hr, hp', hp]
    simp only [putMsg, count_append]
    omega
  once := by
    intro id
    have hp := @putMsg_pending s io id
    have hp' : (NepClassMS.pending { s.putMsg io with checked := checked }).count id =
        (s.putMsg io).pending.count id := rfl
    have honce := h.once id
    rw [hp', hp]
    simp only
    rcases hc id with hle | hle
    · omega
    · exact hle
  down := h.down
  closed := h.closed

theorem erase_count {l : List IoReq} (h : io ∈ l) (id : ℕ) :
    [io.id].count id + ((l.erase io).map IoReq.id).count id = (l.map IoReq.id).count id := by
  have hp := ((perm_cons_erase h).map IoReq.id).count_eq id
  rw [hp, map_cons, count_cons, count_cons, count_nil]
  omega

theorem devAbortIo_inv (h : s.Inv) (id : ℕ) : (s.devAbortIo id).Inv := by
  unfold devAbortIo
  split
  · rename_i io hf
    have hmem := List.mem_of_find?_eq_some hf
    obtain rfl : io.id = id := by simpa using List.find?_some hf
    refine h.moves (.of_places rfl rfl (fun id' => ?_) fun id' => ?_) h.engine h.tidy
      (fun hd => ?_) h.closed
    · have hcount := erase_count hmem id'
      simp only [current, count_append]
      omega
    · simp only [count_append]
      omega
    · rw [(h.down hd).2] at hmem
      cases hmem
  · have hl := Ncm.devAbortIo_ledger h.tidy [id]
    refine h.moves (.of_places rfl rfl (fun id' => ?_) fun id' => ?_)
      (Ncm.devAbortIo_inv h.engine _) hl.tidy (fun hd => ?_) fun hc => hl.deny (h.closed hc)
    · have howed := hl.owed id'
      simp only [current]
      omega
    · have hgrows := hl.grows id'
      simp only
      omega
    · refine ⟨?_, (h.down hd).2⟩
      simp only [Ncm.devAbortIo, (h.down hd).1, map_nil]

theorem owed_noTags {e : Ncm} (h : e.tags = []) (id : ℕ) : e.owed id = 0 := by
  unfold Ncm.owed
  rw [h]
  rfl

theorem bind_inv (h : s.Inv) (hd : s.pc = .down) {e : Ncm} (hi : e.Inv) (ht : e.Tidy)
    (hn : ∀ id, e.owed id = 0) (hw : e.wire = s.engine.wire) :
    Inv { s with engine := { e with denyRequests := false }, pc := .startup } := by
  refine h.moves (.of_places rfl rfl (fun id => ?_) fun id => ?_) ⟨hi.tags, hi.lent, hi.busy⟩ ht
    nofun nofun
  · have hnone := hn id
    have hwas := owed_noTags (h.down hd).1 id
    unfold Ncm.owed at hnone hwas ⊢
    simp only [current, hd, hw]
    omega
  · simp only [hw, le_refl]

theorem engine_inv (h : s.Inv) {e : Ncm.Event} {engine : Ncm} (ha : s.atEngine e = true)
    (hs : s.engine.step e = some engine) : Inv { s with engine := engine } := by
  have hl := Ncm.step_ledger h.engine h.tidy hs fun ioreq length isRead he => by
    rw [he] at ha
    cases ha
  refine h.moves (.of_places rfl rfl (fun id => ?_) fun id => ?_) (Ncm.step_inv h.engine hs) hl.tidy
    (fun hd => ?_) fun hc => hl.deny (h.closed hc)
  · have howed := hl.owed id
    simp only [current]
    omega
  · have hgrows := hl.grows id
    simp only
    omega
  · -- without a task nobody is at the engine
    have hpc : s.pc = .down := hd
    cases e <;> simp [atEngine, hpc] at ha

theorem dispatch_inv (h : s.Inv) (hf : s.pc = .fifo) (fits : Bool) : (s.dispatch fits).Inv := by
  have hwait : Inv { s with pc := .wait } := by
    refine h.moves (.of_places rfl rfl (fun id => ?_) fun id => le_rfl) h.engine h.tidy nofun nofun
    simp only [current, hf]
  unfold dispatch
  split
  · exact hwait
  rename_i io queue hq
  split
  · split
    · exact hwait
    · rename_i ut hut
      obtain ⟨howed, hgrows, htidy⟩ :=
        Ncm.submit_ledger h.engine h.tidy hut io.id io.length io.cmd.isRead
      have hi := Ncm.onFreeTag_inv h.engine hut (f := Uas.nUasSubmitTag s.engine.maxTrans io.id
        io.length io.cmd.isRead) fun ut w hi hf => Uas.submitTag_inv hi hf
      refine h.moves (.of_places rfl rfl (fun id => ?_) fun id => ?_) hi htidy (fun hd => ?_)
        fun hc => ?_
      · have := howed id
        simp only [current, hf, hq, map_cons, count_cons, count_nil] at this ⊢
        omega
      · have := hgrows id
        simp only at this ⊢
        omega
      · rw [hf] at hd
        cases hd
      · rw [hf] at hc
        rcases hc with hc | hc <;> cases hc
  · refine h.moves (.of_places rfl rfl (fun id => ?_) fun id => le_rfl) h.engine h.tidy ?_ ?_
    · cases hb : io.cmd.barrier with
      | true =>
        simp only [current, hf, hq, map_cons, count_cons, count_nil, if_true]
        omega
      | false =>
        simp only [current, hf, hq, map_cons, count_cons, count_nil,
          Bool.false_eq_true, if_false]
        omega
    · simp only
      split <;> exact nofun
    · simp only
      split <;> exact nofun

theorem drained_inv (h : s.Inv) (hb : s.pc = .barrier io) : (s.drained io).Inv := by
  have hhandler : Inv { s with pc := .handler io } := by
    refine h.moves (.of_places rfl rfl (fun id => ?_) fun id => le_rfl) h.engine h.tidy nofun nofun
    simp only [current, hb]
  have hflush : Inv { s with
      queue := [], replied := s.replied ++ s.queue.map IoReq.id ++ [io.id], pc := .fifo } := by
    refine h.moves (.of_places rfl rfl (fun id => ?_) fun id => ?_) h.engine h.tidy nofun nofun
    · simp only [current, hb, count_append, map_nil, count_nil]
      omega
    · simp only [count_append]
      omega
  unfold drained
  split
  · exact hflush
  · exact hflush
  · exact hhandler

theorem reply_inv (h : s.Inv) (hh : s.pc = .handler io) :
    Inv { s with replied := s.replied ++ [io.id], pc := .fifo } := by
  refine h.moves (.of_places rfl rfl (fun id => ?_) fun id => ?_) h.engine h.tidy nofun nofun
  · simp only [current, hh, count_append, count_nil]
    omega
  · simp only [count_append]
    omega

theorem nFreeMS_inv (h : s.Inv) (hl : s.pc = .leaving) (hidle : s.engine.nUasTagsIdle = true) :
    s.nFreeMS.Inv := by
  have hnone : ∀ ut ∈ s.engine.tags, ut.ioreq = none := by
    intro ut hut
    apply h.tidy ut hut
    have hfree : ut.state = .free := by
      simpa using List.all_eq_true.mp hidle ut hut
    rw [hfree]
    exact nofun
  refine h.moves (.of_places rfl rfl (fun id => ?_) fun id => ?_) ?_ ?_ (fun _ => ⟨rfl, rfl⟩)
    fun _ => h.closed (.inr hl)
  · have hwas := Ncm.owed_zero hnone id
    have his : (nUasDisableTags s.engine).owed id = 0 := rfl
    unfold nUasDisableTags at his
    simp only [nFreeMS, current, hl, count_append, map_nil, count_nil, hwas, his,
      nUasDisableTags]
    omega
  · simp only [nFreeMS, count_append, nUasDisableTags]
    omega
  · exact .of_unarmed Uas.noTags_inv rfl
  · exact fun ut hut => absurd hut not_mem_nil

theorem step_inv {e : Event} (h : s.Inv) (hs : s.step e = some t) : t.Inv := by
  cases e with
  | bind st =>
    simp only [step] at hs
    split at hs
    · rename_i hd
      split at hs
      · cases hs
        exact bind_inv h hd h.engine h.tidy (owed_noTags (h.down hd).1) rfl
      · split at hs
        · cases hs
          refine bind_inv h hd (Ncm.nUasInitTags_drained _ _).inv ?_ ?_ (Ncm.nUasInitTags_wire _ _)
          · exact fun ut hut _ => Ncm.nUasInitTags_ioreq _ _ ut hut
          · exact Ncm.owed_zero (Ncm.nUasInitTags_ioreq _ _)
        · cases hs
    · cases hs
  | devBeginIo io =>
    simp only [step] at hs
    split at hs
    · cases hs
    rename_i hu
    split at hs
    · cases hs
      exact h
    · cases hs
      exact check_inv h hu
  | putMsg io =>
    simp only [step] at hs
    split at hs
    · rename_i hmem
      cases hs
      refine putMsg_inv h fun id => .inl ?_
      rw [erase_count hmem]
    · cases hs
  | devAbortIo id =>
    cases hs
    exact devAbortIo_inv h id
  | nIOCmdTunnel io =>
    simp only [step] at hs
    split at hs
    · cases hs
    rename_i hu
    split at hs
    · cases hs
      exact h
    · cases hs
      refine putMsg_inv h fun id => .inr ?_
      have honce := h.once id
      obtain ⟨hp, hc⟩ := not_inUse hu
      rw [count_cons, count_nil]
      by_cases he : io.id = id
      · subst he
        simp only [beq_self_eq_true, if_true]
        omega
      · have hne : (io.id == id) = false := by simpa using he
        simp only [hne, Bool.false_eq_true, if_false]
        omega
  | engine e =>
    simp only [step] at hs
    split at hs
    · obtain ⟨engine, he, rfl⟩ := Option.map_eq_some_iff.mp hs
      exact engine_inv h (by assumption) he
    · cases hs
  | loop =>
    simp only [step] at hs
    split at hs
    · rename_i hl
      cases hs
      refine h.moves (.of_places rfl rfl (fun id => ?_) fun _ => le_rfl) h.engine h.tidy nofun nofun
      simp only [current, hl]
    · cases hs
  | collect =>
    simp only [step] at hs
    split at hs
    · rename_i hp
      cases hs
      refine h.moves (.of_places rfl rfl (fun id => ?_) fun _ => le_rfl) h.engine h.tidy nofun nofun
      simp only [current, hp, map_append, count_append, map_nil, count_nil]
      omega
    · cases hs
  | dispatch fits =>
    simp only [step] at hs
    split at hs
    · cases hs
      exact dispatch_inv h (by assumption) fits
    · cases hs
  | drained =>
    simp only [step] at hs
    split at hs
    · rename_i io hb
      split at hs
      · cases hs
        exact drained_inv h hb
      · cases hs
    · cases hs
  | reply =>
    simp only [step] at hs
    split at hs
    · rename_i io hh
      cases hs
      exact reply_inv h hh
    · cases hs
  | wake ctrlC =>
    simp only [step] at hs
    split at hs
    · rename_i hw
      split at hs
      · cases hs
        refine h.moves (.of_places rfl rfl (fun id => ?_) fun _ => le_rfl)
          ⟨h.engine.tags, h.engine.lent, h.engine.busy⟩ h.tidy nofun fun _ => rfl
        simp only [current, hw, Ncm.owed]
      · cases hs
        refine h.moves (.of_places rfl rfl (fun id => ?_) fun _ => le_rfl) h.engine h.tidy nofun
          nofun
        simp only [current, hw]
    · cases hs
  | nFreeMS =>
    simp only [step] at hs
    split at hs
    · rename_i hl
      cases hs
      exact nFreeMS_inv h hl.1 hl.2
    · cases hs

theorem newUnit_inv (engine : Ncm) : (newUnit engine).Inv where
  engine := .of_unarmed Uas.noTags_inv rfl
  tidy := fun _ hut => absurd hut not_mem_nil
  account := fun _ => rfl
  once := fun _ => Nat.zero_le 1
  down := fun _ => ⟨rfl, rfl⟩
  closed := fun _ => rfl

def Answered (s : NepClassMS) : Prop :=
  ∀ id, s.pending.count id + s.replies.count id = s.sent.count id ∧ s.pending.count id ≤ 1

def LeavesNone (s : NepClassMS) : Prop := s.pc = .down → s.pending = []

instance (s : NepClassMS) : Decidable s.LeavesNone := inferInstanceAs (Decidable (_ → _))

theorem Inv.answered (h : s.Inv) : s.Answered := by
  intro id
  have honce := h.once id
  exact ⟨h.account id, by omega⟩

theorem Inv.leavesNone_iff (h : s.Inv) : s.LeavesNone ↔ (s.pc = .down → s.port = []) := by
  refine forall_congr' fun hd => ?_
  obtain ⟨htags, hqueue⟩ := h.down hd
  simp [pending, current, hd, htags, hqueue]

def PutsUp (s : NepClassMS) (e : Event) : Prop := ∀ io, e = .putMsg io → s.pc ≠ .down

theorem devAbortIo_port (s : NepClassMS) (id : ℕ) :
    (s.devAbortIo id).pc = s.pc ∧ (s.devAbortIo id).port = s.port := by
  unfold devAbortIo
  split <;> exact ⟨rfl, rfl⟩

theorem dispatch_up (hf : s.pc = .fifo) (fits : Bool) : (s.dispatch fits).pc ≠ .down := by
  unfold dispatch
  split
  · exact nofun
  split
  · split
    · exact nofun
    · simp only [hf]
      exact nofun
  · split <;> exact nofun

theorem drained_up (io : IoReq) : (s.drained io).pc ≠ .down := by
  unfold drained
  split <;> exact nofun

section

variable {e : Event} (h : s.Inv) (hp : s.pc = .down → s.port = []) (hs : s.step e = some t)
include h hp hs

theorem step_port (he : ∀ io, e ≠ .putMsg io) : t.pc = .down → t.port = [] := by
  intro hd
  cases e with
  | putMsg io => exact absurd rfl (he io)
  | devBeginIo io =>
    simp only [step] at hs
    split at hs
    · cases hs
    · split at hs
      · cases hs
        exact hp hd
      · cases hs
        exact hp hd
  | devAbortIo id =>
    cases hs
    obtain ⟨hpc, hport⟩ := devAbortIo_port s id
    rw [hport]
    exact hp (hpc.symm.trans hd)
  | nIOCmdTunnel io =>
    simp only [step] at hs
    split at hs
    · cases hs
    · split at hs
      · cases hs
        exact hp hd
      · -- its test is under `Forbid` with the `PutMsg`
        rename_i hdeny
        cases hs
        exact absurd (h.closed (.inl hd)) hdeny
  | engine e =>
    simp only [step] at hs
    split at hs
    · obtain ⟨engine, -, rfl⟩ := Option.map_eq_some_iff.mp hs
      exact hp hd
    · cases hs
  | dispatch fits =>
    simp only [step] at hs
    split at hs
    · cases hs
      exact absurd hd (dispatch_up (by assumption) fits)
    · cases hs
  | drained =>
    simp only [step] at hs
    split at hs
    · split at hs
      · cases hs
        exact absurd hd (drained_up _)
      · cases hs
    · cases hs
  | nFreeMS =>
    simp only [step] at hs
    split at hs
    · cases hs
      rfl
    · cases hs
  | bind st =>
    simp only [step] at hs
    split at hs
    · split at hs
      · cases hs
        cases hd
      · split at hs
        · cases hs
          cases hd
        · cases hs
    · cases hs
  | loop | collect =>
    simp only [step] at hs
    split at hs
    · cases hs
      cases hd
    · cases hs
  | reply =>
    simp only [step] at hs
    split at hs
    · cases hs
      cases hd
    · cases hs
  | wake ctrlC =>
    simp only [step] at hs
    split at hs
    · split at hs
      · cases hs
        cases hd
      · cases hs
        cases hd
    · cases hs

theorem step_putsUp : (t.pc = .down → t.port = []) ↔ s.PutsUp e := by
  by_cases he : ∃ io, e = .putMsg io
  · obtain ⟨io, rfl⟩ := he
    simp only [step] at hs
    split at hs
    · cases hs
      constructor
      · intro hport io' _ hd
        have hnil : s.port ++ [io] = [] := hport hd
        simp at hnil
      · intro hup hd
        exact absurd hd (hup io rfl)
    · cases hs
  · push Not at he
    exact iff_of_true (step_port h hp hs he) fun io hio => absurd hio (he io)

end

end NepClassMS

open NepClassMS in
/-- In a run of the unit what is sent is replied once and nothing is left behind, exactly if no
client comes to its `PutMsg` after `nFreeMS`. -/
theorem requests_replied_once (engine : Ncm) (evs : List Event) :
    Runs.Always step (fun _ _ t => t.Answered ∧ t.LeavesNone) (newUnit engine) evs ↔
      Runs.Always step (fun s e _ => s.PutsUp e) (newUnit engine) evs := by
  have hiff : ∀ s e t, (s.Inv ∧ s.LeavesNone) → step s e = some t →
      ((t.Inv ∧ t.LeavesNone) ↔ s.PutsUp e) := by
    rintro s e t ⟨h, hp⟩ hs
    have ht := step_inv h hs
    rw [ht.leavesNone_iff, ← step_putsUp h (h.leavesNone_iff.mp hp) hs]
    exact and_iff_right ht
  rw [← Runs.Always.invariant_iff hiff ⟨newUnit_inv engine, fun _ => rfl⟩ evs]
  refine Runs.Always.congr_invariant (fun _ _ _ => step_inv) (fun s e t h hs => ?_)
    (newUnit_inv engine) evs
  have ht := step_inv h hs
  rw [and_iff_right ht.answered, and_iff_right ht]

def read : IoReq := ⟨1, .cmdRead, 512⟩

/-- The unplug comes between the test of `ncm_DenyRequests` and the `PutMsg`. -/
theorem request_left_behind : ∃ s, Runs.Run NepClassMS.step Runs.anyStep (newUnit Uas.unit)
    [.bind none, .loop, .collect, .dispatch true, .devBeginIo read, .wake true, .nFreeMS,
      .putMsg read] s ∧ ¬ s.LeavesNone :=
  ⟨_, .get (by decide), by decide⟩

end Neptune.MSTask
