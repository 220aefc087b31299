import Neptune.Spec.HubMethod

/-! A request to a hub task comes to one end, whoever quits first. -/

namespace Neptune.HubMethod

open List Option

open NepClassHub Runs

variable {s t : NepClassHub} {c c' m : ℕ} {k : Caller} {call : Call} {e : Event} {q : List ℕ} {how : End}

namespace NepClassHub

def queue (s : NepClassHub) : List ℕ := s.ctrlMsgPort.getD []

def hand (s : NepClassHub) : List ℕ :=
  match s.hub with
  | .handling m => [m]
  | _ => []

def ends (s : NepClassHub) : List ℕ := s.ended.map Prod.fst

end NepClassHub

/-- Each request lies in the port, is at hand, or has come to one end. -/
structure Once (t : NepClassHub) : Prop where
  placed : ∀ c, t.queue.count c + t.hand.count c + t.ends.count c = t.posted.count c ∧ t.posted.count c ≤ 1
  waiting : ∀ c, (t.callers c).call = .wait ∨ (t.callers c).call = .takeBack ∨ (t.callers c).call = .getMsg ∨
    (t.callers c).call = .waitReply →
      t.posted.count c = 1 ∧ (t.callers c).replyPort = some (List.replicate (t.ends.count c) c)
  returned : ∀ c, (t.callers c).call = .returned →
    c ∉ t.queue ∧ c ∉ t.hand ∧ t.ends.count c = t.posted.count c
  gone : t.hub = .gone → ∀ c, t.ends.count c = t.posted.count c

def Safe (t : NepClassHub) : Prop :=
  ∀ c, (t.callers c).call ≠ .lost ∧ ((t.callers c).call = .takeBack → t.task = true)

/-- The hub task is still there when a caller wakes to CTRL-C, and until it has looked for its
request. -/
def InTime (s : NepClassHub) : Event → Prop
  | .wake c => (s.callers c).ctrlC = true → s.task = true
  | .free => ∀ c, (s.callers c).call ≠ .takeBack
  | _ => True

def Call.waits : Call → Bool
  | .wait | .takeBack | .getMsg | .waitReply => true
  | _ => false

def Knows (s : NepClassHub) (c : ℕ) (k : Caller) : Prop :=
  match k.call with
  | .none | .enter => s.posted.count c = 0 ∧ ∀ p ∈ k.replyPort, p = []
  | .wait | .takeBack | .getMsg | .waitReply =>
    s.posted.count c = 1 ∧ k.replyPort = some (List.replicate (s.ends.count c) c)
  | .returned => s.ends.count c = s.posted.count c ∧ s.posted.count c ≤ 1
  | .lost => s.posted.count c ≤ 1

structure Inv (s : NepClassHub) : Prop where
  task : s.task = s.ctrlMsgPort.isSome
  stage : s.task = true ↔ s.hub ≠ .alloc ∧ s.hub ≠ .gone
  placed : ∀ c, s.queue.count c + s.hand.count c + s.ends.count c = s.posted.count c
  knows : ∀ c, Knows s c (s.callers c)

theorem callers_set_self : (s.set c k).callers c = k := by
  exact Function.update_self ..

theorem callers_set_ne (h : c' ≠ c) : (s.set c k).callers c' = s.callers c' := by
  exact Function.update_of_ne h ..

theorem count_singleton_ne (h : c' ≠ c) : [c].count c' = 0 :=
  count_eq_zero.mpr fun hin => h (mem_singleton.mp hin)

theorem queue_eq (hport : s.ctrlMsgPort = some q) : s.queue = q := by
  unfold queue
  rw [hport]
  rfl

theorem hand_eq (hhub : s.hub = .handling m) : s.hand = [m] := by
  unfold hand
  rw [hhub]

theorem hand_nil (hhub : ∀ m, s.hub ≠ .handling m) : s.hand = [] := by
  unfold hand
  split
  · next m hm => exact absurd hm (hhub m)
  · rfl

theorem Knows.congr (hposted : t.posted.count c = s.posted.count c) (hends : t.ends.count c = s.ends.count c)
    (h : Knows s c k) : Knows t c k := by
  unfold Knows at h ⊢
  rw [hposted, hends]
  exact h

theorem Inv.move (h : Inv s) (hcallers : t.callers = (s.set c k).callers) (htask : t.task = s.task)
    (hhub : t.hub = s.hub) (hport : t.ctrlMsgPort.isSome = s.ctrlMsgPort.isSome)
    (hother : ∀ c', c' ≠ c → t.queue.count c' = s.queue.count c' ∧ t.ends.count c' = s.ends.count c' ∧
      t.posted.count c' = s.posted.count c')
    (hplaced : t.queue.count c + s.hand.count c + t.ends.count c = t.posted.count c)
    (hk : Knows t c k) : Inv t := by
  have hhand : t.hand = s.hand := by
    unfold hand
    rw [hhub]
  refine ⟨?_, ?_, fun c' => ?_, fun c' => ?_⟩
  · rw [htask, hport]
    exact h.task
  · rw [htask, hhub]
    exact h.stage
  · rw [hhand]
    by_cases hc : c' = c
    · rw [hc]
      exact hplaced
    · obtain ⟨hqueue, hends, hposted⟩ := hother c' hc
      rw [hqueue, hends, hposted]
      exact h.placed c'
  · rw [hcallers]
    by_cases hc : c' = c
    · rw [hc, callers_set_self]
      exact hk
    · obtain ⟨-, hends, hposted⟩ := hother c' hc
      rw [callers_set_ne hc]
      exact (h.knows c').congr hposted hends

theorem Inv.set (h : Inv s) (hk : Knows s c k) : Inv (s.set c k) :=
  h.move rfl rfl rfl rfl (fun _ _ => ⟨rfl, rfl, rfl⟩) (h.placed c) hk

theorem Inv.posted_le (h : Inv s) (c : ℕ) : s.posted.count c ≤ 1 := by
  have hk := h.knows c
  unfold Knows at hk
  split at hk <;> omega

theorem Inv.putMsg (h : Inv s) (hcall : (s.callers c).call = .enter) : Inv (s.putMsg c) := by
  have hk := h.knows c
  unfold Knows at hk
  rw [hcall] at hk
  obtain ⟨hposted, hport⟩ := hk
  have hplaced := h.placed c
  unfold NepClassHub.putMsg
  split
  · rename_i hput
    obtain ⟨htask, hsome⟩ := hput
    rw [h.task] at htask
    obtain ⟨q, hq⟩ := isSome_iff_exists.mp htask
    obtain ⟨p, hp⟩ := isSome_iff_exists.mp hsome
    obtain rfl := hport p hp
    have hqueue : s.queue = q := queue_eq hq
    rw [hqueue] at hplaced
    rw [hq]
    dsimp only
    refine h.move rfl rfl rfl (by rw [hq]; rfl) (fun c' hc => ⟨?_, rfl, ?_⟩) ?_ ?_
    · rw [hqueue]
      change (q ++ [c]).count c' = q.count c'
      rw [count_append, count_singleton_ne hc, Nat.add_zero]
    · rw [count_append, count_singleton_ne hc, Nat.add_zero]
    · change (q ++ [c]).count c + s.hand.count c + s.ends.count c = (s.posted ++ [c]).count c
      rw [count_append, count_append, count_singleton_self]
      omega
    · have hends : s.ends.count c = 0 := by omega
      have hknows : (s.posted ++ [c]).count c = 1 ∧
          (s.callers c).replyPort = some (replicate (s.ends.count c) c) := by
        rw [count_append, hposted, count_singleton_self, hends]
        exact ⟨rfl, hp⟩
      unfold Knows
      cases (s.callers c).cancellable with
      | true => exact hknows
      | false => exact hknows
  · apply h.set
    change s.ends.count c = s.posted.count c ∧ s.posted.count c ≤ 1
    omega

theorem Inv.nHubMethodWait (h : Inv s) (hcall : (s.callers c).call = .wait) : Inv (s.nHubMethodWait c) := by
  have hk := h.knows c
  unfold Knows at hk
  rw [hcall] at hk
  apply h.set
  unfold Knows
  cases (s.callers c).ctrlC with
  | true => exact hk
  | false => exact hk

theorem Inv.nHubMethodTakeBack (h : Inv s) (hcall : (s.callers c).call = .takeBack) :
    Inv (s.nHubMethodTakeBack c) := by
  have hk := h.knows c
  unfold Knows at hk
  rw [hcall] at hk
  have hplaced := h.placed c
  unfold NepClassHub.nHubMethodTakeBack
  split
  · apply h.set
    change s.posted.count c ≤ 1
    omega
  · rename_i q hq
    have hqueue : s.queue = q := queue_eq hq
    rw [hqueue] at hplaced
    by_cases hin : c ∈ q
    · rw [if_pos hin]
      have hcount : 0 < q.count c := count_pos_iff.mpr hin
      have hends : ∀ c', (map Prod.fst (s.ended ++ [(c, End.takenBack)])).count c' =
          s.ends.count c' + [c].count c' := by
        intro c'
        rw [map_append, count_append]
        rfl
      have hself := hends c
      rw [count_singleton_self] at hself
      refine h.move rfl rfl rfl (by rw [hq]; rfl) (fun c' hc => ⟨?_, ?_, rfl⟩) ?_ ?_
      · rw [hqueue]
        exact count_erase_of_ne hc
      · exact (hends c').trans (by rw [count_singleton_ne hc, Nat.add_zero])
      · change (q.erase c).count c + s.hand.count c + (map Prod.fst _).count c = s.posted.count c
        rw [hself, count_erase_self]
        omega
      · change (map Prod.fst _).count c = s.posted.count c ∧ s.posted.count c ≤ 1
        rw [hself]
        omega
    · rw [if_neg hin]
      exact h.set hk

theorem Inv.getMsg (h : Inv s) (hcall : (s.callers c).call = .getMsg) : Inv (s.getMsg c) := by
  have hk := h.knows c
  unfold Knows at hk
  rw [hcall] at hk
  have hplaced := h.placed c
  unfold NepClassHub.getMsg
  split
  · rename_i hport
    rw [hk.2, some.injEq] at hport
    have hne : s.ends.count c ≠ 0 := by
      intro hzero
      rw [hzero] at hport
      exact absurd hport (cons_ne_nil _ _).symm
    apply h.set
    change s.ends.count c = s.posted.count c ∧ s.posted.count c ≤ 1
    omega
  · exact h.set hk

theorem replyMsg_call (how : End) : ((s.replyMsg m how).callers c).call = (s.callers c).call := by
  change ((s.set m _).callers c).call = _
  by_cases hc : c = m
  · rw [hc, callers_set_self]
  · rw [callers_set_ne hc]

theorem replyMsg_replyPort : ((s.replyMsg m how).callers c).replyPort =
    (s.callers c).replyPort.map (· ++ replicate ([m].count c) c) := by
  change ((s.set m _).callers c).replyPort = _
  by_cases hc : c = m
  · rw [hc, callers_set_self, count_singleton_self]
    rfl
  · rw [callers_set_ne hc, count_singleton_ne hc]
    simp

structure Replied (q : List ℕ) (s t : NepClassHub) : Prop where
  task : t.task = s.task
  ctrlMsgPort : t.ctrlMsgPort = s.ctrlMsgPort
  hub : t.hub = s.hub
  posted : t.posted = s.posted
  ends : ∀ c, t.ends.count c = s.ends.count c + q.count c
  call : ∀ c, (t.callers c).call = (s.callers c).call
  replyPort : ∀ c, (t.callers c).replyPort = (s.callers c).replyPort.map (· ++ List.replicate (q.count c) c)

theorem replyMsg_replied : Replied [m] s (s.replyMsg m how) := by
  refine ⟨rfl, rfl, rfl, rfl, fun c => ?_, fun c => replyMsg_call how, fun c => replyMsg_replyPort⟩
  change (map Prod.fst (s.ended ++ [(m, how)])).count c = _
  rw [map_append, count_append]
  rfl

theorem Replied.cons (h : Replied q (s.replyMsg m how) t) : Replied (m :: q) s t := by
  have hm : Replied [m] s (s.replyMsg m how) := replyMsg_replied
  have hcons : ∀ c, (m :: q).count c = [m].count c + q.count c := fun c => by
    rw [← singleton_append, count_append]
  refine ⟨h.task, h.ctrlMsgPort, h.hub, h.posted, fun c => ?_, fun c => (h.call c).trans (hm.call c), ?_⟩
  · rw [h.ends, hm.ends, hcons]
    omega
  · intro c
    rw [h.replyPort, hm.replyPort, Option.map_map, hcons, replicate_add]
    simp [Function.comp_def]

theorem foldl_replied (q : List ℕ) (s : NepClassHub) :
    Replied q s (q.foldl (fun s m => s.replyMsg m how) s) := by
  induction q generalizing s with
  | nil => exact ⟨rfl, rfl, rfl, rfl, fun _ => rfl, fun _ => rfl, fun _ => by simp⟩
  | cons m q ih => exact (ih (s.replyMsg m how)).cons

theorem Replied.knows (hreplied : Replied q s t) (h : Inv s)
    (hle : t.ends.count c ≤ s.posted.count c) : Knows t c (t.callers c) := by
  have hk := h.knows c
  have hends := hreplied.ends c
  unfold Knows at hk ⊢
  rw [hreplied.call, hreplied.replyPort, hreplied.posted]
  split at hk
  · have hzero : q.count c = 0 := by omega
    rw [hzero]
    refine ⟨hk.1, fun p hp => ?_⟩
    obtain ⟨p', hp', rfl⟩ := map_eq_some_iff.mp hp
    rw [hk.2 p' hp']
    rfl
  · have hzero : q.count c = 0 := by omega
    rw [hzero]
    refine ⟨hk.1, fun p hp => ?_⟩
    obtain ⟨p', hp', rfl⟩ := map_eq_some_iff.mp hp
    rw [hk.2 p' hp']
    rfl
  all_goals first
    | omega
    | rw [hk.2, hends, map_some, replicate_append_replicate]
      exact ⟨hk.1, rfl⟩

theorem Inv.reply {u : NepClassHub} (h : Inv s) (hreplied : Replied q s t) (hcallers : u.callers = t.callers)
    (hposted : u.posted = t.posted) (hended : u.ended = t.ended)
    (htask : u.task = u.ctrlMsgPort.isSome) (hstage : u.task = true ↔ u.hub ≠ .alloc ∧ u.hub ≠ .gone)
    (hgives : ∀ c, u.queue.count c + u.hand.count c + q.count c = s.queue.count c + s.hand.count c) :
    Inv u := by
  have hends : u.ends = t.ends := by
    unfold ends
    rw [hended]
  have hplaced : ∀ c, u.queue.count c + u.hand.count c + u.ends.count c = u.posted.count c := by
    intro c
    have hold := h.placed c
    have hgive := hgives c
    rw [hends, hposted, hreplied.ends, hreplied.posted]
    omega
  refine ⟨htask, hstage, hplaced, fun c => ?_⟩
  have hle : t.ends.count c ≤ s.posted.count c := by
    have hc := hplaced c
    rw [hends, hposted, hreplied.posted] at hc
    omega
  rw [hcallers]
  exact (hreplied.knows h hle).congr (by rw [hposted]) (by rw [hends])

theorem Inv.handled (h : Inv s) (hhub : s.hub = .handling m) (result : BitVec 32) :
    Inv { (s.set m { s.callers m with nhmResult := result }).replyMsg m .handled with hub := .serving } := by
  have hset : Inv (s.set m { s.callers m with nhmResult := result }) := h.set (h.knows m)
  have htask : s.task = true := h.stage.mpr (by rw [hhub]; exact ⟨nofun, nofun⟩)
  refine hset.reply replyMsg_replied rfl rfl rfl h.task ?_ fun c => ?_
  · exact iff_of_true htask ⟨nofun, nofun⟩
  · have hhand : s.hand = [m] := hand_eq hhub
    change s.queue.count c + ([] : List ℕ).count c + [m].count c = s.queue.count c + s.hand.count c
    rw [hhand]
    rfl

theorem Inv.nFreeHub (h : Inv s) (hhub : s.hub = .freeing) : Inv s.nFreeHub := by
  refine h.reply (foldl_replied s.queue s) rfl rfl rfl rfl ?_ fun c => ?_
  · exact iff_of_false Bool.false_ne_true fun hne => hne.2 rfl
  · have hhand : s.hand = [] := hand_nil (by simp [hhub])
    change ([] : List ℕ).count c + ([] : List ℕ).count c + s.queue.count c = s.queue.count c + s.hand.count c
    rw [hhand, count_nil]
    omega

theorem Inv.take (h : Inv s) (hhub : s.hub = .serving) (hport : s.ctrlMsgPort = some (m :: q)) :
    Inv { s with ctrlMsgPort := some q, hub := .handling m } := by
  have htask : s.task = true := h.stage.mpr (by rw [hhub]; exact ⟨nofun, nofun⟩)
  refine ⟨by rw [htask]; rfl, iff_of_true htask ⟨nofun, nofun⟩, fun c => ?_, h.knows⟩
  have hplaced := h.placed c
  have hqueue : s.queue = m :: q := queue_eq hport
  have hhand : s.hand = [] := hand_nil (by simp [hhub])
  have hcons : (m :: q).count c = [m].count c + q.count c := by
    rw [← singleton_append, count_append]
  rw [hqueue, hhand, hcons, count_nil] at hplaced
  change q.count c + [m].count c + s.ends.count c = s.posted.count c
  omega

theorem Inv.init : Inv init :=
  ⟨rfl, iff_of_false Bool.false_ne_true fun hne => hne.1 rfl, fun _ => rfl, fun _ => ⟨rfl, nofun⟩⟩

theorem Inv.step (h : Inv s) (hs : step s e = some t) : Inv t := by
  cases e with
  | ready =>
    obtain ⟨halloc, rfl⟩ := of_guard hs
    have hnone : s.ctrlMsgPort = none := by
      have htask : s.task = false := by
        rw [← Bool.not_eq_true, h.stage]
        exact fun hne => hne.1 halloc
      rw [← isNone_iff_eq_none, ← not_isSome, ← h.task, htask]
      rfl
    refine ⟨rfl, iff_of_true rfl ⟨nofun, nofun⟩, fun c => ?_, h.knows⟩
    have hplaced := h.placed c
    unfold queue hand at hplaced
    rw [hnone, halloc] at hplaced
    exact hplaced
  | call c cancellable replyPort =>
    obtain ⟨hcall, rfl⟩ := of_guard hs
    have hk := h.knows c
    unfold Knows at hk
    rw [hcall] at hk
    apply h.set
    refine ⟨hk.1, fun p hp => ?_⟩
    cases replyPort with
    | true => exact (some.inj hp).symm
    | false => exact absurd hp (not_mem_none p)
  | direct c result =>
    obtain ⟨⟨hcall, -⟩, rfl⟩ := of_guard hs
    have hk := h.knows c
    unfold Knows at hk
    rw [hcall] at hk
    have hplaced := h.placed c
    apply h.set
    change s.ends.count c = s.posted.count c ∧ s.posted.count c ≤ 1
    omega
  | put c =>
    obtain ⟨hcall, rfl⟩ := of_guard hs
    exact h.putMsg hcall
  | quit c =>
    obtain rfl := some.inj hs
    exact h.set (h.knows c)
  | wake c =>
    obtain ⟨⟨hcall, -⟩, rfl⟩ := of_guard hs
    exact h.nHubMethodWait hcall
  | takeBack c =>
    obtain ⟨hcall, rfl⟩ := of_guard hs
    exact h.nHubMethodTakeBack hcall
  | getMsg c =>
    obtain ⟨hcall, rfl⟩ := of_guard hs
    exact h.getMsg hcall
  | wakeReply c =>
    obtain ⟨⟨hcall, -⟩, rfl⟩ := of_guard hs
    have hk := h.knows c
    unfold Knows at hk
    rw [hcall] at hk
    exact h.set hk
  | take =>
    obtain ⟨hhub, ht⟩ := ite_none_right_eq_some.mp hs
    split at ht
    · rename_i hport
      obtain rfl := some.inj ht
      exact h.take hhub hport
    · exact absurd ht (some_ne_none t).symm
  | handled result =>
    change s.handled result = some t at hs
    unfold NepClassHub.handled at hs
    split at hs
    · rename_i hhub
      obtain rfl := some.inj hs
      exact h.handled hhub result
    · exact absurd hs (some_ne_none t).symm
  | leave =>
    obtain ⟨hhub, rfl⟩ := of_guard hs
    have htask : s.task = true := h.stage.mpr (by rw [hhub]; exact ⟨nofun, nofun⟩)
    refine ⟨h.task, iff_of_true htask ⟨nofun, nofun⟩, fun c => ?_, h.knows⟩
    have hplaced := h.placed c
    unfold hand at hplaced
    rw [hhub] at hplaced
    exact hplaced
  | free =>
    obtain ⟨hhub, rfl⟩ := of_guard hs
    exact h.nFreeHub hhub

theorem Inv.once (h : Inv s) : Once s := by
  refine ⟨fun c => ⟨h.placed c, h.posted_le c⟩, fun c hcall => ?_, fun c hcall => ?_, fun hgone c => ?_⟩
  · have hk := h.knows c
    unfold Knows at hk
    rcases hcall with hcall | hcall | hcall | hcall <;>
    · rw [hcall] at hk
      exact hk
  · have hk := h.knows c
    have hplaced := h.placed c
    unfold Knows at hk
    rw [hcall] at hk
    have hqueue : s.queue.count c = 0 := by omega
    have hhand : s.hand.count c = 0 := by omega
    exact ⟨count_eq_zero.mp hqueue, count_eq_zero.mp hhand, hk.1⟩
  · have hplaced := h.placed c
    have hnone : s.ctrlMsgPort = none := by
      rw [← isNone_iff_eq_none, ← not_isSome, ← h.task, Bool.not_eq_true', ← Bool.not_eq_true,
        h.stage]
      exact fun hne => hne.2 hgone
    unfold queue hand at hplaced
    rw [hnone, hgone] at hplaced
    simpa using hplaced

theorem safe_set (h : Safe s) (hk : k.call ≠ .lost ∧ (k.call = .takeBack → s.task = true)) :
    Safe (s.set c k) := by
  intro c'
  by_cases hc : c' = c
  · rw [hc, callers_set_self]
    exact hk
  · rw [callers_set_ne hc]
    exact h c'

theorem safe_goto (call : Call) (h : Safe s) (hcall : call ≠ .lost ∧ call ≠ .takeBack)
    (hcallers : t.callers = (s.set c k).callers) (hk : k.call = call) (htask : t.task = s.task) : Safe t := by
  have hset : Safe (s.set c k) := by
    apply safe_set h
    rw [hk]
    exact ⟨hcall.1, fun htake => absurd htake hcall.2⟩
  intro c'
  rw [hcallers, htask]
  exact hset c'

/-- A step keeps all callers away from what is no more, if and only if it is in time. -/
theorem step_safe_iff (hinv : Inv s) (h : Safe s) (hs : step s e = some t) : Safe t ↔ InTime s e := by
  cases e with
  | ready =>
    obtain ⟨-, rfl⟩ := of_guard hs
    exact iff_of_true (fun c => ⟨(h c).1, fun _ => rfl⟩) trivial
  | call c cancellable replyPort | direct c result | wakeReply c =>
    obtain ⟨-, rfl⟩ := of_guard hs
    exact iff_of_true (safe_set h ⟨nofun, nofun⟩) trivial
  | put c =>
    obtain ⟨-, rfl⟩ := of_guard hs
    refine iff_of_true ?_ trivial
    unfold NepClassHub.putMsg
    split
    · rename_i hput
      rw [hinv.task] at hput
      obtain ⟨q, hq⟩ := isSome_iff_exists.mp hput.1
      rw [hq]
      dsimp only
      refine safe_goto (if (s.callers c).cancellable then .wait else .getMsg) h ?_ rfl rfl rfl
      split <;> exact ⟨nofun, nofun⟩
    · exact safe_set h ⟨nofun, nofun⟩
  | quit c =>
    obtain rfl := some.inj hs
    exact iff_of_true (safe_set h (h c)) trivial
  | wake c =>
    obtain ⟨-, rfl⟩ := of_guard hs
    unfold InTime NepClassHub.nHubMethodWait
    constructor
    · intro hsafe hctrlC
      have hc := (hsafe c).2
      rw [callers_set_self] at hc
      apply hc
      rw [hctrlC]
      rfl
    · intro hintime
      apply safe_set h
      cases hctrlC : (s.callers c).ctrlC with
      | true => exact ⟨nofun, fun _ => hintime hctrlC⟩
      | false => exact ⟨nofun, nofun⟩
  | takeBack c =>
    obtain ⟨hcall, rfl⟩ := of_guard hs
    refine iff_of_true ?_ trivial
    have htask := (h c).2 hcall
    rw [hinv.task] at htask
    obtain ⟨q, hq⟩ := isSome_iff_exists.mp htask
    unfold NepClassHub.nHubMethodTakeBack
    rw [hq]
    dsimp only
    split
    · exact safe_goto .returned h ⟨nofun, nofun⟩ rfl rfl rfl
    · exact safe_set h ⟨nofun, nofun⟩
  | getMsg c =>
    obtain ⟨-, rfl⟩ := of_guard hs
    refine iff_of_true ?_ trivial
    unfold NepClassHub.getMsg
    split
    · exact safe_set h ⟨nofun, nofun⟩
    · exact safe_set h ⟨nofun, nofun⟩
  | take =>
    obtain ⟨-, ht⟩ := ite_none_right_eq_some.mp hs
    split at ht
    · obtain rfl := some.inj ht
      exact iff_of_true h trivial
    · exact absurd ht (some_ne_none t).symm
  | handled result =>
    change s.handled result = some t at hs
    unfold NepClassHub.handled at hs
    split at hs
    · rename_i m hhub
      obtain rfl := some.inj hs
      refine iff_of_true (fun c => ?_) trivial
      have hset : Safe (s.set m { s.callers m with nhmResult := result }) := safe_set h (h m)
      have hc := hset c
      have hreply := replyMsg_call .handled (s := s.set m { s.callers m with nhmResult := result }) (m := m) (c := c)
      rw [← hreply] at hc
      exact hc
    · exact absurd hs (some_ne_none t).symm
  | leave =>
    obtain ⟨-, rfl⟩ := of_guard hs
    exact iff_of_true h trivial
  | free =>
    obtain ⟨-, rfl⟩ := of_guard hs
    have hcall : ∀ c, (s.nFreeHub.callers c).call = (s.callers c).call := (foldl_replied s.queue s).call
    unfold InTime
    constructor
    · intro hsafe c htake
      have hc := (hsafe c).2
      rw [hcall] at hc
      exact absurd (hc htake) Bool.false_ne_true
    · intro hintime c
      rw [hcall]
      exact ⟨(h c).1, fun htake => absurd htake (hintime c)⟩

/-- Every request comes to one end in every run, and no caller touches a port that is no more, if and only
if every step is in time. -/
theorem rendezvous_once (evs : List Event) :
    (∀ t, exec step init evs = some t → Once t) ∧
    (Always step (fun _ _ t => Safe t) init evs ↔ Always step (fun s e _ => InTime s e) init evs) := by
  constructor
  · intro t ht
    have hinv : Inv t := (Run.of_exec_any ht).invariant Inv .init fun _ _ _ h _ hs => h.step hs
    exact hinv.once
  · have hsafe : Inv init ∧ Safe init := ⟨.init, fun c => ⟨nofun, nofun⟩⟩
    have hboth := Always.invariant_iff (I := fun s => Inv s ∧ Safe s) (C := InTime)
      (fun s e t h hs => and_iff_right (h.1.step hs) |>.trans (step_safe_iff h.1 h.2 hs)) hsafe evs
    rw [← hboth]
    exact Always.congr_invariant (I := Inv) (fun _ _ _ h hs => h.step hs)
      (fun s e t h hs => (and_iff_right (h.step hs)).symm) .init evs

/-- A request lies in the port when the hub task goes; its caller is told to quit before it runs. -/
def goneBehindIt : List Event :=
  [.ready, .call 0 true true, .put 0, .leave, .free, .quit 0, .wake 0, .takeBack 0]

theorem rendezvous_once_flushed :
    ∃ t, exec step init goneBehindIt = some t ∧ Once t :=
  ⟨_, rfl, (rendezvous_once goneBehindIt).1 _ rfl⟩

theorem takeBack_from_gone :
    (exec step init goneBehindIt).map (fun t => (t.callers 0).call) = some .lost ∧
    ¬ Always step (fun _ _ t => Safe t) init goneBehindIt := by
  have hlost : (exec step init goneBehindIt).map (fun t => (t.callers 0).call) = some .lost := rfl
  refine ⟨hlost, fun hsafe => ?_⟩
  obtain ⟨t, ht, hcall⟩ := map_eq_some_iff.mp hlost
  have hbefore : ∃ s, exec step init (goneBehindIt.take 7) = some s := ⟨_, rfl⟩
  obtain ⟨s, hs⟩ := hbefore
  have hlast : step s (.takeBack 0) = some t := by
    have hexec : (exec step init (goneBehindIt.take 7)).bind (fun s => step s (.takeBack 0)) = some t := ht
    rw [hs] at hexec
    exact hexec
  rw [show goneBehindIt = goneBehindIt.take 7 ++ .takeBack 0 :: [] from rfl] at hsafe
  exact (hsafe.step_at hs hlast 0).1 hcall

def NepClassHub.served (s : NepClassHub) : List ℕ := (s.ended.filter (·.2 ≠ .takenBack)).map Prod.fst

/-- What the hub task has answered, what it has at hand and what lies in the port come in this order, as they were
posted. -/
def InOrder (s : NepClassHub) : Prop := s.served ++ (s.hand ++ s.queue) <+ s.posted

theorem served_append (how : End) (hhow : how ≠ .takenBack) (hended : t.ended = s.ended ++ q.map (·, how)) :
    t.served = s.served ++ q := by
  have hkept : (q.map (·, how)).filter (·.2 ≠ .takenBack) = q.map (·, how) :=
    filter_eq_self.mpr (by simp [hhow])
  unfold served
  rw [hended, filter_append, hkept, map_append, List.map_map]
  exact congrArg _ (List.map_id q)

theorem InOrder.keeps (h : InOrder s) (hposted : t.posted = s.posted) (hserved : t.served = s.served)
    (hrest : t.hand ++ t.queue <+ s.hand ++ s.queue) : InOrder t := by
  unfold InOrder
  rw [hserved, hposted]
  exact (hrest.append_left _).trans h

theorem InOrder.gives (h : InOrder s) (hposted : t.posted = s.posted) (hserved : t.served = s.served ++ q)
    (hrest : q ++ (t.hand ++ t.queue) = s.hand ++ s.queue) : InOrder t := by
  unfold InOrder
  rw [hserved, append_assoc, hrest, hposted]
  exact h

theorem InOrder.putMsg (h : InOrder s) : InOrder (s.putMsg c) := by
  unfold NepClassHub.putMsg
  split
  · split
    · exact h
    · next q hq =>
      have happend := Sublist.append h (Sublist.refl [c])
      rw [queue_eq hq, append_assoc, append_assoc] at happend
      exact happend
  · exact h

theorem InOrder.nHubMethodTakeBack (h : InOrder s) : InOrder (s.nHubMethodTakeBack c) := by
  unfold NepClassHub.nHubMethodTakeBack
  split
  · exact h
  · next q hq =>
    split
    · refine h.keeps rfl (by simp [served]) ?_
      rw [queue_eq hq]
      exact erase_sublist.append_left _
    · exact h

theorem foldl_ended (q : List ℕ) (s : NepClassHub) :
    (q.foldl (fun s m => s.replyMsg m how) s).ended = s.ended ++ q.map (·, how) := by
  induction q generalizing s with
  | nil => exact (append_nil _).symm
  | cons m q ih =>
    rw [foldl_cons, ih]
    exact append_assoc ..

theorem InOrder.step (h : InOrder s) (hs : step s e = some t) : InOrder t := by
  cases e with
  | ready =>
    obtain ⟨halloc, rfl⟩ := of_guard hs
    exact h.keeps rfl rfl (nil_sublist _)
  | put c =>
    obtain ⟨-, rfl⟩ := of_guard hs
    exact h.putMsg
  | takeBack c =>
    obtain ⟨-, rfl⟩ := of_guard hs
    exact h.nHubMethodTakeBack
  | getMsg c =>
    obtain ⟨-, rfl⟩ := of_guard hs
    unfold NepClassHub.getMsg
    split <;> exact h
  | take =>
    obtain ⟨hhub, ht⟩ := ite_none_right_eq_some.mp hs
    split at ht
    · next m q hport =>
      obtain rfl := some.inj ht
      refine h.keeps rfl rfl ?_
      rw [queue_eq hport]
      exact sublist_append_right _ _
    · exact absurd ht (some_ne_none t).symm
  | handled result =>
    change s.handled result = some t at hs
    unfold NepClassHub.handled at hs
    split at hs
    · next m hhub =>
      obtain rfl := some.inj hs
      refine h.gives rfl (served_append (q := [m]) .handled (by decide) rfl) ?_
      rw [hand_eq hhub]
      rfl
    · exact absurd hs (some_ne_none t).symm
  | leave =>
    obtain ⟨hhub, rfl⟩ := of_guard hs
    exact h.keeps rfl rfl (sublist_append_right _ _)
  | free =>
    obtain ⟨hhub, rfl⟩ := of_guard hs
    refine h.gives (foldl_replied s.queue s).posted (served_append .flushed (by decide) (foldl_ended s.queue s)) ?_
    rw [hand_nil (s := s) (by simp [hhub])]
    exact append_nil _
  | quit c =>
    obtain rfl := some.inj hs
    exact h
  | call | direct | wake | wakeReply =>
    obtain ⟨-, rfl⟩ := of_guard hs
    exact h

end Neptune.HubMethod
