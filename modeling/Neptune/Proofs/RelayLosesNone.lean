import Neptune.Spec.Relay

/-! The relay loses no request, when nothing is put on its task port from the moment it takes CTRL-C
on, and no quick submit is under way when the drain loop ends. Between the two a request is in one
place, and where neither the relay nor the driver can go on all are completed. -/

namespace Neptune.RelayState

open List Option

variable {s s' s₀ : RelayState} {e : RelayEvent} {evs : List RelayEvent}

inductive Step (s : RelayState) : RelayEvent → RelayState → Prop
  | put {pp} (hf : s.Free pp) :
      Step s (.put pp) { s with
        taskPort := s.taskPort ++ [.forward pp], sigTask := true
        submitted := s.submitted ++ [pp] }
  | sync {pp} (hf : s.Free pp) :
      Step s (.begin pp true) { s with
        submitted := s.submitted ++ [pp], completed := s.completed ++ [pp] }
  | deferred {pp} (hf : s.Free pp) :
      Step s (.begin pp false) { s with
        hcd := s.hcd ++ [pp], counting := s.counting ++ [pp]
        submitted := s.submitted ++ [pp] }
  | count {pp} (hm : pp ∈ s.counting) :
      Step s (.count pp) { s with
        msgCount := ulong (s.msgCount + 1), counting := s.counting.erase pp }
  | abort {pp} :
      Step s (.abort pp) { s with taskPort := s.taskPort ++ [.abort pp], sigTask := true }
  | reply {pp} (hm : pp ∈ s.hcd) :
      Step s (.reply pp) { s with
        hcd := s.hcd.erase pp, devPort := s.devPort ++ [pp], sigDev := true }
  | ctrlC : Step s .ctrlC { s with sigCtrlC := true }
  | taskEmpty (hpc : s.pc = .taskPort) (hp : s.taskPort = []) :
      Step s .relay { s with pc := .devPort .main }
  | taskAbort {pp rest} (hpc : s.pc = .taskPort) (hp : s.taskPort = .abort pp :: rest) :
      Step s .relay { s with taskPort := rest }
  | taskForward {pp rest} (hpc : s.pc = .taskPort) (hp : s.taskPort = .forward pp :: rest) :
      Step s .relay { s with taskPort := rest, pc := .send pp }
  | send {pp} (hpc : s.pc = .send pp) :
      Step s .relay { s with hcd := s.hcd ++ [pp], pc := .incLoad }
  | incLoad (hpc : s.pc = .incLoad) : Step s .relay { s with pc := .incStore s.msgCount }
  | incStore {n} (hpc : s.pc = .incStore n) :
      Step s .relay { s with msgCount := ulong (n + 1), pc := .taskPort }
  | mainEmpty (hpc : s.pc = .devPort .main) (hp : s.devPort = []) :
      Step s .relay { s with pc := .wait }
  | drainEmpty {cnt} (hpc : s.pc = .devPort (.drain cnt)) (hp : s.devPort = []) :
      Step s .relay { s with pc := .test cnt }
  | devPort {l pp rest} (hpc : s.pc = .devPort l) (hp : s.devPort = pp :: rest) :
      Step s .relay { s with devPort := rest, pc := .complete l pp }
  | complete {l pp} (hpc : s.pc = .complete l pp) :
      Step s .relay { s with completed := s.completed ++ [pp], pc := .decLoad l }
  | decLoad {l} (hpc : s.pc = .decLoad l) : Step s .relay { s with pc := .decStore l s.msgCount }
  | decStore {l n} (hpc : s.pc = .decStore l n) :
      Step s .relay { s with msgCount := ulongSub n 1, pc := .devPort l }
  | wake (hpc : s.pc = .wait) (hs : s.sigTask = true ∨ s.sigDev = true) (hc : s.sigCtrlC = false) :
      Step s .relay { s with
        sigTask := false, sigDev := false, sigCtrlC := false, pc := .taskPort }
  | shutDown (hpc : s.pc = .wait) (hc : s.sigCtrlC = true) :
      Step s .relay { s with sigTask := false, sigDev := false, sigCtrlC := false, pc := .flush }
  | flush (hpc : s.pc = .flush) : Step s .relay { s with pc := .test 0 }
  | leave {cnt} (hpc : s.pc = .test cnt) (h0 : s.msgCount = 0) :
      Step s .relay { s with pc := .left false }
  | pending {cnt} (hpc : s.pc = .test cnt) (h0 : s.msgCount ≠ 0) :
      Step s .relay { s with pc := .delay cnt }
  | timeout {cnt} (hpc : s.pc = .delay cnt) (hc : cnt + 1 = 300) :
      Step s .relay { s with msgCount := 0, pc := .left true }
  | delay {cnt} (hpc : s.pc = .delay cnt) (hc : cnt + 1 ≠ 300) :
      Step s .relay { s with pc := .devPort (.drain (cnt + 1)) }

theorem step_relay (h : s.pDeviceTask = some s') : Step s .relay s' := by
  unfold pDeviceTask at h
  split at h
  · rename_i hpc
    split at h <;> obtain rfl := some.inj h
    · rename_i hp
      exact .taskEmpty hpc hp
    · rename_i hp
      exact .taskAbort hpc hp
    · rename_i hp
      exact .taskForward hpc hp
  · rename_i hpc
    obtain rfl := some.inj h
    exact .send hpc
  · rename_i hpc
    obtain rfl := some.inj h
    exact .incLoad hpc
  · rename_i hpc
    obtain rfl := some.inj h
    exact .incStore hpc
  · rename_i l hpc
    split at h
    · rename_i hp
      cases l <;> obtain rfl := some.inj h
      · exact .mainEmpty hpc hp
      · exact .drainEmpty hpc hp
    · rename_i hp
      obtain rfl := some.inj h
      exact .devPort hpc hp
  · rename_i hpc
    obtain rfl := some.inj h
    exact .complete hpc
  · rename_i hpc
    obtain rfl := some.inj h
    exact .decLoad hpc
  · rename_i hpc
    obtain rfl := some.inj h
    exact .decStore hpc
  · rename_i hpc
    split at h
    · rename_i hs
      obtain rfl := some.inj h
      cases hc : s.sigCtrlC with
      | true => exact .shutDown hpc hc
      | false => exact .wake hpc (by simpa [hc] using hs) hc
    · cases h
  · rename_i hpc
    obtain rfl := some.inj h
    exact .flush hpc
  · rename_i hpc
    obtain rfl := some.inj h
    split
    · rename_i h0
      exact .leave hpc h0
    · rename_i h0
      exact .pending hpc h0
  · rename_i hpc
    split at h <;> obtain rfl := some.inj h
    · rename_i hc
      exact .timeout hpc hc
    · rename_i hc
      exact .delay hpc hc
  · cases h

def Gone (s : RelayState) : Prop := ∃ timedOut, s.pc = .left timedOut

theorem step_cases (h : s.step e = some s') : ¬ s.Gone ∧ Step s e s' := by
  unfold step at h
  split at h
  · cases h
  all_goals
    rename_i hpc
    refine ⟨fun ⟨b, hb⟩ => hpc b hb, ?_⟩
  · split at h
    · rename_i hf
      obtain rfl := some.inj h
      exact .put hf.2
    · cases h
  · split at h
    · rename_i hf
      split at h <;> rename_i hsync <;> obtain rfl := some.inj h
      · subst hsync
        exact .sync hf.2
      · obtain rfl := Bool.eq_false_of_not_eq_true hsync
        exact .deferred hf.2
    · cases h
  · split at h
    · rename_i hm
      obtain rfl := some.inj h
      exact .count hm
    · cases h
  · split at h
    · cases h
    · obtain rfl := some.inj h
      exact .abort
  · split at h
    · rename_i hm
      obtain rfl := some.inj h
      exact .reply hm
    · cases h
  · obtain rfl := some.inj h
    exact .ctrlC
  · exact step_relay h

def forwards (ms : List TaskMsg) : List PipePtr :=
  ms.filterMap fun
    | .forward pp => some pp
    | .abort _ => none

def held : RelayPc → List PipePtr
  | .send pp | .complete _ pp => [pp]
  | _ => []

def inFlight (s : RelayState) : List PipePtr :=
  forwards s.taskPort ++ held s.pc ++ s.hcd ++ s.devPort

structure Accounted (s : RelayState) : Prop where
  submitted : ∀ pp, s.submitted.count pp = s.completed.count pp + s.inFlight.count pp
  once : ∀ pp, s.inFlight.count pp ≤ 1

theorem count_inFlight (s : RelayState) (pp : PipePtr) :
    s.inFlight.count pp = (forwards s.taskPort).count pp + (held s.pc).count pp +
      s.hcd.count pp + s.devPort.count pp := by
  simp only [inFlight, count_append]

theorem Accounted.move (hi : s.Accounted) (hs : s'.submitted = s.submitted)
    (hc : s'.completed = s.completed) (h : ∀ pp, s'.inFlight.count pp = s.inFlight.count pp) :
    s'.Accounted :=
  ⟨fun pp => by rw [hs, hc, h pp]; exact hi.submitted pp, fun pp => by rw [h pp]; exact hi.once pp⟩

theorem Accounted.nodup (hi : s.Accounted) : s.inFlight.Nodup :=
  nodup_iff_count_le_one.mpr hi.once

theorem Accounted.submit (hi : s.Accounted) {pp : PipePtr} (hf : s.Free pp)
    (hs : s'.submitted = s.submitted ++ [pp]) (hc : s'.completed = s.completed)
    (h : ∀ q, s'.inFlight.count q = s.inFlight.count q + [pp].count q) : s'.Accounted := by
  refine ⟨fun q => ?_, fun q => ?_⟩
  · have := hi.submitted q
    rw [hs, hc, h q, count_append]
    omega
  · rw [h q]
    by_cases hq : pp = q
    · subst hq
      have := hi.submitted pp
      have := hf.2
      simp only [count_singleton_self]
      omega
    · have := hi.once q
      simpa [count_singleton, hq] using this

theorem step_accounted (hi : s.Accounted) (h : Step s e s') : s'.Accounted := by
  cases h with
  | put hf =>
    refine hi.submit hf rfl rfl fun q => ?_
    simp only [count_inFlight, forwards, filterMap_append, count_append]
    simp only [filterMap_cons, filterMap_nil]
    omega
  | @sync pp hf =>
    refine ⟨fun q => ?_, hi.once⟩
    have := hi.submitted q
    simp only [count_inFlight, count_append] at this ⊢
    omega
  | deferred hf =>
    refine hi.submit hf rfl rfl fun q => ?_
    simp only [count_inFlight, count_append]
    omega
  | abort =>
    refine hi.move rfl rfl fun q => ?_
    simp [count_inFlight, forwards]
  | @reply pp hm =>
    refine hi.move rfl rfl fun q => ?_
    have := count_pos_iff.mpr hm
    simp only [count_inFlight, count_append, count_erase, count_singleton]
    split
    · rename_i hq
      obtain rfl := beq_iff_eq.mp hq
      omega
    · omega
  | complete hpc =>
    have hn := hi.once
    refine ⟨fun q => ?_, fun q => ?_⟩
    · have := hi.submitted q
      simp only [count_inFlight, hpc, held, count_append, count_nil] at this ⊢
      omega
    · have := hn q
      simp only [count_inFlight, hpc, held, count_nil] at this ⊢
      omega
  | count _ | ctrlC => exact hi.move rfl rfl fun _ => rfl
  | taskForward hpc hp =>
    refine hi.move rfl rfl fun q => ?_
    simp [count_inFlight, forwards, held, hpc, hp, count_cons]
  | taskAbort hpc hp | taskEmpty hpc hp | mainEmpty hpc hp | drainEmpty hpc hp =>
    refine hi.move rfl rfl fun q => ?_
    simp [count_inFlight, forwards, held, hpc, hp]
  | send hpc =>
    refine hi.move rfl rfl fun q => ?_
    simp only [count_inFlight, held, hpc, count_append, count_nil]
    omega
  | devPort hpc hp =>
    refine hi.move rfl rfl fun q => ?_
    simp only [count_inFlight, held, hpc, hp, count_cons, count_nil]
    omega
  | incLoad hpc | incStore hpc | decLoad hpc | decStore hpc | flush hpc | leave hpc | pending hpc
  | timeout hpc | delay hpc | wake hpc | shutDown hpc =>
    refine hi.move rfl rfl fun q => ?_
    simp [count_inFlight, held, hpc]

def storing : RelayPc → Option ℕ
  | .incStore n | .decStore _ n => some n
  | _ => none

def draining : RelayPc → Bool
  | .flush | .test _ | .delay _ | .left _ => true
  | .devPort (.drain _) | .complete (.drain _) _ | .decLoad (.drain _) | .decStore (.drain _) _ =>
    true
  | _ => false

def testing : RelayPc → Bool
  | .test _ => true
  | _ => false

def RelayCond (s : RelayState) : RelayEvent → Prop
  | .put _ | .abort _ => draining s.pc = false
  | .count _ => storing s.pc = none
  | .relay =>
    (s.pc = .wait → s.sigCtrlC = true → s.taskPort = []) ∧
      (testing s.pc = true → s.msgCount = 0 → s.counting = [])
  | .begin _ _ | .reply _ | .ctrlC => True

instance (s : RelayState) : ∀ e, Decidable (s.RelayCond e)
  | .put _ | .abort _ | .count _ => inferInstanceAs (Decidable (_ = _))
  | .relay => inferInstanceAs (Decidable ((_ → _ → _ = _) ∧ (_ → _ → _ = _)))
  | .begin _ _ | .reply _ | .ctrlC => inferInstanceAs (Decidable True)

def uncounted : RelayPc → ℕ
  | .incLoad | .incStore _ => 1
  | _ => 0

def overcounted : RelayPc → ℕ
  | .complete _ _ | .decLoad _ | .decStore _ _ => 1
  | _ => 0

structure Counted (s : RelayState) : Prop where
  lt : s.msgCount < 2 ^ 32
  count : s.pc ≠ .left true →
    (s.msgCount + s.counting.length + uncounted s.pc) % 2 ^ 32 =
      (s.hcd.length + s.devPort.length + overcounted s.pc) % 2 ^ 32
  stored : ∀ n, storing s.pc = some n → n = s.msgCount

theorem step_counted (hi : s.Counted) (hg : ¬ s.Gone) (hc : s.RelayCond e) (h : Step s e s') :
    s'.Counted := by
  have hlt := hi.lt
  have hcount := hi.count fun hl => hg ⟨true, hl⟩
  have hstored := hi.stored
  cases h with
  | put _ | sync _ | abort | ctrlC => exact ⟨hlt, fun _ => hcount, hstored⟩
  | deferred _ =>
    refine ⟨hlt, fun _ => ?_, hstored⟩
    simp only [length_append, length_singleton]
    omega
  | count hm =>
    have hpos := length_pos_of_mem hm
    refine ⟨Nat.mod_lt _ (by norm_num), fun _ => ?_, fun n hn => ?_⟩
    · simp only [ulong, length_erase_of_mem hm]
      omega
    · change storing s.pc = none at hc
      change storing s.pc = some n at hn
      rw [hc] at hn
      cases hn
  | reply hm =>
    have hpos := length_pos_of_mem hm
    refine ⟨hlt, fun _ => ?_, hstored⟩
    simp only [length_append, length_singleton, length_erase_of_mem hm]
    omega
  | incStore hpc =>
    obtain rfl := hstored _ (by rw [hpc]; rfl)
    refine ⟨Nat.mod_lt _ (by norm_num), fun _ => ?_, fun n hn => by cases hn⟩
    simp only [hpc, uncounted, overcounted, ulong] at hcount ⊢
    omega
  | decStore hpc =>
    obtain rfl := hstored _ (by rw [hpc]; rfl)
    refine ⟨Nat.mod_lt _ (by norm_num), fun _ => ?_, fun n hn => by cases hn⟩
    simp only [hpc, uncounted, overcounted, ulongSub] at hcount ⊢
    omega
  | incLoad hpc | decLoad hpc =>
    refine ⟨hlt, fun _ => ?_, fun n hn => (some.inj hn).symm⟩
    simpa only [hpc, uncounted, overcounted] using hcount
  | timeout => exact ⟨by norm_num, fun hl => absurd rfl hl, fun n hn => by cases hn⟩
  | taskAbort hpc =>
    exact ⟨hlt, fun _ => hcount, hstored⟩
  | taskEmpty hpc | taskForward hpc | mainEmpty hpc | drainEmpty hpc | complete hpc | flush hpc
  | wake hpc | shutDown hpc | leave hpc | pending hpc | delay hpc =>
    refine ⟨hlt, fun _ => ?_, fun n hn => by cases hn⟩
    simpa only [hpc, uncounted, overcounted] using hcount
  | send hpc =>
    refine ⟨hlt, fun _ => ?_, fun n hn => by cases hn⟩
    simp only [hpc, uncounted, overcounted, length_append, length_singleton] at hcount ⊢
    omega
  | devPort hpc hp =>
    refine ⟨hlt, fun _ => ?_, fun n hn => by cases hn⟩
    simp only [hpc, hp, uncounted, overcounted, length_cons] at hcount ⊢
    omega

def Shut (s : RelayState) : Prop := draining s.pc = true → s.taskPort = []

theorem step_shut (hi : s.Shut) (hc : s.RelayCond e) (h : Step s e s') : s'.Shut := by
  cases h with
  | put _ | abort =>
    intro hd
    change draining s.pc = true at hd
    rw [hc] at hd
    cases hd
  | sync _ | deferred _ | count _ | reply _ | ctrlC => exact hi
  | shutDown hpc hs => exact fun _ => hc.1 hpc hs
  | taskEmpty | taskForward | mainEmpty | send | incLoad | incStore | wake =>
    intro hd
    cases hd
  | taskAbort hpc =>
    intro hd
    change draining s.pc = true at hd
    rw [hpc] at hd
    cases hd
  | drainEmpty hpc | flush hpc | leave hpc | pending hpc | timeout hpc | delay hpc =>
    exact fun _ => hi (by rw [hpc]; rfl)
  | @devPort l _ _ hpc | @complete l _ hpc | @decLoad l hpc | @decStore l _ hpc =>
    intro hd
    apply hi
    rw [hpc]
    cases l with
    | main => cases hd
    | drain => rfl

theorem length_lt {l : List PipePtr} (h : l.Nodup) : l.length < 2 ^ 32 := by
  have hinj : Function.Injective PipePtr.addr := by
    rintro ⟨a, _, _⟩ ⟨b, _, _⟩ hab
    cases hab
    rfl
  have hsub : (l.map PipePtr.addr).toFinset ⊆ Finset.Ioo 0 (2 ^ 32) := by
    intro a ha
    obtain ⟨pp, -, rfl⟩ := List.mem_map.mp (List.mem_toFinset.mp ha)
    exact Finset.mem_Ioo.mpr ⟨Nat.pos_of_ne_zero pp.nonNull, pp.bound⟩
  have hle := Finset.card_le_card hsub
  rw [toFinset_card_of_nodup (h.map hinj), length_map, Nat.card_Ioo] at hle
  omega

def Empty (s : RelayState) : Prop :=
  s.hcd = [] ∧ s.devPort = [] ∧ s.taskPort = [] ∧ s.counting = []

theorem leave_empty (ha : s.Accounted) (hi : s.Counted) (hs : s.Shut) {cnt : ℕ}
    (hpc : s.pc = .test cnt) (h0 : s.msgCount = 0) (hc : s.counting = []) : s.Empty := by
  have hcount := hi.count (by rw [hpc]; exact RelayPc.noConfusion)
  have hn : (s.hcd ++ s.devPort).Nodup := by
    refine ha.nodup.sublist ?_
    rw [inFlight, append_assoc]
    exact sublist_append_right _ _
  have hl := length_lt hn
  rw [length_append] at hl
  simp only [hpc, h0, hc, uncounted, overcounted, length_nil] at hcount
  have h1 : s.hcd.length = 0 := by omega
  have h2 : s.devPort.length = 0 := by omega
  exact ⟨length_eq_zero_iff.mp h1, length_eq_zero_iff.mp h2, hs (by rw [hpc]; rfl), hc⟩

theorem Empty.inFlight (h : s.Empty) {timedOut : Bool} (hpc : s.pc = .left timedOut) :
    s.inFlight = [] := by
  obtain ⟨h1, h2, h3, -⟩ := h
  simp [RelayState.inFlight, forwards, held, h1, h2, h3, hpc]

def pastTaskPort : RelayPc → Bool
  | .devPort .main | .complete .main _ | .decLoad .main | .decStore .main _ | .wait => true
  | _ => false

structure Signalled (s : RelayState) : Prop where
  task : pastTaskPort s.pc = true → s.taskPort = [] ∨ s.sigTask = true
  dev : s.pc = .wait → s.devPort = [] ∨ s.sigDev = true

theorem step_signalled (hi : s.Signalled) (h : Step s e s') : s'.Signalled := by
  cases h with
  | put _ | abort => exact ⟨fun _ => Or.inr rfl, hi.dev⟩
  | reply _ => exact ⟨hi.task, fun _ => Or.inr rfl⟩
  | sync _ | deferred _ | count _ | ctrlC => exact ⟨hi.task, hi.dev⟩
  | taskEmpty hpc hp => exact ⟨fun _ => Or.inl hp, fun hw => by cases hw⟩
  | taskAbort hpc =>
    refine ⟨fun hp => ?_, fun hw => ?_⟩
    · change pastTaskPort s.pc = true at hp
      rw [hpc] at hp
      cases hp
    · exact absurd (hpc.symm.trans hw) RelayPc.noConfusion
  | mainEmpty hpc hp => exact ⟨fun _ => hi.task (by rw [hpc]; rfl), fun _ => Or.inl hp⟩
  | @devPort l _ _ hpc | @complete l _ hpc | @decLoad l hpc | @decStore l _ hpc =>
    refine ⟨fun hp => hi.task ?_, fun hw => by cases hw⟩
    rw [hpc]
    cases l with
    | main => rfl
    | drain => cases hp
  | taskForward | send | incLoad | incStore | drainEmpty | wake | shutDown | flush | leave
  | pending | timeout | delay =>
    exact ⟨fun hp => (by cases hp), fun hw => by cases hw⟩

def inRounds : RelayPc → Prop
  | .test cnt | .delay cnt | .devPort (.drain cnt) | .complete (.drain cnt) _
  | .decLoad (.drain cnt) | .decStore (.drain cnt) _ => cnt < 300
  | _ => True

theorem step_inRounds (hi : inRounds s.pc) (h : Step s e s') : inRounds s'.pc := by
  cases h with
  | put _ | sync _ | deferred _ | count _ | abort | reply _ | ctrlC | taskAbort => exact hi
  | taskEmpty | taskForward | send | incLoad | incStore | mainEmpty | wake | shutDown | leave
  | timeout => trivial
  | flush => exact (by norm_num : 0 < 300)
  | drainEmpty hpc | pending hpc =>
    rw [hpc] at hi
    exact hi
  | @devPort l _ _ hpc | @complete l _ hpc | @decLoad l hpc | @decStore l _ hpc =>
    rw [hpc] at hi
    cases l with
    | main => trivial
    | drain => exact hi
  | @delay cnt hpc hc =>
    rw [hpc] at hi
    change cnt < 300 at hi
    change cnt + 1 < 300
    omega

def rest : RelayPc → ℕ
  | .send _ => 15
  | .incLoad => 4
  | .incStore _ => 3
  | .taskPort => 2
  | .devPort l => loop l
  | .complete l _ => loop l + 3
  | .decLoad l => loop l + 2
  | .decStore l _ => loop l + 1
  | .flush => 902
  | .test cnt => 3 * (300 - cnt) + 1
  | .delay cnt => 3 * (300 - cnt)
  | .wait | .left _ => 0
where
  loop : RelayLoop → ℕ
    | .main => 1
    | .drain cnt => 3 * (300 - cnt) + 2

def work (s : RelayState) : ℕ :=
  14 * s.taskPort.length + 10 * s.hcd.length + 5 * s.devPort.length +
    (if s.sigTask || s.sigDev then 3 else 0) + (if s.sigCtrlC then 903 else 0) + rest s.pc

def Served : RelayEvent → Prop
  | .relay | .reply _ => True
  | _ => False

theorem work_lt (hi : inRounds s.pc) (he : Served e) (h : Step s e s') : s'.work < s.work := by
  cases h with
  | put | sync | deferred | count | abort | ctrlC => exact he.elim
  | reply hm =>
    have hpos := length_pos_of_mem hm
    simp only [work, length_append, length_singleton, length_erase_of_mem hm,
      Bool.or_true, if_true]
    omega
  | taskEmpty hpc hp => simp [work, hpc, rest, rest.loop]
  | taskAbort hpc hp | taskForward hpc hp =>
    simp only [work, hpc, hp, rest, length_cons]
    omega
  | send hpc =>
    simp only [work, hpc, rest, length_append, length_singleton]
    omega
  | devPort hpc hp =>
    simp only [work, hpc, hp, rest, length_cons]
    omega
  | mainEmpty hpc | drainEmpty hpc | incLoad hpc | incStore hpc | complete hpc | decLoad hpc
  | decStore hpc | flush hpc | leave hpc | pending hpc =>
    simp [work, hpc, rest, rest.loop]
  | timeout hpc =>
    simp only [work, hpc, rest]
    omega
  | wake hpc hs hc => rcases hs with hs | hs <;> simp [work, hpc, hs, hc, rest]
  | shutDown hpc hc =>
    simp only [work, hpc, hc, rest, Bool.or_self, Bool.false_eq_true, if_true, if_false]
    omega
  | @delay cnt hpc hc =>
    rw [hpc] at hi
    change cnt < 300 at hi
    simp only [work, hpc, rest, rest.loop]
    omega

theorem served_length (hi : inRounds s.pc) (he : ∀ e ∈ evs, Served e)
    (hr : Runs.Run step Runs.anyStep s evs s') : evs.length ≤ s.work := by
  have hinv : inRounds s'.pc ∧ ((∀ e ∈ evs, Served e) → evs.length + s'.work ≤ s.work) := by
    refine hr.invariant_trace (fun evs t =>
      inRounds t.pc ∧ ((∀ e ∈ evs, Served e) → evs.length + t.work ≤ s.work)) ⟨hi, by simp⟩ ?_
    intro evs t e u ⟨hi, ih⟩ _ hs
    obtain ⟨-, h⟩ := step_cases hs
    refine ⟨step_inRounds hi h, fun he => ?_⟩
    have hlt := work_lt hi (he e (by simp)) h
    have := ih fun e he' => he e (by simp [he'])
    rw [length_append, length_singleton]
    omega
  have := hinv.2 he
  omega

def Stopped (s : RelayState) : Prop := s.pDeviceTask = none ∧ s.hcd = []

theorem stopped_cases (h : s.pDeviceTask = none) :
    s.Gone ∨ s.pc = .wait ∧ s.sigTask = false ∧ s.sigDev = false := by
  unfold pDeviceTask at h
  split at h
  · split at h <;> cases h
  · cases h
  · cases h
  · cases h
  · split at h
    · split at h <;> cases h
    · cases h
  · cases h
  · cases h
  · cases h
  · rename_i hpc
    split at h
    · cases h
    · rename_i hs
      simp only [Bool.or_eq_true, not_or, Bool.not_eq_true] at hs
      exact Or.inr ⟨hpc, hs.1.1, hs.1.2⟩
  · cases h
  · cases h
  · split at h <;> cases h
  · rename_i b hpc
    exact Or.inl ⟨b, hpc⟩

structure Inv (s : RelayState) : Prop extends Accounted s, Counted s, Signalled s where
  shut : s.Shut
  inRounds : inRounds s.pc
  left : s.pc = .left false → s.Empty

theorem step_inv (hi : s.Inv) (hc : s.RelayCond e) (hs : s.step e = some s') : s'.Inv := by
  obtain ⟨hg, h⟩ := step_cases hs
  refine ⟨step_accounted hi.toAccounted h, step_counted hi.toCounted hg hc h,
    step_signalled hi.toSignalled h, step_shut hi.shut hc h, step_inRounds hi.inRounds h, ?_⟩
  intro hl
  cases h with
  | @leave cnt hpc h0 =>
    have hcount := hc.2 (by rw [hpc]; rfl) h0
    have hempty : s.Empty := leave_empty hi.toAccounted hi.toCounted hi.shut hpc h0 hcount
    exact hempty
  | put | sync | deferred | count | abort | reply | ctrlC | taskAbort => exact absurd ⟨_, hl⟩ hg
  | taskEmpty | taskForward | send | incLoad | incStore | mainEmpty | drainEmpty | devPort
  | complete | decLoad | decStore | wake | shutDown | flush | pending | timeout | delay => cases hl

structure Fresh (s : RelayState) : Prop where
  msgCount : s.msgCount = 0
  taskPort : s.taskPort = []
  devPort : s.devPort = []
  hcd : s.hcd = []
  counting : s.counting = []
  pc : s.pc = .taskPort
  submitted : s.submitted = []
  completed : s.completed = []

theorem Fresh.inv (h : s.Fresh) : s.Inv := by
  refine ⟨⟨fun pp => ?_, fun pp => ?_⟩, ⟨?_, fun _ => ?_, fun n hn => ?_⟩, ⟨fun _ => ?_, fun _ => ?_⟩,
    fun _ => h.taskPort, ?_, fun hl => ?_⟩
  · simp [inFlight, forwards, held, h.submitted, h.completed, h.taskPort, h.hcd, h.devPort, h.pc]
  · simp [inFlight, forwards, held, h.taskPort, h.hcd, h.devPort, h.pc]
  · rw [h.msgCount]
    norm_num
  · simp [uncounted, overcounted, h.msgCount, h.counting, h.hcd, h.devPort, h.pc]
  · rw [h.pc] at hn
    cases hn
  · exact Or.inl h.taskPort
  · exact Or.inl h.devPort
  · rw [h.pc]
    trivial
  · rw [h.pc] at hl
    cases hl

theorem Accounted.all_completed (h : s.Accounted) (he : s.inFlight = []) (pp : PipePtr) :
    s.completed.count pp = s.submitted.count pp := by
  have := h.submitted pp
  rw [he, count_nil] at this
  omega

theorem Inv.stopped (hi : s.Inv) (h : s.Stopped) (ht : s.pc ≠ .left true) : s.inFlight = [] := by
  rcases stopped_cases h.1 with ⟨b, hpc⟩ | ⟨hpc, h1, h2⟩
  · cases b with
    | true => exact absurd hpc ht
    | false => exact (hi.left hpc).inFlight hpc
  · have htask := (hi.task (by rw [hpc]; rfl)).resolve_right (by simp [h1])
    have hdev := (hi.dev hpc).resolve_right (by simp [h2])
    simp [inFlight, forwards, held, hpc, htask, hdev, h.2]

/-- In every run whose steps meet the condition, a submitted pipe has been completed once or is in
one place; the relay and the driver get done with what there is, and then all are completed, unless
the drain loop has timed out; and when it has ended otherwise, nothing is at the driver or on the
task port, and all are completed. -/
theorem relay_loses_none (h0 : s₀.Fresh) (hr : Runs.Run step RelayCond s₀ evs s) :
    s.Accounted ∧
      (∀ es t, (∀ e ∈ es, Served e) → Runs.Run step Runs.anyStep s es t → es.length ≤ s.work) ∧
      (s.Stopped → s.pc ≠ .left true → ∀ pp, s.completed.count pp = s.submitted.count pp) ∧
      (s.pc = .left false →
        s.Empty ∧ ∀ pp, s.completed.count pp = s.submitted.count pp) := by
  have hi : s.Inv := hr.invariant Inv h0.inv fun _ _ _ hi hc hs => step_inv hi hc hs
  refine ⟨hi.toAccounted, fun es t he h => served_length hi.inRounds he h, fun h ht => ?_,
    fun hl => ?_⟩
  · exact hi.all_completed (hi.stopped h ht)
  · exact ⟨hi.left hl, hi.all_completed ((hi.left hl).inFlight hl)⟩

def idleRelay (quick : Bool) : RelayState :=
  ⟨quick, 0, [], [], false, false, false, [], [], .taskPort, [], []⟩

theorem idleRelay_fresh (quick : Bool) : (idleRelay quick).Fresh :=
  ⟨rfl, rfl, rfl, rfl, rfl, rfl, rfl, rfl⟩

def pipeA : PipePtr := ⟨16, by decide, by decide⟩
def pipeB : PipePtr := ⟨32, by decide, by decide⟩

def drained : List RelayEvent :=
  [.begin pipeA false, .relay, .count pipeA, .relay, .ctrlC, .relay, .relay, .relay, .reply pipeA] ++
    List.replicate 7 .relay

theorem relay_loses_none_drained :
    let s := (Runs.exec step (idleRelay true) drained).get (by decide)
    s.Accounted ∧
      (∀ es t, (∀ e ∈ es, Served e) → Runs.Run step Runs.anyStep s es t → es.length ≤ s.work) ∧
      (s.Stopped → s.pc ≠ .left true → ∀ pp, s.completed.count pp = s.submitted.count pp) ∧
      (s.pc = .left false →
        s.Empty ∧ ∀ pp, s.completed.count pp = s.submitted.count pp) :=
  relay_loses_none (idleRelay_fresh true) (Runs.Run.get_meets (by decide) (by decide))

/-- CTRL-C comes together with a pipe, which stays on the task port. And on a quick hardware the
reply to a request that is not counted yet is counted for the other one, which is still at the
driver. -/
theorem relay_loses_some :
    ((idleRelay false).Fresh ∧
      ∃ s, Runs.Run step Runs.anyStep (idleRelay false)
          [.relay, .relay, .put pipeA, .ctrlC, .relay, .relay, .relay] s ∧
        s.pc = .left false ∧ s.taskPort = [.forward pipeA] ∧ s.completed.count pipeA = 0) ∧
    (idleRelay true).Fresh ∧
      ∃ s, Runs.Run step Runs.anyStep (idleRelay true)
          ([.relay, .relay, .begin pipeA false, .count pipeA, .begin pipeB false, .ctrlC, .relay,
            .relay, .relay, .reply pipeB] ++ List.replicate 7 .relay) s ∧
        s.pc = .left false ∧ s.hcd = [pipeA] ∧ pipeA ∉ s.counting ∧
          s.completed.count pipeA = 0 := by
  refine ⟨⟨idleRelay_fresh false, _, Runs.Run.get (by decide), ?_⟩,
    idleRelay_fresh true, _, Runs.Run.get (by decide), ?_⟩ <;> decide

end Neptune.RelayState
