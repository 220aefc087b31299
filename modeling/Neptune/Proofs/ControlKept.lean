import Neptune.Spec.AudioControl

/-! Where no mark is set behind the task's look at it, and no mode opened or closed beside another or beside
a change under way, the device has what was recorded last whenever the task is back in `Wait`. -/

namespace Neptune.AudioControl

open Option Function

open Runs NepClassAudio

variable {modes : ℕ → NepAudioMode} {s t : NepClassAudio} {c d : Control} {nam : ℕ}

theorem rank_inj (h : c.rank = d.rank) : c = d := by
  cases c <;> cases d <;> first | rfl | exact absurd h (by decide)

@[simp] theorem upd_same {α β : Type} [DecidableEq α] (f : α → β) (a : α) (b : β) : upd f a b a = b := if_pos rfl

theorem upd_ne {α β : Type} [DecidableEq α] (f : α → β) {a x : α} (b : β) (h : x ≠ a) : upd f a b x = f x := if_neg h

def Pc.past : Pc → Control → Prop
  | .wait, _ | .check, _ => False
  | .test d, c => c.rank < d.rank
  | .transfer d _ _ _, c => c.rank ≤ d.rank
  | .clear, _ => True

instance : ∀ (pc : Pc) (c : Control), Decidable (pc.past c)
  | .wait, _ | .check, _ => inferInstanceAs (Decidable False)
  | .test d, c => inferInstanceAs (Decidable (c.rank < d.rank))
  | .transfer d _ _ _, c => inferInstanceAs (Decidable (c.rank ≤ d.rank))
  | .clear, _ => inferInstanceAs (Decidable True)

def Pc.busy : Pc → Bool
  | .wait | .check => false
  | _ => true

/-- The input has been looked up for the monitor volume, and its mark not yet looked at. -/
def Pc.between : Pc → Bool
  | .transfer .inputGain _ _ _ | .test .monitorVolume => true
  | _ => false

/-- No mode is opened beside another, none closed with a change under way; no mark is set behind the task's
look at it; and no input brings back a gain or a monitor volume that was set without one. -/
def InTime (modes : ℕ → NepAudioMode) (s : NepClassAudio) : Event → Prop
  | .allocAudio _ => s.currentMode = none
  | .freeAudio _ => s.anyMark = false ∧ s.calls = []
  | .control nam c arg => c = .input → ∀ d ∈ [Control.inputGain, .monitorVolume], s.set nam d = true →
      s.transfers modes nam d = 0 → (modes nam).transfers arg d = 0
  | .mark i => ∀ call ∈ s.calls[i]?, ¬ s.pc.past call.control ∧
      (call.control = .monitorVolume → s.pc.between = true → (modes call.nam).transfers s.innau .monitorVolume = 0 →
        s.transfers modes call.nam .monitorVolume = 0)
  | .signal _ | .task => True

def Stored (s : NepClassAudio) (c : Control) : Prop := ∃ call ∈ s.calls, call.control = c ∧ call.marked = false

def Fresh (modes : ℕ → NepAudioMode) (s : NepClassAudio) (nam : ℕ) (c : Control) : Prop :=
  0 < s.transfers modes nam c → s.written c = some (s.value nam c)

def Will (s : NepClassAudio) (c : Control) : Prop :=
  Stored s c ∨ (s.updateFlags c = true ∧ ¬ s.pc.past c) ∨ ∃ k n got, s.pc = .transfer c k n got

structure Inv (modes : ℕ → NepAudioMode) (s : NepClassAudio) : Prop where
  one : ∀ nam, s.opened nam = true ↔ s.currentMode = some nam
  calls : ∀ call ∈ s.calls, s.currentMode = some call.nam ∧ s.set call.nam call.control = true
  marks : ∀ c, s.updateFlags c = true →
    ∃ nam, s.currentMode = some nam ∧ s.recorder c = some nam ∧ s.set nam c = true
  busy : s.pc.busy = true → (∃ c, s.updateFlags c = true) ∧ s.nam = s.currentMode
  told : ∀ c, s.updateFlags c = true → s.pc ≠ .wait ∨ s.signal = true ∨ ∃ call ∈ s.calls, call.marked = true
  switched : ∀ nam c, s.currentMode = some nam → s.set nam c = true → (modes nam).marks c = true
  moving : ∀ c k n got, s.pc = .transfer c k n got → s.updateFlags c = true
  steady : ∀ nam c k n got, s.currentMode = some nam → s.pc = .transfer c k n got →
    k = 0 ∨ got = some (s.value nam c) ∨ Stored s c
  window : ∀ nam, s.currentMode = some nam → s.pc.between = true → s.updateFlags .monitorVolume = true →
    (modes nam).transfers s.innau .monitorVolume = 0 → s.transfers modes nam .monitorVolume = 0
  due : ∀ nam c, s.currentMode = some nam → s.set nam c = true → Fresh modes s nam c ∨ Will s c

theorem anyMark_iff : s.anyMark = true ↔ ∃ c, s.updateFlags c = true := by
  constructor
  · intro h
    simp only [anyMark, Bool.or_eq_true] at h
    rcases h with (((h | h) | h) | h) | h <;> exact ⟨_, h⟩
  · rintro ⟨c, hc⟩
    cases c <;> simp [anyMark, hc]

theorem unmarked (h : s.anyMark = false) (c : Control) : s.updateFlags c = false := by
  by_contra hc
  exact absurd ((anyMark_iff.mpr ⟨c, eq_true_of_ne_false hc⟩).symm.trans h) nofun

theorem Inv.init : Inv modes AudioControl.init where
  one := fun _ => ⟨nofun, nofun⟩
  calls := nofun
  marks := nofun
  busy := nofun
  told := nofun
  switched := nofun
  moving := nofun
  steady := nofun
  window := nofun
  due := nofun

theorem Inv.closed (h : Inv modes s) (hnone : s.currentMode = none) :
    s.calls = [] ∧ (∀ c, s.updateFlags c = false) ∧ s.pc.busy = false := by
  have hflags : ∀ c, s.updateFlags c = false := by
    intro c
    by_contra hc
    obtain ⟨nam, hnam, -⟩ := h.marks c (eq_true_of_ne_false hc)
    exact absurd (hnone.symm.trans hnam) nofun
  refine ⟨List.eq_nil_iff_forall_not_mem.mpr fun call hcall => ?_, hflags, ?_⟩
  · exact absurd (hnone.symm.trans (h.calls call hcall).1) nofun
  · by_contra hbusy
    obtain ⟨⟨c, hc⟩, -⟩ := h.busy (eq_true_of_ne_false hbusy)
    exact absurd ((hflags c).symm.trans hc) nofun

theorem not_busy {pc : Pc} (h : pc.busy = false) : pc = .wait ∨ pc = .check := by
  cases pc <;> first | exact .inl rfl | exact .inr rfl | exact absurd h nofun

theorem Inv.allocAudio (h : Inv modes s) (hnone : s.currentMode = none) (nam : ℕ) :
    Inv modes { s.resetValues nam with
      currentMode := some nam, opened := upd s.opened nam true, set := upd s.set nam fun _ => false } := by
  obtain ⟨hcalls, hflags, hidle⟩ := h.closed hnone
  have hpc := not_busy hidle
  constructor
  · intro m
    dsimp only
    by_cases hm : m = nam
    · subst hm
      simp
    · rw [upd_ne _ _ hm, h.one, hnone]
      simp [Ne.symm hm]
  · intro call hcall
    exact absurd (hcalls ▸ hcall : call ∈ []) List.not_mem_nil
  · intro c hc
    exact absurd ((hflags c).symm.trans hc) nofun
  · intro hbusy
    exact absurd (hidle.symm.trans hbusy) nofun
  · intro c hc
    exact absurd ((hflags c).symm.trans hc) nofun
  · rintro _ c ⟨⟩ hset
    exact absurd ((congrFun (upd_same s.set nam _) c).symm.trans hset) nofun
  · intro c k n got hp
    exact absurd (show s.pc = .transfer c k n got from hp) (by rcases hpc with h | h <;> rw [h] <;> nofun)
  · rintro _ c k n got ⟨⟩ hp
    exact absurd (show s.pc = .transfer c k n got from hp) (by rcases hpc with h | h <;> rw [h] <;> nofun)
  · rintro _ ⟨⟩ hbetween
    exact absurd (show s.pc.between = true from hbetween) (by rcases hpc with h | h <;> rw [h] <;> nofun)
  · rintro _ c ⟨⟩ hset
    exact absurd ((congrFun (upd_same s.set nam _) c).symm.trans hset) nofun

theorem Inv.freeAudio (h : Inv modes s) (hunmarked : s.anyMark = false) (hcalls : s.calls = []) {nam : ℕ}
    (hopened : s.opened nam = true) :
    Inv modes { s with currentMode := none, opened := upd s.opened nam false } := by
  have hflags := unmarked hunmarked
  have hcurrent := (h.one nam).mp hopened
  constructor
  · intro m
    dsimp only
    by_cases hm : m = nam
    · subst hm
      simp
    · rw [upd_ne _ _ hm, h.one, hcurrent]
      simp [Ne.symm hm]
  · intro call hcall
    exact absurd (hcalls ▸ hcall : call ∈ []) List.not_mem_nil
  · intro c hc
    exact absurd ((hflags c).symm.trans hc) nofun
  · intro hbusy
    obtain ⟨⟨c, hc⟩, -⟩ := h.busy hbusy
    exact absurd ((hflags c).symm.trans hc) nofun
  · intro c hc
    exact absurd ((hflags c).symm.trans hc) nofun
  · nofun
  · exact h.moving
  · nofun
  · nofun
  · nofun

theorem Inv.record (h : Inv modes s) (hcurrent : s.currentMode = some nam) (hplain : (modes nam).marks c = false)
    (arg : ℤ) : Inv modes { s with value := upd s.value nam (upd (s.value nam) c arg) } := by
  have hunset : s.set nam c = false := by
    by_contra hset
    exact absurd (hplain.symm.trans (h.switched nam c hcurrent (eq_true_of_ne_false hset))) nofun
  have hinput : Control.input ≠ c := by
    rintro rfl
    exact absurd hplain nofun
  have hvalue : ∀ d, d ≠ c → upd s.value nam (upd (s.value nam) c arg) nam d = s.value nam d := by
    intro d hd
    rw [upd_same, upd_ne _ _ hd]
  have hother : ∀ d, s.set nam d = true → d ≠ c := by
    rintro d hset rfl
    exact absurd (hunset.symm.trans hset) nofun
  constructor
  · exact h.one
  · exact h.calls
  · exact h.marks
  · exact h.busy
  · exact h.told
  · exact h.switched
  · exact h.moving
  · intro m d k n got hm hp
    obtain rfl : nam = m := some.inj (hcurrent.symm.trans hm)
    obtain ⟨m, hm', -, hset⟩ := h.marks d (h.moving d k n got hp)
    obtain rfl : nam = m := some.inj (hcurrent.symm.trans hm')
    dsimp only
    rw [hvalue d (hother d hset)]
    exact h.steady nam d k n got hm hp
  · intro m hm hbetween hmark hnone
    obtain rfl : nam = m := some.inj (hcurrent.symm.trans hm)
    unfold transfers
    dsimp only
    rw [hvalue .input hinput]
    exact h.window nam hm hbetween hmark hnone
  · intro m d hm hset
    obtain rfl : nam = m := some.inj (hcurrent.symm.trans hm)
    refine (h.due nam d hm hset).imp (fun hfresh => ?_) id
    unfold Fresh transfers
    dsimp only
    rw [hvalue d (hother d hset), hvalue .input hinput]
    exact hfresh

theorem transfers_input {nam : NepAudioMode} {input input' : ℤ} (hgain : c ≠ .inputGain) (hmonitor : c ≠ .monitorVolume) :
    nam.transfers input c = nam.transfers input' c := by
  cases c with
  | inputGain => exact absurd rfl hgain
  | monitorVolume => exact absurd rfl hmonitor
  | input | output | masterVolume => rfl

theorem Inv.store (h : Inv modes s) (hcurrent : s.currentMode = some nam) (hmarks : (modes nam).marks c = true)
    {arg : ℤ} (hin : InTime modes s (.control nam c arg)) :
    Inv modes { s with
      value := upd s.value nam (upd (s.value nam) c arg)
      calls := s.calls ++ [⟨nam, c, false⟩]
      set := upd s.set nam (upd (s.set nam) c true) } := by
  have hvalue : ∀ d, d ≠ c → upd s.value nam (upd (s.value nam) c arg) nam d = s.value nam d := by
    intro d hd
    rw [upd_same, upd_ne _ _ hd]
  have hset : ∀ d, d ≠ c → upd s.set nam (upd (s.set nam) c true) nam d = s.set nam d := by
    intro d hd
    rw [upd_same, upd_ne _ _ hd]
  have hsetc : upd s.set nam (upd (s.set nam) c true) nam c = true := by rw [upd_same, upd_same]
  have hkeeps : ∀ d, s.set nam d = true → upd s.set nam (upd (s.set nam) c true) nam d = true := by
    intro d hd
    by_cases hdc : d = c
    · rw [hdc]
      exact hsetc
    · rw [hset d hdc]
      exact hd
  have hstored : ∀ d, Stored s d → ∃ call ∈ s.calls ++ [⟨nam, c, false⟩], call.control = d ∧ call.marked = false :=
    fun d ⟨call, hcall, h⟩ => ⟨call, List.mem_append_left _ hcall, h⟩
  have hnew : ∃ call ∈ s.calls ++ [⟨nam, c, false⟩], call.control = c ∧ call.marked = false :=
    ⟨_, List.mem_append_right _ (List.mem_singleton.mpr rfl), rfl, rfl⟩
  -- an input brings back no control that was set
  have htransfers : ∀ d, s.set nam d = true → s.transfers modes nam d = 0 →
      (modes nam).transfers (upd s.value nam (upd (s.value nam) c arg) nam .input) d = 0 := by
    intro d hd hnone
    by_cases hc : c = .input
    · subst hc
      rw [upd_same, upd_same]
      by_cases hgain : d = .inputGain
      · exact hin rfl d (by rw [hgain]; decide) hd hnone
      by_cases hmonitor : d = .monitorVolume
      · exact hin rfl d (by rw [hmonitor]; decide) hd hnone
      · rw [transfers_input hgain hmonitor]
        exact hnone
    · rw [hvalue .input (Ne.symm hc)]
      exact hnone
  constructor
  · exact h.one
  · intro call hcall
    rcases List.mem_append.mp hcall with hcall | hcall
    · obtain ⟨hm, hs⟩ := h.calls call hcall
      refine ⟨hm, ?_⟩
      obtain rfl : nam = call.nam := some.inj (hcurrent.symm.trans hm)
      exact hkeeps _ hs
    · obtain rfl := List.mem_singleton.mp hcall
      exact ⟨hcurrent, hsetc⟩
  · intro d hd
    obtain ⟨m, hm, hrec, hs⟩ := h.marks d hd
    obtain rfl : nam = m := some.inj (hcurrent.symm.trans hm)
    exact ⟨nam, hm, hrec, hkeeps d hs⟩
  · exact h.busy
  · intro d hd
    rcases h.told d hd with h | h | ⟨call, hcall, hmarked⟩
    · exact .inl h
    · exact .inr (.inl h)
    · exact .inr (.inr ⟨call, List.mem_append_left _ hcall, hmarked⟩)
  · intro m d hm hs
    obtain rfl : nam = m := some.inj (hcurrent.symm.trans hm)
    by_cases hdc : d = c
    · rw [hdc]
      exact hmarks
    · exact h.switched nam d hm ((hset d hdc).symm.trans hs)
  · exact h.moving
  · intro m d k n got hm hp
    obtain rfl : nam = m := some.inj (hcurrent.symm.trans hm)
    by_cases hdc : d = c
    · subst hdc
      exact .inr (.inr hnew)
    · dsimp only
      rw [hvalue d hdc]
      exact (h.steady nam d k n got hm hp).imp_right (Or.imp_right (hstored d))
  · intro m hm hbetween hmark hnone
    obtain rfl : nam = m := some.inj (hcurrent.symm.trans hm)
    obtain ⟨m, hm', -, hs⟩ := h.marks .monitorVolume hmark
    obtain rfl : nam = m := some.inj (hcurrent.symm.trans hm')
    exact htransfers .monitorVolume hs (h.window nam hm hbetween hmark hnone)
  · intro m d hm hs
    obtain rfl : nam = m := some.inj (hcurrent.symm.trans hm)
    by_cases hdc : d = c
    · subst hdc
      exact .inr (.inl hnew)
    · have hs : s.set nam d = true := (hset d hdc).symm.trans hs
      refine (h.due nam d hm hs).imp (fun hfresh htransfer => ?_) (Or.imp_left (hstored d))
      dsimp only
      rw [hvalue d hdc]
      exact hfresh (Nat.pos_of_ne_zero fun hnone => absurd (htransfers d hs hnone) (Nat.ne_of_gt htransfer))

theorem Inv.control (h : Inv modes s) (hopened : s.opened nam = true) {arg : ℤ}
    (hin : InTime modes s (.control nam c arg)) : Inv modes (s.control modes nam c arg) := by
  have hcurrent := (h.one nam).mp hopened
  unfold NepClassAudio.control
  split
  · split
    · next hmarks => exact h.store hcurrent hmarks hin
    · next hplain => exact h.record hcurrent (eq_false_of_ne_true hplain) arg
  · exact h

theorem Inv.mark (h : Inv modes s) {i : ℕ} {call : Call} (hcall : s.calls[i]? = some call)
    (hin : InTime modes s (.mark i)) : Inv modes (s.mark i call) := by
  obtain ⟨hpast, hwindow⟩ := hin call hcall
  have hmem := List.mem_of_getElem? hcall
  obtain ⟨hcurrent, hset⟩ := h.calls call hmem
  obtain ⟨hi, hget⟩ := List.getElem?_eq_some_iff.mp hcall
  -- the other calls stay
  have hstored : ∀ d, d ≠ call.control → Stored s d → Stored (s.mark i call) d := by
    rintro d hd ⟨other, hother, hcontrol, hunmarked⟩
    obtain ⟨j, hj, hjget⟩ := List.mem_iff_getElem.mp hother
    have hij : i ≠ j := by
      rintro rfl
      exact hd (hcontrol.symm.trans (congrArg Call.control (hjget.symm.trans hget)))
    refine ⟨other, List.mem_iff_getElem?.mpr ⟨j, ?_⟩, hcontrol, hunmarked⟩
    show (s.calls.set i _)[j]? = _
    rw [List.getElem?_set_ne hij, List.getElem?_eq_getElem hj, hjget]
  have hflags : ∀ d, (s.mark i call).updateFlags d = true → d = call.control ∨ s.updateFlags d = true := by
    intro d hd
    by_cases hdc : d = call.control
    · exact .inl hdc
    · exact .inr ((upd_ne s.updateFlags true hdc).symm.trans hd)
  have hraised : ∀ d, s.updateFlags d = true → (s.mark i call).updateFlags d = true := by
    intro d hd
    by_cases hdc : d = call.control
    · rw [hdc]
      exact upd_same ..
    · exact (upd_ne s.updateFlags true hdc).trans hd
  constructor
  · exact h.one
  · intro other hother
    rcases List.mem_or_eq_of_mem_set hother with hother | rfl
    · exact h.calls other hother
    · exact ⟨hcurrent, hset⟩
  · intro d hd
    by_cases hdc : d = call.control
    · subst hdc
      exact ⟨call.nam, hcurrent, upd_same .., hset⟩
    · obtain ⟨m, hm, hrec, hs⟩ := h.marks d ((hflags d hd).resolve_left hdc)
      exact ⟨m, hm, (upd_ne s.recorder _ hdc).trans hrec, hs⟩
  · intro hbusy
    obtain ⟨⟨d, hd⟩, hnam⟩ := h.busy hbusy
    exact ⟨⟨d, hraised d hd⟩, hnam⟩
  · intro _ _
    exact .inr (.inr ⟨{ call with marked := true }, List.mem_set hi _, rfl⟩)
  · exact h.switched
  · exact fun d k n got hp => hraised d (h.moving d k n got hp)
  · intro m d k n got hm hp
    have hdc : d ≠ call.control := by
      rintro rfl
      have hp : s.pc = .transfer call.control k n got := hp
      rw [hp] at hpast
      exact hpast (Nat.le_refl _)
    exact (h.steady m d k n got hm hp).imp_right (Or.imp_right (hstored d hdc))
  · intro m hm hbetween hmark hnone
    obtain rfl : call.nam = m := some.inj (hcurrent.symm.trans hm)
    rcases hflags _ hmark with hc | hmark
    · exact hwindow hc.symm hbetween hnone
    · exact h.window call.nam hm hbetween hmark hnone
  · intro m d hm hs
    by_cases hdc : d = call.control
    · subst hdc
      exact .inr (.inr (.inl ⟨upd_same .., hpast⟩))
    · refine (h.due m d hm hs).imp id ?_
      exact Or.imp (hstored d hdc) (Or.imp_left fun hw => ⟨hraised d hw.1, hw.2⟩)

theorem Inv.signal (h : Inv modes s) {i : ℕ} {call : Call} (hcall : s.calls[i]? = some call)
    (hmarked : call.marked = true) : Inv modes { s with signal := true, calls := s.calls.eraseIdx i } := by
  obtain ⟨hi, hget⟩ := List.getElem?_eq_some_iff.mp hcall
  have hstored : ∀ d, Stored s d → ∃ call ∈ s.calls.eraseIdx i, call.control = d ∧ call.marked = false := by
    rintro d ⟨other, hother, hcontrol, hunmarked⟩
    obtain ⟨j, hj, hjget⟩ := List.mem_iff_getElem.mp hother
    have hij : j ≠ i := by
      rintro rfl
      rw [← hjget, hget, hmarked] at hunmarked
      exact absurd hunmarked nofun
    exact ⟨other, List.mem_eraseIdx_iff_getElem.mpr ⟨j, hj, hij, hjget⟩, hcontrol, hunmarked⟩
  constructor
  · exact h.one
  · exact fun other hother => h.calls other (List.mem_of_mem_eraseIdx hother)
  · exact h.marks
  · exact h.busy
  · exact fun _ _ => .inr (.inl rfl)
  · exact h.switched
  · exact h.moving
  · exact fun m d k n got hm hp => (h.steady m d k n got hm hp).imp_right (Or.imp_right (hstored d))
  · exact h.window
  · exact fun m d hm hs => (h.due m d hm hs).imp id (Or.imp_left (hstored d))

theorem Inv.moved (h : Inv modes s) {signal : Bool} {pc : Pc} (hbusy : pc.busy = false)
    (htold : ∀ c, s.updateFlags c = true → pc ≠ .wait ∨ signal = true ∨ ∃ call ∈ s.calls, call.marked = true)
    (hwas : s.pc.busy = false) : Inv modes { s with signal := signal, pc := pc } := by
  have hpast : ∀ c, ¬ pc.past c := by
    intro c
    rcases not_busy hbusy with rfl | rfl <;> exact id
  have hnot : ∀ {q : Pc}, q.busy = false → ∀ c k n got, q ≠ .transfer c k n got := by
    rintro q hq c k n got rfl
    exact absurd hq nofun
  constructor
  · exact h.one
  · exact h.calls
  · exact h.marks
  · exact fun hp => absurd (hbusy.symm.trans hp) nofun
  · exact htold
  · exact h.switched
  · exact fun c k n got hp => absurd hp (hnot hbusy c k n got)
  · exact fun m c k n got _ hp => absurd hp (hnot hbusy c k n got)
  · intro m _ hbetween
    rcases not_busy hbusy with rfl | rfl <;> exact absurd hbetween nofun
  · intro m c hm hs
    refine (h.due m c hm hs).imp id (Or.imp_right ?_)
    rintro (⟨hmark, -⟩ | ⟨k, n, got, hp⟩)
    · exact .inl ⟨hmark, hpast c⟩
    · exact absurd hp (hnot hwas c k n got)

theorem Inv.pass (h : Inv modes s) (hmark : ∃ c, s.updateFlags c = true) (hcheck : s.pc = .check) :
    Inv modes { s with nam := s.currentMode, pc := .test .input } := by
  constructor
  · exact h.one
  · exact h.calls
  · exact h.marks
  · exact fun _ => ⟨hmark, rfl⟩
  · exact fun _ _ => .inl nofun
  · exact h.switched
  · nofun
  · nofun
  · nofun
  · intro m c hm hs
    refine (h.due m c hm hs).imp id (Or.imp_right ?_)
    rintro (⟨hmark, -⟩ | ⟨k, n, got, hp⟩)
    · exact .inl ⟨hmark, Nat.not_lt_zero _⟩
    · exact absurd (hcheck.symm.trans hp) nofun

theorem past_onward (h : d ≠ c) : ((c.next.map Pc.test).getD .clear).past d ↔ d.rank < c.rank := by
  cases c <;> cases d <;> first | exact absurd rfl h | decide

theorem between_onward (h : ((c.next.map Pc.test).getD .clear).between = true) : c = .inputGain := by
  cases c <;> first | rfl | exact absurd h nofun

theorem Inv.onward (h : Inv modes s) (hpc : s.pc = .test c ∨ ∃ k n got, s.pc = .transfer c k n got) {innau : ℤ}
    {written : Control → Option ℤ} (hwritten : ∀ d, d ≠ c → written d = s.written d)
    (hwindow : c = .inputGain → ∀ nam, s.currentMode = some nam → s.updateFlags .monitorVolume = true →
      (modes nam).transfers innau .monitorVolume = 0 → s.transfers modes nam .monitorVolume = 0)
    (hdone : ∀ nam, s.currentMode = some nam → s.set nam c = true →
      (0 < s.transfers modes nam c → written c = some (s.value nam c)) ∨ Stored s c) :
    Inv modes ({ s with innau := innau, written := written }.onward c) := by
  have hbusy : s.pc.busy = true := by
    rcases hpc with hpc | ⟨k, n, got, hpc⟩ <;> rw [hpc] <;> rfl
  have hnot : ∀ d k n got, (c.next.map Pc.test).getD .clear ≠ .transfer d k n got := by
    cases c <;> nofun
  constructor
  · exact h.one
  · exact h.calls
  · exact h.marks
  · exact fun _ => h.busy hbusy
  · intro _ _
    refine .inl ?_
    show (c.next.map Pc.test).getD .clear ≠ .wait
    cases c <;> nofun
  · exact h.switched
  · exact fun d k n got hp => absurd hp (hnot d k n got)
  · exact fun m d k n got _ hp => absurd hp (hnot d k n got)
  · exact fun m hm hbetween hmark hnone => hwindow (between_onward hbetween) m hm hmark hnone
  · intro m d hm hs
    by_cases hd : d = c
    · subst hd
      exact (hdone m hm hs).imp id .inl
    · refine (h.due m d hm hs).imp (fun hfresh htransfer => (hwritten d hd).trans (hfresh htransfer)) (Or.imp_right ?_)
      rintro (⟨hmark, hpast⟩ | ⟨k, n, got, hp⟩)
      · refine .inl ⟨hmark, fun hp => ?_⟩
        have hlt := (past_onward hd).mp hp
        rcases hpc with hpc | ⟨k, n, got, hpc⟩ <;> rw [hpc] at hpast
        · exact hpast hlt
        · exact hpast (Nat.le_of_lt hlt)
      · rcases hpc with hpc | ⟨k', n', got', hpc⟩
        · exact absurd (hpc.symm.trans hp) nofun
        · exact absurd (Pc.transfer.inj (hpc.symm.trans hp)).1.symm hd

theorem Inv.test (h : Inv modes s) (hpc : s.pc = .test c) (hnam : s.currentMode = some nam) :
    Inv modes
      (if s.updateFlags c && (modes nam).transfers (s.lookup nam c) c != 0 then
        { s with innau := s.lookup nam c, pc := .transfer c 0 ((modes nam).transfers (s.lookup nam c) c) none }
      else { s with innau := s.lookup nam c }.onward c) := by
  -- what the task has looked up is right, or it is the monitor volume's and does no harm
  have hnow : c ≠ .monitorVolume → (modes nam).transfers (s.lookup nam c) c = s.transfers modes nam c := by
    intro hc
    unfold lookup
    split
    · rfl
    · next hgain => exact transfers_input hgain hc
  have hwindow : c = .inputGain → (modes nam).transfers (s.lookup nam c) .monitorVolume = 0 →
      s.transfers modes nam .monitorVolume = 0 := by
    rintro rfl hnone
    exact hnone
  split
  · next hboth =>
    obtain ⟨hmark, -⟩ := Bool.and_eq_true_iff.mp hboth
    constructor
    · exact h.one
    · exact h.calls
    · exact h.marks
    · exact fun _ => h.busy (by rw [hpc]; rfl)
    · exact fun _ _ => .inl nofun
    · exact h.switched
    · rintro d k n got ⟨⟩
      exact hmark
    · rintro m d k n got _ ⟨⟩
      exact .inl rfl
    · intro m hm hbetween _ hnone
      obtain rfl : nam = m := some.inj (hnam.symm.trans hm)
      have hc : c = .inputGain := by
        cases c <;> first | rfl | exact absurd hbetween nofun
      exact hwindow hc hnone
    · intro m d hm hs
      by_cases hd : d = c
      · subst hd
        exact .inr (.inr (.inr ⟨_, _, _, rfl⟩))
      · refine (h.due m d hm hs).imp id (Or.imp_right ?_)
        rintro (⟨hmark, hpast⟩ | ⟨k, n, got, hp⟩)
        · rw [hpc] at hpast
          refine .inl ⟨hmark, fun hle => ?_⟩
          exact hd (rank_inj (Nat.le_antisymm hle (Nat.not_lt.mp hpast)))
        · exact absurd (hpc.symm.trans hp) nofun
  · next hnot =>
    refine h.onward (.inl hpc) (fun _ _ => rfl) ?_ ?_
    · intro hc m hm _ hnone
      obtain rfl : nam = m := some.inj (hnam.symm.trans hm)
      exact hwindow hc hnone
    · intro m hm hs
      obtain rfl : nam = m := some.inj (hnam.symm.trans hm)
      rcases h.due nam c hm hs with hfresh | hstored | ⟨hmark, -⟩ | ⟨k, n, got, hp⟩
      · exact .inl hfresh
      · exact .inr hstored
      · -- marked, but the mode has no such control
        have hnone : (modes nam).transfers (s.lookup nam c) c = 0 := by
          by_contra hsome
          exact hnot (by rw [hmark, bne_iff_ne.mpr hsome]; rfl)
        refine .inl fun htransfer => absurd ?_ (Nat.ne_of_gt htransfer)
        by_cases hc : c = .monitorVolume
        · subst hc
          exact h.window nam hm (by rw [hpc]; rfl) hmark hnone
        · rw [← hnow hc]
          exact hnone
      · exact absurd (hpc.symm.trans hp) nofun

theorem Inv.transfer (h : Inv modes s) {k n : ℕ} {got : Option ℤ} (hpc : s.pc = .transfer c k n got)
    (hnam : s.currentMode = some nam) :
    let now := if k = 0 ∨ got = some (s.value nam c) then some (s.value nam c) else none
    Inv modes
      (if k + 1 < n then { s with pc := .transfer c (k + 1) n now }
      else { s with written := upd s.written c now }.onward c) := by
  intro now
  have hsteady : now = some (s.value nam c) ∨ Stored s c := by
    rcases h.steady nam c k n got hnam hpc with hk | hgot | hstored
    · exact .inl (if_pos (.inl hk))
    · exact .inl (if_pos (.inr hgot))
    · exact .inr hstored
  split
  · constructor
    · exact h.one
    · exact h.calls
    · exact h.marks
    · exact fun _ => h.busy (by rw [hpc]; rfl)
    · exact fun _ _ => .inl nofun
    · exact h.switched
    · rintro d k' n' got' ⟨⟩
      exact h.moving c k n got hpc
    · rintro m d k' n' got' hm ⟨⟩
      obtain rfl : nam = m := some.inj (hnam.symm.trans hm)
      exact .inr hsteady
    · intro m hm hbetween
      refine h.window m hm ?_
      rw [hpc]
      cases c <;> first | rfl | exact absurd hbetween nofun
    · intro m d hm hs
      refine (h.due m d hm hs).imp id (Or.imp_right (Or.imp ?_ ?_))
      · rintro ⟨hmark, hpast⟩
        rw [hpc] at hpast
        exact ⟨hmark, hpast⟩
      · rintro ⟨k', n', got', hp⟩
        obtain ⟨rfl, -⟩ := Pc.transfer.inj (hpc.symm.trans hp)
        exact ⟨_, _, _, rfl⟩
  · refine h.onward (.inr ⟨k, n, got, hpc⟩) (fun d hd => upd_ne _ _ hd) ?_ ?_
    · rintro rfl m hm hmark hnone
      exact h.window m hm (by rw [hpc]; rfl) hmark hnone
    · intro m hm hs
      obtain rfl : nam = m := some.inj (hnam.symm.trans hm)
      refine hsteady.imp (fun hnow _ => ?_) id
      rw [upd_same]
      exact hnow

theorem Inv.clear (h : Inv modes s) (hpc : s.pc = .clear) :
    Inv modes { s with updateFlags := fun _ => false, pc := .wait } := by
  constructor
  · exact h.one
  · exact h.calls
  · nofun
  · nofun
  · nofun
  · exact h.switched
  · nofun
  · nofun
  · nofun
  · intro m c hm hs
    refine (h.due m c hm hs).imp id ?_
    rintro (hstored | ⟨-, hpast⟩ | ⟨k, n, got, hp⟩)
    · exact .inl hstored
    · rw [hpc] at hpast
      exact absurd trivial hpast
    · exact absurd (hpc.symm.trans hp) nofun

theorem Inv.task (h : Inv modes s) (hs : s.task modes = some t) : Inv modes t := by
  unfold NepClassAudio.task at hs
  split at hs
  · next hpc =>
    obtain ⟨-, rfl⟩ := of_guard hs
    exact h.moved rfl (fun _ _ => .inl nofun) (by rw [hpc]; rfl)
  · next hpc =>
    split at hs
    · next hmark =>
      obtain rfl := some.inj hs
      exact h.pass (anyMark_iff.mp hmark) hpc
    · next hnone =>
      obtain rfl := some.inj hs
      have hflags := unmarked (eq_false_of_ne_true hnone)
      exact h.moved rfl (fun c hc => absurd ((hflags c).symm.trans hc) nofun) (by rw [hpc]; rfl)
  · next c hpc =>
    obtain ⟨nam, hnam, rfl⟩ := map_eq_some_iff.mp hs
    exact h.test hpc ((h.busy (by rw [hpc]; rfl)).2.symm.trans hnam)
  · next c k n got hpc =>
    obtain ⟨nam, hnam, rfl⟩ := map_eq_some_iff.mp hs
    exact h.transfer hpc ((h.busy (by rw [hpc]; rfl)).2.symm.trans hnam)
  · next hpc =>
    obtain rfl := some.inj hs
    exact h.clear hpc

theorem Inv.step {e : Event} (h : Inv modes s) (hin : InTime modes s e) (hs : step modes s e = some t) : Inv modes t := by
  cases e with
  | allocAudio nam =>
    obtain ⟨-, rfl⟩ := of_guard hs
    exact h.allocAudio hin nam
  | freeAudio nam =>
    obtain ⟨hopened, rfl⟩ := of_guard hs
    exact h.freeAudio hin.1 hin.2 hopened
  | control nam c arg =>
    obtain ⟨hopened, rfl⟩ := of_guard hs
    exact h.control hopened hin
  | mark i =>
    cases hcall : s.calls[i]? with
    | none =>
      simp only [AudioControl.step, hcall] at hs
      exact absurd hs nofun
    | some call =>
      simp only [AudioControl.step, hcall] at hs
      obtain ⟨-, rfl⟩ := of_guard hs
      exact h.mark hcall hin
  | signal i =>
    cases hcall : s.calls[i]? with
    | none =>
      simp only [AudioControl.step, hcall] at hs
      exact absurd hs nofun
    | some call =>
      simp only [AudioControl.step, hcall] at hs
      obtain ⟨hmarked, rfl⟩ := of_guard hs
      exact h.signal hcall hmarked
  | task => exact h.task hs

/-- The task works on the open mode that recorded what is marked. With no call and no signal under way, the
device has what the open mode recorded. -/
structure Applied (modes : ℕ → NepAudioMode) (s : NepClassAudio) : Prop where
  pass : s.pc.busy = true → ∃ nam, s.currentMode = some nam ∧ s.nam = some nam ∧ s.opened nam = true ∧
    ∀ c, s.updateFlags c = true → s.recorder c = some nam
  rest : s.pc = .wait → s.signal = false → s.calls = [] → ∀ nam c, s.opened nam = true → s.set nam c = true →
    0 < s.transfers modes nam c → s.written c = some (s.value nam c)

theorem Inv.applied (h : Inv modes s) : Applied modes s := by
  constructor
  · intro hbusy
    obtain ⟨⟨c, hc⟩, hnam⟩ := h.busy hbusy
    obtain ⟨nam, hcurrent, -⟩ := h.marks c hc
    refine ⟨nam, hcurrent, hnam.trans hcurrent, (h.one nam).mpr hcurrent, fun d hd => ?_⟩
    obtain ⟨m, hm, hrec, -⟩ := h.marks d hd
    rwa [some.inj (hcurrent.symm.trans hm)]
  · intro hwait hsignal hcalls nam c hopened hset htransfer
    have hmark : s.updateFlags c ≠ true := by
      intro hc
      rcases h.told c hc with hpc | hraised | ⟨call, hcall, -⟩
      · exact hpc hwait
      · exact absurd (hsignal.symm.trans hraised) nofun
      · exact absurd (hcalls ▸ hcall : call ∈ []) List.not_mem_nil
    rcases h.due nam c ((h.one nam).mp hopened) hset with hfresh | ⟨call, hcall, -⟩ | ⟨hc, -⟩ | ⟨k, n, got, hp⟩
    · exact hfresh htransfer
    · exact absurd (hcalls ▸ hcall : call ∈ []) List.not_mem_nil
    · exact absurd hc hmark
    · exact absurd (hwait.symm.trans hp) nofun

instance : ∀ (s : NepClassAudio) (e : Event), Decidable (InTime modes s e)
  | s, .allocAudio _ => inferInstanceAs (Decidable (s.currentMode = none))
  | s, .freeAudio _ => inferInstanceAs (Decidable (s.anyMark = false ∧ s.calls = []))
  | s, .control nam c arg => inferInstanceAs (Decidable (c = .input → ∀ d ∈ [Control.inputGain, .monitorVolume],
      s.set nam d = true → s.transfers modes nam d = 0 → (modes nam).transfers arg d = 0))
  | s, .mark i => inferInstanceAs (Decidable (∀ call ∈ s.calls[i]?, ¬ s.pc.past call.control ∧
      (call.control = .monitorVolume → s.pc.between = true → (modes call.nam).transfers s.innau .monitorVolume = 0 →
        s.transfers modes call.nam .monitorVolume = 0)))
  | _, .signal _ | _, .task => inferInstanceAs (Decidable True)

def headset : NepAudioMode := ⟨1, 1, false, false, 0, 1, fun _ => 0, fun _ => 0⟩

def louder : List Event :=
  [.allocAudio 0, .control 0 .masterVolume 0x8000, .mark 0, .signal 0] ++ List.replicate 6 .task

end Neptune.AudioControl
