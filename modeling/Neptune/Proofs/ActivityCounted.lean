import Neptune.Spec.Activity

/-! `pd_IOBusyCount` is the number of transfers in flight and running streams. -/

namespace Neptune.Activity

open Option Finset

open Runs

variable {ι : Type} [DecidableEq ι] {pd t : PsdDevice ι} {n m : ι} {pp : PsdPipe}

@[simp] theorem setPipe_self : (pd.setPipe n pp).pipe n = pp := Function.update_self ..

@[simp] theorem setPipe_ne (h : m ≠ n) : (pd.setPipe n pp).pipe m = pd.pipe m := Function.update_of_ne h ..

theorem busy_setPipe [Fintype ι] (pd : PsdDevice ι) (n : ι) (pp : PsdPipe) :
    (pd.setPipe n pp).busy + (pd.pipe n).share = pd.busy + pp.share := by
  have hrest : ∑ m ∈ univ.erase n, ((pd.setPipe n pp).pipe m).share =
      ∑ m ∈ univ.erase n, (pd.pipe m).share :=
    sum_congr rfl fun m hm => by rw [setPipe_ne (ne_of_mem_erase hm)]
  unfold PsdDevice.busy
  rw [← add_sum_erase _ _ (mem_univ n), hrest, setPipe_self,
    ← add_sum_erase (f := fun m => (pd.pipe m).share) _ (mem_univ n)]
  omega

omit [DecidableEq ι] in
theorem share_le_busy [Fintype ι] (pd : PsdDevice ι) (n : ι) : (pd.pipe n).share ≤ pd.busy :=
  single_le_sum (f := fun m => (pd.pipe m).share) (fun _ _ => Nat.zero_le _) (mem_univ n)

def Stage.command : Stage → Option Command
  | .beginning (.command c) _ | .begun (.command c) | .out (.command c) _ | .ending (.command c) _ | .answered c => some c
  | .holding start _ => some (if start then .start else .stop)
  | _ => none

def Stage.counting : Stage → Option Use
  | .beginning use _ | .begun use | .ending use _ => some use
  | _ => none

/-- The flag pairs an end with its begin, the library's own ops have neither, and handlers are started and stopped in
turn. -/
structure PsdPipe.Ok (pp : PsdPipe) : Prop where
  activity : pp.activity = pp.stage.marked
  own : pp.stage.counting ≠ some .lifecycle
  start : pp.stage.command = some .start → pp.running = false
  stop : pp.stage.command = some .stop → pp.running = true

theorem PsdPipe.Ok.goesOn {pp pp' : PsdPipe} (h : pp.Ok) (hactivity : pp'.activity = pp'.stage.marked)
    (hown : pp'.stage.counting ≠ some .lifecycle) (hrunning : pp'.running = pp.running)
    (hcommand : pp'.stage.command = pp.stage.command) : pp'.Ok :=
  ⟨hactivity, hown, fun hs => hrunning.trans (h.start (hcommand ▸ hs)),
    fun hs => hrunning.trans (h.stop (hcommand ▸ hs))⟩

theorem PsdPipe.Ok.free {pp : PsdPipe} (hactivity : pp.activity = pp.stage.marked)
    (hown : pp.stage.counting ≠ some .lifecycle) (hcommand : pp.stage.command = none) : pp.Ok :=
  ⟨hactivity, hown, fun hs => (nomatch hcommand.symm.trans hs), fun hs => nomatch hcommand.symm.trans hs⟩

structure Inv [Fintype ι] (pd : PsdDevice ι) : Prop where
  ok : ∀ n, (pd.pipe n).Ok
  read : ∀ n r, (pd.pipe n).stage.read = some r → r = pd.ioBusyCount
  one : ∀ n m, (pd.pipe n).stage.read ≠ none → m ≠ n → (pd.pipe m).stage.read = none
  count : pd.ioBusyCount = uword pd.busy

section

variable [Fintype ι]

theorem Inv.setPipe (h : Inv pd) {c k : ℕ} (hok : pp.Ok)
    (hread : ∀ r, pp.stage.read = some r → r = c)
    (hothers : (∀ m, m ≠ n → (pd.pipe m).stage.read = none) ∨ c = pd.ioBusyCount ∧ pp.stage.read = none)
    (hcount : c = uword (pd.setPipe n pp).busy) :
    Inv { pd.setPipe n pp with ioBusyCount := c, stamps := k } where
  ok := by
    intro m
    show ((pd.setPipe n pp).pipe m).Ok
    by_cases hm : m = n
    · rw [hm, setPipe_self]
      exact hok
    · rw [setPipe_ne hm]
      exact h.ok m
  read := by
    intro m r hr
    change ((pd.setPipe n pp).pipe m).stage.read = some r at hr
    by_cases hm : m = n
    · rw [hm, setPipe_self] at hr
      exact hread r hr
    · rw [setPipe_ne hm] at hr
      rcases hothers with hnone | ⟨hc, -⟩
      · exact nomatch (hnone m hm).symm.trans hr
      · exact (h.read m r hr).trans hc.symm
  one := by
    intro m m' hm hne
    change ((pd.setPipe n pp).pipe m).stage.read ≠ none at hm
    show ((pd.setPipe n pp).pipe m').stage.read = none
    rcases hothers with hnone | ⟨-, hpp⟩
    · by_cases hmn : m' = n
      · -- the other is `m`, of which nothing has been read
        have hmn' : m ≠ n := fun he => hne (hmn.trans he.symm)
        rw [setPipe_ne hmn'] at hm
        exact absurd (hnone m hmn') hm
      · rw [setPipe_ne hmn]
        exact hnone m' hmn
    · by_cases hmn : m' = n
      · rw [hmn, setPipe_self, hpp]
      · rw [setPipe_ne hmn]
        have hmn' : m ≠ n := by
          rintro rfl
          rw [setPipe_self] at hm
          exact hm hpp
        rw [setPipe_ne hmn'] at hm
        exact h.one m m' hm hne
  count := hcount

theorem Inv.still (h : Inv pd) (hok : pp.Ok)
    (hread : pp.stage.read = none) (hshare : pp.share = (pd.pipe n).share) : Inv (pd.setPipe n pp) := by
  have hbusy := busy_setPipe pd n pp
  refine h.setPipe (k := pd.stamps) hok (fun r hr => nomatch hread.symm.trans hr) (.inr ⟨rfl, hread⟩) ?_
  rw [h.count, show (pd.setPipe n pp).busy = pd.busy by omega]

theorem Inv.reads (h : Inv pd) (hnone : ∀ m, (pd.pipe m).stage.read = none) (hok : pp.Ok)
    (hread : pp.stage.read = some pd.ioBusyCount) (hshare : pp.share = (pd.pipe n).share) :
    Inv (pd.setPipe n pp) := by
  have hbusy := busy_setPipe pd n pp
  refine h.setPipe (k := pd.stamps) hok (fun r hr => some.inj (hr.symm.trans hread))
    (.inl fun m _ => hnone m) ?_
  rw [h.count, show (pd.setPipe n pp).busy = pd.busy by omega]

theorem uword_add_uword (a b : ℕ) : uword (uword a + b) = uword (a + b) := Nat.mod_add_mod a _ b

theorem usub_uword {a b : ℕ} (h : b ≤ 1) (hle : b ≤ a) : usub (uword a) b = uword (a - b) := by
  unfold usub uword
  omega

section

variable (h : Inv pd) {r a k : ℕ} (hold : (pd.pipe n).stage.read = some r) (hok : pp.Ok) (hread : pp.stage.read = none)
include h hold hok hread

theorem Inv.adds (hshare : pp.share = (pd.pipe n).share + a) :
    Inv { pd.setPipe n pp with ioBusyCount := uword (r + a), stamps := k } := by
  have hbusy := busy_setPipe pd n pp
  refine h.setPipe hok (fun r hr => nomatch hread.symm.trans hr)
    (.inl fun m hm => h.one n m (by rw [hold]; nofun) hm) ?_
  rw [h.read n r hold, h.count, uword_add_uword, show (pd.setPipe n pp).busy = pd.busy + a by omega]

theorem Inv.takes (ha : a ≤ 1)
    (hshare : pp.share + a = (pd.pipe n).share) :
    Inv { pd.setPipe n pp with ioBusyCount := usub r a, stamps := k } := by
  have hbusy := busy_setPipe pd n pp
  have hle := share_le_busy pd n
  refine h.setPipe hok (fun r hr => nomatch hread.symm.trans hr)
    (.inl fun m hm => h.one n m (by rw [hold]; nofun) hm) ?_
  rw [h.read n r hold, h.count, usub_uword ha (by omega), show (pd.setPipe n pp).busy = pd.busy - a by omega]

end

theorem share_of_stage {pp pp' : PsdPipe} (hweight : pp'.busyWeight = pp.busyWeight)
    (hrunning : pp'.running = pp.running) (hflying : pp'.stage.flying = pp.stage.flying) : pp'.share = pp.share := by
  rw [PsdPipe.share, PsdPipe.share, hweight, hrunning, hflying]

theorem begins_inv {use : Use} (h : Inv pd) (hidle : (pd.pipe n).stage = .idle)
    (hnone : ∀ m, (pd.pipe m).stage.read = none) (hown : use ≠ .lifecycle)
    (hstart : use = .command .start → (pd.pipe n).running = false)
    (hstop : use = .command .stop → (pd.pipe n).running = true) : Inv (pd.begins n use) := by
  have hactivity := (h.ok n).activity
  rw [hidle] at hactivity
  refine h.reads hnone ⟨hactivity, fun he => hown (some.inj he), fun hs => hstart ?_, fun hs => hstop ?_⟩ rfl
    (share_of_stage rfl rfl (by rw [hidle]; rfl))
  · cases use <;> simp only [Stage.command, some.injEq, reduceCtorEq] at hs
    rw [hs]
  · cases use <;> simp only [Stage.command, some.injEq, reduceCtorEq] at hs
    rw [hs]

theorem replyMsg_share (pp : PsdPipe) (use : Use) : (pp.replyMsg use).share = pp.running.toNat := by
  cases use <;> simp [PsdPipe.replyMsg, PsdPipe.share, Stage.flying]

theorem replyMsg_read (pp : PsdPipe) (use : Use) : (pp.replyMsg use).stage.read = none := by
  cases use <;> rfl

theorem replyMsg_ok {use : Use} (h : pp.Ok) (hactivity : pp.activity = false)
    (hcommand : ∀ c, use = .command c → pp.stage.command = some c) : (pp.replyMsg use).Ok := by
  cases use with
  | command c => exact h.goesOn hactivity nofun rfl (hcommand c rfl).symm
  | _ => exact .free hactivity nofun rfl

theorem step_inv {e : Event ι} (h : Inv pd) (happart : Apart pd e) (hs : step pd e = some t) : Inv t := by
  cases e with
  | connect on =>
    cases hs
    exact ⟨h.ok, h.read, h.one, h.count⟩
  | psdDoPipe n =>
    obtain ⟨hidle, hs⟩ := of_guard hs
    by_cases hconn : pd.connected = true
    · rw [if_pos hconn] at hs
      exact hs ▸ begins_inv h hidle (happart hconn) nofun nofun nofun
    · rw [if_neg hconn] at hs
      refine hs ▸ h.still ((h.ok n).goesOn (h.ok n).activity (h.ok n).own rfl rfl) ?_ (share_of_stage rfl rfl rfl)
      show (pd.pipe n).stage.read = none
      rw [hidle]
      rfl
  | psdSendPipe n =>
    obtain ⟨hidle, hs⟩ := of_guard hs
    refine hs ▸ begins_inv h hidle (happart trivial) ?_ ?_ ?_ <;> split <;> nofun
  | pRtIsoForwardCmd n c =>
    obtain ⟨⟨hidle, hstart, hstop⟩, hs⟩ := of_guard hs
    exact hs ▸ begins_inv h hidle (happart trivial) nofun (fun hc => hstart (Use.command.inj hc))
      fun hc => hstop (Use.command.inj hc)
  | pCtxDoOp n now =>
    obtain ⟨⟨hidle, -⟩, hs⟩ := of_guard hs
    have hactivity := (h.ok n).activity
    rw [hidle] at hactivity
    exact hs ▸ h.still (.free hactivity nofun rfl) rfl (share_of_stage rfl rfl (by rw [hidle]; rfl))
  | counted n =>
    cases hstage : (pd.pipe n).stage <;> simp only [step, hstage, reduceCtorEq, some.injEq] at hs
    next use read =>
    have hok := h.ok n
    have hown := hok.own
    rw [hstage] at hown
    subst hs
    refine h.adds (by rw [hstage]; rfl) (hok.goesOn rfl hown rfl (by rw [hstage]; cases use <;> rfl)) rfl ?_
    simp [PsdPipe.share, Stage.flying, hstage, Nat.add_comm]
  | submit n now =>
    cases hstage : (pd.pipe n).stage <;> simp only [step, hstage, reduceCtorEq] at hs
    next use =>
    have hok := h.ok n
    have hown := hok.own
    have hactivity := hok.activity
    rw [hstage] at hown hactivity
    have huse : use ≠ .lifecycle := fun he => hown (congrArg some he)
    have hmarked : (pd.pipe n).activity = decide (use ≠ .lifecycle) := hactivity.trans (decide_eq_true huse).symm
    have hflying : decide (use ≠ .lifecycle) = (pd.pipe n).stage.flying := by
      rw [hstage]
      exact decide_eq_true huse
    split at hs
    · cases hs
      exact h.still (hok.goesOn hmarked nofun rfl (by rw [hstage]; cases use <;> rfl)) rfl
        (share_of_stage rfl rfl hflying)
    · obtain ⟨rfl, rfl⟩ := of_guard hs
      exact h.still (hok.goesOn hmarked nofun rfl (by rw [hstage]; rfl)) rfl (share_of_stage rfl rfl hflying)
  | pCompletePipe n d =>
    cases hstage : (pd.pipe n).stage <;> simp only [step, hstage, reduceCtorEq] at hs
    next use deliverer =>
    obtain ⟨-, hs⟩ := ite_none_right_eq_some.mp hs
    have hok := h.ok n
    have hactivity := hok.activity
    rw [hstage] at hactivity
    split at hs
    · next hflag =>
      cases hs
      rw [hflag] at hactivity
      have hown := of_decide_eq_true hactivity.symm
      exact h.reads (happart hflag)
        (hok.goesOn rfl (fun he => hown (some.inj he)) rfl (by rw [hstage]; cases use <;> rfl)) rfl
        (share_of_stage rfl rfl (by rw [hstage]; exact hactivity))
    · next hflag =>
      cases hs
      have hflag := eq_false_of_ne_true hflag
      refine h.still (replyMsg_ok hok hflag fun c hc => by rw [hstage, hc]; rfl) (replyMsg_read _ use) ?_
      rw [replyMsg_share, PsdPipe.share, hstage]
      rw [hflag] at hactivity
      show _ = (decide (use ≠ .lifecycle) && _).toNat + _
      rw [show decide (use ≠ .lifecycle) = false from hactivity.symm]
      simp
  | uncounted n =>
    cases hstage : (pd.pipe n).stage <;> simp only [step, hstage, reduceCtorEq, some.injEq] at hs
    next use read =>
    have hok := h.ok n
    have hactivity := hok.activity
    rw [hstage] at hactivity
    subst hs
    refine h.takes (by rw [hstage]; rfl) (replyMsg_ok hok hactivity fun c hc => by rw [hstage, hc]; rfl)
      (replyMsg_read _ use) (Bool.toNat_le _) ?_
    rw [replyMsg_share, PsdPipe.share, hstage]
    simp [Stage.flying, Nat.add_comm]
  | returns n ok =>
    cases hstage : (pd.pipe n).stage <;> simp only [step, hstage, reduceCtorEq, some.injEq] at hs
    next c =>
    have hok := h.ok n
    have hactivity := hok.activity
    rw [hstage] at hactivity
    subst hs
    by_cases hheld : ok = true ∧ c ≠ .other
    · rw [if_pos hheld]
      refine h.reads (happart ⟨hheld.1, ?_⟩) (hok.goesOn hactivity nofun rfl ?_) rfl
        (share_of_stage rfl rfl (by rw [hstage]; rfl))
      · rw [hstage]
        exact fun he => hheld.2 (Stage.answered.inj he)
      · rw [hstage]
        cases c <;> first | rfl | exact absurd rfl hheld.2
    · rw [if_neg hheld]
      exact h.still (.free hactivity nofun rfl) rfl (share_of_stage rfl rfl (by rw [hstage]; rfl))
  | held n =>
    cases hstage : (pd.pipe n).stage <;> simp only [step, hstage, reduceCtorEq, some.injEq] at hs
    next start read =>
    have hok := h.ok n
    have hactivity := hok.activity
    rw [hstage] at hactivity
    subst hs
    cases start with
    | true =>
      have hrunning := hok.start (by rw [hstage]; rfl)
      refine h.adds (k := pd.stamps) (by rw [hstage]; rfl) (.free hactivity nofun rfl) rfl ?_
      simp [PsdPipe.share, Stage.flying, hstage, hrunning]
    | false =>
      have hrunning := hok.stop (by rw [hstage]; rfl)
      refine h.takes (k := pd.stamps) (by rw [hstage]; rfl) (.free hactivity nofun rfl) rfl le_rfl ?_
      simp [PsdPipe.share, Stage.flying, hstage, hrunning]
  | psdAbortPipe n =>
    cases hs
    exact h
  | psdWaitPipe n =>
    obtain ⟨⟨hover, -⟩, hs⟩ := of_guard hs
    refine hs ▸ h.still ((h.ok n).goesOn (h.ok n).activity (h.ok n).own rfl rfl) ?_ (share_of_stage rfl rfl rfl)
    show (pd.pipe n).stage.read = none
    cases hstage : (pd.pipe n).stage <;> rw [hstage] at hover <;> first | rfl | exact nomatch hover
  | getMsg n =>
    cases hs
    exact h

omit [DecidableEq ι] in
theorem start_inv (contextBackend quickIo connected : Bool) (weight : ι → Bool) :
    Inv (start contextBackend quickIo connected weight) where
  ok := fun _ => .free rfl nofun rfl
  read := nofun
  one := fun _ _ hne => absurd rfl hne
  count := by
    have hbusy : (start contextBackend quickIo connected weight).busy = 0 :=
      sum_eq_zero fun _ _ => rfl
    rw [hbusy]
    rfl

theorem lifecycle_still {e : Event ι} (h : Inv pd) (hlib : OfLifecycle pd e) (hs : step pd e = some t) :
    t.ioBusyCount = pd.ioBusyCount ∧ t.stamps = pd.stamps := by
  cases e with
  | pCtxDoOp n now | psdWaitPipe n =>
    obtain ⟨-, rfl⟩ := of_guard hs
    exact ⟨rfl, rfl⟩
  | pCompletePipe n d =>
    obtain ⟨deliverer, hstage⟩ := hlib
    have hactivity := (h.ok n).activity
    rw [hstage] at hactivity
    simp only [step, hstage] at hs
    obtain ⟨-, hs⟩ := ite_none_right_eq_some.mp hs
    rw [if_neg (by rw [hactivity]; nofun)] at hs
    exact some.inj hs ▸ ⟨rfl, rfl⟩
  | _ => exact hlib.elim

/-- Where no two updates overlap, the count is the number of what is under way, as far as 16 bits hold it. -/
theorem busy_counted {contextBackend quickIo connected : Bool} {weight : ι → Bool} {evs : List (Event ι)}
    (hrun : Run step Apart (start contextBackend quickIo connected weight) evs pd) :
    (pd.ioBusyCount = pd.busy ↔ pd.busy < 2 ^ 16) ∧
      ∀ e t, OfLifecycle pd e → step pd e = some t → t.ioBusyCount = pd.ioBusyCount ∧ t.stamps = pd.stamps := by
  have hinv := hrun.invariant Inv (start_inv ..) fun _ _ _ => step_inv
  refine ⟨?_, fun e t hlib hs => lifecycle_still hinv hlib hs⟩
  rw [hinv.count]
  exact ⟨fun he => he ▸ uword_lt _, uword_of_lt⟩

end

instance (pd : PsdDevice Bool) : ∀ e, Decidable (Reads pd e)
  | .psdDoPipe _ => inferInstanceAs (Decidable (_ = true))
  | .psdSendPipe _ | .pRtIsoForwardCmd _ _ => .isTrue trivial
  | .pCompletePipe _ _ => inferInstanceAs (Decidable (_ = true))
  | .returns _ _ => inferInstanceAs (Decidable (_ ∧ _))
  | .connect _ | .pCtxDoOp _ _ | .counted _ | .submit _ _ | .uncounted _ | .held _ | .psdAbortPipe _ | .psdWaitPipe _
  | .getMsg _ => .isFalse id

instance (pd : PsdDevice Bool) (e : Event Bool) : Decidable (Apart pd e) :=
  inferInstanceAs (Decidable (Reads pd e → ∀ m, (pd.pipe m).stage.read = none))

def busyStart : PsdDevice Bool := start false false true fun _ => true

def streams : List (Event Bool) :=
  [.pRtIsoForwardCmd true .start, .counted true, .submit true false, .pCompletePipe true .relay, .uncounted true,
    .returns true true, .held true, .psdSendPipe false, .counted false, .submit false false]

theorem busy_counted_streams : ∃ pd, Run step Apart busyStart streams pd ∧ pd.busy = 2 ∧ pd.ioBusyCount = 2 := by
  have hmeets : Meets step Apart busyStart streams := by decide
  have hrun := Run.get_meets hmeets (by decide)
  have hbusy : ((exec step busyStart streams).get (by decide)).busy = 2 := by decide
  exact ⟨_, hrun, hbusy, ((busy_counted hrun).1.mpr (by rw [hbusy]; decide)).trans hbusy⟩

/-- Two tasks send at a time: the second writes back what it had read before the first has written. -/
def lostUpdate : List (Event Bool) :=
  [.psdSendPipe false, .psdSendPipe true, .counted false, .counted true, .submit false false, .submit true false]

/-- With all done the device counts as busy for good. -/
theorem busy_lost :
    (∃ pd, Run step anyStep busyStart lostUpdate pd ∧ pd.busy = 2 ∧ pd.ioBusyCount = 1) ∧
    ∃ pd, Run step anyStep busyStart (lostUpdate ++ [.pCompletePipe false .relay, .uncounted false,
      .pCompletePipe true .relay, .uncounted true]) pd ∧ (∀ n, (pd.pipe n).stage = .idle) ∧ pd.busy = 0 ∧
      pd.ioBusyCount = 65535 :=
  ⟨⟨_, Run.get (by decide), by decide, by decide⟩, ⟨_, Run.get (by decide), by decide, by decide, by decide⟩⟩

end Neptune.Activity
