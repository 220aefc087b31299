import Neptune.Proofs.BusOwners

/-! The devices on the enabled ports of a legacy controller answer to different addresses exactly as long as no device
takes its address while another one, already removed with that address, is on a port that is still enabled. -/

namespace Neptune.BusAddress

open Runs PsdHardware Option

variable {η : Type} {phw t : PsdHardware η} {h h' : η} {n n' pd : ℕ}

def Quieter (phw t : PsdHardware η) : Prop :=
  ∀ h n, (t.port h n).enabled = true → (phw.port h n).enabled = true ∧ (t.port h n).answers = (phw.port h n).answers

def Apart (phw : PsdHardware η) : Prop :=
  ∀ h n h' n', (phw.port h n).enabled = true → (phw.port h' n').enabled = true →
    (phw.port h n).answers = (phw.port h' n').answers → h = h' ∧ n = n'

theorem Quieter.apart (hq : Quieter phw t) (ha : Apart phw) : Apart t := by
  intro h n h' n' hen hen' hsame
  obtain ⟨hen, hans⟩ := hq h n hen
  obtain ⟨hen', hans'⟩ := hq h' n' hen'
  exact ha h n h' n' hen hen' (hans.symm.trans (hsame.trans hans'))

theorem Quieter.of_port (hport : t.port = phw.port) : Quieter phw t := by
  intro h n hen
  rw [hport] at hen ⊢
  exact ⟨hen, rfl⟩

theorem separate_iff (hI : Inv phw) : Separate phw ↔ Apart phw :=
  ⟨fun hsep => hsep.apart, fun ha => ⟨ha, hI.devices.slots⟩⟩

variable [DecidableEq η]

theorem Quieter.setPort {port : Port} (hoff : port.enabled = false) : Quieter phw (phw.setPort h n port) := by
  intro h' n' hen
  by_cases hh : h' = h
  · subst hh
    by_cases hn : n' = n
    · subst hn
      simp [PsdHardware.setPort, hoff] at hen
    · simpa [PsdHardware.setPort, hn] using hen
  · simpa [PsdHardware.setPort, hh] using hen

theorem Quieter.cutHub : Quieter phw (phw.cutHub h) := by
  intro h' n' hen
  by_cases hh : h' = h
  · subst hh
    simp [PsdHardware.cutHub] at hen
  · simpa [PsdHardware.cutHub, hh] using hen

theorem step_quieter {e : Event η} (hs : step phw e = some t) (hreset : ∀ h, e ≠ .resetPort h)
    (hset : ∀ h, e ≠ .setAddress h true) : Quieter phw t := by
  cases e with
  | plug h n =>
    cases (ite_none_left_eq_some.mp hs).2
    exact .setPort rfl
  | unplug h n =>
    cases hs
    exact .setPort rfl
  | configure h n =>
    obtain ⟨-, rfl⟩ := of_guard hs
    exact .setPort rfl
  | leave h | allocDevice h =>
    cases htask : phw.task h <;> simp only [step, htask, reduceCtorEq, some.injEq] at hs
    subst hs
    exact .of_port rfl
  | resetPort h => exact absurd rfl (hreset h)
  | allocAddr h =>
    cases htask : phw.task h <;> simp only [step, htask, reduceCtorEq, some.injEq] at hs
    subst hs
    exact .of_port (pAllocDevAddr_port _ _)
  | setAddress h taken =>
    cases taken with
    | true => exact absurd rfl (hset h)
    | false =>
      cases htask : phw.task h <;> simp only [step, htask, reduceCtorEq] at hs
      cases (ite_none_left_eq_some.mp hs).2
      exact .of_port rfl
  | enumerated h =>
    cases htask : phw.task h <;> simp only [step, htask, reduceCtorEq] at hs
    obtain ⟨-, rfl⟩ := of_guard hs
    exact .of_port rfl
  | giveUp h =>
    cases htask : phw.task h <;> simp only [step, htask, reduceCtorEq, some.injEq] at hs
    subst hs
    exact .of_port (psdFreeDevice_port _ _)
  | removeDead h n | gone h n | freeHub h n =>
    cases hdown : phw.downstream h n <;> simp only [step, hdown, reduceCtorEq] at hs
    obtain ⟨-, rfl⟩ := of_guard hs
    exact .of_port (psdFreeDevice_port _ _)
  | disable h =>
    cases htask : phw.task h <;> simp only [step, htask, reduceCtorEq, some.injEq] at hs <;>
      (subst hs; exact .setPort rfl)
  | cutHub h =>
    obtain ⟨-, rfl⟩ := of_guard hs
    exact .cutHub
  | allocPipe pd =>
    obtain ⟨-, rfl⟩ := of_guard hs
    exact .of_port rfl
  | freePipe pd =>
    obtain ⟨-, rfl⟩ := of_guard hs
    exact .of_port (psdFreePipe_port _ _)

theorem setPort_same {port : Port} : (phw.setPort h n port).port h n = port := by
  simp [PsdHardware.setPort]

theorem setPort_other {port : Port} (hne : ¬(h' = h ∧ n' = n)) :
    (phw.setPort h n port).port h' n' = phw.port h' n' := by
  by_cases hh : h' = h
  · subst hh
    have hn : n' ≠ n := fun hn => hne ⟨rfl, hn⟩
    simp [PsdHardware.setPort, hn]
  · simp [PsdHardware.setPort, hh]

theorem setPort_apart {port : Port} (ha : Apart phw) (hon : port.enabled = true) :
    Apart (phw.setPort h n port) ↔
      ∀ h' n', ¬(h' = h ∧ n' = n) → (phw.port h' n').enabled = true → (phw.port h' n').answers ≠ port.answers := by
  constructor
  · intro hu h' n' hne hen hsame
    refine hne (hu h' n' h n ?_ ?_ ?_)
    · rwa [setPort_other hne]
    · rwa [setPort_same]
    · rwa [setPort_other hne, setPort_same]
  · intro hu h1 n1 h2 n2 hen1 hen2 hsame
    by_cases hp1 : h1 = h ∧ n1 = n
    · obtain ⟨rfl, rfl⟩ := hp1
      by_contra hne
      have hne' : ¬(h2 = h1 ∧ n2 = n1) := fun ⟨hh, hn⟩ => hne ⟨hh.symm, hn.symm⟩
      rw [setPort_other hne'] at hen2 hsame
      rw [setPort_same] at hsame
      exact hu h2 n2 hne' hen2 hsame.symm
    · rw [setPort_other hp1] at hen1 hsame
      by_cases hp2 : h2 = h ∧ n2 = n
      · obtain ⟨rfl, rfl⟩ := hp2
        rw [setPort_same] at hsame
        exact absurd hsame (hu h1 n1 hp1 hen1)
      · rw [setPort_other hp2] at hen2 hsame
        exact ha h1 n1 h2 n2 hen1 hen2 hsame

theorem resetPort_apart (hI : Inv phw) (ha : Apart phw) (htask : phw.task h = .enumerating n pd) :
    Apart (phw.setPort h n { phw.port h n with enabled := true, answers := 0 }) := by
  have hheld : (phw.task h).adr0 = true := by rw [htask]; rfl
  rw [setPort_apart ha rfl]
  intro h' n' hne hen hzero
  have hans := hI.ports h' n' hen
  dsimp only at hzero
  generalize (phw.port h' n').answers = a at hans hzero
  cases hans with
  | default pd' hn =>
    cases hI.holder hheld (by rw [hn]; rfl)
    cases htask.symm.trans hn
    exact hne ⟨rfl, rfl⟩
  | owner pd' ho hz => exact hz hzero
  | failed a hn =>
    cases hI.holder hheld (by rw [hn]; rfl)
    exact nomatch htask.symm.trans hn
  | vacating a hv hz => exact hz hzero

theorem setAddress_apart (hI : Inv phw) (ha : Apart phw) (htask : phw.task h = .enumerating n pd)
    (hne : (phw.device pd).devAddr ≠ 0) : Apart (phw.setAddress h n pd) ↔ Vacated phw (.setAddress h true) := by
  have hheld : (phw.task h).adr0 = true := by rw [htask]; rfl
  have hv : Vacated phw (.setAddress h true) ↔ ((phw.port h n).enabled = true → (phw.port h n).answers = 0 →
      ∀ h' n', phw.Vacating h' n' → (phw.port h' n').enabled = true →
        (phw.port h' n').answers ≠ (phw.device pd).devAddr) := by
    constructor
    · exact fun hvac => hvac n pd htask
    · intro hvac n' pd' htask'
      cases htask.symm.trans htask'
      exact hvac
  rw [hv]
  unfold PsdHardware.setAddress
  split
  · rename_i hcond
    obtain ⟨hen, hzero⟩ := hcond
    refine Iff.trans (setPort_apart ha hen) ?_
    constructor
    · intro hu _ _ h' n' hvac hen'
      refine hu h' n' ?_ hen'
      rintro ⟨rfl, rfl⟩
      rcases hvac with hvac | hvac
      · exact nomatch htask.symm.trans hvac
      · exact nomatch htask.symm.trans hvac.1
    · intro hvac h' n' hne' hen' hsame
      have hans := hI.ports h' n' hen'
      have hfree := hvac hen hzero h' n'
      dsimp only at hsame
      generalize (phw.port h' n').answers = a at hans hsame hfree
      cases hans with
      | default pd' hn => exact hne hsame.symm
      | owner pd' ho hz =>
        obtain ⟨hcount, htorn, -⟩ := hI.own h n pd (.inr htask)
        obtain ⟨hcount', htorn', -⟩ := hI.own h' n' pd' ho
        have hslot := (hI.devices.slots _ pd).mpr ⟨hcount, hne, rfl, htorn⟩
        have hslot' := (hI.devices.slots _ pd').mpr ⟨hcount', hne, hsame, htorn'⟩
        cases hslot.symm.trans hslot'
        exact hne' (hI.one h' n' h n pd ho (.inr htask))
      | failed a hn =>
        cases hI.holder hheld (by rw [hn]; rfl)
        exact nomatch htask.symm.trans hn
      | vacating a hn hz => exact hfree hn hen' hsame
  · rename_i hcond
    exact ⟨fun _ hen hzero => absurd ⟨hen, hzero⟩ hcond, fun _ => ha⟩

theorem step_apart {e : Event η} (hI : Inv phw) (ha : Apart phw) (hs : step phw e = some t) :
    Apart t ↔ Vacated phw e := by
  by_cases hset : ∃ h, e = .setAddress h true
  · obtain ⟨h, rfl⟩ := hset
    cases htask : phw.task h <;> simp only [step, htask, reduceCtorEq] at hs
    obtain ⟨hne, ht⟩ := ite_none_left_eq_some.mp hs
    cases ht
    exact setAddress_apart hI ha htask hne
  · have hvac : Vacated phw e := by
      unfold Vacated
      split
      · exact absurd ⟨_, rfl⟩ hset
      · trivial
    refine ⟨fun _ => hvac, fun _ => ?_⟩
    by_cases hreset : ∃ h, e = .resetPort h
    · obtain ⟨h, rfl⟩ := hreset
      cases htask : phw.task h <;> simp only [step, htask, reduceCtorEq] at hs
      obtain ⟨-, rfl⟩ := of_guard hs
      exact resetPort_apart hI ha htask
    · exact (step_quieter hs (fun h he => hreset ⟨h, he⟩) fun h he => hset ⟨h, he⟩).apart ha

/-- The first hub has freed its dead device, and the second one gives the address away before the port is off. -/
def sharedAddress : List (Event Bool) :=
  [.plug false 1, .configure false 1, .allocDevice false, .resetPort false, .allocAddr false, .setAddress false true,
    .enumerated false, .plug true 1, .configure true 1, .allocDevice true, .resetPort true, .removeDead false 1,
    .allocAddr true, .setAddress true true]

end Neptune.BusAddress
