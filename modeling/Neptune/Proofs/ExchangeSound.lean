import Neptune.Proofs.ExchangeCbi

/-! The loop of the transports, and what their success stands for. -/

namespace Neptune.Transport

open List

variable {ncm : NepClassMS} {cmd : SCSICmd} {eps : Endpoints} {devs : ℕ → Device}
variable {body : Device → St → ℤ × Next × St} {n k : ℕ} {st : St} {a : St × ℕ × List Phase}

def run (body : Device → St → ℤ × Next × St) (devs : ℕ → Device) (a : St × ℕ × List Phase) :
    ℤ × Next × St := body (devs a.2.1) { a.1 with phases := [] }

theorem attempts_eq (body : Device → St → ℤ × Next × St) (devs : ℕ → Device) (n k : ℕ) (st : St) :
    attempts body devs n k st =
      if st.denyRequests then ⟨HFERR_Phase, [], st⟩
      else
        let (rioerr, next, st') := body (devs k) { st with phases := [] }
        if ends rioerr next then ⟨rioerr, [(st, k, st'.phases)], st'⟩
        else
          match n with
          | 0 => ⟨rioerr, [(st, k, st'.phases)], st'⟩
          | n + 1 =>
            let rest := attempts body devs n (k + 1) st'
            ⟨rest.rioerr, (st, k, st'.phases) :: rest.attempts, rest.st⟩ := by
  cases n with
  | zero => rfl
  | succ n => rfl

theorem attempts_deny (h : st.denyRequests = true) :
    attempts body devs n k st = ⟨HFERR_Phase, [], st⟩ := by
  rw [attempts_eq, if_pos h]

section Made

variable {r : ℤ × Next × St} (h : ¬ st.denyRequests = true)
  (hr : body (devs k) { st with phases := [] } = r)

include h hr

theorem attempts_ends (he : ends r.1 r.2.1 = true) :
    attempts body devs n k st = ⟨r.1, [(st, k, r.2.2.phases)], r.2.2⟩ := by
  rw [attempts_eq, if_neg h, hr]
  exact if_pos he

theorem attempts_over (he : ¬ ends r.1 r.2.1 = true) :
    attempts body devs 0 k st = ⟨r.1, [(st, k, r.2.2.phases)], r.2.2⟩ := by
  rw [attempts_eq, if_neg h, hr]
  exact if_neg he

theorem attempts_more (he : ¬ ends r.1 r.2.1 = true) :
    attempts body devs (n + 1) k st =
      ⟨(attempts body devs n (k + 1) r.2.2).rioerr,
        (st, k, r.2.2.phases) :: (attempts body devs n (k + 1) r.2.2).attempts,
        (attempts body devs n (k + 1) r.2.2).st⟩ := by
  rw [attempts_eq, if_neg h, hr]
  exact if_neg he

end Made

theorem attempts_once (h : ¬ st.denyRequests = true)
    (hzero : (body (devs k) { st with phases := [] }).1 = 0) :
    (attempts body devs n k st).attempts =
      [(st, k, (body (devs k) { st with phases := [] }).2.2.phases)] := by
  rw [attempts_ends h rfl]
  rw [ends, hzero]
  rfl

/-- The attempts are refused, or stop with one, or go on behind one that has failed. -/
theorem attempts_induct {motive : ℕ → Outcome → Prop} (denied : ∀ n st, motive n ⟨HFERR_Phase, [], st⟩)
    (stop : ∀ n a, a.2.2 = (run body devs a).2.2.phases →
      motive n ⟨(run body devs a).1, [a], (run body devs a).2.2⟩)
    (again : ∀ n a o, a.2.2 = (run body devs a).2.2.phases → (run body devs a).1 ≠ 0 → motive n o →
      motive (n + 1) ⟨o.rioerr, a :: o.attempts, o.st⟩) (n k : ℕ) (st : St) :
    motive n (attempts body devs n k st) := by
  induction n using Nat.strongRecOn generalizing k st with
  | ind n ih =>
    by_cases hdeny : st.denyRequests = true
    · rw [attempts_deny hdeny]
      exact denied n st
    by_cases hends : ends (body (devs k) { st with phases := [] }).1 (body (devs k) { st with phases := [] }).2.1 = true
    · rw [attempts_ends hdeny rfl hends]
      exact stop n (st, k, _) rfl
    cases n with
    | zero =>
      rw [attempts_over hdeny rfl hends]
      exact stop 0 (st, k, _) rfl
    | succ n =>
      rw [attempts_more hdeny rfl hends]
      refine again n (st, k, _) _ rfl (fun hzero => hends ?_) (ih n (Nat.lt_succ_self n) _ _)
      rw [ends, show (body (devs k) { st with phases := [] }).1 = 0 from hzero]
      rfl

theorem attempts_length (body : Device → St → ℤ × Next × St) (devs : ℕ → Device) (n k : ℕ) (st : St) :
    (attempts body devs n k st).attempts.length ≤ n + 1 := by
  refine attempts_induct (motive := fun n o => o.attempts.length ≤ n + 1) (fun n _ => Nat.zero_le _)
    (fun n _ _ => Nat.le_add_left 1 n) (fun n a o _ _ ih => ?_) n k st
  exact Nat.succ_le_succ ih

theorem attempts_run (ha : a ∈ (attempts body devs n k st).attempts) :
    a.2.2 = (run body devs a).2.2.phases := by
  refine attempts_induct (motive := fun _ o => ∀ a ∈ o.attempts, a.2.2 = (run body devs a).2.2.phases)
    (fun _ _ a ha => absurd ha not_mem_nil) (fun _ a hrun => forall_mem_singleton.mpr hrun)
    (fun _ a o hrun _ ih => ?_) n k st a ha
  exact forall_mem_cons.mpr ⟨hrun, ih⟩

theorem attempts_zero (h : (attempts body devs n k st).rioerr = 0) :
    ∃ a, (attempts body devs n k st).attempts.getLast? = some a ∧ (run body devs a).1 = 0 := by
  refine attempts_induct
    (motive := fun _ o => o.rioerr = 0 → ∃ a, o.attempts.getLast? = some a ∧ (run body devs a).1 = 0)
    (fun _ _ h => absurd h phase_fails) (fun _ a _ h => ⟨a, rfl, h⟩) (fun _ a o _ _ ih h => ?_) n k st h
  obtain ⟨b, hlast, hzero⟩ := ih h
  exact ⟨b, by rw [getLast?_cons, hlast]; rfl, hzero⟩

theorem attempts_stop (ha : a ∈ (attempts body devs n k st).attempts)
    (h : (run body devs a).1 = 0) :
    (attempts body devs n k st).rioerr = 0 ∧
      (attempts body devs n k st).attempts.getLast? = some a := by
  refine attempts_induct (motive := fun _ o => a ∈ o.attempts → o.rioerr = 0 ∧ o.attempts.getLast? = some a)
    (fun _ _ ha => absurd ha not_mem_nil) (fun _ b _ ha => ?_) (fun _ b o _ hne ih ha => ?_) n k st ha
  · obtain rfl := mem_singleton.mp ha
    exact ⟨h, rfl⟩
  · rcases mem_cons.mp ha with rfl | ha
    · exact absurd h hne
    · obtain ⟨hzero, hlast⟩ := ih ha
      exact ⟨hzero, by rw [getLast?_cons, hlast]; rfl⟩

structure Sound (eps : Endpoints) (tpType : TPType) (cmd : SCSICmd) (o : Outcome) : Prop where
  completed : o.rioerr = 0 → ∃ a, o.attempts.getLast? = some a ∧ Completed tpType cmd a.2.2
  twice : o.attempts.length ≤ 2
  recovered : ∀ a ∈ o.attempts, ∀ p ∈ a.2.2, Recovered eps p

def attempt (ncm : NepClassMS) (cmd : SCSICmd) : Device → St → ℤ × Next × St :=
  match ncm.tpType with
  | .bulk => bulkAttempt ncm cmd
  | .cbi | .cb => cbiAttempt ncm cmd

theorem nScsiDirect_eq (ncm : NepClassMS) (cmd : SCSICmd) (devs : ℕ → Device) (st : St) :
    nScsiDirect ncm cmd devs st = attempts (attempt ncm cmd) devs cmd.autoretry.toNat 0 st := by
  unfold nScsiDirect attempt
  cases ncm.tpType <;> rfl

theorem attempt_cbi (htp : ncm.tpType ≠ .bulk) : attempt ncm cmd = cbiAttempt ncm cmd := by
  unfold attempt
  split
  · rename_i hbulk
    exact absurd hbulk htp
  · rfl
  · rfl

def Relied (ncm : NepClassMS) (cmd : SCSICmd) (devs : ℕ → Device) (a : St × ℕ × List Phase) : Prop :=
  ncm.tpType = .bulk ∨ Straight ncm cmd (devs a.2.1) a.1

theorem attempt_adds (h : Bulks ncm eps) (hs : Relied ncm cmd devs a) :
    ∀ p ∈ (run (attempt ncm cmd) devs a).2.2.phases, Recovered eps p := by
  have hadds : Adds eps { a.1 with phases := [] } (run (attempt ncm cmd) devs a).2.2 := by
    by_cases htp : ncm.tpType = .bulk
    · unfold run attempt
      rw [htp]
      exact bulkAttempt_adds h cmd _ _
    · unfold run
      rw [attempt_cbi htp]
      exact cbiAttempt_adds h (hs.resolve_left htp)
  obtain ⟨ps, hps, hall⟩ := hadds
  rw [hps]
  exact hall

theorem attempt_ok (hs : Relied ncm cmd devs a) (h : (run (attempt ncm cmd) devs a).1 = 0) :
    Completed ncm.tpType cmd (run (attempt ncm cmd) devs a).2.2.phases := by
  by_cases htp : ncm.tpType = .bulk
  · unfold run attempt at h ⊢
    rw [htp] at h ⊢
    exact bulkAttempt_ok h
  · unfold run at h ⊢
    rw [attempt_cbi htp] at h ⊢
    exact cbiAttempt_ok htp rfl (hs.resolve_left htp) h

theorem attempt_bad (hs : ¬ Relied ncm cmd devs a) :
    (run (attempt ncm cmd) devs a).1 = 0 ∧
      ¬ Completed ncm.tpType cmd (run (attempt ncm cmd) devs a).2.2.phases := by
  unfold Relied at hs
  rw [not_or] at hs
  unfold run
  rw [attempt_cbi hs.1]
  exact cbiAttempt_bad hs.1 rfl hs.2

theorem Sound.relied (h : Sound eps ncm.tpType cmd (nScsiDirect ncm cmd devs st))
    (ha : a ∈ (nScsiDirect ncm cmd devs st).attempts) : Relied ncm cmd devs a := by
  rw [nScsiDirect_eq] at h ha
  by_contra hbad
  obtain ⟨hzero, hnot⟩ := attempt_bad hbad
  obtain ⟨hok, hlast⟩ := attempts_stop ha hzero
  obtain ⟨a', hlast', hcompleted⟩ := h.completed hok
  obtain rfl := Option.some.inj (hlast.symm.trans hlast')
  apply hnot
  rw [← attempts_run ha]
  exact hcompleted

theorem sound_of_relied (h : Bulks ncm eps)
    (hall : ∀ a ∈ (nScsiDirect ncm cmd devs st).attempts, Relied ncm cmd devs a) :
    Sound eps ncm.tpType cmd (nScsiDirect ncm cmd devs st) := by
  rw [nScsiDirect_eq] at hall ⊢
  refine ⟨?_, ?_, ?_⟩
  · intro hok
    obtain ⟨a, hlast, hzero⟩ := attempts_zero hok
    have ha := mem_of_getLast? hlast
    refine ⟨a, hlast, ?_⟩
    rw [attempts_run ha]
    exact attempt_ok (hall a ha) hzero
  · refine (attempts_length _ devs _ 0 st).trans ?_
    exact Nat.succ_le_succ (Bool.toNat_le _)
  · intro a ha
    rw [attempts_run ha]
    exact attempt_adds h (hall a ha)

def eps₀ : Endpoints := ⟨some 3, 1, 2⟩

def cbi₀ : NepClassMS := ⟨.cbi, ⟨2, 1, 2⟩, false, false, false⟩

def read₀ : SCSICmd := ⟨0, true, true, true, 512, [], 18⟩

def st₀ : St := ⟨0, false, false, false, 0, 0, 0, fun _ => 0, 0, []⟩

def dev₀ (status : Reply) : Device := fun site =>
  if site = .status then status else ⟨0, 512, [], ⟨0, 0, 0⟩, false, false⟩

def passes₀ : Reply := ⟨0, 2, [0, 0], ⟨0, 0, 0⟩, false, false⟩

def stalls₀ : Reply := ⟨UHIOERR_STALL, 0, [], ⟨0, 0, 0⟩, false, false⟩

end Neptune.Transport
