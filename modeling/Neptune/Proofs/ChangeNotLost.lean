import Neptune.Spec.Removable

/-! A change of the medium that has been counted is announced, and the mount dispatch runs for it. -/

namespace Neptune.Removable

open Option

open NepClassMS

variable {s t : NepClassMS} {e : Event} {k : ℕ} {log : List Entry}

def Announced (log : List Entry) (k : ℕ) : Prop := ∃ a, Entry.announced a ∈ log ∧ k ≤ a

def Dispatched (log : List Entry) (k : ℕ) : Prop := ∃ d, Entry.dispatched d ∈ log ∧ k ≤ d

def Covered (log : List Entry) (k : ℕ) : Prop := Announced log k ∧ Dispatched log k

/-- No tick that looks after a change was counted is over before the change is announced and
dispatched. -/
def Followed (s : NepClassMS) : Prop :=
  ∀ tick, .ended tick ∈ s.log → ∀ k ∈ s.owed, k ≤ tick.sampledAt → Covered s.log k

/-- Fewer changes than a `ULONG` tells apart are waiting, and where a mount pass acknowledges them, all
that is owed was counted before it started to announce. -/
def Acknowledges (s : NepClassMS) (e : Event) : Prop :=
  s.changes + 1 < s.acknowledged + 2 ^ 32 ∧
    (e = .finish → s.point = .finish false → ∀ k ∈ s.owed, k ≤ s.since)

instance : Decidable (Acknowledges s e) :=
  inferInstanceAs (Decidable (_ ∧ (_ → _ → ∀ k ∈ s.owed, k ≤ s.since)))

def Underway (s : NepClassMS) : Prop :=
  match s.point with
  | .announce => s.tick.sampledAt ≤ s.changes
  | .dispatch =>
    s.tick.sampledAt ≤ s.since ∧ s.since ≤ s.changes ∧ ∀ k ∈ s.owed, k ≤ s.since → Announced s.log k
  | .mount | .finish _ =>
    s.tick.sampledAt ≤ s.since ∧ s.since ≤ s.changes ∧ ∀ k ∈ s.owed, k ≤ s.since → Covered s.log k
  | _ => True

structure Kept (s : NepClassMS) : Prop where
  le : s.acknowledged ≤ s.changes
  owed_le : ∀ k ∈ s.owed, k ≤ s.changes
  acknowledged : ∀ k ∈ s.owed, k ≤ s.acknowledged → Covered s.log k
  ended_le : ∀ tick, .ended tick ∈ s.log → tick.sampledAt ≤ s.changes
  followed : Followed s
  underway : Underway s

theorem Announced.append (h : Announced log k) (e : Entry) : Announced (log ++ [e]) k :=
  h.imp fun _ ha => ⟨List.mem_append_left _ ha.1, ha.2⟩

theorem Dispatched.append (h : Dispatched log k) (e : Entry) : Dispatched (log ++ [e]) k :=
  h.imp fun _ hd => ⟨List.mem_append_left _ hd.1, hd.2⟩

theorem Covered.append (h : Covered log k) (e : Entry) : Covered (log ++ [e]) k :=
  ⟨h.1.append e, h.2.append e⟩

theorem lastChange_ne (hlt : s.changes + 1 < s.acknowledged + 2 ^ 32) (hle : s.acknowledged ≤ s.changes) :
    s.lastChange = s.changeCount ↔ s.acknowledged = s.changes := by
  unfold lastChange changeCount ulong
  omega

theorem mem_count (hk : k ∈ s.count.owed) : k ∈ s.owed ∨ k = s.changes + 1 := by
  unfold count at hk
  simp only at hk
  split at hk
  · exact (List.mem_append.mp hk).imp id List.mem_singleton.mp
  · exact Or.inl hk

theorem Underway.count (h : Underway s) : Underway s.count := by
  unfold Underway at h ⊢
  change (match s.point with | .announce => _ | .dispatch => _ | .mount | .finish _ => _ | _ => True)
  -- what was counted last is after all of it
  have hlater : ∀ {p : ℕ → Prop}, s.since ≤ s.changes → (∀ k ∈ s.owed, k ≤ s.since → p k) →
      ∀ k ∈ s.count.owed, k ≤ s.since → p k := by
    intro p hle h k hk hsince
    rcases mem_count hk with hk | rfl
    · exact h k hk hsince
    · omega
  cases hp : s.point <;> simp only [hp] at h ⊢
  case announce => exact h.trans (Nat.le_succ _)
  case dispatch => exact ⟨h.1, h.2.1.trans (Nat.le_succ _), hlater h.2.1 h.2.2⟩
  case mount => exact ⟨h.1, h.2.1.trans (Nat.le_succ _), hlater h.2.1 h.2.2⟩
  case finish => exact ⟨h.1, h.2.1.trans (Nat.le_succ _), hlater h.2.1 h.2.2⟩

section

variable (h : Kept s)
include h

theorem Kept.count : Kept s.count where
  le := h.le.trans (Nat.le_succ _)
  owed_le := by
    intro k hk
    rcases mem_count hk with hk | rfl
    · exact (h.owed_le k hk).trans (Nat.le_succ _)
    · exact le_rfl
  acknowledged := by
    intro k hk hle
    rcases mem_count hk with hk | rfl
    · exact h.acknowledged k hk hle
    · exact absurd (hle.trans h.le) (Nat.not_succ_le_self _)
  ended_le := fun tick htick => (h.ended_le tick htick).trans (Nat.le_succ _)
  followed := by
    intro tick htick k hk hle
    rcases mem_count hk with hk | rfl
    · exact h.followed tick htick k hk hle
    · exact absurd (hle.trans (h.ended_le tick htick)) (Nat.not_succ_le_self _)
  underway := h.underway.count

theorem Kept.away (hchanges : t.changes = s.changes) (hack : t.acknowledged = s.acknowledged)
    (howed : t.owed = s.owed) (hlog : t.log = s.log) (ht : Underway t) : Kept t where
  le := by rw [hchanges, hack]; exact h.le
  owed_le := by rw [hchanges, howed]; exact h.owed_le
  acknowledged := by rw [hack, howed, hlog]; exact h.acknowledged
  ended_le := by rw [hchanges, hlog]; exact h.ended_le
  followed := by unfold Followed; rw [howed, hlog]; exact h.followed
  underway := ht

theorem Kept.leave (hle : s.tick.sampledAt ≤ s.changes)
    (hcovered : ∀ k ∈ s.owed, k ≤ s.tick.sampledAt → Covered s.log k) : Kept s.leave where
  le := h.le
  owed_le := h.owed_le
  acknowledged := fun k hk hack => (h.acknowledged k hk hack).append _
  ended_le := by
    intro tick htick
    rcases List.mem_append.mp htick with htick | htick
    · exact h.ended_le tick htick
    · obtain rfl := Entry.ended.inj (List.mem_singleton.mp htick)
      exact hle
  followed := by
    intro tick htick k hk hsampled
    rcases List.mem_append.mp htick with htick | htick
    · exact (h.followed tick htick k hk hsampled).append _
    · obtain rfl := Entry.ended.inj (List.mem_singleton.mp htick)
      exact (hcovered k hk hsampled).append _
  underway := trivial

theorem Kept.entry (entry : Entry) (hentry : ∀ tick, entry ≠ .ended tick)
    (hchanges : t.changes = s.changes) (hack : t.acknowledged = s.acknowledged)
    (howed : t.owed = s.owed) (hlog : t.log = s.log ++ [entry]) (ht : Underway t) : Kept t where
  le := by rw [hchanges, hack]; exact h.le
  owed_le := by rw [hchanges, howed]; exact h.owed_le
  acknowledged := by
    rw [hack, howed, hlog]
    exact fun k hk hle => (h.acknowledged k hk hle).append _
  ended_le := by
    rw [hchanges, hlog]
    intro tick htick
    rcases List.mem_append.mp htick with htick | htick
    · exact h.ended_le tick htick
    · exact absurd (List.mem_singleton.mp htick).symm (hentry tick)
  followed := by
    unfold Followed
    rw [howed, hlog]
    intro tick htick k hk hle
    rcases List.mem_append.mp htick with htick | htick
    · exact (h.followed tick htick k hk hle).append _
    · exact absurd (List.mem_singleton.mp htick).symm (hentry tick)
  underway := ht

theorem Kept.classify (tur : Tur) : Kept (s.classify tur) := by
  unfold NepClassMS.classify
  split
  · exact h.away rfl rfl rfl rfl h.underway
  split
  · exact h.away rfl rfl rfl rfl h.underway
  split
  · exact h.away rfl rfl rfl rfl h.underway
  · exact h.away rfl rfl rfl rfl h.underway

theorem Kept.edges (tur : Tur) : Kept (s.edges tur) := by
  unfold NepClassMS.edges
  have hattention : Kept (if tur.attention then s.count else s) := by
    split
    · exact h.count
    · exact h
  simp only
  generalize (if tur.attention then s.count else s) = s' at hattention ⊢
  split
  · refine Kept.count ?_
    exact hattention.away rfl rfl rfl rfl hattention.underway
  · exact hattention

theorem Kept.nRTPollMedia (tur : Tur) : Kept (s.nRTPollMedia tur) := by
  unfold NepClassMS.nRTPollMedia
  have hanswer : Kept { s with
      tick := { s.tick with answer := some tur, senseRetries := s.senseRetries } } :=
    h.away rfl rfl rfl rfl h.underway
  simp only
  generalize { s with
    tick := { s.tick with answer := some tur, senseRetries := s.senseRetries } } = s' at hanswer ⊢
  cases tur with
  | ready =>
    change Kept s'.nRTMediaReady
    unfold NepClassMS.nRTMediaReady
    split
    · exact hanswer.away rfl rfl rfl rfl trivial
    · have hready : Kept { s' with unitReady := true } :=
        hanswer.away rfl rfl rfl rfl hanswer.underway
      exact hready.count.away rfl rfl rfl rfl trivial
  | failed actual sense2 sense12 =>
    have hfailed := (hanswer.classify (.failed actual sense2 sense12)).edges (.failed actual sense2 sense12)
    exact hfailed.away rfl rfl rfl rfl trivial

theorem Kept.sample (hp : s.point = .pass)
    (hlt : s.changes + 1 < s.acknowledged + 2 ^ 32) : Kept s.sample := by
  unfold NepClassMS.sample
  have hchange := lastChange_ne hlt h.le
  by_cases hsame : s.acknowledged = s.changes
  · have hcovered : ∀ k ∈ s.owed, k ≤ s.changes → Covered s.log k := fun k hk hle =>
      h.acknowledged k hk (hsame ▸ hle)
    simp only [hchange.mpr hsame, ne_eq, not_true_eq_false, decide_false, Bool.not_false, Bool.true_and,
      Bool.false_eq_true, if_false]
    split
    · refine Kept.leave (h.away rfl rfl rfl rfl ?_) le_rfl hcovered
      simp only [Underway, hp]
    · exact h.away rfl rfl rfl rfl ⟨le_rfl, le_rfl, fun k hk hle => (hcovered k hk hle).1⟩
  · have hne : s.lastChange ≠ s.changeCount := fun heq => hsame (hchange.mp heq)
    simp only [hne, ne_eq, not_false_eq_true, decide_true, Bool.not_true, Bool.false_and,
      Bool.false_eq_true, if_false, if_true]
    exact h.away rfl rfl rfl rfl le_rfl

theorem Kept.nRTAnnounceChange (hp : s.point = .announce) :
    Kept s.nRTAnnounceChange := by
  have hsampled : s.tick.sampledAt ≤ s.changes := by
    simpa only [Underway, hp] using h.underway
  refine h.entry (.announced s.changes) nofun rfl rfl rfl rfl ?_
  refine ⟨hsampled, le_rfl, fun k hk hle => ?_⟩
  exact ⟨s.changes, List.mem_append_right _ (List.mem_singleton_self _), hle⟩

theorem Kept.dispatch (hp : s.point = .dispatch) : Kept s.dispatch := by
  obtain ⟨hsampled, hsince, hannounced⟩ : s.tick.sampledAt ≤ s.since ∧ s.since ≤ s.changes ∧
      ∀ k ∈ s.owed, k ≤ s.since → Announced s.log k := by
    simpa only [Underway, hp] using h.underway
  refine h.entry (.dispatched s.changes) nofun rfl rfl rfl rfl ?_
  have hcovered : ∀ k ∈ s.owed, k ≤ s.since → Covered (s.log ++ [.dispatched s.changes]) k :=
    fun k hk hle => ⟨(hannounced k hk hle).append _, s.changes,
      List.mem_append_right _ (List.mem_singleton_self _), hle.trans hsince⟩
  unfold Underway NepClassMS.dispatch
  cases s.unitReady && !s.ejected
  · exact ⟨hsampled, hsince, hcovered⟩
  · exact ⟨hsampled, hsince, hcovered⟩

theorem Kept.mounted (hp : s.point = .mount) (r : MountResult) : Kept (s.mounted r) := by
  have hunderway : s.tick.sampledAt ≤ s.since ∧ s.since ≤ s.changes ∧
      ∀ k ∈ s.owed, k ≤ s.since → Covered s.log k := by
    simpa only [Underway, hp] using h.underway
  exact h.away rfl rfl rfl rfl hunderway

end

theorem Kept.finish {retryMount : Bool} (h : Kept s) (hp : s.point = .finish retryMount)
    (hall : retryMount = false → ∀ k ∈ s.owed, k ≤ s.since) : Kept (s.finish retryMount) := by
  obtain ⟨hsampled, hsince, hcovered⟩ : s.tick.sampledAt ≤ s.since ∧ s.since ≤ s.changes ∧
      ∀ k ∈ s.owed, k ≤ s.since → Covered s.log k := by
    simpa only [Underway, hp] using h.underway
  have hticked : ∀ k ∈ s.owed, k ≤ s.tick.sampledAt → Covered s.log k := fun k hk hle =>
    hcovered k hk (hle.trans hsampled)
  cases retryMount with
  | true =>
    have hretry : Kept { s with mountRetries := s.mountRetries - 1, mediaUnsettled := true } :=
      h.away rfl rfl rfl rfl h.underway
    exact hretry.leave (hsampled.trans hsince) hticked
  | false =>
    have hlate : Kept { s with mediaUnsettled := false, acknowledged := s.changes } :=
      ⟨le_rfl, h.owed_le, fun k hk _ => hcovered k hk (hall rfl k hk), h.ended_le, h.followed,
        h.underway⟩
    exact hlate.leave (hsampled.trans hsince) hticked

theorem Kept.nRTHandleUnit (h : Kept s) : Kept s.nRTHandleUnit := by
  unfold NepClassMS.nRTHandleUnit
  split
  · refine h.away rfl rfl rfl rfl ?_
    unfold Underway
    cases s.removable && s.running <;> trivial
  · exact h.away rfl rfl rfl rfl h.underway

theorem finish_inv (h : step s .finish = some t) :
    ∃ retryMount, s.point = .finish retryMount ∧ s.finish retryMount = t := by
  cases hp : s.point with
  | finish retryMount =>
    refine ⟨retryMount, rfl, ?_⟩
    simpa only [step, hp, some.injEq] using h
  | _ => simp only [step, hp, reduceCtorEq] at h

theorem step_kept (h : Kept s) (hok : Acknowledges s e) (hstep : step s e = some t) : Kept t := by
  obtain ⟨hlt, hall⟩ := hok
  have hsame : ∀ u : NepClassMS, u.point = s.point → u.tick = s.tick → u.since = s.since →
      u.changes = s.changes → u.acknowledged = s.acknowledged → u.owed = s.owed → u.log = s.log →
      Kept u := by
    intro u hpoint htick hsince hchanges hack howed hlog
    refine h.away hchanges hack howed hlog ?_
    unfold Underway
    rw [hpoint, htick, hsince, hchanges, howed, hlog]
    exact h.underway
  cases e with
  | nRTHandleUnit =>
    obtain ⟨_, rfl⟩ := Runs.of_guard hstep
    exact h.nRTHandleUnit
  | answered tur =>
    obtain ⟨_, rfl⟩ := Runs.of_guard hstep
    exact h.nRTPollMedia tur
  | settleReady =>
    obtain ⟨_, rfl⟩ := Runs.of_guard hstep
    exact h.away rfl rfl rfl rfl trivial
  | sample =>
    obtain ⟨hp, rfl⟩ := Runs.of_guard hstep
    exact h.sample hp hlt
  | nRTAnnounceChange =>
    obtain ⟨hp, rfl⟩ := Runs.of_guard hstep
    exact h.nRTAnnounceChange hp
  | dispatch =>
    obtain ⟨hp, rfl⟩ := Runs.of_guard hstep
    exact h.dispatch hp
  | mounted r =>
    obtain ⟨hp, rfl⟩ := Runs.of_guard hstep
    exact h.mounted hp r
  | finish =>
    obtain ⟨retryMount, hp, rfl⟩ := finish_inv hstep
    refine h.finish hp fun hretry => hall rfl ?_
    rw [hp, hretry]
  | nRTDOSArrived =>
    obtain ⟨_, rfl⟩ := Runs.of_guard hstep
    exact hsame _ rfl rfl rfl rfl rfl rfl rfl
  | counted =>
    obtain rfl := some.inj hstep
    exact h.count
  | latch on | nodesRemoved | running on | gone =>
    obtain rfl := some.inj hstep
    exact hsame _ rfl rfl rfl rfl rfl rfl rfl
  | unbound =>
    obtain rfl := some.inj hstep
    exact (hsame { s with alive := false, unitReady := false } rfl rfl rfl rfl rfl rfl rfl).count
  | bound =>
    simp only [step] at hstep
    split at hstep
    · cases hstep
    · obtain rfl := some.inj hstep
      exact hsame _ rfl rfl rfl rfl rfl rfl rfl
  | inquired removable =>
    simp only [step] at hstep
    split at hstep
    · obtain rfl := some.inj hstep
      exact hsame _ rfl rfl rfl rfl rfl rfl rfl
    · obtain rfl := some.inj hstep
      refine Kept.count ?_
      exact hsame _ rfl rfl rfl rfl rfl rfl rfl

/-- A unit between two ticks, of which no change is waiting that this run has counted. -/
structure Starts (s : NepClassMS) : Prop where
  away : s.point = .away
  owed : s.owed = []
  log : s.log = []
  le : s.acknowledged ≤ s.changes

theorem Starts.kept (h : Starts s) : Kept s where
  le := h.le
  owed_le := by rw [h.owed]; nofun
  acknowledged := by rw [h.owed]; nofun
  ended_le := by rw [h.log]; nofun
  followed := by unfold Followed; rw [h.log]; nofun
  underway := by simp only [Underway, h.away]

/-- In every run whose mount passes acknowledge what they have announced, no change is lost. -/
theorem change_not_lost {evs : List Event} (hs : Starts s)
    (hrun : Runs.Run step Acknowledges s evs t) : Followed t := by
  have hkept : Kept t := by
    apply hrun.invariant Kept
    · exact hs.kept
    · exact fun _ _ _ hi hok hstep => step_kept hi hok hstep
  exact hkept.followed

def empty₀ : NepClassMS where
  alive := true
  running := true
  removable := true
  unitReady := false
  ejected := false
  hasMounted := false
  mountDeferred := false
  remountPending := false
  mediaUnsettled := true
  senseRetries := RT_SENSE_RETRIES
  mountRetries := RT_MOUNT_RETRIES
  autoUnmount := true
  preDOS := true
  changes := 0
  acknowledged := 0
  point := .away
  tick := ⟨0, none, 0, false⟩
  since := 0
  owed := []
  log := []

def insert₀ : List Event :=
  [.nRTHandleUnit, .answered .ready, .sample, .nRTAnnounceChange, .dispatch, .mounted ⟨true, 0⟩, .finish]

theorem change_not_lost_insert :
    Followed ((Runs.exec step empty₀ insert₀).get (by decide)) := by
  apply change_not_lost (s := empty₀) ⟨rfl, rfl, rfl, le_rfl⟩
  exact Runs.Run.get_meets (by decide) (by decide)

/-- The disc is swapped while it is being mounted, and nothing follows for the other one. -/
def swap₀ : List Event :=
  [.nRTHandleUnit, .answered .ready, .sample, .nRTAnnounceChange, .dispatch, .counted,
    .mounted ⟨true, 0⟩, .finish, .nRTHandleUnit, .answered .ready, .settleReady, .sample]

def announcedUpTo (n : ℕ) : Entry → Bool
  | .announced a => a ≤ n
  | _ => true

theorem change_lost :
    ¬ ∀ (s t : NepClassMS) (evs : List Event), Starts s →
      Runs.Run step (fun s _ => s.changes + 1 < s.acknowledged + 2 ^ 32) s evs t → Followed t := by
  intro hfollowed
  have hrun : Runs.Run step (fun s _ => s.changes + 1 < s.acknowledged + 2 ^ 32) empty₀ swap₀ _ :=
    Runs.Run.get_meets (by decide) (by decide)
  have hcovered := hfollowed _ _ _ ⟨rfl, rfl, rfl, le_rfl⟩ hrun ⟨2, some .ready, 8, false⟩ (by decide) 2
    (by decide) le_rfl
  obtain ⟨⟨a, ha, hle⟩, _⟩ := hcovered
  have hall : ((Runs.exec step empty₀ swap₀).get (by decide)).log.all (announcedUpTo 1) = true := by
    decide
  exact absurd (of_decide_eq_true (List.all_eq_true.mp hall _ ha)) (by omega)

end Neptune.Removable
