import Neptune.Proofs.ChangeNotLost

/-! What the ticks of a removable unit come to before there is DOS: how long it stays unsettled, and on
which answers. -/

namespace Neptune.Removable

open List Option

open NepClassMS

variable {s t : NepClassMS} {e : Event} {tur : Tur} {n mark : ℕ}

def Tick.becoming (tick : Tick) : Bool :=
  match tick.answer with
  | none => false
  | some tur => tur.becoming

/-- Failed with NOT READY/04, or with anything but NOT READY/3A while there were retries. -/
def Tick.waits (tick : Tick) : Bool :=
  match tick.answer with
  | none | some .ready => false
  | some tur => tur.becoming || (!tur.noMedium && tick.senseRetries ≠ 0)

def Entry.spends : Entry → Bool
  | .ended tick => tick.unsettled && !tick.becoming
  | _ => false

def bound : ℕ := RT_SENSE_RETRIES + RT_MOUNT_RETRIES + 1

/-- The verdict for the boot gate is right, and does not stay out for long. -/
structure Verdict (s : NepClassMS) : Prop where
  held : ∀ tick, .ended tick ∈ s.log → tick.waits = true → tick.unsettled = true
  bounded : s.log.countP Entry.spends ≤ bound

/-- Between two ticks of a unit that has just been bound, whatever its counts are. -/
structure Fresh (s : NepClassMS) : Prop where
  away : s.point = .away
  log : s.log = []
  removable : s.removable = true
  running : s.running = true
  remountPending : s.remountPending = false
  unsettled : s.mediaUnsettled = true
  senseRetries : s.senseRetries = RT_SENSE_RETRIES
  mountRetries : s.mountRetries = RT_MOUNT_RETRIES

def Event.early : Event → Bool
  | .nRTDOSArrived | .bound | .inquired _ | .running false => false
  | _ => true

/-- The count does not come round, and no mount pass that is not retried is over in a tick whose answer
says to wait. -/
def Waits (n : ℕ) (s : NepClassMS) (e : Event) : Prop :=
  e.early = true ∧ s.changes + 1 < n + 2 ^ 32 ∧
    (e = .finish → s.point = .finish false → s.tick.waits = false)

instance : Decidable (Waits n s e) := inferInstanceAs (Decidable (_ ∧ _ ∧ (_ → _ → _)))

def spent (s : NepClassMS) : ℕ := s.log.countP Entry.spends + s.senseRetries + s.mountRetries

/-- What is known in the course of a tick. `mark` is a number of changes at which none is pending. -/
def Ticking (mark : ℕ) (s : NepClassMS) : Prop :=
  match s.point with
  | .ready => s.tick.answer = some .ready
  | .pass =>
    (s.tick.waits = true → s.mediaUnsettled = true) ∧
      (s.mediaUnsettled = true → s.tick.becoming = false → spent s + 1 ≤ bound ∨ mark < s.changes)
  | .finish true => s.mountRetries ≠ 0
  | _ => True

structure Gate (n mark : ℕ) (s : NepClassMS) : Prop where
  removable : s.removable = true
  running : s.running = true
  remountPending : s.remountPending = false
  le : n ≤ s.changes
  lt : s.changes < n + 2 ^ 32
  mark_le : n ≤ mark
  mark_lt : mark < n + 2 ^ 32
  mark_eq : s.lastChange = ulong mark
  held : ∀ tick, .ended tick ∈ s.log → tick.waits = true → tick.unsettled = true
  room : spent s ≤ bound
  /-- One more tick, where the count has yet to come to the mark. -/
  credit : s.changes < mark → spent s + 1 ≤ bound
  ticking : Ticking mark s

theorem lastChange_eq_iff (h : Gate n mark s) : s.lastChange = s.changeCount ↔ s.changes = mark := by
  have hle := h.le
  have hlt := h.lt
  have hmark := h.mark_le
  have hmark' := h.mark_lt
  rw [h.mark_eq]
  unfold changeCount ulong
  omega

theorem Fresh.gate (h : Fresh s) : ∃ mark, Gate s.changes mark s := by
  have hspent : spent s + 1 = bound := by
    unfold spent bound
    rw [h.log, h.senseRetries, h.mountRetries]
    rfl
  have hmark : ∃ mark, s.changes ≤ mark ∧ mark < s.changes + 2 ^ 32 ∧ s.lastChange = ulong mark := by
    refine ⟨s.changes + (2 ^ 32 + s.lastChange - ulong s.changes) % 2 ^ 32, ?_⟩
    unfold lastChange ulong
    omega
  obtain ⟨mark, hle, hlt, heq⟩ := hmark
  exact ⟨mark, h.removable, h.running, h.remountPending, le_rfl, by omega, hle, hlt, heq,
    by rw [h.log]; nofun, by omega, fun _ => hspent.le, by simp only [Ticking, h.away]⟩

theorem Ticking.later (h : Ticking mark s) (hpoint : t.point = s.point) (htick : t.tick = s.tick)
    (hunsettled : t.mediaUnsettled = s.mediaUnsettled) (hspent : spent t = spent s)
    (hretries : t.mountRetries = s.mountRetries) (hle : s.changes ≤ t.changes) : Ticking mark t := by
  unfold Ticking at h ⊢
  rw [hpoint, htick, hunsettled, hspent, hretries]
  split at h <;> try exact h
  exact ⟨h.1, fun hu hb => (h.2 hu hb).imp id fun hlt => hlt.trans_le hle⟩

theorem Gate.later (h : Gate n mark s) (hremovable : t.removable = s.removable)
    (hrunning : t.running = s.running) (hremount : t.remountPending = s.remountPending)
    (hack : t.acknowledged = s.acknowledged)
    (hended : ∀ tick, .ended tick ∈ t.log → .ended tick ∈ s.log)
    (hspent : spent t ≤ spent s) (hle : s.changes ≤ t.changes) (hlt : t.changes < n + 2 ^ 32)
    (hticking : Ticking mark t) : Gate n mark t where
  removable := hremovable ▸ h.removable
  running := hrunning ▸ h.running
  remountPending := hremount ▸ h.remountPending
  le := h.le.trans hle
  lt := hlt
  mark_le := h.mark_le
  mark_lt := h.mark_lt
  mark_eq := by rw [← h.mark_eq]; unfold lastChange; rw [hack]
  held := fun tick htick => h.held tick (hended tick htick)
  room := hspent.trans h.room
  credit := fun hmark => (Nat.succ_le_succ hspent).trans (h.credit (hle.trans_lt hmark))
  ticking := hticking

theorem Gate.count (h : Gate n mark s) (hlt : s.changes + 1 < n + 2 ^ 32) : Gate n mark s.count :=
  h.later rfl rfl rfl rfl (fun _ => id) le_rfl (Nat.le_succ _) hlt
    (h.ticking.later rfl rfl rfl rfl rfl (Nat.le_succ _))

theorem spent_leave :
    spent s.leave = spent s + if s.mediaUnsettled && !s.tick.becoming then 1 else 0 := by
  unfold spent leave
  simp only [countP_append, countP_singleton]
  change _ + (if s.mediaUnsettled && !s.tick.becoming then 1 else 0) + _ + _ = _
  omega

theorem Gate.leave (h : Gate n mark s) (hheld : s.tick.waits = true → s.mediaUnsettled = true)
    (hspent : s.mediaUnsettled = true → s.tick.becoming = false →
      spent s + 1 ≤ bound ∧ (s.changes < mark → spent s + 2 ≤ bound)) : Gate n mark s.leave := by
  have hle : spent s.leave ≤ bound ∧ (s.changes < mark → spent s.leave + 1 ≤ bound) := by
    rw [spent_leave]
    split
    · rename_i hspends
      obtain ⟨hunsettled, hbecoming⟩ := Bool.and_eq_true_iff.mp hspends
      exact hspent hunsettled (Bool.not_eq_true' _ |>.mp hbecoming)
    · exact ⟨h.room, h.credit⟩
  exact {
    removable := h.removable
    running := h.running
    remountPending := h.remountPending
    le := h.le
    lt := h.lt
    mark_le := h.mark_le
    mark_lt := h.mark_lt
    mark_eq := h.mark_eq
    held := by
      intro tick htick
      rcases mem_append.mp htick with htick | htick
      · exact h.held tick htick
      · obtain rfl := Entry.ended.inj (mem_singleton.mp htick)
        exact hheld
    room := hle.1
    credit := hle.2
    ticking := trivial }

theorem noMedium_becoming (h : tur.noMedium = true) : tur.becoming = false := by
  unfold Tur.becoming
  obtain ⟨_, hasc⟩ := Bool.and_eq_true_iff.mp h
  rw [of_decide_eq_true hasc]
  exact Bool.and_false _

theorem attention_edge (h : tur.attention = true) : (tur.noMedium || tur.becoming) = false := by
  unfold Tur.attention at h
  unfold Tur.noMedium Tur.becoming
  obtain ⟨hkey, _⟩ := Bool.and_eq_true_iff.mp h
  rw [of_decide_eq_true hkey]
  rfl

theorem classify_spec (s : NepClassMS) (tur : Tur) :
    ∃ retries unsettled, s.classify tur = { s with senseRetries := retries, mediaUnsettled := unsettled } ∧
      retries ≤ s.senseRetries ∧
      (unsettled = true → tur.becoming = true ∨ retries + 1 ≤ s.senseRetries) ∧
      (tur.becoming = true ∨ tur.noMedium = false ∧ s.senseRetries ≠ 0 → unsettled = true) := by
  unfold classify
  by_cases hno : tur.noMedium = true
  · rw [if_pos hno]
    refine ⟨_, false, rfl, le_rfl, nofun, ?_⟩
    rintro (hbecoming | ⟨hnot, _⟩)
    · exact absurd (noMedium_becoming hno) (by rw [hbecoming]; decide)
    · exact absurd hno (by rw [hnot]; decide)
  rw [if_neg hno]
  by_cases hbecoming : tur.becoming = true
  · rw [if_pos hbecoming]
    exact ⟨_, true, rfl, le_rfl, fun _ => Or.inl hbecoming, fun _ => rfl⟩
  rw [if_neg hbecoming]
  by_cases hretries : s.senseRetries ≠ 0
  · rw [if_pos hretries]
    exact ⟨_, true, rfl, Nat.sub_le _ _, fun _ => Or.inr (by omega), fun _ => rfl⟩
  · rw [if_neg hretries]
    refine ⟨_, false, rfl, le_rfl, nofun, ?_⟩
    rintro (h | ⟨_, h⟩)
    · exact absurd h hbecoming
    · exact absurd h hretries

theorem edges_spec (s : NepClassMS) (tur : Tur) :
    ∃ changes owed unitReady, s.edges tur =
        { s with changes := changes, owed := owed, unitReady := unitReady } ∧
      s.changes ≤ changes ∧ changes ≤ s.changes + 1 := by
  unfold edges
  by_cases hattention : tur.attention = true
  · rw [if_pos hattention, attention_edge hattention]
    exact ⟨s.changes + 1, _, _, rfl, Nat.le_succ _, le_rfl⟩
  · rw [if_neg hattention]
    simp only
    split
    · exact ⟨s.changes + 1, _, false, rfl, Nat.le_succ _, le_rfl⟩
    · exact ⟨_, _, _, rfl, le_rfl, Nat.le_succ _⟩

theorem Gate.nRTPollMedia (h : Gate n mark s) (hlt : s.changes + 1 < n + 2 ^ 32) (tur : Tur) :
    Gate n mark (s.nRTPollMedia tur) := by
  have hroom := h.room
  have hcredit := h.credit
  cases tur with
  | ready =>
    unfold NepClassMS.nRTPollMedia nRTMediaReady
    simp only
    split
    · exact h.later rfl rfl rfl rfl (fun _ => id) le_rfl le_rfl h.lt rfl
    · refine h.later rfl rfl rfl rfl (fun _ => id) le_rfl (Nat.le_succ _) hlt ⟨nofun, fun _ _ => ?_⟩
      -- where the count comes to the mark with this change, the tick is the one more
      rcases Nat.lt_or_ge s.changes mark with hmark | hmark
      · exact Or.inl (hcredit hmark)
      · exact Or.inr (Nat.lt_succ_of_le hmark)
  | failed actual sense2 sense12 =>
    unfold NepClassMS.nRTPollMedia nRTMediaFailed
    simp only
    generalize htur : Tur.failed actual sense2 sense12 = tur
    obtain ⟨retries, unsettled, hclassify, hretries, hspent, hwaits⟩ := classify_spec
      { s with tick := { s.tick with answer := some tur, senseRetries := s.senseRetries } } tur
    rw [hclassify]
    obtain ⟨changes, owed, unitReady, hedges, hge, hle⟩ := edges_spec
      { s with
        tick := { s.tick with answer := some tur, senseRetries := s.senseRetries }
        senseRetries := retries, mediaUnsettled := unsettled } tur
    rw [hedges]
    simp only at hretries hspent hwaits hge hle
    have hless : s.log.countP Entry.spends + retries + s.mountRetries ≤ spent s := by
      unfold spent
      omega
    refine h.later rfl rfl rfl rfl (fun _ => id) hless hge (hle.trans_lt hlt) ⟨?_, ?_⟩
    · intro hwait
      apply hwaits
      subst htur
      simpa only [Tick.waits, Bool.or_eq_true, Bool.and_eq_true, Bool.not_eq_true', ne_eq,
        decide_eq_true_eq] using hwait
    · intro hunsettled hbecoming
      rcases hspent hunsettled with hbecomes | hfewer
      · exact absurd hbecomes (by rw [show tur.becoming = false from hbecoming]; decide)
      · refine Or.inl ?_
        change s.log.countP Entry.spends + retries + s.mountRetries + 1 ≤ bound
        unfold spent at hroom
        omega

theorem Gate.settleReady (h : Gate n mark s) (hp : s.point = .ready) : Gate n mark s.settleReady := by
  have hready : s.tick.answer = some .ready := by
    simpa only [Ticking, hp] using h.ticking
  refine h.later rfl rfl rfl rfl (fun _ => id) le_rfl le_rfl h.lt ⟨?_, ?_⟩
  · intro hwaits
    change s.tick.waits = true at hwaits
    rw [Tick.waits, hready] at hwaits
    exact Bool.noConfusion hwaits
  · intro hunsettled _
    unfold NepClassMS.settleReady at hunsettled
    simp only at hunsettled
    split at hunsettled
    · exact absurd hunsettled (by decide)
    · rename_i hne
      have hmark : s.changes ≠ mark := fun heq => hne ((lastChange_eq_iff h).mpr heq)
      rcases Nat.lt_or_gt_of_ne hmark with hlt | hgt
      · exact Or.inl (h.credit hlt)
      · exact Or.inr hgt

theorem Gate.sample (h : Gate n mark s) (hp : s.point = .pass) : Gate n mark s.sample := by
  have hticking : (s.tick.waits = true → s.mediaUnsettled = true) ∧
      (s.mediaUnsettled = true → s.tick.becoming = false → spent s + 1 ≤ bound ∨ mark < s.changes) := by
    simpa only [Ticking, hp] using h.ticking
  have hlook : Gate n mark { s with tick := { s.tick with sampledAt := s.changes } } := by
    refine h.later rfl rfl rfl rfl (fun _ => id) le_rfl le_rfl h.lt ?_
    unfold Ticking
    simp only [hp]
    exact hticking
  have hpending := h.remountPending
  unfold NepClassMS.sample
  simp only
  split
  · rename_i hreturn
    have hsame : s.lastChange = s.changeCount := by
      simpa only [Bool.and_eq_true, Bool.not_eq_true', decide_eq_false_iff_not, ne_eq, not_not, hpending,
        and_true] using hreturn
    have hmark := (lastChange_eq_iff h).mp hsame
    refine hlook.leave hticking.1 fun hunsettled hbecoming => ?_
    refine ⟨(hticking.2 hunsettled hbecoming).resolve_right ?_, ?_⟩
    · exact fun hlt => absurd hmark hlt.ne'
    · exact fun hlt => absurd hmark hlt.ne
  · refine h.later rfl rfl hpending.symm rfl (fun _ => id) le_rfl le_rfl h.lt ?_
    unfold Ticking
    cases decide (s.lastChange ≠ s.changeCount) <;> trivial

theorem mem_ended {entry : Entry} {log : List Entry} (hentry : ∀ tick, entry ≠ .ended tick)
    (tick : Tick) (htick : .ended tick ∈ log ++ [entry]) : .ended tick ∈ log := by
  rcases mem_append.mp htick with htick | htick
  · exact htick
  · exact absurd (mem_singleton.mp htick).symm (hentry tick)

theorem Gate.nRTAnnounceChange (h : Gate n mark s) : Gate n mark s.nRTAnnounceChange := by
  have hspent : spent s.nRTAnnounceChange = spent s := by
    unfold spent NepClassMS.nRTAnnounceChange
    simp only [countP_append, countP_singleton]
    rfl
  exact h.later rfl rfl rfl rfl (mem_ended nofun) hspent.le le_rfl h.lt trivial

theorem Gate.dispatch (h : Gate n mark s) : Gate n mark s.dispatch := by
  have hspent : spent s.dispatch = spent s := by
    unfold spent NepClassMS.dispatch
    simp only [countP_append, countP_singleton]
    rfl
  refine h.later rfl rfl rfl rfl (mem_ended nofun) hspent.le le_rfl h.lt ?_
  unfold Ticking NepClassMS.dispatch
  cases s.unitReady && !s.ejected <;> trivial

theorem Gate.mounted (h : Gate n mark s) (r : MountResult) : Gate n mark (s.mounted r) := by
  refine h.later rfl rfl rfl rfl (fun _ => id) le_rfl le_rfl h.lt ?_
  have hpoint : ∀ retryMount, (s.mounted r).point = .finish retryMount → retryMount = true →
      s.mountRetries ≠ 0 := by
    rintro _ hpoint rfl
    have hretry := Point.finish.inj hpoint
    simp only [Bool.and_eq_true, decide_eq_true_eq, ne_eq] at hretry
    exact hretry.1.2
  unfold Ticking
  split <;> try trivial
  case _ hfinish => exact hpoint _ hfinish rfl

theorem Gate.finish {retryMount : Bool} (h : Gate n mark s) (hp : s.point = .finish retryMount)
    (hwaits : retryMount = false → s.tick.waits = false) :
    ∃ mark', Gate n mark' (s.finish retryMount) := by
  have hroom := h.room
  have hcredit := h.credit
  cases retryMount with
  | true =>
    have hretries : s.mountRetries ≠ 0 := by
      simpa only [Ticking, hp] using h.ticking
    -- the tick that is unsettled is paid with a retry
    have hless : spent { s with mountRetries := s.mountRetries - 1, mediaUnsettled := true } + 1 =
        spent s := by
      unfold spent
      simp only
      omega
    have hleave : Gate n mark { s with
        point := .away, mountRetries := s.mountRetries - 1, mediaUnsettled := true } :=
      h.later rfl rfl rfl rfl (fun _ => id) (Nat.le_of_succ_le hless.le) le_rfl h.lt trivial
    refine ⟨mark, hleave.leave (fun _ => rfl) fun _ _ => ⟨?_, fun hlt => ?_⟩⟩
    · exact hless.le.trans hroom
    · exact (Nat.succ_le_succ hless.le).trans (hcredit hlt)
  | false =>
    have hleave : Gate n s.changes { s with
        point := .away, mediaUnsettled := false, acknowledged := s.changes } :=
      ⟨h.removable, h.running, h.remountPending, h.le, h.lt, h.le, h.lt, rfl, h.held, hroom,
        fun hlt => absurd hlt (lt_irrefl _), trivial⟩
    refine ⟨s.changes, hleave.leave (fun hwait => ?_) nofun⟩
    exact absurd hwait (by rw [show _ = false from hwaits rfl]; decide)

theorem Gate.nRTHandleUnit (h : Gate n mark s) (hp : s.point = .away) : Gate n mark s.nRTHandleUnit := by
  unfold NepClassMS.nRTHandleUnit
  split
  · refine h.later rfl rfl rfl rfl (fun _ => id) le_rfl le_rfl h.lt ?_
    simp only [Ticking, h.removable, h.running, Bool.and_true, if_true]
  · refine h.later rfl rfl rfl rfl (fun _ => id) le_rfl le_rfl h.lt ?_
    simp only [Ticking, hp]

theorem step_gate (h : Gate n mark s) (hok : Waits n s e) (hstep : step s e = some t) :
    ∃ mark', Gate n mark' t := by
  obtain ⟨hearly, hlt, hfinish⟩ := hok
  have hsame : ∀ u : NepClassMS, u.removable = s.removable → u.running = s.running →
      u.remountPending = s.remountPending → u.acknowledged = s.acknowledged → u.log = s.log →
      u.point = s.point → u.tick = s.tick → u.mediaUnsettled = s.mediaUnsettled →
      u.senseRetries = s.senseRetries → u.mountRetries = s.mountRetries →
      u.changes = s.changes → Gate n mark u := by
    intro u hremovable hrunning hremount hack hlog hpoint htick hunsettled hsense hmount hchanges
    have hspent : spent u = spent s := by
      unfold spent
      rw [hlog, hsense, hmount]
    refine h.later hremovable hrunning hremount hack (by rw [hlog]; exact fun _ => id) hspent.le
      hchanges.ge (hchanges ▸ h.lt) ?_
    exact h.ticking.later hpoint htick hunsettled hspent hmount hchanges.ge
  cases e with
  | nRTHandleUnit =>
    obtain ⟨hp, rfl⟩ := Runs.of_guard hstep
    exact ⟨mark, h.nRTHandleUnit hp⟩
  | answered tur =>
    obtain ⟨_, rfl⟩ := Runs.of_guard hstep
    exact ⟨mark, h.nRTPollMedia hlt tur⟩
  | settleReady =>
    obtain ⟨hp, rfl⟩ := Runs.of_guard hstep
    exact ⟨mark, h.settleReady hp⟩
  | sample =>
    obtain ⟨hp, rfl⟩ := Runs.of_guard hstep
    exact ⟨mark, h.sample hp⟩
  | nRTAnnounceChange =>
    obtain ⟨_, rfl⟩ := Runs.of_guard hstep
    exact ⟨mark, h.nRTAnnounceChange⟩
  | dispatch =>
    obtain ⟨_, rfl⟩ := Runs.of_guard hstep
    exact ⟨mark, h.dispatch⟩
  | mounted r =>
    obtain ⟨_, rfl⟩ := Runs.of_guard hstep
    exact ⟨mark, h.mounted r⟩
  | finish =>
    obtain ⟨retryMount, hp, rfl⟩ := finish_inv hstep
    refine h.finish hp fun hretry => hfinish rfl ?_
    rw [hp, hretry]
  | nRTDOSArrived => exact nomatch hearly
  | counted =>
    obtain rfl := some.inj hstep
    exact ⟨mark, h.count hlt⟩
  | latch on | nodesRemoved | gone =>
    obtain rfl := some.inj hstep
    exact ⟨mark, hsame _ rfl rfl rfl rfl rfl rfl rfl rfl rfl rfl rfl⟩
  | running on =>
    obtain rfl := some.inj hstep
    cases on with
    | false => exact nomatch hearly
    | true => exact ⟨mark, hsame _ rfl h.running.symm rfl rfl rfl rfl rfl rfl rfl rfl rfl⟩
  | unbound =>
    obtain rfl := some.inj hstep
    have hgone : Gate n mark { s with alive := false, unitReady := false } :=
      hsame _ rfl rfl rfl rfl rfl rfl rfl rfl rfl rfl rfl
    exact ⟨mark, hgone.count hlt⟩
  | bound => exact nomatch hearly
  | inquired removable => exact nomatch hearly

/-- In every run before there is DOS whose mount passes leave a unit unsettled that is to be waited
for. -/
theorem media_verdict {evs : List Event} (hs : Fresh s)
    (hrun : Runs.Run step (Waits s.changes) s evs t) : Verdict t := by
  have hgate : ∃ mark, Gate s.changes mark t := by
    apply hrun.invariant (fun u => ∃ mark, Gate s.changes mark u)
    · exact hs.gate
    · rintro u e v ⟨mark, h⟩ hok hstep
      exact step_gate h hok hstep
  obtain ⟨mark, h⟩ := hgate
  refine ⟨h.held, le_trans ?_ h.room⟩
  unfold spent
  omega

def spinUp₀ : List Event :=
  [.nRTHandleUnit, .answered (.failed 18 2 4), .sample,
    .nRTHandleUnit, .answered .ready, .sample, .nRTAnnounceChange, .dispatch, .mounted ⟨false, 0⟩, .finish,
    .nRTHandleUnit, .answered .ready, .settleReady, .sample, .nRTAnnounceChange, .dispatch,
    .mounted ⟨true, 0⟩, .finish]

theorem media_verdict_spin_up : Verdict ((Runs.exec step empty₀ spinUp₀).get (by decide)) := by
  apply media_verdict (s := empty₀) ⟨rfl, rfl, rfl, rfl, rfl, rfl, rfl, rfl⟩
  exact Runs.Run.get_meets (by decide) (by decide)

/-- UNIT ATTENTION/28 is the first answer: the change is taken for a mount that has been tried. -/
def attention₀ : List Event :=
  [.nRTHandleUnit, .answered (.failed 18 6 0x28), .sample, .nRTAnnounceChange, .dispatch, .finish]

theorem media_settled_early :
    ¬ ∀ (s t : NepClassMS) (evs : List Event), Fresh s →
      Runs.Run step (fun s e => e.early = true ∧ s.changes + 1 < 2 ^ 32) s evs t → Verdict t := by
  intro hverdict
  have hrun : Runs.Run step (fun s e => e.early = true ∧ s.changes + 1 < 2 ^ 32) empty₀ attention₀ _ :=
    Runs.Run.get_meets (by decide) (by decide)
  have hheld := (hverdict _ _ _ ⟨rfl, rfl, rfl, rfl, rfl, rfl, rfl, rfl⟩ hrun).held
    ⟨1, some (.failed 18 6 0x28), 8, false⟩ (by decide) (by decide)
  exact nomatch hheld

end Neptune.Removable
