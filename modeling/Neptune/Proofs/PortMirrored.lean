import Neptune.Spec.HubPort

/-! Where no port event comes at a time at which it is lost, the record of a port is that of the device
that is attached. -/

namespace Neptune.HubPort

open List Option

open NepClassHub Runs

variable {s t : NepClassHub} {p : Port} {u : UsbPortStatus} {rest : List Change} {c : Change}
  {after : Option UsbPortStatus} {on : PsdDevice → Bool} {e : Event} {w : World} {kind : Kind}

structure Mirrored (t : NepClassHub) : Prop where
  empty : t.port.attached = none → t.downstream = none
  record : ∀ pd ∈ t.downstream, t.port.attached = some pd.device ∧ pd.device + 1 = t.port.attaches ∧
    pd.isSuspended = t.port.suspended
  missing : ∀ device ∈ t.port.attached, t.downstream = none → device ∈ t.excused

def Tears (kind : Kind) (u : UsbPortStatus) : Prop :=
  kind = .superspeed ∧ (u.change .configError = true ∨ u.change .linkState = true ∧ u.failed = true)

def GoneSeen (u : UsbPortStatus) : Prop := u.change .connection = true ∧ u.connection = false

def NewSeen (u : UsbPortStatus) : Prop := u.change .connection = true ∧ u.connection = true

def Config.last : Config → Bool
  | .poll r _ _ | .settle r _ | .enumerate r | .powerDisable r | .powerOff r | .powerOn r => 3 ≤ r + 1
  | .disableBad => true
  | .clearBad rest => .connection ∈ rest
  | .status | .disable _ | .reset _ => false

def Again (after : Option UsbPortStatus) : Prop := ∃ u ∈ after, NewSeen u

def MayAttach (s : NepClassHub) : Prop :=
  match s.pc with
  | .start | .debounce => True
  | .wait | .changed | .setSuspended _ => s.downstream = none
  | .clear u rest =>
    (Tears s.kind u → ¬ GoneSeen u) ∧
    (¬ Tears s.kind u → (NewSeen u ∧ s.downstream = none) ∨
      (.connection ∉ rest ∧ (s.downstream = none ∨ GoneSeen u)))
  | .handle u =>
    (Tears s.kind u → ¬ GoneSeen u) ∧ (¬ Tears s.kind u → s.downstream = none ∨ GoneSeen u)
  | .connect u => s.downstream = none ∨ GoneSeen u
  | .warmReset u | .warmPoll u _ | .warmClear u _ => ¬ GoneSeen u
  | .config after c => (∀ u ∈ after, ¬ GoneSeen u) ∧ (c.last = true → Again after)

def MayLatch (s : NepClassHub) (c : Change) : Prop :=
  match s.pc with
  | .clear u rest => Tears s.kind u ∨ c ∉ rest ∨ s.downstream = none
  | _ => True

def InTime (s : NepClassHub) : Event → Prop
  | .attach _ => MayAttach s
  | .detach => MayLatch s .connection
  | .wake => MayLatch s s.kind.wakes
  | .linkError c => MayLatch s c
  | _ => True

instance : Decidable (Tears kind u) := inferInstanceAs (Decidable (_ ∧ (_ ∨ _ ∧ _)))

instance : Decidable (GoneSeen u) := inferInstanceAs (Decidable (_ ∧ _))

instance : Decidable (NewSeen u) := inferInstanceAs (Decidable (_ ∧ _))

instance : Decidable (Again after) := inferInstanceAs (Decidable (∃ u ∈ after, NewSeen u))

instance : Decidable (MayAttach s) := by
  unfold MayAttach
  split <;> infer_instance

instance : Decidable (MayLatch s c) := by
  unfold MayLatch
  split <;> infer_instance

instance : Decidable (InTime s e) := by
  unfold InTime
  split <;> infer_instance

def Kind.tells : Kind → List Change
  | .usb2 => [.suspend]
  | .superspeed => [.linkState, .configError]

def Excused (s : NepClassHub) : Prop := ∀ device ∈ s.port.attached, device ∈ s.excused

def Settled (s : NepClassHub) : Prop :=
  (s.downstream = none → Excused s) ∧ ∀ pd ∈ s.downstream, s.port.attached = some pd.device

def Owes (s : NepClassHub) : Prop := s.port.change .connection = true ∨ Settled s

def Near (s : NepClassHub) : Prop :=
  ∀ pd ∈ s.downstream, s.port.attached = some pd.device ∨ s.port.attached = none

def Told (s : NepClassHub) (on : PsdDevice → Bool) (rest : List Change) : Prop :=
  ∀ pd ∈ s.downstream, s.port.attached = some pd.device →
    (on pd = s.port.suspended ∧ s.port.failed = false) ∨
    ∃ c ∈ s.kind.tells, c ∉ rest ∧ s.port.change c = true

structure Open (s : NepClassHub) (on : PsdDevice → Bool) : Prop where
  owes : Owes s
  near : Near s
  told : Told s on []

def flag (kind : Kind) (u : UsbPortStatus) (pd : PsdDevice) : Bool :=
  match kind with
  | .usb2 => if u.change .suspend then u.suspend else pd.isSuspended
  | .superspeed =>
    if u.change .linkState then
      if u.up then false else if u.suspend then true else pd.isSuspended
    else pd.isSuspended

/-- The change handling holds the sample `u`, and has yet to clear `rest`. -/
structure Seen (s : NepClassHub) (u : UsbPortStatus) (rest : List Change) : Prop where
  gone : GoneSeen u → s.port.attached = none ∨
    (¬ Tears s.kind u ∧ .connection ∉ rest ∧ s.port.change .connection = true)
  settled : ¬ Tears s.kind u → ¬ GoneSeen u → ¬ (NewSeen u ∧ s.downstream = none) →
    ((.connection ∉ rest ∧ s.port.change .connection = true) ∨ Settled s) ∧ Near s ∧
      Told s (flag s.kind u) rest

structure Linked (s : NepClassHub) (u : UsbPortStatus) : Prop where
  gone : GoneSeen u → s.port.attached = none ∨ s.port.change .connection = true
  settled : ¬ GoneSeen u → ¬ (NewSeen u ∧ s.downstream = none) → Open s (·.isSuspended)

structure Configures (s : NepClassHub) (after : Option UsbPortStatus) (c : Config) : Prop where
  none : s.downstream = none
  gone : ∀ u ∈ after, GoneSeen u → s.port.attached = Option.none ∧ c = .status
  last : c.last = true → ¬ Again after → Excused s
  cleared : ∀ rest, c = .clearBad rest → ¬ Again after → s.port.change .connection = true ∨ Excused s
  disables : ∀ connection, c = .disable connection → connection = true
  awake : c = .status ∨ (∃ connection, c = .disable connection) ∨ (∃ r, c = .reset r) ∨
    s.port.suspended = false

def At (s : NepClassHub) : Prop :=
  match s.pc with
  | .start | .debounce => s.downstream = none
  | .wait | .changed => Open s (·.isSuspended)
  | .setSuspended on => Open s fun _ => on
  | .clear u rest => rest <:+ s.kind.clears ∧ Seen s u rest
  | .handle u => Seen s u []
  | .connect u => Linked s u
  | .warmReset u | .warmPoll u _ | .warmClear u _ =>
    s.downstream = none ∧ (GoneSeen u → s.port.attached = none)
  | .config after c => Configures s after c

structure Inv (s : NepClassHub) : Prop where
  attaches : ∀ device ∈ s.port.attached, device + 1 = s.port.attaches
  enabled : s.port.enabled = true → s.port.attached.isSome = true ∧ s.port.failed = false
  powered : s.port.powered = true ∨ ∃ after r, s.pc = .config after (.powerOn r)
  failed : s.kind = .usb2 → s.port.failed = false
  at_ : At s

theorem Near.of_none (h : s.downstream = none) : Near s := by
  unfold Near
  rw [h]
  exact nofun

theorem Told.of_none (h : s.downstream = none) : Told s on rest := by
  unfold Told
  rw [h]
  exact nofun

theorem Open.of_none (h : s.downstream = none) (howes : s.port.change .connection = true ∨ Excused s) :
    Open s on := by
  refine ⟨howes.imp_right fun hexcused => ⟨fun _ => hexcused, ?_⟩, .of_none h, .of_none h⟩
  rw [h]
  exact nofun

theorem Excused.of_none (h : s.port.attached = none) : Excused s := by
  unfold Excused
  rw [h]
  exact nofun

theorem Open.of_detached (h : s.port.attached = none)
    (hchange : s.port.change .connection = true ∨ s.downstream = none) : Open s on := by
  refine ⟨?_, fun _ _ => .inr h, fun pd _ hpd => absurd (h.symm.trans hpd) nofun⟩
  refine hchange.imp_right fun hnone => ⟨fun _ => .of_none h, ?_⟩
  rw [hnone]
  exact nofun

/-- The attachment and what the record mirrors stay, and no change is forgotten. -/
structure Quiet (s t : NepClassHub) : Prop where
  kind : t.kind = s.kind
  downstream : t.downstream = s.downstream
  pc : t.pc = s.pc
  excused : t.excused = s.excused
  attached : t.port.attached = s.port.attached
  change : ∀ c, s.port.change c = true → t.port.change c = true

theorem Quiet.settled (h : Quiet s t) (hs : Settled s) : Settled t := by
  unfold Settled Excused at hs ⊢
  rw [h.downstream, h.attached, h.excused]
  exact hs

theorem Quiet.excuses (h : Quiet s t) (hs : Excused s) : Excused t := by
  unfold Excused at hs ⊢
  rw [h.attached, h.excused]
  exact hs

theorem Quiet.near (h : Quiet s t) (hs : Near s) : Near t := by
  unfold Near at hs ⊢
  rw [h.downstream, h.attached]
  exact hs

def Tells (s t : NepClassHub) (rest : List Change) : Prop :=
  t.downstream = none ∨ (t.port.suspended = s.port.suspended ∧ (s.port.failed = false → t.port.failed = false)) ∨
    ∃ c ∈ s.kind.tells, c ∉ rest ∧ t.port.change c = true

theorem Quiet.told (h : Quiet s t) (htells : Tells s t rest) (hs : Told s on rest) : Told t on rest := by
  rcases htells with hnone | ⟨hsuspended, hfailed⟩ | ⟨c, hwho, hc, hlatched⟩
  · exact .of_none hnone
  · intro pd hpd hattached
    rw [h.downstream] at hpd
    rw [h.attached] at hattached
    rw [hsuspended, h.kind]
    rcases hs pd hpd hattached with ⟨hon, hok⟩ | ⟨c, hwho, hc, hlatched⟩
    · exact .inl ⟨hon, hfailed hok⟩
    · exact .inr ⟨c, hwho, hc, h.change c hlatched⟩
  · intro pd hpd hattached
    rw [h.kind]
    exact .inr ⟨c, hwho, hc, hlatched⟩

theorem Quiet.open (h : Quiet s t) (htells : Tells s t []) (hs : Open s on) : Open t on :=
  ⟨hs.owes.imp (h.change _) h.settled, h.near hs.near, h.told htells hs.told⟩

def forgets (s : NepClassHub) : List Change :=
  match s.pc with
  | .clear _ rest => rest
  | _ => []

theorem Quiet.at (h : Quiet s t) (hawake : s.port.suspended = false → t.port.suspended = false)
    (htells : Tells s t (forgets s) ∨ ∃ u rest, s.pc = .clear u rest ∧ Tears s.kind u) (hs : At s) : At t := by
  unfold At at hs ⊢
  unfold forgets at htells
  rw [h.pc]
  cases hpc : s.pc with
  | start | debounce =>
    rw [hpc] at hs
    exact h.downstream.trans hs
  | wait | changed | setSuspended on =>
    rw [hpc] at hs htells
    exact h.open (htells.resolve_right nofun) hs
  | clear u rest =>
    rw [hpc] at hs htells
    obtain ⟨hsuffix, hgone, hsettled⟩ := hs
    refine ⟨by rw [h.kind]; exact hsuffix, fun hg => ?_, fun htears hg hnew => ?_⟩
    · rw [h.attached, h.kind]
      exact (hgone hg).imp_right fun hlatched => ⟨hlatched.1, hlatched.2.1, h.change _ hlatched.2.2⟩
    · rw [h.kind] at htears ⊢
      rw [h.downstream] at hnew
      obtain ⟨howes, hnear, htold⟩ := hsettled htears hg hnew
      have htell := htells.resolve_right (by
        rintro ⟨u', rest', heq, htears'⟩
        obtain ⟨rfl, rfl⟩ := Pc.clear.inj heq
        exact htears htears')
      exact ⟨howes.imp (fun hlatched => ⟨hlatched.1, h.change _ hlatched.2⟩) h.settled, h.near hnear,
        h.told htell htold⟩
  | handle u =>
    rw [hpc] at hs htells
    obtain ⟨hgone, hsettled⟩ := hs
    refine ⟨fun hg => ?_, fun htears hg hnew => ?_⟩
    · rw [h.attached, h.kind]
      exact (hgone hg).imp_right fun hlatched => ⟨hlatched.1, hlatched.2.1, h.change _ hlatched.2.2⟩
    · rw [h.kind] at htears ⊢
      rw [h.downstream] at hnew
      obtain ⟨howes, hnear, htold⟩ := hsettled htears hg hnew
      exact ⟨howes.imp (fun hlatched => ⟨hlatched.1, h.change _ hlatched.2⟩) h.settled, h.near hnear,
        h.told (htells.resolve_right nofun) htold⟩
  | connect u =>
    rw [hpc] at hs htells
    obtain ⟨hgone, hsettled⟩ := hs
    refine ⟨fun hg => ?_, fun hg hnew => ?_⟩
    · rw [h.attached]
      exact (hgone hg).imp_right (h.change _)
    · rw [h.downstream] at hnew
      exact h.open (htells.resolve_right nofun) (hsettled hg hnew)
  | warmReset u | warmPoll u n | warmClear u rest =>
    rw [hpc] at hs
    rw [h.downstream, h.attached]
    exact hs
  | config after c =>
    rw [hpc] at hs
    refine ⟨h.downstream.trans hs.none, ?_, fun hlast hagain => h.excuses (hs.last hlast hagain), ?_,
      hs.disables, ?_⟩
    · rw [h.attached]
      exact hs.gone
    · exact fun rest hc hagain => (hs.cleared rest hc hagain).imp (h.change _) h.excuses
    · exact hs.awake.imp_right (Or.imp_right (Or.imp_right hawake))

theorem update_change {f : Change → Bool} {c' : Change} (h : f c' = true) :
    Function.update f c true c' = true := by
  by_cases hc : c' = c
  · rw [hc, Function.update_self]
  · rw [Function.update_of_ne hc, h]

theorem Inv.at_quiet (h : Inv s) (hq : Quiet s t) (hattaches : t.port.attaches = s.port.attaches)
    (hpowered : t.port.powered = s.port.powered)
    (henabled : t.port.enabled = true → t.port.attached.isSome = true ∧ t.port.failed = false)
    (hfailed : s.kind = .usb2 → t.port.failed = false)
    (hawake : s.port.suspended = false → t.port.suspended = false)
    (htells : Tells s t (forgets s) ∨ ∃ u rest, s.pc = .clear u rest ∧ Tears s.kind u) : Inv t := by
  refine ⟨?_, henabled, ?_, ?_, hq.at hawake htells h.at_⟩
  · rw [hq.attached, hattaches]
    exact h.attaches
  · rw [hpowered, hq.pc]
    exact h.powered
  · rw [hq.kind]
    exact hfailed

theorem MayLatch.tells (h : MayLatch s c) (hc : c ∈ s.kind.tells) (hdown : t.downstream = s.downstream)
    (hlatched : t.port.change c = true) :
    Tells s t (forgets s) ∨ ∃ u rest, s.pc = .clear u rest ∧ Tears s.kind u := by
  unfold MayLatch at h
  unfold Tells forgets
  cases hpc : s.pc with
  | clear u rest =>
    rw [hpc] at h
    rcases h with htears | hrest | hnone
    · exact .inr ⟨u, rest, rfl, htears⟩
    · exact .inl (.inr (.inr ⟨c, hc, hrest, hlatched⟩))
    · exact .inl (.inl (hdown.trans hnone))
  | _ => exact .inl (.inr (.inr ⟨c, hc, not_mem_nil, hlatched⟩))

theorem Inv.wake (h : Inv s) (hin : MayLatch s s.kind.wakes) : Inv (s.setPort (s.port.wake s.kind)) := by
  have hlatched : (s.setPort (s.port.wake s.kind)).port.change s.kind.wakes = true := Function.update_self ..
  refine h.at_quiet ⟨rfl, rfl, rfl, rfl, rfl, fun _ => update_change⟩ rfl rfl h.enabled h.failed (fun _ => rfl) ?_
  refine hin.tells ?_ rfl hlatched
  cases s.kind with
  | usb2 => exact mem_singleton.mpr rfl
  | superspeed => exact mem_cons_self

theorem Inv.linkError (h : Inv s) (hkind : s.kind = .superspeed) (hc : c = .linkState ∨ c = .configError)
    (hin : MayLatch s c) : Inv (s.setPort (s.port.fail c)) := by
  have hlatched : (s.setPort (s.port.fail c)).port.change c = true := Function.update_self ..
  refine h.at_quiet ⟨rfl, rfl, rfl, rfl, rfl, fun _ => update_change⟩ rfl rfl nofun ?_ (fun _ => rfl) ?_
  · exact fun husb2 => absurd (husb2.symm.trans hkind) nofun
  refine hin.tells ?_ rfl hlatched
  rw [hkind]
  exact mem_cons.mpr (hc.imp_right mem_singleton.mpr)

theorem Inv.resetDone (h : Inv s) (enabled : Bool) : Inv (s.setPort (s.port.resetDone enabled)) := by
  refine h.at_quiet ⟨rfl, rfl, rfl, rfl, rfl, fun _ => update_change⟩ rfl rfl ?_ h.failed id
    (.inl (.inr (.inl ⟨rfl, id⟩)))
  intro henabled
  change (enabled && s.port.attached.isSome && !s.port.failed) = true at henabled
  rw [Bool.and_eq_true, Bool.and_eq_true, Bool.not_eq_true'] at henabled
  exact ⟨henabled.1.2, henabled.2⟩

theorem Inv.warmResetDone (h : Inv s) : Inv (s.setPort s.port.warmResetDone) :=
  h.at_quiet ⟨rfl, rfl, rfl, rfl, rfl, fun _ => update_change⟩ rfl rfl (fun henabled => ⟨(h.enabled henabled).1, rfl⟩)
    (fun _ => rfl) id (.inl (.inr (.inl ⟨rfl, fun _ => rfl⟩)))

theorem Inv.no_power (h : Inv s) (hpowered : s.port.powered ≠ true) :
    ∃ after r, s.pc = .config after (.powerOn r) := h.powered.resolve_left hpowered

theorem Inv.power (h : Inv s) (hpc : ∀ after r, s.pc ≠ .config after (.powerOn r)) : s.port.powered = true := by
  by_contra hpowered
  obtain ⟨after, r, heq⟩ := h.no_power hpowered
  exact hpc after r heq

def Pc.outside : Pc → Bool
  | .config _ _ => false
  | _ => true

theorem Inv.power_outside (h : Inv s) (hpc : s.pc.outside = true) : s.port.powered = true := by
  apply h.power
  intro after r heq
  rw [heq] at hpc
  exact absurd hpc Bool.false_ne_true

theorem change_connection (h : p.powered = true) :
    Function.update p.change .connection (p.powered || p.change .connection) .connection = true := by
  rw [Function.update_self, h]
  rfl

theorem Inv.detach (h : Inv s) (hin : MayLatch s .connection) : Inv (s.setPort s.port.detach) := by
  have hnone : (s.setPort s.port.detach).port.attached = none := rfl
  refine ⟨nofun, nofun, h.powered, fun _ => rfl, ?_⟩
  have hat := h.at_
  unfold MayLatch at hin
  unfold At at hat ⊢
  rw [show (s.setPort s.port.detach).pc = s.pc from rfl]
  cases hpc : s.pc with
  | start | debounce =>
    rw [hpc] at hat
    exact hat
  | wait | changed | setSuspended on =>
    have hlatched := change_connection (h.power_outside (by rw [hpc]; rfl))
    exact Open.of_detached hnone (.inl hlatched)
  | clear u rest =>
    rw [hpc] at hat hin
    have hlatched := change_connection (h.power_outside (by rw [hpc]; rfl))
    refine ⟨hat.1, fun _ => .inl hnone, fun htears hg hnew => ?_⟩
    refine ⟨?_, fun _ _ => .inr hnone, fun pd _ hpd => absurd (hnone.symm.trans hpd) nofun⟩
    rcases hin.resolve_left htears with hrest | hdown
    · exact .inl ⟨hrest, hlatched⟩
    · refine .inr ⟨fun _ => .of_none hnone, ?_⟩
      change ∀ pd ∈ s.downstream, _
      rw [hdown]
      exact nofun
  | handle u =>
    rw [hpc] at hat
    have hlatched := change_connection (h.power_outside (by rw [hpc]; rfl))
    refine ⟨fun _ => .inl hnone, fun htears hg hnew => ?_⟩
    exact ⟨.inl ⟨not_mem_nil, hlatched⟩, fun _ _ => .inr hnone,
      fun pd _ hpd => absurd (hnone.symm.trans hpd) nofun⟩
  | connect u =>
    have hlatched := change_connection (h.power_outside (by rw [hpc]; rfl))
    exact ⟨fun _ => .inl hnone, fun _ _ => .of_detached hnone (.inl hlatched)⟩
  | warmReset u | warmPoll u n | warmClear u rest =>
    rw [hpc] at hat
    exact ⟨hat.1, fun _ => hnone⟩
  | config after c =>
    rw [hpc] at hat
    refine ⟨hat.none, fun u hu hg => ⟨hnone, (hat.gone u hu hg).2⟩, fun _ _ => .of_none hnone,
      fun _ _ _ => .inr (.of_none hnone), hat.disables, .inr (.inr (.inr rfl))⟩

theorem Inv.attach (h : Inv s) (hnone : s.port.attached = none) (hin : MayAttach s) (lowSpeed : Bool) :
    Inv (s.setPort (s.port.attach lowSpeed)) := by
  have hat := h.at_
  have henabled : s.port.enabled ≠ true := by
    intro henabled
    have hsome := (h.enabled henabled).1
    rw [hnone] at hsome
    exact absurd hsome Bool.false_ne_true
  refine ⟨?_, fun hcontra => absurd hcontra henabled, h.powered, h.failed, ?_⟩
  · rintro device hdevice
    obtain rfl := some.inj hdevice
    rfl
  unfold MayAttach at hin
  unfold At at hat ⊢
  rw [show (s.setPort (s.port.attach lowSpeed)).pc = s.pc from rfl]
  cases hpc : s.pc with
  | start | debounce =>
    rw [hpc] at hat
    exact hat
  | wait | changed | setSuspended on =>
    rw [hpc] at hin
    have hlatched := change_connection (h.power_outside (by rw [hpc]; rfl))
    exact Open.of_none hin (.inl hlatched)
  | clear u rest =>
    rw [hpc] at hat hin
    have hlatched := change_connection (h.power_outside (by rw [hpc]; rfl))
    refine ⟨hat.1, fun hg => ?_, fun htears hg hnew => ?_⟩
    · have htears : ¬ Tears s.kind u := fun htears => hin.1 htears hg
      refine .inr ⟨htears, ?_, hlatched⟩
      rcases hin.2 htears with hnew | hrest
      · exact absurd (hg.2.symm.trans hnew.1.2) Bool.false_ne_true
      · exact hrest.1
    · obtain ⟨hrest, hdown⟩ := (hin.2 htears).resolve_left hnew
      have hdown := hdown.resolve_right hg
      exact ⟨.inl ⟨hrest, hlatched⟩, .of_none hdown, .of_none hdown⟩
  | handle u =>
    rw [hpc] at hat hin
    have hlatched := change_connection (h.power_outside (by rw [hpc]; rfl))
    refine ⟨fun hg => ?_, fun htears hg hnew => ?_⟩
    · exact .inr ⟨fun htears => hin.1 htears hg, not_mem_nil, hlatched⟩
    · have hdown := (hin.2 htears).resolve_right hg
      exact ⟨.inl ⟨not_mem_nil, hlatched⟩, .of_none hdown, .of_none hdown⟩
  | connect u =>
    rw [hpc] at hin
    have hlatched := change_connection (h.power_outside (by rw [hpc]; rfl))
    exact ⟨fun _ => .inr hlatched, fun hg _ => .of_none (hin.resolve_right hg) (.inl hlatched)⟩
  | warmReset u | warmPoll u n | warmClear u rest =>
    rw [hpc] at hat hin
    exact ⟨hat.1, fun hg => absurd hg hin⟩
  | config after c =>
    rw [hpc] at hat hin
    refine ⟨hat.none, fun u hu hg => absurd hg (hin.1 u hu), fun hlast hagain => ?_, fun rest hc hagain => ?_,
      hat.disables, hat.awake⟩
    · exact absurd (hin.2 hlast) hagain
    · by_cases hpowered : s.port.powered = true
      · exact .inl (change_connection hpowered)
      · obtain ⟨after', r, heq⟩ := h.no_power hpowered
        rw [hpc, hc] at heq
        exact absurd (Pc.config.inj heq).2 nofun

theorem Inv.move (h : Inv s) (hkind : t.kind = s.kind) (hattached : t.port.attached = s.port.attached)
    (hattaches : t.port.attaches = s.port.attaches) (hfailed : t.port.failed = s.port.failed)
    (henabled : t.port.enabled = true → s.port.enabled = true)
    (hpowered : t.port.powered = true ∨ ∃ after r, t.pc = .config after (.powerOn r)) (hat : At t) : Inv t := by
  refine ⟨?_, fun hon => ?_, hpowered, ?_, hat⟩
  · rw [hattached, hattaches]
    exact h.attaches
  · rw [hattached, hfailed]
    exact h.enabled (henabled hon)
  · rw [hkind, hfailed]
    exact h.failed

theorem connected_eq (h : s.port.powered = true) : s.port.status.connection = s.port.attached.isSome := by
  change (s.port.attached.isSome && s.port.powered) = _
  rw [h, Bool.and_true]

theorem attached_none (h : s.port.attached.isSome = false) : s.port.attached = none :=
  isNone_iff_eq_none.mp (by rw [← not_isSome, h]; rfl)

theorem told_sampled (hpowered : s.port.powered = true) (hfailed : s.kind = .usb2 → s.port.failed = false)
    (hnot : ¬ Tears s.kind s.port.status) (h : Told s (·.isSuspended) []) :
    Told (s.goto (.clear s.port.status s.kind.clears)) (flag s.kind s.port.status) s.kind.clears := by
  intro pd hpd hattached
  have hconnected : s.port.connected = true := by
    have hsome : s.port.attached.isSome = true := isSome_iff_exists.mpr ⟨_, hattached⟩
    change (s.port.attached.isSome && s.port.powered) = true
    rw [hsome, hpowered]
    rfl
  have hold := h pd hpd hattached
  refine .inl ?_
  change flag s.kind s.port.status pd = s.port.suspended ∧ s.port.failed = false
  unfold flag
  cases hkind : s.kind with
  | usb2 =>
    rw [hkind] at hold
    refine ⟨?_, hfailed hkind⟩
    by_cases hsuspend : s.port.status.change .suspend = true
    · dsimp only
      rw [if_pos hsuspend]
      rfl
    · dsimp only
      rw [if_neg hsuspend]
      rcases hold with ⟨hon, -⟩ | ⟨c, hc, -, hlatched⟩
      · exact hon
      · rw [mem_singleton.mp hc] at hlatched
        exact absurd hlatched hsuspend
  | superspeed =>
    rw [hkind] at hold hnot
    unfold Tears at hnot
    simp only [true_and, not_or, not_and] at hnot
    by_cases hlink : s.port.status.change .linkState = true
    · have hok : s.port.failed = false := Bool.not_eq_true _ |>.mp (hnot.2 hlink)
      refine ⟨?_, hok⟩
      dsimp only
      rw [if_pos hlink]
      change (if (s.port.connected && !s.port.suspended && !s.port.failed) = true then false
        else if s.port.suspended = true then true else pd.isSuspended) = s.port.suspended
      rw [hconnected, hok]
      cases s.port.suspended <;> rfl
    · dsimp only
      rw [if_neg hlink]
      rcases hold with hon | ⟨c, hc, -, hlatched⟩
      · exact hon
      · rcases mem_cons.mp hc with rfl | hc
        · exact absurd hlatched hlink
        · rw [mem_singleton.mp hc] at hlatched
          exact absurd hlatched hnot.1

theorem Inv.sample (h : Inv s) (hpc : s.pc = .changed) :
    At (s.goto (.clear s.port.status s.kind.clears)) := by
  have hpowered : s.port.powered = true := h.power_outside (by rw [hpc]; rfl)
  have hopen : Open s (·.isSuspended) := by
    have hat := h.at_
    unfold At at hat
    rw [hpc] at hat
    exact hat
  refine ⟨suffix_refl _, fun hg => .inl ?_, fun htears hg hnew => ⟨.inr ?_, hopen.near, ?_⟩⟩
  · have hnone := hg.2
    rw [connected_eq hpowered] at hnone
    exact attached_none hnone
  · change Settled s
    rcases hopen.owes with hlatched | hsettled
    · have hconnection : s.port.status.connection = true := by
        by_contra hcontra
        exact hg ⟨hlatched, Bool.not_eq_true _ |>.mp hcontra⟩
      have hdown : s.downstream ≠ none := fun hnone => hnew ⟨⟨hlatched, hconnection⟩, hnone⟩
      refine ⟨fun hnone => absurd hnone hdown, fun pd hpd => (hopen.near pd hpd).resolve_right ?_⟩
      intro hnone
      rw [connected_eq hpowered, hnone] at hconnection
      exact absurd hconnection Bool.false_ne_true
    · exact hsettled
  · exact told_sampled hpowered h.failed htears hopen.told

theorem clear_of_ne {c' : Change} (h : c' ≠ c) : (p.clear c).change c' = p.change c' :=
  Function.update_of_ne h ..

theorem At.clear (hpc : s.pc = .clear u (c :: rest)) (hat : At s) :
    At ((s.setPort (s.port.clear c)).goto (.clear u rest)) := by
  unfold At at hat
  rw [hpc] at hat
  obtain ⟨hsuffix, hgone, hsettled⟩ := hat
  -- a change that is latched and will not be cleared is not the one that is cleared now
  have hkeeps : ∀ c', c' ∉ c :: rest → s.port.change c' = true → c' ∉ rest ∧ (s.port.clear c).change c' = true := by
    intro c' hc' hlatched
    refine ⟨fun hin => hc' (mem_cons_of_mem _ hin), ?_⟩
    have hne : c' ≠ c := fun heq => hc' (by rw [heq]; exact mem_cons_self)
    rw [clear_of_ne hne]
    exact hlatched
  refine ⟨(suffix_cons c rest).trans hsuffix, fun hg => ?_, fun htears hg hnew => ?_⟩
  · exact (hgone hg).imp_right fun ⟨htears, hrest, hlatched⟩ => ⟨htears, hkeeps _ hrest hlatched⟩
  · obtain ⟨howes, hnear, htold⟩ := hsettled htears hg hnew
    refine ⟨howes.imp_left fun hlatched => hkeeps _ hlatched.1 hlatched.2, hnear, fun pd hpd hattached => ?_⟩
    rcases htold pd hpd hattached with hon | ⟨c', hc', hrest, hlatched⟩
    · exact .inl hon
    · exact .inr ⟨c', hc', hkeeps c' hrest hlatched⟩

theorem Open.goto (h : Open s on) (pc : Pc) : Open (s.goto pc) on := ⟨h.owes, h.near, h.told⟩

theorem Open.write (h : Open s on) (hport : t.port = s.port) (hkind : t.kind = s.kind)
    (hexcused : t.excused = s.excused)
    (hdown : t.downstream = s.downstream.map fun pd => { pd with isSuspended := on pd }) :
    Open t (·.isSuspended) := by
  have hback : ∀ pd' ∈ t.downstream, ∃ pd ∈ s.downstream, pd'.device = pd.device ∧ pd'.isSuspended = on pd := by
    intro pd' hpd'
    rw [hdown] at hpd'
    obtain ⟨pd, hpd, rfl⟩ := map_eq_some_iff.mp hpd'
    exact ⟨pd, hpd, rfl, rfl⟩
  refine ⟨h.owes.imp (by rw [hport]; exact id) fun hsettled => ⟨fun hnone => ?_, fun pd' hpd' => ?_⟩,
    fun pd' hpd' => ?_, fun pd' hpd' hattached => ?_⟩
  · rw [hdown, map_eq_none_iff] at hnone
    unfold Excused
    rw [hport, hexcused]
    exact hsettled.1 hnone
  · obtain ⟨pd, hpd, hdevice, -⟩ := hback pd' hpd'
    rw [hport, hdevice]
    exact hsettled.2 pd hpd
  · obtain ⟨pd, hpd, hdevice, -⟩ := hback pd' hpd'
    rw [hport, hdevice]
    exact h.near pd hpd
  · obtain ⟨pd, hpd, hdevice, hon⟩ := hback pd' hpd'
    rw [hport, hdevice] at hattached
    rw [hport, hkind, hon]
    exact h.told pd hpd hattached

theorem linkChange_tears (h : Tears s.kind u) :
    s.linkChange u = ({ s with downstream := none } : NepClassHub).goto (.warmReset u) := by
  obtain ⟨hkind, hbad⟩ := h
  unfold linkChange
  rw [hkind]
  dsimp only
  rw [if_pos (hbad.symm.imp_left And.left), if_pos (hbad.imp_right And.right)]

theorem linkChange_flag (h : ¬ Tears s.kind u) :
    s.linkChange u = { s with
      downstream := s.downstream.map fun pd => { pd with isSuspended := flag s.kind u pd }
      pc := .connect u } := by
  have hsame : s.downstream.map (fun pd => { pd with isSuspended := pd.isSuspended }) = s.downstream :=
    map_id'
  unfold linkChange flag setSuspended goto
  cases hkind : s.kind with
  | usb2 =>
    dsimp only
    by_cases hsuspend : u.change .suspend = true
    · simp only [hsuspend, if_true]
    · simp only [hsuspend, if_false, Bool.false_eq_true, hsame]
  | superspeed =>
    rw [hkind] at h
    unfold Tears at h
    simp only [true_and, not_or, not_and] at h
    dsimp only
    by_cases hlink : u.change .linkState = true
    · have hok := h.2 hlink
      rw [if_pos (.inl hlink), if_neg (by rw [not_or]; exact ⟨h.1, hok⟩)]
      simp only [hlink, if_true]
      by_cases hup : u.up = true
      · simp only [hup, if_true]
      · by_cases hsuspend : u.suspend = true
        · simp only [hup, hsuspend, if_true, if_false, Bool.false_eq_true]
        · simp only [hup, hsuspend, if_false, Bool.false_eq_true, hsame]
    · rw [if_neg (by rw [not_or]; exact ⟨hlink, h.1⟩)]
      simp only [hlink, if_false, Bool.false_eq_true, hsame]

theorem At.handle (hpc : s.pc = .handle u) (hat : At s) : At (s.linkChange u) := by
  unfold At at hat
  rw [hpc] at hat
  obtain ⟨hgone, hsettled⟩ := hat
  by_cases htears : Tears s.kind u
  · rw [linkChange_tears htears]
    exact ⟨rfl, fun hg => (hgone hg).resolve_right fun hnot => hnot.1 htears⟩
  · rw [linkChange_flag htears]
    refine ⟨fun hg => (hgone hg).imp_right fun hlatched => hlatched.2.2, fun hg hnew => ?_⟩
    have hold := hsettled htears hg fun hnew' => hnew ⟨hnew'.1, by rw [hnew'.2]; rfl⟩
    have hopen : Open s (flag s.kind u) := ⟨hold.1.imp_left And.right, hold.2.1, hold.2.2⟩
    exact hopen.write rfl rfl rfl rfl

theorem At.connect (hpc : s.pc = .connect u) (hat : At s) : At (s.connectChange u) := by
  unfold At at hat
  rw [hpc] at hat
  obtain ⟨hgone, hopen⟩ := hat
  unfold connectChange
  by_cases hchange : u.change .connection = true
  · rw [if_pos hchange]
    dsimp only
    cases hconnection : u.connection with
    | true =>
      rw [if_pos rfl]
      cases hdown : s.downstream with
      | none => exact rfl
      | some pd =>
        have hg : ¬ GoneSeen u := fun hg => absurd (hg.2.symm.trans hconnection) nofun
        have hnew : ¬ (NewSeen u ∧ s.downstream = none) := fun hnew => absurd (hdown.symm.trans hnew.2) nofun
        have hold := hopen hg hnew
        rw [if_neg (by rintro ⟨-, hsome⟩; exact absurd hsome Bool.false_ne_true), ← hdown]
        exact hold.goto .wait
    | false =>
      rw [if_neg Bool.false_ne_true, if_neg (fun hboth => absurd hboth.1 nofun)]
      change Open _ _
      refine Open.of_none rfl ?_
      exact ((hgone ⟨hchange, hconnection⟩).imp_left fun hnone => Excused.of_none hnone).symm
  · rw [if_neg hchange]
    exact (hopen (fun hg => hchange hg.1) fun hnew => hchange hnew.1.1).goto .wait

theorem excuse_excused : Excused s.excuse := by
  intro device hdevice
  exact mem_append_right _ (mem_toList.mpr hdevice)

theorem At.of_excused (hdown : s.downstream = none) (hexcused : Excused s) : At (s.goto .wait) :=
  Open.of_none hdown (.inr hexcused)

theorem At.configured_none (hgone : ∀ u ∈ after, GoneSeen u → s.port.attached = none)
    (hleft : ¬ Again after → s.port.change .connection = true ∨ Excused s) : At (s.configured after none) := by
  cases after with
  | none =>
    have hagain : ¬ Again none := by
      rintro ⟨u, hu, -⟩
      exact absurd hu (not_mem_none u)
    exact Open.of_none rfl (hleft hagain)
  | some u =>
    refine ⟨fun hg => .inl (hgone u rfl hg), fun hg hnew => Open.of_none rfl (hleft ?_)⟩
    rintro ⟨u', hu', hnew'⟩
    obtain rfl := some.inj hu'
    exact hnew ⟨hnew', rfl⟩

theorem Configures.step {c c' : Config} (h : Configures s after c) (hc : c ≠ .status)
    (hdown : t.downstream = s.downstream) (hattached : t.port.attached = s.port.attached)
    (hexcused : t.excused = s.excused) (hlast : c'.last = true → c.last = true)
    (hcleared : ∀ rest, c' = .clearBad rest → ¬ Again after → t.port.change .connection = true ∨ Excused s)
    (hdisables : ∀ connection, c' ≠ .disable connection)
    (hawake : (∃ r, c' = .reset r) ∨ t.port.suspended = false) : Configures t after c' := by
  have hmove : Excused s → Excused t := by
    unfold Excused
    rw [hattached, hexcused]
    exact id
  refine ⟨hdown.trans h.none, fun u hu hg => absurd (h.gone u hu hg).2 hc, ?_, ?_,
    fun b hb => absurd hb (hdisables b), .inr (.inr hawake)⟩
  · exact fun hlast' hagain => hmove (h.last (hlast hlast') hagain)
  · exact fun rest hc' hagain => (hcleared rest hc' hagain).imp_right hmove

theorem Configures.suspended {c' : Config} (h : Configures s after c') (hc : c' ≠ .status) (hd : ∀ b, c' ≠ .disable b)
    (hr : ∀ r, c' ≠ .reset r) : s.port.suspended = false := by
  rcases h.awake with rfl | ⟨b, rfl⟩ | ⟨r, rfl⟩ | hawake
  · exact absurd rfl hc
  · exact absurd rfl (hd b)
  · exact absurd rfl (hr r)
  · exact hawake

theorem Inv.goto (h : Inv s) (hport : t.port = s.port) (hkind : t.kind = s.kind)
    (hpc : ∀ after r, s.pc ≠ .config after (.powerOn r)) (hat : At t) : Inv t := by
  refine h.move hkind ?_ ?_ ?_ ?_ (.inl ?_) hat
  all_goals rw [hport]
  · exact id
  · exact h.power hpc

theorem Configures.nextReset {c : Config} {r : ℕ} (h : Configures s after c) (hc : c ≠ .status)
    (hlast : c.last = decide (3 ≤ r + 1)) (hdown : t.downstream = s.downstream)
    (hattached : t.port.attached = s.port.attached) (hexcused : t.excused = s.excused)
    (hawake : t.port.suspended = false) : At (t.nextReset after r) := by
  unfold NepClassHub.nextReset
  by_cases hr : r + 1 < 3
  · rw [if_pos hr]
    exact h.step hc hdown hattached hexcused nofun nofun nofun (.inl ⟨_, rfl⟩)
  · rw [if_neg hr]
    have hislast : c.last = true := by
      rw [hlast]
      exact decide_eq_true (by omega)
    cases t.kind with
    | usb2 => exact h.step hc hdown hattached hexcused (fun _ => hislast) nofun nofun (.inr hawake)
    | superspeed =>
      exact h.step hc hdown hattached hexcused (fun _ => hislast)
        (fun _ _ hagain => .inr (h.last hislast hagain)) nofun (.inr hawake)

theorem Configures.polled {r d dt : ℕ} (h : Configures s after (.poll r d dt)) (u : UsbPortStatus) :
    At (s.polled after r u) := by
  have hawake := h.suspended nofun nofun nofun
  unfold NepClassHub.polled
  split
  · exact h.step nofun rfl rfl rfl id nofun nofun (.inr hawake)
  · exact h.nextReset nofun rfl rfl rfl rfl hawake

theorem At.allocDevice {connection : Bool} (hgone : ∀ u ∈ after, GoneSeen u → s.port.attached = none)
    (hnone : connection = false → s.port.attached = none)
    (hsome : connection = true → ∀ u ∈ after, ¬ GoneSeen u) (hdown : s.downstream = none) :
    At (s.allocDevice w after connection) := by
  unfold NepClassHub.allocDevice
  cases connection with
  | false =>
    rw [if_pos rfl]
    exact .configured_none hgone fun _ => .inr (.of_none (hnone rfl))
  | true =>
    rw [if_neg (Ne.symm Bool.false_ne_true)]
    split
    · exact ⟨hdown, fun u hu hg => absurd hg (hsome rfl u hu), nofun, nofun, nofun, .inr (.inr (.inl ⟨0, rfl⟩))⟩
    · exact At.configured_none (s := s.excuse) hgone fun _ => .inr excuse_excused

theorem At.enumerated {device : ℕ} (hattached : s.port.attached = some device) (hawake : s.port.suspended = false)
    (hok : s.port.failed = false) (hgone : ∀ u ∈ after, ¬ GoneSeen u) :
    At (s.configured after (some ⟨device, false⟩)) := by
  have hdevice : ∀ pd ∈ (s.configured after (some ⟨device, false⟩)).downstream, pd = ⟨device, false⟩ :=
    fun pd hpd => (some.inj hpd).symm
  have hopen : Open (s.configured after (some ⟨device, false⟩)) (·.isSuspended) := by
    refine ⟨.inr ⟨nofun, fun pd hpd => ?_⟩, fun pd hpd => .inl ?_, fun pd hpd _ => .inl ?_⟩
    · rw [hdevice pd hpd]
      exact hattached
    · rw [hdevice pd hpd]
      exact hattached
    · rw [hdevice pd hpd]
      exact ⟨hawake.symm, hok⟩
  cases after with
  | none => exact hopen
  | some u => exact ⟨fun hg => absurd hg (hgone u rfl), fun _ _ => hopen⟩

theorem allocDevice_port (s : NepClassHub) (w : World) (after : Option UsbPortStatus) (connection : Bool) :
    (s.allocDevice w after connection).port = s.port ∧
      (s.allocDevice w after connection).kind = s.kind := by
  unfold NepClassHub.allocDevice
  split
  · exact ⟨rfl, rfl⟩
  · split <;> exact ⟨rfl, rfl⟩

theorem polled_port (r : ℕ) : (s.polled after r u).port = s.port ∧ (s.polled after r u).kind = s.kind := by
  unfold NepClassHub.polled
  split <;> exact ⟨rfl, rfl⟩

theorem Inv.nConfigurePort {c : Config} (h : Inv s) (hpc : s.pc = .config after c) (w : World) :
    Inv (s.nConfigurePort w after c) := by
  have hat : Configures s after c := by
    have hat := h.at_
    unfold At at hat
    rw [hpc] at hat
    exact hat
  have hno : (∀ r, c ≠ .powerOn r) → ∀ after' r, s.pc ≠ .config after' (.powerOn r) := by
    intro hc after' r heq
    exact hc r (Pc.config.inj (hpc.symm.trans heq)).2
  have hgone : c ≠ .status → ∀ u ∈ after, ¬ GoneSeen u := fun hc u hu hg => hc (hat.gone u hu hg).2
  cases c with
  | status =>
    have hpowered := h.power (hno nofun)
    have hnone : s.port.status.connection = false → s.port.attached = none := by
      rw [connected_eq hpowered]
      exact attached_none
    unfold NepClassHub.nConfigurePort
    dsimp only
    split
    · rename_i hon
      have hsome : s.port.attached.isSome = true := (h.enabled hon.2).1
      refine h.goto rfl rfl (hno nofun) ⟨hat.none, fun u hu hg => ?_, nofun, nofun, fun b hb => ?_, ?_⟩
      · rw [(hat.gone u hu hg).1] at hsome
        exact absurd hsome Bool.false_ne_true
      · rw [← Config.disable.inj hb]
        exact (connected_eq hpowered).trans hsome
      · exact .inr (.inl ⟨_, rfl⟩)
    · refine h.goto (allocDevice_port ..).1 (allocDevice_port ..).2 (hno nofun)
        (.allocDevice (fun u hu hg => (hat.gone u hu hg).1) hnone ?_ hat.none)
      intro hconnection u hu hg
      rw [connected_eq hpowered, (hat.gone u hu hg).1] at hconnection
      exact absurd hconnection Bool.false_ne_true
  | disable connection =>
    have hconnection := hat.disables connection rfl
    unfold NepClassHub.nConfigurePort
    have hport := allocDevice_port (s.setPort s.port.disable) w after connection
    refine h.move hport.2 ?_ ?_ ?_ ?_ (.inl ?_) (.allocDevice (fun u hu hg => absurd hg (hgone nofun u hu)) ?_
      (fun _ => hgone nofun) hat.none)
    all_goals try rw [hport.1]
    · rfl
    · rfl
    · rfl
    · exact nofun
    · exact h.power (hno nofun)
    · exact fun hnot => absurd (hconnection.symm.trans hnot) nofun
  | reset r =>
    unfold NepClassHub.nConfigurePort
    refine h.move rfl rfl rfl rfl nofun (.inl (h.power (hno nofun))) ?_
    exact ⟨hat.none, fun u hu hg => absurd hg (hgone nofun u hu), fun _ _ => excuse_excused (s := s), nofun, nofun,
      .inr (.inr (.inr rfl))⟩
  | poll r d dt =>
    have hawake := hat.suspended nofun nofun nofun
    unfold NepClassHub.nConfigurePort
    dsimp only
    split
    · exact h.goto (polled_port r).1 (polled_port r).2 (hno nofun) (hat.polled _)
    · split
      · exact h.goto rfl rfl (hno nofun) (hat.step nofun rfl rfl rfl id nofun nofun (.inr hawake))
      · split
        · split
          · exact h.goto rfl rfl (hno nofun) (hat.step nofun rfl rfl rfl id nofun nofun (.inr hawake))
          · exact h.goto (polled_port r).1 (polled_port r).2 (hno nofun) (hat.polled _)
        · split
          · exact h.goto rfl rfl (hno nofun) (hat.step nofun rfl rfl rfl id nofun nofun (.inr hawake))
          · exact h.goto (polled_port r).1 (polled_port r).2 (hno nofun) (hat.polled _)
  | settle r rest =>
    have hawake := hat.suspended nofun nofun nofun
    cases rest with
    | nil => exact h.goto rfl rfl (hno nofun) (hat.step nofun rfl rfl rfl id nofun nofun (.inr hawake))
    | cons c rest =>
      exact h.move rfl rfl rfl rfl id (.inl (h.power (hno nofun)))
        (hat.step nofun rfl rfl rfl id nofun nofun (.inr hawake))
  | enumerate r =>
    have hawake := hat.suspended nofun nofun nofun
    have hnext : Inv (s.nextReset after r) :=
      h.goto rfl rfl (hno nofun) (hat.nextReset nofun rfl rfl rfl rfl hawake)
    unfold NepClassHub.nConfigurePort
    dsimp only
    split
    · rename_i device hdevice
      split
      · rename_i hdone
        refine h.goto rfl rfl (hno nofun) (At.enumerated (s := { s with excused := _ }) hdevice hawake ?_ (hgone nofun))
        exact (h.enabled hdone.2).2
      · exact hnext
    · exact hnext
  | powerDisable r =>
    have hawake := hat.suspended nofun nofun nofun
    exact h.move rfl rfl rfl rfl nofun (.inl (h.power (hno nofun)))
      (hat.step nofun rfl rfl rfl id nofun nofun (.inr hawake))
  | powerOff r =>
    exact h.move rfl rfl rfl rfl nofun (.inr ⟨_, _, rfl⟩) (hat.step nofun rfl rfl rfl id nofun nofun (.inr rfl))
  | powerOn r =>
    have hawake := hat.suspended nofun nofun nofun
    exact h.move rfl rfl rfl rfl id (.inl rfl) (hat.nextReset nofun rfl rfl rfl rfl hawake)
  | disableBad =>
    have hawake := hat.suspended nofun nofun nofun
    exact h.move rfl rfl rfl rfl nofun (.inl (h.power (hno nofun))) (hat.step nofun rfl rfl rfl (fun _ => rfl)
      (fun _ _ hagain => .inr (hat.last rfl hagain)) nofun (.inr hawake))
  | clearBad rest =>
    have hawake := hat.suspended nofun nofun nofun
    cases rest with
    | nil =>
      exact h.goto rfl rfl (hno nofun)
        (.configured_none (fun u hu hg => absurd hg (hgone nofun u hu)) (hat.cleared [] rfl))
    | cons c rest =>
      refine h.move rfl rfl rfl rfl id (.inl (h.power (hno nofun)))
        (hat.step nofun rfl rfl rfl (fun hin => ?_) (fun rest' hrest hagain => ?_) nofun (.inr hawake))
      · exact decide_eq_true (mem_cons_of_mem _ (of_decide_eq_true hin))
      · by_cases hin : Change.connection ∈ c :: rest
        · exact .inr (hat.last (decide_eq_true hin) hagain)
        · refine (hat.cleared _ rfl hagain).imp_left fun hlatched => ?_
          have hne : Change.connection ≠ c := fun heq => hin (by rw [heq]; exact mem_cons_self)
          exact (clear_of_ne hne).trans hlatched

theorem Inv.goto_outside (h : Inv s) (hpc : s.pc.outside = true) (hport : t.port = s.port)
    (hkind : t.kind = s.kind) (hat : At t) : Inv t := by
  refine h.move hkind ?_ ?_ ?_ ?_ (.inl ?_) hat
  all_goals rw [hport]
  · exact id
  · exact h.power_outside hpc

theorem Seen.goto (h : Seen s u rest) (pc : Pc) : Seen (s.goto pc) u rest := ⟨h.gone, h.settled⟩

theorem linkChange_port : (s.linkChange u).port = s.port ∧ (s.linkChange u).kind = s.kind := by
  by_cases htears : Tears s.kind u
  · rw [linkChange_tears htears]
    exact ⟨rfl, rfl⟩
  · rw [linkChange_flag htears]
    exact ⟨rfl, rfl⟩

theorem connectChange_port : (s.connectChange u).port = s.port ∧ (s.connectChange u).kind = s.kind := by
  unfold connectChange
  split <;> exact ⟨rfl, rfl⟩

theorem Inv.shadow (h : Inv s) (hpc : s.pc.outside = true) (hdown : s.downstream = none) :
    Inv (if s.kind = .usb2 ∧ w.shadowed = true then s.excuse.goto .wait else s.goto (.config none .status)) := by
  split
  · exact h.goto_outside hpc rfl rfl (.of_excused (s := s.excuse) hdown excuse_excused)
  · refine h.goto_outside hpc rfl rfl ⟨hdown, fun u hu => ?_, nofun, nofun, nofun, .inl rfl⟩
    exact absurd hu (not_mem_none u)

theorem Inv.clear (h : Inv s) (hpc : s.pc = .clear u rest) (hs : s.task w = some t) : Inv t := by
  have hout : s.pc.outside = true := by
    rw [hpc]
    rfl
  have hat := h.at_
  unfold At at hat
  rw [hpc] at hat
  unfold NepClassHub.task at hs
  rw [hpc] at hs
  cases rest with
  | nil =>
    obtain rfl := some.inj hs
    exact h.goto_outside hout rfl rfl (hat.2.goto (.handle u))
  | cons c rest =>
    obtain rfl := some.inj hs
    exact h.move rfl rfl rfl rfl id (.inl (h.power_outside hout)) (h.at_.clear hpc)

theorem Inv.warm (h : Inv s) (hpc : s.pc = .warmReset u ∨ (∃ n, s.pc = .warmPoll u n) ∨ ∃ rest, s.pc = .warmClear u rest)
    (hs : s.task w = some t) : Inv t := by
  have hat := h.at_
  unfold At at hat
  unfold NepClassHub.task at hs
  rcases hpc with hpc | ⟨n, hpc⟩ | ⟨rest, hpc⟩
  · rw [hpc] at hat hs
    obtain rfl := some.inj hs
    exact h.move rfl rfl rfl rfl id (.inl (h.power_outside (by rw [hpc]; rfl))) hat
  · rw [hpc] at hat hs
    obtain rfl := some.inj hs
    refine h.goto_outside (by rw [hpc]; rfl) rfl rfl ?_
    split <;> exact hat
  · rw [hpc] at hat hs
    cases rest with
    | nil =>
      obtain rfl := some.inj hs
      refine h.goto_outside (by rw [hpc]; rfl) rfl rfl ⟨hat.1, ?_, nofun, nofun, nofun, .inl rfl⟩
      rintro u' hu' hg
      obtain rfl := some.inj hu'
      exact ⟨hat.2 hg, rfl⟩
    | cons c rest =>
      obtain rfl := some.inj hs
      exact h.move rfl rfl rfl rfl id (.inl (h.power_outside (by rw [hpc]; rfl))) hat

theorem Inv.task (h : Inv s) (hs : s.task w = some t) : Inv t := by
  have hat := h.at_
  unfold At at hat
  cases hpc : s.pc with
  | clear u rest => exact h.clear hpc hs
  | warmReset u => exact h.warm (.inl hpc) hs
  | warmPoll u n => exact h.warm (.inr (.inl ⟨n, hpc⟩)) hs
  | warmClear u rest => exact h.warm (.inr (.inr ⟨rest, hpc⟩)) hs
  | start | debounce =>
    rw [hpc] at hat
    unfold NepClassHub.task at hs
    rw [hpc] at hs
    obtain rfl := some.inj hs
    exact h.shadow (by rw [hpc]; rfl) hat
  | wait =>
    rw [hpc] at hat
    unfold NepClassHub.task at hs
    rw [hpc] at hs
    obtain ⟨-, rfl⟩ := of_guard hs
    exact h.goto_outside (by rw [hpc]; rfl) rfl rfl (hat.goto .changed)
  | changed =>
    unfold NepClassHub.task at hs
    rw [hpc] at hs
    obtain rfl := some.inj hs
    exact h.goto_outside (by rw [hpc]; rfl) rfl rfl (h.sample hpc)
  | handle u =>
    unfold NepClassHub.task at hs
    rw [hpc] at hs
    obtain rfl := some.inj hs
    exact h.goto_outside (by rw [hpc]; rfl) linkChange_port.1 linkChange_port.2 (h.at_.handle hpc)
  | connect u =>
    unfold NepClassHub.task at hs
    rw [hpc] at hs
    obtain rfl := some.inj hs
    exact h.goto_outside (by rw [hpc]; rfl) connectChange_port.1 connectChange_port.2 (h.at_.connect hpc)
  | config after c =>
    unfold NepClassHub.task at hs
    rw [hpc] at hs
    obtain rfl := some.inj hs
    exact h.nConfigurePort hpc w
  | setSuspended on =>
    rw [hpc] at hat
    unfold NepClassHub.task at hs
    rw [hpc] at hs
    obtain rfl := some.inj hs
    exact h.goto_outside (by rw [hpc]; rfl) rfl rfl (hat.write rfl rfl rfl rfl)

theorem Inv.suspend (h : Inv s) (hpc : s.pc = .wait) :
    Inv ((s.setPort s.port.setSuspend).goto (.setSuspended true)) := by
  have hat := h.at_
  unfold At at hat
  rw [hpc] at hat
  refine h.move rfl rfl rfl rfl id (.inl (h.power_outside (by rw [hpc]; rfl))) ?_
  refine Open.mk hat.owes hat.near fun pd hpd hattached => ?_
  refine (Bool.eq_false_or_eq_true s.port.failed).symm.imp (fun hok => ⟨?_, hok⟩) fun hfailed => ?_
  · have hsome : s.port.attached.isSome = true := isSome_iff_exists.mpr ⟨_, hattached⟩
    have hok' : s.port.failed = false := hok
    change true = (s.port.attached.isSome && !s.port.failed)
    rw [hsome, hok']
    rfl
  · exact (hat.told pd hpd hattached).resolve_left fun hold => absurd (hold.2.symm.trans hfailed) nofun

theorem Inv.resume (h : Inv s) (hpc : s.pc = .wait) :
    Inv ((s.setPort (if s.port.suspended then s.port.wake s.kind else s.port)).goto (.setSuspended false)) := by
  have hat := h.at_
  unfold At at hat
  rw [hpc] at hat
  have hpower := h.power_outside (by rw [hpc]; rfl)
  by_cases hsuspended : s.port.suspended = true
  · rw [if_pos hsuspended]
    refine h.move rfl rfl rfl rfl id (.inl hpower) ?_
    have hkept : ∀ c, s.port.change c = true → (s.port.wake s.kind).change c = true := fun _ => update_change
    refine Open.mk (hat.owes.imp_left (hkept _)) hat.near fun pd hpd hattached => ?_
    rcases hat.told pd hpd hattached with ⟨-, hok⟩ | ⟨c, hc, hrest, hlatched⟩
    · exact .inl ⟨rfl, hok⟩
    · exact .inr ⟨c, hc, hrest, hkept c hlatched⟩
  · rw [if_neg hsuspended]
    refine h.move rfl rfl rfl rfl id (.inl hpower) ?_
    refine Open.mk hat.owes hat.near fun pd hpd hattached => ?_
    refine (hat.told pd hpd hattached).imp_left fun hold => ⟨?_, hold.2⟩
    exact (Bool.not_eq_true _ |>.mp hsuspended).symm

theorem Inv.init (kind : Kind) : Inv (init kind) :=
  ⟨nofun, nofun, .inl rfl, fun _ => rfl, rfl⟩

theorem Inv.step (h : Inv s) (hin : InTime s e) (hs : step s e = some t) : Inv t := by
  cases e with
  | attach lowSpeed =>
    obtain ⟨hnone, rfl⟩ := of_guard hs
    exact h.attach hnone hin lowSpeed
  | detach =>
    obtain ⟨-, rfl⟩ := of_guard hs
    exact h.detach hin
  | wake =>
    obtain ⟨-, rfl⟩ := of_guard hs
    exact h.wake hin
  | resetDone enabled =>
    obtain ⟨-, rfl⟩ := of_guard hs
    exact h.resetDone enabled
  | warmResetDone =>
    obtain ⟨-, rfl⟩ := of_guard hs
    exact h.warmResetDone
  | linkError c =>
    obtain ⟨⟨hkind, -, hc⟩, rfl⟩ := of_guard hs
    exact h.linkError hkind hc hin
  | task w => exact h.task hs
  | suspend =>
    unfold HubPort.step at hs
    dsimp only at hs
    split at hs
    · rename_i hpc
      obtain ⟨-, rfl⟩ := of_guard hs
      exact h.suspend hpc
    · exact absurd hs (some_ne_none t).symm
  | resume =>
    unfold HubPort.step at hs
    dsimp only at hs
    split at hs
    · rename_i hpc
      obtain ⟨-, rfl⟩ := of_guard hs
      exact h.resume hpc
    · exact absurd hs (some_ne_none t).symm

theorem Inv.mirrored (h : Inv s) (hpc : s.pc = .wait) (hquiet : ∀ c, s.port.change c = false) : Mirrored s := by
  have hat := h.at_
  unfold At at hat
  rw [hpc] at hat
  have hsettled : Settled s := hat.owes.resolve_left (by rw [hquiet]; exact Bool.false_ne_true)
  refine ⟨fun hnone => ?_, fun pd hpd => ?_, fun device hdevice hdown => hsettled.1 hdown device hdevice⟩
  · by_contra hdown
    obtain ⟨pd, hpd⟩ := ne_none_iff_exists'.mp hdown
    exact absurd (hnone.symm.trans (hsettled.2 pd hpd)) nofun
  · have hattached := hsettled.2 pd hpd
    refine ⟨hattached, h.attaches _ hattached, ?_⟩
    rcases hat.told pd hpd hattached with hon | ⟨c, -, -, hlatched⟩
    · exact hon.1
    · exact absurd (hlatched.symm.trans (hquiet c)) nofun

/-- No port event is lost in a run in which each comes in time. -/
theorem no_event_lost (kind : Kind) {evs : List Event} (h : Run step InTime (init kind) evs t)
    (hpc : t.pc = .wait) (hquiet : ∀ c, t.port.change c = false) : Mirrored t := by
  have hinv : Inv t := h.invariant Inv (.init kind) fun _ _ _ h hin hs => h.step hin hs
  exact hinv.mirrored hpc hquiet

/-- The task goes on by that many transfers; memory is there, and what is reset is enumerated. -/
def tasks (n : ℕ) : List Event := List.replicate n (.task ⟨false, true, true⟩)

def plugIn : List Event := .attach false :: tasks 3 ++ .resetDone true :: tasks 8

def replug : List Event := plugIn ++ .detach :: .attach false :: tasks 10

def unplugSampled : List Event := plugIn ++ .suspend :: tasks 1 ++ .resume :: tasks 3 ++ .detach :: tasks 8

def Pc.waits : Pc → Bool
  | .wait => true
  | _ => false

def outcome (evs : List Event) : Option (Bool × Bool × Option ℕ × Option PsdDevice) :=
  (exec step (init .usb2) evs).map fun t =>
    (t.pc.waits, Change.all.any t.port.change, t.port.attached, t.downstream)

theorem at_rest {attached : Option ℕ} {pd : Option PsdDevice} {evs : List Event}
    (h : outcome evs = some (true, false, attached, pd)) :
    ∃ t, exec step (init .usb2) evs = some t ∧ t.pc = .wait ∧ (∀ c, t.port.change c = false) ∧
      t.port.attached = attached ∧ t.downstream = pd := by
  obtain ⟨t, ht, heq⟩ := map_eq_some_iff.mp h
  rw [Prod.mk.injEq, Prod.mk.injEq, Prod.mk.injEq] at heq
  obtain ⟨hwaits, hquiet, hattached, hdown⟩ := heq
  refine ⟨t, ht, ?_, fun c => ?_, hattached, hdown⟩
  · cases hpc : t.pc <;> rw [hpc] at hwaits <;> first | rfl | exact absurd hwaits Bool.false_ne_true
  · rw [List.any_eq_false] at hquiet
    exact Bool.not_eq_true _ |>.mp (hquiet c (by cases c <;> decide))

theorem no_event_lost_plugIn :
    ∃ t, exec step (init .usb2) plugIn = some t ∧ t.downstream = some ⟨0, false⟩ ∧ Mirrored t := by
  have hout : outcome plugIn = some (true, false, some 0, some ⟨0, false⟩) := by decide +kernel
  obtain ⟨t, ht, hpc, hquiet, -, hdown⟩ := at_rest hout
  have hmeets : Meets step InTime (init .usb2) plugIn := by decide +kernel
  exact ⟨t, ht, hdown, no_event_lost .usb2 (.of_exec hmeets ht) hpc hquiet⟩

theorem replug_lost :
    (∃ t, exec step (init .usb2) replug = some t ∧ t.pc = .wait ∧ (∀ c, t.port.change c = false) ∧
      t.port.attached = some 1 ∧ t.downstream = some ⟨0, false⟩ ∧ ¬ Mirrored t) ∧
    ∃ t, exec step (init .usb2) unplugSampled = some t ∧ t.pc = .wait ∧ (∀ c, t.port.change c = false) ∧
      t.port.attached = none ∧ t.downstream = some ⟨0, false⟩ ∧ ¬ Mirrored t := by
  constructor
  · have hout : outcome replug = some (true, false, some 1, some ⟨0, false⟩) := by decide +kernel
    obtain ⟨t, ht, hpc, hquiet, hattached, hdown⟩ := at_rest hout
    refine ⟨t, ht, hpc, hquiet, hattached, hdown, fun hmirrored => ?_⟩
    have hrecord := (hmirrored.record _ hdown).1
    exact absurd (hattached.symm.trans hrecord) (by decide)
  · have hout : outcome unplugSampled = some (true, false, none, some ⟨0, false⟩) := by decide +kernel
    obtain ⟨t, ht, hpc, hquiet, hattached, hdown⟩ := at_rest hout
    refine ⟨t, ht, hpc, hquiet, hattached, hdown, fun hmirrored => ?_⟩
    exact absurd (hdown.symm.trans (hmirrored.empty hattached)) nofun

end Neptune.HubPort
