import Neptune.Spec.HubTwin

/-! Who has the device of a connector, when the tasks of both halves of the hub are at rest. -/

namespace Neptune.HubTwin

open Option

open Connector Runs

variable {s t : Connector} {h h' : Half} {e : Event} {side : Side} {work : Work} {alloc ok up enumerable : Bool}

def Half.Idle (h : Half) : Prop := h.pc = .wait ∧ h.disablePort = false ∧ h.changed = false

structure OneWinner (t : Connector) : Prop where
  notBoth : ¬ (t.ss.record = .enumerated ∧ t.usb2.record = .enumerated)
  fallback : t.enumerable = true → t.ss.failed = true → t.usb2.link = true → t.usb2.record = .enumerated

def Half.Takes (h : Half) : Prop := h.pc = .status ∨ h.record ≠ .none

/-- Where the 2.0 half looks for a device of the other half, it finds one that has been enumerated, or
will be told of it. -/
def Sees (s : Connector) : Prop :=
  s.ss.record = .enumerated → s.ss.bound = true ∨ s.usb2.disablePort = true ∨ s.ss.pc = .evict

/-- With its link up the 2.0 half has the device, or has still to look at the port; and it does not lose
what it has. -/
structure Half.Keeps (h : Half) : Prop where
  disable : h.disablePort = true → h.powerCycle = true ∧ h.pc ≠ .removed
  wait : h.link = true → h.pc = .wait → h.record = .enumerated ∨ h.changed = true ∨ h.disablePort = true
  removed : h.link = true → h.pc = .removed → h.powerCycle = true ∨ h.changed = true

def InTime (s : Connector) : Event → Prop
  | .go .usb2 _ _ _ =>
    s.usb2.pc = .start ∨ s.usb2.pc = .power ∨ s.usb2.pc = .debounce ∨ s.usb2.pc = .debounced → Sees s
  | .go .ss _ alloc ok =>
    (s.ss.pc = .evict → s.usb2.Takes → s.usb2.bound = true) ∧
    ((s.ss.pc = .status ∧ s.ss.link = true ∧ alloc = false) ∨
        (s.ss.pc = .enumerate ∧ (s.ss.link && ok) = false) →
      s.enumerable = true → s.usb2.Keeps)
  | .powerCycle .usb2 => s.enumerable = true → s.ss.failed = true → s.usb2.pc ≠ .removed
  | _ => True

instance : Decidable h.Takes := inferInstanceAs (Decidable (_ ∨ _))

instance : Decidable (Sees s) := inferInstanceAs (Decidable (_ → _))

instance : Decidable h.Keeps :=
  decidable_of_iff ((h.disablePort = true → h.powerCycle = true ∧ h.pc ≠ .removed) ∧
      (h.link = true → h.pc = .wait → h.record = .enumerated ∨ h.changed = true ∨ h.disablePort = true) ∧
      (h.link = true → h.pc = .removed → h.powerCycle = true ∨ h.changed = true))
    ⟨fun hk => ⟨hk.1, hk.2.1, hk.2.2⟩, fun hk => ⟨hk.disable, hk.wait, hk.removed⟩⟩

instance : Decidable (InTime s e) := by
  unfold InTime
  split <;> infer_instance

structure Half.Ok (h : Half) : Prop where
  enumerating : h.record = .enumerating ↔ h.pc = .enumerate
  enumerated : h.record = .enumerated → h.pc = .wait ∨ h.pc = .evict
  evict : h.pc = .evict → h.record = .enumerated
  failed : h.failed = true → h.record = .none

structure Inv (s : Connector) : Prop where
  ss : s.ss.Ok
  usb2 : s.usb2.Ok
  never : s.usb2.pc ≠ .evict
  evicts : s.ss.record = .enumerated → s.usb2.Takes → s.usb2.disablePort = true ∨ s.ss.pc = .evict
  keeps : s.enumerable = true → s.ss.failed = true → s.usb2.Keeps

theorem Inv.oneWinner (h : Inv s) (hss : s.ss.Idle) (husb2 : s.usb2.Idle) : OneWinner s := by
  refine ⟨fun hboth => ?_, fun henumerable hfailed hlink => ?_⟩
  · rcases h.evicts hboth.1 (.inr (by rw [hboth.2]; exact nofun)) with hdisable | hevict
    · exact absurd (hdisable.symm.trans husb2.2.1) nofun
    · exact absurd (hevict.symm.trans hss.1) nofun
  · rcases (h.keeps henumerable hfailed).wait hlink husb2.1 with hrecord | hchanged | hdisable
    · exact hrecord
    · exact absurd (hchanged.symm.trans husb2.2.2) nofun
    · exact absurd (hdisable.symm.trans husb2.2.1) nofun

theorem Inv.init (enumerable : Bool) : Inv (init enumerable) := by
  constructor <;> (try constructor) <;> simp [HubTwin.init, Half.init, Half.Takes]

theorem Half.Ok.record_none (h : h'.Ok) (hwait : h'.pc ≠ .wait) (hevict : h'.pc ≠ .evict)
    (henumerate : h'.pc ≠ .enumerate) : h'.record = .none := by
  cases hrecord : h'.record with
  | none => rfl
  | enumerating => exact absurd (h.enumerating.mp hrecord) henumerate
  | enumerated => exact absurd (h.enumerated hrecord) (not_or.mpr ⟨hwait, hevict⟩)

theorem Half.Ok.of_none (hrecord : h.record = .none) (hpc : h.pc ≠ .evict ∧ h.pc ≠ .enumerate) : h.Ok :=
  ⟨iff_of_false (by rw [hrecord]; exact nofun) hpc.2, fun hr => absurd (hrecord.symm.trans hr) nofun,
    fun he => absurd he hpc.1, fun _ => hrecord⟩

theorem Half.Ok.change {connect : Pc} (h : h'.Ok) (hpc : h'.pc = .wait) (hconnect : connect ≠ .evict ∧ connect ≠ .enumerate) :
    (h'.change connect).Ok := by
  cases hlink : h'.link with
  | false =>
    refine .of_none ?_ ?_
    · unfold Half.change
      rw [hlink]
      rfl
    · unfold Half.change
      rw [hlink]
      exact ⟨nofun, nofun⟩
  | true =>
    cases hrecord : h'.record with
    | none =>
      refine .of_none ?_ ?_
      · unfold Half.change
        rw [hlink, hrecord]
        rfl
      · unfold Half.change
        rw [hlink, hrecord]
        exact hconnect
    | enumerating => exact absurd ((h.enumerating.mp hrecord).symm.trans hpc) nofun
    | enumerated =>
      have hnot : h'.failed ≠ true := fun hfailed => absurd (hrecord.symm.trans (h.failed hfailed)) nofun
      unfold Half.change
      rw [hlink, hrecord]
      exact ⟨iff_of_false nofun nofun, fun _ => .inl rfl, nofun, fun hfailed => absurd hfailed hnot⟩

theorem Half.Ok.configure (h : h'.Ok) (hpc : h'.pc = .status) (alloc : Bool) : (h'.configure alloc).Ok := by
  have hrecord := h.record_none (by rw [hpc]; exact nofun) (by rw [hpc]; exact nofun) (by rw [hpc]; exact nofun)
  unfold Half.configure
  split
  · exact .of_none hrecord ⟨nofun, nofun⟩
  · split
    · exact ⟨iff_of_true rfl rfl, nofun, nofun, nofun⟩
    · exact .of_none hrecord ⟨nofun, nofun⟩

theorem Half.Ok.configured (h : h'.Ok) (hpc : h'.pc = .enumerate) {done : Pc}
    (hdone : done = .wait ∨ done = .evict) (ok : Bool) : (h'.configured ok done).Ok := by
  have hrecord := h.enumerating.mpr hpc
  have hnot : h'.failed ≠ true := fun hfailed => absurd (hrecord.symm.trans (h.failed hfailed)) nofun
  unfold Half.configured
  split
  · refine ⟨iff_of_false nofun ?_, fun _ => hdone, fun _ => rfl, fun hfailed => absurd hfailed hnot⟩
    rcases hdone with rfl | rfl <;> exact nofun
  · exact .of_none rfl ⟨nofun, nofun⟩

theorem Half.Ok.congr {h : Half} (hk : h'.Ok) (hrecord : h.record = h'.record) (hpc : h.pc = h'.pc)
    (hfailed : h.failed = h'.failed) : h.Ok := by
  refine ⟨?_, ?_, ?_, ?_⟩
  all_goals rw [hrecord]
  · rw [hpc]
    exact hk.enumerating
  · rw [hpc]
    exact hk.enumerated
  · rw [hpc]
    exact hk.evict
  · rw [hfailed]
    exact hk.failed

theorem Inv.moveSS (h : Inv s) (hk : h'.Ok) (hevicts : h'.record = .enumerated → s.usb2.Takes →
      s.usb2.disablePort = true ∨ h'.pc = .evict)
    (hkeeps : s.enumerable = true → h'.failed = true → s.usb2.Keeps) : Inv { s with ss := h' } :=
  ⟨hk, h.usb2, h.never, hevicts, hkeeps⟩

theorem Inv.moveUsb2 (h : Inv s) (hk : h'.Ok) (hnever : h'.pc ≠ .evict)
    (hevicts : s.ss.record = .enumerated → h'.Takes → h'.disablePort = true ∨ s.ss.pc = .evict)
    (hkeeps : s.enumerable = true → s.ss.failed = true → h'.Keeps) : Inv { s with usb2 := h' } :=
  ⟨h.ss, hk, hnever, hevicts, hkeeps⟩

theorem Inv.moveSS_none (h : Inv s) (hk : h'.Ok) (hrecord : h'.record ≠ .enumerated)
    (hkeeps : s.enumerable = true → h'.failed = true → s.usb2.Keeps) : Inv { s with ss := h' } :=
  h.moveSS hk (fun hr => absurd hr hrecord) hkeeps

theorem Inv.goSS (h : Inv s) (hin : InTime s (.go .ss work alloc ok)) (hs : s.goSS work alloc ok = some t) :
    Inv t := by
  obtain ⟨hevict, hfails⟩ := hin
  have hnone : s.ss.pc ≠ .wait → s.ss.pc ≠ .evict → s.ss.pc ≠ .enumerate → s.ss.record = .none :=
    h.ss.record_none
  unfold Connector.goSS at hs
  cases hpc : s.ss.pc with
  | off | debounce | debounced =>
    rw [hpc] at hs
    exact absurd hs (some_ne_none t).symm
  | start | power =>
    rw [hpc] at hs hnone
    obtain rfl := some.inj hs
    have hrecord := hnone nofun nofun nofun
    refine h.moveSS_none (.of_none hrecord ⟨nofun, nofun⟩) ?_ h.keeps
    exact fun hr => absurd (hrecord.symm.trans hr) nofun
  | removed =>
    rw [hpc] at hs hnone
    obtain rfl := some.inj hs
    have hrecord := hnone nofun nofun nofun
    refine h.moveSS_none (.of_none hrecord ?_) ?_ h.keeps
    · change (if s.ss.powerCycle = true then Pc.power else .wait) ≠ .evict ∧
        (if s.ss.powerCycle = true then Pc.power else .wait) ≠ .enumerate
      split <;> exact ⟨nofun, nofun⟩
    · exact fun hr => absurd (hrecord.symm.trans hr) nofun
  | wait =>
    rw [hpc] at hs
    cases work with
    | disablePort =>
      obtain ⟨-, rfl⟩ := of_guard hs
      exact h.moveSS_none (.of_none rfl ⟨nofun, nofun⟩) nofun h.keeps
    | change =>
      obtain ⟨-, rfl⟩ := of_guard hs
      refine h.moveSS (h.ss.change hpc ⟨nofun, nofun⟩) (fun hr htakes => ?_) h.keeps
      have hrecord : s.ss.record = .enumerated := by
        change (if s.ss.link = true then s.ss.record else .none) = .enumerated at hr
        split at hr
        · exact hr
        · exact absurd hr nofun
      rcases h.evicts hrecord htakes with hdisable | hevict
      · exact .inl hdisable
      · exact absurd (hpc.symm.trans hevict) nofun
  | status =>
    rw [hpc] at hs hnone
    obtain rfl := some.inj hs
    have hrecord := hnone nofun nofun nofun
    refine h.moveSS_none (h.ss.configure hpc alloc) ?_ ?_
    · unfold Half.configure
      split
      · exact fun hr => absurd (hrecord.symm.trans hr) nofun
      · split
        · exact nofun
        · exact fun hr => absurd (hrecord.symm.trans hr) nofun
    · unfold Half.configure
      intro henumerable hfailed
      split at hfailed
      · exact h.keeps henumerable hfailed
      · rename_i hlink
        split at hfailed
        · exact absurd hfailed nofun
        · rename_i halloc
          exact hfails (.inl ⟨hpc, Bool.not_eq_false _ |>.mp hlink, Bool.not_eq_true _ |>.mp halloc⟩) henumerable
  | enumerate =>
    rw [hpc] at hs
    obtain rfl := some.inj hs
    unfold Half.configured
    cases hok : s.ss.link && ok with
    | true =>
      have hk := h.ss.configured hpc (.inr rfl) true
      unfold Half.configured at hk
      rw [if_pos rfl] at hk ⊢
      exact h.moveSS hk (fun _ _ => .inr rfl) h.keeps
    | false =>
      rw [if_neg Bool.false_ne_true]
      exact h.moveSS_none (.of_none rfl ⟨nofun, nofun⟩) nofun fun henumerable _ =>
        hfails (.inr ⟨hpc, hok⟩) henumerable
  | evict =>
    rw [hpc] at hs
    obtain rfl := some.inj hs
    have hrecord := h.ss.evict hpc
    have hnot : s.ss.failed ≠ true := fun hfailed => absurd (hrecord.symm.trans (h.ss.failed hfailed)) nofun
    have hss : (s.ss.goto .wait).Ok :=
      ⟨iff_of_false (by change s.ss.record ≠ _; rw [hrecord]; exact nofun) nofun, fun _ => .inl rfl, nofun,
        fun hfailed => absurd hfailed hnot⟩
    unfold Connector.nNotifyPeerTwinEvict
    by_cases hbound : s.usb2.bound = true
    · rw [if_pos hbound]
      refine ⟨hss, h.usb2.congr rfl rfl rfl, h.never, fun _ _ => .inl rfl, ?_⟩
      exact fun _ hfailed => absurd hfailed hnot
    · rw [if_neg hbound]
      refine h.moveSS hss (fun _ htakes => absurd (hevict hpc htakes) hbound) ?_
      exact fun _ hfailed => absurd hfailed hnot

theorem Inv.moveUsb2_none (h : Inv s) (hrecord : h'.record = .none)
    (hpc : h'.pc ≠ .evict ∧ h'.pc ≠ .enumerate ∧ h'.pc ≠ .status)
    (hkeeps : s.enumerable = true → s.ss.failed = true → h'.Keeps) : Inv { s with usb2 := h' } := by
  refine h.moveUsb2 (.of_none hrecord ⟨hpc.1, hpc.2.1⟩) hpc.1 (fun _ htakes => ?_) hkeeps
  rcases htakes with hstatus | hsome
  · exact absurd hstatus hpc.2.2
  · exact absurd hrecord hsome

theorem Half.Keeps.of_pc (hdisable : h.disablePort = true → h.powerCycle = true)
    (hpc : h.pc ≠ .wait ∧ h.pc ≠ .removed) : h.Keeps :=
  ⟨fun hd => ⟨hdisable hd, hpc.2⟩, fun _ hwait => absurd hwait hpc.1, fun _ hremoved => absurd hremoved hpc.2⟩

theorem Inv.shadow (h : Inv s) (hsees : Sees s) (hrecord : s.usb2.record = .none) : Inv s.shadow := by
  unfold Connector.shadow
  by_cases hshadowed : s.nPortShadowedByPeer = true
  · rw [if_pos hshadowed]
    refine h.moveUsb2_none hrecord ⟨nofun, nofun, nofun⟩ fun henumerable hfailed => ?_
    -- what has failed casts no shadow
    have hnone := h.ss.failed hfailed
    unfold Connector.nPortShadowedByPeer at hshadowed
    rw [hnone, Bool.and_eq_true] at hshadowed
    exact absurd hshadowed.2 (by decide)
  · rw [if_neg hshadowed]
    refine h.moveUsb2 (.of_none hrecord ⟨nofun, nofun⟩) nofun (fun hss _ => ?_) fun henumerable hfailed => ?_
    · rcases hsees hss with hbound | hleft
      · unfold Connector.nPortShadowedByPeer at hshadowed
        rw [hbound, hss] at hshadowed
        exact absurd rfl hshadowed
      · exact hleft
    · exact .of_pc (fun hd => ((h.keeps henumerable hfailed).disable hd).1) ⟨nofun, nofun⟩

theorem Inv.goUsb2 (h : Inv s) (hin : InTime s (.go .usb2 work alloc ok)) (hs : s.goUsb2 work alloc ok = some t) :
    Inv t := by
  have hnone : s.usb2.pc ≠ .wait → s.usb2.pc ≠ .evict → s.usb2.pc ≠ .enumerate → s.usb2.record = .none :=
    h.usb2.record_none
  unfold Connector.goUsb2 at hs
  unfold InTime at hin
  cases hpc : s.usb2.pc with
  | off | evict =>
    rw [hpc] at hs
    exact absurd hs (some_ne_none t).symm
  | start | power | debounced =>
    rw [hpc] at hs hnone
    obtain rfl := some.inj hs
    exact h.shadow (hin (by rw [hpc]; decide)) (hnone nofun nofun nofun)
  | debounce =>
    rw [hpc] at hs hnone
    obtain rfl := some.inj hs
    have hrecord := hnone nofun nofun nofun
    have hsees := hin (by rw [hpc]; decide)
    have hshadow := h.shadow hsees hrecord
    unfold Connector.nConnectShadowDebounce
    unfold Connector.shadow at hshadow
    by_cases hshadowed : s.nPortShadowedByPeer = true
    · rw [if_pos hshadowed] at hshadow ⊢
      exact hshadow
    · rw [if_neg hshadowed] at hshadow ⊢
      by_cases hbound : s.ss.bound = true
      · rw [if_pos hbound]
        refine h.moveUsb2_none hrecord ⟨nofun, nofun, nofun⟩ fun henumerable hfailed => ?_
        exact .of_pc (fun hd => ((h.keeps henumerable hfailed).disable hd).1) ⟨nofun, nofun⟩
      · rw [if_neg hbound]
        exact hshadow
  | removed =>
    rw [hpc] at hs hnone
    obtain rfl := some.inj hs
    have hrecord := hnone nofun nofun nofun
    unfold Half.cycle
    cases hpower : s.usb2.powerCycle with
    | true =>
      rw [if_pos rfl]
      refine h.moveUsb2_none hrecord ⟨nofun, nofun, nofun⟩ fun henumerable hfailed => ?_
      exact .of_pc (fun hd => absurd hpc ((h.keeps henumerable hfailed).disable hd).2) ⟨nofun, nofun⟩
    | false =>
      rw [if_neg Bool.false_ne_true]
      refine h.moveUsb2_none hrecord ⟨nofun, nofun, nofun⟩ fun henumerable hfailed => ?_
      have hkeeps := h.keeps henumerable hfailed
      refine ⟨fun hd => absurd hpc (hkeeps.disable hd).2, fun hlink _ => .inr (.inl ?_), nofun⟩
      exact (hkeeps.removed hlink hpc).resolve_left (by rw [hpower]; exact nofun)
  | wait =>
    rw [hpc] at hs
    cases work with
    | disablePort =>
      obtain ⟨hdisable, rfl⟩ := of_guard hs
      refine h.moveUsb2_none rfl ⟨nofun, nofun, nofun⟩ fun henumerable hfailed => ?_
      exact ⟨nofun, nofun, fun _ _ => .inl ((h.keeps henumerable hfailed).disable hdisable).1⟩
    | change =>
      obtain ⟨-, rfl⟩ := of_guard hs
      refine h.moveUsb2 (h.usb2.change hpc ⟨nofun, nofun⟩) ?_ (fun hss htakes => ?_) fun henumerable hfailed => ?_
      · unfold Half.change
        dsimp only
        split <;> exact nofun
      · apply h.evicts hss
        unfold Half.change Half.Takes at htakes
        rcases htakes with hstatus | hsome
        · dsimp only at hstatus
          split at hstatus <;> exact absurd hstatus nofun
        · dsimp only at hsome
          split at hsome
          · exact .inr hsome
          · exact absurd rfl hsome
      · have hkeeps := h.keeps henumerable hfailed
        have hpower : s.usb2.disablePort = true → s.usb2.powerCycle = true := fun hd => (hkeeps.disable hd).1
        unfold Half.change
        refine ⟨fun hd => ⟨hpower hd, ?_⟩, fun hlink hwait => .inl ?_, fun _ hremoved => ?_⟩
        · dsimp only
          split <;> exact nofun
        · dsimp only at hlink hwait ⊢
          rw [if_pos hlink]
          cases hrecord : s.usb2.record with
          | none =>
            rw [if_pos ⟨hlink, hrecord⟩] at hwait
            exact absurd hwait nofun
          | enumerating => exact absurd ((h.usb2.enumerating.mp hrecord).symm.trans hpc) nofun
          | enumerated => rfl
        · dsimp only at hremoved
          split at hremoved <;> exact absurd hremoved nofun
  | status =>
    rw [hpc] at hs hnone
    obtain rfl := some.inj hs
    have hrecord := hnone nofun nofun nofun
    have hk := h.usb2.configure hpc (alloc || s.enumerable)
    refine h.moveUsb2 hk ?_ (fun hss _ => ?_) fun henumerable hfailed => ?_
    · unfold Half.configure
      split
      · exact nofun
      · split <;> exact nofun
    · have hevicts := h.evicts hss (.inl hpc)
      unfold Half.configure
      split
      · exact hevicts
      · split <;> exact hevicts
    · have hkeeps := h.keeps henumerable hfailed
      have hpower : s.usb2.disablePort = true → s.usb2.powerCycle = true := fun hd => (hkeeps.disable hd).1
      unfold Half.configure
      cases hlink : s.usb2.link with
      | false =>
        rw [if_pos rfl]
        exact ⟨fun hd => ⟨hpower hd, nofun⟩, fun hon => absurd (hlink.symm.trans hon) nofun, nofun⟩
      | true =>
        rw [if_neg (Ne.symm Bool.false_ne_true), henumerable, Bool.or_true, if_pos rfl]
        exact .of_pc hpower ⟨nofun, nofun⟩
  | enumerate =>
    rw [hpc] at hs
    obtain rfl := some.inj hs
    have hk := h.usb2.configured hpc (.inl rfl) (s.usb2.link && (ok || s.enumerable))
    have hrecord := h.usb2.enumerating.mpr hpc
    refine h.moveUsb2 hk ?_ (fun hss _ => ?_) fun henumerable hfailed => ?_
    · unfold Half.configured
      split <;> exact nofun
    · have hevicts := h.evicts hss (.inr (by rw [hrecord]; exact nofun))
      unfold Half.configured
      split <;> exact hevicts
    · have hkeeps := h.keeps henumerable hfailed
      have hpower : s.usb2.disablePort = true → s.usb2.powerCycle = true := fun hd => (hkeeps.disable hd).1
      unfold Half.configured
      cases hlink : s.usb2.link with
      | false =>
        rw [Bool.false_and, if_neg Bool.false_ne_true]
        exact ⟨fun hd => ⟨hpower hd, nofun⟩, fun hon => absurd hon Bool.false_ne_true, nofun⟩
      | true =>
        rw [henumerable, Bool.or_true, Bool.true_and, if_pos rfl]
        exact ⟨fun hd => ⟨hpower hd, nofun⟩, fun _ _ => .inl rfl, nofun⟩

theorem Inv.spawn (h : Inv s) (hpc : (s.half side).pc = .off) :
    Inv (s.setHalf side ((s.half side).goto .start)) := by
  cases side with
  | ss =>
    have hpc : s.ss.pc = .off := hpc
    have hrecord := h.ss.record_none (by rw [hpc]; exact nofun) (by rw [hpc]; exact nofun) (by rw [hpc]; exact nofun)
    refine h.moveSS_none (.of_none hrecord ⟨nofun, nofun⟩) ?_ h.keeps
    exact fun hr => absurd (hrecord.symm.trans hr) nofun
  | usb2 =>
    have hpc : s.usb2.pc = .off := hpc
    have hrecord := h.usb2.record_none (by rw [hpc]; exact nofun) (by rw [hpc]; exact nofun)
      (by rw [hpc]; exact nofun)
    refine h.moveUsb2_none hrecord ⟨nofun, nofun, nofun⟩ fun henumerable hfailed => ?_
    exact .of_pc (fun hd => ((h.keeps henumerable hfailed).disable hd).1) ⟨nofun, nofun⟩

theorem Inv.bind (h : Inv s) : Inv (s.setHalf side { s.half side with bound := true }) := by
  cases side with
  | ss => exact h.moveSS (h.ss.congr rfl rfl rfl) h.evicts h.keeps
  | usb2 =>
    refine h.moveUsb2 (h.usb2.congr rfl rfl rfl) h.never h.evicts fun henumerable hfailed => ?_
    have hkeeps := h.keeps henumerable hfailed
    exact ⟨hkeeps.disable, hkeeps.wait, hkeeps.removed⟩

theorem Inv.link (h : Inv s) (up : Bool) :
    Inv (s.setHalf side { s.half side with link := up, changed := true }) := by
  cases side with
  | ss => exact h.moveSS (h.ss.congr rfl rfl rfl) h.evicts h.keeps
  | usb2 =>
    refine h.moveUsb2 (h.usb2.congr rfl rfl rfl) h.never h.evicts fun henumerable hfailed => ?_
    have hkeeps := h.keeps henumerable hfailed
    exact ⟨hkeeps.disable, fun _ _ => .inr (.inl rfl), fun _ _ => .inr rfl⟩

theorem Inv.powerCycle (h : Inv s) (hin : InTime s (.powerCycle side)) :
    Inv (s.setHalf side { s.half side with disablePort := true, powerCycle := true }) := by
  cases side with
  | ss => exact h.moveSS (h.ss.congr rfl rfl rfl) h.evicts h.keeps
  | usb2 =>
    refine h.moveUsb2 (h.usb2.congr rfl rfl rfl) h.never (fun _ _ => .inl rfl) fun henumerable hfailed => ?_
    exact ⟨fun _ => ⟨rfl, hin henumerable hfailed⟩, fun _ _ => .inr (.inr rfl), fun _ _ => .inl rfl⟩

theorem Inv.step (h : Inv s) (hin : InTime s e) (hs : step s e = some t) : Inv t := by
  cases e with
  | spawn side =>
    obtain ⟨hpc, rfl⟩ := of_guard hs
    exact h.spawn hpc
  | bind side =>
    obtain ⟨-, rfl⟩ := of_guard hs
    exact h.bind
  | link side up =>
    obtain ⟨-, rfl⟩ := of_guard hs
    exact h.link up
  | powerCycle side =>
    obtain ⟨-, rfl⟩ := of_guard hs
    exact h.powerCycle hin
  | go side work alloc ok =>
    cases side with
    | ss => exact h.goSS hin hs
    | usb2 => exact h.goUsb2 hin hs

/-- In every run whose steps are in time, one half at most has the device when both tasks are at rest, and
the 2.0 half has it where the other has failed. -/
theorem one_winner (enumerable : Bool) {evs : List Event} (h : Run step InTime (init enumerable) evs t)
    (hss : t.ss.Idle) (husb2 : t.usb2.Idle) : OneWinner t := by
  have hinv : Inv t := h.invariant Inv (.init enumerable) fun _ _ _ h hin hs => h.step hin hs
  exact hinv.oneWinner hss husb2

def go (side : Side) : Event := .go side .change true true

def emptyPort : List Event :=
  [.spawn .ss, .bind .ss, .spawn .usb2, .bind .usb2, go .ss, go .ss, go .usb2, go .usb2]

def plugged : List Event := [.link .ss true, .link .usb2 true, go .ss, go .ss, go .usb2, go .usb2]

def alone : List Event :=
  emptyPort ++ plugged ++ [go .ss, go .ss, .go .usb2 .disablePort true true, go .usb2]

theorem one_winner_plugged :
    ∃ t, exec step (init true) alone = some t ∧ t.ss.record = .enumerated ∧ OneWinner t := by
  have hmeets : Meets step InTime (init true) alone := by decide
  refine ⟨_, rfl, rfl, ?_⟩
  exact one_winner true (.of_exec hmeets rfl) ⟨rfl, rfl, rfl⟩ ⟨rfl, rfl, rfl⟩

/-- The 2.0 half has looked before the other half had the device, and its binding comes after the
eviction. The other way, the shadow that it has been skipped for is gone again. -/
theorem none_or_both :
    (∃ t, exec step (init true) [.link .ss true, .link .usb2 true, .spawn .ss, .bind .ss, .spawn .usb2, go .usb2,
        go .ss, go .ss, go .ss, go .ss, go .usb2, go .usb2, .bind .usb2] = some t ∧
      t.ss.Idle ∧ t.usb2.Idle ∧ t.ss.record = .enumerated ∧ t.usb2.record = .enumerated ∧ ¬ OneWinner t) ∧
    ∃ t, exec step (init true) (emptyPort ++ plugged ++ [.go .ss .change true false]) = some t ∧
      t.ss.Idle ∧ t.usb2.Idle ∧ t.ss.record = .none ∧ t.usb2.record = .none ∧ t.usb2.link = true ∧
        ¬ OneWinner t := by
  constructor
  · refine ⟨_, rfl, ⟨rfl, rfl, rfl⟩, ⟨rfl, rfl, rfl⟩, rfl, rfl, fun hwinner => ?_⟩
    exact hwinner.notBoth ⟨rfl, rfl⟩
  · refine ⟨_, rfl, ⟨rfl, rfl, rfl⟩, ⟨rfl, rfl, rfl⟩, rfl, rfl, rfl, fun hwinner => ?_⟩
    exact absurd (hwinner.fallback rfl rfl rfl) nofun

end Neptune.HubTwin
