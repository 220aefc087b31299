import Neptune.Spec.EthRequests

/-! In a run whose requests do not overtake those with the unit task, the last request decides whether the unit is
online and the interface is configured once. That the two bits exclude each other holds of every run. -/

namespace Neptune.EthOnline

open List

open Runs NepClassEth

variable {ncp t : NepClassEth} {ioreq : IOSana2Req} {pc : Pc}

theorem pending_current (hc : ncp.current = some (ioreq, pc)) : ncp.pending = ioreq :: ncp.msgPort := by
  simp [pending, hc]

theorem pending_put (ncp : NepClassEth) (ioreq : IOSana2Req) :
    (ncp.put ioreq).pending = ncp.pending ++ [ioreq] := by
  simp [pending, put]

theorem comesOnline_queued (ncp : NepClassEth) (ioreq : IOSana2Req) (h : t.pending = ncp.pending ++ [ioreq]) :
    t.comesOnline = decide (ioreq ≠ .offline) := by
  simp [comesOnline, h]

theorem comesOnline_of_pending (hp : ncp.pending = t.pending) (hne : ncp.pending ≠ []) :
    ncp.comesOnline = t.comesOnline := by
  obtain ⟨last, hlast⟩ : ∃ last, ncp.pending.getLast? = some last :=
    ⟨_, List.getLast?_eq_some_getLast hne⟩
  simp only [comesOnline, ← hp, hlast]

def accepted (ncp : NepClassEth) : List EtherAddr :=
  ncp.succeeded ++ ncp.pending.filterMap IOSana2Req.configures

structure Apart (ncp : NepClassEth) : Prop where
  both : ncp.online = true → ncp.offline = true → ∃ ioreq, ncp.current = some (ioreq, .clearOffline)
  cleared : ∀ ioreq, ncp.current = some (ioreq, .setOffline) → ncp.online = false

theorem Apart.devBeginIo (h : Apart ncp) (ioreq : IOSana2Req) : Apart (ncp.devBeginIo ioreq) := by
  cases ioreq with
  | configInterface srcAddr =>
    simp only [NepClassEth.devBeginIo, command, cmdConfigInterface]
    split
    · exact ⟨h.both, h.cleared⟩
    · split <;> exact ⟨h.both, h.cleared⟩
  | online =>
    simp only [NepClassEth.devBeginIo, command, cmdOnline]
    split
    · split
      · exact ⟨h.both, h.cleared⟩
      · exact ⟨nofun, h.cleared⟩
    · exact ⟨h.both, h.cleared⟩
  | offline =>
    simp only [NepClassEth.devBeginIo, command, cmdOffline]
    split
    · exact ⟨nofun, fun _ _ => rfl⟩
    · next hon => exact ⟨fun h' => absurd h' hon, h.cleared⟩

theorem Apart.work (h : Apart ncp) (hc : ncp.current = some (ioreq, pc)) : Apart (ncp.work ioreq pc) := by
  have only (hpc : pc ≠ .clearOffline) (hon : ncp.online = true) : ncp.offline ≠ true := by
    intro hoff
    obtain ⟨r, hr⟩ := h.both hon hoff
    rw [hc] at hr
    cases hr
    exact hpc rfl
  cases pc with
  | configured | reply => exact ⟨fun hon hoff => absurd hoff (only nofun hon), nofun⟩
  | testOnline =>
    refine ⟨fun hon hoff => absurd hoff (only nofun hon), fun r hr => ?_⟩
    simp only [NepClassEth.work] at hr
    split at hr <;> cases hr
  | setOnline => exact ⟨fun _ _ => ⟨ioreq, rfl⟩, nofun⟩
  | clearOffline => exact ⟨nofun, nofun⟩
  | clearOnline => exact ⟨nofun, fun _ _ => rfl⟩
  | setOffline => exact ⟨fun hon => absurd (h.cleared ioreq hc ▸ hon) nofun, nofun⟩

theorem getMsg_spec (h : ncp.getMsg = some t) :
    ncp.current = none ∧ ∃ ioreq rest, ncp.msgPort = ioreq :: rest ∧
      t = { ncp with msgPort := rest, current := some (ioreq, handler ioreq) } := by
  simp only [NepClassEth.getMsg] at h
  split at h
  · next ioreq rest hc hp => exact ⟨hc, ioreq, rest, hp, (Option.some.inj h).symm⟩
  · cases h

theorem Apart.step {e : Event} (h : Apart ncp) (ht : step ncp e = some t) : Apart t := by
  cases e with
  | issue ioreq => exact Option.some.inj ht ▸ h.devBeginIo ioreq
  | getMsg =>
    obtain ⟨hc, ioreq, rest, -, rfl⟩ := getMsg_spec ht
    refine ⟨fun hon hoff => ?_, fun r hr => ?_⟩
    · obtain ⟨r, hr⟩ := h.both hon hoff
      rw [hc] at hr
      cases hr
    · cases ioreq <;> cases hr
  | work =>
    obtain ⟨⟨ioreq, pc⟩, hc, rfl⟩ := Option.map_eq_some_iff.mp ht
    exact h.work hc

/-- The statement belongs to the request, and what the ones before it have done; with nothing behind it in the
port, what the last of them makes of the unit stands. -/
def Along (ncp : NepClassEth) (ioreq : IOSana2Req) : Pc → Prop
  | .configured => ioreq ≠ .offline
  | .testOnline => ioreq ≠ .offline ∧ ncp.configured = true
  | .setOnline => ioreq ≠ .offline ∧ (ioreq.configures ≠ none → ncp.configured = true)
  | .clearOffline =>
    ioreq ≠ .offline ∧ (ioreq.configures ≠ none → ncp.configured = true) ∧ (ncp.msgPort = [] → ncp.online = true)
  | .clearOnline => ioreq = .offline
  | .setOffline => ioreq = .offline ∧ (ncp.msgPort = [] → ncp.online = false)
  | .reply =>
    (ioreq.configures ≠ none → ncp.configured = true) ∧
      (ncp.msgPort = [] → ncp.online = decide (ioreq ≠ .offline))

structure Inv (ncp : NepClassEth) : Prop where
  count : ncp.issued = ncp.replied + ncp.pending.length
  wanted : ncp.comesOnline = decide (ncp.last ≠ some .offline)
  along : ∀ ioreq pc, ncp.current = some (ioreq, pc) → Along ncp ioreq pc
  once : (accepted ncp).length ≤ 1
  address : ∀ a ∈ accepted ncp, ncp.macAddress = a
  known : ncp.succeeded ≠ [] → ncp.configured = true

theorem inv_start (configured : Bool) (macAddress : EtherAddr) : Inv (start configured macAddress) :=
  ⟨rfl, rfl, nofun, Nat.zero_le _, nofun, nofun⟩

theorem accepted_put (ncp : NepClassEth) (ioreq : IOSana2Req) :
    accepted (ncp.put ioreq) = accepted ncp ++ ioreq.configures.toList := by
  rw [accepted, pending_put, filterMap_append, ← append_assoc]
  cases hcfg : ioreq.configures <;> simp [accepted, put, hcfg]

theorem Along.queued (h : Along ncp ioreq pc) (hcfg : t.configured = ncp.configured) (hp : t.msgPort ≠ []) :
    Along t ioreq pc := by
  cases pc with
  | configured | clearOnline => exact h
  | testOnline => exact ⟨h.1, hcfg ▸ h.2⟩
  | setOnline => exact ⟨h.1, hcfg ▸ h.2⟩
  | clearOffline => exact ⟨h.1, hcfg ▸ h.2.1, fun hnil => absurd hnil hp⟩
  | setOffline => exact ⟨h.1, fun hnil => absurd hnil hp⟩
  | reply => exact ⟨hcfg ▸ h.1, fun hnil => absurd hnil hp⟩

theorem Along.same (h : Along ncp ioreq pc) (hcfg : t.configured = ncp.configured)
    (hon : t.online = ncp.online) (hp : t.msgPort = ncp.msgPort) : Along t ioreq pc := by
  cases pc <;> simp only [Along, hcfg, hon, hp] at h ⊢ <;> exact h

theorem Inv.queued (h : Inv ncp) (ioreq : IOSana2Req) (online offline : Bool) (macAddress : EtherAddr)
    (hone : (accepted ncp ++ ioreq.configures.toList).length ≤ 1)
    (haddr : ∀ a ∈ accepted ncp ++ ioreq.configures.toList, macAddress = a) :
    Inv { ncp.put ioreq with
      online := online, offline := offline, macAddress := macAddress, last := some ioreq
      issued := ncp.issued + 1 } where
  count := by
    have hlen : (ncp.put ioreq).pending.length = ncp.pending.length + 1 := by
      rw [pending_put, length_append, length_singleton]
    change ncp.issued + 1 = ncp.replied + (ncp.put ioreq).pending.length
    rw [hlen, h.count, Nat.add_assoc]
  wanted := by
    refine Eq.trans (comesOnline_queued ncp ioreq ?_) ?_
    · exact pending_put ncp ioreq
    · simp
  along r pc hc := (h.along r pc hc).queued rfl (by simp [put])
  once := by
    change (accepted (ncp.put ioreq)).length ≤ 1
    exact accepted_put ncp ioreq ▸ hone
  address := by
    change ∀ a ∈ accepted (ncp.put ioreq), macAddress = a
    exact accepted_put ncp ioreq ▸ haddr
  known := h.known

theorem Inv.answered (h : Inv ncp) (offline : Bool) (last : Option IOSana2Req)
    (hlast : ncp.comesOnline = decide (last ≠ some .offline)) :
    Inv { ncp with offline := offline, last := last, issued := ncp.issued + 1, replied := ncp.replied + 1 } where
  count := by
    change ncp.issued + 1 = ncp.replied + 1 + ncp.pending.length
    rw [h.count, Nat.add_right_comm]
  wanted := hlast
  along r pc hc := (h.along r pc hc).same rfl rfl rfl
  once := h.once
  address := h.address
  known := h.known

theorem Inv.devBeginIo (h : Inv ncp) (hok : Orderly ncp (.issue ioreq)) : Inv (ncp.devBeginIo ioreq) := by
  cases ioreq with
  | configInterface srcAddr =>
    simp only [NepClassEth.devBeginIo, command, cmdConfigInterface]
    split
    · exact h.answered ncp.offline ncp.last h.wanted
    · next hcfg =>
      split
      · exact h.answered ncp.offline ncp.last h.wanted
      · next hvalid =>
        have hcfg' : ncp.configured = false := Bool.eq_false_iff.mpr hcfg
        have hnone : accepted ncp = [] := by
          have hs : ncp.succeeded = [] := by
            by_contra hne
            exact hcfg (h.known hne)
          rw [accepted, hs, nil_append, filterMap_eq_nil_iff]
          exact hok hcfg' (not_not.mp hvalid)
        refine h.queued (.configInterface srcAddr) ncp.online ncp.offline srcAddr ?_ ?_
        · simp [hnone, IOSana2Req.configures]
        · simp [hnone, IOSana2Req.configures]
  | online =>
    have hold : accepted ncp ++ IOSana2Req.online.configures.toList = accepted ncp := append_nil _
    simp only [NepClassEth.devBeginIo, command, cmdOnline]
    split
    · next hon =>
      split
      · next hcfg =>
        refine h.answered ncp.offline (some .online) ?_
        rcases hok with ⟨-, hcfg'⟩ | hcomes
        · simp [hcfg'] at hcfg
        · exact hcomes
      · exact h.queued .online ncp.online false ncp.macAddress (hold.symm ▸ h.once) (hold.symm ▸ h.address)
    · next hon =>
      refine h.answered ncp.offline (some .online) ?_
      rcases hok with ⟨hoff, -⟩ | hcomes
      · simp [hoff] at hon
      · exact hcomes
  | offline =>
    have hold : accepted ncp ++ IOSana2Req.offline.configures.toList = accepted ncp := append_nil _
    simp only [NepClassEth.devBeginIo, command, cmdOffline]
    split
    · exact h.queued .offline false true ncp.macAddress (hold.symm ▸ h.once) (hold.symm ▸ h.address)
    · next hon =>
      refine h.answered true (some .offline) ?_
      rcases hok with hon' | hcomes
      · exact absurd hon' hon
      · exact hcomes

theorem Inv.advance (h : Inv ncp) (configured : Bool) {next : Pc} {online offline : Bool}
    (hc : ncp.current = some (ioreq, pc)) (hcfg : ncp.configured = true → configured = true)
    (halong : Along { ncp with
      configured := configured, online := online, offline := offline, current := some (ioreq, next) } ioreq next) :
    Inv { ncp with
      configured := configured, online := online, offline := offline, current := some (ioreq, next) } := by
  have hp := pending_current hc
  have hacc : ncp.succeeded ++ (ioreq :: ncp.msgPort).filterMap IOSana2Req.configures = accepted ncp := by
    rw [accepted, hp]
  refine ⟨?_, ?_, ?_, ?_, ?_, fun hs => hcfg (h.known hs)⟩
  · change ncp.issued = ncp.replied + (ioreq :: ncp.msgPort).length
    rw [← hp, h.count]
  · refine Eq.trans ?_ h.wanted
    exact comesOnline_of_pending hp.symm (cons_ne_nil _ _)
  · intro r pc' hr
    cases hr
    exact halong
  · exact le_of_eq_of_le (congrArg List.length hacc) h.once
  · intro a ha
    exact h.address a (hacc ▸ ha)

theorem Inv.work (h : Inv ncp) (hc : ncp.current = some (ioreq, pc)) : Inv (ncp.work ioreq pc) := by
  have hal := h.along ioreq pc hc
  cases pc with
  | configured => exact h.advance true hc (fun _ => rfl) ⟨hal, rfl⟩
  | testOnline =>
    refine h.advance ncp.configured hc id ?_
    split
    · next hon => exact ⟨fun _ => hal.2, fun _ => by simp [hon, hal.1]⟩
    · exact ⟨hal.1, fun _ => hal.2⟩
  | setOnline => exact h.advance ncp.configured hc id ⟨hal.1, hal.2, fun _ => rfl⟩
  | clearOffline => exact h.advance ncp.configured hc id ⟨hal.2.1, fun hp => by simp [hal.2.2 hp, hal.1]⟩
  | clearOnline => exact h.advance ncp.configured hc id ⟨hal, fun _ => rfl⟩
  | setOffline =>
    refine h.advance ncp.configured hc id ⟨fun hcfg => ?_, fun hp => by simp [hal.2 hp, hal.1]⟩
    rw [hal.1] at hcfg
    exact absurd rfl hcfg
  | reply =>
    have hp := pending_current hc
    have hacc : (ncp.succeeded ++ ioreq.configures.toList) ++ ncp.msgPort.filterMap IOSana2Req.configures =
        accepted ncp := by
      rw [accepted, hp, append_assoc]
      cases hcfg : ioreq.configures <;> simp [hcfg]
    refine ⟨?_, ?_, nofun, ?_, ?_, ?_⟩
    · change ncp.issued = ncp.replied + 1 + ncp.msgPort.length
      rw [h.count, hp, length_cons]
      omega
    · refine Eq.trans ?_ h.wanted
      cases hport : ncp.msgPort with
      | nil => simp [comesOnline, pending, NepClassEth.work, hc, hport, hal.2 hport]
      | cons r rest => simp [comesOnline, pending, NepClassEth.work, hc, hport]
    · exact le_of_eq_of_le (congrArg List.length hacc) h.once
    · intro a ha
      exact h.address a (hacc ▸ ha)
    · intro hs
      by_cases hcfg : ioreq.configures = none
      · refine h.known fun hnil => hs ?_
        simp [NepClassEth.work, hcfg, hnil]
      · exact hal.1 hcfg

theorem Inv.getMsg (h : Inv ncp) (ht : ncp.getMsg = some t) : Inv t := by
  obtain ⟨hc, ioreq, rest, hport, rfl⟩ := getMsg_spec ht
  have hp : ncp.pending = ioreq :: rest := by simp [pending, hc, hport]
  refine ⟨?_, ?_, ?_, ?_, ?_, h.known⟩
  · change ncp.issued = ncp.replied + (ioreq :: rest).length
    rw [← hp, h.count]
  · refine Eq.trans ?_ h.wanted
    exact comesOnline_of_pending hp.symm (cons_ne_nil _ _)
  · intro r pc hr
    cases hr
    cases ioreq with
    | configInterface srcAddr => exact IOSana2Req.noConfusion
    | online => exact ⟨nofun, fun hcfg => absurd rfl hcfg⟩
    | offline => rfl
  · have := h.once
    rwa [accepted, hp] at this
  · have := h.address
    rwa [accepted, hp] at this

theorem Inv.step {e : Event} (h : Inv ncp) (hok : Orderly ncp e) (ht : step ncp e = some t) : Inv t := by
  cases e with
  | issue ioreq => exact Option.some.inj ht ▸ h.devBeginIo hok
  | getMsg => exact h.getMsg ht
  | work =>
    obtain ⟨⟨ioreq, pc⟩, hc, rfl⟩ := Option.map_eq_some_iff.mp ht
    exact h.work hc

theorem apart_start (configured : Bool) (macAddress : EtherAddr) : Apart (start configured macAddress) := by
  refine ⟨fun _ hoff => ?_, fun _ hc => ?_⟩
  · cases hoff
  · cases hc

theorem run_apart {ok : NepClassEth → Event → Prop} {configured : Bool} {macAddress : EtherAddr}
    {evs : List Event} (h : Run step ok (start configured macAddress) evs t) : Apart t :=
  h.invariant Apart (apart_start configured macAddress) fun _ _ _ hi _ => hi.step

theorem idle_of_replied (h : Inv ncp) (hall : ncp.issued = ncp.replied) : ncp.pending = [] := by
  rw [h.count] at hall
  exact length_eq_zero_iff.mp (by omega)

theorem last_request_wins {configured : Bool} {macAddress : EtherAddr} {evs : List Event}
    (h : Run step Orderly (start configured macAddress) evs t) : Settled t := by
  have hinv : Inv t := h.invariant Inv (inv_start configured macAddress) fun _ _ _ hi hok => hi.step hok
  refine ⟨fun hall => ?_, fun hall hboth => ?_, ?_, fun a ha => ?_⟩
  · have hcomes : t.comesOnline = t.online := by simp [comesOnline, idle_of_replied hinv hall]
    rw [← hcomes, hinv.wanted, decide_eq_true_iff]
  · obtain ⟨ioreq, hc⟩ := (run_apart h).both hboth.1 hboth.2
    exact cons_ne_nil _ _ ((pending_current hc).symm.trans (idle_of_replied hinv hall))
  · have := hinv.once
    rw [accepted, length_append] at this
    omega
  · exact hinv.address a (mem_append_left _ ha)

def stationAddress : EtherAddr := #v[2, 0, 0, 0, 0, 1]

def otherAddress : EtherAddr := #v[2, 0, 0, 0, 0, 2]

def configureEvents (srcAddr : EtherAddr) : List Event :=
  [.issue (.configInterface srcAddr), .getMsg, .work, .work, .work]

def orderlyEvents : List Event :=
  configureEvents stationAddress ++
    [.issue .offline, .issue .online, .getMsg, .work, .work, .work, .getMsg, .work, .work, .work]

theorem last_request_wins_twice :
    ∃ ncp, Run step Orderly (start false otherAddress) orderlyEvents ncp ∧ Settled ncp ∧
      ncp.issued = 3 ∧ ncp.replied = 3 ∧ ncp.online = true ∧ ncp.succeeded = [stationAddress] := by
  have hrun : Run step Orderly (start false otherAddress) orderlyEvents _ :=
    Run.get_meets (by decide) (by decide)
  exact ⟨_, hrun, last_request_wins hrun, by decide, by decide, by decide, by decide⟩

/-- The unit is offline. Its task has taken an S2_ONLINE and not handled it yet when an S2_OFFLINE finds nothing to
do and is replied; then the task goes online. -/
def overtakenEvents : List Event :=
  configureEvents stationAddress ++
    [.issue .offline, .getMsg, .work, .work, .work, .issue .online, .getMsg, .issue .offline, .work, .work, .work]

def configuredTwiceEvents : List Event :=
  [.issue (.configInterface stationAddress), .issue (.configInterface otherAddress),
    .getMsg, .work, .work, .work, .getMsg, .work, .work, .work]

theorem last_request_overtaken :
    (∃ ncp, Run step anyStep (start false otherAddress) overtakenEvents ncp ∧ ncp.issued = ncp.replied ∧
      ncp.last = some .offline ∧ ncp.online = true) ∧
    (∃ ncp, Run step anyStep (start false otherAddress) configuredTwiceEvents ncp ∧
      ncp.succeeded = [stationAddress, otherAddress] ∧ ncp.macAddress = otherAddress) ∧
    ¬∀ evs ncp, Run step anyStep (start false otherAddress) evs ncp → Settled ncp := by
  have hrun : Run step anyStep (start false otherAddress) overtakenEvents _ := Run.get (by decide)
  refine ⟨⟨_, hrun, by decide, by decide, by decide⟩, ⟨_, Run.get (by decide), by decide, by decide⟩, fun hall => ?_⟩
  exact absurd ((hall _ _ hrun).wins (by decide)) (by decide)

end Neptune.EthOnline
