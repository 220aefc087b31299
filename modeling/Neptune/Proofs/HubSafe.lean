import Neptune.Spec.HubDesc

/-! A hub with 31 ports at most, and a descriptor that has come as far as its port bitmap, is safe whatever happens to
it. One port more, or one byte less, is not. -/

namespace Neptune.HubDesc

open List Option

variable {nch : NepClassHub} {uhd : List UInt8} {n k : ℕ}

theorem shiftLeft_isSome (x : UInt32) (n : ℕ) : (shiftLeft x n).isSome ↔ n < 32 := by
  unfold shiftLeft
  split <;> simp_all

theorem removableLoop_isSome (h : 7 ≤ uhd.length) (num : ℕ) :
    (removableLoop uhd num).isSome ↔ num ≤ 4 ∧ 7 + num ≤ uhd.length := by
  induction num with
  | zero => simp [removableLoop, h]
  | succ num ih =>
    unfold removableLoop
    rw [isSome_bind, Option.any_eq_true]
    constructor
    · rintro ⟨removable, hr, hsome⟩
      obtain ⟨-, hlen⟩ := ih.mp (isSome_of_eq_some hr)
      rw [isSome_bind, Option.any_eq_true] at hsome
      obtain ⟨byte, hbyte, hshift⟩ := hsome
      have hlt := (List.getElem?_eq_some_iff.mp hbyte).1
      rw [isSome_map, shiftLeft_isSome, Nat.shiftLeft_eq] at hshift
      omega
    · rintro ⟨hle, hlen⟩
      obtain ⟨removable, hr⟩ := isSome_iff_exists.mp (ih.mpr (by omega))
      refine ⟨removable, hr, ?_⟩
      rw [List.getElem?_eq_getElem (by omega), bind_some, isSome_map, shiftLeft_isSome, Nat.shiftLeft_eq]
      omega

def World.numPorts (w : World) : ℕ := (w.uhd.getD 2 0).toNat

def World.Sane (w : World) : Prop :=
  w.got → 7 + (w.numPorts + 7) / 8 ≤ w.uhd.length ∧ w.numPorts ≤ if w.allocDownstream then 31 else 32

theorem nAllocHub_isSome (w : World) :
    (nAllocHub w).isSome ↔ (w.got → 7 + (w.numPorts + 7) / 8 ≤ w.uhd.length ∧ w.numPorts ≤ 32) := by
  unfold nAllocHub World.numPorts
  by_cases hgot : w.got
  · rw [if_pos hgot]
    simp only [hgot, forall_const]
    match w.uhd with
    | [] | [_] | [_, _] | [_, _, _] | [_, _, _, _] | [_, _, _, _, _] | [_, _, _, _, _, _] =>
      refine iff_of_false (by simp) ?_
      simp only [length_cons, length_nil]
      omega
    | a :: b :: bNbrPorts :: lo :: hi :: pwr :: cur :: rest =>
      have hlen : 7 ≤ (a :: b :: bNbrPorts :: lo :: hi :: pwr :: cur :: rest).length := by simp
      have hloop := removableLoop_isSome hlen ((bNbrPorts.toNat + 7) >>> 3)
      rw [Nat.shiftRight_eq_div_pow] at hloop
      simp only [getElem?_cons_succ, getElem?_cons_zero, bind_some, isSome_map,
        Nat.shiftRight_eq_div_pow, hloop, getD_cons_succ, getD_cons_zero]
      omega
  · rw [if_neg hgot]
    simp [hgot]

structure Inv (nch : NepClassHub) : Prop where
  ports : nch.numPorts ≤ 31
  changes : nch.portChanges.length = 4
  downstream : nch.downstream.length = nch.numPorts

def Safe (nch : NepClassHub) (r : Option NepClassHub) : Prop :=
  ∃ nch', r = some nch' ∧ Inv nch' ∧ nch'.numPorts = nch.numPorts

theorem Inv.self (h : Inv nch) : Safe nch (some nch) := ⟨nch, rfl, h, rfl⟩

theorem Inv.masks (h : Inv nch) (powerCycle disablePort : UInt32) :
    Inv { nch with powerCycle := powerCycle, disablePort := disablePort } := ⟨h.ports, h.changes, h.downstream⟩

theorem Safe.bind {r : Option NepClassHub} {f : NepClassHub → Option NepClassHub} (h : Safe nch r)
    (hf : ∀ nch', Inv nch' → nch'.numPorts = nch.numPorts → Safe nch' (f nch')) : Safe nch (r.bind f) := by
  obtain ⟨nch', rfl, hinv, hsame⟩ := h
  obtain ⟨nch'', hr, hinv', hsame'⟩ := hf nch' hinv hsame
  exact ⟨nch'', by rw [bind_some, hr], hinv', hsame'.trans hsame⟩

theorem Inv.setDownstream (h : Inv nch) (pd : Bool) (hk : 0 < k) (hkn : k ≤ nch.numPorts) :
    Safe nch (nch.setDownstream (k - 1) pd) := by
  unfold NepClassHub.setDownstream
  rw [h.downstream, if_pos (by omega)]
  exact ⟨_, rfl, ⟨h.ports, h.changes, by simp [h.downstream]⟩, rfl⟩

theorem Inv.getDownstream (h : Inv nch) (hk : 0 < k) (hkn : k ≤ nch.numPorts) : ∃ pd, nch.downstream[k - 1]? = some pd :=
  ⟨_, getElem?_eq_getElem (by rw [h.downstream]; omega)⟩

theorem portBit_some (h : k ≤ 31) : ∃ bit, portBit k = some bit :=
  isSome_iff_exists.mp ((shiftLeft_isSome 1 k).mpr (by omega))

theorem Inv.forPorts {f : NepClassHub → ℕ → Option NepClassHub} (h : Inv nch)
    (hf : ∀ t num, Inv t → 0 < num → num ≤ t.numPorts → Safe t (f t num)) : Safe nch (nch.forPorts f) := by
  have hstep : ∀ t, ∀ i ∈ range nch.numPorts, Inv t ∧ t.numPorts = nch.numPorts →
      ∃ u, f t (i + 1) = some u ∧ Inv u ∧ u.numPorts = nch.numPorts := by
    intro t i hi ht
    obtain ⟨u, hu, hinv, hsame⟩ := hf t (i + 1) ht.1 (by omega) (by rw [ht.2]; exact mem_range.mp hi)
    exact ⟨u, hu, hinv, hsame.trans ht.2⟩
  obtain ⟨t, ht, hinv, hsame⟩ := Runs.exec_total (I := fun t => Inv t ∧ t.numPorts = nch.numPorts) ⟨h, rfl⟩ _ hstep
  exact ⟨t, ht, hinv, hsame⟩

section

variable (h : Inv nch)
include h

theorem Inv.configurePort (ports : ℕ → Option Bool) (hk : 0 < k) (hkn : k ≤ nch.numPorts) :
    Safe nch (nch.configurePort ports k) := by
  unfold NepClassHub.configurePort
  cases ports k with
  | none => exact h.self
  | some pd => exact h.setDownstream pd hk hkn

theorem Inv.drop (b : Bool) (hk : 0 < k) (hkn : k ≤ nch.numPorts) :
    Safe nch (if b then nch.setDownstream (k - 1) false else some nch) := by
  cases b with
  | false => exact h.self
  | true => exact h.setDownstream false hk hkn

theorem Inv.disablePortPass (ports : ℕ → Option Bool) (hk : 0 < k) (hkn : k ≤ nch.numPorts) :
    Safe nch (nch.disablePortPass ports k) := by
  obtain ⟨bit, hbit⟩ := portBit_some (Nat.le_trans hkn h.ports)
  obtain ⟨pd, hpd⟩ := h.getDownstream hk hkn
  unfold NepClassHub.disablePortPass
  rw [hbit, bind_some]
  split
  · exact h.self
  · have hclear := h.masks nch.powerCycle (nch.disablePort &&& ~~~bit)
    dsimp only
    rw [hpd, bind_some]
    refine (hclear.drop pd hk hkn).bind fun t ht hsame => ?_
    have hkt : k ≤ t.numPorts := hsame ▸ hkn
    split
    · exact ht.self
    · exact (ht.masks (t.powerCycle &&& ~~~bit) t.disablePort).configurePort ports hk hkt

theorem Inv.receive (bytes : List UInt8) : Safe nch (nch.receive bytes) := by
  have hports := h.ports
  have hlen : (bytes.take ((nch.numPorts + 8) >>> 3)).length ≤ 4 := by
    rw [length_take, Nat.shiftRight_eq_div_pow]
    omega
  unfold NepClassHub.receive
  dsimp only
  rw [h.changes, if_pos hlen]
  refine ⟨_, rfl, ⟨h.ports, ?_, h.downstream⟩, rfl⟩
  rw [length_append, length_drop, h.changes]
  omega

theorem Inv.portChanged (ports : ℕ → PortOutcome) (hk : 0 < k) (hkn : k ≤ nch.numPorts) :
    Safe nch (nch.portChanged ports k) := by
  have hports := h.ports
  have hin : k >>> 3 < nch.portChanges.length := by
    rw [h.changes, Nat.shiftRight_eq_div_pow]
    omega
  obtain ⟨pd, hpd⟩ := h.getDownstream hk hkn
  unfold NepClassHub.portChanged
  rw [getElem?_eq_getElem hin, bind_some]
  split
  · exact h.self
  · dsimp only
    split
    · exact h.self
    · rw [hpd, bind_some]
      split
      · refine (h.drop _ hk hkn).bind fun t ht hsame => ?_
        split
        · exact ht.configurePort _ hk (hsame ▸ hkn)
        · exact ht.self
      · exact h.self

theorem Inv.status (ioerr : ℤ) (bytes : List UInt8) (ports : ℕ → PortOutcome) :
    Safe nch (nch.status ioerr bytes ports) := by
  unfold NepClassHub.status
  refine (h.receive bytes).bind fun t ht _ => ?_
  have hall : Inv { t with portChanges := replicate 4 0xff } := ⟨ht.ports, rfl, ht.downstream⟩
  have hscan : ∀ u, Inv u → Safe u (u.portChanges[0]?.bind fun _ => u.forPorts fun nch num => nch.portChanged ports num) := by
    intro u hu
    rw [getElem?_eq_getElem (by rw [hu.changes]; omega), bind_some]
    exact hu.forPorts fun v num hv hnum hle => hv.portChanged ports hnum hle
  by_cases htime : ioerr = UHIOERR_TIMEOUT
  · simp only [if_pos htime, if_pos (Or.inr htime)]
    exact hscan _ hall
  · simp only [if_neg htime]
    split
    · exact hscan _ ht
    · exact ht.self

theorem Inv.request (port : ℕ) (powerCycle : Bool) : Safe nch (nch.request port powerCycle) := by
  unfold NepClassHub.request
  split
  · next hport =>
    obtain ⟨bit, hbit⟩ := portBit_some (Nat.le_trans hport.2 h.ports)
    rw [hbit, map_some]
    exact ⟨_, rfl, h.masks _ _, rfl⟩
  · exact h.self

theorem Inv.walk : Safe nch nch.walk := by
  refine h.forPorts fun t num ht hnum hle => ?_
  obtain ⟨pd, hpd⟩ := ht.getDownstream hnum hle
  rw [hpd, map_some]
  exact ht.self

theorem Inv.step (e : Event) : Safe nch (nch.step e) := by
  cases e with
  | configure ports => exact h.forPorts fun t num ht hnum hle => ht.configurePort ports hnum hle
  | status ioerr bytes ports => exact h.status ioerr bytes ports
  | request port powerCycle => exact h.request port powerCycle
  | disable ports =>
    unfold NepClassHub.step
    dsimp only
    split
    · exact h.self
    · exact h.forPorts fun t num ht hnum hle => ht.disablePortPass ports hnum hle
  | walk => exact h.walk

theorem Inv.nFreeHub : Safe nch nch.nFreeHub := by
  refine h.forPorts fun t num ht hnum hle => ?_
  obtain ⟨pd, hpd⟩ := ht.getDownstream hnum hle
  rw [hpd, bind_some]
  exact ht.drop pd hnum hle

theorem Inv.run (events : List Event) : ∃ t, Runs.exec NepClassHub.step nch events = some t ∧ Inv t :=
  Runs.exec_total h events fun _ e _ ht => by
    obtain ⟨u, hu, hinv, -⟩ := ht.step e
    exact ⟨u, hu, hinv⟩

end

theorem nAllocHub_cases {w : World} {hub : Option NepClassHub} (h : nAllocHub w = some hub) :
    (hub = none ∧ ¬(w.got ∧ w.allocDownstream = true)) ∨ (w.got ∧ w.allocDownstream = true) ∧
      ∃ nch, hub = some nch ∧ nch.numPorts = w.numPorts ∧ nch.portChanges.length = 4 ∧
        nch.downstream.length = nch.numPorts := by
  unfold nAllocHub at h
  split at h
  · next hgot =>
    obtain ⟨bNbrPorts, hports, h⟩ := bind_eq_some_iff.mp h
    obtain ⟨lo, -, h⟩ := bind_eq_some_iff.mp h
    obtain ⟨hi, -, h⟩ := bind_eq_some_iff.mp h
    obtain ⟨pwr, -, h⟩ := bind_eq_some_iff.mp h
    obtain ⟨cur, -, h⟩ := bind_eq_some_iff.mp h
    obtain ⟨removable, -, h⟩ := map_eq_some_iff.mp h
    split at h
    · next halloc =>
      refine .inr ⟨⟨hgot, halloc⟩, _, h.symm, ?_, rfl, length_replicate⟩
      rw [World.numPorts, getD_eq_getElem?_getD, hports, getD_some]
    · next halloc => exact .inl ⟨h.symm, fun hboth => halloc hboth.2⟩
  · next hgot => exact .inl ⟨(some.inj h).symm, fun hboth => hgot hboth.1⟩

theorem receive_none (h : nch.portChanges.length = 4) (hports : 32 ≤ nch.numPorts) :
    nch.receive (replicate 5 0) = none := by
  unfold NepClassHub.receive
  rw [h, if_neg]
  rw [length_take, length_replicate, Nat.shiftRight_eq_div_pow]
  omega

theorem status_none (h : nch.portChanges.length = 4) (hports : 32 ≤ nch.numPorts) (ioerr : ℤ) (ports : ℕ → PortOutcome) :
    nch.step (.status ioerr (replicate 5 0) ports) = none := by
  change (nch.receive (replicate 5 0)).bind _ = none
  rw [receive_none h hports, bind_none]

theorem hub_safe_iff (w : World) : (∀ events, (life w events).isSome) ↔ w.Sane := by
  unfold life
  constructor
  · intro h hgot
    obtain ⟨_, hlife⟩ := isSome_iff_exists.mp (h [])
    obtain ⟨hub, hhub, -⟩ := bind_eq_some_iff.mp hlife
    obtain ⟨hlen, hports⟩ := (nAllocHub_isSome w).mp (isSome_of_eq_some hhub) hgot
    refine ⟨hlen, ?_⟩
    split
    · next halloc =>
      by_contra hmany
      rcases nAllocHub_cases hhub with ⟨-, hnot⟩ | ⟨-, nch, rfl, hsame, hchanges, -⟩
      · exact hnot ⟨hgot, halloc⟩
      · have hrun := h [.status 0 (List.replicate 5 0) fun _ => ⟨0, false, false, none⟩]
        rw [hhub, bind_some] at hrun
        dsimp only at hrun
        rw [Runs.exec, status_none hchanges (by omega)] at hrun
        exact absurd hrun (by decide)
    · exact hports
  · intro h events
    have halloc : (nAllocHub w).isSome := by
      refine (nAllocHub_isSome w).mpr fun hgot => ?_
      obtain ⟨hlen, hports⟩ := h hgot
      split at hports <;> omega
    obtain ⟨hub, hhub⟩ := isSome_iff_exists.mp halloc
    rw [hhub, bind_some]
    rcases nAllocHub_cases hhub with ⟨rfl, -⟩ | ⟨⟨hgot, hdown⟩, nch, rfl, hsame, hchanges, hlength⟩
    · rfl
    · obtain ⟨-, hports⟩ := h hgot
      rw [if_pos hdown, ← hsame] at hports
      have hinv : Inv nch := ⟨hports, hchanges, hlength⟩
      obtain ⟨t, ht, hinvt⟩ := hinv.run events
      obtain ⟨u, hu, -, -⟩ := hinvt.nFreeHub
      simp only [ht, bind_some, hu, map_some, isSome_some]

def hub₃₂ : World := ⟨false, 0, 12, true, 0, [12, 0x29, 32, 0, 0, 50, 0, 0, 0, 0, 0, 0], true⟩

def short : World := ⟨false, 0, 3, true, 0, [3, 0x29, 4], true⟩

theorem hub_unsafe :
    life hub₃₂ [.request 32 false] = none ∧
      life hub₃₂ [.status 0 [0, 0, 0, 0, 1] fun _ => ⟨0, false, false, none⟩] = none ∧ life short [] = none := by
  decide

end Neptune.HubDesc
