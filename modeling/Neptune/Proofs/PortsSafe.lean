import Neptune.Spec.CamdPorts

/-! Where camd opens and closes a port by one call at a time, its output is never left behind: an open port with
output camd has told of is pulled by a task that is awake or signalled, and a port without a device is empty. No
adapter is used after it was freed, no task signalled that has ended, and the transmit handler rests between the
end marker and the next ActivateXmit. -/

namespace Neptune.CamdPorts

open Runs CamdMidi List Option Function

variable {α : Type} {v40 : Bool}

structure Kept (x y : CAMDAdapter α) : Prop where
  id : y.id = x.id
  portNum : y.portNum = x.portNum
  binding : y.binding = x.binding
  sigTask : y.sigTask = x.sigTask
  isOpen : y.isOpen = x.isOpen
  hooks : y.hooks = x.hooks
  active : y.txActive = true → x.txActive = true
  asked : x.userData.asked = x.txActive → y.userData.asked = y.txActive
  quiet : x.userData.asked = x.txActive → y.userData.idleCall = x.userData.idleCall

theorem Kept.refl (x : CAMDAdapter α) : Kept x x := ⟨rfl, rfl, rfl, rfl, rfl, rfl, fun h => h, fun h => h, fun _ => rfl⟩

theorem Kept.trans {x y z : CAMDAdapter α} (h : Kept x y) (h' : Kept y z) : Kept x z where
  id := h'.id.trans h.id
  portNum := h'.portNum.trans h.portNum
  binding := h'.binding.trans h.binding
  sigTask := h'.sigTask.trans h.sigTask
  isOpen := h'.isOpen.trans h.isOpen
  hooks := h'.hooks.trans h.hooks
  active hz := h.active (h'.active hz)
  asked hx := h'.asked (h.asked hx)
  quiet hx := (h'.quiet (h.asked hx)).trans (h.quiet hx)

namespace CAMDAdapter

open List Option Function

theorem pull_kept (v40 : Bool) (max : ℕ) (ca : CAMDAdapter α) : Kept ca (ca.pull v40 max).2 := by
  induction max generalizing ca with
  | zero => exact .refl ca
  | succ max ih =>
    unfold pull
    split
    · next hactive =>
      cases hq : ca.userData.queued with
      | nil =>
        simp only [UserData.transmit, hq]
        exact ⟨rfl, rfl, rfl, rfl, rfl, rfl, fun h => hactive, fun _ => by simp, fun h => by simp [h, hactive]⟩
      | cons b rest =>
        simp only [UserData.transmit, hq]
        refine Kept.trans ?_ (ih _)
        refine ⟨rfl, rfl, rfl, rfl, rfl, rfl, fun h => hactive, fun h => ?_, fun h => by simp [h, hactive]⟩
        simp only [h, hactive]
        cases v40 <;> simp
    · exact .refl ca

theorem pull_length (v40 : Bool) (max : ℕ) (ca : CAMDAdapter α) :
    (ca.pull v40 max).1.length + (ca.pull v40 max).2.userData.queued.length = ca.userData.queued.length := by
  induction max generalizing ca with
  | zero => exact Nat.zero_add _
  | succ max ih =>
    unfold pull
    split
    · cases hq : ca.userData.queued with
      | nil => simp [UserData.transmit, hq]
      | cons b rest =>
        simp only [UserData.transmit, hq, length_cons]
        have := ih { ca with
          userData := ⟨rest, ca.userData.asked && (v40 || !rest.isEmpty), ca.userData.idleCall || !ca.userData.asked⟩
          txActive := ca.txActive && !((some b).isNone || (!v40 && rest.isEmpty)) }
        dsimp only at this ⊢
        omega
    · exact Nat.zero_add _

theorem pull_nil {max : ℕ} {ca : CAMDAdapter α} (h : (ca.pull v40 (max + 1)).1 = []) :
    (ca.pull v40 (max + 1)).2.txActive = false := by
  revert h
  unfold pull
  split
  · cases hq : ca.userData.queued with
    | nil => simp [UserData.transmit, hq]
    | cons b rest => simp [UserData.transmit, hq]
  · next h => exact fun _ => eq_false_of_ne_true h

theorem pullFromCAMD_kept (v40 : Bool) (max : ℕ) (ca : CAMDAdapter α) : Kept ca (ca.pullFromCAMD v40 max).2 := by
  unfold pullFromCAMD
  split
  · exact .refl ca
  · exact pull_kept v40 max ca

theorem pullFromCAMD_nil {max : ℕ} {ca : CAMDAdapter α} (hopen : ca.isOpen = true)
    (h : (ca.pullFromCAMD v40 (max + 1)).1 = []) : (ca.pullFromCAMD v40 (max + 1)).2.txActive = false := by
  unfold pullFromCAMD at h ⊢
  rw [hopen] at h ⊢
  cases hactive : ca.txActive with
  | false => exact hactive
  | true =>
    rw [hactive] at h
    exact pull_nil h

theorem pullFromCAMD_length (v40 : Bool) (max : ℕ) (ca : CAMDAdapter α) :
    (ca.pullFromCAMD v40 max).1.length + (ca.pullFromCAMD v40 max).2.userData.queued.length =
      ca.userData.queued.length := by
  unfold pullFromCAMD
  split
  · exact Nat.zero_add _
  · exact pull_length v40 max ca

theorem drainLoop_kept (v40 : Bool) (max fuel : ℕ) (ca : CAMDAdapter α) :
    Kept ca (drainLoop v40 max fuel ca) := by
  induction fuel generalizing ca with
  | zero => exact .refl ca
  | succ fuel ih =>
    unfold drainLoop
    have hpull := pullFromCAMD_kept v40 max ca
    dsimp only
    split
    · exact hpull
    · exact hpull.trans (ih _)

theorem drain_kept (v40 : Bool) (max : ℕ) (ca : CAMDAdapter α) : Kept ca (ca.drain v40 max) :=
  drainLoop_kept v40 max _ ca

theorem drainLoop_done (v40 : Bool) (max : ℕ) {fuel : ℕ} {ca : CAMDAdapter α} (hopen : ca.isOpen = true)
    (hfuel : ca.userData.queued.length < fuel) : (drainLoop v40 (max + 1) fuel ca).txActive = false := by
  induction fuel generalizing ca with
  | zero => exact absurd hfuel (Nat.not_lt_zero _)
  | succ fuel ih =>
    unfold drainLoop
    dsimp only
    split
    · next h => exact pullFromCAMD_nil hopen h
    · next h =>
      have hlength := pullFromCAMD_length v40 (max + 1) ca
      have hpos := length_pos_iff.mpr h
      exact ih ((pullFromCAMD_kept v40 (max + 1) ca).isOpen.trans hopen) (by omega)

theorem drain_done (v40 : Bool) (max : ℕ) {ca : CAMDAdapter α} (hopen : ca.isOpen = true) :
    (ca.drain v40 (max + 1)).txActive = false :=
  drainLoop_done v40 max hopen (Nat.lt_succ_self _)

end CAMDAdapter

def Pc.attached : Pc → Prop
  | .freeing | .ended => False
  | _ => True

def Pc.inLoop : Pc → Prop
  | .abort | .freeMidi | .freeing | .ended => False
  | _ => True

def NepClassMidi.Told (c : NepClassMidi α) : Prop :=
  c.portSignal = true ∨
    match c.pc with
    | .awake | .pull _ | .abort | .freeMidi => True
    | .pulled _ again => again = true
    | .send again => again = true ∨ c.held = true
    | .wait | .freeing | .ended => False

structure PortOk (bases : α → ℕ → Option ℕ) (nch : ℕ → Option (NepClassMidi α)) (a : ℕ) (x : CAMDAdapter α) :
    Prop where
  base : x.isOpen = true → bases x.id x.portNum = some a
  hooks : x.isOpen = true → x.hooks = true
  active : x.txActive = true → x.isOpen = true ∧ ∃ n, x.binding = some n
  asked : x.userData.asked = x.txActive
  task : x.sigTask = x.binding
  bound : ∀ n, x.binding = some n → ∃ c, nch n = some c ∧ c.pc.attached ∧ c.shortID = x.id ∧
    (x.txActive = true → c.Told)

def Call.Ok (s : NepMidiBase α) : Call α → Prop
  | .openPort id port => s.camdPortBases id port = none
  | .hook id port a => a ∈ s.ports ∧ (s.ca a).id = id ∧ (s.ca a).portNum = port ∧ s.camdPortBases id port = none
  | .base id port a => a ∈ s.ports ∧ (s.ca a).id = id ∧ (s.ca a).portNum = port ∧ s.camdPortBases id port = none ∧
    (s.ca a).hooks = true
  | .isOpen id port a => s.camdPortBases id port = some a
  | .flags id port a => s.camdPortBases id port = some a
  | .unlink id port a => a ∈ s.ports ∧ (s.ca a).id = id ∧ (s.ca a).portNum = port ∧ s.camdPortBases id port = none
  | .free id port a => a ∉ s.ports ∧ (s.ca a).id = id ∧ (s.ca a).portNum = port ∧ s.mem a = .live

structure NchOk (c : NepClassMidi α) : Prop where
  bound : c.bound ≠ .released → c.breakSignal = false ∧ c.sigs = false ∧ c.pc.inLoop
  fits : ∀ out, c.pc = .pull out → fits out

structure Inv (s : NepMidiBase α) : Prop where
  usedFreed : s.usedFreed = false
  wildHook : s.wildHook = false
  signalledEnded : s.signalledEnded = false
  live : ∀ a ∈ s.ports, s.mem a = .live
  nodup : s.ports.Nodup
  bindings : s.bindings.Nodup
  port : ∀ a ∈ s.ports, PortOk s.camdPortBases s.nch a (s.ca a)
  /-- A driver has a port that is open, or will be by the call that has put it there. -/
  base : ∀ id port a, s.camdPortBases id port = some a → a ∈ s.ports ∧ (s.ca a).id = id ∧
    (s.ca a).portNum = port ∧ (s.ca a).hooks = true
  call : ∀ task c, s.calls task = some c → c.Ok s
  oneCall : ∀ τ τ' c c', s.calls τ = some c → s.calls τ' = some c' → c.key = c'.key → τ = τ'
  onePort : ∀ a ∈ s.ports, ∀ a' ∈ s.ports, ∀ n, (s.ca a).binding = some n → (s.ca a').binding = some n →
    (s.ca a).portNum = (s.ca a').portNum → a = a'
  listed : ∀ n ∈ s.bindings, ∃ c, s.nch n = some c ∧ c.bound = .listed
  nch : ∀ n c, s.nch n = some c → NchOk c
  quiet : ∀ a, (s.ca a).userData.idleCall = false

theorem PortOk.kept {bases : α → ℕ → Option ℕ} {nch : ℕ → Option (NepClassMidi α)} {a : ℕ} {x y : CAMDAdapter α}
    (h : PortOk bases nch a x) (hk : Kept x y) : PortOk bases nch a y where
  base hopen := by
    rw [hk.id, hk.portNum]
    exact h.base (hk.isOpen.symm.trans hopen)
  hooks hopen := hk.hooks.trans (h.hooks (hk.isOpen.symm.trans hopen))
  active hactive := by
    rw [hk.isOpen, hk.binding]
    exact h.active (hk.active hactive)
  asked := hk.asked h.asked
  task := by rw [hk.sigTask, hk.binding, h.task]
  bound n hn := by
    obtain ⟨c, hc, hattached, hid, htold⟩ := h.bound n (hk.binding.symm.trans hn)
    exact ⟨c, hc, hattached, hid.trans hk.id.symm, fun hactive => htold (hk.active hactive)⟩

structure Refit (s : NepMidiBase α) (ca : ℕ → CAMDAdapter α) : Prop where
  port : ∀ a ∈ s.ports, PortOk s.camdPortBases s.nch a (ca a)
  id : ∀ a, (ca a).id = (s.ca a).id
  portNum : ∀ a, (ca a).portNum = (s.ca a).portNum
  hooks : ∀ a ∈ s.ports, (s.ca a).hooks = true → (ca a).hooks = true
  binding : ∀ a ∈ s.ports, ∀ n, (ca a).binding = some n → (s.ca a).binding = some n
  quiet : ∀ a, (ca a).userData.idleCall = false

variable {s t : NepMidiBase α} {a n τ : ℕ} {x : CAMDAdapter α} {c c' : NepClassMidi α} {call : Call α}

theorem Call.Ok.refit {ca : ℕ → CAMDAdapter α} (hr : Refit s ca) (h : call.Ok s) : call.Ok { s with ca := ca } := by
  cases call with
  | openPort => exact h
  | hook id port b | unlink id port b | free id port b =>
    exact ⟨h.1, (hr.id b).trans h.2.1, (hr.portNum b).trans h.2.2.1, h.2.2.2⟩
  | base id port b =>
    exact ⟨h.1, (hr.id b).trans h.2.1, (hr.portNum b).trans h.2.2.1, h.2.2.2.1, hr.hooks b h.1 h.2.2.2.2⟩
  | isOpen => exact h
  | flags => exact h

namespace Inv

open List Option Function

theorem refit {ca : ℕ → CAMDAdapter α} (h : Inv s) (hr : Refit s ca) : Inv { s with ca := ca } :=
  { h with
    port := hr.port
    base := fun id port b hb => by
      obtain ⟨hports, hid, hport, hhooks⟩ := h.base id port b hb
      exact ⟨hports, (hr.id b).trans hid, (hr.portNum b).trans hport, hr.hooks b hports hhooks⟩
    call := fun τ c hc => (h.call τ c hc).refit hr
    onePort := fun b hb b' hb' n hn hn' hport =>
      h.onePort b hb b' hb' n (hr.binding b hb n hn) (hr.binding b' hb' n hn')
        ((hr.portNum b).symm.trans (hport.trans (hr.portNum b')))
    quiet := hr.quiet }

theorem refit_one (h : Inv s) (hport : PortOk s.camdPortBases s.nch a x) (hid : x.id = (s.ca a).id)
    (hnum : x.portNum = (s.ca a).portNum) (hhooks : (s.ca a).hooks = true → x.hooks = true)
    (hbinding : ∀ n, x.binding = some n → (s.ca a).binding = some n) (hquiet : x.userData.idleCall = false) :
    Inv { s with ca := update s.ca a x } := by
  have hcases : ∀ b, update s.ca a x b = if b = a then x else s.ca b := update_apply _ _ _
  refine h.refit ⟨fun b hb => ?_, fun b => ?_, fun b => ?_, fun b hb => ?_, fun b hb => ?_, fun b => ?_⟩
  · rw [hcases]
    split
    · next hba => exact hba ▸ hport
    · exact h.port b hb
  · rw [hcases]
    split
    · next hba => exact hba ▸ hid
    · rfl
  · rw [hcases]
    split
    · next hba => exact hba ▸ hnum
    · rfl
  · rw [hcases]
    split
    · next hba => exact hba ▸ hhooks
    · exact fun h => h
  · rw [hcases]
    split
    · next hba => exact hba ▸ hbinding
    · exact fun _ h => h
  · rw [hcases]
    split
    · exact hquiet
    · exact h.quiet b

theorem kept_one (h : Inv s) (ha : a ∈ s.ports) (hk : Kept (s.ca a) x) :
    Inv { s with ca := update s.ca a x } := by
  exact h.refit_one ((h.port a ha).kept hk) hk.id hk.portNum hk.hooks.trans (fun n hn => hk.binding.symm.trans hn)
    ((hk.quiet (h.port a ha).asked).trans (h.quiet a))

theorem setNch {bindings : List ℕ} (h : Inv s) (hc : s.nch n = some c) (hid : c'.shortID = c.shortID)
    (hattached : ∀ a ∈ s.ports, (s.ca a).binding = some n → c'.pc.attached)
    (htold : ∀ a ∈ s.ports, (s.ca a).binding = some n → (s.ca a).txActive = true → c'.Told) (hok : NchOk c')
    (hnodup : bindings.Nodup)
    (hlisted : ∀ m ∈ bindings, (m ≠ n ∧ m ∈ s.bindings) ∨ (m = n ∧ c'.bound = .listed)) :
    Inv { s.setNch n c' with bindings := bindings } :=
  { h with
    bindings := hnodup
    port := fun b hb => by
      have hport := h.port b hb
      refine { hport with bound := fun m hm => ?_ }
      obtain ⟨d, hd, hda, hdid, hdtold⟩ := hport.bound m hm
      by_cases hmn : m = n
      · subst hmn
        obtain rfl := some.inj (hc.symm.trans hd)
        exact ⟨c', update_self .., hattached b hb hm, hid.trans hdid, htold b hb hm⟩
      · exact ⟨d, (update_of_ne hmn ..).trans hd, hda, hdid, hdtold⟩
    call := fun τ d hd => by
      have hok := h.call τ d hd
      cases d <;> exact hok
    listed := fun m hm => by
      rcases hlisted m hm with ⟨hmn, hm⟩ | ⟨rfl, hbound⟩
      · obtain ⟨d, hd, hbound⟩ := h.listed m hm
        exact ⟨d, (update_of_ne hmn ..).trans hd, hbound⟩
      · exact ⟨c', update_self .., hbound⟩
    nch := fun m d hd => by
      have hd : update s.nch n (some c') m = some d := hd
      by_cases hmn : m = n
      · subst hmn
        rw [update_self] at hd
        obtain rfl := some.inj hd
        exact hok
      · rw [update_of_ne hmn] at hd
        exact h.nch m d hd }

theorem setNch_same (h : Inv s) (hc : s.nch n = some c) (hid : c'.shortID = c.shortID)
    (hattached : ∀ a ∈ s.ports, (s.ca a).binding = some n → c'.pc.attached)
    (htold : ∀ a ∈ s.ports, (s.ca a).binding = some n → (s.ca a).txActive = true → c'.Told) (hok : NchOk c')
    (hbound : c'.bound = c.bound) : Inv (s.setNch n c') :=
  h.setNch hc hid hattached htold hok h.bindings fun m hm => by
    by_cases hmn : m = n
    · subst hmn
      obtain ⟨d, hd, hlisted⟩ := h.listed m hm
      obtain rfl := some.inj (hc.symm.trans hd)
      exact .inr ⟨rfl, hbound.trans hlisted⟩
    · exact .inl ⟨hmn, hm⟩

theorem touch (h : Inv s) (ha : a ∈ s.ports) : s.touch a = s := by
  unfold NepMidiBase.touch
  rw [h.live a ha, h.usedFreed]
  show { s with usedFreed := false } = s
  rw [← h.usedFreed]

theorem walk (h : Inv s) : s.walk = s := by
  have hall : (s.ports.any fun a => decide (s.mem a ≠ .live)) = false :=
    List.any_eq_false.mpr fun a ha => by simp [h.live a ha]
  unfold NepMidiBase.walk
  rw [hall, h.usedFreed]
  show { s with usedFreed := false } = s
  rw [← h.usedFreed]

theorem callHook (h : Inv s) (ha : a ∈ s.ports) (hhooks : (s.ca a).hooks = true) : s.callHook a = s := by
  unfold NepMidiBase.callHook
  rw [h.touch ha, hhooks, h.wildHook]
  show { s with wildHook := false } = s
  rw [← h.wildHook]

theorem setCa (h : Inv s) (ha : a ∈ s.ports) (x : CAMDAdapter α) :
    s.setCa a x = { s with ca := update s.ca a x } := by
  unfold NepMidiBase.setCa
  rw [h.touch ha]

theorem ask_task (h : Inv s) (ha : a ∈ s.ports) (hopen : (s.ca a).isOpen = true) (htask : (s.ca a).sigTask = some n) :
    Inv ((s.setCa a (s.ca a).ask).signal n fun c => { c with portSignal := true }) := by
  have hport := h.port a ha
  have hbound : (s.ca a).binding = some n := hport.task.symm.trans htask
  obtain ⟨c, hc, hattached, hid, -⟩ := hport.bound n hbound
  have hpc : c.pc ≠ .ended := fun hpc => by rw [hpc] at hattached; exact hattached
  have htold : ({ c with portSignal := true } : NepClassMidi α).Told := .inl rfl
  have h' : Inv (s.setNch n { c with portSignal := true }) :=
    h.setNch_same hc rfl (fun _ _ _ => hattached) (fun _ _ _ _ => htold) ⟨(h.nch n c hc).bound, (h.nch n c hc).fits⟩ rfl
  have hstate : (s.setCa a (s.ca a).ask).signal n (fun c => { c with portSignal := true }) =
      { s.setNch n { c with portSignal := true } with ca := update s.ca a (s.ca a).ask } := by
    rw [h.setCa ha]
    unfold NepMidiBase.signal
    rw [hc]
    dsimp only
    rw [decide_eq_false hpc, h.signalledEnded, Bool.false_or, ← h.signalledEnded]
    rfl
  rw [hstate]
  refine h'.refit_one ⟨hport.base, hport.hooks, fun _ => ⟨hopen, n, hbound⟩, rfl, hport.task, fun m hm => ?_⟩ rfl rfl
    (fun h => h) (fun _ h => h) (h.quiet a)
  obtain rfl := some.inj (hbound.symm.trans hm)
  exact ⟨_, update_self .., hattached, hid, fun _ => htold⟩

theorem ask_gone (h : Inv s) (v40 : Bool) (ha : a ∈ s.ports) (hopen : (s.ca a).isOpen = true)
    (htask : (s.ca a).sigTask = none) : Inv (s.setCa a ((s.ca a).ask.drain v40 16)) := by
  have hport := h.port a ha
  have hkept := CAMDAdapter.drain_kept v40 16 (s.ca a).ask
  have hdone := CAMDAdapter.drain_done v40 15 (show (s.ca a).ask.isOpen = true from hopen)
  have hbound : (s.ca a).binding = none := hport.task.symm.trans htask
  have hnone := hkept.binding.trans hbound
  rw [h.setCa ha]
  refine h.refit_one ⟨fun _ => ?_, fun _ => hkept.hooks.trans (hport.hooks hopen), fun ho => ?_, hkept.asked rfl, ?_,
    fun m hm => ?_⟩ hkept.id hkept.portNum hkept.hooks.trans (fun m hm => ?_)
    ((hkept.quiet rfl).trans (h.quiet a))
  · rw [hkept.id, hkept.portNum]
    exact hport.base hopen
  · exact absurd (hdone.symm.trans ho) nofun
  · exact (hkept.sigTask.trans htask).trans hnone.symm
  · exact absurd (hnone.symm.trans hm) nofun
  · exact absurd (hnone.symm.trans hm) nofun

theorem nActivate (h : Inv s) (v40 : Bool) (id : α) (port : ℕ) : Inv (s.nActivate v40 id port) := by
  unfold NepMidiBase.nActivate
  cases hbase : s.camdPortBases id port with
  | none => exact h
  | some a =>
    have ha := (h.base id port a hbase).1
    dsimp only
    rw [h.touch ha]
    by_cases hopen : (s.ca a).isOpen = true
    · rw [if_pos hopen]
      cases htask : (s.ca a).sigTask with
      | some n => exact h.ask_task ha hopen htask
      | none => exact h.ask_gone v40 ha hopen htask
    · rw [if_neg hopen]
      exact h

theorem nTxBytes_nil (cable : UInt8) (tx : UsbMidiTx) : UsbMidiTx.nTxBytes cable tx [] = (tx, []) := rfl

theorem nPullPort (h : Inv s) (v40 : Bool) (ha : a ∈ s.ports) (hactive : (s.ca a).txActive = true) (c : NepClassMidi α)
    (out : List Packet) : ∃ x, Kept (s.ca a) x ∧
      (s.nPullPort v40 c a out).2.1 = { s with ca := update s.ca a x } ∧
      ((s.nPullPort v40 c a out).1 = 0 → (s.nPullPort v40 c a out).2.2 = out ∧ x.txActive = false) := by
  have hopen := ((h.port a ha).active hactive).1
  have hkept := CAMDAdapter.pullFromCAMD_kept v40 txChunk (s.ca a)
  have hnil : ((s.ca a).pullFromCAMD v40 txChunk).1 = [] →
      ((s.ca a).pullFromCAMD v40 txChunk).2.txActive = false := CAMDAdapter.pullFromCAMD_nil hopen
  unfold NepMidiBase.nPullPort
  rw [h.callHook ha ((h.port a ha).hooks hopen)]
  dsimp only
  generalize (s.ca a).pullFromCAMD v40 txChunk = p at hkept hnil ⊢
  by_cases hout : p.2.portNum < c.outCables
  · rw [if_pos hout]
    refine ⟨{ p.2 with tx := (UsbMidiTx.nTxBytes (.ofNat p.2.portNum) p.2.tx p.1).1 },
      ⟨hkept.id, hkept.portNum, hkept.binding, hkept.sigTask, hkept.isOpen, hkept.hooks, hkept.active, hkept.asked,
        hkept.quiet⟩, h.setCa ha _, fun hzero => ?_⟩
    have hempty := length_eq_zero_iff.mp hzero
    rw [hempty, nTxBytes_nil, append_nil]
    exact ⟨rfl, hnil hempty⟩
  · rw [if_neg hout]
    exact ⟨_, hkept, h.setCa ha _, fun hzero => ⟨rfl, hnil (length_eq_zero_iff.mp hzero)⟩⟩

structure Walked (s t : NepMidiBase α) : Prop where
  inv : Inv t
  ports : t.ports = s.ports
  nch : t.nch = s.nch
  active : ∀ a ∈ s.ports, (t.ca a).txActive = true → (s.ca a).txActive = true
  binding : ∀ a ∈ s.ports, ∀ n, (t.ca a).binding = some n → (s.ca a).binding = some n

theorem Walked.refl (h : Inv s) : Walked s s := ⟨h, rfl, rfl, fun _ _ h => h, fun _ _ _ h => h⟩

theorem Walked.trans {u : NepMidiBase α} (h : Walked s t) (h' : Walked t u) : Walked s u where
  inv := h'.inv
  ports := h'.ports.trans h.ports
  nch := h'.nch.trans h.nch
  active a ha hu := h.active a ha (h'.active a (h.ports ▸ ha) hu)
  binding a ha n hu := h.binding a ha n (h'.binding a (h.ports ▸ ha) n hu)

theorem Walked.one (h : Inv { s with ca := update s.ca a x })
    (hactive : x.txActive = true → (s.ca a).txActive = true)
    (hbinding : ∀ n, x.binding = some n → (s.ca a).binding = some n) :
    Walked s { s with ca := update s.ca a x } where
  inv := h
  ports := rfl
  nch := rfl
  active b _ hb := by
    have hb : (update s.ca a x b).txActive = true := hb
    rw [update_apply] at hb
    split at hb
    · next hba => exact hba ▸ hactive hb
    · exact hb
  binding b _ m hb := by
    have hb : (update s.ca a x b).binding = some m := hb
    rw [update_apply] at hb
    split at hb
    · next hba => exact hba ▸ hbinding m hb
    · exact hb

theorem nPullPorts (h : Inv s) (v40 : Bool) (n : ℕ) (c : NepClassMidi α) (out : List Packet) (got : Bool) {l : List ℕ}
    (hl : ∀ a ∈ l, a ∈ s.ports) :
    Walked s (NepMidiBase.nPullPorts v40 n c l s out got).1 ∧
      ((NepMidiBase.nPullPorts v40 n c l s out got).2.2 = false → got = false ∧
        (NepMidiBase.nPullPorts v40 n c l s out got).2.1 = out ∧ (fits out → ∀ a ∈ l,
          ((NepMidiBase.nPullPorts v40 n c l s out got).1.ca a).binding = some n →
          ((NepMidiBase.nPullPorts v40 n c l s out got).1.ca a).txActive = false)) := by
  induction l generalizing s out got with
  | nil => exact ⟨.refl h, fun hgot => ⟨hgot, rfl, fun _ a ha => absurd ha not_mem_nil⟩⟩
  | cons a rest ih =>
    have ha := hl a mem_cons_self
    have hrest : ∀ b ∈ rest, b ∈ s.ports := fun b hb => hl b (mem_cons_of_mem a hb)
    unfold NepMidiBase.nPullPorts
    dsimp only
    by_cases hfits : fits out
    · rw [if_pos hfits, h.touch ha]
      by_cases hdue : (s.ca a).binding = some n ∧ (s.ca a).txActive = true
      · rw [if_pos hdue]
        obtain ⟨x, hkept, hstate, hzero⟩ := h.nPullPort v40 ha hdue.2 c out
        have h' := h.kept_one ha hkept
        have hone := Walked.one h' hkept.active fun m hm => hkept.binding.symm.trans hm
        rw [hstate]
        obtain ⟨hwalked, hdone⟩ := ih h' (s.nPullPort v40 c a out).2.2
          (got || decide ((s.nPullPort v40 c a out).1 ≠ 0)) hrest
        refine ⟨hone.trans hwalked, fun hgot => ?_⟩
        obtain ⟨hgot, hout, hquiet⟩ := hdone hgot
        obtain ⟨hgot, hnum⟩ := Bool.or_eq_false_iff.mp hgot
        obtain ⟨houtEq, hinactive⟩ := hzero (by simpa using hnum)
        refine ⟨hgot, hout.trans houtEq, fun _ b hb hbound => ?_⟩
        rcases mem_cons.mp hb with rfl | hb
        · by_contra hact
          have hact := hwalked.active b ha (eq_true_of_ne_false hact)
          rw [show ({ s with ca := update s.ca b x } : NepMidiBase α).ca b = x from update_self ..,
            hinactive] at hact
          exact absurd hact nofun
        · exact hquiet (by rwa [houtEq]) b hb hbound
      · rw [if_neg hdue]
        obtain ⟨hwalked, hdone⟩ := ih h out got hrest
        refine ⟨hwalked, fun hgot => ?_⟩
        obtain ⟨hgot, hout, hquiet⟩ := hdone hgot
        refine ⟨hgot, hout, fun hfits b hb hbound => ?_⟩
        rcases mem_cons.mp hb with rfl | hb
        · by_contra hact
          exact hdue ⟨hwalked.binding b ha n hbound, hwalked.active b ha (eq_true_of_ne_false hact)⟩
        · exact hquiet hfits b hb hbound
    · rw [if_neg hfits]
      exact ⟨.refl h, fun hgot => ⟨hgot, rfl, fun hf => absurd hf hfits⟩⟩

theorem nFreeMidi (h : Inv s) (v40 : Bool) (n : ℕ) {l : List ℕ} (hl : ∀ a ∈ l, a ∈ s.ports) :
    Walked s (NepMidiBase.nFreeMidi v40 n l s) ∧
      ∀ a ∈ l, ((NepMidiBase.nFreeMidi v40 n l s).ca a).binding ≠ some n := by
  induction l generalizing s with
  | nil => exact ⟨.refl h, fun a ha => absurd ha not_mem_nil⟩
  | cons a rest ih =>
    have ha := hl a mem_cons_self
    have hport := h.port a ha
    have hquiet := h.quiet a
    have hrest : ∀ b ∈ rest, b ∈ s.ports := fun b hb => hl b (mem_cons_of_mem a hb)
    -- what is left of the adapter, whichever branch
    have hdetached : ∀ x : CAMDAdapter α, Kept { s.ca a with binding := none, sigTask := none } x →
        x.txActive = false → Walked s (NepMidiBase.nFreeMidi v40 n rest { s with ca := update s.ca a x }) ∧
          ∀ b ∈ a :: rest,
            ((NepMidiBase.nFreeMidi v40 n rest { s with ca := update s.ca a x }).ca b).binding ≠ some n := by
      intro x hk hinactive
      have hnone : x.binding = none := hk.binding
      have h' : Inv { s with ca := update s.ca a x } := by
        refine h.refit_one ⟨fun ho => ?_, fun ho => ?_, fun ho => ?_, hk.asked hport.asked, ?_, fun m hm => ?_⟩ hk.id
          hk.portNum hk.hooks.trans (fun m hm => ?_) ((hk.quiet hport.asked).trans hquiet)
        · rw [hk.id, hk.portNum]
          exact hport.base (hk.isOpen.symm.trans ho)
        · exact hk.hooks.trans (hport.hooks (hk.isOpen.symm.trans ho))
        · exact absurd (hinactive.symm.trans ho) nofun
        · exact hk.sigTask.trans hnone.symm
        · exact absurd (hnone.symm.trans hm) nofun
        · exact absurd (hnone.symm.trans hm) nofun
      have hone := Walked.one h' (fun ho => absurd (hinactive.symm.trans ho) nofun)
        fun m hm => absurd (hnone.symm.trans hm) nofun
      obtain ⟨hwalked, hnot⟩ := ih h' hrest
      refine ⟨hone.trans hwalked, fun b hb hbound => ?_⟩
      rcases mem_cons.mp hb with rfl | hb
      · have hbound := hwalked.binding b ha n hbound
        rw [show ({ s with ca := update s.ca b x } : NepMidiBase α).ca b = x from update_self ..,
          hnone] at hbound
        exact absurd hbound nofun
      · exact hnot b hb hbound
    unfold NepMidiBase.nFreeMidi
    rw [h.touch ha]
    by_cases hbound : (s.ca a).binding = some n
    · rw [if_pos hbound]
      by_cases hopen : (s.ca a).isOpen = true
      · rw [if_pos hopen, h.callHook ha (hport.hooks hopen), h.setCa ha]
        exact hdetached _ (CAMDAdapter.drain_kept v40 txChunk _) (CAMDAdapter.drain_done v40 63 hopen)
      · rw [if_neg hopen, h.setCa ha]
        refine hdetached _ (.refl _) (eq_false_of_ne_true fun hactive => hopen (hport.active hactive).1)
    · rw [if_neg hbound]
      obtain ⟨hwalked, hnot⟩ := ih h hrest
      refine ⟨hwalked, fun b hb hb' => ?_⟩
      rcases mem_cons.mp hb with rfl | hb
      · exact hbound (hwalked.binding b ha n hb')
      · exact hnot b hb hb'

theorem own (h : Inv s) (hc : s.nch n = some c) (a : ℕ) (ha : a ∈ s.ports) (hn : (s.ca a).binding = some n) :
    c.pc.attached ∧ ((s.ca a).txActive = true → c.Told) := by
  obtain ⟨d, hd, hattached, -, htold⟩ := (h.port a ha).bound n hn
  obtain rfl := some.inj (hc.symm.trans hd)
  exact ⟨hattached, htold⟩

theorem goes (h : Inv s) (hc : s.nch n = some c) (hid : c'.shortID = c.shortID) (hbound : c'.bound = c.bound)
    (hattached : c.pc.attached → c'.pc.attached) (htold : c.Told → c'.Told) (hok : NchOk c') : Inv (s.setNch n c') :=
  h.setNch_same hc hid (fun a ha hn => hattached (h.own hc a ha hn).1)
    (fun a ha hn hactive => htold ((h.own hc a ha hn).2 hactive)) hok hbound

theorem nParseMidi (h : Inv s) (n : ℕ) (c : NepClassMidi α) (cable : ℕ) : s.nParseMidi n c cable = s := by
  unfold NepMidiBase.nParseMidi
  split
  · dsimp only
    rw [h.walk]
    cases hfind : s.nFindPort n cable with
    | none => rfl
    | some a =>
      have ha := List.mem_of_find?_eq_some hfind
      dsimp only
      split
      · next hopen => exact h.callHook ha ((h.port a ha).hooks hopen)
      · rfl
  · rfl

theorem loopEnd_inLoop {sigs : Bool} (hsigs : sigs = false) (again : Bool) :
    (NepMidiBase.loopEnd sigs again).inLoop := by
  subst hsigs
  cases again <;> trivial

theorem task (h : Inv s) (hc : s.nch n = some c) {e : TaskEvent} (ht : s.task v40 n c e = some t) : Inv t := by
  have hnch := h.nch n c hc
  cases e with
  | waitPipe =>
    unfold NepMidiBase.task at ht
    cases hpc : c.pc with
    | send again =>
      simp only [hpc] at ht
      obtain ⟨hsignal, rfl⟩ := of_guard ht
      refine h.goes hc rfl rfl (fun _ => trivial) (fun _ => .inr (.inr rfl)) ⟨fun hb => ?_, nofun⟩
      exact ⟨(hnch.bound hb).1, (hnch.bound hb).2.1, trivial⟩
    | abort =>
      simp only [hpc] at ht
      obtain ⟨hsignal, rfl⟩ := of_guard ht
      refine h.goes hc rfl rfl (fun _ => trivial) (fun _ => .inr trivial) ⟨fun hb => ?_, nofun⟩
      exact absurd (hnch.bound hb).2.2 (by rw [hpc]; exact id)
    | _ => simp only [hpc] at ht; exact absurd ht nofun
  | parse cable =>
    unfold NepMidiBase.task at ht
    cases hpc : c.pc with
    | awake =>
      simp only [hpc, h.nParseMidi] at ht
      exact some.inj ht ▸ h
    | _ => simp only [hpc] at ht; exact absurd ht nofun
  | go =>
    unfold NepMidiBase.task at ht
    cases hpc : c.pc with
    | wait =>
      simp only [hpc] at ht
      obtain ⟨-, rfl⟩ := of_guard ht
      refine h.goes hc rfl rfl (fun _ => trivial) (fun _ => .inr trivial) ⟨fun hb => ?_, nofun⟩
      exact ⟨rfl, (hnch.bound hb).1, trivial⟩
    | awake =>
      simp only [hpc] at ht
      obtain rfl := some.inj ht
      refine h.goes hc rfl rfl (fun _ => trivial) (fun _ => .inr trivial) ⟨fun hb => ?_, fun out hout => ?_⟩
      · exact ⟨(hnch.bound hb).1, (hnch.bound hb).2.1, trivial⟩
      · cases hout
        decide
    | pull out =>
      simp only [hpc] at ht
      obtain rfl := some.inj ht
      obtain ⟨hwalked, hdone⟩ := h.nPullPorts v40 n c out false fun a ha => ha
      refine hwalked.inv.setNch_same ((congrFun hwalked.nch n).trans hc) rfl (fun _ _ _ => trivial) (fun a ha hn hactive => .inr ?_)
        ⟨fun hb => ⟨(hnch.bound hb).1, (hnch.bound hb).2.1, trivial⟩, nofun⟩ rfl
      by_contra hagain
      obtain ⟨-, -, hquiet⟩ := hdone (eq_false_of_ne_true hagain)
      rw [hquiet (hnch.fits out hpc) a (hwalked.ports ▸ ha) hn] at hactive
      exact absurd hactive nofun
    | pulled out again =>
      simp only [hpc] at ht
      by_cases hsend : ¬ fits out ∨ (again = false ∧ out ≠ [])
      · rw [if_pos hsend] at ht
        obtain rfl := some.inj ht
        refine h.goes hc rfl rfl (fun _ => trivial) (fun htold => ?_) ⟨fun hb => ?_, nofun⟩
        · unfold NepClassMidi.Told at htold ⊢
          rw [hpc] at htold
          exact htold.imp id .inl
        · exact ⟨(hnch.bound hb).1, (hnch.bound hb).2.1, trivial⟩
      · rw [if_neg hsend] at ht
        by_cases hagain : again = true
        · rw [if_pos hagain] at ht
          obtain rfl := some.inj ht
          refine h.goes hc rfl rfl (fun _ => trivial) (fun _ => .inr trivial) ⟨fun hb => ?_, fun out' hout => ?_⟩
          · exact ⟨(hnch.bound hb).1, (hnch.bound hb).2.1, trivial⟩
          · cases hout
            exact Decidable.not_not.mp fun hf => hsend (.inl hf)
        · rw [if_neg hagain] at ht
          obtain rfl := some.inj ht
          refine h.goes hc rfl rfl (fun _ => ?_) (fun htold => ?_) ⟨fun hb => ?_, fun out' hout => ?_⟩
          · cases c.sigs <;> trivial
          · unfold NepClassMidi.Told at htold ⊢
            rw [hpc] at htold
            exact .inl (htold.resolve_right hagain)
          · exact ⟨(hnch.bound hb).1, (hnch.bound hb).2.1, loopEnd_inLoop (hnch.bound hb).2.1 false⟩
          · unfold NepMidiBase.loopEnd at hout
            cases hs : c.sigs <;> simp [hs] at hout
    | send again =>
      simp only [hpc] at ht
      obtain rfl := some.inj ht
      refine h.goes hc rfl rfl (fun _ => ?_) (fun htold => ?_) ⟨fun hb => ?_, fun out' hout => ?_⟩
      · cases again <;> cases c.sigs <;> trivial
      · unfold NepClassMidi.Told at htold ⊢
        rw [hpc] at htold
        cases again with
        | true => exact .inr trivial
        | false =>
          rcases htold with hsignal | hagain | hheld
          · exact .inl (by rw [hsignal, Bool.true_or])
          · exact absurd hagain nofun
          · exact .inl (by rw [hheld, Bool.or_true])
      · exact ⟨(hnch.bound hb).1, (hnch.bound hb).2.1, loopEnd_inLoop (hnch.bound hb).2.1 again⟩
      · unfold NepMidiBase.loopEnd at hout
        cases again with
        | true =>
          cases hout
          decide
        | false => cases hs : c.sigs <;> simp [hs] at hout
    | abort =>
      simp only [hpc] at ht
      obtain rfl := some.inj ht
      refine h.goes hc rfl rfl (fun _ => trivial) (fun _ => .inr trivial) ⟨fun hb => ?_, nofun⟩
      exact absurd (hnch.bound hb).2.2 (by rw [hpc]; exact id)
    | freeMidi =>
      simp only [hpc] at ht
      obtain rfl := some.inj ht
      obtain ⟨hwalked, hnot⟩ := h.nFreeMidi v40 n fun a ha => ha
      refine hwalked.inv.setNch_same ((congrFun hwalked.nch n).trans hc) rfl (fun a ha hn => ?_) (fun a ha hn => ?_) ⟨fun hb => ?_, nofun⟩ rfl
      · exact absurd hn (hnot a (hwalked.ports ▸ ha))
      · exact absurd hn (hnot a (hwalked.ports ▸ ha))
      · exact absurd (hnch.bound hb).2.2 (by rw [hpc]; exact id)
    | freeing =>
      simp only [hpc] at ht
      obtain rfl := some.inj ht
      refine h.goes hc rfl rfl (fun hattached => ?_) (fun htold => ?_) ⟨fun hb => ?_, nofun⟩
      · rw [hpc] at hattached
        exact hattached
      · unfold NepClassMidi.Told at htold ⊢
        rw [hpc] at htold
        exact htold
      · exact absurd (hnch.bound hb).2.2 (by rw [hpc]; exact id)
    | ended => simp only [hpc] at ht; exact absurd ht nofun

def Free (s : NepMidiBase α) (id : α) (port : ℕ) : Prop := ∀ τ call, s.calls τ = some call → call.key ≠ (id, port)

theorem Ok_setCall {o : Option (Call α)} (h : call.Ok s) : call.Ok (s.setCall τ o) := by
  cases call <;> exact h

theorem dropCall (h : Inv s) (hcall : s.calls τ = some call) :
    Inv (s.setCall τ none) ∧ Free (s.setCall τ none) call.key.1 call.key.2 := by
  have hold : ∀ τ' c, (s.setCall τ none).calls τ' = some c → τ' ≠ τ ∧ s.calls τ' = some c := by
    intro τ' c hc
    have hc : update s.calls τ none τ' = some c := hc
    rw [update_apply] at hc
    split at hc
    · exact absurd hc nofun
    · next hne => exact ⟨hne, hc⟩
  refine ⟨{ h with
    call := fun τ' c hc => Ok_setCall (h.call τ' c (hold τ' c hc).2)
    oneCall := fun τ₁ τ₂ c₁ c₂ h₁ h₂ => h.oneCall τ₁ τ₂ c₁ c₂ (hold τ₁ c₁ h₁).2 (hold τ₂ c₂ h₂).2 }, fun τ' c hc hkey => ?_⟩
  exact (hold τ' c hc).1 (h.oneCall τ' τ c call (hold τ' c hc).2 hcall hkey)

theorem addCall (h : Inv s) (hfree : Free s call.key.1 call.key.2) (hok : call.Ok s) : Inv (s.setCall τ (some call)) := by
  have hold : ∀ τ' c, (s.setCall τ (some call)).calls τ' = some c →
      (τ' = τ ∧ c = call) ∨ (τ' ≠ τ ∧ s.calls τ' = some c) := by
    intro τ' c hc
    have hc : update s.calls τ (some call) τ' = some c := hc
    rw [update_apply] at hc
    split at hc
    · next heq => exact .inl ⟨heq, (some.inj hc).symm⟩
    · next hne => exact .inr ⟨hne, hc⟩
  refine { h with call := fun τ' c hc => ?_, oneCall := fun τ₁ τ₂ c₁ c₂ h₁ h₂ hkey => ?_ }
  · rcases hold τ' c hc with ⟨-, rfl⟩ | ⟨-, hc⟩
    · exact Ok_setCall hok
    · exact Ok_setCall (h.call τ' c hc)
  · rcases hold τ₁ c₁ h₁ with ⟨rfl, rfl⟩ | ⟨-, hs₁⟩
    · rcases hold τ₂ c₂ h₂ with ⟨rfl, rfl⟩ | ⟨-, hs₂⟩
      · rfl
      · exact absurd hkey.symm (hfree τ₂ c₂ hs₂)
    · rcases hold τ₂ c₂ h₂ with ⟨rfl, rfl⟩ | ⟨-, hs₂⟩
      · exact absurd hkey (hfree τ₁ c₁ hs₁)
      · exact h.oneCall τ₁ τ₂ c₁ c₂ hs₁ hs₂ hkey

variable [DecidableEq α] {id : α} {port : ℕ} {o : Option ℕ}

theorem setBase_ne {id' : α} {port' : ℕ} (hne : (id', port') ≠ (id, port)) :
    (s.setBase id port o).camdPortBases id' port' = s.camdPortBases id' port' := by
  show update s.camdPortBases id (update (s.camdPortBases id) port o) id' port' = _
  by_cases hid : id' = id
  · subst hid
    rw [update_self]
    exact update_of_ne (fun hport => hne (by rw [hport])) ..
  · rw [update_of_ne hid]

theorem setBase_self : (s.setBase id port o).camdPortBases id port = o := by
  show update s.camdPortBases id (update (s.camdPortBases id) port o) id port = _
  rw [update_self, update_self]

theorem setBase (h : Inv s) (hfree : Free s id port)
    (hopen : ∀ a ∈ s.ports, (s.ca a).id = id → (s.ca a).portNum = port → (s.ca a).isOpen = true → o = some a)
    (hbase : ∀ a, o = some a → a ∈ s.ports ∧ (s.ca a).id = id ∧ (s.ca a).portNum = port ∧ (s.ca a).hooks = true) :
    Inv (s.setBase id port o) :=
  { h with
    port := fun a ha => by
      refine { h.port a ha with base := fun hisOpen => ?_ }
      show (s.setBase id port o).camdPortBases (s.ca a).id (s.ca a).portNum = some a
      by_cases hkey : ((s.ca a).id, (s.ca a).portNum) = (id, port)
      · obtain ⟨hid, hport⟩ := Prod.mk.inj hkey
        rw [hid, hport, setBase_self]
        exact hopen a ha hid hport hisOpen
      · rw [setBase_ne hkey]
        exact (h.port a ha).base hisOpen
    base := fun id' port' a ha => by
      by_cases hkey : (id', port') = (id, port)
      · obtain ⟨rfl, rfl⟩ := Prod.mk.inj hkey
        rw [setBase_self] at ha
        exact hbase a ha
      · rw [setBase_ne hkey] at ha
        exact h.base id' port' a ha
    call := fun τ c hc => by
      have hok := h.call τ c hc
      have hkey := hfree τ c hc
      cases c with
      | openPort => exact (setBase_ne hkey).trans hok
      | hook | unlink => exact ⟨hok.1, hok.2.1, hok.2.2.1, (setBase_ne hkey).trans hok.2.2.2⟩
      | base => exact ⟨hok.1, hok.2.1, hok.2.2.1, (setBase_ne hkey).trans hok.2.2.2.1, hok.2.2.2.2⟩
      | isOpen => exact (setBase_ne hkey).trans hok
      | flags => exact (setBase_ne hkey).trans hok
      | free => exact hok }

theorem nFindBinding (h : Inv s) (hfind : s.nFindBinding id = some n) (hc : s.nch n = some c) :
    c.shortID = id ∧ c.pc.attached := by
  have hid : (s.nch n).map (·.shortID) = some id := by simpa using List.find?_some hfind
  rw [hc] at hid
  obtain ⟨d, hd, hbound⟩ := h.listed n (List.mem_of_find?_eq_some hfind)
  obtain rfl := some.inj (hc.symm.trans hd)
  have hloop := ((h.nch n c hc).bound (by rw [hbound]; nofun)).2.2
  refine ⟨some.inj hid, ?_⟩
  cases hpc : c.pc <;> rw [hpc] at hloop <;> trivial

omit [DecidableEq α] in
theorem ne_unused (hlive : s.mem a = .live) {b : ℕ} (hunused : s.mem b = .unused) : a ≠ b := by
  rintro rfl
  exact absurd (hlive.symm.trans hunused) nofun

omit [DecidableEq α] in
theorem freeSlot (h : Inv s) (hunused : s.mem a = .unused) : Inv { s with mem := update s.mem a .freed } :=
  { h with
    live := fun b hb => (update_of_ne (ne_unused (h.live b hb) hunused) ..).trans (h.live b hb)
    call := fun τ d hd => by
      have hok := h.call τ d hd
      cases d with
      | free id port b =>
        exact ⟨hok.1, hok.2.1, hok.2.2.1,
          (update_of_ne (ne_unused hok.2.2.2 hunused) ..).trans hok.2.2.2⟩
      | _ => exact hok }

omit [DecidableEq α] in
theorem newPort (h : Inv s) (hunused : s.mem a = .unused) (hc : s.nch n = some c) (hid : c.shortID = id)
    (hattached : c.pc.attached) (hfind : s.nFindPort n port = none) :
    Inv { s with
      mem := update s.mem a .live
      ca := update s.ca a (NepMidiBase.freshAdapter id port n)
      ports := s.ports ++ [a] } := by
  have hne : ∀ b ∈ s.ports, b ≠ a := fun b hb => ne_unused (h.live b hb) hunused
  have hca : ∀ b, b ≠ a → update s.ca a (NepMidiBase.freshAdapter id port n) b = s.ca b := fun b hb =>
    update_of_ne hb ..
  have hself : update s.ca a (NepMidiBase.freshAdapter id port n) a = NepMidiBase.freshAdapter id port n :=
    update_self ..
  have hmem : ∀ b ∈ s.ports ++ [a], b ∈ s.ports ∨ b = a := fun b hb =>
    (mem_append.mp hb).imp_right mem_singleton.mp
  have hfresh : PortOk s.camdPortBases s.nch a (NepMidiBase.freshAdapter id port n) :=
    ⟨nofun, nofun, nofun, rfl, rfl, fun m hm => by
      obtain rfl := some.inj hm
      exact ⟨c, hc, hattached, hid, nofun⟩⟩
  have hother : ∀ b ∈ s.ports, (s.ca b).binding = some n → (s.ca b).portNum ≠ port := by
    intro b hb hn hport
    exact absurd (List.find?_eq_none.mp hfind b hb) (by simp [hn, hport])
  refine { h with
    live := fun b hb => ?_, nodup := ?_, port := fun b hb => ?_, base := fun id' port' b hb => ?_,
    call := fun τ d hd => ?_, onePort := fun b hb b' hb' m hm hm' hport => ?_, quiet := fun b => ?_ }
  · rcases hmem b hb with hb | rfl
    · exact (update_of_ne (hne b hb) ..).trans (h.live b hb)
    · exact update_self ..
  · exact nodup_append.mpr ⟨h.nodup, nodup_singleton a, fun b hb b' hb' => by
      rw [mem_singleton.mp hb']
      exact hne b hb⟩
  · show PortOk s.camdPortBases s.nch b (update s.ca a _ b)
    rcases hmem b hb with hb | rfl
    · rw [hca b (hne b hb)]
      exact h.port b hb
    · rw [hself]
      exact hfresh
  · obtain ⟨hports, hrest⟩ := h.base id' port' b hb
    refine ⟨mem_append_left _ hports, ?_⟩
    dsimp only
    rw [hca b (hne b hports)]
    exact hrest
  · have hok := h.call τ d hd
    cases d with
    | openPort => exact hok
    | hook id' port' b | base id' port' b | unlink id' port' b =>
      refine ⟨mem_append_left _ hok.1, ?_⟩
      dsimp only
      rw [hca b (hne b hok.1)]
      exact hok.2
    | isOpen => exact hok
    | flags => exact hok
    | free id' port' b =>
      have hba := ne_unused hok.2.2.2 hunused
      refine ⟨fun hb => ?_, ?_⟩
      · rcases hmem b hb with hb | hb
        · exact hok.1 hb
        · exact hba hb
      · dsimp only
        rw [hca b hba, update_of_ne hba]
        exact hok.2
  · dsimp only at hm hm' hport
    rcases hmem b hb with hold | rfl
    · rw [hca b (hne b hold)] at hm hport
      rcases hmem b' hb' with hold' | rfl
      · rw [hca b' (hne b' hold')] at hm' hport
        exact h.onePort b hold b' hold' m hm hm' hport
      · rw [hself] at hm' hport
        obtain rfl := some.inj hm'
        exact absurd hport (hother b hold hm)
    · rw [hself] at hm hport
      obtain rfl := some.inj hm
      rcases hmem b' hb' with hold' | rfl
      · rw [hca b' (hne b' hold')] at hm' hport
        exact absurd hport.symm (hother b' hold' hm')
      · rfl
  · show (update s.ca a _ b).userData.idleCall = false
    rw [update_apply]
    split
    · rfl
    · exact h.quiet b

omit [DecidableEq α] in
theorem unlink (h : Inv s) (hfree : Free s id port) (ha : a ∈ s.ports) (hid : (s.ca a).id = id)
    (hport : (s.ca a).portNum = port) (hbase : s.camdPortBases id port = none) :
    Inv { s with ports := s.ports.erase a } := by
  have hmem : ∀ b, b ∈ s.ports.erase a → b ∈ s.ports := fun b hb => mem_of_mem_erase hb
  have hstays : ∀ b ∈ s.ports, ((s.ca b).id, (s.ca b).portNum) ≠ (id, port) → b ∈ s.ports.erase a := by
    intro b hb hkey
    refine (mem_erase_of_ne ?_).mpr hb
    rintro rfl
    exact hkey (by rw [hid, hport])
  refine { h with
    live := fun b hb => h.live b (hmem b hb), nodup := h.nodup.erase a, port := fun b hb => h.port b (hmem b hb),
    base := fun id' port' b hb => ?_, call := fun τ d hd => ?_,
    onePort := fun b hb b' hb' => h.onePort b (hmem b hb) b' (hmem b' hb') }
  · obtain ⟨hports, hid', hport', hhooks⟩ := h.base id' port' b hb
    refine ⟨hstays b hports fun hkey => ?_, hid', hport', hhooks⟩
    rw [hid', hport'] at hkey
    obtain ⟨rfl, rfl⟩ := Prod.mk.inj hkey
    exact absurd (hbase.symm.trans hb) nofun
  · have hok := h.call τ d hd
    have hkey := hfree τ d hd
    cases d with
    | openPort => exact hok
    | hook | base | unlink => exact ⟨hstays _ hok.1 (by rw [hok.2.1, hok.2.2.1]; exact hkey), hok.2⟩
    | isOpen => exact hok
    | flags => exact hok
    | free => exact ⟨fun hb => hok.1 (hmem _ hb), hok.2⟩

omit [DecidableEq α] in
theorem freeVec (h : Inv s) (hfree : Free s id port) (ha : a ∉ s.ports) (hid : (s.ca a).id = id)
    (hport : (s.ca a).portNum = port) : Inv { s with mem := update s.mem a .freed } := by
  refine { h with live := fun b hb => ?_, call := fun τ d hd => ?_ }
  · have hba : b ≠ a := fun hba => ha (hba ▸ hb)
    exact (update_of_ne hba ..).trans (h.live b hb)
  · have hok := h.call τ d hd
    have hkey := hfree τ d hd
    cases d with
    | free id' port' b =>
      have hba : b ≠ a := by
        rintro rfl
        exact hkey (by rw [← hid, ← hport, hok.2.1, hok.2.2.1]; rfl)
      exact ⟨hok.1, hok.2.1, hok.2.2.1, (update_of_ne hba ..).trans hok.2.2.2⟩
    | _ => exact hok

omit [DecidableEq α] in
theorem setCall_setCall (o o' : Option (Call α)) : (s.setCall τ o).setCall τ o' = s.setCall τ o' := by
  unfold NepMidiBase.setCall
  rw [update_idem]

omit [DecidableEq α] in
theorem nextCall (h : Inv (s.setCall τ none)) (hfree : Free (s.setCall τ none) call.key.1 call.key.2)
    (hok : call.Ok s) : Inv (s.setCall τ (some call)) := by
  have hnext := h.addCall (τ := τ) hfree (Ok_setCall hok)
  rwa [setCall_setCall] at hnext

theorem usbCAMDOpenPort (h : Inv s) {slot : Option ℕ} (hcall : s.calls τ = some (.openPort id port))
    (ht : s.usbCAMDOpenPort τ id port slot = some t) : Inv t := by
  obtain ⟨h₀, hfree⟩ := h.dropCall hcall
  have hbase : s.camdPortBases id port = none := h.call τ _ hcall
  cases slot with
  | none =>
    obtain rfl := some.inj ht
    exact h₀
  | some a =>
    unfold NepMidiBase.usbCAMDOpenPort at ht
    dsimp only at ht
    by_cases hunused : s.mem a = .unused
    · rw [if_pos hunused, h.walk] at ht
      cases hfind : s.nFindBinding id with
      | none =>
        rw [hfind] at ht
        obtain rfl := some.inj ht
        exact h₀.freeSlot hunused
      | some n =>
        rw [hfind] at ht
        dsimp only at ht
        cases hc : s.nch n with
        | none =>
          rw [hc] at ht
          exact absurd ht nofun
        | some c =>
          rw [hc] at ht
          dsimp only at ht
          obtain ⟨hid, hattached⟩ := h.nFindBinding hfind hc
          by_cases hgive : c.pc ≠ .ended ∧ port < c.numCables ∧ s.nFindPort n port = none
          · rw [if_pos hgive] at ht
            obtain rfl := some.inj ht
            refine nextCall (h₀.newPort hunused hc hid hattached hgive.2.2) hfree ⟨?_, ?_, ?_, hbase⟩
            · exact mem_append_right _ (mem_singleton_self a)
            · exact congrArg (fun x : CAMDAdapter α => x.id) (update_self a _ s.ca)
            · exact congrArg (fun x : CAMDAdapter α => x.portNum) (update_self a _ s.ca)
          · rw [if_neg hgive] at ht
            obtain rfl := some.inj ht
            exact h₀.freeSlot hunused
    · rw [if_neg hunused] at ht
      exact absurd ht nofun

theorem call_step (h : Inv s) {slot : Option ℕ} (ht : s.call τ slot = some t) : Inv t := by
  unfold NepMidiBase.call at ht
  cases hcall : s.calls τ with
  | none =>
    rw [hcall] at ht
    exact absurd ht nofun
  | some call =>
    rw [hcall] at ht
    have hok := h.call τ call hcall
    obtain ⟨h₀, hfree⟩ := h.dropCall hcall
    cases call with
    | openPort id port => exact h.usbCAMDOpenPort hcall ht
    | hook id port a =>
      obtain ⟨ha, hid, hport, hbase⟩ := hok
      have hportOk := h.port a ha
      obtain rfl := some.inj ht
      rw [h.setCa ha]
      have hone := h₀.refit_one (a := a) (x := { s.ca a with hooks := true })
        { hportOk with hooks := fun _ => rfl } rfl rfl (fun _ => rfl) (fun _ h => h) (h.quiet a)
      refine nextCall hone hfree ⟨ha, ?_, ?_, hbase, ?_⟩
      · exact (congrArg (fun x : CAMDAdapter α => x.id) (update_self a _ s.ca)).trans hid
      · exact (congrArg (fun x : CAMDAdapter α => x.portNum) (update_self a _ s.ca)).trans hport
      · exact congrArg (fun x : CAMDAdapter α => x.hooks) (update_self a _ s.ca)
    | base id port a =>
      obtain ⟨ha, hid, hport, hbase, hhooks⟩ := hok
      obtain rfl := some.inj ht
      have hset : Inv ((s.setCall τ none).setBase id port (some a)) := by
        refine h₀.setBase hfree (fun b hb (hbid : (s.ca b).id = id) (hbport : (s.ca b).portNum = port) hopen => ?_)
          fun b hb => ?_
        · have hbase' := (h.port b hb).base hopen
          rw [hbid, hbport, hbase] at hbase'
          exact absurd hbase' nofun
        · obtain rfl := some.inj hb
          exact ⟨ha, hid, hport, hhooks⟩
      exact nextCall hset hfree setBase_self
    | isOpen id port a =>
      obtain ⟨ha, hid, hport, hhooks⟩ := h.base id port a hok
      have hportOk := h.port a ha
      obtain rfl := some.inj ht
      rw [h.setCa ha]
      refine h₀.refit_one (a := a) (x := { s.ca a with isOpen := true })
        { hportOk with
          base := fun _ => ?_, hooks := fun _ => hhooks, active := fun hactive => ⟨rfl, (hportOk.active hactive).2⟩ }
        rfl rfl (fun h => h) (fun _ h => h) (h.quiet a)
      rw [hid, hport]
      exact hok
    | flags id port a =>
      obtain ⟨ha, hid, hport, hhooks⟩ := h.base id port a hok
      have hportOk := h.port a ha
      obtain rfl := some.inj ht
      rw [h.setCa ha]
      have hone := h₀.refit_one (a := a) (x := (s.ca a).close)
        { hportOk with base := nofun, hooks := nofun, active := nofun, asked := rfl
                       bound := fun n hn => by
                         obtain ⟨c, hc, hattached, hcid, -⟩ := hportOk.bound n hn
                         exact ⟨c, hc, hattached, hcid, nofun⟩ }
        rfl rfl (fun h => h) (fun _ h => h) (h.quiet a)
      have hset := hone.setBase (o := none) hfree (fun b hb hbid hbport hopen => ?_) nofun
      · refine nextCall hset hfree ⟨ha, ?_, ?_, setBase_self⟩
        · exact (congrArg (fun x : CAMDAdapter α => x.id) (update_self a _ s.ca)).trans hid
        · exact (congrArg (fun x : CAMDAdapter α => x.portNum) (update_self a _ s.ca)).trans hport
      · have hbase := (hone.port b hb).base hopen
        rw [hbid, hbport] at hbase
        obtain rfl := some.inj (hok.symm.trans hbase)
        have hclosed : (update s.ca a (s.ca a).close a).isOpen = true := hopen
        rw [update_self] at hclosed
        exact absurd hclosed nofun
    | unlink id port a =>
      obtain ⟨ha, hid, hport, hbase⟩ := hok
      dsimp only at ht
      rw [if_pos ha, h.walk] at ht
      obtain rfl := some.inj ht
      exact nextCall (h₀.unlink hfree ha hid hport hbase) hfree ⟨h.nodup.not_mem_erase, hid, hport, h.live a ha⟩
    | free id port a =>
      obtain ⟨ha, hid, hport, -⟩ := hok
      obtain rfl := some.inj ht
      exact h₀.freeVec hfree ha hid hport

end Inv

def OneCall (s : NepMidiBase α) : Event α → Prop
  | .openPort _ id portnum | .closePort _ id portnum =>
    ∀ τ call, s.calls τ = some call → call.key ≠ (id, portnum % 256)
  | _ => True

theorem Inv.init (id : α) : Inv (init id) where
  usedFreed := rfl
  wildHook := rfl
  signalledEnded := rfl
  live _ h := absurd h not_mem_nil
  nodup := nodup_nil
  bindings := nodup_nil
  port _ h := absurd h not_mem_nil
  base := nofun
  call := nofun
  oneCall := nofun
  onePort _ h := absurd h not_mem_nil
  listed _ h := absurd h not_mem_nil
  nch := nofun
  quiet _ := rfl

theorem Inv.queue [DecidableEq α] (h : Inv s) (a : ℕ) (b : UInt8) (ht : step v40 s (.queue a b) = some t) : Inv t := by
  obtain rfl := some.inj ht
  generalize hca : update s.ca a _ = ca
  have hsame : ∀ d, ∃ u : UserData, ca d = { s.ca d with userData := u } ∧ u.asked = (s.ca d).userData.asked ∧
      u.idleCall = (s.ca d).userData.idleCall := by
    intro d
    rw [← hca, update_apply]
    split
    · next hd =>
      subst hd
      exact ⟨_, rfl, rfl, rfl⟩
    · exact ⟨_, rfl, rfl, rfl⟩
  refine h.refit ⟨fun d hd => ?_, fun d => ?_, fun d => ?_, fun d hd => ?_, fun d hd => ?_, fun d => ?_⟩ <;>
    obtain ⟨u, hu, hasked, hidle⟩ := hsame d <;> rw [hu]
  · have hport := h.port d hd
    exact ⟨hport.base, hport.hooks, hport.active, hasked.trans hport.asked, hport.task, hport.bound⟩
  · exact fun h => h
  · exact fun _ h => h
  · exact hidle.trans (h.quiet d)

theorem Inv.spawn (h : Inv s) (n : ℕ) (hnone : s.nch n = none) (c : NepClassMidi α) (hpc : c.pc = .wait)
    (hbreak : c.breakSignal = false) (hsigs : c.sigs = false) : Inv (s.setNch n c) := by
  have hne : ∀ {m : ℕ} {d : NepClassMidi α}, s.nch m = some d → m ≠ n := by
    rintro m d hd rfl
    exact absurd (hnone.symm.trans hd) nofun
  have hold : ∀ {m : ℕ} {d : NepClassMidi α}, s.nch m = some d → (s.setNch n c).nch m = some d := fun hd =>
    (update_of_ne (hne hd) ..).trans hd
  refine { h with port := fun b hb => ?_, listed := fun m hm => ?_, nch := fun m d hd => ?_, call := fun τ d hd => ?_ }
  · refine { h.port b hb with bound := fun m hm => ?_ }
    obtain ⟨d, hd, hrest⟩ := (h.port b hb).bound m hm
    exact ⟨d, hold hd, hrest⟩
  · have hok := h.call τ d hd
    cases d <;> exact hok
  · obtain ⟨d, hd, hlisted⟩ := h.listed m hm
    exact ⟨d, hold hd, hlisted⟩
  · have hd : update s.nch n (some c) m = some d := hd
    rw [update_apply] at hd
    split at hd
    · obtain rfl := some.inj hd
      exact ⟨fun _ => ⟨hbreak, hsigs, by rw [hpc]; trivial⟩, fun out hout => absurd (hpc.symm.trans hout) nofun⟩
    · exact h.nch m d hd

theorem Inv.list (h : Inv s) (hc : s.nch n = some c) (hspawned : c.bound = .spawned) :
    Inv { s.setNch n { c with bound := .listed } with bindings := s.bindings ++ [n] } := by
  have hloop := (h.nch n c hc).bound (by rw [hspawned]; nofun)
  have hnot : n ∉ s.bindings := by
    intro hn
    obtain ⟨d, hd, hlisted⟩ := h.listed n hn
    obtain rfl := some.inj (hc.symm.trans hd)
    exact absurd (hspawned.symm.trans hlisted) nofun
  refine h.setNch hc rfl (fun a ha hn => (h.own hc a ha hn).1) (fun a ha hn => (h.own hc a ha hn).2)
    ⟨fun _ => hloop, (h.nch n c hc).fits⟩ ?_ fun m hm => ?_
  · refine nodup_append.mpr ⟨h.bindings, nodup_singleton n, fun b hb b' hb' => ?_⟩
    rw [mem_singleton.mp hb']
    rintro rfl
    exact hnot hb
  · rcases mem_append.mp hm with hm | hm
    · exact .inl ⟨fun hmn => hnot (hmn ▸ hm), hm⟩
    · exact .inr ⟨mem_singleton.mp hm, rfl⟩

theorem Inv.release (h : Inv s) (hc : s.nch n = some c) (hlisted : c.bound = .listed)
    (ht : (if c.pc = .ended then
        some (NepMidiBase.setNch { s with bindings := s.bindings.erase n } n { c with bound := .released })
      else some (NepMidiBase.signal { s with bindings := s.bindings.erase n } n fun c =>
        { c with bound := .released, breakSignal := true })) = some t) : Inv t := by
  have hloop := ((h.nch n c hc).bound (by rw [hlisted]; nofun)).2.2
  have hpc : c.pc ≠ .ended := by
    intro hpc
    rw [hpc] at hloop
    exact hloop
  rw [if_neg hpc] at ht
  obtain rfl := some.inj ht
  have hstate : NepMidiBase.signal { s with bindings := s.bindings.erase n } n
      (fun c => { c with bound := .released, breakSignal := true }) =
        { s.setNch n { c with bound := .released, breakSignal := true } with bindings := s.bindings.erase n } := by
    unfold NepMidiBase.signal
    rw [hc]
    dsimp only
    rw [decide_eq_false hpc, Bool.or_false]
    rfl
  rw [hstate]
  refine h.setNch hc rfl (fun a ha hn => (h.own hc a ha hn).1) (fun a ha hn => (h.own hc a ha hn).2)
    ⟨fun hb => absurd rfl hb, (h.nch n c hc).fits⟩ (h.bindings.erase n) fun m hm => .inl ⟨?_, mem_of_mem_erase hm⟩
  rintro rfl
  exact h.bindings.not_mem_erase hm

variable [DecidableEq α]

theorem Inv.step (h : Inv s) {e : Event α} (hone : OneCall s e) (ht : step v40 s e = some t) : Inv t := by
  cases e with
  | openPort τ id portnum =>
    unfold CamdPorts.step at ht
    dsimp only at ht
    cases hcall : s.calls τ with
    | some => rw [hcall] at ht; exact absurd ht nofun
    | none =>
      rw [hcall] at ht
      dsimp only at ht
      split at ht
      · exact some.inj ht ▸ h
      · next hfree =>
        obtain rfl := some.inj ht
        refine h.addCall hone (?_ : s.camdPortBases id (portnum % 256) = none)
        simpa using (not_or.mp hfree).2
  | closePort τ id portnum =>
    unfold CamdPorts.step at ht
    dsimp only at ht
    cases hcall : s.calls τ with
    | some => rw [hcall] at ht; exact absurd ht nofun
    | none =>
      rw [hcall] at ht
      dsimp only at ht
      split at ht
      · exact some.inj ht ▸ h
      · cases hbase : s.camdPortBases id (portnum % 256) with
        | none =>
          rw [hbase] at ht
          exact some.inj ht ▸ h
        | some a =>
          rw [hbase] at ht
          obtain rfl := some.inj ht
          exact h.addCall hone hbase
  | call τ slot => exact h.call_step ht
  | activateXmit id port =>
    obtain rfl := some.inj ht
    exact h.nActivate v40 id port
  | queue a b => exact h.queue a b ht
  | spawn n id inJacks outJacks =>
    obtain ⟨hnone, rfl⟩ := of_guard ht
    exact h.spawn n hnone _ rfl rfl rfl
  | list n =>
    unfold CamdPorts.step at ht
    dsimp only at ht
    cases hc : s.nch n with
    | none => rw [hc] at ht; exact absurd ht nofun
    | some c =>
      rw [hc] at ht
      obtain ⟨hspawned, rfl⟩ := of_guard ht
      exact h.list hc hspawned
  | release n =>
    unfold CamdPorts.step at ht
    dsimp only at ht
    cases hc : s.nch n with
    | none => rw [hc] at ht; exact absurd ht nofun
    | some c =>
      rw [hc] at ht
      dsimp only at ht
      split at ht
      · next hlisted => exact h.release hc hlisted ht
      · exact absurd ht nofun
  | replyPipe n =>
    unfold CamdPorts.step at ht
    dsimp only at ht
    cases hc : s.nch n with
    | none => rw [hc] at ht; exact absurd ht nofun
    | some c =>
      rw [hc] at ht
      dsimp only at ht
      split at ht
      · exact absurd ht nofun
      · obtain rfl := some.inj ht
        exact h.goes hc rfl rfl (fun h => h) (fun _ => .inl rfl) ⟨(h.nch n c hc).bound, (h.nch n c hc).fits⟩
  | task n e =>
    unfold CamdPorts.step at ht
    dsimp only at ht
    cases hc : s.nch n with
    | none => rw [hc] at ht; exact absurd ht nofun
    | some c =>
      rw [hc] at ht
      exact h.task hc ht

structure Safe (s : NepMidiBase α) : Prop where
  /-- Output of an open port that camd has told of is waited for by a task that is awake or signalled. -/
  woken : ∀ a ∈ s.ports, (s.ca a).isOpen = true → (s.ca a).userData.queued ≠ [] → (s.ca a).userData.asked = true →
    (s.ca a).txActive = true ∧ ∃ n c, (s.ca a).sigTask = some n ∧ s.nch n = some c ∧ c.Told
  drained : ∀ a ∈ s.ports, (s.ca a).sigTask = none → (s.ca a).isOpen = true → (s.ca a).userData.asked = false
  idle : ∀ a, (s.ca a).userData.idleCall = false
  usedFreed : s.usedFreed = false
  wildHook : s.wildHook = false
  oneOpen : ∀ a ∈ s.ports, ∀ a' ∈ s.ports, ∀ n, (s.ca a).binding = some n → (s.ca a').binding = some n →
    (s.ca a).portNum = (s.ca a').portNum → a = a'
  signalledEnded : s.signalledEnded = false

omit [DecidableEq α] in
theorem Inv.safe (h : Inv s) : Safe s where
  woken a ha hopen _ hasked := by
    have hport := h.port a ha
    have hactive := hport.asked.symm.trans hasked
    obtain ⟨-, n, hn⟩ := hport.active hactive
    obtain ⟨c, hc, -, -, htold⟩ := hport.bound n hn
    exact ⟨hactive, n, c, hport.task.trans hn, hc, htold hactive⟩
  drained a ha htask _ := by
    have hport := h.port a ha
    rw [hport.asked]
    refine eq_false_of_ne_true fun hactive => ?_
    obtain ⟨-, n, hn⟩ := hport.active hactive
    exact absurd (htask.symm.trans (hport.task.trans hn)) nofun
  idle := h.quiet
  usedFreed := h.usedFreed
  wildHook := h.wildHook
  oneOpen := h.onePort
  signalledEnded := h.signalledEnded

theorem ports_safe (v40 : Bool) (id : α) {evs : List (Event α)} (h : Run (step v40) OneCall (init id) evs t) : Safe t :=
  (h.invariant Inv (.init id) fun _ _ _ h hone ht => h.step hone ht).safe

def opened : List (Event ℕ) :=
  [.spawn 0 0 none none, .list 0, .openPort 0 0 0, .call 0 (some 0), .call 0 none, .call 0 none, .call 0 none]

/-- And the first byte told of. -/
theorem ports_safe_opened :
    ∃ t, exec (step false) (init 0) (opened ++ [.queue 0 0x90, .activateXmit 0 0]) = some t ∧
      (t.ca 0).userData.queued = [0x90] ∧ (t.ca 0).txActive = true ∧ Safe t := by
  have hquiet : ∀ s, Meets (step false) OneCall s
      [.call 0 (some 0), .call 0 none, .call 0 none, .call 0 none, .queue 0 0x90, .activateXmit (0 : ℕ) 0] := fun _ =>
    ⟨trivial, fun _ _ => ⟨trivial, fun _ _ => ⟨trivial, fun _ _ => ⟨trivial, fun _ _ => ⟨trivial, fun _ _ =>
      ⟨trivial, fun _ _ => trivial⟩⟩⟩⟩⟩⟩
  have hmeets : Meets (step false) OneCall (init 0) (opened ++ [.queue 0 0x90, .activateXmit 0 0]) := by
    refine ⟨trivial, fun _ hspawn => ?_⟩
    cases hspawn
    refine ⟨trivial, fun _ hlist => ?_⟩
    cases hlist
    exact ⟨nofun, fun s _ => hquiet s⟩
  exact ⟨_, rfl, rfl, rfl, ports_safe false 0 (.of_exec hmeets rfl)⟩

def closedEarly : List (Event ℕ) :=
  [.spawn 0 0 none none, .list 0, .openPort 0 0 0, .call 0 (some 0), .call 0 none, .call 0 none, .closePort 1 0 0,
    .call 1 none, .call 1 none, .call 1 none, .call 0 none]

/-- Two tasks close a port, and the second has looked it up before the first clears it. -/
theorem ports_not_safe :
    ¬ (∀ v40 (id : ℕ) evs t, Run (step v40) anyStep (init id) evs t → Safe t) ∧
      ∃ t, exec (step false) (init 0) closedEarly = some t ∧ t.usedFreed = true := by
  constructor
  · intro h
    have hsafe := h false 0 (opened ++ [.closePort 0 0 0, .closePort 1 0 0, .call 0 none, .call 0 none, .call 0 none,
      .call 1 none]) _ (.of_exec_any rfl)
    exact absurd hsafe.usedFreed (by decide)
  · exact ⟨_, rfl, rfl⟩

end Neptune.CamdPorts
