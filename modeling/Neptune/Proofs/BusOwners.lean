import Neptune.Spec.BusAddress

/-! The slots of `phw_DevArray` under the operations on one device. -/

namespace Neptune

open Option Function

namespace BusAddress

open PsdHardware

variable {η : Type} {phw t : PsdHardware η} {pd da : ℕ}

def Slots (phw : PsdHardware η) : Prop :=
  ∀ da pd, phw.devArray da = some pd ↔
    pd < phw.count ∧ da ≠ 0 ∧ (phw.device pd).devAddr = da ∧ (phw.device pd).torn = false

structure Devices (phw : PsdHardware η) : Prop where
  slots : Slots phw
  pending : ∀ pd, (phw.device pd).delExpunge = true → (phw.device pd).torn = false

structure Touched (phw t : PsdHardware η) (pd : ℕ) : Prop where
  devices : Devices t
  others : ∀ pd', pd' ≠ pd → t.device pd' = phw.device pd'
  devAddr : (phw.device pd).devAddr ≠ 0 → (t.device pd).devAddr = (phw.device pd).devAddr
  count : t.count = phw.count
  adr0 : t.adr0 = phw.adr0
  task : t.task = phw.task
  downstream : t.downstream = phw.downstream
  port : t.port = phw.port

theorem Touched.trans {u : PsdHardware η} (h1 : Touched phw t pd) (h2 : Touched t u pd) : Touched phw u pd where
  devices := h2.devices
  others pd' hpd' := (h2.others pd' hpd').trans (h1.others pd' hpd')
  devAddr ha := by
    have h1a := h1.devAddr ha
    rw [h2.devAddr (by rw [h1a]; exact ha), h1a]
  count := h2.count.trans h1.count
  adr0 := h2.adr0.trans h1.adr0
  task := h2.task.trans h1.task
  downstream := h2.downstream.trans h1.downstream
  port := h2.port.trans h1.port

theorem Devices.refl_touched (hd : Devices phw) (pd : ℕ) : Touched phw phw pd :=
  ⟨hd, fun _ _ => rfl, fun _ => rfl, rfl, rfl, rfl, rfl, rfl⟩

theorem Devices.setDevice (hd : Devices phw) (pd : ℕ) (device : PsdDevice) (haddr : device.devAddr = (phw.device pd).devAddr)
    (htorn : device.torn = (phw.device pd).torn) (hpend : device.delExpunge = true → device.torn = false) :
    Touched phw (phw.setDevice pd device) pd where
  devices := by
    constructor
    · intro da pd'
      refine (hd.slots da pd').trans ?_
      by_cases hpd : pd' = pd
      · subst hpd
        simp [PsdHardware.setDevice, haddr, htorn]
      · simp [PsdHardware.setDevice, hpd]
    · intro pd'
      by_cases hpd : pd' = pd
      · subst hpd
        simpa [PsdHardware.setDevice] using hpend
      · simpa [PsdHardware.setDevice, hpd] using hd.pending pd'
  others pd' hpd' := update_of_ne hpd' _ _
  devAddr _ := by simpa [PsdHardware.setDevice] using haddr
  count := rfl
  adr0 := rfl
  task := rfl
  downstream := rfl
  port := rfl

theorem freeAddr_spec (ha : phw.freeAddr = some da) : da ≠ 0 ∧ phw.devArray da = none := by
  have hnone := List.find?_some ha
  obtain ⟨i, -, rfl⟩ := List.mem_map.mp (List.mem_of_find?_eq_some ha)
  exact ⟨Nat.succ_ne_zero i, isNone_iff_eq_none.mp hnone⟩

section

variable (hd : Devices phw) (hpd : pd < phw.count) (htorn : (phw.device pd).torn = false)
include hd hpd htorn

theorem pAllocDevAddr_touched :
    Touched phw (phw.pAllocDevAddr pd) pd := by
  unfold pAllocDevAddr
  split
  · exact hd.refl_touched pd
  · rename_i hzero
    rw [not_not] at hzero
    split
    · exact hd.refl_touched pd
    · rename_i da ha
      obtain ⟨hda, hnone⟩ := freeAddr_spec ha
      refine ⟨⟨?_, ?_⟩, fun pd' hpd' => update_of_ne hpd' _ _, fun hne => absurd hzero hne, rfl, rfl, rfl, rfl,
        rfl⟩
      · intro da' pd'
        have hslot := hd.slots da' pd'
        by_cases hda' : da' = da
        · subst hda'
          rw [hnone] at hslot
          by_cases hpd' : pd' = pd
          · subst hpd'
            simp [PsdHardware.setDevice, hpd, hda, htorn]
          · have hne : ¬(pd' < phw.count ∧ da' ≠ 0 ∧ (phw.device pd').devAddr = da' ∧ (phw.device pd').torn = false) :=
              fun hs => nomatch hslot.mpr hs
            simpa [PsdHardware.setDevice, hpd', Ne.symm hpd'] using hne
        · by_cases hpd' : pd' = pd
          · subst hpd'
            have hold : phw.devArray da' ≠ some pd' := fun hs => (hslot.mp hs).2.1 ((hslot.mp hs).2.2.1.symm.trans hzero)
            simp [PsdHardware.setDevice, hda', hold, Ne.symm hda']
          · simpa [PsdHardware.setDevice, hda', hpd'] using hslot
      · intro pd'
        by_cases hpd' : pd' = pd
        · subst hpd'
          simp [PsdHardware.setDevice, htorn]
        · simpa [PsdHardware.setDevice, hpd'] using hd.pending pd'

theorem pFreeDevice_touched :
    Touched phw (phw.pFreeDevice pd) pd := by
  unfold pFreeDevice
  split
  · exact hd.setDevice pd _ rfl rfl fun _ => htorn
  · set torn := phw.setDevice pd { phw.device pd with delExpunge := false, torn := true } with htornDef
    have hself : torn.device pd = { phw.device pd with delExpunge := false, torn := true } := update_self _ _ _
    have hother : ∀ pd', pd' ≠ pd → torn.device pd' = phw.device pd' := fun pd' hpd' => update_of_ne hpd' _ _
    have hpend : ∀ pd', (torn.device pd').delExpunge = true → (torn.device pd').torn = false := by
      intro pd'
      by_cases hpd' : pd' = pd
      · rw [hpd', hself]
        exact nofun
      · rw [hother pd' hpd']
        exact hd.pending pd'
    have hdevAddr : (torn.device pd).devAddr = (phw.device pd).devAddr := by rw [hself]
    unfold pLegacyDestroyDevice
    split
    · rename_i hne
      rw [hdevAddr] at hne ⊢
      refine ⟨⟨?_, hpend⟩, hother, fun _ => hdevAddr, rfl, rfl, rfl, rfl, rfl⟩
      have hslot := (hd.slots (phw.device pd).devAddr pd).mpr ⟨hpd, hne, rfl, htorn⟩
      intro da pd'
      have hold := hd.slots da pd'
      dsimp only
      by_cases hda : da = (phw.device pd).devAddr
      · rw [hda, hslot] at hold
        rw [hda, update_self]
        by_cases hpd' : pd' = pd
        · rw [hpd', hself]
          simp
        · rw [hother pd' hpd']
          exact ⟨nofun, fun hs => absurd (some.inj (hold.mpr hs)).symm hpd'⟩
      · rw [update_of_ne hda]
        by_cases hpd' : pd' = pd
        · rw [hpd'] at hold ⊢
          rw [hself]
          refine ⟨fun hs => absurd (hold.mp hs).2.2.1.symm hda, nofun⟩
        · rw [hother pd' hpd']
          exact hold
    · rename_i hzero
      rw [hdevAddr, not_not] at hzero
      refine ⟨⟨?_, hpend⟩, hother, fun _ => hdevAddr, rfl, rfl, rfl, rfl, rfl⟩
      intro da pd'
      have hold := hd.slots da pd'
      by_cases hpd' : pd' = pd
      · rw [hpd'] at hold ⊢
        rw [hself]
        refine ⟨fun hs => absurd ((hold.mp hs).2.2.1.symm.trans hzero) (hold.mp hs).2.1, nofun⟩
      · rw [hother pd' hpd']
        exact hold

theorem psdFreeDevice_touched :
    Touched phw (phw.psdFreeDevice pd) pd := by
  have hclear := hd.setDevice pd { phw.device pd with delExpunge := false } rfl rfl nofun
  refine hclear.trans (pFreeDevice_touched hclear.devices hpd ?_)
  simpa [PsdHardware.setDevice] using htorn

end

theorem psdFreePipe_touched (hd : Devices phw) (hpd : pd < phw.count) : Touched phw (phw.psdFreePipe pd) pd := by
  have hclose := hd.setDevice pd { phw.device pd with useCnt := (phw.device pd).useCnt - 1 } rfl rfl
    (hd.pending pd)
  unfold psdFreePipe
  dsimp only
  split
  · rename_i hlast
    refine hclose.trans (pFreeDevice_touched hclose.devices hpd ?_)
    simpa [PsdHardware.setDevice] using hd.pending pd hlast.2
  · exact hclose

section

variable (phw : PsdHardware η) (pd : ℕ)

theorem psdFreeDevice_port : (phw.psdFreeDevice pd).port = phw.port := by
  unfold psdFreeDevice pFreeDevice pLegacyDestroyDevice
  split
  · rfl
  · split <;> rfl

theorem psdFreePipe_port : (phw.psdFreePipe pd).port = phw.port := by
  unfold psdFreePipe pFreeDevice pLegacyDestroyDevice
  dsimp only
  split
  · split
    · rfl
    · split <;> rfl
  · rfl

theorem pAllocDevAddr_port : (phw.pAllocDevAddr pd).port = phw.port := by
  unfold pAllocDevAddr
  split
  · rfl
  · split <;> rfl

end

open Runs

variable {h h' : η} {n n' : ℕ} {task : Task}

def Task.adr0 : Task → Bool
  | .entered _ | .enumerating _ _ | .failed _ => true
  | _ => false

def Task.portNum : Task → Option ℕ
  | .entered n | .enumerating n _ | .failed n | .removing n => some n
  | _ => none

def Owner (phw : PsdHardware η) (h : η) (n pd : ℕ) : Prop :=
  phw.downstream h n = some pd ∨ phw.task h = .enumerating n pd

def Live (phw : PsdHardware η) (pd : ℕ) : Prop :=
  pd < phw.count ∧ (phw.device pd).torn = false ∧ (phw.device pd).delExpunge = false

inductive Answer (phw : PsdHardware η) (h : η) (n : ℕ) : ℕ → Prop
  | default (pd : ℕ) : phw.task h = .enumerating n pd → Answer phw h n 0
  | owner (pd : ℕ) : Owner phw h n pd → (phw.device pd).devAddr ≠ 0 → Answer phw h n (phw.device pd).devAddr
  | failed (a : ℕ) : phw.task h = .failed n → Answer phw h n a
  | vacating (a : ℕ) : phw.Vacating h n → a ≠ 0 → Answer phw h n a

def Accounted (phw : PsdHardware η) (h : η) (n : ℕ) : Prop :=
  (phw.port h n).enabled = true → Answer phw h n (phw.port h n).answers

structure Inv (phw : PsdHardware η) : Prop where
  devices : Devices phw
  lock : ∀ h, phw.adr0 = some h ↔ (phw.task h).adr0 = true
  own : ∀ h n pd, Owner phw h n pd → Live phw pd
  one : ∀ h n h' n' pd, Owner phw h n pd → Owner phw h' n' pd → h = h' ∧ n = n'
  busy : ∀ h n, (phw.task h).portNum = some n → phw.downstream h n = none
  ports : ∀ h n, Accounted phw h n

theorem Inv.holder (hI : Inv phw) (hh : (phw.task h).adr0 = true) (hh' : (phw.task h').adr0 = true) : h = h' :=
  some.inj (((hI.lock h).mpr hh).symm.trans ((hI.lock h').mpr hh'))

theorem start_inv : Inv (start (η := η)) where
  devices := ⟨fun _ _ => ⟨nofun, fun hs => absurd hs.1 (Nat.not_lt_zero _)⟩, fun _ _ => rfl⟩
  lock _ := ⟨nofun, nofun⟩
  own _ _ _ ho := by rcases ho with ho | ho <;> exact nomatch ho
  one _ _ _ _ _ ho := by rcases ho with ho | ho <;> exact nomatch ho
  busy _ _ _ := rfl
  ports _ _ := nofun

theorem Touched.owner (hf : Touched phw t pd) : Owner t h n = Owner phw h n := by
  unfold Owner
  rw [hf.task, hf.downstream]

theorem idle_elsewhere (htask : phw.task h = .idle) (n' : ℕ) : (phw.task h).portNum ≠ some n' := by
  rw [htask]
  exact nofun

theorem about_elsewhere (htask : (phw.task h).portNum = some n) (n' : ℕ) (hn : n' ≠ n) :
    (phw.task h).portNum ≠ some n' := by
  rw [htask]
  exact fun hs => hn (some.inj hs).symm

theorem Answer.congr {a : ℕ} (htask : t.task h = phw.task h) (hdown : t.downstream h = phw.downstream h)
    (haddr : ∀ pd, Owner phw h n pd → (phw.device pd).devAddr ≠ 0 → (t.device pd).devAddr = (phw.device pd).devAddr)
    (ha : Answer phw h n a) : Answer t h n a := by
  cases ha with
  | default pd hn => exact .default pd (htask.trans hn)
  | owner pd ho hne =>
    rw [← haddr pd ho hne]
    refine .owner pd ?_ (by rw [haddr pd ho hne]; exact hne)
    rwa [Owner, htask, hdown]
  | failed a hn => exact .failed a (htask.trans hn)
  | vacating a hv hne =>
    refine .vacating a ?_ hne
    rwa [Vacating, htask, hdown]

theorem Answer.of_owner {a : ℕ} (ho : Owner phw h n pd) (ha : (phw.device pd).devAddr = a) (hne : a ≠ 0) :
    Answer phw h n a := by
  subst ha
  exact .owner pd ho hne

theorem Answer.elsewhere {a : ℕ} (hport : (phw.task h).portNum ≠ some n) (ha : Answer phw h n a) :
    a ≠ 0 ∧ ((∃ pd, phw.downstream h n = some pd ∧ (phw.device pd).devAddr = a) ∨
      phw.task h = .closing ∧ phw.downstream h n = none) := by
  cases ha with
  | default pd htask => exact absurd (by rw [htask]; rfl) hport
  | owner pd ho hne =>
    rcases ho with ho | ho
    · exact ⟨hne, .inl ⟨pd, ho, rfl⟩⟩
    · exact absurd (by rw [ho]; rfl) hport
  | failed a htask => exact absurd (by rw [htask]; rfl) hport
  | vacating a hv hne =>
    rcases hv with hv | hv
    · exact absurd (by rw [hv]; rfl) hport
    · exact ⟨hne, .inr hv⟩

theorem Touched.accounted (hf : Touched phw t pd) (ha : Accounted phw h n) : Accounted t h n := by
  intro hen
  rw [hf.port] at hen ⊢
  refine (ha hen).congr (by rw [hf.task]) (by rw [hf.downstream]) fun pd' _ hne => ?_
  by_cases hpd : pd' = pd
  · subst hpd
    exact hf.devAddr hne
  · rw [hf.others pd' hpd]

theorem Inv.touch (hI : Inv phw) (hf : Touched phw t pd) (hlive : ∀ h n, Owner phw h n pd → Live t pd) : Inv t where
  devices := hf.devices
  lock := by
    rw [hf.adr0, hf.task]
    exact hI.lock
  own h n pd' ho := by
    rw [hf.owner] at ho
    by_cases hpd : pd' = pd
    · subst hpd
      exact hlive h n ho
    · have hold := hI.own h n pd' ho
      rw [Live, hf.others pd' hpd, hf.count]
      exact hold
  one h n h' n' pd' ho ho' := by
    rw [hf.owner] at ho ho'
    exact hI.one h n h' n' pd' ho ho'
  busy := by
    rw [hf.task, hf.downstream]
    exact hI.busy
  ports h n := hf.accounted (hI.ports h n)

theorem Inv.entered_off (hI : Inv phw) (htask : phw.task h = .entered n) : (phw.port h n).enabled = false := by
  have hdown := hI.busy h n (by rw [htask]; rfl)
  by_contra hen
  have hans := hI.ports h n (Bool.not_eq_false _ ▸ hen)
  generalize (phw.port h n).answers = a at hans
  cases hans with
  | default pd hn => exact nomatch htask.symm.trans hn
  | owner pd ho hne =>
    rcases ho with ho | ho
    · exact nomatch hdown.symm.trans ho
    · exact nomatch htask.symm.trans ho
  | failed a hn => exact nomatch htask.symm.trans hn
  | vacating a hv hne =>
    rcases hv with hv | hv
    · exact nomatch htask.symm.trans hv
    · exact nomatch htask.symm.trans hv.1

theorem Inv.enumerating_answer (hI : Inv phw) (htask : phw.task h = .enumerating n pd)
    (hen : (phw.port h n).enabled = true) :
    (phw.port h n).answers = 0 ∨ (phw.device pd).devAddr = (phw.port h n).answers ∧ (phw.port h n).answers ≠ 0 := by
  have hdown := hI.busy h n (by rw [htask]; rfl)
  have hans := hI.ports h n hen
  generalize (phw.port h n).answers = a at hans ⊢
  cases hans with
  | default pd' hn => exact .inl rfl
  | owner pd' ho hne =>
    rcases ho with ho | ho
    · exact nomatch hdown.symm.trans ho
    · cases htask.symm.trans ho
      exact .inr ⟨rfl, hne⟩
  | failed a hn => exact nomatch htask.symm.trans hn
  | vacating a hv hne =>
    rcases hv with hv | hv
    · exact nomatch htask.symm.trans hv
    · exact nomatch htask.symm.trans hv.1

theorem allocAddr_inv (hI : Inv phw) (htask : phw.task h = .enumerating n pd) : Inv (phw.pAllocDevAddr pd) := by
  obtain ⟨hcount, htorn, hpend⟩ := hI.own h n pd (.inr htask)
  have hf := pAllocDevAddr_touched hI.devices hcount htorn
  refine hI.touch hf fun _ _ _ => ⟨by rw [hf.count]; exact hcount, ?_⟩
  unfold pAllocDevAddr
  split
  · exact ⟨htorn, hpend⟩
  · split
    · exact ⟨htorn, hpend⟩
    · simp [PsdHardware.setDevice, htorn, hpend]

theorem allocPipe_inv (hI : Inv phw) :
    Inv (phw.setDevice pd { phw.device pd with useCnt := (phw.device pd).useCnt + 1 }) := by
  refine hI.touch (hI.devices.setDevice pd _ rfl rfl (hI.devices.pending pd)) fun h n ho => ?_
  simpa [Live, PsdHardware.setDevice] using hI.own h n pd ho

theorem freePipe_inv (hI : Inv phw) (hpd : pd < phw.count) : Inv (phw.psdFreePipe pd) := by
  refine hI.touch (psdFreePipe_touched hI.devices hpd) fun h n ho => ?_
  obtain ⟨hcount, htorn, hpend⟩ := hI.own h n pd ho
  unfold psdFreePipe
  rw [if_neg (by rw [hpend]; exact fun hlast => nomatch hlast.2)]
  simpa [Live, PsdHardware.setDevice] using hI.own h n pd ho

structure Local (phw t : PsdHardware η) (h : η) : Prop where
  device : t.device = phw.device
  devArray : t.devArray = phw.devArray
  count : t.count = phw.count
  task : ∀ h', h' ≠ h → t.task h' = phw.task h'
  downstream : ∀ h', h' ≠ h → t.downstream h' = phw.downstream h'
  port : ∀ h', h' ≠ h → t.port h' = phw.port h'

theorem Local.refl (phw : PsdHardware η) (h : η) : Local phw phw h :=
  ⟨rfl, rfl, rfl, fun _ _ => rfl, fun _ _ => rfl, fun _ _ => rfl⟩

theorem Local.adr0 (hl : Local phw t h) (adr0 : Option η) : Local phw { t with adr0 := adr0 } h :=
  ⟨hl.device, hl.devArray, hl.count, hl.task, hl.downstream, hl.port⟩

theorem Local.owner (hl : Local phw t h) (hh : h' ≠ h) : Owner t h' n = Owner phw h' n := by
  unfold Owner
  rw [hl.task h' hh, hl.downstream h' hh]

theorem Local.accounted (hl : Local phw t h) (hh : h' ≠ h) (ha : Accounted phw h' n) : Accounted t h' n := by
  intro hen
  rw [hl.port h' hh] at hen ⊢
  exact (ha hen).congr (hl.task h' hh) (hl.downstream h' hh) fun pd _ _ => by rw [hl.device]

theorem Inv.move (hI : Inv phw) (hl : Local phw t h) (hlock : ∀ h', t.adr0 = some h' ↔ (t.task h').adr0 = true)
    (hown : ∀ n pd, Owner t h n pd → Owner phw h n pd)
    (hbusy : ∀ n, (t.task h).portNum = some n → t.downstream h n = none) (hports : ∀ n, Accounted t h n) : Inv t := by
  have howner : ∀ h' n pd, Owner t h' n pd → Owner phw h' n pd := by
    intro h' n pd ho
    by_cases hh : h' = h
    · rw [hh] at ho ⊢
      exact hown n pd ho
    · rwa [hl.owner hh] at ho
  refine ⟨⟨?_, ?_⟩, hlock, fun h' n pd ho => ?_, fun h1 n1 h2 n2 pd ho1 ho2 => ?_, fun h' n hp => ?_, fun h' n => ?_⟩
  · unfold Slots
    rw [hl.devArray, hl.device, hl.count]
    exact hI.devices.slots
  · rw [hl.device]
    exact hI.devices.pending
  · rw [Live, hl.device, hl.count]
    exact hI.own h' n pd (howner h' n pd ho)
  · exact hI.one h1 n1 h2 n2 pd (howner h1 n1 pd ho1) (howner h2 n2 pd ho2)
  · by_cases hh : h' = h
    · rw [hh] at hp ⊢
      exact hbusy n hp
    · rw [hl.task h' hh] at hp
      rw [hl.downstream h' hh]
      exact hI.busy h' n hp
  · by_cases hh : h' = h
    · rw [hh]
      exact hports n
    · exact hl.accounted hh (hI.ports h' n)

variable [DecidableEq η]

theorem Touched.setTask (hf : Touched phw t pd) : Touched (phw.setTask h task) (t.setTask h task) pd where
  devices := ⟨hf.devices.slots, hf.devices.pending⟩
  others := hf.others
  devAddr := hf.devAddr
  count := hf.count
  adr0 := hf.adr0
  task := by rw [PsdHardware.setTask, hf.task]; rfl
  downstream := hf.downstream
  port := hf.port

theorem Touched.setDownstream {down : Option ℕ} (hf : Touched phw t pd) :
    Touched (phw.setDownstream h n down) (t.setDownstream h n down) pd where
  devices := ⟨hf.devices.slots, hf.devices.pending⟩
  others := hf.others
  devAddr := hf.devAddr
  count := hf.count
  adr0 := hf.adr0
  task := hf.task
  downstream := by rw [PsdHardware.setDownstream, hf.downstream]; rfl
  port := hf.port

theorem Local.setTask (hl : Local phw t h) (task : Task) : Local phw (t.setTask h task) h :=
  { hl with task := fun h' hh => (update_of_ne hh _ _).trans (hl.task h' hh) }

theorem Local.setDownstream (hl : Local phw t h) (n : ℕ) (down : Option ℕ) : Local phw (t.setDownstream h n down) h :=
  { hl with downstream := fun h' hh => (update_of_ne hh _ _).trans (hl.downstream h' hh) }

theorem Local.setPort (hl : Local phw t h) (n : ℕ) (port : Port) : Local phw (t.setPort h n port) h :=
  { hl with port := fun h' hh => (update_of_ne hh _ _).trans (hl.port h' hh) }

theorem Local.cutHub (hl : Local phw t h) : Local phw (t.cutHub h) h :=
  { hl with port := fun h' hh => (update_of_ne hh _ _).trans (hl.port h' hh) }

theorem Inv.setPort (hI : Inv phw) {port : Port} (hport : port.enabled = true → Answer phw h n port.answers) :
    Inv (phw.setPort h n port) := by
  refine hI.move ((Local.refl phw h).setPort n port) hI.lock (fun _ _ ho => ho) (hI.busy h) fun n' hen => ?_
  have hcongr : ∀ a, Answer phw h n' a → Answer (phw.setPort h n port) h n' a := by
    intro a ha
    refine ha.congr ?_ ?_ fun _ _ _ => ?_ <;> rfl
  apply hcongr
  by_cases hn : n' = n
  · subst hn
    simp only [PsdHardware.setPort, update_self] at hen ⊢
    exact hport hen
  · simp only [PsdHardware.setPort, update_self, update_of_ne hn] at hen ⊢
    exact hI.ports h n' hen

theorem Inv.disablePort (hI : Inv phw) : Inv (phw.disablePort h n) := hI.setPort nofun

theorem Inv.retask (hI : Inv phw) {adr0 : Option η} {down : Option ℕ}
    (hlock : ∀ h', adr0 = some h' ↔ (update phw.task h task h').adr0 = true)
    (hold : ∀ n', n' ≠ n → (phw.task h).portNum ≠ some n') (hclosing : phw.task h = .closing → task = .closing)
    (hnew : ∀ n', n' ≠ n → task.portNum ≠ some n') (hdown : task.portNum = some n → down = none)
    (hown : ∀ pd, down = some pd ∨ task = .enumerating n pd → Owner phw h n pd)
    (hport : Accounted { (phw.setDownstream h n down).setTask h task with adr0 := adr0 } h n) :
    Inv { (phw.setDownstream h n down).setTask h task with adr0 := adr0 } := by
  have htask : update phw.task h task h = task := update_self h task phw.task
  refine hI.move ((((Local.refl phw h).setDownstream n down).setTask task).adr0 adr0) hlock ?_ ?_ ?_
  · intro n' pd ho
    dsimp only [Owner, PsdHardware.setTask, PsdHardware.setDownstream] at ho
    rw [htask, update_self] at ho
    by_cases hn : n' = n
    · subst hn
      rw [update_self] at ho
      exact hown pd ho
    · rw [update_of_ne hn] at ho
      rcases ho with ho | ho
      · exact .inl ho
      · exact absurd (by rw [ho]; rfl) (hnew n' hn)
  · intro n' hp
    dsimp only [PsdHardware.setTask, PsdHardware.setDownstream] at hp ⊢
    rw [htask] at hp
    rw [update_self]
    by_cases hn : n' = n
    · subst hn
      rw [update_self]
      exact hdown hp
    · exact absurd hp (hnew n' hn)
  · intro n'
    by_cases hn : n' = n
    · rw [hn]
      exact hport
    · intro hen
      have hdown' : (phw.setDownstream h n down).downstream h n' = phw.downstream h n' := by
        rw [PsdHardware.setDownstream]
        dsimp only
        rw [update_self, update_of_ne hn]
      obtain ⟨hne, ⟨pd, hd, haddr⟩ | ⟨hcl, hd⟩⟩ := (hI.ports h n' hen).elsewhere (hold n' hn)
      · exact .of_owner (.inl (hdown'.trans hd)) haddr hne
      · exact .vacating _ (.inr ⟨htask.trans (hclosing hcl), hdown'.trans hd⟩) hne

theorem Inv.lock_same (hI : Inv phw) (hsame : task.adr0 = (phw.task h).adr0) (h' : η) :
    phw.adr0 = some h' ↔ (update phw.task h task h').adr0 = true := by
  by_cases hh : h' = h
  · rw [hh, update_self, hsame]
    exact hI.lock h
  · rw [update_of_ne hh]
    exact hI.lock h'

theorem Inv.lock_release (hI : Inv phw) (hheld : (phw.task h).adr0 = true) (hfree : task.adr0 = false) (h' : η) :
    none = some h' ↔ (update phw.task h task h').adr0 = true := by
  refine ⟨nofun, fun hn => ?_⟩
  by_cases hh : h' = h
  · rw [hh, update_self, hfree] at hn
    exact nomatch hn
  · rw [update_of_ne hh] at hn
    exact absurd (hI.holder hheld hn).symm hh

theorem Inv.lock_obtain (hI : Inv phw) (hnone : phw.adr0 = none) (hheld : task.adr0 = true) (h' : η) :
    some h = some h' ↔ (update phw.task h task h').adr0 = true := by
  by_cases hh : h' = h
  · rw [hh, update_self]
    exact ⟨fun _ => hheld, fun _ => rfl⟩
  · rw [update_of_ne hh]
    refine ⟨fun hs => absurd (some.inj hs).symm hh, fun hn => ?_⟩
    rw [← hI.lock h', hnone] at hn
    exact nomatch hn

theorem setDownstream_self (phw : PsdHardware η) (hd : phw.downstream h n = none) : phw.setDownstream h n none = phw := by
  rw [PsdHardware.setDownstream, ← hd, update_eq_self, update_eq_self]

theorem setTask_self (phw : PsdHardware η) (htask : phw.task h = task) : phw.setTask h task = phw := by
  rw [PsdHardware.setTask, ← htask, update_eq_self]

theorem disablePort_accounted {adr0 : Option η} :
    Accounted { (phw.disablePort h n).setTask h task with adr0 := adr0 } h n := by
  intro hen
  simp [PsdHardware.disablePort, PsdHardware.setPort, PsdHardware.setTask] at hen

theorem configure_inv (hI : Inv phw) (htask : phw.task h = .idle) (hadr0 : phw.adr0 = none)
    (hdown : phw.downstream h n = none) : Inv { (phw.disablePort h n).setTask h (.entered n) with adr0 := some h } := by
  have hset := hI.disablePort (h := h) (n := n)
  rw [← setDownstream_self (phw.disablePort h n) hdown]
  refine hset.retask (hset.lock_obtain hadr0 rfl) (fun n' _ => idle_elsewhere htask n')
    (fun hcl => nomatch htask.symm.trans hcl) (fun n' hn hs => hn (some.inj hs).symm) (fun _ => rfl) ?_ ?_
  · rintro pd (hd | hd) <;> exact nomatch hd
  · rw [setDownstream_self (phw.disablePort h n) hdown]
    exact disablePort_accounted

theorem leave_inv (hI : Inv phw) (htask : phw.task h = .entered n) : Inv { phw.setTask h .idle with adr0 := none } := by
  have hport : (phw.task h).portNum = some n := by rw [htask]; rfl
  have hdown := hI.busy h n hport
  rw [← setDownstream_self _ hdown]
  refine hI.retask (hI.lock_release (by rw [htask]; rfl) rfl) (about_elsewhere hport)
    (fun hcl => nomatch htask.symm.trans hcl) (fun _ _ => nofun) nofun ?_ ?_
  · rintro pd (hd | hd) <;> exact nomatch hd
  · exact fun hen => absurd hen (Bool.not_eq_true _ ▸ hI.entered_off htask)

theorem enumerated_inv (hI : Inv phw) (htask : phw.task h = .enumerating n pd) (haddr : addressed phw h n pd = true) :
    Inv { (phw.setDownstream h n (some pd)).setTask h .idle with adr0 := none } := by
  have hport : (phw.task h).portNum = some n := by rw [htask]; rfl
  refine hI.retask (hI.lock_release (by rw [htask]; rfl) rfl) (about_elsewhere hport)
    (fun hcl => nomatch htask.symm.trans hcl) (fun _ _ => nofun) nofun ?_ ?_
  · rintro pd' (hd | hd)
    · cases hd
      exact .inr htask
    · exact nomatch hd
  · intro hen
    rw [addressed, Bool.and_eq_true, Bool.not_eq_true', Bool.and_eq_false_iff] at haddr
    rcases hI.enumerating_answer htask hen with hzero | ⟨hown, hne⟩
    · rcases haddr.2 with hoff | hne
      · exact absurd hen (Bool.not_eq_true _ ▸ hoff)
      · exact absurd hzero (of_decide_eq_false hne)
    · refine .of_owner (.inl ?_) hown hne
      simp [PsdHardware.setTask, PsdHardware.setDownstream]

theorem disable_inv {adr0 : Option η} (hI : Inv phw) (hport : (phw.task h).portNum = some n)
    (hlock : ∀ h', adr0 = some h' ↔ (update phw.task h .idle h').adr0 = true) :
    Inv { (phw.disablePort h n).setTask h .idle with adr0 := adr0 } := by
  have hset := hI.disablePort (h := h) (n := n)
  have hdown : (phw.disablePort h n).downstream h n = none := hI.busy h n hport
  rw [← setDownstream_self _ hdown]
  refine hset.retask hlock (about_elsewhere hport) ?_ (fun _ _ => nofun) nofun ?_ ?_
  · intro hcl
    change phw.task h = _ at hcl
    rw [hcl] at hport
    exact nomatch hport
  · rintro pd (hd | hd) <;> exact nomatch hd
  · rw [setDownstream_self _ hdown]
    exact disablePort_accounted

theorem freed_inv (hI : Inv phw) (ho : Owner phw h n pd) (hsame : task.adr0 = (phw.task h).adr0)
    (hold : ∀ n', n' ≠ n → (phw.task h).portNum ≠ some n') (hclosing : phw.task h = .closing → task = .closing)
    (hnew : ∀ n', n' ≠ n → task.portNum ≠ some n') (henum : ∀ n pd, task ≠ .enumerating n pd)
    (hport : Accounted ((phw.setDownstream h n none).setTask h task) h n) :
    Inv (((phw.psdFreeDevice pd).setDownstream h n none).setTask h task) := by
  obtain ⟨hcount, htorn, -⟩ := hI.own h n pd ho
  have hf := psdFreeDevice_touched hI.devices hcount htorn
  have hset : Inv ((phw.setDownstream h n none).setTask h task) := by
    refine hI.retask (hI.lock_same hsame) hold hclosing hnew (fun _ => rfl) ?_ hport
    rintro pd' (hd | hd)
    · exact nomatch hd
    · exact absurd hd (henum n pd')
  refine hset.touch hf.setDownstream.setTask fun h' n' ho' => ?_
  have hold' : Owner phw h' n' pd := by
    rcases ho' with hd | hd
    · by_cases hh : h' = h
      · subst hh
        by_cases hn : n' = n
        · simp [PsdHardware.setTask, PsdHardware.setDownstream, hn] at hd
        · exact .inl (by simpa [PsdHardware.setTask, PsdHardware.setDownstream, hn] using hd)
      · exact .inl (by simpa [PsdHardware.setTask, PsdHardware.setDownstream, hh] using hd)
    · by_cases hh : h' = h
      · subst hh
        exact absurd (by simpa [PsdHardware.setTask] using hd) (henum n' pd)
      · exact .inr (by simpa [PsdHardware.setTask, PsdHardware.setDownstream, hh] using hd)
  obtain ⟨rfl, rfl⟩ := hI.one h n h' n' pd ho hold'
  exfalso
  rcases ho' with hd | hd
  · simp [PsdHardware.setTask, PsdHardware.setDownstream] at hd
  · exact absurd (by simpa [PsdHardware.setTask] using hd) (henum n pd)

theorem giveUp_inv (hI : Inv phw) (htask : phw.task h = .enumerating n pd) :
    Inv ((phw.psdFreeDevice pd).setTask h (.failed n)) := by
  have hport : (phw.task h).portNum = some n := by rw [htask]; rfl
  have hdown := hI.busy h n hport
  obtain ⟨hcount, htorn, -⟩ := hI.own h n pd (.inr htask)
  have hf := psdFreeDevice_touched hI.devices hcount htorn
  have hdown' : (phw.psdFreeDevice pd).downstream h n = none := by rw [hf.downstream]; exact hdown
  rw [← setDownstream_self _ hdown']
  refine freed_inv hI (.inr htask) (by rw [htask]; rfl) (about_elsewhere hport) (fun hcl => nomatch htask.symm.trans hcl)
    (fun n' hn hs => hn (some.inj hs).symm) (fun _ _ => nofun) fun _ => .failed _ ?_
  simp [PsdHardware.setTask]

section

variable (hI : Inv phw) (hdown : phw.downstream h n = some pd)
include hI hdown

theorem removeDead_inv (htask : phw.task h = .idle) :
    Inv (((phw.psdFreeDevice pd).setDownstream h n none).setTask h (.removing n)) := by
  refine freed_inv hI (.inl hdown) (by rw [htask]; rfl) (fun n' _ => idle_elsewhere htask n')
    (fun hcl => nomatch htask.symm.trans hcl) (fun n' hn hs => hn (some.inj hs).symm) (fun _ _ => nofun) ?_
  intro hen
  refine .vacating _ (.inl ?_) ((hI.ports h n hen).elsewhere (idle_elsewhere htask n)).1
  simp [PsdHardware.setTask]

theorem gone_inv (htask : phw.task h = .idle)
    (hoff : (phw.port h n).enabled = false) : Inv ((phw.psdFreeDevice pd).setDownstream h n none) := by
  obtain ⟨hcount, htorn, -⟩ := hI.own h n pd (.inl hdown)
  have hf := psdFreeDevice_touched hI.devices hcount htorn
  have htask' : ((phw.psdFreeDevice pd).setDownstream h n none).task h = .idle := by
    change (phw.psdFreeDevice pd).task h = _
    rw [hf.task]
    exact htask
  rw [← setTask_self _ htask']
  refine freed_inv hI (.inl hdown) (by rw [htask]) (fun n' _ => idle_elsewhere htask n')
    (fun hcl => nomatch htask.symm.trans hcl) (fun _ _ => nofun) (fun _ _ => nofun) fun hen => ?_
  exact nomatch hoff.symm.trans hen

theorem freeHub_inv (htask : phw.task h = .idle ∨ phw.task h = .closing) :
    Inv (((phw.psdFreeDevice pd).setDownstream h n none).setTask h .closing) := by
  have hnone : ∀ n', (phw.task h).portNum ≠ some n' := by
    rcases htask with htask | htask
    · rw [htask]; exact fun _ => nofun
    · rw [htask]; exact fun _ => nofun
  refine freed_inv hI (.inl hdown) ?_ (fun n' _ => hnone n') (fun _ => rfl) (fun _ _ => nofun) (fun _ _ => nofun) ?_
  · rcases htask with htask | htask
    · rw [htask]; rfl
    · rw [htask]
  · intro hen
    refine .vacating _ (.inr ?_) ((hI.ports h n hen).elsewhere (hnone n)).1
    simp [PsdHardware.setTask, PsdHardware.setDownstream]

end

theorem cutHub_inv (hI : Inv phw) (htask : phw.task h = .closing) : Inv ((phw.cutHub h).setTask h .idle) := by
  refine hI.move ((Local.refl phw h).cutHub.setTask .idle) (hI.lock_same (by rw [htask]; rfl)) ?_ ?_ ?_
  · intro n pd ho
    rcases ho with ho | ho
    · exact .inl ho
    · simp [PsdHardware.setTask] at ho
  · intro n hp
    simp [PsdHardware.setTask, Task.portNum] at hp
  · intro n hen
    simp [PsdHardware.cutHub, PsdHardware.setTask] at hen

def allocDevice (phw : PsdHardware η) (h : η) (n : ℕ) : PsdHardware η :=
  { (phw.setDevice phw.count ⟨0, 0, false, false⟩).setTask h (.enumerating n phw.count) with count := phw.count + 1 }

theorem allocDevice_device {pd : ℕ} (hpd : pd ≠ phw.count) : (allocDevice phw h n).device pd = phw.device pd :=
  update_of_ne hpd _ _

theorem allocDevice_new : (allocDevice phw h n).device phw.count = ⟨0, 0, false, false⟩ := update_self _ _ _

theorem allocDevice_owner (hI : Inv phw) (htask : phw.task h = .entered n)
    (ho : Owner (allocDevice phw h n) h' n' pd) :
    Owner phw h' n' pd ∧ pd < phw.count ∨ h' = h ∧ n' = n ∧ pd = phw.count := by
  rcases ho with hd | hd
  · exact .inl ⟨.inl hd, (hI.own h' n' pd (.inl hd)).1⟩
  · by_cases hh : h' = h
    · subst hh
      have hnew : Task.enumerating n phw.count = .enumerating n' pd := by
        simpa [allocDevice, PsdHardware.setTask] using hd
      cases hnew
      exact .inr ⟨rfl, rfl, rfl⟩
    · have hold : phw.task h' = .enumerating n' pd := by
        simpa [allocDevice, PsdHardware.setTask, PsdHardware.setDevice, hh] using hd
      exact .inl ⟨.inr hold, (hI.own h' n' pd (.inr hold)).1⟩

theorem allocDevice_devices (hd : Devices phw) : Devices (allocDevice phw h n) := by
  constructor
  · intro da pd
    have hold := hd.slots da pd
    change phw.devArray da = some pd ↔ pd < phw.count + 1 ∧ _
    by_cases hpd : pd = phw.count
    · rw [hpd] at hold ⊢
      rw [allocDevice_new]
      refine ⟨fun hs => absurd (hold.mp hs).1 (Nat.lt_irrefl _), fun hs => absurd hs.2.2.1.symm hs.2.1⟩
    · rw [allocDevice_device hpd, hold]
      refine and_congr_left fun _ => ?_
      omega
  · intro pd hp
    by_cases hpd : pd = phw.count
    · rw [hpd, allocDevice_new]
    · rw [allocDevice_device hpd] at hp ⊢
      exact hd.pending pd hp

theorem allocDevice_inv (hI : Inv phw) (htask : phw.task h = .entered n) : Inv (allocDevice phw h n) := by
  have hport : (phw.task h).portNum = some n := by rw [htask]; rfl
  have htask' : (allocDevice phw h n).task h = .enumerating n phw.count := update_self _ _ _
  have hother : ∀ h', h' ≠ h → (allocDevice phw h n).task h' = phw.task h' := fun h' hh => update_of_ne hh _ _
  refine ⟨allocDevice_devices hI.devices, hI.lock_same (by rw [htask]; rfl), fun h' n' pd ho => ?_,
    fun h1 n1 h2 n2 pd ho1 ho2 => ?_, fun h' n' hp => ?_, fun h' n' hen => ?_⟩
  · rcases allocDevice_owner hI htask ho with ⟨ho, hlt⟩ | ⟨-, -, rfl⟩
    · obtain ⟨-, hlive⟩ := hI.own h' n' pd ho
      rw [Live, allocDevice_device (by omega)]
      exact ⟨Nat.lt_succ_of_lt hlt, hlive⟩
    · rw [Live, allocDevice_new]
      exact ⟨Nat.lt_succ_self _, rfl, rfl⟩
  · rcases allocDevice_owner hI htask ho1 with ⟨ho1, hlt⟩ | ⟨rfl, rfl, rfl⟩
    · rcases allocDevice_owner hI htask ho2 with ⟨ho2, -⟩ | ⟨-, -, hpd⟩
      · exact hI.one h1 n1 h2 n2 pd ho1 ho2
      · omega
    · rcases allocDevice_owner hI htask ho2 with ⟨-, hlt⟩ | ⟨rfl, rfl, -⟩
      · omega
      · exact ⟨rfl, rfl⟩
  · by_cases hh : h' = h
    · rw [hh, htask'] at hp
      cases hp
      rw [hh]
      exact hI.busy h n hport
    · rw [hother h' hh] at hp
      exact hI.busy h' n' hp
  · by_cases hh : h' = h
    · subst hh
      by_cases hn : n' = n
      · subst hn
        exact nomatch (hI.entered_off htask).symm.trans hen
      · obtain ⟨hne, ⟨pd, hd, haddr⟩ | ⟨hcl, -⟩⟩ := (hI.ports h' n' hen).elsewhere (about_elsewhere hport n' hn)
        · have hlt := (hI.own h' n' pd (.inl hd)).1
          have ho : Owner (allocDevice phw h' n) h' n' pd := .inl hd
          refine .of_owner ho ?_ hne
          rw [allocDevice_device (by omega)]
          exact haddr
        · exact nomatch htask.symm.trans hcl
    · refine (hI.ports h' n' hen).congr (hother h' hh) rfl fun pd ho _ => ?_
      have hlt := (hI.own h' n' pd ho).1
      rw [allocDevice_device (by omega)]

theorem setAddress_inv (hI : Inv phw) (htask : phw.task h = .enumerating n pd) (hne : (phw.device pd).devAddr ≠ 0) :
    Inv (phw.setAddress h n pd) := by
  unfold PsdHardware.setAddress
  split
  · exact hI.setPort fun _ => .owner pd (.inr htask) hne
  · exact hI

theorem step_inv {e : Event η} (hI : Inv phw) (hs : step phw e = some t) : Inv t := by
  cases e with
  | plug h n =>
    cases (ite_none_left_eq_some.mp hs).2
    exact hI.setPort nofun
  | unplug h n =>
    cases hs
    exact hI.setPort nofun
  | configure h n =>
    obtain ⟨⟨htask, hadr0, hdown⟩, rfl⟩ := of_guard hs
    exact configure_inv hI htask hadr0 hdown
  | leave h =>
    cases htask : phw.task h <;> simp only [step, htask, reduceCtorEq, some.injEq] at hs
    subst hs
    exact leave_inv hI htask
  | allocDevice h =>
    cases htask : phw.task h <;> simp only [step, htask, reduceCtorEq, some.injEq] at hs
    subst hs
    exact allocDevice_inv hI htask
  | resetPort h =>
    cases htask : phw.task h <;> simp only [step, htask, reduceCtorEq] at hs
    obtain ⟨-, rfl⟩ := of_guard hs
    exact hI.setPort fun _ => .default _ htask
  | allocAddr h =>
    cases htask : phw.task h <;> simp only [step, htask, reduceCtorEq, some.injEq] at hs
    subst hs
    exact allocAddr_inv hI htask
  | setAddress h taken =>
    cases htask : phw.task h <;> simp only [step, htask, reduceCtorEq] at hs
    obtain ⟨hne, ht⟩ := ite_none_left_eq_some.mp hs
    cases ht
    cases taken
    · exact hI
    · exact setAddress_inv hI htask hne
  | enumerated h =>
    cases htask : phw.task h <;> simp only [step, htask, reduceCtorEq] at hs
    obtain ⟨haddr, rfl⟩ := of_guard hs
    exact enumerated_inv hI htask haddr
  | giveUp h =>
    cases htask : phw.task h <;> simp only [step, htask, reduceCtorEq, some.injEq] at hs
    subst hs
    exact giveUp_inv hI htask
  | removeDead h n =>
    cases hdown : phw.downstream h n <;> simp only [step, hdown, reduceCtorEq] at hs
    obtain ⟨htask, rfl⟩ := of_guard hs
    exact removeDead_inv hI hdown htask
  | disable h =>
    cases htask : phw.task h <;> simp only [step, htask, reduceCtorEq, some.injEq] at hs
    · subst hs
      exact disable_inv hI (by rw [htask]; rfl) (hI.lock_release (by rw [htask]; rfl) rfl)
    · subst hs
      exact disable_inv hI (by rw [htask]; rfl) (hI.lock_same (by rw [htask]; rfl))
  | gone h n =>
    cases hdown : phw.downstream h n <;> simp only [step, hdown, reduceCtorEq] at hs
    obtain ⟨⟨htask, hoff⟩, rfl⟩ := of_guard hs
    exact gone_inv hI hdown htask hoff
  | freeHub h n =>
    cases hdown : phw.downstream h n <;> simp only [step, hdown, reduceCtorEq] at hs
    obtain ⟨htask, rfl⟩ := of_guard hs
    exact freeHub_inv hI hdown htask
  | cutHub h =>
    obtain ⟨htask, rfl⟩ := of_guard hs
    exact cutHub_inv hI htask
  | allocPipe pd =>
    obtain ⟨-, rfl⟩ := of_guard hs
    exact allocPipe_inv hI
  | freePipe pd =>
    obtain ⟨⟨hpd, -⟩, rfl⟩ := of_guard hs
    exact freePipe_inv hI hpd

end BusAddress

end Neptune
