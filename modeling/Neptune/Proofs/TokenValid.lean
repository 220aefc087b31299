import Neptune.Spec.DeviceConfig
import Neptune.Proofs.AltSwitch

/-! Submit tokens: an endpoint with a token, or with stream rings, is one the driver holds with
that token. A step keeps this when what the driver drops is what the step clears. -/

namespace Neptune

open List Option

def PsdEndpoint.Clear (pep : PsdEndpoint) : Prop := pep.token = none ∧ pep.streamsAlloc = 0

/-- A token or stream rings stand for an endpoint the driver has configured with that token. -/
def PsdEndpoint.TokenValid (pep : PsdEndpoint) (h : Hcd) : Prop :=
  pep.token ≠ none ∨ pep.streamsAlloc ≠ 0 → pep.HasToken h

def PsdInterface.TokensValid (pif : PsdInterface) (h : Hcd) : Prop :=
  ∀ pep ∈ pif.eps, pep.TokenValid h

instance (pep : PsdEndpoint) : Decidable pep.Clear := inferInstanceAs (Decidable (_ ∧ _))

variable {pep q : PsdEndpoint} {pif curif x y c p : PsdInterface} {h : Hcd} {o : Change}
  {pc : PsdConfig}

theorem PsdEndpoint.Clear.tokenValid (hc : pep.Clear) : pep.TokenValid h := by
  rintro (ht | hs)
  · exact absurd hc.1 ht
  · exact absurd hc.2 hs

theorem PsdEndpoint.HasToken.tokenValid (ht : pep.HasToken h) : pep.TokenValid h := fun _ => ht

theorem PsdEndpoint.TokenValid.hasToken (hv : pep.TokenValid h) (hc : ¬ pep.Clear) :
    pep.HasToken h := by
  apply hv
  by_contra hn
  push Not at hn
  exact hc hn

theorem PsdEndpoint.clear_clear (pep : PsdEndpoint) : pep.clear.Clear := ⟨rfl, rfl⟩

theorem PsdInterface.clear_eps_clear (hp : pep ∈ pif.clear.eps) : pep.Clear := by
  obtain ⟨q, -, rfl⟩ := mem_map.mp hp
  exact q.clear_clear

theorem PsdEndpoint.TokenValid.change {drops : List ℕ} {ds : List UhcdEndpointDesc}
    (hv : pep.TokenValid h) (hd : ¬ pep.Clear → pep.desc.address ∉ drops) :
    pep.TokenValid (h.change drops ds).1 := by
  by_cases hc : pep.Clear
  · exact hc.tokenValid
  · obtain ⟨t, ht, hm⟩ := hv.hasToken hc
    intro _
    exact ⟨t, ht, Hcd.mem_change.mpr (Or.inl ⟨hm, hd hc⟩)⟩

theorem PsdInterface.setTokens_drops (pif : PsdInterface) (ts : List ℕ) :
    (pif.setTokens ts).drops = pif.drops := by
  have h1 : (pif.setTokens ts).addresses = pif.addresses := by
    have := congrArg (List.map (·.desc.address)) (setTokens_clear pif.eps ts)
    rw [List.map_map, List.map_map] at this
    exact this
  unfold drops
  rw [h1]
  rfl

theorem PsdInterface.TokensValid.dropClear (hv : pif.TokensValid h) :
    pif.dropClear.TokensValid h := by
  unfold PsdInterface.dropClear
  split
  · exact hv
  · exact fun pep hp => (clear_eps_clear hp).tokenValid

theorem pContextSetInterface_rest (hv : pep.TokenValid h)
    (hd : Issued curif pif o → o.ioerr = 0 → ¬ pep.Clear → pep.desc.address ∉ curif.drops) :
    pep.TokenValid (pContextSetInterface curif pif h o).2.2 := by
  rcases pContextSetInterface_cases curif pif h o with ⟨-, -, hr⟩ | ⟨-, hr⟩ | ⟨-, -, hr⟩ |
    ⟨hi, he, hr⟩ <;> rw [hr]
  · exact hv
  · exact hv
  · exact hv
  · exact hv.change (hd hi he)

theorem pContextSetInterface_valid (hc : curif.TokensValid h) (hp : pif.TokensValid h)
    (hd : Issued curif pif o → o.ioerr = 0 → pif.numEPs = 0 →
      ∀ pep ∈ pif.eps, ¬ pep.Clear → pep.desc.address ∉ curif.drops) :
    (pContextSetInterface curif pif h o).2.1.1.TokensValid (pContextSetInterface curif pif h o).2.2 ∧
      (pContextSetInterface curif pif h o).2.1.2.TokensValid
        (pContextSetInterface curif pif h o).2.2 := by
  rcases pContextSetInterface_cases curif pif h o with ⟨-, -, hr⟩ | ⟨-, hr⟩ | ⟨-, -, hr⟩ |
    ⟨hi, he, hr⟩ <;> rw [hr]
  · exact ⟨hc, hp⟩
  · exact ⟨hc, hp⟩
  · exact ⟨hc.dropClear, hp⟩
  · constructor
    · unfold PsdInterface.dropClear PsdInterface.drops
      split
      · intro pep hm
        exact (hc pep hm).change fun _ => not_mem_nil
      · intro pep hm
        exact (PsdInterface.clear_eps_clear hm).tokenValid
    · intro pep hm
      by_cases h0 : pif.numEPs = 0
      · have hadds : pif.adds = [] := if_pos h0
        rw [hadds] at hm ⊢
        have htok : pif.setTokens (h.change curif.drops []).2 = pif := pif.setTokens_nil
        dsimp only at hm
        rw [htok] at hm
        exact (hp pep hm).change (hd hi he h0 pep hm)
      · have hadds : pif.adds = pif.descs := if_neg h0
        rw [hadds] at hm ⊢
        exact (PsdInterface.setTokens_hasToken hm).tokenValid

namespace PsdConfig

theorem mem_eps : pep ∈ pc.eps ↔ ∃ x ∈ pc.ifs, pep ∈ x.eps := mem_flatMap

def Rest (pc : PsdConfig) (c p : PsdInterface) (pep : PsdEndpoint) : Prop :=
  ∃ x ∈ pc.ifs, x.id ≠ c.id ∧ x.id ≠ p.id ∧ pep ∈ x.eps

theorem mem_put_ifs : x ∈ (pc.put y).ifs ↔ ∃ z ∈ pc.ifs, x = putIf y z := by
  simp only [mem_ifs, put, List.mem_map]
  constructor
  · rintro ⟨_, ⟨m, hm, rfl⟩, hx⟩
    rcases mem_cons.mp hx with rfl | hx
    · exact ⟨m.pif, ⟨m, hm, by simp⟩, rfl⟩
    · obtain ⟨z, hz, rfl⟩ := List.mem_map.mp hx
      exact ⟨z, ⟨m, hm, by simp [hz]⟩, rfl⟩
  · rintro ⟨z, ⟨m, hm, hz⟩, rfl⟩
    refine ⟨_, ⟨m, hm, rfl⟩, ?_⟩
    rcases mem_cons.mp hz with rfl | hz
    · exact mem_cons_self
    · exact mem_cons_of_mem _ (List.mem_map_of_mem hz)

theorem mem_put_put (hx : x ∈ ((pc.put c).put p).ifs) :
    x = p ∨ x = c ∨ x ∈ pc.ifs ∧ x.id ≠ c.id ∧ x.id ≠ p.id := by
  obtain ⟨y, hy, rfl⟩ := mem_put_ifs.mp hx
  obtain ⟨z, hz, rfl⟩ := mem_put_ifs.mp hy
  by_cases hc : z.id = c.id
  · rw [putIf_self hc]
    unfold putIf
    split
    · exact Or.inl rfl
    · exact Or.inr (Or.inl rfl)
  · rw [putIf_ne hc]
    by_cases hp : z.id = p.id
    · exact Or.inl (putIf_self hp)
    · rw [putIf_ne hp]
      exact Or.inr (Or.inr ⟨hz, hc, hp⟩)

theorem mem_put_put_of_ne (hx : x ∈ pc.ifs) (hc : x.id ≠ c.id) (hp : x.id ≠ p.id) :
    x ∈ ((pc.put c).put p).ifs :=
  mem_put_ifs.mpr ⟨x, mem_put_ifs.mpr ⟨x, hx, (putIf_ne hc).symm⟩, (putIf_ne hp).symm⟩

theorem eps_put_put (hp : pep ∈ ((pc.put c).put p).eps) :
    pep ∈ p.eps ∨ pep ∈ c.eps ∨ pc.Rest c p pep := by
  obtain ⟨x, hx, hpx⟩ := mem_eps.mp hp
  rcases mem_put_put hx with rfl | rfl | ⟨hx, hc, hp⟩
  · exact Or.inl hpx
  · exact Or.inr (Or.inl hpx)
  · exact Or.inr (Or.inr ⟨x, hx, hc, hp, hpx⟩)

theorem eps_resort (hp : pep ∈ (pc.resort c p).eps) :
    pep ∈ p.eps ∨ pep ∈ c.eps ∨ ∃ x ∈ pc.ifs, pep ∈ x.eps := by
  obtain ⟨x, hx, hpx⟩ := mem_eps.mp hp
  obtain ⟨n, hn, hx⟩ := mem_ifs.mp hx
  simp only [resort, List.map_map, List.mem_map, mem_filter] at hn
  obtain ⟨m, ⟨hm, -⟩, rfl⟩ := hn
  have hold {z : PsdInterface} (hz : z ∈ m.pif :: m.alterIfs) (he : pep ∈ z.eps) :
      ∃ x ∈ pc.ifs, pep ∈ x.eps := ⟨z, mem_ifs.mpr ⟨m, hm, hz⟩, he⟩
  simp only [Function.comp_apply] at hx
  split at hx
  · simp only [mem_cons, mem_append, List.mem_map, mem_filter,
      not_mem_nil, or_false] at hx
    rcases hx with rfl | (hx | ⟨z, ⟨hz, -⟩, rfl⟩) | rfl
    · exact Or.inl hpx
    · -- the alternates that `pif` had
      cases hf : pc.interfaces.find? fun m => m.pif.id = p.id with
      | none => simp [hf] at hx
      | some k =>
        rw [hf] at hx
        exact Or.inr (Or.inr ⟨x, mem_ifs.mpr ⟨k, List.mem_of_find?_eq_some hf,
          mem_cons_of_mem _ hx⟩, hpx⟩)
    · exact Or.inr (Or.inr (hold (mem_cons_of_mem _ hz) hpx))
    · exact Or.inr (Or.inl hpx)
  · rcases mem_cons.mp hx with rfl | hx
    · exact Or.inr (Or.inr (hold mem_cons_self hpx))
    · exact Or.inr (Or.inr (hold (mem_cons_of_mem _ (mem_filter.mp hx).1) hpx))

end PsdConfig

theorem setTokens_append {peps : List PsdEndpoint} {ts us : List ℕ} (hl : ts.length = peps.length) :
    setTokens peps (ts ++ us) = ((setTokens peps ts).1, us) := by
  induction peps generalizing ts with
  | nil =>
    obtain rfl := length_eq_zero_iff.mp hl
    cases us <;> rfl
  | cons pep peps ih =>
    cases ts with
    | nil => simp at hl
    | cons t ts =>
      simp only [cons_append, setTokens]
      rw [ih (by simpa using hl)]

theorem setMainTokens_nil (ms : List MainIf) : setMainTokens ms [] = ms := by
  induction ms with
  | nil => rfl
  | cons m ms ih =>
    have h1 : (setTokens m.pif.eps []).2 = [] := by cases m.pif.eps <;> rfl
    rw [setMainTokens, h1, ih, m.pif.setTokens_nil]

theorem setMainTokens_mem {ms : List MainIf} {ts : List ℕ} {m : MainIf}
    (hl : ts.length = (ms.flatMap (·.pif.descs)).length) (hm : m ∈ setMainTokens ms ts) :
    (∀ pep ∈ m.pif.eps, ∃ t, pep.token = some t ∧
      ⟨pep.desc, t⟩ ∈ zipWith Held.mk (ms.flatMap (·.pif.descs)) ts) ∧
    ∃ m' ∈ ms, m.alterIfs = m'.alterIfs := by
  induction ms generalizing ts with
  | nil => cases hm
  | cons k ms ih =>
    rw [flatMap_cons, length_append] at hl
    have hk : (ts.take k.pif.descs.length).length = k.pif.descs.length := by
      rw [length_take]
      omega
    have hke : (ts.take k.pif.descs.length).length = k.pif.eps.length := by
      rw [hk]
      exact length_map _
    have hrest : (ts.drop k.pif.descs.length).length = (ms.flatMap (·.pif.descs)).length := by
      rw [length_drop]
      omega
    rw [← take_append_drop k.pif.descs.length ts] at hm ⊢
    rw [flatMap_cons, zipWith_append hk.symm]
    rw [setMainTokens, PsdInterface.setTokens, setTokens_append hke] at hm
    rcases mem_cons.mp hm with rfl | hm
    · refine ⟨fun pep hp => ?_, k, mem_cons_self, rfl⟩
      obtain ⟨t, h1, h2⟩ := setTokens_mem hke hp
      exact ⟨t, h1, mem_append_left _ h2⟩
    · obtain ⟨h1, m', hm', he⟩ := ih hrest hm
      refine ⟨fun pep hp => ?_, m', mem_cons_of_mem _ hm', he⟩
      obtain ⟨t, h2, h3⟩ := h1 pep hp
      exact ⟨t, h2, mem_append_right _ h3⟩

namespace PsdConfig

@[simp] theorem preClear_cfgNum (pc : PsdConfig) : pc.preClear.cfgNum = pc.cfgNum := by
  unfold preClear
  split <;> rfl

theorem eps_preClear (hp : pep ∈ pc.preClear.eps) : pep.Clear ∨ pep ∈ pc.eps := by
  unfold preClear at hp
  split at hp
  · exact Or.inr hp
  · obtain ⟨x, hx, hpx⟩ := mem_eps.mp hp
    obtain ⟨n, hn, hx⟩ := mem_ifs.mp hx
    obtain ⟨m, hm, rfl⟩ := mem_map.mp hn
    rcases mem_cons.mp hx with rfl | hx
    · exact Or.inl (PsdInterface.clear_eps_clear hpx)
    · exact Or.inr (mem_eps.mpr ⟨x, mem_ifs.mpr ⟨m, hm, mem_cons_of_mem _ hx⟩, hpx⟩)

theorem descs_preClear (hn : pc.numEPs ≠ 0) :
    pc.preClear.interfaces.flatMap (·.pif.descs) = pc.descs := by
  have hd (x : PsdInterface) : x.clear.descs = x.descs := by
    unfold PsdInterface.clear PsdInterface.descs
    rw [List.map_map]
    rfl
  unfold preClear descs
  rw [if_neg hn, if_neg hn, flatMap_map]
  simp only [hd]

theorem eps_configure (hp : pep ∈ (pc.preClear.setTokens (h.configure pc.descs).2).eps) :
    pep.HasToken (h.configure pc.descs).1 ∨ pep ∈ pc.preClear.eps := by
  by_cases hn : pc.numEPs = 0
  · have hdescs : pc.descs = [] := if_pos hn
    rw [hdescs] at hp
    unfold setTokens at hp
    have htok : (h.configure []).2 = [] := rfl
    rw [htok, setMainTokens_nil] at hp
    exact Or.inr hp
  · have hl : (h.configure pc.descs).2.length =
        (pc.preClear.interfaces.flatMap (·.pif.descs)).length := by
      rw [descs_preClear hn]
      simp [Hcd.configure, Hcd.add]
    obtain ⟨x, hx, hpx⟩ := mem_eps.mp hp
    obtain ⟨m, hm, hx⟩ := mem_ifs.mp hx
    obtain ⟨htok, m', hm', halt⟩ := setMainTokens_mem hl hm
    rcases mem_cons.mp hx with rfl | hx
    · left
      obtain ⟨t, h1, h2⟩ := htok pep hpx
      rw [descs_preClear hn] at h2
      exact ⟨t, h1, mem_append_right _ h2⟩
    · right
      rw [halt] at hx
      exact mem_eps.mpr ⟨x, mem_ifs.mpr ⟨m', hm', mem_cons_of_mem _ hx⟩, hpx⟩

end PsdConfig

theorem mem_updateConfig {n : ℕ} {f : PsdConfig → PsdConfig} {l : List PsdConfig} {a : PsdConfig}
    (ha : a ∈ updateConfig n f l) :
    a ∈ l ∨ ∃ b, l.find? (fun pc => pc.cfgNum = n) = some b ∧ a = f b := by
  induction l with
  | nil => exact Or.inl ha
  | cons b l ih =>
    unfold updateConfig at ha
    split at ha
    · rename_i hb
      rcases mem_cons.mp ha with rfl | ha
      · exact Or.inr ⟨b, by simp [hb], rfl⟩
      · exact Or.inl (mem_cons_of_mem _ ha)
    · rename_i hb
      rcases mem_cons.mp ha with rfl | ha
      · exact Or.inl mem_cons_self
      · rcases ih ha with ha | ⟨c, hc, rfl⟩
        · exact Or.inl (mem_cons_of_mem _ ha)
        · exact Or.inr ⟨c, by simpa [find?_cons, hb] using hc, rfl⟩

theorem find_updateConfig {n : ℕ} {f : PsdConfig → PsdConfig} (l : List PsdConfig)
    (hf : ∀ pc, (f pc).cfgNum = pc.cfgNum) :
    (updateConfig n f l).find? (fun pc => pc.cfgNum = n) =
      (l.find? fun pc => pc.cfgNum = n).map f := by
  induction l with
  | nil => rfl
  | cons b l ih =>
    unfold updateConfig
    split
    · rename_i hb
      simp [hf, hb]
    · rename_i hb
      simpa [find?_cons, hb] using ih

namespace CtxDevice

variable {d d₀ : CtxDevice} {cfgnum : ℕ} {evs : List Event} {co : CfgOutcome}

def Valid (d : CtxDevice) : Prop := ∀ pep ∈ d.eps, pep.TokenValid d.hcd

def AllClear (d : CtxDevice) : Prop := ∀ pep ∈ d.eps, pep.Clear

instance (d : CtxDevice) : Decidable d.AllClear := inferInstanceAs (Decidable (∀ pep ∈ d.eps, _))

theorem AllClear.valid (hc : d.AllClear) : d.Valid := fun pep hp => (hc pep hp).tokenValid

def Walks (d : CtxDevice) (cfgnum : ℕ) (o : CfgOutcome) : Prop :=
  ∃ pc ∈ d.configs.find? fun pc => pc.cfgNum = cfgnum, pc.numEPs ≠ 0 → o.eds = true

instance (d : CtxDevice) (cfgnum : ℕ) (o : CfgOutcome) : Decidable (d.Walks cfgnum o) :=
  match h : d.configs.find? fun pc => pc.cfgNum = cfgnum with
  | none => .isFalse (by simp [Walks, h])
  | some pc => decidable_of_iff (pc.numEPs ≠ 0 → o.eds = true) (by simp [Walks, h])

theorem mem_eps : pep ∈ d.eps ↔ ∃ pc ∈ d.configs, pep ∈ pc.eps := mem_flatMap

theorem eps_preClear (hp : pep ∈ (d.preClear cfgnum).eps) : pep.Clear ∨ pep ∈ d.eps := by
  obtain ⟨pc, hpc, hp⟩ := mem_eps.mp hp
  rcases mem_updateConfig hpc with hpc | ⟨b, hb, rfl⟩
  · exact Or.inr (mem_eps.mpr ⟨pc, hpc, hp⟩)
  · rcases PsdConfig.eps_preClear hp with hc | hp
    · exact Or.inl hc
    · exact Or.inr (mem_eps.mpr ⟨b, mem_of_find?_eq_some hb, hp⟩)

theorem Valid.preClear (hv : d.Valid) : (d.preClear cfgnum).Valid := by
  intro pep hp
  rcases eps_preClear hp with hc | hp
  · exact hc.tokenValid
  · exact hv pep hp

def configured (d : CtxDevice) (cfgnum : ℕ) (pc : PsdConfig) : CtxDevice :=
  { d with
    configs := updateConfig cfgnum (fun x => x.setTokens (d.hcd.configure pc.descs).2)
      (d.preClear cfgnum).configs
    hcd := (d.hcd.configure pc.descs).1 }

theorem pContextConfigureEndpoints_cases (d : CtxDevice) (cfgnum : ℕ) (o : CfgOutcome) :
    (¬ d.Walks cfgnum o ∧ ∃ e, e ≠ 0 ∧ d.pContextConfigureEndpoints cfgnum o = (e, d)) ∨
    (d.Walks cfgnum o ∧ o.ioerr ≠ 0 ∧
      d.pContextConfigureEndpoints cfgnum o = (o.ioerr, d.preClear cfgnum)) ∨
    (d.Walks cfgnum o ∧ o.ioerr = 0 ∧
      ∃ pc, d.configs.find? (fun pc => pc.cfgNum = cfgnum) = some pc ∧
        d.pContextConfigureEndpoints cfgnum o = (0, d.configured cfgnum pc)) := by
  unfold pContextConfigureEndpoints Walks
  cases hf : d.configs.find? fun pc => pc.cfgNum = cfgnum with
  | none => exact Or.inl ⟨by simp, _, by decide, rfl⟩
  | some pc =>
    dsimp only
    split
    · rename_i hn
      refine Or.inl ⟨?_, _, by decide, rfl⟩
      rintro ⟨x, hx, he⟩
      obtain rfl := some.inj hx
      simp [he hn.1] at hn
    · rename_i hn
      have hw : ∃ x ∈ some pc, x.numEPs ≠ 0 → o.eds = true :=
        ⟨pc, rfl, fun h0 => by simpa [h0] using hn⟩
      split
      · rename_i he
        exact Or.inr (Or.inl ⟨hw, he, rfl⟩)
      · rename_i he
        exact Or.inr (Or.inr ⟨hw, not_ne_iff.mp he, pc, rfl, rfl⟩)

section

variable {pc : PsdConfig} (hf : d.configs.find? (fun pc => pc.cfgNum = cfgnum) = some pc)
include hf

theorem eps_configured (hp : pep ∈ (d.configured cfgnum pc).eps) :
    pep.HasToken (d.configured cfgnum pc).hcd ∨ pep ∈ (d.preClear cfgnum).eps := by
  obtain ⟨b, hb, hp⟩ := mem_eps.mp hp
  rcases mem_updateConfig hb with hb | ⟨c, hc, rfl⟩
  · exact Or.inr (mem_eps.mpr ⟨b, hb, hp⟩)
  · have hfind := find_updateConfig (n := cfgnum) d.configs PsdConfig.preClear_cfgNum
    rw [hf] at hfind
    obtain rfl : pc.preClear = c := some.inj (hfind.symm.trans hc)
    rcases PsdConfig.eps_configure hp with ht | hp
    · exact Or.inl ht
    · exact Or.inr (mem_eps.mpr ⟨_, mem_of_find?_eq_some hc, hp⟩)

theorem configured_valid (hc : (d.preClear cfgnum).AllClear) : (d.configured cfgnum pc).Valid := by
  intro pep hp
  rcases eps_configured hf hp with ht | hp
  · exact ht.tokenValid
  · exact (hc pep hp).tokenValid

end

theorem psdSetDeviceConfig_eq (d : CtxDevice) (cfgnum : ℕ) (o : CfgOutcome) :
    ∃ n, (d.psdSetDeviceConfig cfgnum o).2 =
      { (d.pContextConfigureEndpoints cfgnum o).2 with currCfg := n } := by
  have heta (x : CtxDevice) : x = { x with currCfg := x.currCfg } := rfl
  unfold psdSetDeviceConfig
  dsimp only
  split_ifs
  · exact ⟨_, heta _⟩
  · exact ⟨_, rfl⟩
  · exact ⟨_, heta _⟩

theorem psdSetDeviceConfig_valid
    (hc : d.Walks cfgnum co → co.ioerr = 0 → (d.preClear cfgnum).AllClear)
    (hn : ¬ (d.Walks cfgnum co ∧ co.ioerr = 0) → (d.pContextConfigureEndpoints cfgnum co).2.Valid) :
    (d.psdSetDeviceConfig cfgnum co).2.Valid := by
  obtain ⟨n, heq⟩ := psdSetDeviceConfig_eq d cfgnum co
  rw [heq]
  change (d.pContextConfigureEndpoints cfgnum co).2.Valid
  rcases pContextConfigureEndpoints_cases d cfgnum co with ⟨hw, -⟩ | ⟨-, he, -⟩ | ⟨hw, he, pc, hf, hr⟩
  · exact hn fun h => hw h.1
  · exact hn fun h => he h.2
  · rw [hr]
    exact configured_valid hf (hc hw he)

def Dropped (curif pif : PsdInterface) (o : AltOutcome) (a : ℕ) : Prop :=
  Issued curif pif o.switch ∧ o.switch.ioerr = 0 ∧
    (a ∈ curif.drops ∨ o.confirms true pif.alternate = false ∧ o.back.ioerr = 0 ∧ a ∈ pif.drops)

def altCleared (pc : PsdConfig) (curif pif : PsdInterface) : PsdConfig :=
  (pc.put curif.dropClear).put pif.dropClear

instance (curif pif : PsdInterface) (o : AltOutcome) (a : ℕ) : Decidable (Dropped curif pif o a) :=
  inferInstanceAs (Decidable (((_ ∨ _) ∧ (_ → _) ∧ (_ → _)) ∧ _ = _ ∧ (_ ∨ _)))

/-- The condition under which a step leaves all tokens valid: where the driver drops endpoints,
the step clears what it does not configure again. -/
def TokenCond (d : CtxDevice) : Event → Prop
  | .setDeviceConfig cfgnum o =>
    d.Walks cfgnum o → o.ioerr = 0 → (d.preClear cfgnum).AllClear
  | .setAltInterface i id pp o =>
    ∀ pc ∈ d.configs[i]?, ∀ pif ∈ pc.ifs.find? (fun x => x.id = id),
      ∀ m ∈ pc.interfaces.find? (fun m => m.pif.ifNum = pif.ifNum),
        pp = true → m.pif.id ≠ pif.id →
          ∀ pep ∈ (d.configs.set i (altCleared pc m.pif pif)).flatMap PsdConfig.eps,
            ¬ pep.Clear → ¬ Dropped m.pif pif o pep.desc.address
  | .resetDevice o =>
    o.port = true → o.ioerr = 0 →
      if o.pipe = true ∧ d.Walks d.currCfg o.cfg then (d.preClear d.currCfg).AllClear
      else d.AllClear
  | .ensureStreams pep _ _ _ => ∀ q ∈ d.eps, q.desc.pep = pep → q.token ≠ none
  | .freeStreams _ => True

theorem pContextSetInterface_ok (he : (pContextSetInterface curif pif h o).1 = 0) :
    (pContextSetInterface curif pif h o).2.1.1 = curif.dropClear ∧
      (pContextSetInterface curif pif h o).2.1.2.drops = pif.drops ∧
      (Issued curif pif o ∧ o.ioerr = 0 ∨ pif.drops = []) := by
  rcases pContextSetInterface_cases curif pif h o with ⟨h1, h2, hr⟩ | ⟨-, hr⟩ | ⟨-, h1, hr⟩ |
    ⟨hi, h1, hr⟩ <;> rw [hr] at he ⊢
  · exact ⟨(if_pos h1).symm, rfl, Or.inr (if_pos h2)⟩
  · cases he
  · exact absurd he h1
  · exact ⟨rfl, pif.setTokens_drops _, Or.inl ⟨hi, h1⟩⟩

variable {ao : AltOutcome} {pp : Bool} {m : MainIf}

theorem psdSetAltInterface_cases (pc : PsdConfig) (h : Hcd) (pp : Bool) (pif : PsdInterface)
    (o : AltOutcome) :
    (psdSetAltInterface pc h pp pif o).2 = (pc, h) ∨
    ∃ m ∈ pc.interfaces.find? (fun m => m.pif.ifNum = pif.ifNum), m.pif.id ≠ pif.id ∧
      (pp = false ∧ (psdSetAltInterface pc h pp pif o).2 = (pc.resort m.pif pif, h) ∨
      pp = true ∧ ∃ e c p h₁, pContextSetInterface m.pif pif h o.switch = (e, (c, p), h₁) ∧
        ((psdSetAltInterface pc h pp pif o).2 = ((pc.put c).put p, h₁) ∨
        (psdSetAltInterface pc h pp pif o).2 = (((pc.put c).put p).resort c p, h₁) ∨
        e = 0 ∧ o.confirms true pif.alternate = false ∧
          ∃ e' p' c' h₂, pContextSetInterface p c h₁ o.back = (e', (p', c'), h₂) ∧
            (psdSetAltInterface pc h pp pif o).2 =
              ((((pc.put c).put p).put p').put c', h₂))) := by
  unfold psdSetAltInterface
  cases hf : pc.interfaces.find? fun m => m.pif.ifNum = pif.ifNum with
  | none => exact Or.inl rfl
  | some m =>
    dsimp only
    by_cases hid : m.pif.id = pif.id
    · rw [if_pos hid]
      exact Or.inl rfl
    rw [if_neg hid]
    cases pp with
    | false =>
      split
      · exact absurd ‹_› Bool.false_ne_true
      split
      · exact Or.inr ⟨m, rfl, hid, Or.inl ⟨rfl, rfl⟩⟩
      · exact Or.inl rfl
    | true =>
      rw [if_pos rfl]
      rcases hr : pContextSetInterface m.pif pif h o.switch with ⟨e, ⟨c, p⟩, h₁⟩
      have hb := (pContextSetInterface_bare m.pif pif h o.switch).2
      rw [hr] at hb
      have halt : p.bare.alternate = pif.bare.alternate := by rw [← hb]
      change p.alternate = pif.alternate at halt
      refine Or.inr ⟨m, rfl, hid, Or.inr ⟨rfl, e, c, p, h₁, hr, ?_⟩⟩
      dsimp only
      rw [halt]
      by_cases he : e ≠ 0
      · rw [if_pos he]
        exact Or.inl rfl
      rw [if_neg he]
      by_cases hcf : o.confirms true pif.alternate = true
      · rw [if_pos hcf]
        exact Or.inr (Or.inl rfl)
      rw [if_neg hcf]
      rcases hb : pContextSetInterface p c h₁ o.back with ⟨e', ⟨p', c'⟩, h₂⟩
      exact Or.inr (Or.inr ⟨not_ne_iff.mp he, by simpa using hcf, e', p', c', h₂, rfl, rfl⟩)

theorem psdSetAltInterface_rest (hv : pep.TokenValid h)
    (hd : ∀ m ∈ pc.interfaces.find? (fun m => m.pif.ifNum = pif.ifNum),
      pp = true → m.pif.id ≠ pif.id → ¬ pep.Clear → ¬ Dropped m.pif pif ao pep.desc.address) :
    pep.TokenValid (psdSetAltInterface pc h pp pif ao).2.2 := by
  rcases psdSetAltInterface_cases pc h pp pif ao with hr | ⟨m, hm, hid, ⟨-, hr⟩ |
    ⟨rfl, e, c, p, h₁, h1, hr⟩⟩
  · rwa [hr]
  · rwa [hr]
  have hd := hd m hm rfl hid
  have hok := @pContextSetInterface_ok pif m.pif h ao.switch
  have hv1 : pep.TokenValid h₁ := by
    have : pep.TokenValid (pContextSetInterface m.pif pif h ao.switch).2.2 :=
      pContextSetInterface_rest hv fun hi he hc ha => hd hc ⟨hi, he, Or.inl ha⟩
    rwa [h1] at this
  rw [h1] at hok
  rcases hr with hr | hr | ⟨he, hcf, e', p', c', h₂, h2, hr⟩ <;> rw [hr]
  · exact hv1
  · exact hv1
  · -- the way back
    obtain ⟨-, hp, hi⟩ := hok he
    have : pep.TokenValid (pContextSetInterface p c h₁ ao.back).2.2 :=
      pContextSetInterface_rest hv1 (by
        intro _ hb hc ha
        rw [hp] at ha
        rcases hi with hi | hi
        · exact hd hc ⟨hi.1, hi.2, Or.inr ⟨hcf, hb, ha⟩⟩
        · rw [hi] at ha
          cases ha)
    rwa [h2] at this

theorem mem_altCleared_pif (hp : pif ∈ pc.ifs) : pif.dropClear ∈ (altCleared pc curif pif).ifs := by
  have hid : pif.id = pif.dropClear.id := (PsdInterface.id_of_bare pif.dropClear_bare).symm
  apply PsdConfig.mem_put_ifs.mpr
  refine ⟨PsdConfig.putIf curif.dropClear pif, PsdConfig.mem_put_ifs.mpr ⟨pif, hp, rfl⟩, ?_⟩
  unfold PsdConfig.putIf
  split_ifs with h1 h2 <;> first | rfl | exact absurd hid ‹_› | skip
  exact absurd (h1 ▸ hid) h2

theorem mem_altCleared_curif (hc : curif ∈ pc.ifs) (hne : curif.id ≠ pif.id) :
    curif.dropClear ∈ (altCleared pc curif pif).ifs := by
  have hid : curif.id = curif.dropClear.id := (PsdInterface.id_of_bare curif.dropClear_bare).symm
  have hpid : pif.dropClear.id = pif.id := PsdInterface.id_of_bare pif.dropClear_bare
  apply PsdConfig.mem_put_ifs.mpr
  refine ⟨curif.dropClear, PsdConfig.mem_put_ifs.mpr ⟨curif, hc, ?_⟩, ?_⟩
  · exact (PsdConfig.putIf_self hid).symm
  · exact (PsdConfig.putIf_ne (by rwa [hpid, ← hid])).symm

theorem mem_altCleared_rest (hr : pc.Rest curif pif pep) : pep ∈ (altCleared pc curif pif).eps := by
  obtain ⟨x, hx, hc, hp, hpep⟩ := hr
  have hcid : curif.dropClear.id = curif.id := PsdInterface.id_of_bare curif.dropClear_bare
  have hpid : pif.dropClear.id = pif.id := PsdInterface.id_of_bare pif.dropClear_bare
  exact PsdConfig.mem_eps.mpr ⟨x, PsdConfig.mem_put_put_of_ne hx (by rwa [hcid]) (by rwa [hpid]),
    hpep⟩

theorem psdSetAltInterface_eps (hv : ∀ pep ∈ pc.eps, pep.TokenValid h) (hpif : pif ∈ pc.ifs)
    (hd : ∀ m ∈ pc.interfaces.find? (fun m => m.pif.ifNum = pif.ifNum), pp = true →
      m.pif.id ≠ pif.id → ∀ pep ∈ (altCleared pc m.pif pif).eps,
        ¬ pep.Clear → ¬ Dropped m.pif pif ao pep.desc.address)
    (hp : pep ∈ (psdSetAltInterface pc h pp pif ao).2.1.eps) :
    pep.TokenValid (psdSetAltInterface pc h pp pif ao).2.2 ∨
      ∃ m ∈ pc.interfaces.find? (fun m => m.pif.ifNum = pif.ifNum), pc.Rest m.pif pif pep := by
  have hif {x : PsdInterface} (hx : x ∈ pc.ifs) : x.TokensValid h :=
    fun pep hp => hv pep (PsdConfig.mem_eps.mpr ⟨x, hx, hp⟩)
  rcases psdSetAltInterface_cases pc h pp pif ao with hr | ⟨m, hm, hid, ⟨-, hr⟩ |
    ⟨rfl, e, c, p, h₁, h1, hr⟩⟩
  · rw [hr] at hp ⊢
    exact Or.inl (hv pep hp)
  · rw [hr] at hp ⊢
    left
    have hmain : m.pif ∈ pc.ifs :=
      PsdConfig.mem_ifs.mpr ⟨m, mem_of_find?_eq_some hm, mem_cons_self⟩
    rcases PsdConfig.eps_resort hp with hp | hp | ⟨x, hx, hp⟩
    · exact hif hpif pep hp
    · exact hif hmain pep hp
    · exact hif hx pep hp
  have hd := hd m hm rfl hid
  have hmain : m.pif ∈ pc.ifs :=
    PsdConfig.mem_ifs.mpr ⟨m, mem_of_find?_eq_some hm, mem_cons_self⟩
  have hbare := pContextSetInterface_bare m.pif pif h ao.switch
  have hok := @pContextSetInterface_ok pif m.pif h ao.switch
  have hv1 : c.TokensValid h₁ ∧ p.TokensValid h₁ := by
    have := pContextSetInterface_valid (o := ao.switch) (hif hmain) (hif hpif) (by
      intro hi he h0 pep hp hc ha
      have hdc : pif.dropClear = pif := if_pos h0
      have hmem : pif.dropClear ∈ (altCleared pc m.pif pif).ifs := mem_altCleared_pif hpif
      rw [hdc] at hmem
      exact hd pep (PsdConfig.mem_eps.mpr ⟨pif, hmem, hp⟩) hc ⟨hi, he, Or.inl ha⟩)
    rwa [h1] at this
  rw [h1] at hbare hok
  have hcid : c.id = m.pif.id := PsdInterface.id_of_bare hbare.1
  have hpid : p.id = pif.id := PsdInterface.id_of_bare hbare.2
  have hrest {q : PsdEndpoint} (hq : pc.Rest c p q) : pc.Rest m.pif pif q := by
    obtain ⟨x, hx, h2, h3, h4⟩ := hq
    exact ⟨x, hx, hcid ▸ h2, hpid ▸ h3, h4⟩
  rcases hr with hr | hr | ⟨he, hcf, e', p', c', h₂, h2, hr⟩ <;> rw [hr] at hp ⊢
  · rcases PsdConfig.eps_put_put hp with hp | hp | hp
    · exact Or.inl (hv1.2 pep hp)
    · exact Or.inl (hv1.1 pep hp)
    · exact Or.inr ⟨m, hm, hrest hp⟩
  · rcases PsdConfig.eps_resort hp with hp | hp | ⟨x, hx, hp⟩
    · exact Or.inl (hv1.2 pep hp)
    · exact Or.inl (hv1.1 pep hp)
    · rcases PsdConfig.eps_put_put (PsdConfig.mem_eps.mpr ⟨x, hx, hp⟩) with hp | hp | hp
      · exact Or.inl (hv1.2 pep hp)
      · exact Or.inl (hv1.1 pep hp)
      · exact Or.inr ⟨m, hm, hrest hp⟩
  · -- the way back
    obtain ⟨hc, hpd, hi⟩ := hok he
    have hbare' := pContextSetInterface_bare p c h₁ ao.back
    have hv2 : p'.TokensValid h₂ ∧ c'.TokensValid h₂ := by
      have := pContextSetInterface_valid (o := ao.back) hv1.2 hv1.1 (by
        intro _ hb _ pep hp hcl ha
        rw [hpd] at ha
        rcases hi with hi | hi
        · have hmem := mem_altCleared_curif hmain hid
          dsimp only at hc
          rw [← hc] at hmem
          exact hd pep (PsdConfig.mem_eps.mpr ⟨c, hmem, hp⟩) hcl
            ⟨hi.1, hi.2, Or.inr ⟨hcf, hb, ha⟩⟩
        · rw [hi] at ha
          cases ha)
      rwa [h2] at this
    rw [h2] at hbare'
    have hcid' : c'.id = c.id := PsdInterface.id_of_bare hbare'.2
    have hpid' : p'.id = p.id := PsdInterface.id_of_bare hbare'.1
    rcases PsdConfig.eps_put_put hp with hp | hp | ⟨x, hx, h3, h4, hp⟩
    · exact Or.inl (hv2.2 pep hp)
    · exact Or.inl (hv2.1 pep hp)
    · rcases PsdConfig.mem_put_put hx with rfl | rfl | ⟨hx, h5, h6⟩
      · exact absurd hpid'.symm h3
      · exact absurd hcid'.symm h4
      · exact Or.inr ⟨m, hm, hrest ⟨x, hx, h5, h6, hp⟩⟩

theorem mem_mapPep {n : ℕ} {f : PsdEndpoint → PsdEndpoint} (hp : pep ∈ (d.mapPep n f).eps) :
    ∃ q ∈ d.eps, pep = if q.desc.pep = n then f q else q := by
  obtain ⟨_, hpc', hp⟩ := mem_eps.mp hp
  obtain ⟨pc, hpc, rfl⟩ := mem_map.mp hpc'
  obtain ⟨x, hx, hp⟩ := PsdConfig.mem_eps.mp hp
  obtain ⟨_, hm', hx⟩ := PsdConfig.mem_ifs.mp hx
  obtain ⟨m, hm, rfl⟩ := mem_map.mp hm'
  have hold {y : PsdInterface} (hy : y ∈ m.pif :: m.alterIfs) {q : PsdEndpoint}
      (hq : q ∈ y.eps) : q ∈ d.eps :=
    mem_eps.mpr ⟨pc, hpc, PsdConfig.mem_eps.mpr ⟨y, PsdConfig.mem_ifs.mpr ⟨m, hm, hy⟩, hq⟩⟩
  rcases mem_cons.mp hx with rfl | hx
  · obtain ⟨q, hq, rfl⟩ := mem_map.mp hp
    exact ⟨q, hold mem_cons_self hq, rfl⟩
  · obtain ⟨y, hy, rfl⟩ := mem_map.mp hx
    obtain ⟨q, hq, rfl⟩ := mem_map.mp hp
    exact ⟨q, hold (mem_cons_of_mem _ hy) hq, rfl⟩

theorem setDeviceConfig_valid (hv : d.Valid) {o : CfgOutcome}
    (hc : d.TokenCond (.setDeviceConfig cfgnum o)) : (d.psdSetDeviceConfig cfgnum o).2.Valid := by
  apply psdSetDeviceConfig_valid hc
  intro hn
  rcases pContextConfigureEndpoints_cases d cfgnum o with ⟨-, e, -, hr⟩ | ⟨-, -, hr⟩ |
    ⟨hw, he, -⟩
  · rwa [hr]
  · rw [hr]
    exact hv.preClear
  · exact absurd ⟨hw, he⟩ hn

theorem resetDevice_valid (hv : d.Valid) {o : ResetOutcome} (hc : d.TokenCond (.resetDevice o)) :
    (d.psdResetDevice o).2.Valid := by
  unfold psdResetDevice
  by_cases hp : o.port = false ∨ o.ioerr ≠ 0
  · rw [if_pos hp]
    exact hv
  rw [if_neg hp]
  push Not at hp
  have hc := hc (by simpa using hp.1) hp.2
  by_cases hpipe : o.pipe = true
  · dsimp only
    rw [if_pos hpipe]
    -- nothing is left of what the driver held, and what follows does not ask for it
    apply psdSetDeviceConfig_valid
    · intro hw _
      rw [if_pos ⟨hpipe, hw⟩] at hc
      exact hc
    · intro hn
      rcases pContextConfigureEndpoints_cases { d with hcd := { d.hcd with held := [] } }
        d.currCfg o.cfg with ⟨hw, e, -, hr⟩ | ⟨hw, -, hr⟩ | ⟨hw, he, -⟩
      · rw [hr]
        have hw' : ¬ (o.pipe = true ∧ d.Walks d.currCfg o.cfg) := fun h => hw h.2
        rw [if_neg hw'] at hc
        exact AllClear.valid hc
      · rw [hr]
        rw [if_pos ⟨hpipe, hw⟩] at hc
        exact AllClear.valid hc
      · exact absurd ⟨hw, he⟩ hn
  · dsimp only
    rw [if_neg hpipe]
    have hw' : ¬ (o.pipe = true ∧ d.Walks d.currCfg o.cfg) := fun h => hpipe h.1
    rw [if_neg hw'] at hc
    exact AllClear.valid hc

theorem setAltInterface_valid (hv : d.Valid) {i id : ℕ}
    (hc : d.TokenCond (.setAltInterface i id pp ao))
    (hpc : d.configs[i]? = some pc) (hpif : pc.ifs.find? (fun x => x.id = id) = some pif) :
    ({ d with
      configs := d.configs.set i (psdSetAltInterface pc d.hcd pp pif ao).2.1
      hcd := (psdSetAltInterface pc d.hcd pp pif ao).2.2 } : CtxDevice).Valid := by
  have hc := hc pc hpc pif hpif
  have hi : i < d.configs.length := (List.getElem?_eq_some_iff.mp hpc).1
  have hmem : pc ∈ d.configs := mem_of_getElem? hpc
  have hset (a : PsdConfig) : a ∈ d.configs.set i a :=
    mem_iff_getElem?.mpr ⟨i, List.getElem?_set_self hi⟩
  intro pep hp
  obtain ⟨b, hb, hp⟩ := mem_eps.mp hp
  obtain ⟨j, hj⟩ := mem_iff_getElem?.mp hb
  by_cases hij : i = j
  · subst hij
    obtain rfl := some.inj ((List.getElem?_set_self hi).symm.trans hj)
    rcases psdSetAltInterface_eps (fun pep hp => hv pep (mem_eps.mpr ⟨pc, hmem, hp⟩))
      (List.mem_of_find?_eq_some hpif) (fun m hm hpp hid pep hp =>
        hc m hm hpp hid pep (mem_flatMap.mpr ⟨_, hset _, hp⟩)) hp with hok | ⟨m, hm, hr⟩
    · exact hok
    · have hpc' : pep ∈ pc.eps := by
        obtain ⟨x, hx, -, -, hpx⟩ := hr
        exact PsdConfig.mem_eps.mpr ⟨x, hx, hpx⟩
      apply psdSetAltInterface_rest (hv pep (mem_eps.mpr ⟨pc, hmem, hpc'⟩))
      intro m' hm' hpp hid
      obtain rfl : m' = m := some.inj (hm'.symm.trans hm)
      exact hc m' hm hpp hid pep (mem_flatMap.mpr ⟨_, hset _, mem_altCleared_rest hr⟩)
  · -- an endpoint of another configuration
    have hj' : d.configs[j]? = some b := by rwa [List.getElem?_set_ne hij] at hj
    apply psdSetAltInterface_rest (hv pep (mem_eps.mpr ⟨b, mem_of_getElem? hj', hp⟩))
    intro m hm hpp hid
    refine hc m hm hpp hid pep (mem_flatMap.mpr ⟨b, ?_, hp⟩)
    exact mem_iff_getElem?.mpr ⟨j, by rwa [List.getElem?_set_ne hij]⟩

theorem ensureStreams_valid (hv : d.Valid) {n maxid : ℕ} {able : Bool} {ioerr : Ioerr}
    (hc : d.TokenCond (.ensureStreams n maxid able ioerr)) :
    (d.mapPep n (pCtxEnsureStreams d.hcd maxid able ioerr)).Valid := by
  intro pep hp
  obtain ⟨q, hq, rfl⟩ := mem_mapPep hp
  split
  · rename_i hn
    obtain ⟨t, ht, hm⟩ := hv q hq (Or.inl (hc q hq hn))
    intro _
    refine ⟨t, ?_⟩
    unfold pCtxEnsureStreams
    split_ifs <;> exact ⟨ht, hm⟩
  · exact hv q hq

theorem step_valid (hv : d.Valid) {e : Event} {d' : CtxDevice} (hc : d.TokenCond e)
    (hs : d.step e = some d') : d'.Valid := by
  cases e with
  | setDeviceConfig cfgnum o =>
    obtain rfl := some.inj hs
    exact setDeviceConfig_valid hv hc
  | setAltInterface i id pp o =>
    obtain ⟨pc, hpc, hs⟩ := bind_eq_some_iff.mp hs
    obtain ⟨pif, hpif, hs⟩ := bind_eq_some_iff.mp hs
    obtain rfl := some.inj hs
    exact setAltInterface_valid hv hc hpc hpif
  | resetDevice o =>
    obtain rfl := some.inj hs
    exact resetDevice_valid hv hc
  | ensureStreams pep maxid able ioerr =>
    obtain rfl := some.inj hs
    exact ensureStreams_valid hv hc
  | freeStreams n =>
    obtain rfl := some.inj hs
    intro pep hp
    obtain ⟨q, hq, rfl⟩ := mem_mapPep hp
    have hvq := hv q hq
    split
    · rintro (ht | h0)
      · exact hvq (Or.inl ht)
      · exact absurd rfl h0
    · exact hvq

theorem others_clear {o : CfgOutcome} (hc : d.TokenCond (.setDeviceConfig cfgnum o))
    (hok : (d.psdSetDeviceConfig cfgnum o).1 = true) :
    ∀ pc ∈ (d.psdSetDeviceConfig cfgnum o).2.configs, pc.cfgNum ≠ cfgnum →
      ∀ pep ∈ pc.eps, pep.Clear := by
  intro b hb hne pep hp
  obtain ⟨n, heq⟩ := psdSetDeviceConfig_eq d cfgnum o
  rw [heq] at hb
  unfold psdSetDeviceConfig at hok
  rcases pContextConfigureEndpoints_cases d cfgnum o with ⟨-, e, he, hr⟩ | ⟨-, he, hr⟩ |
    ⟨hw, he, pc, hf, hr⟩ <;> rw [hr] at hok hb
  · dsimp only at hok
    rw [if_pos he] at hok
    cases hok
  · dsimp only at hok
    rw [if_pos he] at hok
    cases hok
  · rcases mem_updateConfig hb with hb | ⟨c, hc', rfl⟩
    · exact hc hw he pep (mem_eps.mpr ⟨b, hb, hp⟩)
    · have := find?_some hc'
      exact absurd (of_decide_eq_true this) hne

/-- In every run whose steps meet the condition all tokens are valid throughout, and a
configuration that is selected leaves none in any other. -/
theorem tokens_valid (h0 : d₀.Valid) (hr : Runs.Run step TokenCond d₀ evs d) :
    d.Valid ∧ ∀ cfgnum o, d.TokenCond (.setDeviceConfig cfgnum o) →
      (d.psdSetDeviceConfig cfgnum o).1 = true →
        ∀ pc ∈ (d.psdSetDeviceConfig cfgnum o).2.configs, pc.cfgNum ≠ cfgnum →
          ∀ pep ∈ pc.eps, pep.Clear := by
  refine ⟨hr.invariant Valid h0 fun _ _ _ hv hc hs => step_valid hv hc hs, ?_⟩
  intro cfgnum o hc hok
  exact others_clear hc hok

instance (d : CtxDevice) : ∀ e, Decidable (d.TokenCond e)
  | .setDeviceConfig cfgnum o =>
    inferInstanceAs (Decidable (d.Walks cfgnum o → _ = _ → AllClear _))
  | .setAltInterface i id pp o => inferInstanceAs (Decidable (∀ pc ∈ d.configs[i]?,
      ∀ pif ∈ pc.ifs.find? (fun x => x.id = id),
        ∀ m ∈ pc.interfaces.find? (fun m => m.pif.ifNum = pif.ifNum),
          pp = true → m.pif.id ≠ pif.id →
            ∀ pep ∈ (d.configs.set i (altCleared pc m.pif pif)).flatMap PsdConfig.eps,
              ¬ pep.Clear → ¬ Dropped m.pif pif o pep.desc.address))
  | .resetDevice o => inferInstanceAs (Decidable (_ = _ → _ = _ →
      if o.pipe = true ∧ d.Walks d.currCfg o.cfg then AllClear _ else AllClear _))
  | .ensureStreams pep _ _ _ =>
    inferInstanceAs (Decidable (∀ q ∈ d.eps, q.desc.pep = pep → q.token ≠ none))
  | .freeStreams _ => inferInstanceAs (Decidable True)

/-- A device with two configurations of an interface each, the first one with an alternate. -/
def twoConfigs : CtxDevice :=
  ⟨[⟨1, [⟨⟨10, 0, 0, 1, [⟨⟨1, 0x81⟩, none, 0, 16⟩], none, none, none⟩,
      [⟨11, 0, 1, 1, [⟨⟨2, 0x81⟩, none, 0, 0⟩], none, none, some 10⟩]⟩]⟩,
    ⟨2, [⟨⟨20, 0, 0, 1, [⟨⟨3, 0x82⟩, none, 0, 0⟩], none, none, none⟩, []⟩]⟩], 0, ⟨[], 1⟩⟩

def cfgOk : CfgOutcome := ⟨true, 0, 0⟩

/-- The first configuration, an alternate switch that the device does not confirm, streams and a
reset. -/
def configRun : List Event :=
  [.setDeviceConfig 1 cfgOk, .setAltInterface 0 11 true ⟨⟨true, true, 0⟩, 0, 0, 0, ⟨true, true, 0⟩⟩,
    .ensureStreams 1 8 true 0, .resetDevice ⟨true, 0, true, cfgOk, true⟩]

theorem tokens_valid_configRun :
    let d := (Runs.exec step twoConfigs configRun).get (by decide)
    d.Valid ∧ ∀ cfgnum o, d.TokenCond (.setDeviceConfig cfgnum o) →
      (d.psdSetDeviceConfig cfgnum o).1 = true →
        ∀ pc ∈ (d.psdSetDeviceConfig cfgnum o).2.configs, pc.cfgNum ≠ cfgnum →
          ∀ pep ∈ pc.eps, pep.Clear :=
  tokens_valid (AllClear.valid (by decide)) (Runs.Run.get_meets (by decide) (by decide))

/-- Selecting the second configuration after the first, or a reset that does not come to its
configuration, leaves a token of an endpoint the driver does not hold. -/
theorem tokens_not_valid :
    twoConfigs.Valid ∧
      (∃ d, Runs.Run step Runs.anyStep twoConfigs
        [.setDeviceConfig 1 cfgOk, .setDeviceConfig 2 cfgOk] d ∧ ¬ d.Valid) ∧
      ∃ d, Runs.Run step Runs.anyStep twoConfigs
        [.setDeviceConfig 1 cfgOk, .resetDevice ⟨true, 0, false, cfgOk, true⟩] d ∧ ¬ d.Valid := by
  refine ⟨AllClear.valid (by decide), ⟨_, Runs.Run.get (by decide), fun hv => ?_⟩,
    ⟨_, Runs.Run.get (by decide), fun hv => ?_⟩⟩
  · obtain ⟨t, ht, hm⟩ := hv ⟨⟨1, 0x81⟩, some 1, 0, 16⟩ (by decide) (Or.inl (by decide))
    cases ht
    exact absurd hm (by decide)
  · obtain ⟨t, ht, hm⟩ := hv ⟨⟨1, 0x81⟩, some 1, 0, 16⟩ (by decide) (Or.inl (by decide))
    cases ht
    exact absurd hm (by decide)

end CtxDevice

end Neptune
