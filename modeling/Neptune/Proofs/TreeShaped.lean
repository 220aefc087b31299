import Neptune.Proofs.ParseTree

/-! The tree of a configuration has one main interface for each number exactly when the interface descriptors of each
number stand together, alternate settings behind the first. What the lists hold and who points to whom does not depend
on that. -/

namespace Neptune.DevConfig

open List Option

variable {w : Alloc} {pd : Speed} {pos dlen bufend rounds : ℕ} {s t : Parse}

inductive Item
  | noConfig
  | config (cfgNum : ℕ)
  | interface (pos num alternate : ℕ)
  | other
  deriving DecidableEq, Repr

def itemAt (mem : ℕ → ℕ) (w : Alloc) (pos : ℕ) : Item :=
  if mem (pos + 1) = UDT_CONFIGURATION then if w.node pos then .config (mem (pos + 5)) else .noConfig
  else if mem (pos + 1) = UDT_INTERFACE ∧ w.node pos = true then .interface pos (mem (pos + 2)) (mem (pos + 3))
  else .other

def items (mem : ℕ → ℕ) (w : Alloc) (bufend : ℕ) : ℕ → ℕ → List Item
  | 0, _ => []
  | rounds + 1, pos =>
    if pos < bufend ∧ 2 ≤ mem pos then itemAt mem w pos :: items mem w bufend rounds (pos + mem pos) else []

def nextMains : Option (List ℕ) → Item → Option (List ℕ)
  | _, .noConfig => none
  | _, .config _ => some []
  | some mains, .interface _ num alternate => some (if alternate ≠ 0 ∧ mains ≠ [] then mains else mains ++ [num])
  | mains, _ => mains

/-- An alternate setting follows its interface, and a first setting has a number of its own. -/
def Placed : Option (List ℕ) → Item → Prop
  | some mains, .interface _ num alternate =>
    if alternate ≠ 0 ∧ mains ≠ [] then mains.getLast? = some num else num ∉ mains
  | _, _ => True

instance : ∀ mains i, Decidable (Placed mains i)
  | some mains, .interface _ num alternate =>
    inferInstanceAs (Decidable (if alternate ≠ 0 ∧ mains ≠ [] then mains.getLast? = some num else num ∉ mains))
  | some _, .noConfig => isTrue trivial
  | some _, .config _ => isTrue trivial
  | some _, .other => isTrue trivial
  | none, _ => isTrue trivial

def Grouped : Option (List ℕ) → List Item → Prop
  | _, [] => True
  | mains, i :: is => Placed mains i ∧ Grouped (nextMains mains i) is

instance Grouped.decidable : ∀ mains is, Decidable (Grouped mains is)
  | _, [] => isTrue trivial
  | mains, i :: is =>
    have := Grouped.decidable (nextMains mains i) is
    inferInstanceAs (Decidable (Placed mains i ∧ Grouped (nextMains mains i) is))

def interfaceIds (base : ℕ) : Option (List ℕ) → List Item → List ℕ
  | _, [] => []
  | some mains, .interface pos num alternate :: is =>
    (base + pos) :: interfaceIds base (nextMains (some mains) (.interface pos num alternate)) is
  | mains, i :: is => interfaceIds base (nextMains mains i) is

def cfgNums : List Item → List ℕ
  | [] => []
  | .config cfgNum :: is => cfgNum :: cfgNums is
  | _ :: is => cfgNums is

def Buffer.items (buf : Buffer) (w : Alloc) : List Item :=
  DevConfig.items buf.peek w buf.bytes.length buf.bytes.length 0

/-- The items and the length of the buffers that are parsed, after configurations of some numbers. -/
def parsedBuffers (seen : List ℕ) : List CfgReply → List (List Item × ℕ)
  | [] => []
  | r :: replies =>
    match r.header with
    | none => []
    | some cfgnum =>
      if cfgnum ∈ seen then parsedBuffers seen replies
      else
        match r.room, r.buffer with
        | true, some buf =>
          (buf.items r.alloc, buf.bytes.length) :: parsedBuffers (seen ++ cfgNums (buf.items r.alloc)) replies
        | _, _ => []

def parsedIds (base : ℕ) : List (List Item × ℕ) → List ℕ
  | [] => []
  | (is, length) :: bufs => interfaceIds base none is ++ parsedIds (base + length) bufs

def PsdConfig.mainNums (pc : PsdConfig) : List ℕ := pc.interfaces.map (·.pif.ifNum)

def PsdConfig.Numbered (pc : PsdConfig) : Prop :=
  pc.mainNums.Nodup ∧ ∀ m ∈ pc.interfaces, ∀ x ∈ m.alterIfs, x.ifNum = m.pif.ifNum

def PsdConfig.Parented (pc : PsdConfig) : Prop :=
  ∀ m ∈ pc.interfaces, ∀ x ∈ m.alterIfs, x.parentIf = some m.pif.id

def PsdInterface.bare (pif : PsdInterface) : PsdInterface := { pif with eps := [] }

def MainIf.bare (m : MainIf) : MainIf := ⟨m.pif.bare, m.alterIfs.map (·.bare)⟩

def PsdConfig.bare (pc : PsdConfig) : PsdConfig := { pc with interfaces := pc.interfaces.map (·.bare) }

@[simp] theorem PsdConfig.bare_mainNums (pc : PsdConfig) : pc.bare.mainNums = pc.mainNums := by
  simp [mainNums, bare, MainIf.bare, PsdInterface.bare, Function.comp_def]

theorem PsdConfig.bare_numbered (pc : PsdConfig) : pc.bare.Numbered ↔ pc.Numbered := by
  rw [Numbered, Numbered, bare_mainNums]
  simp [bare, MainIf.bare, PsdInterface.bare]

theorem PsdConfig.bare_parented (pc : PsdConfig) : pc.bare.Parented ↔ pc.Parented := by
  simp [Parented, bare, MainIf.bare, PsdInterface.bare]

theorem PsdConfig.bare_ids (pc : PsdConfig) : pc.bare.ifs.map (·.id) = pc.ifs.map (·.id) := by
  simp [ifs, bare, MainIf.bare, PsdInterface.bare, map_flatMap, flatMap_map, Function.comp_def]

theorem Parse.onAltif_bare {f : PsdInterface → PsdInterface} (s : Parse) (h : ∀ x, (f x).bare = x.bare) :
    (s.onAltif f).configs.map (·.bare) = s.configs.map (·.bare) := by
  unfold Parse.onAltif
  split
  · rfl
  · next isAlt _ =>
    refine map_onLast (fun pc => ?_) s.configs
    have hm : (onLast (MainIf.onAltif isAlt f) pc.interfaces).map (·.bare) = pc.interfaces.map (·.bare) := by
      refine map_onLast (fun m => ?_) pc.interfaces
      cases isAlt with
      | true => simp only [MainIf.onAltif, MainIf.bare, if_true, map_onLast h]
      | false => simp [MainIf.onAltif, MainIf.bare, h]
    simp only [PsdConfig.onMains, PsdConfig.bare, hm]

def Parse.mains (s : Parse) : Option (List ℕ) := s.curConfig.map (·.mainNums)

theorem Parse.mains_bare (s : Parse) :
    s.mains = if s.pc then ((s.configs.map (·.bare)).getLast?).map (·.mainNums) else none := by
  unfold Parse.mains Parse.curConfig
  split
  · simp [getLast?_map, Function.comp_def]
  · rfl

def AllNumbered (s : Parse) : Prop := ∀ pc ∈ s.configs, pc.Numbered

def AllParented (s : Parse) : Prop := ∀ pc ∈ s.configs, pc.Parented

def Parse.ids (s : Parse) : List ℕ := s.ifs.map (·.id)

theorem AllNumbered.of_bare (h : t.configs.map (·.bare) = s.configs.map (·.bare)) (hs : AllNumbered s) :
    AllNumbered t := by
  intro pc hpc
  have hmem : pc.bare ∈ s.configs.map (·.bare) := h ▸ mem_map_of_mem hpc
  obtain ⟨c, hc, heq⟩ := mem_map.mp hmem
  rw [← pc.bare_numbered, ← heq, c.bare_numbered]
  exact hs c hc

theorem AllParented.of_bare (h : t.configs.map (·.bare) = s.configs.map (·.bare)) (hs : AllParented s) :
    AllParented t := by
  intro pc hpc
  have hmem : pc.bare ∈ s.configs.map (·.bare) := h ▸ mem_map_of_mem hpc
  obtain ⟨c, hc, heq⟩ := mem_map.mp hmem
  rw [← pc.bare_parented, ← heq, c.bare_parented]
  exact hs c hc

theorem Parse.ids_bare (s : Parse) : s.ids = (s.configs.map (·.bare)).flatMap fun pc => pc.ifs.map (·.id) := by
  simp [Parse.ids, Parse.ifs, map_flatMap, flatMap_map, PsdConfig.bare_ids]

structure Bound (s : Parse) : Prop where
  config : s.pc = true → ∃ mains, s.mains = some mains ∧ (s.pif = true ↔ mains ≠ [])
  main : s.pif = true → s.pc = true

structure Grows (s : Parse) (i : Item) (t : Parse) : Prop where
  bound : Bound t
  numbered : AllNumbered t ↔ AllNumbered s ∧ Placed s.mains i
  mains : t.mains = nextMains s.mains i
  parented : AllParented s → AllParented t
  ids : t.ids = s.ids ++ interfaceIds s.base s.mains [i]
  base : t.base = s.base
  nums : t.configs.map (·.cfgNum) = s.configs.map (·.cfgNum) ++ cfgNums [i]

theorem Grows.neutral {i : Item} (hb : Bound s) (hbare : t.configs.map (·.bare) = s.configs.map (·.bare))
    (hpc : t.pc = s.pc) (hpif : t.pif = s.pif) (hbase : t.base = s.base)
    (hi : i = .other ∨ s.mains = none ∧ ∃ pos num alternate, i = .interface pos num alternate) : Grows s i t := by
  have hmains : t.mains = s.mains := by rw [t.mains_bare, s.mains_bare, hbare, hpc]
  have hids : t.ids = s.ids := by rw [t.ids_bare, s.ids_bare, hbare]
  have hnums : t.configs.map (·.cfgNum) = s.configs.map (·.cfgNum) := by
    have := congrArg (List.map (·.cfgNum)) hbare
    rw [List.map_map, List.map_map] at this
    exact this
  have hnumbered : AllNumbered t ↔ AllNumbered s := ⟨.of_bare hbare.symm, .of_bare hbare⟩
  refine ⟨⟨fun h => ?_, fun h => ?_⟩, ?_, ?_, .of_bare hbare, ?_, hbase, ?_⟩
  · rw [hmains, hpif]
    exact hb.config (hpc ▸ h)
  · rw [hpc]
    exact hb.main (hpif ▸ h)
  · rcases hi with rfl | ⟨hnone, _, _, _, rfl⟩
    · simp [hnumbered, Placed]
    · simp [hnumbered, hnone, Placed]
  · rcases hi with rfl | ⟨hnone, _, _, _, rfl⟩
    · rw [hmains]
      cases s.mains <;> rfl
    · rw [hmains, hnone]
      rfl
  · rcases hi with rfl | ⟨hnone, _, _, _, rfl⟩
    · rw [hids]
      cases s.mains <;> simp [interfaceIds]
    · rw [hids, hnone]
      simp [interfaceIds]
  · rcases hi with rfl | ⟨-, _, _, _, rfl⟩ <;> simp [hnums, cfgNums]

theorem Grows.unbound (s : Parse) : Grows s .noConfig s.unbound where
  bound := ⟨nofun, nofun⟩
  numbered := by
    have hplaced : Placed s.mains .noConfig := by cases s.mains <;> trivial
    exact ⟨fun h => ⟨h, hplaced⟩, fun h => h.1⟩
  mains := by cases s.mains <;> rfl
  parented h := h
  ids := by
    have hnone : interfaceIds s.base s.mains [.noConfig] = [] := by cases s.mains <;> rfl
    rw [hnone, append_nil]
    rfl
  base := rfl
  nums := (append_nil _).symm

theorem Grows.addConfig (s : Parse) {pc : PsdConfig} (hpc : pc.interfaces = []) :
    Grows s (.config pc.cfgNum) (s.addConfig pc) := by
  have hnums : pc.mainNums = [] := by rw [PsdConfig.mainNums, hpc]; rfl
  have hmains : (s.addConfig pc).mains = some [] := by
    simp [Parse.mains, Parse.curConfig, Parse.addConfig, hnums]
  have hnumbered : pc.Numbered := by simp [PsdConfig.Numbered, hnums, hpc]
  have hparented : pc.Parented := by simp [PsdConfig.Parented, hpc]
  refine ⟨⟨fun _ => ⟨[], hmains, by simp [Parse.addConfig]⟩, nofun⟩, ?_, ?_, ?_, ?_, rfl, ?_⟩
  · have hplaced : Placed s.mains (.config pc.cfgNum) := by cases s.mains <;> trivial
    simp only [AllNumbered, Parse.addConfig, mem_append, mem_singleton]
    refine ⟨fun h => ⟨fun c hc => h c (.inl hc), hplaced⟩, fun h c hc => ?_⟩
    rcases hc with hc | rfl
    · exact h.1 c hc
    · exact hnumbered
  · rw [hmains]
    cases s.mains <;> rfl
  · intro h c hc
    rcases mem_append.mp hc with hc | hc
    · exact h c hc
    · exact mem_singleton.mp hc ▸ hparented
  · have hnone : interfaceIds s.base s.mains [.config pc.cfgNum] = [] := by cases s.mains <;> rfl
    rw [hnone, append_nil]
    simp [Parse.ids, Parse.ifs, Parse.addConfig, PsdConfig.ifs, hpc]
  · simp [Parse.addConfig, cfgNums]

theorem Bound.split (hb : Bound s) (hpc : s.pc = true) :
    ∃ cs c, s.configs = cs ++ [c] ∧ s.mains = some c.mainNums ∧ (s.pif = true ↔ c.mainNums ≠ []) := by
  obtain ⟨mains, hmains, hpif⟩ := hb.config hpc
  obtain ⟨c, hc, rfl⟩ := map_eq_some_iff.mp hmains
  rw [Parse.curConfig, if_pos hpc] at hc
  obtain ⟨cs, hcs⟩ := getLast?_eq_some_iff.mp hc
  exact ⟨cs, c, hcs, hmains, hpif⟩

variable {m : MainIf} {c d : PsdConfig} {ms : List MainIf} {cs : List PsdConfig}

theorem allNumbered_concat {p : Prop} (hs : s.configs = cs ++ [c])
    (ht : t.configs = cs ++ [d]) (h : d.Numbered ↔ c.Numbered ∧ p) : AllNumbered t ↔ AllNumbered s ∧ p := by
  simp only [AllNumbered, hs, ht, mem_append, mem_singleton]
  constructor
  · intro hall
    have hd := h.mp (hall d (.inr rfl))
    refine ⟨fun x hx => ?_, hd.2⟩
    rcases hx with hx | rfl
    · exact hall x (.inl hx)
    · exact hd.1
  · rintro ⟨hall, hp⟩ x (hx | rfl)
    · exact hall x (.inl hx)
    · exact h.mpr ⟨hall c (.inr rfl), hp⟩

theorem allParented_concat (hs : s.configs = cs ++ [c])
    (ht : t.configs = cs ++ [d]) (h : c.Parented → d.Parented) (hall : AllParented s) : AllParented t := by
  intro x hx
  rw [ht] at hx
  rcases mem_append.mp hx with hx | hx
  · exact hall x (hs ▸ mem_append_left _ hx)
  · rw [mem_singleton.mp hx]
    exact h (hall c (hs ▸ mem_append_right _ mem_cons_self))

theorem ids_concat {new : List ℕ} (hs : s.configs = cs ++ [c])
    (ht : t.configs = cs ++ [d]) (h : d.ifs.map (·.id) = c.ifs.map (·.id) ++ new) : t.ids = s.ids ++ new := by
  simp only [Parse.ids, Parse.ifs, hs, ht, flatMap_append, map_append, flatMap_singleton, h,
    append_assoc]

theorem numbered_addMain (c : PsdConfig) (altif : PsdInterface) :
    (c.onMains (· ++ [⟨altif, []⟩])).Numbered ↔ c.Numbered ∧ altif.ifNum ∉ c.mainNums := by
  have hnums : (c.onMains (· ++ [⟨altif, []⟩])).mainNums = c.mainNums ++ [altif.ifNum] := by
    simp [PsdConfig.mainNums, PsdConfig.onMains]
  have halters : (∀ m ∈ (c.onMains (· ++ [⟨altif, []⟩])).interfaces, ∀ x ∈ m.alterIfs, x.ifNum = m.pif.ifNum) ↔
      ∀ m ∈ c.interfaces, ∀ x ∈ m.alterIfs, x.ifNum = m.pif.ifNum := by
    simp [PsdConfig.onMains, or_imp, forall_and]
  rw [PsdConfig.Numbered, PsdConfig.Numbered, hnums, halters, nodup_append]
  simp only [nodup_cons, not_mem_nil, not_false_eq_true, nodup_nil, and_self, mem_singleton,
    true_and]
  constructor
  · rintro ⟨⟨hnodup, hne⟩, hall⟩
    exact ⟨⟨hnodup, hall⟩, fun hmem => hne _ hmem _ rfl rfl⟩
  · rintro ⟨⟨hnodup, hall⟩, hnot⟩
    exact ⟨⟨hnodup, fun a ha b hb heq => hnot (by rw [← hb, ← heq]; exact ha)⟩, hall⟩

theorem numbered_addAlternate (altif : PsdInterface)
    (hc : c.interfaces = ms ++ [m]) :
    (c.onMains (onLast (MainIf.addAlternate altif))).Numbered ↔ c.Numbered ∧ altif.ifNum = m.pif.ifNum := by
  have hnums : (c.onMains (onLast (MainIf.addAlternate altif))).mainNums = c.mainNums := by
    simp [PsdConfig.mainNums, PsdConfig.onMains, hc, MainIf.addAlternate]
  rw [PsdConfig.Numbered, PsdConfig.Numbered, hnums]
  simp only [PsdConfig.onMains, hc, onLast_concat, mem_append, mem_singleton]
  constructor
  · rintro ⟨hnodup, hall⟩
    have hlast := hall (m.addAlternate altif) (.inr rfl)
    refine ⟨⟨hnodup, fun n hn x hx => ?_⟩, ?_⟩
    · rcases hn with hn | rfl
      · exact hall n (.inl hn) x hx
      · exact hlast x (mem_append_left _ hx)
    · exact hlast { altif with parentIf := some m.pif.id } (mem_append_right _ mem_cons_self)
  · rintro ⟨⟨hnodup, hall⟩, hnum⟩
    refine ⟨hnodup, fun n hn x hx => ?_⟩
    rcases hn with hn | rfl
    · exact hall n (.inl hn) x hx
    · rcases mem_append.mp hx with hx | hx
      · exact hall m (.inr rfl) x hx
      · rw [mem_singleton.mp hx]
        exact hnum

theorem ids_addMain (c : PsdConfig) (altif : PsdInterface) :
    (c.onMains (· ++ [⟨altif, []⟩])).ifs.map (·.id) = c.ifs.map (·.id) ++ [altif.id] := by
  simp [PsdConfig.ifs, PsdConfig.onMains]

theorem ids_addAlternate (altif : PsdInterface)
    (hc : c.interfaces = ms ++ [m]) :
    (c.onMains (onLast (MainIf.addAlternate altif))).ifs.map (·.id) = c.ifs.map (·.id) ++ [altif.id] := by
  simp [PsdConfig.ifs, PsdConfig.onMains, hc, MainIf.addAlternate]

theorem parented_addMain (altif : PsdInterface) (h : c.Parented) :
    (c.onMains (· ++ [⟨altif, []⟩])).Parented := by
  intro m hm x hx
  rcases mem_append.mp hm with hm | hm
  · exact h m hm x hx
  · rw [mem_singleton.mp hm] at hx
    cases hx

theorem parented_addAlternate (altif : PsdInterface)
    (hc : c.interfaces = ms ++ [m]) (h : c.Parented) :
    (c.onMains (onLast (MainIf.addAlternate altif))).Parented := by
  intro n hn x hx
  simp only [PsdConfig.onMains, hc, onLast_concat] at hn
  rcases mem_append.mp hn with hn | hn
  · exact h n (hc ▸ mem_append_left _ hn) x hx
  · rw [mem_singleton.mp hn] at hx ⊢
    rcases mem_append.mp hx with hx | hx
    · exact h m (hc ▸ mem_append_right _ mem_cons_self) x hx
    · rw [mem_singleton.mp hx]
      rfl

theorem Grows.addInterface {altif : PsdInterface} (hb : Bound s) (hpc : s.pc = true)
    (hid : altif.id = s.base + pos) :
    Grows s (.interface pos altif.ifNum altif.alternate) (s.addInterface altif) := by
  obtain ⟨cs, c, hcs, hmains, hpif⟩ := hb.split hpc
  have hnew : interfaceIds s.base s.mains [.interface pos altif.ifNum altif.alternate] = [altif.id] := by
    rw [hmains, hid]
    rfl
  by_cases halt : altif.alternate ≠ 0 ∧ s.pif = true
  · -- moved to the alternatives of the last main interface
    obtain ⟨ms, m, hms⟩ : ∃ ms m, c.interfaces = ms ++ [m] := by
      have hne : c.interfaces ≠ [] := fun hnil => (hpif.mp halt.2) (by simp [PsdConfig.mainNums, hnil])
      exact ⟨_, _, (dropLast_append_getLast hne).symm⟩
    have heq : s.addInterface altif = { s with
        configs := onLast (PsdConfig.onMains (onLast (MainIf.addAlternate altif))) s.configs
        altif := some true
        pep := false } := if_pos halt
    have hconfigs : (s.addInterface altif).configs =
        cs ++ [c.onMains (onLast (MainIf.addAlternate altif))] := by
      rw [heq, hcs]
      exact onLast_concat _ cs c
    have hnums : (c.onMains (onLast (MainIf.addAlternate altif))).mainNums = c.mainNums := by
      simp [PsdConfig.mainNums, PsdConfig.onMains, hms, MainIf.addAlternate]
    have hmains' : (s.addInterface altif).mains = some c.mainNums := by
      have hpc' : (s.addInterface altif).pc = true := by rw [heq]; exact hpc
      rw [Parse.mains, Parse.curConfig, if_pos hpc', hconfigs, getLast?_concat, map_some, hnums]
    have hlast : c.mainNums.getLast? = some m.pif.ifNum := by simp [PsdConfig.mainNums, hms]
    have hcond : altif.alternate ≠ 0 ∧ c.mainNums ≠ [] := ⟨halt.1, hpif.mp halt.2⟩
    refine ⟨⟨fun _ => ⟨_, hmains', ?_⟩, fun _ => ?_⟩, ?_, ?_, ?_, ?_, ?_, ?_⟩
    · rw [heq]
      exact hpif
    · rw [heq]
      exact hpc
    · refine allNumbered_concat hcs hconfigs ((numbered_addAlternate altif hms).trans (and_congr_right fun _ => ?_))
      rw [hmains, Placed, if_pos hcond, hlast, some.injEq, eq_comm]
    · rw [hmains', hmains, nextMains, if_pos hcond]
    · exact allParented_concat hcs hconfigs (parented_addAlternate altif hms)
    · rw [hnew]
      exact ids_concat hcs hconfigs (ids_addAlternate altif hms)
    · rw [heq]
    · simp [hconfigs, hcs, cfgNums, PsdConfig.onMains]
  · have heq : s.addInterface altif = { s with
        configs := onLast (PsdConfig.onMains (· ++ [⟨altif, []⟩])) s.configs
        pif := true
        altif := some false
        pep := false } := if_neg halt
    have hconfigs : (s.addInterface altif).configs = cs ++ [c.onMains (· ++ [⟨altif, []⟩])] := by
      rw [heq, hcs]
      exact onLast_concat _ cs c
    have hnums : (c.onMains (· ++ [⟨altif, []⟩])).mainNums = c.mainNums ++ [altif.ifNum] := by
      simp [PsdConfig.mainNums, PsdConfig.onMains]
    have hmains' : (s.addInterface altif).mains = some (c.mainNums ++ [altif.ifNum]) := by
      have hpc' : (s.addInterface altif).pc = true := by rw [heq]; exact hpc
      rw [Parse.mains, Parse.curConfig, if_pos hpc', hconfigs, getLast?_concat, map_some, hnums]
    have hcond : ¬(altif.alternate ≠ 0 ∧ c.mainNums ≠ []) := fun h => halt ⟨h.1, hpif.mpr h.2⟩
    refine ⟨⟨fun _ => ⟨_, hmains', ?_⟩, fun _ => ?_⟩, ?_, ?_, ?_, ?_, ?_, ?_⟩
    · rw [heq]
      simp
    · rw [heq]
      exact hpc
    · refine allNumbered_concat hcs hconfigs ((numbered_addMain c altif).trans (and_congr_right fun _ => ?_))
      rw [hmains, Placed, if_neg hcond]
    · rw [hmains', hmains, nextMains, if_neg hcond]
    · exact allParented_concat hcs hconfigs (parented_addMain altif)
    · rw [hnew]
      exact ids_concat hcs hconfigs (ids_addMain c altif)
    · rw [heq]
    · simp [hconfigs, hcs, cfgNums, PsdConfig.onMains]

abbrev reading (mem : ℕ → ℕ) : Reader := fun i => .ok (mem i)

theorem Round.grows {mem : ℕ → ℕ} (hb : Bound s) (hr : Round (reading mem) w pd pos s t) :
    Grows s (itemAt mem w pos) t := by
  have hother (type : ℕ) (htype : reading mem (pos + 1) = .ok type) (hc : type ≠ UDT_CONFIGURATION)
      (hi : type ≠ UDT_INTERFACE) : itemAt mem w pos = .other := by
    cases htype
    rw [itemAt, if_neg hc, if_neg fun h => hi h.1]
  cases hr with
  | noConfig htype hw =>
    have htype := Except.ok.inj htype
    rw [itemAt, if_pos htype, if_neg (by simp [hw])]
    exact .unbound s
  | config pc htype hw hpc _ hnum =>
    have htype := Except.ok.inj htype
    have hnum := Except.ok.inj hnum
    rw [itemAt, if_pos htype, if_pos hw, hnum]
    exact .addConfig s hpc
  | stray htype hpc =>
    have htype := Except.ok.inj htype
    refine .neutral hb rfl rfl rfl rfl ?_
    rw [itemAt, if_neg (by rw [htype]; decide)]
    split
    · exact .inr ⟨by rw [Parse.mains, Parse.curConfig, hpc]; rfl, _, _, _, rfl⟩
    · exact .inl rfl
  | noInterface htype _ hw =>
    have htype := Except.ok.inj htype
    refine .neutral hb rfl rfl rfl rfl (.inl ?_)
    rw [itemAt, if_neg (by rw [htype]; decide), if_neg (by simp [hw])]
  | interface altif htype hpc hw hid _ _ hnum halt _ =>
    have htype := Except.ok.inj htype
    have hnum := Except.ok.inj hnum
    have halt := Except.ok.inj halt
    rw [itemAt, if_neg (by rw [htype]; decide), if_pos ⟨htype, hw⟩, hnum, halt]
    exact .addInterface hb hpc hid
  | noEndpoint htype _ _ => exact .neutral hb rfl rfl rfl rfl (.inl (hother _ htype (by decide) (by decide)))
  | endpoint addr attr mps interval htype _ _ =>
    have hitem := hother _ htype (by decide) (by decide)
    refine .neutral hb (s.onAltif_bare fun x => rfl) ?_ ?_ ?_ (.inl hitem)
    all_goals
      simp only [Parse.addEndpoint, Parse.onAltif]
      split <;> rfl
  | companion f type htype hc hi _ _ _ =>
    have hitem := hother _ htype hc hi
    refine .neutral hb (s.onAltif_bare fun x => rfl) ?_ ?_ ?_ (.inl hitem)
    all_goals
      simp only [Parse.onPep, Parse.onAltif]
      split <;> rfl
  | other type htype hc hi _ => exact .neutral hb rfl rfl rfl rfl (.inl (hother _ htype hc hi))

theorem interfaceIds_cons (base : ℕ) (mains : Option (List ℕ)) (i : Item) (is : List Item) :
    interfaceIds base mains (i :: is) = interfaceIds base mains [i] ++ interfaceIds base (nextMains mains i) is := by
  cases mains <;> cases i <;> rfl

theorem cfgNums_cons (i : Item) (is : List Item) : cfgNums (i :: is) = cfgNums [i] ++ cfgNums is := by
  cases i <;> rfl

structure Grown (s : Parse) (is : List Item) (t : Parse) : Prop where
  bound : Bound t
  numbered : AllNumbered t ↔ AllNumbered s ∧ Grouped s.mains is
  parented : AllParented s → AllParented t
  ids : t.ids = s.ids ++ interfaceIds s.base s.mains is
  base : t.base = s.base
  nums : t.configs.map (·.cfgNum) = s.configs.map (·.cfgNum) ++ cfgNums is

theorem Grown.refl (hb : Bound s) : Grown s [] s := by
  have hids : interfaceIds s.base s.mains [] = [] := by cases s.mains <;> rfl
  exact ⟨hb, by simp [Grouped], id, by rw [hids, append_nil], rfl, by simp [cfgNums]⟩

theorem Grown.cons {u : Parse} {i : Item} {is : List Item} (h : Grows s i u) (h' : Grown u is t) :
    Grown s (i :: is) t where
  bound := h'.bound
  numbered := by rw [h'.numbered, h.numbered, h.mains, Grouped, and_assoc]
  parented hs := h'.parented (h.parented hs)
  ids := by rw [h'.ids, h.ids, h.mains, h.base, interfaceIds_cons s.base s.mains i is, append_assoc]
  base := h'.base.trans h.base
  nums := by rw [h'.nums, h.nums, cfgNums_cons i is, append_assoc]

theorem parseLoop_grown {mem : ℕ → ℕ} (hb : Bound s)
    (h : parseLoop (reading mem) w pd bufend rounds pos s = .ok t) : Grown s (items mem w bufend rounds pos) t := by
  induction rounds generalizing pos s with
  | zero =>
    unfold parseLoop at h
    split at h
    · cases h
    · cases h
      exact .refl hb
  | succ rounds ih =>
    unfold parseLoop at h
    split at h
    · next hpos =>
      obtain ⟨_, rfl, h⟩ : ∃ dlen, mem pos = dlen ∧ _ := ⟨_, rfl, h⟩
      change (if mem pos < 2 then _ else _) = _ at h
      split at h
      · next hlen =>
        cases h
        rw [items, if_neg fun hand => absurd hand.2 (by omega)]
        exact .refl hb
      · next hlen =>
        obtain ⟨u, hu, h⟩ := bind_ok.mp h
        obtain ⟨v, descriptors, hround, rfl⟩ := parseDescriptor_round hu
        have hgrows : Grows s (itemAt mem w pos) v := hround.grows hb
        rw [items, if_pos ⟨hpos, by omega⟩]
        have hgrows' : Grows s (itemAt mem w pos) { v with descriptors := descriptors } :=
          ⟨⟨hgrows.bound.config, hgrows.bound.main⟩, hgrows.numbered, hgrows.mains, hgrows.parented, hgrows.ids, hgrows.base, hgrows.nums⟩
        exact .cons hgrows' (ih hgrows'.bound h)
    · next hpos =>
      cases h
      rw [items, if_neg fun hand => hpos hand.1]
      exact .refl hb

theorem parseBuffer_grown {buf : Buffer} (h : parseBuffer Buffer.memory pd buf w s = .ok t) :
    (AllNumbered t ↔ AllNumbered s ∧ Grouped none (buf.items w)) ∧ (AllParented s → AllParented t) ∧
      t.ids = s.ids ++ interfaceIds s.base none (buf.items w) ∧ t.base = s.base + buf.bytes.length ∧
      t.configs.map (·.cfgNum) = s.configs.map (·.cfgNum) ++ cfgNums (buf.items w) := by
  obtain ⟨u, hu, rfl⟩ := parseBuffer_loop h
  have hb : Bound s.unbound := ⟨nofun, nofun⟩
  have hg : Grown s.unbound (buf.items w) u := parseLoop_grown hb hu
  refine ⟨hg.numbered, hg.parented, hg.ids, ?_, hg.nums⟩
  exact congrArg (· + buf.bytes.length) hg.base

theorem pGetDevConfig_grown {replies : List CfgReply} {ok : Bool}
    (h : pGetDevConfig Buffer.memory pd replies s = .ok (ok, t)) :
    (AllNumbered t ↔
        AllNumbered s ∧ ∀ b ∈ parsedBuffers (s.configs.map (·.cfgNum)) replies, Grouped none b.1) ∧
      (AllParented s → AllParented t) ∧
      t.ids = s.ids ++ parsedIds s.base (parsedBuffers (s.configs.map (·.cfgNum)) replies) := by
  induction replies generalizing s with
  | nil =>
    cases h
    simp [parsedBuffers, parsedIds]
  | cons r replies ih =>
    unfold pGetDevConfig at h
    unfold parsedBuffers
    cases hheader : r.header with
    | none =>
      simp only [hheader] at h ⊢
      cases h
      simp [parsedIds]
    | some cfgnum =>
      simp only [hheader] at h ⊢
      have hseen : (s.configs.any fun pc => pc.cfgNum = cfgnum) = true ↔ cfgnum ∈ s.configs.map (·.cfgNum) := by
        simp [List.any_eq_true]
      by_cases hmem : cfgnum ∈ s.configs.map (·.cfgNum)
      · rw [if_pos (hseen.mpr hmem)] at h
        rw [if_pos hmem]
        exact ih h
      · rw [if_neg fun hany => hmem (hseen.mp hany)] at h
        rw [if_neg hmem]
        cases hroom : r.room with
        | false =>
          simp only [hroom] at h ⊢
          cases h
          simp [parsedIds]
        | true =>
          cases hbuf : r.buffer with
          | none =>
            simp only [hroom, hbuf] at h ⊢
            cases h
            simp [parsedIds]
          | some buf =>
            simp only [hroom, hbuf] at h ⊢
            obtain ⟨u, hu, h⟩ := bind_ok.mp h
            obtain ⟨hnumbered, hparented, hids, hbase, hnums⟩ := parseBuffer_grown hu
            obtain ⟨hn, hp, hi⟩ := ih h
            rw [hnums] at hn hi
            refine ⟨?_, fun hs => hp (hparented hs), ?_⟩
            · rw [hn, hnumbered, and_assoc]
              simp
            · rw [hi, hids, hbase, parsedIds, append_assoc]

theorem interfaceIds_increasing (mem : ℕ → ℕ) (w : Alloc) (base bufend rounds pos : ℕ) (mains : Option (List ℕ)) :
    (interfaceIds base mains (items mem w bufend rounds pos)).Pairwise (· < ·) ∧
      ∀ id ∈ interfaceIds base mains (items mem w bufend rounds pos), base + pos ≤ id ∧ id < base + bufend := by
  induction rounds generalizing pos mains with
  | zero =>
    have hnil : interfaceIds base mains (items mem w bufend 0 pos) = [] := by cases mains <;> rfl
    simp [hnil]
  | succ rounds ih =>
    rw [items]
    split
    · next hpos =>
      rw [interfaceIds_cons]
      obtain ⟨hpair, hbounds⟩ := ih (pos + mem pos) (nextMains mains (itemAt mem w pos))
      have hone : interfaceIds base mains [itemAt mem w pos] = [] ∨
          interfaceIds base mains [itemAt mem w pos] = [base + pos] := by
        unfold itemAt
        split
        · split <;> cases mains <;> exact .inl rfl
        · split
          · cases mains with
            | none => exact .inl rfl
            | some ms => exact .inr rfl
          · cases mains <;> exact .inl rfl
      rcases hone with hone | hone
      · rw [hone, nil_append]
        refine ⟨hpair, fun id hid => ?_⟩
        have := hbounds id hid
        omega
      · rw [hone, singleton_append, pairwise_cons]
        refine ⟨⟨fun id hid => ?_, hpair⟩, fun id hid => ?_⟩
        · have := hbounds id hid
          omega
        · rcases mem_cons.mp hid with rfl | hid
          · omega
          · have := hbounds id hid
            omega
    · have hnil : interfaceIds base mains [] = [] := by cases mains <;> rfl
      simp [hnil]

theorem parsedIds_increasing (seen : List ℕ) (base : ℕ) (replies : List CfgReply) :
    (parsedIds base (parsedBuffers seen replies)).Pairwise (· < ·) ∧
      ∀ id ∈ parsedIds base (parsedBuffers seen replies), base ≤ id := by
  induction replies generalizing seen base with
  | nil => exact ⟨.nil, nofun⟩
  | cons r replies ih =>
    unfold parsedBuffers
    split
    · exact ⟨.nil, nofun⟩
    · split
      · exact ih seen base
      · split
        · next buf _ _ =>
          rw [parsedIds]
          obtain ⟨hpair, hbounds⟩ := interfaceIds_increasing buf.peek r.alloc base buf.bytes.length
            buf.bytes.length 0 none
          obtain ⟨hrest, hlow⟩ := ih (seen ++ cfgNums (buf.items r.alloc)) (base + buf.bytes.length)
          refine ⟨pairwise_append.mpr ⟨hpair, hrest, fun a ha b hb => ?_⟩, fun id hid => ?_⟩
          · exact lt_of_lt_of_le (hbounds a ha).2 (hlow b hb)
          · rcases mem_append.mp hid with hid | hid
            · exact (Nat.le_add_right base 0).trans (hbounds id hid).1
            · exact (Nat.le_add_right base _).trans (hlow id hid)
        · exact ⟨.nil, nofun⟩

/-- The tree has one entry for each interface number, with its alternates behind it, and every interface descriptor
parsed stands in it once. -/
structure Shaped (replies : List CfgReply) (t : Parse) : Prop where
  numbered : AllNumbered t
  parented : AllParented t
  listed : t.ids = parsedIds 0 (parsedBuffers [] replies)
  once : t.ids.Nodup

def AllGrouped (replies : List CfgReply) : Prop := ∀ b ∈ parsedBuffers [] replies, Grouped none b.1

theorem tree_shaped {replies : List CfgReply} {ok : Bool}
    (h : pGetDevConfig Buffer.memory pd replies start = .ok (ok, t)) : Shaped replies t ↔ AllGrouped replies := by
  obtain ⟨hnumbered, hparented, hids⟩ := pGetDevConfig_grown h
  have hstart : AllNumbered start := fun _ hc => by cases hc
  have hids : t.ids = parsedIds 0 (parsedBuffers [] replies) := hids
  constructor
  · intro hs
    exact (hnumbered.mp hs.numbered).2
  · intro hg
    refine ⟨hnumbered.mpr ⟨hstart, hg⟩, hparented fun _ hc => (by cases hc), hids, ?_⟩
    rw [hids]
    exact (parsedIds_increasing [] 0 replies).1.imp ne_of_lt

instance (replies : List CfgReply) : Decidable (AllGrouped replies) :=
  inferInstanceAs (Decidable (∀ b ∈ parsedBuffers [] replies, Grouped none b.1))

def interfaceDesc (num alternate : UInt8) : List UInt8 := [9, 4, num, alternate, 0, 0xff, 0, 0, 0]

def configDesc (total : UInt8) : List UInt8 := [9, 2, total, 0, 2, 1, 0, 0x80, 50]

def groupedReply : CfgReply :=
  goodReply 1 (configDesc 45 ++ interfaceDesc 0 0 ++ interfaceDesc 0 1 ++ interfaceDesc 1 0 ++ interfaceDesc 1 1)

def interleavedReply : CfgReply :=
  goodReply 1 (configDesc 45 ++ interfaceDesc 0 0 ++ interfaceDesc 1 0 ++ interfaceDesc 0 1 ++ interfaceDesc 1 1)

def repeatedReply : CfgReply := goodReply 1 (configDesc 27 ++ interfaceDesc 0 0 ++ interfaceDesc 0 0)

def fullSpeed : Speed := ⟨false, false, false⟩

theorem tree_shaped_grouped :
    pGetDevConfig Buffer.memory fullSpeed [groupedReply] start = .ok (true, parsed fullSpeed [groupedReply]) ∧
      (parsed fullSpeed [groupedReply]).ids = [9, 18, 27, 36] ∧
      Shaped [groupedReply] (parsed fullSpeed [groupedReply]) := by
  have h : pGetDevConfig Buffer.memory fullSpeed [groupedReply] start =
      .ok (true, parsed fullSpeed [groupedReply]) := rfl
  exact ⟨h, by decide, (tree_shaped h).mpr (by decide)⟩

theorem tree_not_shaped :
    (∃ t, pGetDevConfig Buffer.memory fullSpeed [interleavedReply] start = .ok (true, t) ∧
      (∃ pc ∈ t.configs, ∃ m ∈ pc.interfaces, ∃ x ∈ m.alterIfs, m.pif.ifNum = 1 ∧ x.ifNum = 0) ∧
      ¬Shaped [interleavedReply] t) ∧
    ∃ t, pGetDevConfig Buffer.memory fullSpeed [repeatedReply] start = .ok (true, t) ∧
      t.configs.map (·.mainNums) = [[0, 0]] ∧ ¬Shaped [repeatedReply] t := by
  have hmixed : ∃ pc ∈ (parsed fullSpeed [interleavedReply]).configs, ∃ m ∈ pc.interfaces, ∃ x ∈ m.alterIfs,
      m.pif.ifNum = 1 ∧ x.ifNum = 0 := by decide
  have htwice : (parsed fullSpeed [repeatedReply]).configs.map (·.mainNums) = [[0, 0]] := by decide
  refine ⟨⟨_, rfl, hmixed, fun hs => ?_⟩, ⟨_, rfl, htwice, fun hs => ?_⟩⟩
  · obtain ⟨pc, hpc, m, hm, x, hx, hone, hzero⟩ := hmixed
    have hnum := (hs.numbered pc hpc).2 m hm x hx
    rw [hone, hzero] at hnum
    cases hnum
  · have hmem : [0, 0] ∈ (parsed fullSpeed [repeatedReply]).configs.map (·.mainNums) := htwice ▸ mem_cons_self
    obtain ⟨pc, hpc, hnums⟩ := List.mem_map.mp hmem
    have hnodup := (hs.numbered pc hpc).1
    rw [hnums] at hnodup
    exact absurd hnodup (by decide)

end Neptune.DevConfig
