import Neptune.Spec.Interfaces

/-! Switching an interface to another alternate: when it is all or nothing. -/

namespace Neptune

open List Function

def Hcd.Holds (h : Hcd) (pep : PsdEndpoint) : Prop := ∃ x ∈ h.held, x.desc = pep.desc

def PsdEndpoint.HasToken (pep : PsdEndpoint) (h : Hcd) : Prop :=
  ∃ t, pep.token = some t ∧ ⟨pep.desc, t⟩ ∈ h.held

def PsdInterface.bare (pif : PsdInterface) : PsdInterface := pif.clear

def PsdConfig.bare (pc : PsdConfig) : PsdConfig :=
  { pc with interfaces := pc.interfaces.map fun m => ⟨m.pif.bare, m.alterIfs.map (·.bare)⟩ }

theorem PsdInterface.id_of_bare {x y : PsdInterface} (h : x.bare = y.bare) : x.id = y.id := by
  have : x.bare.id = y.bare.id := by rw [h]
  exact this

namespace PsdConfig

/-- Each interface number has one main interface with its inactive alternates, and no structure
stands in two places. -/
structure WellFormed (pc : PsdConfig) : Prop where
  ifNums : (pc.interfaces.map (·.pif.ifNum)).Nodup
  alters : ∀ m ∈ pc.interfaces, ∀ x ∈ m.alterIfs, x.ifNum = m.pif.ifNum ∧
    x.parentIf = some m.pif.id
  ids : (pc.ifs.map (·.id)).Nodup
  peps : (pc.eps.map (·.desc)).Nodup

/-- The current alternate of an interface has the tokens of those of its endpoints that the
driver holds. -/
def CurrentValid (pc : PsdConfig) (h : Hcd) (ifNum : ℕ) : Prop :=
  ∀ m ∈ pc.interfaces, m.pif.ifNum = ifNum → ∀ pep ∈ m.pif.eps, h.Holds pep → pep.HasToken h

/-- `pif` has taken the place of the main interface of its number, with its binding; the old main
interface and the other alternates are the alternates of `pif`. -/
def Switched (pc pc' : PsdConfig) (pif : PsdInterface) : Prop :=
  ∃ pre m post, pc.interfaces = pre ++ m :: post ∧ m.pif.ifNum = pif.ifNum ∧ pif ∈ m.alterIfs ∧
    ∃ new old : PsdInterface,
      pc' = { pc with
        interfaces := pre ++ ⟨new, (m.alterIfs.filter fun x => x.id ≠ pif.id).map
          (fun x => { x with parentIf := some pif.id }) ++ [old]⟩ :: post } ∧
      new.bare = { pif.bare with
        parentIf := none
        ifBinding := m.pif.ifBinding
        clsBinding := m.pif.clsBinding } ∧
      old.bare = { m.pif.bare with
        parentIf := some pif.id
        ifBinding := none
        clsBinding := none }

def Stays (pc pc' : PsdConfig) (pif : PsdInterface) : Prop :=
  pc' = pc ∧ ∃ m ∈ pc.interfaces, m.pif = pif ∧ ∀ x ∈ m.alterIfs, x.parentIf = some pif.id

structure NodeOf (pc : PsdConfig) (pre : List MainIf) (m : MainIf) (post : List MainIf)
    (pif : PsdInterface) : Prop where
  eq : pc.interfaces = pre ++ m :: post
  ifNum : m.pif.ifNum = pif.ifNum
  find : pc.interfaces.find? (fun n => n.pif.ifNum = pif.ifNum) = some m
  ifNums : ∀ n ∈ pre ++ post, n.pif.ifNum ≠ pif.ifNum
  mem : pif = m.pif ∨ pif ∈ m.alterIfs
  ids : ∀ n ∈ pre ++ post, ∀ x ∈ n.pif :: n.alterIfs, ∀ y ∈ m.pif :: m.alterIfs, x.id ≠ y.id
  main : ∀ x ∈ m.alterIfs, x.id ≠ m.pif.id
  alters : (m.alterIfs.map (·.id)).Nodup

variable {pc : PsdConfig} {pre post : List MainIf} {m m' : MainIf} {pif x y c : PsdInterface}
  {h : Hcd}

theorem mem_ifs : x ∈ pc.ifs ↔ ∃ m ∈ pc.interfaces, x ∈ m.pif :: m.alterIfs := by
  simp [ifs, mem_flatMap]

theorem WellFormed.node (hw : pc.WellFormed) (hp : pif ∈ pc.ifs) :
    ∃ pre m post, NodeOf pc pre m post pif := by
  obtain ⟨m, hm, hpm⟩ := mem_ifs.mp hp
  obtain ⟨pre, post, heq⟩ := append_of_mem hm
  have hnum : m.pif.ifNum = pif.ifNum := by
    rcases mem_cons.mp hpm with rfl | ha
    · rfl
    · exact (hw.alters m hm pif ha).1.symm
  have hnums := hw.ifNums
  have hids := hw.ids
  rw [ifs] at hids
  rw [heq] at hnums hids
  simp only [map_append, map_cons, nodup_append, nodup_cons,
    flatMap_append, flatMap_cons] at hnums hids
  obtain ⟨-, ⟨hpost, -⟩, hpre⟩ := hnums
  obtain ⟨-, ⟨⟨hmain, halt⟩, -, hid2⟩, hid1⟩ := hids
  have hothers : ∀ n ∈ pre ++ post, n.pif.ifNum ≠ pif.ifNum := by
    intro n hn he
    rcases mem_append.mp hn with hn | hn
    · exact hpre _ (mem_map_of_mem hn) m.pif.ifNum (by simp) (he.trans hnum.symm)
    · exact hpost (hnum.trans he.symm ▸ mem_map_of_mem hn)
  refine ⟨pre, m, post, heq, hnum, ?_, hothers, mem_cons.mp hpm, ?_, ?_, halt⟩
  · rw [heq, find?_append, find?_eq_none.mpr]
    · simp [hnum]
    · intro n hn
      simpa using hothers n (mem_append_left _ hn)
  · intro n hn x hx y hy he
    have hy' : y.id ∈ (m.pif :: m.alterIfs).map (·.id) := mem_map_of_mem hy
    rcases mem_append.mp hn with hn | hn
    · refine hid1 x.id (mem_map_of_mem (mem_flatMap.mpr ⟨n, hn, hx⟩)) x.id ?_ rfl
      rw [he]
      exact mem_append_left _ hy'
    · refine hid2 y.id hy' y.id ?_ rfl
      rw [← he]
      exact mem_map_of_mem (mem_flatMap.mpr ⟨n, hn, hx⟩)
  · intro x hx he
    exact hmain (he ▸ mem_map_of_mem hx)

def putIf (y x : PsdInterface) : PsdInterface := if x.id = y.id then y else x

theorem putIf_self (hid : x.id = y.id) : putIf y x = y := if_pos hid

theorem putIf_ne (hid : x.id ≠ y.id) : putIf y x = x := if_neg hid

theorem map_putIf_ne {l : List PsdInterface} (hl : ∀ x ∈ l, x.id ≠ y.id) :
    l.map (putIf y) = l := by
  conv_rhs => rw [← map_id l]
  exact map_congr_left fun x hx => putIf_ne (hl x hx)

theorem map_putIf_putIf (l : List PsdInterface) (hid : x.id = y.id) :
    (l.map (putIf x)).map (putIf y) = l.map (putIf y) := by
  rw [map_map]
  refine map_congr_left fun z _ => ?_
  by_cases hz : z.id = x.id
  · rw [comp_apply, putIf_self hz, putIf_self hid, putIf_self (hz.trans hid)]
  · rw [comp_apply, putIf_ne hz]

theorem filter_putIf (l : List PsdInterface) (hid : x.id = y.id) :
    (l.map (putIf y)).filter (fun z => z.id ≠ x.id) = l.filter fun z => z.id ≠ x.id := by
  induction l with
  | nil => rfl
  | cons z l ih =>
    by_cases hz : z.id = y.id
    · simpa [putIf_self hz, hz, hid] using ih
    · rw [map_cons, putIf_ne hz, filter_cons, filter_cons, ih]

theorem map_put_ne {l : List MainIf} (hl : ∀ n ∈ l, ∀ x ∈ n.pif :: n.alterIfs, x.id ≠ y.id) :
    (l.map fun n => (⟨putIf y n.pif, n.alterIfs.map (putIf y)⟩ : MainIf)) = l := by
  conv_rhs => rw [← map_id l]
  refine map_congr_left fun n hn => ?_
  rw [putIf_ne (hl n hn n.pif (by simp)),
    map_putIf_ne fun x hx => hl n hn x (mem_cons_of_mem _ hx)]
  rfl

def withNode (pc : PsdConfig) (pre : List MainIf) (m : MainIf) (post : List MainIf) : PsdConfig :=
  { pc with interfaces := pre ++ m :: post }

theorem put_withNode (hl : ∀ n ∈ pre ++ post, ∀ x ∈ n.pif :: n.alterIfs, x.id ≠ y.id) :
    (pc.withNode pre m post).put y =
      pc.withNode pre ⟨putIf y m.pif, m.alterIfs.map (putIf y)⟩ post := by
  have hpre := map_put_ne (l := pre) fun n hn => hl n (mem_append_left _ hn)
  have hpost := map_put_ne (l := post) fun n hn => hl n (mem_append_right _ hn)
  have hput : (pc.withNode pre m post).put y = { pc with
      interfaces := (pre ++ m :: post).map fun n =>
        (⟨putIf y n.pif, n.alterIfs.map (putIf y)⟩ : MainIf) } := rfl
  rw [hput, map_append, map_cons, hpre, hpost]
  rfl

namespace NodeOf

section

variable (hn : NodeOf pc pre m post pif)
include hn

theorem withNode_eq : pc.withNode pre m post = pc := by
  unfold withNode
  rw [← hn.eq]

theorem mem_alters (hne : m.pif.id ≠ pif.id) :
    pif ∈ m.alterIfs := by
  rcases hn.mem with he | ha
  · exact absurd (he ▸ rfl) hne
  · exact ha

theorem fresh (hy : y ∈ m.pif :: m.alterIfs)
    (hid : c.id = y.id) (n : MainIf) (hmem : n ∈ pre ++ post) (x : PsdInterface)
    (hx : x ∈ n.pif :: n.alterIfs) : x.id ≠ c.id := by
  rw [hid]
  exact hn.ids n hmem x hx y hy

theorem eq_of_id (hx : x ∈ m.alterIfs) (hy : y ∈ m.alterIfs)
    (hid : x.id = y.id) : x = y :=
  inj_on_of_nodup_map hn.alters hx hy hid

end

variable {p c₁ p₁ : PsdInterface}

section

variable (hn : NodeOf pc pre m post pif) (hne : m.pif.id ≠ pif.id)
include hn hne

theorem put_main_alter (hc : c.id = m.pif.id) (hp : p.id = pif.id) (hc₁ : c₁.id = m.pif.id) (hp₁ : p₁.id = pif.id) :
    ((pc.withNode pre ⟨c, m.alterIfs.map (putIf p)⟩ post).put c₁).put p₁ =
        pc.withNode pre ⟨c₁, m.alterIfs.map (putIf p₁)⟩ post ∧
      ((pc.withNode pre ⟨c, m.alterIfs.map (putIf p)⟩ post).put p₁).put c₁ =
        pc.withNode pre ⟨c₁, m.alterIfs.map (putIf p₁)⟩ post := by
  have hpm := hn.mem_alters hne
  have hfc := hn.fresh (y := m.pif) (c := c₁) (by simp) hc₁
  have hfp := hn.fresh (y := pif) (c := p₁) (by simp [hpm]) hp₁
  have hcc : c.id = c₁.id := hc.trans hc₁.symm
  have hcp : c.id ≠ p₁.id := by rwa [hc, hp₁]
  have hcp₁ : c₁.id ≠ p₁.id := by rwa [hc₁, hp₁]
  have halt {q : PsdInterface} (hq : q.id = pif.id) :
      ∀ x ∈ m.alterIfs.map (putIf q), x.id ≠ c₁.id := by
    intro x hx
    obtain ⟨z, hz, rfl⟩ := mem_map.mp hx
    unfold putIf
    split
    · rw [hq, hc₁]
      exact hne.symm
    · rw [hc₁]
      exact hn.main z hz
  refine ⟨?_, ?_⟩
  · rw [put_withNode hfc, putIf_self hcc, map_putIf_ne (halt hp), put_withNode hfp,
      putIf_ne hcp₁, map_putIf_putIf _ (hp.trans hp₁.symm)]
  · rw [put_withNode hfp, putIf_ne hcp, map_putIf_putIf _ (hp.trans hp₁.symm), put_withNode hfc,
      putIf_self hcc, map_putIf_ne (halt hp₁)]

theorem withNode_self :
    pc.withNode pre ⟨m.pif, m.alterIfs.map (putIf pif)⟩ post = pc := by
  have hself : m.alterIfs.map (putIf pif) = m.alterIfs := by
    conv_rhs => rw [← map_id m.alterIfs]
    refine map_congr_left fun x hx => ?_
    by_cases hid : x.id = pif.id
    · rw [putIf_self hid, hn.eq_of_id hx (hn.mem_alters hne) hid]
      rfl
    · exact putIf_ne hid
  rw [hself, hn.withNode_eq]

theorem put_put (hc : c.id = m.pif.id) (hp : p.id = pif.id) :
    (pc.put c).put p = pc.withNode pre ⟨c, m.alterIfs.map (putIf p)⟩ post := by
  have := (hn.put_main_alter (c := m.pif) (p := pif) hne rfl rfl hc hp).1
  rwa [hn.withNode_self hne] at this

theorem resort (hc : c.id = m.pif.id)
    (hp : p.id = pif.id) :
    (pc.withNode pre ⟨c, m.alterIfs.map (putIf p)⟩ post).resort c p = pc.withNode pre
      ⟨{ p with parentIf := none, clsBinding := c.clsBinding, ifBinding := c.ifBinding },
        (m.alterIfs.filter fun x => x.id ≠ pif.id).map (fun x => { x with parentIf := some pif.id })
          ++ [{ c with ifBinding := none, clsBinding := none, parentIf := some pif.id }]⟩ post := by
  have hpm := hn.mem_alters hne
  have hpif (n : MainIf) (hmem : n ∈ pre ++ post) (x : PsdInterface) (hx : x ∈ n.pif :: n.alterIfs) :
      x.id ≠ p.id := hn.fresh (y := pif) (by simp [hpm]) hp n hmem x hx
  have hcif (n : MainIf) (hmem : n ∈ pre ++ post) : n.pif.id ≠ c.id :=
    hn.fresh (y := m.pif) (by simp) hc n hmem n.pif (by simp)
  have hcp : c.id ≠ p.id := by rwa [hc, hp]
  -- `pif` is no main interface, so it has no alternates of its own
  have hfind : (pre ++ ⟨c, m.alterIfs.map (putIf p)⟩ :: post).find? (fun n => n.pif.id = p.id) =
      none := by
    rw [find?_eq_none]
    intro n hmem
    rcases mem_append.mp hmem with hmem | hmem
    · simpa using hpif n (mem_append_left _ hmem) n.pif (by simp)
    · rcases mem_cons.mp hmem with rfl | hmem
      · simpa using hcp
      · simpa using hpif n (mem_append_right _ hmem) n.pif (by simp)
  have hfilter : (pre ++ ⟨c, m.alterIfs.map (putIf p)⟩ :: post).filter (fun n => n.pif.id ≠ p.id) =
      pre ++ ⟨c, m.alterIfs.map (putIf p)⟩ :: post := by
    rw [filter_eq_self]
    intro n hmem
    simpa using find?_eq_none.mp hfind n hmem
  have hside (l : List MainIf) (hl : ∀ n ∈ l, n ∈ pre ++ post) :
      (l.map fun n => ({ n with alterIfs := n.alterIfs.filter fun x => x.id ≠ p.id } : MainIf)) =
        l := by
    conv_rhs => rw [← map_id l]
    refine map_congr_left fun n hmem => ?_
    have : n.alterIfs.filter (fun x => x.id ≠ p.id) = n.alterIfs := by
      rw [filter_eq_self]
      intro x hx
      simpa using hpif n (hl n hmem) x (mem_cons_of_mem _ hx)
    rw [this]
    rfl
  have hside' (l : List MainIf) (hl : ∀ n ∈ l, n ∈ pre ++ post) (k : MainIf → MainIf) :
      (l.map fun n => if n.pif.id = c.id then k n else n) = l := by
    conv_rhs => rw [← map_id l]
    exact map_congr_left fun n hmem => if_neg (hcif n (hl n hmem))
  have halt : (m.alterIfs.map (putIf p)).filter (fun x => x.id ≠ p.id) =
      m.alterIfs.filter fun x => x.id ≠ pif.id := by
    rw [hp]
    exact filter_putIf m.alterIfs hp.symm
  unfold PsdConfig.resort withNode
  dsimp only
  rw [hfind, hfilter, map_append, map_cons, hside pre (by simp_all),
    hside post (by simp_all), map_append, map_cons]
  rw [if_pos rfl, halt, hside' pre (by simp_all), hside' post (by simp_all), hp]
  rfl

end

end NodeOf

theorem withNode_bare {p : PsdInterface} (hn : NodeOf pc pre m post pif)
    (hne : m.pif.id ≠ pif.id) (hc : c.bare = m.pif.bare) (hp : p.bare = pif.bare) :
    (pc.withNode pre ⟨c, m.alterIfs.map (putIf p)⟩ post).bare = pc.bare := by
  have halt : (m.alterIfs.map (putIf p)).map (·.bare) = m.alterIfs.map (·.bare) := by
    rw [map_map]
    refine map_congr_left fun x hx => ?_
    have hpid : p.id = pif.id := PsdInterface.id_of_bare hp
    by_cases hid : x.id = p.id
    · rw [comp_apply, putIf_self hid, hp,
        hn.eq_of_id hx (hn.mem_alters hne) (hid.trans hpid)]
    · rw [comp_apply, putIf_ne hid]
  unfold bare withNode
  rw [hn.eq]
  simp only [map_append, map_cons, hc, halt]

theorem currentValid_withNode (hn : NodeOf pc pre m post pif) (hc : m'.pif.ifNum = pif.ifNum) :
    (pc.withNode pre m' post).CurrentValid h pif.ifNum ↔
      ∀ pep ∈ m'.pif.eps, h.Holds pep → pep.HasToken h := by
  constructor
  · intro hv
    exact hv m' (by simp [withNode]) hc
  · intro hv n hmem hnum
    rcases mem_append.mp hmem with hmem | hmem
    · exact absurd hnum (hn.ifNums n (mem_append_left _ hmem))
    · rcases mem_cons.mp hmem with rfl | hmem
      · exact hv
      · exact absurd hnum (hn.ifNums n (mem_append_right _ hmem))

end PsdConfig

variable {curif pif : PsdInterface} {h : Hcd} {o : Change} {pep : PsdEndpoint}

theorem setTokens_clear (peps : List PsdEndpoint) (ts : List ℕ) :
    (setTokens peps ts).1.map (·.clear) = peps.map (·.clear) := by
  induction peps generalizing ts with
  | nil => cases ts <;> rfl
  | cons pep peps ih =>
    cases ts with
    | nil => rfl
    | cons t ts =>
      simp only [setTokens, map_cons, ih ts]
      rfl

theorem PsdInterface.setTokens_bare (pif : PsdInterface) (ts : List ℕ) :
    (pif.setTokens ts).bare = pif.bare := by
  unfold bare clear setTokens
  rw [setTokens_clear]

theorem PsdInterface.setTokens_nil (pif : PsdInterface) : pif.setTokens [] = pif := by
  obtain ⟨_, _, _, _, eps, _, _, _⟩ := pif
  cases eps <;> rfl

theorem PsdInterface.clear_bare (pif : PsdInterface) : pif.clear.bare = pif.bare := by
  unfold bare clear
  simp only [map_map]
  rfl

theorem PsdInterface.dropClear_bare (pif : PsdInterface) : pif.dropClear.bare = pif.bare := by
  unfold dropClear
  split
  · rfl
  · exact pif.clear_bare

theorem setTokens_mem {peps : List PsdEndpoint} {ts : List ℕ} (hl : ts.length = peps.length)
    (hp : pep ∈ (setTokens peps ts).1) :
    ∃ t, pep.token = some t ∧ ⟨pep.desc, t⟩ ∈ zipWith Held.mk (peps.map (·.desc)) ts := by
  induction peps generalizing ts with
  | nil => cases ts <;> simp [setTokens] at hp
  | cons q peps ih =>
    cases ts with
    | nil => simp at hl
    | cons t ts =>
      simp only [setTokens, mem_cons] at hp
      rcases hp with rfl | hp
      · exact ⟨t, rfl, by simp⟩
      · obtain ⟨t', h1, h2⟩ := ih (by simpa using hl) hp
        exact ⟨t', h1, by simp [h2]⟩

variable {drops : List ℕ} {ds : List UhcdEndpointDesc}

theorem mem_zip_desc {ts : List ℕ} {x : Held}
    (hx : x ∈ zipWith Held.mk ds ts) : x.desc ∈ ds := by
  induction ds generalizing ts with
  | nil => simp at hx
  | cons d ds ih =>
    cases ts with
    | nil => simp at hx
    | cons t ts =>
      rw [zipWith_cons_cons, mem_cons] at hx
      rcases hx with rfl | hx
      · simp
      · exact mem_cons_of_mem _ (ih hx)

theorem PsdInterface.setTokens_hasToken
    (hp : pep ∈ (pif.setTokens (h.change drops pif.descs).2).eps) :
    pep.HasToken (h.change drops pif.descs).1 := by
  have hl : (h.change drops pif.descs).2.length = pif.eps.length := by
    simp [Hcd.change, Hcd.add, descs]
  obtain ⟨t, h1, h2⟩ := setTokens_mem hl hp
  exact ⟨t, h1, mem_append_right _ h2⟩

theorem Hcd.mem_change {x : Held} :
    x ∈ (h.change drops ds).1.held ↔ (x ∈ h.held ∧ x.desc.address ∉ drops) ∨
      x ∈ zipWith Held.mk ds (range' h.next ds.length) := by
  simp [change, add, mem_filter]

theorem PsdEndpoint.hasToken_change
    (hv : h.Holds pep → pep.HasToken h) (hd : pep.desc ∉ ds)
    (hh : (h.change drops ds).1.Holds pep) : pep.HasToken (h.change drops ds).1 := by
  obtain ⟨x, hx, he⟩ := hh
  rcases Hcd.mem_change.mp hx with ⟨hx, ha⟩ | hx
  · obtain ⟨t, ht, hm⟩ := hv ⟨x, hx, he⟩
    exact ⟨t, ht, Hcd.mem_change.mpr (Or.inl ⟨hm, he ▸ ha⟩)⟩
  · exact absurd (he ▸ mem_zip_desc hx) hd

def Issued (curif pif : PsdInterface) (o : Change) : Prop :=
  (curif.numEPs ≠ 0 ∨ pif.numEPs ≠ 0) ∧ (pif.numEPs ≠ 0 → o.eds = true) ∧
    (curif.numEPs ≠ 0 → o.drops = true)

theorem pContextSetInterface_cases (curif pif : PsdInterface) (h : Hcd) (o : Change) :
    (curif.numEPs = 0 ∧ pif.numEPs = 0 ∧
      pContextSetInterface curif pif h o = (0, (curif, pif), h)) ∨
    (¬ Issued curif pif o ∧
      pContextSetInterface curif pif h o = (UHIOERR_OUTOFMEMORY, (curif, pif), h)) ∨
    (Issued curif pif o ∧ o.ioerr ≠ 0 ∧
      pContextSetInterface curif pif h o = (o.ioerr, (curif.dropClear, pif), h)) ∨
    (Issued curif pif o ∧ o.ioerr = 0 ∧
      pContextSetInterface curif pif h o =
        (0, (curif.dropClear, pif.setTokens (h.change curif.drops pif.adds).2),
          (h.change curif.drops pif.adds).1)) := by
  unfold pContextSetInterface Issued
  by_cases h1 : pif.numEPs = 0 ∧ curif.numEPs = 0
  · exact Or.inl ⟨h1.2, h1.1, if_pos h1⟩
  rw [if_neg h1]
  by_cases h2 : pif.numEPs ≠ 0 ∧ o.eds = false
  · rw [if_pos h2]
    exact Or.inr (Or.inl ⟨fun hi => by simp [h2.2] at hi; exact h2.1 hi.2.1, rfl⟩)
  rw [if_neg h2]
  by_cases h3 : curif.numEPs ≠ 0 ∧ o.drops = false
  · rw [if_pos h3]
    exact Or.inr (Or.inl ⟨fun hi => by simp [h3.2] at hi; exact h3.1 hi.2.2, rfl⟩)
  rw [if_neg h3]
  have hi : (curif.numEPs ≠ 0 ∨ pif.numEPs ≠ 0) ∧ (pif.numEPs ≠ 0 → o.eds = true) ∧
      (curif.numEPs ≠ 0 → o.drops = true) := by
    refine ⟨by tauto, fun hp => ?_, fun hc => ?_⟩
    · simpa [hp] using h2
    · simpa [hc] using h3
  by_cases h4 : o.ioerr ≠ 0
  · rw [if_pos h4]
    exact Or.inr (Or.inr (Or.inl ⟨hi, h4, rfl⟩))
  · rw [if_neg h4]
    exact Or.inr (Or.inr (Or.inr ⟨hi, by simpa using h4, rfl⟩))

theorem pContextSetInterface_bare (curif pif : PsdInterface) (h : Hcd) (o : Change) :
    (pContextSetInterface curif pif h o).2.1.1.bare = curif.bare ∧
      (pContextSetInterface curif pif h o).2.1.2.bare = pif.bare := by
  rcases pContextSetInterface_cases curif pif h o with ⟨-, -, hr⟩ | ⟨-, hr⟩ | ⟨-, -, hr⟩ |
    ⟨-, -, hr⟩ <;> rw [hr]
  · exact ⟨rfl, rfl⟩
  · exact ⟨rfl, rfl⟩
  · exact ⟨curif.dropClear_bare, rfl⟩
  · exact ⟨curif.dropClear_bare, pif.setTokens_bare _⟩

def PsdInterface.Valid (pif : PsdInterface) (h : Hcd) : Prop :=
  ∀ pep ∈ pif.eps, h.Holds pep → pep.HasToken h

theorem PsdInterface.clear_valid_iff (pif : PsdInterface) (h : Hcd) :
    pif.clear.Valid h ↔ ∀ pep ∈ pif.eps, ¬ h.Holds pep := by
  constructor
  · intro hv pep hp hh
    obtain ⟨t, ht, -⟩ := hv pep.clear (mem_map_of_mem hp) hh
    cases ht
  · intro hv pep hp hh
    obtain ⟨q, hq, rfl⟩ := mem_map.mp hp
    exact absurd hh (hv q hq)

theorem PsdInterface.dropClear_valid (hd : ∀ pep ∈ curif.eps, pep.desc ∉ pif.adds)
    (hv : curif.Valid h) : curif.dropClear.Valid (h.change curif.drops pif.adds).1 := by
  unfold dropClear drops
  split
  · intro pep hp hh
    exact PsdEndpoint.hasToken_change (hv pep hp) (hd pep hp) hh
  · rw [clear_valid_iff]
    rintro pep hp ⟨x, hx, he⟩
    rcases Hcd.mem_change.mp hx with ⟨-, ha⟩ | hx
    · exact ha (he ▸ mem_map_of_mem hp)
    · exact hd pep hp (he ▸ mem_zip_desc hx)

theorem PsdInterface.back_valid (hd : ∀ pep ∈ curif.eps, pep.desc ∉ pif.adds)
    (hv : curif.Valid h) (p : PsdInterface) (hp : p.numEPs = pif.numEPs) (o : Change)
    (hne : ¬ (curif.numEPs = 0 ∧ pif.numEPs = 0)) :
    (pContextSetInterface p curif.dropClear (h.change curif.drops pif.adds).1 o).2.1.2.Valid
      (pContextSetInterface p curif.dropClear (h.change curif.drops pif.adds).1 o).2.2 := by
  have hv1 := dropClear_valid hd hv
  have hnum : curif.dropClear.numEPs = curif.numEPs := by
    unfold dropClear
    split <;> rfl
  generalize (h.change curif.drops pif.adds).1 = h1 at hv1
  rcases pContextSetInterface_cases p curif.dropClear h1 o with ⟨h2, h3, -⟩ | ⟨-, hr⟩ |
    ⟨-, -, hr⟩ | ⟨-, -, hr⟩
  · exact absurd ⟨hnum ▸ h3, hp ▸ h2⟩ hne
  · rwa [hr]
  · rwa [hr]
  · rw [hr]
    by_cases h0 : curif.numEPs = 0
    · -- nothing is added, and `curif` is as it was
      have hadds : curif.dropClear.adds = [] := by
        unfold adds
        rw [if_pos (hnum.trans h0)]
      rw [hadds]
      have htok : curif.dropClear.setTokens (h1.change p.drops []).2 = curif.dropClear :=
        setTokens_nil _
      rw [htok]
      intro pep hmem hh
      exact PsdEndpoint.hasToken_change (hv1 pep hmem) (by simp) hh
    · have hadds : curif.dropClear.adds = curif.dropClear.descs := by
        unfold adds
        rw [if_neg (by rwa [hnum])]
      rw [hadds]
      exact fun pep hmem _ => setTokens_hasToken hmem

namespace PsdConfig

variable {pc : PsdConfig} {pre post : List MainIf} {m m' : MainIf} {c p : PsdInterface} {h' : Hcd}

namespace NodeOf

section

variable (hn : NodeOf pc pre m post pif)
include hn

theorem unique (hm : m' ∈ pc.interfaces)
    (hnum : m'.pif.ifNum = pif.ifNum) : m' = m := by
  rw [hn.eq] at hm
  rcases mem_append.mp hm with hm | hm
  · exact absurd hnum (hn.ifNums m' (mem_append_left _ hm))
  · rcases mem_cons.mp hm with rfl | hm
    · rfl
    · exact absurd hnum (hn.ifNums m' (mem_append_right _ hm))

theorem currentValid :
    pc.CurrentValid h pif.ifNum ↔ m.pif.Valid h := by
  have := currentValid_withNode (h := h) hn hn.ifNum
  rwa [hn.withNode_eq] at this

theorem unchanged (hne : m.pif.id ≠ pif.id)
    (hc : c.bare = m.pif.bare) (hp : p.bare = pif.bare) (hv : m.pif.Valid h → c.Valid h') :
    (pc.withNode pre ⟨c, m.alterIfs.map (putIf p)⟩ post).bare = pc.bare ∧
      (pc.CurrentValid h pif.ifNum →
        (pc.withNode pre ⟨c, m.alterIfs.map (putIf p)⟩ post).CurrentValid h' pif.ifNum) := by
  have hnum : c.ifNum = pif.ifNum := by
    have : c.bare.ifNum = m.pif.bare.ifNum := by rw [hc]
    exact this.trans hn.ifNum
  refine ⟨withNode_bare hn hne hc hp, fun h0 => ?_⟩
  exact (currentValid_withNode hn hnum).mpr (hv (hn.currentValid.mp h0))

theorem switched (hne : m.pif.id ≠ pif.id)
    (hc : c.bare = m.pif.bare) (hp : p.bare = pif.bare) :
    pc.Switched ((pc.withNode pre ⟨c, m.alterIfs.map (putIf p)⟩ post).resort c p) pif := by
  have hcls : c.clsBinding = m.pif.clsBinding := by
    have : c.bare.clsBinding = m.pif.bare.clsBinding := by rw [hc]
    exact this
  have hbind : c.ifBinding = m.pif.ifBinding := by
    have : c.bare.ifBinding = m.pif.bare.ifBinding := by rw [hc]
    exact this
  rw [hn.resort hne (PsdInterface.id_of_bare hc) (PsdInterface.id_of_bare hp)]
  refine ⟨pre, m, post, hn.eq, hn.ifNum, hn.mem_alters hne, _, _, rfl, ?_, ?_⟩
  · rw [← hp, ← hcls, ← hbind]
    rfl
  · rw [← hc]
    rfl

end

end NodeOf

def AllOrNothing (pc : PsdConfig) (h : Hcd) (pp : Bool) (pif : PsdInterface) (o : AltOutcome) :
    Prop :=
  let r := psdSetAltInterface pc h pp pif o
  (r.1 = true → pc.Switched r.2.1 pif ∨ pc.Stays r.2.1 pif) ∧
    (r.1 = false → r.2.1.bare = pc.bare ∧
      (pc.CurrentValid h pif.ifNum → r.2.1.CurrentValid r.2.2 pif.ifNum))

def SwitchLost (pc : PsdConfig) (h : Hcd) (pp : Bool) (pif : PsdInterface) (o : AltOutcome) :
    Prop :=
  pp = true ∧ ∃ m ∈ pc.interfaces, m.pif.ifNum = pif.ifNum ∧ m.pif.id ≠ pif.id ∧
    m.pif.numEPs ≠ 0 ∧ Issued m.pif pif o.switch ∧ o.switch.ioerr ≠ 0 ∧ m.pif.Valid h ∧
    ∃ pep ∈ m.pif.eps, h.Holds pep

theorem WellFormed.desc_ne {x y : PsdInterface} (hw : pc.WellFormed) (hx : x ∈ pc.ifs)
    (hy : y ∈ pc.ifs) (hne : x.id ≠ y.id) : ∀ pep ∈ x.eps, pep.desc ∉ y.adds := by
  have hnd := hw.peps
  rw [eps, map_flatMap, nodup_flatMap] at hnd
  have hxy : x ≠ y := fun he => hne (he ▸ rfl)
  have hsymm : Std.Symm (onFun List.Disjoint
      fun z : PsdInterface => z.eps.map (·.desc)) := ⟨fun _ _ hd _ h1 h2 => hd h2 h1⟩
  have hdis := hnd.2.forall hx hy hxy
  intro pep hp hmem
  unfold PsdInterface.adds at hmem
  split at hmem
  · cases hmem
  · exact hdis (mem_map_of_mem hp) hmem

variable {o : AltOutcome}

theorem NodeOf.not_lost (hn : NodeOf pc pre m post pif) {pp : Bool}
    (hl : pc.SwitchLost h pp pif o) : m.pif.id ≠ pif.id ∧ m.pif.numEPs ≠ 0 ∧
      Issued m.pif pif o.switch ∧ o.switch.ioerr ≠ 0 := by
  obtain ⟨-, m', hm', hnum, h1, h2, h3, h4, -⟩ := hl
  rw [hn.unique hm' hnum] at h1 h2 h3
  exact ⟨h1, h2, h3, h4⟩

theorem psdSetAltInterface_switched {pp : Bool} (hw : pc.WellFormed)
    (hp : pif ∈ pc.ifs) (hn : NodeOf pc pre m post pif)
    (hc : ¬ (pp = true ∧ m.pif.id ≠ pif.id ∧ Issued m.pif pif o.switch ∧ o.switch.ioerr ≠ 0)) :
    pc.AllOrNothing h pp pif o := by
  unfold AllOrNothing psdSetAltInterface
  rw [hn.find]
  dsimp only
  by_cases hne : m.pif.id = pif.id
  · rw [if_pos hne]
    have hm : m ∈ pc.interfaces := by simp [hn.eq]
    have hself : pif = m.pif := hn.mem.resolve_right fun ha => hn.main pif ha hne.symm
    refine ⟨fun _ => Or.inr ⟨rfl, m, hm, hself.symm, fun x hx => ?_⟩, by simp⟩
    rw [← hne]
    exact (hw.alters m hm x hx).2
  rw [if_neg hne]
  cases pp with
  | false =>
    simp only [Bool.false_eq_true, if_false]
    split
    · refine ⟨fun _ => Or.inl ?_, by simp⟩
      have := hn.switched hne (c := m.pif) (p := pif) rfl rfl
      rwa [hn.withNode_self hne] at this
    · exact ⟨by simp, fun _ => ⟨rfl, id⟩⟩
  | true =>
    have hd := hw.desc_ne (y := pif) (mem_ifs.mpr ⟨m, by simp [hn.eq], by simp⟩) hp hne
    simp only [if_true]
    rcases pContextSetInterface_cases m.pif pif h o.switch with ⟨h1, h2, hr⟩ | ⟨-, hr⟩ |
      ⟨hi, he, -⟩ | ⟨hi, -, hr⟩
    · -- neither has endpoints: the driver is not asked, also not for the way back
      rw [hr]
      rw [hn.put_put hne rfl rfl]
      simp only [ne_eq, not_true_eq_false, if_false]
      split
      · exact ⟨fun _ => Or.inl (hn.switched hne rfl rfl), by simp⟩
      · have hback : pContextSetInterface pif m.pif h o.back = (0, (pif, m.pif), h) := by
          simp [pContextSetInterface, h1, h2]
        rw [hback]
        rw [(hn.put_main_alter hne rfl rfl rfl rfl).2]
        exact ⟨by simp, fun _ => hn.unchanged hne rfl rfl id⟩
    · rw [hr]
      dsimp only
      rw [hn.put_put hne rfl rfl, if_pos (by decide)]
      exact ⟨by simp, fun _ => hn.unchanged hne rfl rfl id⟩
    · exact absurd ⟨rfl, hne, hi, he⟩ hc
    · rw [hr]
      have hcb := m.pif.dropClear_bare
      have hpb := pif.setTokens_bare (h.change m.pif.drops pif.adds).2
      have hcid := PsdInterface.id_of_bare hcb
      have hpid := PsdInterface.id_of_bare hpb
      rw [hn.put_put hne hcid hpid]
      simp only [ne_eq, not_true_eq_false, if_false]
      split
      · exact ⟨fun _ => Or.inl (hn.switched hne hcb hpb), by simp⟩
      · have hnum : ¬ (m.pif.numEPs = 0 ∧ pif.numEPs = 0) := fun h0 => by
          rcases hi.1 with h1 | h1
          · exact h1 h0.1
          · exact h1 h0.2
        have hback := fun hv : m.pif.Valid h => PsdInterface.back_valid hd hv
          (pif.setTokens (h.change m.pif.drops pif.adds).2) rfl o.back hnum
        obtain ⟨hb1, hb2⟩ := pContextSetInterface_bare
          (pif.setTokens (h.change m.pif.drops pif.adds).2) m.pif.dropClear
          (h.change m.pif.drops pif.adds).1 o.back
        generalize pContextSetInterface (pif.setTokens (h.change m.pif.drops pif.adds).2)
          m.pif.dropClear (h.change m.pif.drops pif.adds).1 o.back = x at hback hb1 hb2
        have hb1 := hb1.trans hpb
        have hb2 := hb2.trans hcb
        rw [(hn.put_main_alter hne hcid hpid (PsdInterface.id_of_bare hb2)
          (PsdInterface.id_of_bare hb1)).2]
        exact ⟨by simp, fun _ => hn.unchanged hne hb2 hb1 hback⟩

theorem psdSetAltInterface_failed (hn : NodeOf pc pre m post pif)
    (hne : m.pif.id ≠ pif.id) (hi : Issued m.pif pif o.switch) (he : o.switch.ioerr ≠ 0) :
    psdSetAltInterface pc h true pif o =
      (false, pc.withNode pre ⟨m.pif.dropClear, m.alterIfs.map (putIf pif)⟩ post, h) := by
  unfold psdSetAltInterface
  rw [hn.find]
  dsimp only
  rw [if_neg hne, if_pos rfl]
  rcases pContextSetInterface_cases m.pif pif h o.switch with ⟨h1, h2, -⟩ | ⟨h1, -⟩ |
    ⟨-, -, hr⟩ | ⟨-, h1, -⟩
  · rcases hi.1 with h0 | h0
    · exact absurd h1 h0
    · exact absurd h2 h0
  · exact absurd hi h1
  · rw [hr]
    rw [if_pos he, hn.put_put hne (PsdInterface.id_of_bare m.pif.dropClear_bare) rfl]
  · exact absurd h1 he

/-- The switch is all or nothing, but when the first op fails under the current alternate. -/
theorem alt_all_or_nothing_iff (hw : pc.WellFormed) (hp : pif ∈ pc.ifs) (h : Hcd) (pp : Bool)
    (o : AltOutcome) : pc.AllOrNothing h pp pif o ↔ ¬ pc.SwitchLost h pp pif o := by
  obtain ⟨pre, m, post, hn⟩ := hw.node hp
  by_cases hc : pp = true ∧ m.pif.id ≠ pif.id ∧ Issued m.pif pif o.switch ∧ o.switch.ioerr ≠ 0
  · obtain ⟨rfl, hne, hi, he⟩ := hc
    have hfail := psdSetAltInterface_failed (h := h) hn hne hi he
    have hbare := withNode_bare (c := m.pif.dropClear) (p := pif) hn hne m.pif.dropClear_bare rfl
    have hnum : m.pif.dropClear.ifNum = pif.ifNum := by
      unfold PsdInterface.dropClear
      split <;> exact hn.ifNum
    have hiff : pc.AllOrNothing h true pif o ↔ (m.pif.Valid h → m.pif.dropClear.Valid h) := by
      unfold AllOrNothing
      rw [hfail]
      dsimp only
      rw [hn.currentValid, currentValid_withNode hn hnum]
      exact ⟨fun ha => (ha.2 rfl).2, fun hv => ⟨by simp, fun _ => ⟨hbare, hv⟩⟩⟩
    rw [hiff]
    unfold SwitchLost PsdInterface.dropClear
    split
    · rename_i h0
      refine iff_of_true id ?_
      rintro ⟨-, m', hm', hnum', -, hne0, -⟩
      rw [hn.unique hm' hnum'] at hne0
      exact hne0 h0
    · rename_i h0
      rw [PsdInterface.clear_valid_iff]
      constructor
      · rintro hv ⟨-, m', hm', hnum', -, -, -, -, hval, pep, hpep, hh⟩
        rw [hn.unique hm' hnum'] at hval hpep
        exact hv hval pep hpep hh
      · intro hl hval pep hpep hh
        exact hl ⟨rfl, m, by simp [hn.eq], hn.ifNum, hne, h0, hi, he, hval, pep, hpep, hh⟩
  · refine iff_of_true (psdSetAltInterface_switched hw hp hn hc) ?_
    intro hl
    obtain ⟨h1, -, h3, h4⟩ := hn.not_lost hl
    exact hc ⟨hl.1, h1, h3, h4⟩

def camera : PsdConfig :=
  ⟨1, [⟨⟨10, 0, 0, 1, [⟨⟨1, 0x81⟩, some 7, 0, 0⟩], some 5, some 6, none⟩,
    [⟨11, 0, 1, 1, [⟨⟨2, 0x81⟩, none, 0, 0⟩], none, none, some 10⟩]⟩]⟩

def alternate1 : PsdInterface := ⟨11, 0, 1, 1, [⟨⟨2, 0x81⟩, none, 0, 0⟩], none, none, some 10⟩

def held0 : Hcd := ⟨[⟨⟨1, 0x81⟩, 7⟩], 8⟩

theorem camera_wellFormed : camera.WellFormed := by
  refine ⟨by decide, ?_, by decide, by decide⟩
  intro m hm x hx
  obtain rfl := mem_singleton.mp hm
  obtain rfl := mem_singleton.mp hx
  exact ⟨rfl, rfl⟩

/-- The switch and its wire request succeed. -/
theorem alt_all_or_nothing_camera :
    camera.AllOrNothing held0 true alternate1 ⟨⟨true, true, 0⟩, 0, 0, 1, ⟨true, true, 0⟩⟩ ↔
      ¬ camera.SwitchLost held0 true alternate1 ⟨⟨true, true, 0⟩, 0, 0, 1, ⟨true, true, 0⟩⟩ :=
  alt_all_or_nothing_iff camera_wellFormed (by decide) held0 true _

/-- The op fails, and the current alternate has lost the token of an endpoint the driver
holds. -/
theorem alt_not_all_or_nothing :
    camera.WellFormed ∧ alternate1 ∈ camera.ifs ∧ camera.CurrentValid held0 0 ∧
      ¬ camera.AllOrNothing held0 true alternate1 ⟨⟨true, true, 14⟩, 0, 0, 1, ⟨true, true, 0⟩⟩ := by
  have hv : camera.CurrentValid held0 0 := by
    intro m hm _ pep hp _
    obtain rfl := mem_singleton.mp hm
    obtain rfl := mem_singleton.mp hp
    exact ⟨7, rfl, by decide⟩
  refine ⟨camera_wellFormed, by decide, hv, fun ha => ?_⟩
  obtain ⟨t, ht, -⟩ := (ha.2 rfl).2 hv _ (mem_singleton.mpr rfl) rfl ⟨⟨1, 0x81⟩, none, 0, 0⟩
    (by decide) ⟨⟨⟨1, 0x81⟩, 7⟩, by decide, rfl⟩
  cases ht

end PsdConfig

end Neptune
