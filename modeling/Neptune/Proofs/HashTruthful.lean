import Neptune.Spec.CfgSaved

/-! When the hash of the saved settings tells what is on disk. -/

namespace Neptune.CfgSaved

open Option

open Migrate PsdBase Runs

section calls

variable {ps ps' : PsdBase}

/-- A check leaves the settings and what is on disk, and brings the hash up to date. -/
structure Checked (ps ps' : PsdBase) : Prop where
  root : ps'.root = ps.root
  disk : ps'.disk = ps.disk
  saved : ps'.savedConfigHash = ps.savedConfigHash
  req : ps'.checkConfigReq = false
  hash : ∀ root ∈ ps.root, ps'.configHash = pCalcCfgCRC root

theorem pCheckCfgChanged_checked (ps : PsdBase) (ok ok' : Bool) : Checked ps (ps.pCheckCfgChanged ok ok') := by
  obtain ⟨root, globalCfg, insertSnd, removeSnd, checkConfigReq, configHash, savedConfigHash, disk⟩ := ps
  cases root with
  | none => exact ⟨rfl, rfl, rfl, rfl, nofun⟩
  | some root =>
    unfold pCheckCfgChanged
    dsimp only
    split
    · split
      · exact ⟨rfl, rfl, rfl, rfl, fun _ h => some.inj h ▸ rfl⟩
      · exact ⟨rfl, rfl, rfl, rfl, fun _ h => some.inj h ▸ rfl⟩
    · next h => exact ⟨rfl, rfl, rfl, rfl, fun _ hr => some.inj hr ▸ (not_not.mp h).symm⟩

/-- What a change leaves: the hashes and what is on disk, and it asks for a check unless it leaves the tree too. -/
structure Changed (ps ps' : PsdBase) : Prop where
  disk : ps'.disk = ps.disk
  saved : ps'.savedConfigHash = ps.savedConfigHash
  hash : ps'.configHash = ps.configHash
  kept : ps'.checkConfigReq = false → ps.checkConfigReq = false ∧ ps'.root = ps.root

theorem Changed.refl (ps : PsdBase) : Changed ps ps := ⟨rfl, rfl, rfl, fun h => ⟨h, rfl⟩⟩

theorem changed_of_req {root : Option PsdIFFContext} : Changed ps { ps with root := root, checkConfigReq := true } :=
  ⟨rfl, rfl, rfl, nofun⟩

theorem psdAddCfgEntry_changed {behind : PsdIFFContext → List UInt8} {fuel : ℕ} {mem mem' : List Bool} {pic : CfgForm}
    {formdata : List UInt8} (h : ps.psdAddCfgEntry behind fuel mem mem' pic formdata = some ps') : Changed ps ps' := by
  obtain ⟨⟨root, result⟩, -, h⟩ := bind_eq_some_iff.mp h
  cases result with
  | none =>
    cases h
    exact .refl ps
  | some ok =>
    cases h
    exact changed_of_req

theorem psdReadCfg_changed {fuel : ℕ} {mem : List Bool} {pic : CfgForm} {formdata : List UInt8}
    (h : ps.psdReadCfg fuel mem pic formdata = some ps') : Changed ps ps' := by
  obtain ⟨⟨root, result⟩, -, h⟩ := bind_eq_some_iff.mp h
  cases result with
  | none =>
    cases h
    exact .refl ps
  | some fit =>
    cases fit with
    | false =>
      cases h
      exact .refl ps
    | true =>
      cases h
      exact changed_of_req

theorem psdRemCfgForm_changed {pic : CfgForm} (h : ps.psdRemCfgForm pic = some ps') : Changed ps ps' := by
  cases pic with
  | alien pic =>
    cases h
    exact changed_of_req
  | null =>
    unfold psdRemCfgForm at h
    dsimp only at h
    split at h
    · cases h
      exact changed_of_req
    · cases h
      exact .refl ps
  | form path =>
    obtain ⟨root, -, h⟩ := bind_eq_some_iff.mp h
    split at h
    · cases h
      exact changed_of_req
    · obtain ⟨root', -, h⟩ := bind_eq_some_iff.mp h
      cases h
      exact changed_of_req

theorem changeForm_root {β : Type} {f : PsdIFFContext → Option (PsdIFFContext × β)} {pic : CfgForm} {root : PsdIFFContext}
    {root' : Option PsdIFFContext} {result : Option β} (h : changeForm f pic (some root) = some (root', result)) :
    root'.isSome := by
  cases pic with
  | null | form path | alien pic =>
    obtain ⟨⟨pic, r⟩, -, h⟩ := bind_eq_some_iff.mp h
    cases h
    rfl

theorem psdAddCfgEntry_root {behind : PsdIFFContext → List UInt8} {fuel : ℕ} {mem mem' : List Bool} {pic : CfgForm}
    {formdata : List UInt8} (h : ps.psdAddCfgEntry behind fuel mem mem' pic formdata = some ps') (hroot : ps.root.isSome) :
    ps'.root.isSome := by
  obtain ⟨root, hr⟩ := isSome_iff_exists.mp hroot
  unfold psdAddCfgEntry at h
  rw [hr] at h
  obtain ⟨⟨root', result⟩, hc, h⟩ := bind_eq_some_iff.mp h
  cases result with
  | none =>
    cases h
    exact hroot
  | some ok =>
    cases h
    rw [isSome_map]
    exact changeForm_root hc

theorem psdReadCfg_root {fuel : ℕ} {mem : List Bool} {pic : CfgForm} {formdata : List UInt8}
    (h : ps.psdReadCfg fuel mem pic formdata = some ps') (hroot : ps.root.isSome) : ps'.root.isSome := by
  obtain ⟨root, hr⟩ := isSome_iff_exists.mp hroot
  unfold PsdBase.psdReadCfg at h
  rw [hr] at h
  obtain ⟨⟨root', result⟩, hc, h⟩ := bind_eq_some_iff.mp h
  cases result with
  | none =>
    cases h
    exact hroot
  | some fit =>
    cases fit with
    | false =>
      cases h
      exact hroot
    | true =>
      cases h
      exact changeForm_root hc

theorem psdRemCfgForm_root {pic : CfgForm} (h : ps.psdRemCfgForm pic = some ps') (hok : Orderly ps (.remCfgForm pic))
    (hroot : ps.root.isSome) : ps'.root.isSome := by
  cases pic with
  | alien pic =>
    cases h
    exact hroot
  | null => exact hok.elim
  | form path =>
    obtain ⟨root, -, h⟩ := bind_eq_some_iff.mp h
    rw [if_neg hok] at h
    obtain ⟨root', -, h⟩ := bind_eq_some_iff.mp h
    cases h
    rfl

theorem run_root {fuel : ℕ} {mem : List Bool} {call : CfgCall} {root : PsdIFFContext} {root' : Option PsdIFFContext}
    {result : Bool × List Bool} (h : call.run fuel mem (some root) = some (root', result)) : root'.isSome := by
  cases call with
  | cls owner form | dev owner devid ifid form | forced owner devid ifid =>
    obtain ⟨r, -, h⟩ := bind_eq_some_iff.mp h
    cases h
    rfl

end calls

structure Inv (ps : PsdBase) : Prop where
  root : ps.root.isSome
  written : ∃ tree, ps.disk = some tree ∧ ps.savedConfigHash = pCalcCfgCRC tree
  hash : ps.checkConfigReq = false → ∀ root ∈ ps.root, ps.configHash = pCalcCfgCRC root

section inv

variable {ps ps' : PsdBase}

theorem Synced.inv (h : Synced ps) : Inv ps := by
  obtain ⟨root, hroot, hdisk, -, hhash, hsaved⟩ := h
  refine ⟨hroot ▸ rfl, ⟨root, hdisk, hsaved⟩, fun _ root' hr => ?_⟩
  cases hroot.symm.trans hr
  exact hhash

theorem Inv.changed (h : Inv ps) (hc : Changed ps ps') (hroot : ps'.root.isSome) : Inv ps' := by
  refine ⟨hroot, ?_, fun hreq root hr => ?_⟩
  · rw [hc.disk, hc.saved]
    exact h.written
  · obtain ⟨hreq, hsame⟩ := hc.kept hreq
    rw [hc.hash]
    exact h.hash hreq root (hsame ▸ hr)

theorem Inv.checked (hc : Checked ps ps') (hroot : ps.root.isSome)
    (hw : ∃ tree, ps.disk = some tree ∧ ps.savedConfigHash = pCalcCfgCRC tree) : Inv ps' := by
  refine ⟨hc.root ▸ hroot, ?_, fun _ root hr => hc.hash root (hc.root ▸ hr)⟩
  rw [hc.disk, hc.saved]
  exact hw

theorem saveTo_cases (ps : PsdBase) (file : File) (mem : List Bool) (hroot : ps.root.isSome) :
    (ps.saveTo file mem).2.1 = false ∧ Changed ps (ps.saveTo file mem).1 ∧ (ps.saveTo file mem).1.root.isSome ∨
    (ps.saveTo file mem).2.1 = true ∧ ∃ root ∈ ps.root,
      (ps.saveTo file mem).1 = { ps with
        root := some (ps.pUpdateGlobalCfg mem root).1
        checkConfigReq := true
        savedConfigHash := ps.configHash
        disk := if file.written then some (ps.pUpdateGlobalCfg mem root).1 else none } := by
  obtain ⟨root, hr⟩ := isSome_iff_exists.mp hroot
  unfold saveTo
  split
  · rw [hr]
    dsimp only
    split
    · exact .inr ⟨rfl, root, rfl, rfl⟩
    · exact .inl ⟨rfl, changed_of_req, rfl⟩
  · exact .inl ⟨rfl, .refl ps, hroot⟩

theorem Inv.saveTo {file : File} {mem : List Bool} (h : Inv ps) (hok : SavesRight ps file mem) :
    Inv (ps.saveTo file mem).1 := by
  rcases saveTo_cases ps file mem h.root with ⟨-, hc, hroot⟩ | ⟨hsaved, root, hr, he⟩
  · exact h.changed hc hroot
  · obtain ⟨hwritten, hhash⟩ := hok hsaved
    rw [he]
    exact ⟨rfl, ⟨_, if_pos hwritten, hhash root hr⟩, nofun⟩

theorem Inv.step (h : Inv ps) {e : Event} (hok : Orderly ps e) (hs : step ps e = some ps') : Inv ps' := by
  cases e with
  | addCfgEntry behind fuel mem mem' pic formdata =>
    exact h.changed (psdAddCfgEntry_changed hs) (psdAddCfgEntry_root hs h.root)
  | readCfg fuel mem pic formdata => exact h.changed (psdReadCfg_changed hs) (psdReadCfg_root hs h.root)
  | remCfgForm pic => exact h.changed (psdRemCfgForm_changed hs) (psdRemCfgForm_root hs hok h.root)
  | setAttrs mem ok ok' globalCfg insertSnd removeSnd =>
    cases hs
    refine .checked (pCheckCfgChanged_checked _ ok ok') ?_ h.written
    rw [isSome_map]
    exact h.root
  | set fuel mem ok ok' call =>
    obtain ⟨root, hr⟩ := isSome_iff_exists.mp h.root
    simp only [CfgSaved.step, setCfg, hr] at hs
    obtain ⟨⟨root', result⟩, hrun, hs⟩ := bind_eq_some_iff.mp hs
    cases hs
    exact .checked (pCheckCfgChanged_checked _ ok ok') (run_root hrun) h.written
  | check ok ok' =>
    cases hs
    exact .checked (pCheckCfgChanged_checked _ ok ok') h.root h.written
  | save envarc env mem =>
    cases hs
    exact (h.saveTo hok.1).saveTo hok.2

theorem Inv.truthful {trees : Set PsdIFFContext} (h : Inv ps) (hinj : trees.InjOn pCalcCfgCRC) (hw : Within trees ps) :
    Truthful ps := by
  intro hreq hsame
  obtain ⟨root, hr⟩ := isSome_iff_exists.mp h.root
  obtain ⟨tree, hdisk, hsaved⟩ := h.written
  have hcrc : pCalcCfgCRC root = pCalcCfgCRC tree := (h.hash hreq root hr).symm.trans (hsame.symm.trans hsaved)
  rw [hr, hdisk, hinj (hw.1 root hr) (hw.2 tree hdisk) hcrc]

theorem Inv.saved_checked (h : Inv ps) {envarc env : File} {mem : List Bool} (hok : Orderly ps (.save envarc env mem))
    (hsaved : (ps.psdSaveCfgToDisk envarc env mem).2 = true) (ok ok' : Bool) :
    ((ps.psdSaveCfgToDisk envarc env mem).1.pCheckCfgChanged ok ok').savedConfigHash =
      ((ps.psdSaveCfgToDisk envarc env mem).1.pCheckCfgChanged ok ok').configHash := by
  have hc := pCheckCfgChanged_checked (ps.psdSaveCfgToDisk envarc env mem).1 ok ok'
  have hfirst := h.saveTo hok.1
  have hboth : (ps.saveTo envarc mem).2.1 = true ∧
      ((ps.saveTo envarc mem).1.saveTo env (ps.saveTo envarc mem).2.2).2.1 = true := Bool.and_eq_true_iff.mp hsaved
  rcases saveTo_cases _ env (ps.saveTo envarc mem).2.2 hfirst.root with ⟨hno, -⟩ | ⟨hyes, root, hr, he⟩
  · exact absurd (hno.symm.trans hboth.2) Bool.false_ne_true
  · have he' : (ps.psdSaveCfgToDisk envarc env mem).1 = _ := he
    rw [he'] at hc ⊢
    rw [hc.saved, hc.hash _ rfl]
    exact (hok.2 hyes).2 root hr

end inv

/-- In a run in which every file that is saved is written in full, with the hash at hand that of what is written, and in
which the root stays, the saved hash is truthful all along. -/
theorem indicator_truthful (trees : Set PsdIFFContext) (hinj : trees.InjOn pCalcCfgCRC) {start ps : PsdBase}
    {evs : List Event} (h0 : Synced start)
    (h : Run step (fun ps e => Orderly ps e ∧ ∀ ps' ∈ step ps e, Within trees ps') start evs ps) (hw : Within trees start) :
    Truthful ps ∧ ∀ envarc env mem ok ok', Orderly ps (.save envarc env mem) →
      (ps.psdSaveCfgToDisk envarc env mem).2 = true →
        ((ps.psdSaveCfgToDisk envarc env mem).1.pCheckCfgChanged ok ok').savedConfigHash =
          ((ps.psdSaveCfgToDisk envarc env mem).1.pCheckCfgChanged ok ok').configHash := by
  have hinv : Inv ps ∧ Within trees ps :=
    h.invariant (fun ps => Inv ps ∧ Within trees ps) ⟨h0.inv, hw⟩ fun _ _ _ hi hok hs => ⟨hi.1.step hok.1 hs, hok.2 _ hs⟩
  exact ⟨hinv.1.truthful hinj hinv.2, fun _ _ _ ok ok' hok hsaved => hinv.1.saved_checked hok hsaved ok ok'⟩

def firstCfg : CfgChunk := ⟨IFFCHNK_GLOBALCFG, [0, 1], [], by decide, by decide⟩

def noSound : CString := ⟨[], nofun⟩

def firstRoot : PsdIFFContext :=
  ⟨IFFFORM_PSDCFG, .empty, [⟨IFFFORM_STACKCFG, ((CfgChunks.empty.put firstCfg).put
    (stringChunk IFFCHNK_INSERTSND noSound)).put (stringChunk IFFCHNK_REMOVESND noSound), []⟩]⟩

def loaded : PsdBase :=
  ⟨some firstRoot, firstCfg, noSound, noSound, false, pCalcCfgCRC firstRoot, pCalcCfgCRC firstRoot, some firstRoot⟩

def onDisk : File := ⟨true, true, true⟩

theorem loaded_orderly : Orderly loaded (.save onDisk onDisk []) :=
  ⟨fun _ => ⟨rfl, fun _ h => some.inj h ▸ rfl⟩, fun _ => ⟨rfl, fun _ h => some.inj h ▸ rfl⟩⟩

theorem indicator_truthful_save : Truthful (loaded.psdSaveCfgToDisk onDisk onDisk []).1 :=
  (indicator_truthful {firstRoot} (Set.injOn_singleton _ _) ⟨firstRoot, rfl, rfl, rfl, rfl, rfl⟩
    (.snoc .nil ⟨loaded_orderly, fun _ h => some.inj h ▸
      ⟨fun _ h => (some.inj h).symm, fun _ h => (some.inj h).symm⟩⟩ rfl)
    ⟨fun _ h => (some.inj h).symm, fun _ h => (some.inj h).symm⟩).1

/-- An empty form is added, all is saved before there has been a check, and the form is removed again. -/
def addSaveRemove : List Event :=
  [.addCfgEntry (fun _ => []) 2 [] [] .null (putLong ID_FORM ++ putLong 4 ++ putLong IFFFORM_CLASSCFG),
    .save onDisk onDisk [], .remCfgForm (.form [1]), .check true true]

def stale : PsdBase := (exec step loaded addSaveRemove).get (by decide)

/-- The settings are as they were loaded, but not as they were saved, and no check is due. -/
theorem hash_stale : Run step anyStep loaded addSaveRemove stale ∧ stale.checkConfigReq = false ∧
    stale.savedConfigHash = stale.configHash ∧ stale.root.map pCalcCfgCRC ≠ stale.disk.map pCalcCfgCRC ∧
    ¬Truthful stale := by
  have hne : stale.root.map pCalcCfgCRC ≠ stale.disk.map pCalcCfgCRC := by decide
  refine ⟨Run.get _, by decide, by decide, hne, fun ht => hne ?_⟩
  rw [ht (by decide) (by decide)]

end Neptune.CfgSaved
