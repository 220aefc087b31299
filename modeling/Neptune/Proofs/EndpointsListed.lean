import Neptune.Proofs.ParseTree
import Neptune.Proofs.TokenValid

/-! The controller's driver is told of each active endpoint once, inside the arrays, exactly when the endpoints that
stand behind the interface descriptors are no more than these declare. -/

namespace Neptune

open List Option

variable {α β : Type} {pc : PsdConfig} {curif pif : PsdInterface}

theorem fillIn_eq (room : ℕ) (ds eds : List α) (h : eds.length ≤ room) :
    fillIn room ds eds = if eds.length + ds.length ≤ room then some (eds ++ ds) else none := by
  induction ds generalizing eds with
  | nil => simp [fillIn, h]
  | cons d ds ih =>
    rw [fillIn]
    split
    · next hlt =>
      have hlen : (eds ++ [d]).length + ds.length = eds.length + (d :: ds).length := by
        simp only [length_append, length_cons, length_nil]
        omega
      rw [ih (eds ++ [d]) (by rw [length_append, length_singleton]; omega), hlen, append_assoc,
        singleton_append]
    · next hge =>
      rw [if_neg]
      rw [length_cons]
      omega

theorem declared_eq (numEPs : ℕ) (walk : List α) :
    declared numEPs walk = if numEPs = 0 then some [] else if walk.length ≤ numEPs then some walk else none := by
  unfold declared
  split
  · rfl
  · rw [fillIn_eq numEPs walk [] (Nat.zero_le _)]
    simp

/-- The whole walk is in the array exactly when there is room. -/
theorem declared_all (numEPs : ℕ) (walk : List α) : declared numEPs walk = some walk ↔ walk.length ≤ numEPs := by
  rw [declared_eq]
  split
  · next h => simp [h, eq_comm]
  · split
    · next h => simp [h]
    · next h => simp [h]

theorem declared_isSome (numEPs : ℕ) (walk : List α) :
    (∃ eds, declared numEPs walk = some eds) ↔ numEPs = 0 ∨ walk.length ≤ numEPs := by
  rw [declared_eq]
  split
  · next h => simp [h]
  · next h0 =>
    split
    · next h => simp [h]
    · next h => simp [h, h0]

def Lists (add : List UhcdEndpointDesc) (peps : List PsdEndpoint) : Prop :=
  (∀ pep ∈ peps, add.count pep.desc = 1) ∧ ∀ d ∈ add, ∃ pep ∈ peps, pep.desc = d

def OwnTokens (add : List UhcdEndpointDesc) (tokens : List ℕ) (peps : List PsdEndpoint) : Prop :=
  ∀ pep ∈ peps, ∃ t, pep.token = some t ∧ ⟨pep.desc, t⟩ ∈ List.zipWith Held.mk add tokens

/-- `pContextConfigureEndpoints` tells the driver of the active endpoints, and has their tokens from it. -/
def PsdConfig.Configures (pc : PsdConfig) : Prop :=
  ∃ op, pc.configureOp = some op ∧ Lists op.add pc.active ∧
    ∀ tokens, tokens.length = op.add.length → OwnTokens op.add tokens (pc.preClear.setTokens tokens).active

def Switches (curif pif : PsdInterface) : Prop :=
  ∃ op, setInterfaceOp curif pif = some op ∧ Lists (op.elim [] (·.add)) pif.eps ∧
    ∀ tokens, tokens.length = (op.elim [] (·.add)).length →
      OwnTokens (op.elim [] (·.add)) tokens (pif.setTokens tokens).eps

theorem lists_self {peps : List PsdEndpoint} (h : (peps.map (·.desc)).Nodup) : Lists (peps.map (·.desc)) peps := by
  refine ⟨fun pep hp => ?_, fun d hd => ?_⟩
  · exact count_eq_one_of_mem h (List.mem_map_of_mem hp)
  · exact List.mem_map.mp hd

theorem lists_nil_iff {peps : List PsdEndpoint} : Lists [] peps ↔ peps = [] := by
  constructor
  · rintro ⟨hall, -⟩
    refine eq_nil_iff_forall_not_mem.mpr fun pep hp => ?_
    have := hall pep hp
    cases this
  · rintro rfl
    exact ⟨nofun, nofun⟩

theorem declared_lists {numEPs : ℕ} {peps : List PsdEndpoint} {eds : List UhcdEndpointDesc}
    (h : declared numEPs (peps.map (·.desc)) = some eds) (hl : Lists eds peps) : eds = peps.map (·.desc) := by
  rw [declared_eq] at h
  split at h
  · cases h
    rw [lists_nil_iff.mp hl]
    rfl
  · split at h
    · exact (some.inj h).symm
    · cases h

theorem active_descs (pc : PsdConfig) : pc.active.map (·.desc) = pc.interfaces.flatMap (·.pif.descs) := by
  rw [PsdConfig.active, map_flatMap]
  rfl

theorem PsdConfig.configures_iff (hn : (pc.active.map (·.desc)).Nodup) :
    pc.Configures ↔ pc.active.length ≤ pc.numEPs := by
  rw [← length_map (fun pep : PsdEndpoint => pep.desc), ← declared_all]
  constructor
  · rintro ⟨op, hop, hlists, -⟩
    obtain ⟨eds, heds, hop⟩ := bind_eq_some_iff.mp hop
    cases hop
    rw [heds, declared_lists heds hlists]
  · intro hdecl
    refine ⟨⟨_, []⟩, bind_eq_some_iff.mpr ⟨_, hdecl, rfl⟩, lists_self hn, fun tokens hlen => ?_⟩
    intro pep hp
    obtain ⟨m, hm, hp⟩ := mem_flatMap.mp hp
    have hle := (declared_all _ _).mp hdecl
    by_cases h0 : pc.numEPs = 0
    · -- no array, and no endpoints
      have hnil : pc.active.map (·.desc) = [] := length_eq_zero_iff.mp (by omega)
      have htok : tokens = [] := length_eq_zero_iff.mp (by rw [hlen, hnil]; rfl)
      rw [htok, setTokens, setMainTokens_nil, preClear, if_pos h0] at hm
      have hmem : pep ∈ pc.active := mem_flatMap.mpr ⟨m, hm, hp⟩
      rw [map_eq_nil_iff.mp hnil] at hmem
      cases hmem
    · have hdescs : pc.preClear.interfaces.flatMap (·.pif.descs) = pc.active.map (·.desc) := by
        rw [descs_preClear h0, descs, if_neg h0, active_descs]
      have hl : tokens.length = (pc.preClear.interfaces.flatMap (·.pif.descs)).length := by rw [hdescs, hlen]
      have htok := (setMainTokens_mem hl hm).1 pep hp
      rwa [hdescs] at htok

theorem switches_iff (hn : (pif.eps.map (·.desc)).Nodup) : Switches curif pif ↔
    pif.eps.length ≤ pif.numEPs ∧ (curif.numEPs = 0 ∨ curif.eps.length ≤ curif.numEPs) := by
  have hlen : pif.descs.length = pif.eps.length := length_map _
  have haddr : curif.addresses.length = curif.eps.length := length_map _
  unfold Switches setInterfaceOp
  split
  · next h0 =>
    -- no op
    have hnil : Lists [] pif.eps ↔ pif.eps.length ≤ pif.numEPs := by
      rw [lists_nil_iff, h0.1, Nat.le_zero, length_eq_zero_iff]
    rw [← hnil]
    constructor
    · rintro ⟨op, hop, hlists, -⟩
      cases hop
      exact ⟨hlists, .inl h0.2⟩
    · rintro ⟨hlists, -⟩
      refine ⟨none, rfl, hlists, fun tokens htok pep hp => ?_⟩
      have htok : tokens = [] := length_eq_zero_iff.mp htok
      rw [htok, PsdInterface.setTokens_nil, lists_nil_iff.mp hlists] at hp
      cases hp
  · rw [← hlen, ← haddr, ← declared_isSome, ← declared_all]
    constructor
    · rintro ⟨op, hop, hlists, -⟩
      obtain ⟨eds, heds, hop⟩ := bind_eq_some_iff.mp hop
      obtain ⟨drops, hdrops, hop⟩ := bind_eq_some_iff.mp hop
      cases hop
      exact ⟨heds.trans (congrArg some (declared_lists heds hlists)), drops, hdrops⟩
    · rintro ⟨heds, drops, hdrops⟩
      refine ⟨some ⟨pif.descs, drops⟩, ?_, lists_self hn, fun tokens htok pep hp => ?_⟩
      · exact bind_eq_some_iff.mpr ⟨_, heds, bind_eq_some_iff.mpr ⟨drops, hdrops, rfl⟩⟩
      · exact setTokens_mem (htok.trans hlen) hp

namespace PsdConfig

/-- Both backend calls, of which `psdSetAltInterface` makes the second there and back, tell the driver of the endpoints that become active. -/
structure Listed (pc : PsdConfig) : Prop where
  configures : pc.Configures
  switches : ∀ pif ∈ pc.ifs, ∀ m, pc.interfaces.find? (fun m => m.pif.ifNum = pif.ifNum) = some m →
    m.pif.id ≠ pif.id → Switches m.pif pif ∧ Switches pif m.pif

/-- The endpoints are no more than declared, of the active interfaces taken together and of each of two alternates
that are switched. -/
structure Declared (pc : PsdConfig) : Prop where
  active : pc.active.length ≤ pc.numEPs
  alternates : ∀ pif ∈ pc.ifs, ∀ m, pc.interfaces.find? (fun m => m.pif.ifNum = pif.ifNum) = some m →
    m.pif.id ≠ pif.id → pif.eps.length ≤ pif.numEPs ∧ m.pif.eps.length ≤ m.pif.numEPs

theorem active_sublist (pc : PsdConfig) : pc.active.Sublist pc.eps := by
  obtain ⟨_, ms⟩ := pc
  change (ms.flatMap (·.pif.eps)).Sublist ((ms.flatMap fun m => m.pif :: m.alterIfs).flatMap (·.eps))
  induction ms with
  | nil => exact .refl _
  | cons m ms ih =>
    simp only [flatMap_cons, flatMap_append]
    exact (sublist_append_left _ _).append ih

theorem listed_iff (hn : (pc.eps.map (·.desc)).Nodup) : pc.Listed ↔ pc.Declared := by
  have hactive : (pc.active.map (·.desc)).Nodup := hn.sublist (pc.active_sublist.map _)
  have hif {x : PsdInterface} (hx : x ∈ pc.ifs) : (x.eps.map (·.desc)).Nodup := by
    rw [eps, map_flatMap] at hn
    exact (nodup_flatMap.mp hn).1 x hx
  have hmain {p : MainIf → Bool} {m : MainIf} (hm : pc.interfaces.find? p = some m) : m.pif ∈ pc.ifs :=
    mem_flatMap.mpr ⟨m, List.mem_of_find?_eq_some hm, mem_cons_self⟩
  constructor
  · intro h
    refine ⟨(configures_iff hactive).mp h.configures, fun pif hp m hm hne => ?_⟩
    obtain ⟨hto, hback⟩ := h.switches pif hp m hm hne
    exact ⟨((switches_iff (hif hp)).mp hto).1, ((switches_iff (hif (hmain hm))).mp hback).1⟩
  · intro h
    refine ⟨(configures_iff hactive).mpr h.active, fun pif hp m hm hne => ?_⟩
    obtain ⟨hpif, hcur⟩ := h.alternates pif hp m hm hne
    exact ⟨(switches_iff (hif hp)).mpr ⟨hpif, .inr hcur⟩, (switches_iff (hif (hmain hm))).mpr ⟨hcur, .inr hpif⟩⟩

end PsdConfig

namespace DevConfig

variable {get : Reader} {w : Alloc} {pd : Speed} {pos dlen : ℕ} {s t : Parse}

theorem flatMap_onLast {f : α → α} {g : α → List β} {new : List β}
    (h : ∀ x, (g (f x)).Perm (g x ++ new) ∨ g (f x) = g x) (l : List α) :
    ((onLast f l).flatMap g).Perm (l.flatMap g ++ new) ∨ (onLast f l).flatMap g = l.flatMap g := by
  rcases eq_nil_or_concat l with rfl | ⟨l, x, rfl⟩
  · exact .inr rfl
  · rw [concat_eq_append, onLast_concat, flatMap_append, flatMap_append, flatMap_singleton,
      flatMap_singleton]
    rcases h x with hx | hx
    · exact .inl (by rw [append_assoc]; exact hx.append_left _)
    · exact .inr (by rw [hx])

def epIds (pif : PsdInterface) : List ℕ := pif.eps.map (·.id)

def Parse.epIds (s : Parse) : List ℕ :=
  s.configs.flatMap fun pc => pc.interfaces.flatMap fun m => DevConfig.epIds m.pif ++ m.alterIfs.flatMap DevConfig.epIds

theorem Parse.epIds_onAltif {f : PsdInterface → PsdInterface} {new : List ℕ} (s : Parse)
    (h : ∀ x, DevConfig.epIds (f x) = DevConfig.epIds x ++ new) :
    (s.onAltif f).epIds.Perm (s.epIds ++ new) ∨ (s.onAltif f).epIds = s.epIds := by
  unfold Parse.onAltif
  split
  · exact .inr rfl
  · next isAlt _ =>
    refine flatMap_onLast (fun pc => flatMap_onLast (fun m => ?_) pc.interfaces) s.configs
    cases isAlt with
    | true =>
      have hperm (x : PsdInterface) : (DevConfig.epIds (f x)).Perm (DevConfig.epIds x ++ new) ∨
          DevConfig.epIds (f x) = DevConfig.epIds x := .inl (.of_eq (h x))
      rcases flatMap_onLast hperm m.alterIfs with hp | hp
      · exact .inl (by rw [append_assoc]; exact hp.append_left _)
      · exact .inr (congrArg (DevConfig.epIds m.pif ++ ·) hp)
    | false =>
      left
      change (DevConfig.epIds (f m.pif) ++ _).Perm _
      rw [h, append_assoc, append_assoc]
      exact (perm_append_comm).append_left _

def Fresh (bound : ℕ) (s : Parse) : Prop := s.epIds.Nodup ∧ ∀ id ∈ s.epIds, id < bound

theorem Fresh.mono {bound : ℕ} (bound' : ℕ) (h : Fresh bound s) (hle : bound ≤ bound') : Fresh bound' s :=
  ⟨h.1, fun id hid => (h.2 id hid).trans_le hle⟩

theorem Fresh.extend {ids : List ℕ} (h : Fresh (s.base + pos) s)
    (ht : t.epIds.Perm (s.epIds ++ ids) ∨ t.epIds = s.epIds) (hids : ids = [] ∨ ids = [s.base + pos]) :
    Fresh (s.base + (pos + 1)) t := by
  have hold : ∀ id ∈ s.epIds, id < s.base + (pos + 1) := fun id hid => by
    have := h.2 id hid
    omega
  rcases ht with ht | ht
  · rcases hids with rfl | rfl
    · rw [append_nil] at ht
      exact ⟨ht.nodup_iff.mpr h.1, fun id hid => hold id (ht.mem_iff.mp hid)⟩
    · refine ⟨ht.nodup_iff.mpr (nodup_append.mpr ⟨h.1, nodup_singleton _, fun a ha b hb => ?_⟩), ?_⟩
      · rw [mem_singleton.mp hb]
        exact (h.2 a ha).ne
      · intro id hid
        rcases mem_append.mp (ht.mem_iff.mp hid) with hid | hid
        · exact hold id hid
        · rw [mem_singleton.mp hid]
          omega
  · exact ⟨ht ▸ h.1, fun id hid => hold id (ht ▸ hid)⟩

theorem flatMap_onLast_same {f : α → α} {g : α → List β} (h : ∀ x, g (f x) = g x) (l : List α) :
    (onLast f l).flatMap g = l.flatMap g := by
  rw [flatMap_def, flatMap_def, map_onLast h]

theorem epIds_addInterface {altif : PsdInterface} (s : Parse) (heps : altif.eps = []) :
    (s.addInterface altif).epIds = s.epIds := by
  unfold Parse.addInterface
  split
  · refine flatMap_onLast_same (fun pc => flatMap_onLast_same (fun m => ?_) pc.interfaces) s.configs
    simp [MainIf.addAlternate, epIds, heps]
  · refine flatMap_onLast_same (fun pc => ?_) s.configs
    simp [PsdConfig.onMains, epIds, heps]

theorem Round.base (hr : Round get w pd pos s t) : t.base = s.base := by
  have honAltif (f : PsdInterface → PsdInterface) : (s.onAltif f).base = s.base := by
    unfold Parse.onAltif
    split <;> rfl
  cases hr with
  | noConfig | config | stray | noInterface | noEndpoint | other => rfl
  | interface altif =>
    unfold Parse.addInterface
    split <;> rfl
  | endpoint => exact honAltif _
  | companion => exact honAltif _

theorem Round.fresh (h : Fresh (s.base + pos) s) (hr : Round get w pd pos s t) : Fresh (s.base + (pos + 1)) t := by
  cases hr with
  | noConfig | stray | noInterface | noEndpoint | other => exact h.extend (.inr rfl) (.inl rfl)
  | config pc _ _ hpc =>
    refine h.extend (.inr ?_) (.inl rfl)
    simp [Parse.epIds, Parse.addConfig, hpc]
  | interface altif _ _ _ _ heps => exact h.extend (.inr (epIds_addInterface s heps)) (.inl rfl)
  | endpoint addr attr mps interval =>
    have hadd (x : PsdInterface) :
        epIds { x with eps := x.eps ++ [endpointOf pd (s.base + pos) addr attr mps interval] } =
          epIds x ++ [s.base + pos] := by simp [epIds, endpointOf]
    exact h.extend (s.epIds_onAltif hadd) (.inr rfl)
  | companion f _ _ _ _ _ _ hf =>
    have hsame (x : PsdInterface) : epIds { x with eps := onLast f x.eps } = epIds x ++ [] := by
      rw [append_nil]
      refine map_onLast (fun pep => ?_) x.eps
      obtain ⟨_, _, _, _, _, hq⟩ := hf pep
      rw [hq]
    exact h.extend (s.epIds_onAltif hsame) (.inl rfl)

theorem parseBuffer_fresh {mem : Buffer → Reader} {buf : Buffer} (h : Fresh s.base s)
    (ht : parseBuffer mem pd buf w s = .ok t) : Fresh t.base t := by
  obtain ⟨u, hu, rfl⟩ := parseBuffer_loop ht
  obtain ⟨pos, hbase, hfresh⟩ := parseLoop_invariant
    (fun pos v => v.base = s.base ∧ Fresh (s.base + min pos buf.bytes.length) v)
    (fun pos dlen v v' hv hdlen hpos hd => by
      obtain ⟨x, descriptors, hround, rfl⟩ := parseDescriptor_round hd
      refine ⟨hround.base.trans hv.1, ?_⟩
      have hat : Fresh (v.base + pos) v := by
        rw [hv.1, ← Nat.min_eq_left hpos.le]
        exact hv.2
      have hnext : Fresh (v.base + (pos + 1)) x := hround.fresh hat
      rw [hv.1] at hnext
      have hmono := hnext.mono (s.base + min (pos + dlen) buf.bytes.length) (by omega)
      exact hmono) hu ⟨rfl, by rw [Nat.zero_min]; exact h⟩
  have hall := hfresh.mono (s.base + buf.bytes.length) (by omega)
  have heq : u.base + buf.bytes.length = s.base + buf.bytes.length := by rw [hbase]
  change Fresh (u.base + buf.bytes.length) _
  rw [heq]
  exact hall

theorem pGetDevConfig_fresh {mem : Buffer → Reader} {replies : List CfgReply} {ok : Bool}
    (h : pGetDevConfig mem pd replies start = .ok (ok, t)) : t.epIds.Nodup := by
  have hfresh : Fresh t.base t := pGetDevConfig_invariant (fun s => Fresh s.base s)
    (fun _ _ _ _ hs => parseBuffer_fresh hs) h ⟨nodup_nil, nofun⟩
  exact hfresh.1

theorem toCtx_eps (pc : PsdConfig) : pc.toCtx.eps.map (·.desc.pep) =
    pc.interfaces.flatMap fun m => epIds m.pif ++ m.alterIfs.flatMap epIds := by
  simp [Neptune.PsdConfig.eps, Neptune.PsdConfig.ifs, PsdConfig.toCtx, MainIf.toCtx, PsdInterface.toCtx,
    PsdEndpoint.toCtx, epIds, map_flatMap, flatMap_map, flatMap_assoc, Function.comp_def]
  rfl

theorem toCtx_descs_nodup {pc : PsdConfig} (hn : t.epIds.Nodup) (hpc : pc ∈ t.configs) :
    (pc.toCtx.eps.map (·.desc)).Nodup := by
  have hone := (nodup_flatMap.mp hn).1 pc hpc
  rw [← toCtx_eps] at hone
  have hcomp : pc.toCtx.eps.map (·.desc.pep) = (pc.toCtx.eps.map (·.desc)).map (·.pep) := by
    rw [List.map_map]
    rfl
  rw [hcomp] at hone
  exact hone.of_map _

/-- Of a parsed configuration, with whichever alternates selected. -/
theorem endpoints_listed {replies : List CfgReply} {ok : Bool} {pc : PsdConfig} {cfg : Neptune.PsdConfig}
    (h : pGetDevConfig Buffer.memory pd replies start = .ok (ok, t)) (hpc : pc ∈ t.configs)
    (hcfg : (cfg.eps.map (·.desc)).Perm (pc.toCtx.eps.map (·.desc))) : cfg.Listed ↔ cfg.Declared :=
  Neptune.PsdConfig.listed_iff (hcfg.nodup_iff.mpr (toCtx_descs_nodup (pGetDevConfig_fresh h) hpc))

def bulkReply (bNumEndpoints : UInt8) : CfgReply :=
  goodReply 1 [9, 2, 32, 0, 1, 1, 0, 0x80, 50,
    9, 4, 0, 0, bNumEndpoints, 8, 6, 0x50, 0,
    7, 5, 0x81, 2, 0, 2, 0,
    7, 5, 0x02, 2, 0, 2, 0]

def highSpeed : Speed := ⟨false, true, false⟩

def bulkConfig (bNumEndpoints : UInt8) : PsdConfig :=
  (parsed highSpeed [bulkReply bNumEndpoints]).configs.headD ⟨0, 0, 0, 0, 0, 0, []⟩

theorem endpoints_listed_two :
    pGetDevConfig Buffer.memory highSpeed [bulkReply 2] start = .ok (true, parsed highSpeed [bulkReply 2]) ∧
      (bulkConfig 2).toCtx.active.map (·.desc.address) = [0x81, 0x02] ∧ (bulkConfig 2).toCtx.Listed := by
  have h : pGetDevConfig Buffer.memory highSpeed [bulkReply 2] start =
      .ok (true, parsed highSpeed [bulkReply 2]) := rfl
  have hpc : bulkConfig 2 ∈ (parsed highSpeed [bulkReply 2]).configs := by decide
  have hsame : ∀ pif ∈ (bulkConfig 2).toCtx.ifs, ∀ m ∈ (bulkConfig 2).toCtx.interfaces, m.pif.id = pif.id := by decide
  refine ⟨h, by decide, (endpoints_listed h hpc (.refl _)).mpr ⟨by decide, fun pif hp m hm hne => ?_⟩⟩
  exact absurd (hsame pif hp m (List.mem_of_find?_eq_some hm)) hne

theorem endpoints_not_listed :
    pGetDevConfig Buffer.memory highSpeed [bulkReply 1] start = .ok (true, parsed highSpeed [bulkReply 1]) ∧
      bulkConfig 1 ∈ (parsed highSpeed [bulkReply 1]).configs ∧ (bulkConfig 1).toCtx.numEPs = 1 ∧
      (bulkConfig 1).toCtx.configureOp = none ∧ ¬(bulkConfig 1).toCtx.Listed := by
  have hnone : (bulkConfig 1).toCtx.configureOp = none := by decide
  refine ⟨rfl, by decide, by decide, hnone, fun hl => ?_⟩
  obtain ⟨op, hop, -⟩ := hl.configures
  rw [hnone] at hop
  cases hop

end DevConfig

end Neptune
