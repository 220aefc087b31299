import Neptune.Spec.ParseCfg
import Neptune.Proofs.RegistryOnce

/-! Applying the settings removes only what a list of its kind does not name, and leaves each listed
entry running once. What runs at the call is a set: no controller and no class twice. A library
that opens has its file name. -/

namespace Neptune

open Registry List Option

def TrailingPart (part name : List Char) : Prop :=
  part ≠ [] ∧ (part = name ∨ ∃ pre c, sep c ∧ name = pre ++ c :: part)

def Names (name : List Char) (puc : RunningClass) : Prop :=
  ∃ part, TrailingPart part name ∧ puc.className = some part

section parts

variable {α : Type} {f : List Char → Option α} {start : Bool} {c : Char} {part name : List Char}
  {a : α}

def PartFrom (start : Bool) (part name : List Char) : Prop :=
  part ≠ [] ∧ ((start = true ∧ part = name) ∨ ∃ pre c, sep c ∧ name = pre ++ c :: part)

theorem partFrom_cons : PartFrom start part (c :: name) ↔
    (start = true ∧ part = c :: name) ∨ PartFrom (c = '/' || c = ':') part name := by
  have hsep : (decide (c = '/') || decide (c = ':')) = true ↔ sep c := by
    simp [sep]
  constructor
  · rintro ⟨hne, hstart | ⟨pre, d, hd, hname⟩⟩
    · exact .inl hstart
    · cases pre with
      | nil =>
        obtain ⟨rfl, rfl⟩ := cons.inj hname
        exact .inr ⟨hne, .inl ⟨hsep.mpr hd, rfl⟩⟩
      | cons e pre =>
        obtain ⟨rfl, rfl⟩ := cons.inj hname
        exact .inr ⟨hne, .inr ⟨pre, d, hd, rfl⟩⟩
  · rintro (⟨hs, rfl⟩ | ⟨hne, ⟨hs, rfl⟩ | ⟨pre, d, hd, rfl⟩⟩)
    · exact ⟨by simp, .inl ⟨hs, rfl⟩⟩
    · exact ⟨hne, .inr ⟨[], c, hsep.mp hs, rfl⟩⟩
    · exact ⟨hne, .inr ⟨c :: pre, d, hd, rfl⟩⟩

theorem tryParts_some (h : tryParts f start name = some a) :
    ∃ part, PartFrom start part name ∧ f part = some a := by
  induction name generalizing start with
  | nil => cases h
  | cons c name ih =>
    rw [tryParts] at h
    split at h
    · rename_i b hb
      split at hb
      · rename_i hs
        exact ⟨c :: name, partFrom_cons.mpr (.inl ⟨hs, rfl⟩), hb.trans h⟩
      · cases hb
    · obtain ⟨part, hp, hf⟩ := ih h
      exact ⟨part, partFrom_cons.mpr (.inr hp), hf⟩

theorem tryParts_none (h : tryParts f start name = none) (hp : PartFrom start part name) :
    f part = none := by
  induction name generalizing start with
  | nil =>
    obtain ⟨hne, ⟨-, rfl⟩ | ⟨pre, c, -, he⟩⟩ := hp
    · exact absurd rfl hne
    · simp at he
  | cons c name ih =>
    rw [tryParts] at h
    split at h
    · cases h
    · rename_i hb
      rcases partFrom_cons.mp hp with ⟨hs, rfl⟩ | hp
      · rwa [if_pos hs] at hb
      · exact ih h hp

theorem openClass_eq (openLibrary : List Char → Option (List Char)) (start : Bool)
    (name : List Char) : openClass openLibrary start name = tryParts openLibrary start name := by
  induction name generalizing start with
  | nil => rfl
  | cons c name ih =>
    rw [openClass, tryParts, ih]
    cases if start = true then openLibrary (c :: name) else none <;> rfl

theorem partFrom_true : PartFrom true part name ↔ TrailingPart part name := by
  simp [PartFrom, TrailingPart]

theorem filePart_append (s : List Char) (pre : List Char) (hc : sep c) (x : List Char) :
    filePart x (pre ++ c :: s) = filePart s s := by
  have hc' : c = '/' ∨ c = ':' := hc
  induction pre generalizing x with
  | nil => rw [nil_append, filePart, if_pos hc']
  | cons d pre ih =>
    rw [cons_append, filePart]
    split <;> exact ih _

theorem TrailingPart.filePart (h : TrailingPart part name) :
    psdHwFilePart part = psdHwFilePart name := by
  obtain ⟨-, rfl | ⟨pre, c, hc, rfl⟩⟩ := h
  · rfl
  · exact (filePart_append part pre hc _).symm

end parts

def HardwareSet (hardware : List RunningHardware) : Prop :=
  hardware.Pairwise fun a b => a.same b.toPsdHardware = false

structure ClassSet (classes : List RunningClass) : Prop where
  pairwise : classes.Pairwise fun a b => a.same b.toPsdUsbClass = false
  plain : ∀ puc ∈ classes, ∀ name ∈ puc.className, ∀ c ∈ name, ¬ sep c

/-- A library that opens has a name, which is the file part of what it has been opened by. -/
def OpensByName (w : ParseWorld) : Prop :=
  ∀ part name, w.openLibrary part = some name → name ≠ [] ∧ name = psdHwFilePart part

variable {w : ParseWorld} {hardware : List RunningHardware} {classes : List RunningClass}
  {phw : RunningHardware} {puc : RunningClass} {name : List Char} {unit : ℕ}
  {subpic pic : PsdIFFContext} {subpics : List PsdIFFContext}

theorem matchesHw_same {a b : RunningHardware} (ha : matchesHw name unit a = true)
    (hb : matchesHw name unit b = true) : a.same b.toPsdHardware = true :=
  psdHwMatch_trans ha ((psdHwMatch_comm _ _ _ _).trans hb)

theorem Names.className (h : Names name puc)
    (hp : ∀ name ∈ puc.className, ∀ c ∈ name, ¬ sep c) :
    puc.className = some (psdHwFilePart name) := by
  obtain ⟨part, ht, hc⟩ := h
  rw [hc, ← ht.filePart, psdHwFilePart, filePart_of_clean (hp part hc)]

theorem pFindName_some (h : pFindName classes name = some puc) :
    puc ∈ classes ∧ Names name puc := by
  obtain ⟨part, hpart, hf⟩ := tryParts_some h
  refine ⟨mem_of_find?_eq_some hf, part, partFrom_true.mp hpart, ?_⟩
  simpa using find?_some hf

theorem pFindName_none (h : pFindName classes name = none) : ∀ x ∈ classes, ¬ Names name x := by
  rintro x hx ⟨part, ht, hc⟩
  have hf : findClass classes part = none := tryParts_none h (partFrom_true.mpr ht)
  have := find?_eq_none.mp hf x hx
  simp [hc] at this

section marks

variable {α β : Type} {p : α → Bool} {f : α → α} {g : α → β} {l : List α} {x : α}

theorem onFirst_map (hf : ∀ x, g (f x) = g x) : (onFirst p f l).map g = l.map g := by
  induction l with
  | nil => rfl
  | cons y l ih =>
    rw [onFirst]
    split
    · rw [map_cons, map_cons, hf]
    · rw [map_cons, map_cons, ih]

theorem onFirst_marked {marked : α → Bool} (hf : ∀ x, marked (f x) = false)
    (hl : l.Pairwise fun a b => p a = true → p b = false) (hx : x ∈ onFirst p f l)
    (hm : marked x = true) : x ∈ l ∧ p x = false := by
  induction l with
  | nil => cases hx
  | cons y l ih =>
    obtain ⟨hy, hl⟩ := pairwise_cons.mp hl
    rw [onFirst] at hx
    split at hx
    · rename_i hp
      rcases mem_cons.mp hx with rfl | hx
      · rw [hf] at hm
        cases hm
      · exact ⟨mem_cons_of_mem y hx, hy x hx hp⟩
    · rename_i hp
      rcases mem_cons.mp hx with rfl | hx
      · exact ⟨mem_cons_self, by simpa using hp⟩
      · exact ⟨mem_cons_of_mem y (ih hl hx).1, (ih hl hx).2⟩

theorem foldl_marked {σ : Type} {keep : List α → σ → List α} {I : List α → Prop}
    {marked : α → Prop} {no : σ → α → Prop} (hI : ∀ l s, I l → I (keep l s))
    (hstep : ∀ l s, I l → ∀ x ∈ keep l s, marked x → x ∈ l ∧ no s x) (entries : List σ)
    (hl : I l) : ∀ x ∈ entries.foldl keep l, marked x → x ∈ l ∧ ∀ s ∈ entries, no s x := by
  induction entries generalizing l with
  | nil => exact fun x hx _ => ⟨hx, nofun⟩
  | cons s entries ih =>
    intro x hx hm
    obtain ⟨hx, hrest⟩ := ih (hI l s hl) x hx hm
    obtain ⟨hx, hfirst⟩ := hstep l s hl x hx hm
    exact ⟨hx, forall_mem_cons.mpr ⟨hfirst, hrest⟩⟩

theorem foldl_map_eq {σ : Type} {keep : List α → σ → List α}
    (hstep : ∀ l s, (keep l s).map g = l.map g) (entries : List σ) (l : List α) :
    (entries.foldl keep l).map g = l.map g := by
  induction entries generalizing l with
  | nil => rfl
  | cons s entries ih => exact (ih (keep l s)).trans (hstep l s)

end marks

def RunningHardware.plain (phw : RunningHardware) : RunningHardware :=
  { phw with removeMe := false }

def RunningClass.plain (puc : RunningClass) : RunningClass :=
  { puc with removeMe := false }

theorem hardwareSet_plain {l : List RunningHardware}
    (h : l.map RunningHardware.plain = hardware.map RunningHardware.plain)
    (hs : HardwareSet hardware) : HardwareSet l := by
  have hp : (hardware.map RunningHardware.plain).Pairwise
      fun a b => a.same b.toPsdHardware = false := pairwise_map.mpr hs
  rw [← h] at hp
  exact pairwise_map.mp hp

theorem keepHardware_plain :
    (keepHardware w hardware subpic).map RunningHardware.plain =
      hardware.map RunningHardware.plain := by
  rw [keepHardware]
  split
  · exact onFirst_map fun _ => rfl
  · rfl

theorem keepHardware_marked
    (hs : HardwareSet hardware) (hx : phw ∈ keepHardware w hardware subpic) (hm : phw.removeMe = true) :
    phw ∈ hardware ∧ ∀ e ∈ onlineEntry w subpic, matchesHw e.1 e.2 phw = false := by
  rw [keepHardware] at hx
  split at hx
  · rename_i name unit he
    have hl : hardware.Pairwise fun a b =>
        matchesHw name unit a = true → matchesHw name unit b = false := by
      refine hs.imp fun {a b} hab ha => ?_
      by_contra hb
      have := matchesHw_same ha (by simpa using hb)
      rw [hab] at this
      cases this
    obtain ⟨hmem, hno⟩ := onFirst_marked (fun _ => rfl) hl hx hm
    rw [he]
    exact ⟨hmem, fun e hm => by obtain rfl := some.inj hm; exact hno⟩
  · rename_i he
    rw [he]
    exact ⟨hx, nofun⟩

theorem classSet_plain {l : List RunningClass}
    (h : l.map RunningClass.plain = classes.map RunningClass.plain) (hs : ClassSet classes) :
    ClassSet l := by
  constructor
  · have hp : (classes.map RunningClass.plain).Pairwise
        fun a b => a.same b.toPsdUsbClass = false := pairwise_map.mpr hs.pairwise
    rw [← h] at hp
    exact pairwise_map.mp hp
  · intro puc hpuc
    have : puc.plain ∈ classes.map RunningClass.plain := h ▸ mem_map_of_mem hpuc
    obtain ⟨x, hx, he⟩ := mem_map.mp this
    have hname : x.plain.className = puc.plain.className := congrArg (fun y => y.className) he
    exact hname ▸ hs.plain x hx

theorem keepClass_plain :
    (keepClass w classes subpic).map RunningClass.plain = classes.map RunningClass.plain := by
  rw [keepClass]
  split
  · exact onFirst_map fun _ => rfl
  · rfl

theorem keepClass_marked (hs : ClassSet classes) (hx : puc ∈ keepClass w classes subpic)
    (hm : puc.removeMe = true) :
    puc ∈ classes ∧ ∀ name ∈ cfgName w subpic, ¬ Names name puc := by
  rw [keepClass] at hx
  cases hname : cfgName w subpic with
  | none =>
    rw [hname] at hx
    exact ⟨hx, nofun⟩
  | some name =>
    rw [hname, bind_some] at hx
    suffices h : puc ∈ classes ∧ ¬ Names name puc from
      ⟨h.1, fun n hn => by obtain rfl := some.inj hn; exact h.2⟩
    split at hx
    · rename_i found hfound
      obtain ⟨hmem, hnames⟩ := pFindName_some hfound
      have hclass := hnames.className (hs.plain found hmem)
      have hl : classes.Pairwise fun a b => decide (a.className = found.className) = true →
          decide (b.className = found.className) = false := by
        refine hs.pairwise.imp fun {a b} hab ha => ?_
        have ha : a.className = found.className := by simpa using ha
        by_contra hb
        have hb : b.className = found.className := by simpa using hb
        rw [PsdUsbClass.same, ha, hb, hclass] at hab
        simp at hab
      obtain ⟨hx, hno⟩ := onFirst_marked (fun _ => rfl) hl hx hm
      refine ⟨hx, fun hn => ?_⟩
      have := (hn.className (hs.plain puc hx)).trans hclass.symm
      simp [this] at hno
    · rename_i hnone
      exact ⟨hx, pFindName_none hnone puc hx⟩

theorem foldl_added {α σ ε : Type} {add : Adding α → σ → Adding α} {I : List α → Prop}
    {entry : σ → Option ε} {stands : ε → α → Prop}
    (hstep : ∀ a s, I a.nodes → I (add a s).nodes ∧ (∀ x ∈ a.nodes, x ∈ (add a s).nodes) ∧
      ((add a s).ok = true → a.ok = true ∧ ∀ e ∈ entry s, ∃ x ∈ (add a s).nodes, stands e x))
    (entries : List σ) {a : Adding α} (ha : I a.nodes) :
    I (entries.foldl add a).nodes ∧ (∀ x ∈ a.nodes, x ∈ (entries.foldl add a).nodes) ∧
      ((entries.foldl add a).ok = true → a.ok = true ∧
        ∀ s ∈ entries, ∀ e ∈ entry s, ∃ x ∈ (entries.foldl add a).nodes, stands e x) := by
  induction entries generalizing a with
  | nil => exact ⟨ha, fun x hx => hx, fun hok => ⟨hok, nofun⟩⟩
  | cons s entries ih =>
    obtain ⟨hI, hsub, hok⟩ := hstep a s ha
    obtain ⟨hI', hsub', hok'⟩ := ih hI
    refine ⟨hI', fun x hx => hsub' x (hsub x hx), fun h => ?_⟩
    obtain ⟨h, hrest⟩ := hok' h
    obtain ⟨h, hfirst⟩ := hok h
    refine ⟨h, forall_mem_cons.mpr ⟨fun e he => ?_, hrest⟩⟩
    obtain ⟨x, hx, hs⟩ := hfirst e he
    exact ⟨x, hsub' x hx, hs⟩

theorem mountHardware_spec {a : Adding RunningHardware} (hs : HardwareSet a.nodes)
    (name : List Char) (unit : ℕ) :
    HardwareSet (mountHardware a name unit).nodes ∧
      (∀ x ∈ a.nodes, x ∈ (mountHardware a name unit).nodes) ∧
      ((mountHardware a name unit).ok = true → a.ok = true ∧
        ∃ x ∈ (mountHardware a name unit).nodes, matchesHw name unit x = true) := by
  rw [mountHardware]
  split
  · exact ⟨hs, fun x hx => hx, nofun⟩
  · rename_i hfind
    have hnone : ∀ x ∈ a.nodes, matchesHw (psdHwFilePart name) unit x = false := by
      simpa using hfind
    have hset : HardwareSet (a.nodes ++ [⟨⟨psdHwFilePart name, unit⟩, false⟩]) := by
      refine pairwise_append.mpr ⟨hs, pairwise_singleton _ _, fun x hx y hy => ?_⟩
      obtain rfl := mem_singleton.mp hy
      exact hnone x hx
    rcases outcome a.out with ⟨_ | _, out⟩
    · exact ⟨hs, fun x hx => hx, nofun⟩
    · simp only [Bool.not_true, Bool.false_eq_true, if_false, dropLast_concat]
      rcases (outcome out).1 with _ | _
      · exact ⟨hs, fun x hx => hx, nofun⟩
      · refine ⟨hset, fun x hx => mem_append_left _ hx, fun hok => ⟨hok, ?_⟩⟩
        refine ⟨⟨⟨psdHwFilePart name, unit⟩, false⟩, mem_append_right _ (by simp), ?_⟩
        rw [matchesHw, ← psdHwMatch_filePart]
        simp [psdHwMatch, psdHwNameMatch, strieq]

theorem mountMissing_spec (a : Adding RunningHardware) (subpic : PsdIFFContext)
    (hs : HardwareSet a.nodes) :
    HardwareSet (mountMissingHardware w a subpic).nodes ∧
      (∀ x ∈ a.nodes, x ∈ (mountMissingHardware w a subpic).nodes) ∧
      ((mountMissingHardware w a subpic).ok = true → a.ok = true ∧
        ∀ e ∈ onlineEntry w subpic, ∃ x ∈ (mountMissingHardware w a subpic).nodes,
          matchesHw e.1 e.2 x = true) := by
  rw [mountMissingHardware]
  cases onlineEntry w subpic with
  | none => exact ⟨hs, fun x hx => hx, fun hok => ⟨hok, nofun⟩⟩
  | some e =>
    simp only
    split
    · rename_i hfind
      refine ⟨hs, fun x hx => hx, fun hok => ⟨hok, fun e' he => ?_⟩⟩
      obtain rfl := some.inj he
      simpa using hfind
    · obtain ⟨hset, hsub, hok⟩ := mountHardware_spec hs e.1 e.2
      refine ⟨hset, hsub, fun h => ⟨(hok h).1, fun e' he => ?_⟩⟩
      obtain rfl := some.inj he
      exact (hok h).2

theorem filePart_trailing (x s : List Char) :
    filePart x s = x ∨ ∃ pre c, sep c ∧ s = pre ++ c :: filePart x s := by
  induction s generalizing x with
  | nil => exact .inl rfl
  | cons c s ih =>
    rw [filePart]
    split
    · rename_i hc
      rcases ih s with h | ⟨pre, d, hd, h⟩
      · exact .inr ⟨[], c, hc, by rw [h]; rfl⟩
      · exact .inr ⟨c :: pre, d, hd, congrArg (c :: ·) h⟩
    · rcases ih x with h | ⟨pre, d, hd, h⟩
      · exact .inl h
      · exact .inr ⟨c :: pre, d, hd, congrArg (c :: ·) h⟩

theorem names_filePart (hne : psdHwFilePart name ≠ [])
    (hc : puc.className = some (psdHwFilePart name)) : Names name puc :=
  ⟨psdHwFilePart name, ⟨hne, filePart_trailing name name⟩, hc⟩

theorem enqueueClass_perm (classes : List RunningClass) (puc : RunningClass) :
    (enqueueClass classes puc).Perm (puc :: classes) := by
  have h : (enqueueClass classes puc).Perm (puc :: (classes.takeWhile (fun x => puc.pri ≤ x.pri) ++
      classes.dropWhile fun x => puc.pri ≤ x.pri)) := perm_middle
  rwa [takeWhile_append_dropWhile] at h

theorem addClass_spec {a : Adding RunningClass} (hw : OpensByName w) (hs : ClassSet a.nodes)
    (name : List Char) :
    ClassSet (addClass w a name).nodes ∧ (∀ x ∈ a.nodes, x ∈ (addClass w a name).nodes) ∧
      ((addClass w a name).ok = true → a.ok = true ∧
        ∃ x ∈ (addClass w a name).nodes, Names name x) := by
  rw [addClass]
  split
  · exact ⟨hs, fun x hx => hx, nofun⟩
  · rename_i cls hopen
    rw [openClass_eq] at hopen
    obtain ⟨part, hpart, hlib⟩ := tryParts_some hopen
    obtain ⟨hne, rfl⟩ := hw part cls hlib
    rw [(partFrom_true.mp hpart).filePart] at hne ⊢
    split
    · exact ⟨hs, fun x hx => hx, nofun⟩
    · rename_i hfind
      have hnone : ∀ x ∈ a.nodes, x.className ≠ some (psdHwFilePart name) := by
        simpa [findClass] using hfind
      rcases outcome a.out with ⟨_ | _, out⟩
      · exact ⟨hs, fun x hx => hx, nofun⟩
      · simp only [Bool.not_true, Bool.false_eq_true, if_false]
        generalize (outcome out).1 = copied
        have hperm := enqueueClass_perm a.nodes
          ⟨⟨if copied then some (psdHwFilePart name) else none, w.priority (psdHwFilePart name)⟩, 0,
            false⟩
        refine ⟨⟨?_, fun puc hpuc => ?_⟩, fun x hx => hperm.symm.subset (mem_cons_of_mem _ hx),
          fun hok => ?_⟩
        · refine (hperm.pairwise_iff cls_same_comm).mpr (pairwise_cons.mpr
            ⟨fun x hx => cls_same_comm ?_, hs.pairwise⟩)
          cases copied with
          | false => exact same_unnamed _ _
          | true => simp [PsdUsbClass.same, hnone x hx]
        · rcases mem_cons.mp (hperm.subset hpuc) with rfl | hpuc
          · intro n hn
            cases copied with
            | false => cases hn
            | true =>
              obtain rfl := some.inj hn
              exact psdHwFilePart_clean name
          · exact hs.plain puc hpuc
        · obtain ⟨hall, rfl⟩ := Bool.and_eq_true_iff.mp hok
          exact ⟨hall, _, hperm.symm.subset mem_cons_self, names_filePart hne rfl⟩

theorem addMissing_spec (hw : OpensByName w) (a : Adding RunningClass) (subpic : PsdIFFContext)
    (hs : ClassSet a.nodes) :
    ClassSet (addMissingClass w a subpic).nodes ∧
      (∀ x ∈ a.nodes, x ∈ (addMissingClass w a subpic).nodes) ∧
      ((addMissingClass w a subpic).ok = true → a.ok = true ∧
        ∀ name ∈ cfgName w subpic, ∃ x ∈ (addMissingClass w a subpic).nodes, Names name x) := by
  rw [addMissingClass]
  cases cfgName w subpic with
  | none => exact ⟨hs, fun x hx => hx, fun hok => ⟨hok, nofun⟩⟩
  | some name =>
    simp only
    split
    · rename_i hfind
      refine ⟨hs, fun x hx => hx, fun hok => ⟨hok, fun n hn => ?_⟩⟩
      obtain rfl := some.inj hn
      obtain ⟨puc, hpuc⟩ := isSome_iff_exists.mp hfind
      exact ⟨puc, pFindName_some hpuc⟩
    · obtain ⟨hset, hsub, hok⟩ := addClass_spec hw hs name
      refine ⟨hset, hsub, fun h => ⟨(hok h).1, fun n hn => ?_⟩⟩
      obtain rfl := some.inj hn
      exact (hok h).2

def Once {α : Type} (p : α → Prop) (l : List α) : Prop :=
  ∃ pre x post, l = pre ++ x :: post ∧ p x ∧ ∀ y ∈ pre ++ post, ¬ p y

theorem once_of_pairwise {α : Type} {p : α → Prop} {l : List α} {x : α}
    (hl : l.Pairwise fun a b => ¬ (p a ∧ p b)) (hx : x ∈ l) (hp : p x) : Once p l := by
  obtain ⟨pre, post, rfl⟩ := append_of_mem hx
  obtain ⟨-, hpost, hpre⟩ := pairwise_append.mp hl
  refine ⟨pre, x, post, rfl, hp, fun y hy hpy => ?_⟩
  rcases mem_append.mp hy with hy | hy
  · exact hpre y hy x mem_cons_self ⟨hpy, hp⟩
  · exact (pairwise_cons.mp hpost).1 y hy ⟨hp, hpy⟩

def entries (root : Option PsdIFFContext) (formid : UInt32) : List PsdIFFContext :=
  match root.bind fun root => psdFindCfgForm root IFFFORM_STACKCFG with
  | some pic => cfgForms pic formid
  | none => []

theorem cfgForms_ne_nil {formid : UInt32} (h : (psdFindCfgForm pic formid).isSome = true) :
    cfgForms pic formid ≠ [] := by
  obtain ⟨subpic, hsub⟩ := isSome_iff_exists.mp h
  refine ne_nil_of_mem (a := subpic) (mem_filter.mpr ⟨mem_of_find?_eq_some hsub, ?_⟩)
  simpa using find?_some hsub

section passes

variable {α : Type} {marked : α → Bool} {plain : α → α} {l l' : List α} {x : α}

theorem mem_kept_or_removed (h : l'.map plain = l.map plain) (hx : x ∈ l) {kept : List α}
    (hk : ∀ y ∈ l'.filter (fun y => !marked y), y ∈ kept) :
    plain x ∈ (kept ++ l'.filter marked).map plain := by
  have hm : plain x ∈ l'.map plain := h ▸ mem_map_of_mem hx
  obtain ⟨y, hy, he⟩ := mem_map.mp hm
  rw [← he]
  refine mem_map_of_mem (mem_append.mpr ?_)
  by_cases hmark : marked y = true
  · exact .inr (mem_filter.mpr ⟨hy, hmark⟩)
  · exact .inl (hk y (mem_filter.mpr ⟨hy, by simpa using hmark⟩))

end passes

theorem markedHardware (hs : HardwareSet hardware) (pic : PsdIFFContext) {l : List RunningHardware}
    (hl : l = (cfgForms pic IFFFORM_UHWDEVICE).foldl (keepHardware w)
      (selectHardware (psdFindCfgForm pic IFFFORM_UHWDEVICE).isSome hardware)) :
    HardwareSet l ∧ l.map RunningHardware.plain = hardware.map RunningHardware.plain ∧
      ∀ phw ∈ l, phw.removeMe = true → cfgForms pic IFFFORM_UHWDEVICE ≠ [] ∧
        ∀ subpic ∈ cfgForms pic IFFFORM_UHWDEVICE, ∀ e ∈ onlineEntry w subpic,
          matchesHw e.1 e.2 phw = false := by
  subst hl
  have hsel : (selectHardware (psdFindCfgForm pic IFFFORM_UHWDEVICE).isSome hardware).map
      RunningHardware.plain = hardware.map RunningHardware.plain := by
    rw [selectHardware, List.map_map]
    rfl
  have hset := hardwareSet_plain hsel hs
  have hstep : ∀ l s, (keepHardware w l s).map RunningHardware.plain = l.map RunningHardware.plain :=
    fun _ _ => keepHardware_plain
  have hmap := (foldl_map_eq hstep (cfgForms pic IFFFORM_UHWDEVICE) _).trans hsel
  refine ⟨hardwareSet_plain hmap hs, hmap, fun phw hx hm => ?_⟩
  obtain ⟨hx, hno⟩ := foldl_marked (I := HardwareSet)
    (fun l s hl => hardwareSet_plain (hstep l s) hl)
    (fun l s hl x hx hm => keepHardware_marked hl hx hm) (cfgForms pic IFFFORM_UHWDEVICE) hset phw
    hx hm
  obtain ⟨y, -, rfl⟩ := List.mem_map.mp hx
  exact ⟨cfgForms_ne_nil hm, hno⟩

theorem markedClasses (hs : ClassSet classes) (pic : PsdIFFContext) {l : List RunningClass}
    (hl : l = (cfgForms pic IFFFORM_USBCLASS).foldl (keepClass w)
      (selectClasses w (psdFindCfgForm pic IFFFORM_USBCLASS).isSome classes)) :
    ClassSet l ∧ l.map RunningClass.plain = classes.map RunningClass.plain ∧
      ∀ puc ∈ l, puc.removeMe = true → cfgForms pic IFFFORM_USBCLASS ≠ [] ∧
        (∀ subpic ∈ cfgForms pic IFFFORM_USBCLASS, ∀ name ∈ cfgName w subpic, ¬ Names name puc) ∧
        ¬ (puc.className.any w.findResident = true ∧ puc.useCnt ≠ 0) := by
  subst hl
  have hsel : (selectClasses w (psdFindCfgForm pic IFFFORM_USBCLASS).isSome classes).map
      RunningClass.plain = classes.map RunningClass.plain := by
    rw [selectClasses, List.map_map]
    rfl
  have hset := classSet_plain hsel hs
  have hstep : ∀ l s, (keepClass w l s).map RunningClass.plain = l.map RunningClass.plain :=
    fun _ _ => keepClass_plain
  have hmap := (foldl_map_eq hstep (cfgForms pic IFFFORM_USBCLASS) _).trans hsel
  refine ⟨classSet_plain hmap hs, hmap, fun puc hx hm => ?_⟩
  obtain ⟨hx, hno⟩ := foldl_marked (I := ClassSet)
    (fun l s hl => classSet_plain (hstep l s) hl)
    (fun l s hl x hx hm => keepClass_marked hl hx hm) (cfgForms pic IFFFORM_USBCLASS) hset puc hx hm
  obtain ⟨y, -, rfl⟩ := List.mem_map.mp hx
  have hfound : (psdFindCfgForm pic IFFFORM_USBCLASS).isSome = true := by
    by_contra hfound
    rw [Bool.not_eq_true] at hfound
    simp only [hfound, Bool.not_false, if_true, Bool.false_eq_true] at hm
  refine ⟨cfgForms_ne_nil hfound, hno, ?_⟩
  rintro ⟨hres, huse⟩
  simp only [hres, huse, if_true, decide_false] at hm
  split at hm <;> cases hm

/-- Of what ran, only what a list of its kind is there for and does not name is removed, and no
in-use resident class; and each listed entry is there once where the additions have gone well. -/
structure KeepsListed (w : ParseWorld) (hardware : List RunningHardware)
    (classes : List RunningClass) (uhwdevices usbclasses : List PsdIFFContext)
    (parsed : Parsed) : Prop where
  hardware_stays : ∀ phw ∈ hardware,
    phw.plain ∈ (parsed.hardware ++ parsed.remHardware).map RunningHardware.plain
  hardware_removed : ∀ phw ∈ parsed.remHardware, uhwdevices ≠ [] ∧
    ∀ subpic ∈ uhwdevices, ∀ e ∈ onlineEntry w subpic,
      psdHwMatch (some phw.devName) phw.unit (some e.1) e.2 = false
  class_stays : ∀ puc ∈ classes,
    puc.plain ∈ (parsed.classes ++ parsed.remClasses).map RunningClass.plain
  class_removed : ∀ puc ∈ parsed.remClasses, usbclasses ≠ [] ∧
    (∀ subpic ∈ usbclasses, ∀ name ∈ cfgName w subpic, ¬ Names name puc) ∧
    ¬ (puc.className.any w.findResident = true ∧ puc.useCnt ≠ 0)
  hardware_once : parsed.ok = true → ∀ subpic ∈ uhwdevices, ∀ e ∈ onlineEntry w subpic,
    Once (fun phw => psdHwMatch (some phw.devName) phw.unit (some e.1) e.2 = true) parsed.hardware
  class_once : parsed.ok = true → ∀ subpic ∈ usbclasses, ∀ name ∈ cfgName w subpic,
    Once (Names name) parsed.classes

theorem hardware_once (hs : HardwareSet hardware) (hx : phw ∈ hardware)
    (hm : matchesHw name unit phw = true) :
    Once (fun phw => psdHwMatch (some phw.devName) phw.unit (some name) unit = true) hardware := by
  refine once_of_pairwise (hs.imp fun {a b} hab h => ?_) hx hm
  rw [matchesHw_same h.1 h.2] at hab
  cases hab

theorem class_once (hs : ClassSet classes) (hx : puc ∈ classes) (hn : Names name puc) :
    Once (Names name) classes := by
  refine once_of_pairwise (hs.pairwise.imp_of_mem fun {a b} ha hb hab h => ?_) hx hn
  have hca := h.1.className (hs.plain a ha)
  have hcb := h.2.className (hs.plain b hb)
  rw [PsdUsbClass.same, hca, hcb] at hab
  simp at hab

theorem psdParseCfg_keeps_listed (hw : OpensByName w) (hs : HardwareSet hardware)
    (hc : ClassSet classes) (out : List Bool) (root : Option PsdIFFContext) :
    KeepsListed w hardware classes (entries root IFFFORM_UHWDEVICE) (entries root IFFFORM_USBCLASS)
      (psdParseCfg w out root hardware classes) := by
  unfold psdParseCfg entries
  cases root.bind fun root => psdFindCfgForm root IFFFORM_STACKCFG with
  | none =>
    exact
      { hardware_stays := fun phw hx => List.mem_map_of_mem (by simpa using hx)
        hardware_removed := nofun
        class_stays := fun puc hx => List.mem_map_of_mem (by simpa using hx)
        class_removed := nofun
        hardware_once := nofun
        class_once := nofun }
  | some pic =>
    obtain ⟨hset, hmap, hmarked⟩ := markedHardware (w := w) hs pic rfl
    obtain ⟨hcset, hcmap, hcmarked⟩ := markedClasses (w := w) hc pic rfl
    simp only
    -- the nodes that stay are a set too, and additions keep them
    generalize (cfgForms pic IFFFORM_UHWDEVICE).foldl (keepHardware w) _ = hardware' at *
    generalize (cfgForms pic IFFFORM_USBCLASS).foldl (keepClass w) _ = classes' at *
    have hkept : HardwareSet (hardware'.filter fun phw => !phw.removeMe) :=
      hset.sublist filter_sublist
    have hckept : ClassSet (classes'.filter fun puc => !puc.removeMe) :=
      ⟨hcset.pairwise.sublist filter_sublist,
        fun puc hx => hcset.plain puc (mem_of_mem_filter hx)⟩
    obtain ⟨hcls, hcsub, hcok⟩ := foldl_added (addMissing_spec hw) (cfgForms pic IFFFORM_USBCLASS)
      (a := ⟨_, true, out⟩) hckept
    generalize (cfgForms pic IFFFORM_USBCLASS).foldl (addMissingClass w) _ = added at *
    obtain ⟨hmnt, hmsub, hmok⟩ := foldl_added (mountMissing_spec (w := w))
      (cfgForms pic IFFFORM_UHWDEVICE) (a := ⟨_, true, added.out⟩) hkept
    generalize (cfgForms pic IFFFORM_UHWDEVICE).foldl (mountMissingHardware w) _ = mounted at *
    exact
      { hardware_stays := fun phw hx => mem_kept_or_removed hmap hx hmsub
        hardware_removed := fun phw hx =>
          hmarked phw (mem_of_mem_filter hx) (of_mem_filter hx)
        class_stays := fun puc hx => mem_kept_or_removed hcmap hx hcsub
        class_removed := fun puc hx =>
          hcmarked puc (mem_of_mem_filter hx) (of_mem_filter hx)
        hardware_once := fun hok subpic hsub e he => by
          obtain ⟨x, hx, hm⟩ := (hmok (Bool.and_eq_true_iff.mp hok).2).2 subpic hsub e he
          exact hardware_once hmnt hx hm
        class_once := fun hok subpic hsub name hname => by
          obtain ⟨x, hx, hn⟩ := (hcok (Bool.and_eq_true_iff.mp hok).1).2 subpic hsub name hname
          exact class_once hcls hx hn }

def oneClassCfg : PsdIFFContext :=
  ⟨IFFFORM_PSDCFG, .empty, [⟨IFFFORM_STACKCFG, .empty,
    [⟨IFFFORM_USBCLASS, CfgChunks.empty.put
      ⟨IFFCHNK_NAME, [100, 47, 104, 105, 100, 0], [], IFFCHNK_NAME.2, rfl⟩, []⟩]⟩]⟩

def bootWorld : ParseWorld where
  behind := fun _ _ => []
  findResident := fun name => name = ['h', 'u', 'b']
  openLibrary := fun part =>
    if psdHwFilePart part = [] then none else some (psdHwFilePart part)
  priority := fun _ => 0

def bootHardware : List RunningHardware := [⟨⟨['x', 'h', 'c', 'i'], 0⟩, true⟩]

def bootClasses : List RunningClass :=
  [⟨⟨some ['h', 'u', 'b'], 0⟩, 1, true⟩, ⟨⟨some ['c', 'd', 'c'], 0⟩, 1, false⟩]

theorem bootWorld_opensByName : OpensByName bootWorld := by
  intro part name h
  simp only [bootWorld] at h
  split at h
  · cases h
  · rename_i hne
    obtain rfl := some.inj h
    exact ⟨hne, rfl⟩

theorem psdParseCfg_keeps_listed_boot :
    KeepsListed bootWorld bootHardware bootClasses (entries (some oneClassCfg) IFFFORM_UHWDEVICE)
      (entries (some oneClassCfg) IFFFORM_USBCLASS)
      (psdParseCfg bootWorld [] (some oneClassCfg) bootHardware bootClasses) :=
  psdParseCfg_keeps_listed bootWorld_opensByName (by unfold HardwareSet; decide)
    ⟨by decide, by simp [bootClasses, sep]⟩ [] (some oneClassCfg)

/-- The controller and the resident class stay, the listed class is added, the other one goes. -/
example : psdParseCfg bootWorld [] (some oneClassCfg) bootHardware bootClasses =
    ⟨[⟨⟨['x', 'h', 'c', 'i'], 0⟩, false⟩],
      [⟨⟨some ['h', 'u', 'b'], 0⟩, 1, false⟩, ⟨⟨some ['h', 'i', 'd'], 0⟩, 0, false⟩], [],
      [⟨⟨some ['c', 'd', 'c'], 0⟩, 1, true⟩], true⟩ := by
  rfl

end Neptune
