import Neptune.Spec.SafeEject

/-! What a safe eject tells its caller, whoever else is ejecting the device. -/

namespace Neptune.SafeEject

open List Option

open NepMSBase

variable {s₀ s t : NepMSBase} {pd c c' : ℕ} {call call' : Call} {e : Event} {entry : DosEntry}
  {units : List NepClassMS} {w : World}

def Rides (units : List NepClassMS) (pd : ℕ) (entry : DosEntry) : Prop :=
  (nLUNForDosEntry units pd entry).isSome = true

instance : Decidable (Rides units pd entry) := inferInstanceAs (Decidable (_ = _))

structure Honest (pd : ℕ) (s₀ t : NepMSBase) : Prop where
  ok : ∀ (c : ℕ) (latched : Bool), t.calls[c]? = some (.returned .ok latched) →
    ∀ entry ∈ s₀.devices, Rides s₀.units pd entry → entry ∈ t.verified ∧ entry ∉ t.devices
  refused : ∀ (c : ℕ) (res : Res) (latched : Bool), t.calls[c]? = some (.returned res latched) → res ≠ .ok →
    latched = false ∧ (∀ entry, (c, entry) ∉ t.removed) ∧ ∀ entry, (c, entry) ∉ t.inhibits

/-- A call that finds the latch set finds no other at work, or nothing left to do; and one that does
not come so far finds no unit latched. -/
def GoesAlone (pd : ℕ) (s : NepMSBase) (w : World) : Call → Prop
  | .test _ =>
    s.latched pd = true → (∀ call ∈ s.calls, call.working = false) ∨
      ∀ entry ∈ s.devices, ¬ Rides s.units pd entry
  | .openDOS => w.dosLibrary = true ∨ s.latched pd = false
  | _ => True

def Alone (pd : ℕ) (s : NepMSBase) : Event → Prop
  | .call _ process => process = true ∨ s.latched pd = false
  | .go c w => ∀ call ∈ s.calls[c]?, GoesAlone pd s w call

instance : DecidablePred (GoesAlone pd s w)
  | .test _ => inferInstanceAs (Decidable (_ → _ ∨ _))
  | .openDOS => inferInstanceAs (Decidable (_ ∨ _))
  | .latch | .collect | .inhibit _ _ | .rollback _ | .unlatch _ | .remove _ | .quiesce
  | .returned _ _ => inferInstanceAs (Decidable True)

instance : Decidable (Alone pd s e) :=
  match e with
  | .call _ _ => inferInstanceAs (Decidable (_ ∨ _))
  | .go _ _ => inferInstanceAs (Decidable (∀ call ∈ _, GoesAlone pd s _ call))

def NepClassMS.ident (l : NepClassMS) : ℕ × ℕ := (l.unitNo, l.device)

def Call.holds (entry : DosEntry) : Call → Prop
  | .inhibit before _ | .rollback before => ∃ n ∈ before, n.node = entry ∧ n.inhibited = true
  | .remove _ | .quiesce | .returned .ok _ => True
  | _ => False

def Call.removes : Call → Prop
  | .remove _ | .quiesce | .returned .ok _ => True
  | _ => False

def Knows (pd : ℕ) (s₀ s : NepMSBase) : Call → Prop
  | .test unit => ((s₀.units.map NepClassMS.ident)[unit]?).map Prod.snd = some pd
  | .inhibit before rest =>
    (∀ entry ∈ s.devices, Rides s₀.units pd entry → ∃ n ∈ before ++ rest, n.node = entry) ∧
      ∀ n ∈ before, n.node ∈ s.verified
  | .remove rest =>
    (∀ entry ∈ s.devices, Rides s₀.units pd entry → ∃ n ∈ rest, n.node = entry) ∧
      ∀ n ∈ rest, n.node ∈ s.verified
  | .quiesce | .returned .ok _ => ∀ entry ∈ s.devices, ¬ Rides s₀.units pd entry
  | .unlatch res => res ≠ .ok
  | .returned _ latched => latched = false
  | _ => True

structure At (pd : ℕ) (s₀ s : NepMSBase) (c : ℕ) (call : Call) : Prop where
  holds : ∀ entry, (c, entry) ∈ s.inhibits → call.holds entry
  removes : ∀ entry, (c, entry) ∈ s.removed → call.removes
  knows : Knows pd s₀ s call

structure Inv (pd : ℕ) (s₀ s : NepMSBase) : Prop where
  ident : s.units.map NepClassMS.ident = s₀.units.map NepClassMS.ident
  gone : ∀ entry ∈ s₀.devices, Rides s₀.units pd entry → entry ∈ s.devices ∨ entry ∈ s.verified
  /-- The latch is of a call at work, or of one that has removed all. -/
  latch : s.latched pd = true → (∃ call ∈ s.calls, call.working = true) ∨
    ∀ entry ∈ s.devices, ¬ Rides s₀.units pd entry
  calls : ∀ c call, s.calls[c]? = some call → At pd s₀ s c call
  started : (∀ p ∈ s.inhibits, p.1 < s.calls.length) ∧ ∀ p ∈ s.removed, p.1 < s.calls.length

theorem rides_iff : Rides units pd entry ↔
    ∃ p ∈ units.map NepClassMS.ident, p.2 = pd ∧ entry.unit = some p.1 := by
  unfold Rides nLUNForDosEntry nNextLUN nDosEntryMatches NepClassMS.ident
  simp

theorem rides_congr (h : s.units.map NepClassMS.ident = s₀.units.map NepClassMS.ident) :
    Rides s.units pd entry ↔ Rides s₀.units pd entry := by
  rw [rides_iff, rides_iff, h]

theorem ident_map {f : NepClassMS → NepClassMS} (hf : ∀ l, (f l).ident = l.ident) :
    (units.map f).map NepClassMS.ident = units.map NepClassMS.ident := by
  rw [List.map_map]
  exact map_congr_left fun l _ => hf l

theorem nSetEjectLatch_ident (on : Bool) :
    (s.nSetEjectLatch pd on).units.map NepClassMS.ident = s.units.map NepClassMS.ident := by
  apply ident_map
  intro l
  split <;> rfl

theorem latched_off : (s.nSetEjectLatch pd false).latched pd = false := by
  unfold latched nSetEjectLatch nNextLUN
  simp only [List.any_eq_false, mem_filter, List.mem_map]
  rintro _ ⟨⟨l, _, rfl⟩, hdevice⟩
  by_cases hl : l.device = pd
  · rw [if_pos hl]
    exact Bool.false_ne_true
  · rw [if_neg hl] at hdevice
    exact absurd (of_decide_eq_true hdevice) hl

theorem Knows.mono (h : Knows pd s₀ s call) (hdevices : t.devices ⊆ s.devices)
    (hverified : s.verified ⊆ t.verified) : Knows pd s₀ t call := by
  unfold Knows at h ⊢
  split at h <;> try exact h
  · exact ⟨fun entry he => h.1 entry (hdevices he), fun n hn => hverified (h.2 n hn)⟩
  · exact ⟨fun entry he => h.1 entry (hdevices he), fun n hn => hverified (h.2 n hn)⟩
  · exact fun entry he => h entry (hdevices he)
  · exact fun entry he => h entry (hdevices he)

theorem Inv.move (h : Inv pd s₀ s) (hc : s.calls[c]? = some call) (hcalls : t.calls = s.calls.set c call')
    (hident : t.units.map NepClassMS.ident = s.units.map NepClassMS.ident)
    (hdevices : t.devices ⊆ s.devices) (hverified : s.verified ⊆ t.verified)
    (hgone : ∀ entry ∈ s.devices, entry ∈ t.devices ∨ entry ∈ t.verified)
    (hinhibits : ∀ p ∈ t.inhibits, p ∈ s.inhibits ∨ p.1 = c)
    (hremoved : ∀ p ∈ t.removed, p ∈ s.removed ∨ p.1 = c)
    (hlatch : t.latched pd = true → call'.working = true ∨
      (∀ entry ∈ t.devices, ¬ Rides s₀.units pd entry) ∨ s.latched pd = true ∧ call.working = false)
    (hat : At pd s₀ t c call') : Inv pd s₀ t := by
  have hlt : c < s.calls.length := (List.getElem?_eq_some_iff.mp hc).1
  have hlength : t.calls.length = s.calls.length := by rw [hcalls, length_set]
  have hother : ∀ c', c' ≠ c → t.calls[c']? = s.calls[c']? := by
    intro c' hne
    rw [hcalls, List.getElem?_set_ne hne.symm]
  refine ⟨hident.trans h.ident, ?_, ?_, ?_, ?_, ?_⟩
  · intro entry he hrides
    rcases h.gone entry he hrides with hin | hver
    · exact hgone entry hin
    · exact Or.inr (hverified hver)
  · intro ht
    rcases hlatch ht with hworks | hnone | ⟨hs, hidle⟩
    · exact Or.inl ⟨call', by rw [hcalls]; exact mem_set hlt call', hworks⟩
    · exact Or.inr hnone
    · rcases h.latch hs with ⟨other, hmem, hworks⟩ | hnone
      · obtain ⟨c', hc'⟩ := mem_iff_getElem?.mp hmem
        have hne : c' ≠ c := by
          rintro rfl
          obtain rfl := some.inj (hc.symm.trans hc')
          exact absurd hworks (by rw [hidle]; decide)
        exact Or.inl ⟨other, mem_iff_getElem?.mpr ⟨c', (hother c' hne).trans hc'⟩, hworks⟩
      · exact Or.inr fun entry he => hnone entry (hdevices he)
  · intro c' other hother'
    by_cases hne : c' = c
    · subst hne
      rw [hcalls, List.getElem?_set_self hlt] at hother'
      obtain rfl := some.inj hother'
      exact hat
    · have hold := h.calls c' other ((hother c' hne).symm.trans hother')
      refine ⟨fun entry hp => ?_, fun entry hp => ?_, hold.knows.mono hdevices hverified⟩
      · exact hold.holds entry ((hinhibits _ hp).resolve_right hne)
      · exact hold.removes entry ((hremoved _ hp).resolve_right hne)
  · intro p hp
    rw [hlength]
    rcases hinhibits p hp with hp | rfl
    · exact h.started.1 p hp
    · exact hlt
  · intro p hp
    rw [hlength]
    rcases hremoved p hp with hp | rfl
    · exact h.started.2 p hp
    · exact hlt

theorem Inv.goto (h : Inv pd s₀ s) (hc : s.calls[c]? = some call)
    (hworks : s.latched pd = true → call'.working = true ∨
      (∀ entry ∈ s.devices, ¬ Rides s₀.units pd entry) ∨ call.working = false)
    (hat : At pd s₀ s c call → At pd s₀ s c call') : Inv pd s₀ (s.goto c call') := by
  refine h.move hc rfl rfl (List.Subset.refl _) (List.Subset.refl _) (fun _ => Or.inl)
    (fun _ => Or.inl) (fun _ => Or.inl) ?_ ?_
  · intro hlatched
    exact (hworks hlatched).imp id (Or.imp id fun hidle => ⟨hlatched, hidle⟩)
  · have hold := hat (h.calls c call hc)
    exact ⟨hold.holds, hold.removes, hold.knows⟩

theorem At.clear (h : At pd s₀ s c call) (hholds : ∀ entry, ¬ call.holds entry) (hremoves : ¬ call.removes)
    (hknows : Knows pd s₀ s call') : At pd s₀ s c call' :=
  ⟨fun entry hp => absurd (h.holds entry hp) (hholds entry), fun entry hp =>
    absurd (h.removes entry hp) hremoves, hknows⟩

theorem Inv.test {unit : ℕ} {ncm : NepClassMS} (h : Inv pd s₀ s) (hc : s.calls[c]? = some (.test unit))
    (hncm : s.units[unit]? = some ncm) (halone : GoesAlone pd s w (.test unit)) :
    Inv pd s₀ (if ncm.ejected then s.ret pd c .ok else s.goto c .openDOS) := by
  split
  · rename_i hejected
    have hdevice : ncm.device = pd := by
      have hknows : ((s₀.units.map NepClassMS.ident)[unit]?).map Prod.snd = some pd :=
        (h.calls c _ hc).knows
      rw [← h.ident, getElem?_map, hncm] at hknows
      exact some.inj hknows
    have hlatched : s.latched pd = true := by
      refine any_eq_true.mpr ⟨ncm, mem_filter.mpr ⟨mem_of_getElem? hncm, ?_⟩, hejected⟩
      exact decide_eq_true hdevice
    have hnone : ∀ entry ∈ s.devices, ¬ Rides s₀.units pd entry := by
      rcases halone hlatched with hidle | hnone
      · refine (h.latch hlatched).resolve_left ?_
        rintro ⟨call, hmem, hworks⟩
        exact absurd hworks (by rw [hidle call hmem]; decide)
      · exact fun entry he hrides => hnone entry he ((rides_congr h.ident).mpr hrides)
    exact h.goto hc (fun _ => Or.inr (Or.inr rfl)) fun hat => hat.clear (fun _ => id) id hnone
  · exact h.goto hc (fun _ => Or.inr (Or.inr rfl)) fun hat => hat.clear (fun _ => id) id trivial

theorem Inv.openDOS (h : Inv pd s₀ s) (hc : s.calls[c]? = some .openDOS)
    (halone : GoesAlone pd s w .openDOS) :
    Inv pd s₀ (if w.dosLibrary then s.goto c .latch else s.ret pd c .fail) := by
  split
  · exact h.goto hc (fun _ => Or.inr (Or.inr rfl)) fun hat => hat.clear (fun _ => id) id trivial
  · rename_i hno
    refine h.goto hc (fun _ => Or.inr (Or.inr rfl)) fun hat => hat.clear (fun _ => id) id ?_
    exact halone.resolve_left hno

theorem Inv.setLatch {on : Bool} (h : Inv pd s₀ s) (hc : s.calls[c]? = some call)
    (hlatch : (s.nSetEjectLatch pd on).latched pd = true → call'.working = true)
    (hat : At pd s₀ s c call → At pd s₀ s c call') :
    Inv pd s₀ ((s.nSetEjectLatch pd on).goto c call') := by
  refine h.move hc rfl (nSetEjectLatch_ident on) (List.Subset.refl _) (List.Subset.refl _)
    (fun _ => Or.inl) (fun _ => Or.inl) (fun _ => Or.inl) ?_ ?_
  · exact fun hlatched => Or.inl (hlatch hlatched)
  · have hold := hat (h.calls c call hc)
    exact ⟨hold.holds, hold.removes, hold.knows⟩

variable {n : SafeEjectNode} {before nodes rest : List SafeEjectNode}

theorem mem_collect (h : s.nCollectEjectNodes pd = some nodes)
    (he : entry ∈ s.devices) (hrides : Rides s.units pd entry) : ∃ n ∈ nodes, n.node = entry := by
  unfold nCollectEjectNodes at h
  obtain ⟨_, rfl⟩ := Runs.of_guard h
  obtain ⟨lun, hlun⟩ := isSome_iff_exists.mp hrides
  exact ⟨⟨entry, lun.unitNo, false⟩, mem_filterMap.mpr ⟨entry, he, by rw [hlun]; rfl⟩, rfl⟩

theorem Inv.collect (h : Inv pd s₀ s) (hc : s.calls[c]? = some .collect)
    (hnodes : s.nCollectEjectNodes pd = some nodes) : Inv pd s₀ (s.goto c (.inhibit [] nodes)) := by
  refine h.goto hc (fun _ => Or.inl rfl) fun hat => hat.clear (fun _ => id) id ⟨?_, nofun⟩
  intro entry he hrides
  exact mem_collect hnodes he ((rides_congr h.ident).mpr hrides)

theorem Inv.pass (n' : SafeEjectNode)
    (h : Inv pd s₀ s)
    (hc : s.calls[c]? = some (.inhibit before (n :: rest))) (hn : n'.node = n.node)
    (hverified : t.verified = s.verified ++ [n.node]) (hunits : t.units = s.units)
    (hdevices : t.devices = s.devices) (hremoved : t.removed = s.removed)
    (hcalls : t.calls = s.calls.set c (.inhibit (n' :: before) rest))
    (hinhibits : ∀ p ∈ t.inhibits, p ∈ s.inhibits ∨ p = (c, n'.node) ∧ n'.inhibited = true) :
    Inv pd s₀ t := by
  have hold := h.calls c _ hc
  obtain ⟨hall, hbefore⟩ := hold.knows
  have hsub : s.verified ⊆ t.verified := by
    rw [hverified]
    exact subset_append_left _ _
  refine h.move hc hcalls (by rw [hunits]) (by rw [hdevices]; exact List.Subset.refl _) hsub
    (fun entry he => Or.inl (by rw [hdevices]; exact he)) ?_ ?_ (fun _ => Or.inl rfl) ?_
  · exact fun p hp => (hinhibits p hp).imp id fun hnew => by rw [hnew.1]
  · exact fun p hp => Or.inl (by rw [← hremoved]; exact hp)
  · refine ⟨fun entry hp => ?_, fun entry hp => ?_, ?_, ?_⟩
    · rcases hinhibits _ hp with hp | ⟨hnew, hyes⟩
      · obtain ⟨m, hm, heq⟩ := hold.holds entry hp
        exact ⟨m, mem_cons_of_mem _ hm, heq⟩
      · exact ⟨n', mem_cons_self, (Prod.mk.inj hnew).2.symm, hyes⟩
    · exact hold.removes entry (hremoved ▸ hp)
    · intro entry he hrides
      obtain ⟨m, hm, rfl⟩ := hall entry (hdevices ▸ he) hrides
      rcases mem_append.mp hm with hm | hm
      · exact ⟨m, mem_append_left _ (mem_cons_of_mem _ hm), rfl⟩
      rcases mem_cons.mp hm with rfl | hm
      · exact ⟨n', mem_append_left _ mem_cons_self, hn⟩
      · exact ⟨m, mem_append_right _ hm, rfl⟩
    · intro m hm
      rcases mem_cons.mp hm with rfl | hm
      · rw [hn, hverified]
        exact mem_append_right _ (mem_singleton_self _)
      · exact hsub (hbefore m hm)

section

variable (h : Inv pd s₀ s)
include h

theorem Inv.nInhibit (hc : s.calls[c]? = some (.inhibit before (n :: rest))) (answer : Answer) :
    Inv pd s₀ (s.nInhibit c answer before n rest) := by
  unfold NepMSBase.nInhibit
  cases answer with
  | noTask => exact h.pass n hc rfl rfl rfl rfl rfl rfl fun _ => Or.inl
  | inhibited =>
    refine h.pass { n with inhibited := true } hc rfl rfl rfl rfl rfl rfl fun p hp => ?_
    exact (mem_append.mp hp).imp id fun hp => ⟨mem_singleton.mp hp, rfl⟩
  | error err =>
    simp only
    split
    · exact h.pass n hc rfl rfl rfl rfl rfl rfl fun _ => Or.inl
    · refine h.goto hc (fun _ => Or.inl rfl) fun hat => ?_
      exact ⟨hat.holds, hat.removes, trivial⟩

theorem Inv.release (hc : s.calls[c]? = some (.rollback (n :: before))) : Inv pd s₀ (s.release c n before) := by
  have hold := h.calls c _ hc
  unfold NepMSBase.release
  split
  · refine h.move hc rfl rfl (List.Subset.refl _) (List.Subset.refl _) (fun _ => Or.inl)
      (fun p hp => Or.inl (mem_filter.mp hp).1) (fun _ => Or.inl) (fun _ => Or.inl rfl) ?_
    refine ⟨fun entry hp => ?_, hold.removes, trivial⟩
    obtain ⟨hp, hne⟩ := mem_filter.mp hp
    obtain ⟨m, hm, rfl, hyes⟩ := hold.holds entry hp
    rcases mem_cons.mp hm with rfl | hm
    · exact absurd rfl (of_decide_eq_true hne)
    · exact ⟨m, hm, rfl, hyes⟩
  · rename_i hno
    refine h.goto hc (fun _ => Or.inl rfl) fun hat => ⟨fun entry hp => ?_, hat.removes, trivial⟩
    obtain ⟨m, hm, rfl, hyes⟩ := hat.holds entry hp
    rcases mem_cons.mp hm with rfl | hm
    · exact absurd hyes hno
    · exact ⟨m, hm, rfl, hyes⟩

theorem Inv.drop (hc : s.calls[c]? = some (.remove (n :: rest))) : Inv pd s₀ (s.drop pd c n rest) := by
  have hold := h.calls c _ hc
  obtain ⟨hall, hverified⟩ := hold.knows
  refine h.move hc rfl ?_ (filter_subset_self _) (List.Subset.refl _) ?_ (fun _ => Or.inl) ?_
    (fun _ => Or.inl rfl) ⟨fun _ _ => trivial, fun _ _ => trivial, ?_, ?_⟩
  · apply ident_map
    intro l
    split <;> rfl
  · intro entry he
    by_cases heq : entry = n.node
    · exact Or.inr (heq ▸ hverified n mem_cons_self)
    · exact Or.inl (mem_filter.mpr ⟨he, decide_eq_true heq⟩)
  · intro p hp
    exact (mem_append.mp hp).imp id fun hp => by rw [mem_singleton.mp hp]
  · intro entry he hrides
    obtain ⟨he, hne⟩ := mem_filter.mp he
    obtain ⟨m, hm, rfl⟩ := hall entry he hrides
    rcases mem_cons.mp hm with rfl | hm
    · exact absurd rfl (of_decide_eq_true hne)
    · exact ⟨m, hm, rfl⟩
  · exact fun m hm => hverified m (mem_cons_of_mem _ hm)

theorem Inv.nSafeEjectDevice (hc : s.calls[c]? = some call)
    (halone : GoesAlone pd s w call) (ht : s.nSafeEjectDevice pd c w call = some t) : Inv pd s₀ t := by
  cases call with
  | test unit =>
    cases hncm : s.units[unit]? with
    | none => simp only [NepMSBase.nSafeEjectDevice, hncm, reduceCtorEq] at ht
    | some ncm =>
      simp only [NepMSBase.nSafeEjectDevice, hncm, some.injEq] at ht
      exact ht ▸ h.test hc hncm halone
  | openDOS => exact some.inj ht ▸ h.openDOS hc halone
  | latch =>
    obtain rfl := some.inj ht
    exact h.setLatch hc (fun _ => rfl) fun hat => hat.clear (fun _ => id) id trivial
  | collect =>
    cases hnodes : s.nCollectEjectNodes pd with
    | none =>
      simp only [NepMSBase.nSafeEjectDevice, hnodes, some.injEq] at ht
      subst ht
      exact h.goto hc (fun _ => Or.inl rfl) fun hat => hat.clear (fun _ => id) id nofun
    | some nodes =>
      simp only [NepMSBase.nSafeEjectDevice, hnodes, some.injEq] at ht
      exact ht ▸ h.collect hc hnodes
  | inhibit before rest =>
    cases rest with
    | nil =>
      obtain rfl := some.inj ht
      refine h.goto hc (fun _ => Or.inl rfl) fun hat => ?_
      obtain ⟨hall, hbefore⟩ := hat.knows
      refine ⟨fun _ _ => trivial, fun _ _ => trivial, fun entry he hrides => ?_, fun n hn => ?_⟩
      · obtain ⟨n, hn, heq⟩ := hall entry he hrides
        rw [append_nil] at hn
        exact ⟨n, mem_reverse.mpr hn, heq⟩
      · exact hbefore n (mem_reverse.mp hn)
    | cons n rest =>
      obtain rfl := some.inj ht
      exact h.nInhibit hc w.answer
  | rollback before =>
    cases before with
    | nil =>
      obtain rfl := some.inj ht
      refine h.goto hc (fun _ => Or.inl rfl) fun hat => ⟨fun entry hp => ?_, hat.removes, nofun⟩
      obtain ⟨n, hn, _⟩ := hat.holds entry hp
      exact nomatch hn
    | cons n before =>
      obtain rfl := some.inj ht
      exact h.release hc
  | unlatch res =>
    obtain rfl := some.inj ht
    have hres : res ≠ .ok := (h.calls c _ hc).knows
    refine h.setLatch hc (fun hlatched => ?_) fun hat => ?_
    · exact absurd hlatched (by rw [latched_off]; decide)
    · cases res with
      | ok => exact absurd rfl hres
      | busy => exact hat.clear (fun _ => id) id latched_off
      | fail => exact hat.clear (fun _ => id) id latched_off
  | remove rest =>
    cases rest with
    | nil =>
      obtain rfl := some.inj ht
      refine h.goto hc (fun _ => Or.inl rfl) fun hat => ⟨fun _ _ => trivial, fun _ _ => trivial, ?_⟩
      intro entry he hrides
      obtain ⟨n, hn, _⟩ := hat.knows.1 entry he hrides
      exact nomatch hn
    | cons n rest =>
      obtain rfl := some.inj ht
      exact h.drop hc
  | quiesce =>
    obtain rfl := some.inj ht
    have hnone : ∀ entry ∈ s.devices, ¬ Rides s₀.units pd entry := (h.calls c _ hc).knows
    exact h.goto hc (fun _ => Or.inr (Or.inl hnone)) fun hat => ⟨hat.holds, hat.removes, hat.knows⟩
  | returned res latched => exact nomatch ht

theorem Inv.append (hknows : Knows pd s₀ s call) :
    Inv pd s₀ { s with calls := s.calls ++ [call] } := by
  refine ⟨h.ident, h.gone, fun hlatched => ?_, fun c other hother => ?_, ?_, ?_⟩
  · exact (h.latch hlatched).imp (Exists.imp fun _ hw => ⟨mem_append_left _ hw.1, hw.2⟩) id
  · rcases Nat.lt_or_ge c s.calls.length with hlt | hge
    · rw [getElem?_append_left hlt] at hother
      have hold := h.calls c other hother
      exact ⟨hold.holds, hold.removes, hold.knows⟩
    · rw [getElem?_append_right hge] at hother
      obtain rfl := mem_singleton.mp (mem_of_getElem? hother)
      refine ⟨fun entry hp => ?_, fun entry hp => ?_, hknows⟩
      · exact absurd (h.started.1 _ hp) (Nat.not_lt.mpr hge)
      · exact absurd (h.started.2 _ hp) (Nat.not_lt.mpr hge)
  · intro p hp
    rw [length_append]
    exact Nat.lt_add_right _ (h.started.1 p hp)
  · intro p hp
    rw [length_append]
    exact Nat.lt_add_right _ (h.started.2 p hp)

end

theorem Inv.begin {unit : ℕ} {process : Bool} (h : Inv pd s₀ s)
    (halone : process = true ∨ s.latched pd = false)
    (ht : step pd s (.call unit process) = some t) : Inv pd s₀ t := by
  cases hncm : s.units[unit]? with
  | none => simp only [step, hncm, reduceCtorEq] at ht
  | some ncm =>
    simp only [step, hncm] at ht
    obtain ⟨hdevice, rfl⟩ := Runs.of_guard ht
    refine h.append ?_
    cases process with
    | true =>
      change ((s₀.units.map NepClassMS.ident)[unit]?).map Prod.snd = some pd
      rw [← h.ident, getElem?_map, hncm]
      exact congrArg some hdevice
    | false => exact halone.resolve_left Bool.false_ne_true

theorem step_inv (h : Inv pd s₀ s) (halone : Alone pd s e) (ht : step pd s e = some t) :
    Inv pd s₀ t := by
  cases e with
  | call unit process => exact h.begin halone ht
  | go c w =>
    obtain ⟨call, hc, ht⟩ := bind_eq_some_iff.mp ht
    exact h.nSafeEjectDevice hc (halone call hc) ht

structure Starts (pd : ℕ) (s : NepMSBase) : Prop where
  calls : s.calls = []
  inhibits : s.inhibits = []
  removed : s.removed = []
  latched : s.latched pd = false

theorem Starts.inv (h : Starts pd s) : Inv pd s s where
  ident := rfl
  gone := fun _ he _ => Or.inl he
  latch := by rw [h.latched]; nofun
  calls := by rw [h.calls]; nofun
  started := by rw [h.inhibits, h.removed]; exact ⟨nofun, nofun⟩

theorem Inv.honest (h : Inv pd s₀ s) : Honest pd s₀ s where
  ok := by
    intro c latched hc entry he hrides
    have hnone : ∀ entry ∈ s.devices, ¬ Rides s₀.units pd entry := (h.calls c _ hc).knows
    have hout : entry ∉ s.devices := fun hin => hnone entry hin hrides
    exact ⟨(h.gone entry he hrides).resolve_left hout, hout⟩
  refused := by
    intro c res latched hc hres
    have hat := h.calls c _ hc
    cases res with
    | ok => exact absurd rfl hres
    | busy => exact ⟨hat.knows, hat.removes, hat.holds⟩
    | fail => exact ⟨hat.knows, hat.removes, hat.holds⟩

/-- In every run of calls that find the latch set only where the others are done. -/
theorem eject_honest {evs : List Event} (hs : Starts pd s)
    (hrun : Runs.Run (step pd) (Alone pd) s evs t) : Honest pd s t := by
  have hinv : Inv pd s t := by
    apply hrun.invariant (Inv pd s)
    · exact hs.inv
    · exact fun _ _ _ hi halone hstep => step_inv hi halone hstep
  exact hinv.honest

def disk₀ : NepMSBase where
  units := [⟨4, 1, false, true⟩]
  devices := [⟨10, some 4⟩, ⟨11, none⟩, ⟨12, some 4⟩]
  calls := []
  verified := []
  inhibits := []
  removed := []

def go₀ (c : ℕ) (answer : Answer) : Event := .go c ⟨true, answer⟩

def twice₀ : List Event :=
  [.call 0 true, go₀ 0 .noTask, go₀ 0 .noTask, go₀ 0 .noTask, go₀ 0 .noTask, go₀ 0 .inhibited,
    go₀ 0 (.error 202), go₀ 0 .noTask, go₀ 0 .noTask, go₀ 0 .noTask,
    .call 0 true, go₀ 1 .noTask, go₀ 1 .noTask, go₀ 1 .noTask, go₀ 1 .noTask, go₀ 1 .inhibited,
    go₀ 1 .inhibited, go₀ 1 .noTask, go₀ 1 .noTask, go₀ 1 .noTask, go₀ 1 .noTask, go₀ 1 .noTask,
    .call 0 true, go₀ 2 .noTask]

theorem eject_honest_twice :
    Honest 1 disk₀ ((Runs.exec (step 1) disk₀ twice₀).get (by decide)) := by
  apply eject_honest (s := disk₀) ⟨rfl, rfl, rfl, rfl⟩
  exact Runs.Run.get_meets (by decide) (by decide)

def overlap₀ : List Event :=
  [.call 0 true, go₀ 0 .noTask, go₀ 0 .noTask, go₀ 0 .noTask, .call 0 true, go₀ 1 .noTask]

theorem eject_dishonest :
    ¬ ∀ (pd : ℕ) (s t : NepMSBase) (evs : List Event), Starts pd s →
      Runs.Run (step pd) (fun _ e => ∀ unit, e ≠ .call unit false) s evs t → Honest pd s t := by
  intro hhonest
  have hrun : Runs.Run (step 1) (fun _ e => ∀ unit, e ≠ .call unit false) disk₀ overlap₀ _ :=
    Runs.Run.get_meets (by simp [Runs.Meets, overlap₀, go₀]) (by decide)
  have hok := (hhonest 1 _ _ _ ⟨rfl, rfl, rfl, rfl⟩ hrun).ok 1 true (by decide) ⟨10, some 4⟩
    (by decide) (by decide)
  exact absurd hok.1 (by decide)

end Neptune.SafeEject
