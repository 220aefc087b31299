import Neptune.Spec.GetDevConfig

/-! What a round of the parse loop does to the lists of the device, and what the loop keeps because a round does. -/

namespace Neptune.DevConfig

open List

variable {α β : Type} {get : Reader} {w : Alloc} {pd : Speed} {pos dlen bufend rounds : ℕ} {s t : Parse}

@[simp] theorem onLast_concat (f : α → α) (l : List α) (x : α) : onLast f (l ++ [x]) = l ++ [f x] := by
  induction l with
  | nil => rfl
  | cons a l ih =>
    cases l with
    | nil => rfl
    | cons b l => exact congrArg (a :: ·) ih

theorem mem_onLast {f : α → α} {l : List α} {y : α} (h : y ∈ onLast f l) : y ∈ l ∨ ∃ x ∈ l, y = f x := by
  rcases eq_nil_or_concat l with rfl | ⟨l, x, rfl⟩
  · cases h
  · rw [concat_eq_append] at h ⊢
    rw [onLast_concat] at h
    rcases mem_append.mp h with h | h
    · exact .inl (mem_append_left _ h)
    · exact .inr ⟨x, mem_append_right _ mem_cons_self, mem_singleton.mp h⟩

theorem map_onLast {f : α → α} {g : α → β} (h : ∀ x, g (f x) = g x) (l : List α) :
    (onLast f l).map g = l.map g := by
  rcases eq_nil_or_concat l with rfl | ⟨l, x, rfl⟩
  · rfl
  · simp [h]

theorem PsdConfig.mem_ifs {pc : PsdConfig} {x : PsdInterface} :
    x ∈ pc.ifs ↔ ∃ m ∈ pc.interfaces, x ∈ m.pif :: m.alterIfs := mem_flatMap

theorem Parse.mem_ifs {x : PsdInterface} : x ∈ s.ifs ↔ ∃ pc ∈ s.configs, x ∈ pc.ifs := mem_flatMap

theorem Parse.mem_eps {q : PsdEndpoint} : q ∈ s.eps ↔ ∃ x ∈ s.ifs, q ∈ x.eps := mem_flatMap

variable {y : PsdInterface} {mem : Buffer → Reader} {f : PsdInterface → PsdInterface}

theorem MainIf.mem_onAltif {isAlt : Bool} {m : MainIf}
    (h : y ∈ (m.onAltif isAlt f).pif :: (m.onAltif isAlt f).alterIfs) :
    y ∈ m.pif :: m.alterIfs ∨ ∃ x ∈ m.pif :: m.alterIfs, y = f x := by
  cases isAlt with
  | true =>
    rcases mem_cons.mp h with rfl | h
    · exact .inl mem_cons_self
    · rcases mem_onLast h with h | ⟨x, hx, rfl⟩
      · exact .inl (mem_cons_of_mem _ h)
      · exact .inr ⟨x, mem_cons_of_mem _ hx, rfl⟩
  | false =>
    rcases mem_cons.mp h with rfl | h
    · exact .inr ⟨m.pif, mem_cons_self, rfl⟩
    · exact .inl (mem_cons_of_mem _ h)

theorem Parse.mem_onAltif (h : y ∈ (s.onAltif f).ifs) :
    y ∈ s.ifs ∨ ∃ x ∈ s.ifs, y = f x := by
  unfold Parse.onAltif at h
  split at h
  · exact .inl h
  · next isAlt _ =>
    obtain ⟨pc, hpc, hy⟩ := Parse.mem_ifs.mp h
    rcases mem_onLast hpc with hold | ⟨last, hlast, rfl⟩
    · exact .inl (Parse.mem_ifs.mpr ⟨pc, hold, hy⟩)
    · obtain ⟨m, hm, hy⟩ := PsdConfig.mem_ifs.mp hy
      have hmem {z : PsdInterface} {m : MainIf} (hm : m ∈ last.interfaces) (hz : z ∈ m.pif :: m.alterIfs) : z ∈ s.ifs :=
        Parse.mem_ifs.mpr ⟨last, hlast, PsdConfig.mem_ifs.mpr ⟨m, hm, hz⟩⟩
      rcases mem_onLast hm with hold | ⟨main, hmain, rfl⟩
      · exact .inl (hmem hold hy)
      · rcases MainIf.mem_onAltif hy with hold | ⟨x, hx, rfl⟩
        · exact .inl (hmem hmain hold)
        · exact .inr ⟨x, hmem hmain hx, rfl⟩

theorem Parse.mem_addInterface {altif : PsdInterface} (h : y ∈ (s.addInterface altif).ifs) :
    y ∈ s.ifs ∨ ∃ parent, y = { altif with parentIf := parent } := by
  unfold Parse.addInterface at h
  have hlast {f : List MainIf → List MainIf}
      (hf : ∀ ms, ∀ m ∈ f ms, ∀ y ∈ m.pif :: m.alterIfs,
        (∃ m' ∈ ms, y ∈ m'.pif :: m'.alterIfs) ∨ ∃ parent, y = { altif with parentIf := parent })
      (hy : ∃ pc ∈ onLast (PsdConfig.onMains f) s.configs, y ∈ pc.ifs) :
      y ∈ s.ifs ∨ ∃ parent, y = { altif with parentIf := parent } := by
    obtain ⟨pc, hpc, hy⟩ := hy
    rcases mem_onLast hpc with hold | ⟨last, hlast, rfl⟩
    · exact .inl (Parse.mem_ifs.mpr ⟨pc, hold, hy⟩)
    · obtain ⟨m, hm, hy⟩ := PsdConfig.mem_ifs.mp hy
      rcases hf _ m hm y hy with ⟨m', hm', hy⟩ | hnew
      · exact .inl (Parse.mem_ifs.mpr ⟨last, hlast, PsdConfig.mem_ifs.mpr ⟨m', hm', hy⟩⟩)
      · exact .inr hnew
  split at h
  · refine hlast (fun ms m hm y hy => ?_) (Parse.mem_ifs.mp h)
    rcases mem_onLast hm with hold | ⟨main, hmain, rfl⟩
    · exact .inl ⟨m, hold, hy⟩
    · rcases mem_cons.mp hy with rfl | hy
      · exact .inl ⟨main, hmain, mem_cons_self⟩
      · rcases mem_append.mp hy with hy | hy
        · exact .inl ⟨main, hmain, mem_cons_of_mem _ hy⟩
        · exact .inr ⟨_, mem_singleton.mp hy⟩
  · refine hlast (fun ms m hm y hy => ?_) (Parse.mem_ifs.mp h)
    rcases mem_append.mp hm with hm | hm
    · exact .inl ⟨m, hm, hy⟩
    · rw [mem_singleton.mp hm] at hy
      exact .inr ⟨altif.parentIf, mem_singleton.mp hy⟩

theorem bind_ok {ε γ : Type} {x : Except ε β} {f : β → Except ε γ} {c : γ} :
    x >>= f = .ok c ↔ ∃ b, x = .ok b ∧ f b = .ok c := by
  cases x with
  | error e => exact ⟨nofun, fun ⟨_, h, _⟩ => nomatch h⟩
  | ok b => exact ⟨fun h => ⟨b, rfl, h⟩, fun ⟨_, h, hf⟩ => Except.ok.inj h ▸ hf⟩

def Parse.unbound (s : Parse) : Parse := { s with pc := false, pif := false, altif := none, pep := false }

theorem parseConfiguration_cases (h : parseConfiguration get w pos s = .ok t) :
    w.node pos = false ∧ t = s.unbound ∨
    w.node pos = true ∧ ∃ pc, pc.interfaces = [] ∧ pc.id = s.base + pos ∧ get (pos + 5) = .ok pc.cfgNum ∧
      t = s.addConfig pc := by
  unfold parseConfiguration at h
  split at h
  · next hw =>
    obtain ⟨_, -, h⟩ := bind_ok.mp h
    obtain ⟨cfgNum, hcfg, h⟩ := bind_ok.mp h
    obtain ⟨_, -, h⟩ := bind_ok.mp h
    obtain ⟨_, -, h⟩ := bind_ok.mp h
    obtain ⟨_, -, h⟩ := bind_ok.mp h
    exact .inr ⟨hw, _, rfl, rfl, hcfg, (Except.ok.inj h).symm⟩
  · next hw => exact .inl ⟨Bool.eq_false_iff.mpr hw, (Except.ok.inj h).symm⟩

theorem parseInterface_cases (h : parseInterface get w pos s = .ok t) :
    s.pc = false ∧ t = { s with pep := false } ∨
    s.pc = true ∧ w.node pos = false ∧ t = { s with altif := none, pep := false } ∨
    s.pc = true ∧ w.node pos = true ∧ ∃ altif, altif.id = s.base + pos ∧ altif.eps = [] ∧ altif.parentIf = none ∧
      get (pos + 2) = .ok altif.ifNum ∧ get (pos + 3) = .ok altif.alternate ∧ get (pos + 4) = .ok altif.numEPs ∧
      t = s.addInterface altif := by
  unfold parseInterface at h
  split at h
  · next hpc => exact .inl ⟨by simpa using hpc, (Except.ok.inj h).symm⟩
  · next hpc =>
    have hpc' : s.pc = true := by simpa using hpc
    split at h
    · next hw =>
      obtain ⟨ifNum, h2, h⟩ := bind_ok.mp h
      obtain ⟨alternate, h3, h⟩ := bind_ok.mp h
      obtain ⟨numEPs, h4, h⟩ := bind_ok.mp h
      obtain ⟨_, -, h⟩ := bind_ok.mp h
      obtain ⟨_, -, h⟩ := bind_ok.mp h
      obtain ⟨_, -, h⟩ := bind_ok.mp h
      obtain ⟨_, -, h⟩ := bind_ok.mp h
      exact .inr (.inr ⟨hpc', hw, _, rfl, rfl, rfl, h2, h3, h4, (Except.ok.inj h).symm⟩)
    · next hw => exact .inr (.inl ⟨hpc', Bool.eq_false_iff.mpr hw, (Except.ok.inj h).symm⟩)

theorem parseEndpoint_cases (h : parseEndpoint get w pd pos s = .ok t) :
    s.altif = none ∧ t = s ∨
    s.altif ≠ none ∧ w.node pos = false ∧ t = { s with pep := false } ∨
    s.altif ≠ none ∧ w.node pos = true ∧ ∃ addr attr mps interval,
      t = s.addEndpoint (endpointOf pd (s.base + pos) addr attr mps interval) := by
  unfold parseEndpoint at h
  split at h
  · next ha => exact .inl ⟨by simpa using ha, (Except.ok.inj h).symm⟩
  · next ha =>
    have ha' : s.altif ≠ none := by simpa using ha
    split at h
    · next hw =>
      obtain ⟨addr, -, h⟩ := bind_ok.mp h
      obtain ⟨attr, -, h⟩ := bind_ok.mp h
      obtain ⟨mps, -, h⟩ := bind_ok.mp h
      obtain ⟨interval, -, h⟩ := bind_ok.mp h
      exact .inr (.inr ⟨ha', hw, addr, attr, mps, interval, (Except.ok.inj h).symm⟩)
    · next hw => exact .inr (.inl ⟨ha', Bool.eq_false_iff.mpr hw, (Except.ok.inj h).symm⟩)

def PsdEndpoint.Accompanied (pep q : PsdEndpoint) : Prop :=
  ∃ maxBurst compAttributes bytesPerInterval maxStreams numTransMuFr, q = { pep with
    maxBurst := maxBurst
    compAttributes := compAttributes
    bytesPerInterval := bytesPerInterval
    maxStreams := maxStreams
    numTransMuFr := numTransMuFr }

theorem parseEpComp_cases (h : parseEpComp get pd pos s = .ok t) :
    t = s ∨ s.pep = true ∧ ∃ f, (∀ pep, PsdEndpoint.Accompanied pep (f pep)) ∧ t = s.onPep f := by
  unfold parseEpComp at h
  split at h
  · exact .inl (Except.ok.inj h).symm
  · next hpep =>
    obtain ⟨maxBurst, -, h⟩ := bind_ok.mp h
    obtain ⟨attr, -, h⟩ := bind_ok.mp h
    obtain ⟨bytes, -, h⟩ := bind_ok.mp h
    refine .inr ⟨by simpa using hpep, _, fun pep => ?_, (Except.ok.inj h).symm⟩
    exact ⟨_, _, _, _, _, rfl⟩

theorem parseIsoComp_cases (h : parseIsoComp get pos s = .ok t) :
    t = s ∨ s.pep = true ∧ ∃ f, (∀ pep, PsdEndpoint.Accompanied pep (f pep)) ∧ t = s.onPep f := by
  unfold parseIsoComp at h
  split at h
  · exact .inl (Except.ok.inj h).symm
  · next hpep =>
    obtain ⟨bytes, -, h⟩ := bind_ok.mp h
    refine .inr ⟨by simpa using hpep, _, fun pep => ?_, (Except.ok.inj h).symm⟩
    exact ⟨_, _, _, _, _, rfl⟩

theorem pAllocDescriptor_cases {type : ℕ} (h : pAllocDescriptor get w pos s dlen type = .ok t) :
    ∃ descriptors, t = { s with descriptors := descriptors } := by
  unfold pAllocDescriptor at h
  split at h
  · obtain ⟨_, -, h⟩ := bind_ok.mp h
    obtain ⟨_, -, h⟩ := bind_ok.mp h
    exact ⟨_, (Except.ok.inj h).symm⟩
  · exact ⟨s.descriptors, (Except.ok.inj h).symm⟩

inductive Round (get : Reader) (w : Alloc) (pd : Speed) (pos : ℕ) (s : Parse) : Parse → Prop
  | noConfig : get (pos + 1) = .ok UDT_CONFIGURATION → w.node pos = false → Round get w pd pos s s.unbound
  | config (pc : PsdConfig) :
      get (pos + 1) = .ok UDT_CONFIGURATION → w.node pos = true → pc.interfaces = [] → pc.id = s.base + pos →
      get (pos + 5) = .ok pc.cfgNum → Round get w pd pos s (s.addConfig pc)
  | stray : get (pos + 1) = .ok UDT_INTERFACE → s.pc = false → Round get w pd pos s { s with pep := false }
  | noInterface : get (pos + 1) = .ok UDT_INTERFACE → s.pc = true → w.node pos = false →
      Round get w pd pos s { s with altif := none, pep := false }
  | interface (altif : PsdInterface) :
      get (pos + 1) = .ok UDT_INTERFACE → s.pc = true → w.node pos = true → altif.id = s.base + pos →
      altif.eps = [] → altif.parentIf = none → get (pos + 2) = .ok altif.ifNum → get (pos + 3) = .ok altif.alternate →
      get (pos + 4) = .ok altif.numEPs → Round get w pd pos s (s.addInterface altif)
  | noEndpoint : get (pos + 1) = .ok UDT_ENDPOINT → s.altif ≠ none → w.node pos = false →
      Round get w pd pos s { s with pep := false }
  | endpoint (addr attr mps interval : ℕ) :
      get (pos + 1) = .ok UDT_ENDPOINT → s.altif ≠ none → w.node pos = true →
      Round get w pd pos s (s.addEndpoint (endpointOf pd (s.base + pos) addr attr mps interval))
  | companion (f : PsdEndpoint → PsdEndpoint) (type : ℕ) : get (pos + 1) = .ok type → type ≠ UDT_CONFIGURATION →
      type ≠ UDT_INTERFACE → type ≠ UDT_ENDPOINT → s.pep = true → (∀ pep, PsdEndpoint.Accompanied pep (f pep)) →
      Round get w pd pos s (s.onPep f)
  | other (type : ℕ) : get (pos + 1) = .ok type → type ≠ UDT_CONFIGURATION → type ≠ UDT_INTERFACE →
      (type = UDT_ENDPOINT → s.altif = none) → Round get w pd pos s s

theorem parseDescriptor_round (h : parseDescriptor get w pd pos s dlen = .ok t) :
    ∃ u descriptors, Round get w pd pos s u ∧ t = { u with descriptors := descriptors } := by
  obtain ⟨type, htype, h⟩ := bind_ok.mp h
  obtain ⟨u, hu, h⟩ := bind_ok.mp h
  obtain ⟨descriptors, rfl⟩ := pAllocDescriptor_cases h
  refine ⟨u, descriptors, ?_, rfl⟩
  unfold parseType at hu
  split at hu
  · next hc =>
    subst hc
    rcases parseConfiguration_cases hu with ⟨hw, rfl⟩ | ⟨hw, pc, hi, hid, hnum, rfl⟩
    · exact .noConfig htype hw
    · exact .config pc htype hw hi hid hnum
  split at hu
  · next hi =>
    subst hi
    rcases parseInterface_cases hu with ⟨hpc, rfl⟩ | ⟨hpc, hw, rfl⟩ | ⟨hpc, hw, altif, h1, h2, h3, h4, h5, h6, rfl⟩
    · exact .stray htype hpc
    · exact .noInterface htype hpc hw
    · exact .interface altif htype hpc hw h1 h2 h3 h4 h5 h6
  next hc hi =>
  split at hu
  · next he =>
    subst he
    rcases parseEndpoint_cases hu with ⟨ha, rfl⟩ | ⟨ha, hw, rfl⟩ | ⟨ha, hw, addr, attr, mps, interval, rfl⟩
    · exact .other _ htype hc hi fun _ => ha
    · exact .noEndpoint htype ha hw
    · exact .endpoint addr attr mps interval htype ha hw
  next he =>
  have hother : Round get w pd pos s s := .other type htype hc hi fun h => absurd h he
  split at hu
  · rcases parseEpComp_cases hu with rfl | ⟨hpep, f, hf, rfl⟩
    · exact hother
    · exact .companion f type htype hc hi he hpep hf
  split at hu
  · rcases parseIsoComp_cases hu with rfl | ⟨hpep, f, hf, rfl⟩
    · exact hother
    · exact .companion f type htype hc hi he hpep hf
  · cases hu
    exact hother

theorem parseLoop_invariant (I : ℕ → Parse → Prop)
    (hround : ∀ pos dlen s t, I pos s → 2 ≤ dlen → pos < bufend → parseDescriptor get w pd pos s dlen = .ok t →
      I (pos + dlen) t) (h : parseLoop get w pd bufend rounds pos s = .ok t) (hs : I pos s) : ∃ pos, I pos t := by
  induction rounds generalizing pos s with
  | zero =>
    unfold parseLoop at h
    split at h
    · cases h
    · cases h
      exact ⟨pos, hs⟩
  | succ rounds ih =>
    unfold parseLoop at h
    split at h
    · next hpos =>
      cases hlen : get pos with
      | error e => simp [hlen, bind, Except.bind] at h
      | ok dlen =>
        simp only [hlen, bind, Except.bind] at h
        split at h
        · cases h
          exact ⟨pos, hs⟩
        · next hdlen =>
          cases hd : parseDescriptor get w pd pos s dlen with
          | error e => simp [hd] at h
          | ok u =>
            simp only [hd] at h
            exact ih h (hround pos dlen s u hs (by omega) hpos hd)
    · cases h
      exact ⟨pos, hs⟩

theorem pGetDevConfig_invariant {replies : List CfgReply} {ok : Bool} (I : Parse → Prop)
    (hbuffer : ∀ buf w s t, I s → parseBuffer mem pd buf w s = .ok t → I t)
    (h : pGetDevConfig mem pd replies s = .ok (ok, t)) (hs : I s) : I t := by
  induction replies generalizing s with
  | nil =>
    cases h
    exact hs
  | cons r replies ih =>
    unfold pGetDevConfig at h
    split at h
    · cases h
      exact hs
    · split at h
      · exact ih h hs
      · split at h
        · obtain ⟨u, hu, h⟩ := bind_ok.mp h
          exact ih h (hbuffer _ _ _ _ hs hu)
        · cases h
          exact hs

theorem parseBuffer_loop {buf : Buffer} (h : parseBuffer mem pd buf w s = .ok t) :
    ∃ u, parseLoop (mem buf) w pd buf.bytes.length buf.bytes.length 0 s.unbound = .ok u ∧
      t = { u with base := u.base + buf.bytes.length } := by
  obtain ⟨u, hu, h⟩ := bind_ok.mp h
  exact ⟨u, hu, (Except.ok.inj h).symm⟩

def allocAll : Alloc := ⟨fun _ => true, fun _ => true⟩

def goodReply (cfgnum : ℕ) (bytes : List UInt8) : CfgReply := ⟨some cfgnum, true, some ⟨bytes, fun _ => 0⟩, allocAll⟩

def parsed (pd : Speed) (replies : List CfgReply) : Parse :=
  match pGetDevConfig Buffer.memory pd replies start with
  | .ok r => r.2
  | .error _ => start

end Neptune.DevConfig
