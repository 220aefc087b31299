import Neptune.Proofs.ParseTree

/-! Where the parse of a configuration's buffer ends, which is always, and where it stays inside the reply: each
descriptor it comes to has to lie inside with its whole length and with the fixed part of its type. -/

namespace Neptune.DevConfig

variable {β γ : Type} {w : Alloc} {pd : Speed} {pos dlen i : ℕ} {s t : Parse} {buf : Buffer}

structure Ctx where
  pc : Bool
  altif : Bool
  pep : Bool
  deriving DecidableEq, Repr

def Ctx.next (c : Ctx) (node : Bool) (type : ℕ) : Ctx :=
  if type = UDT_CONFIGURATION then ⟨node, false, false⟩
  else if type = UDT_INTERFACE then if c.pc then ⟨true, node, false⟩ else { c with pep := false }
  else if type = UDT_ENDPOINT then if c.altif then { c with pep := node } else c
  else c

/-- The bytes that the case of a type looks at: the fixed part, when its node is there. -/
def Ctx.need (c : Ctx) (node : Bool) (type : ℕ) : ℕ :=
  if type = UDT_CONFIGURATION then if node then 9 else 2
  else if type = UDT_INTERFACE then if c.pc && node then 9 else 2
  else if type = UDT_ENDPOINT then if c.altif && node then 7 else 2
  else if type = UDT_SUPERSPEED_EP_COMP then if c.pep then 6 else 2
  else if type = UDT_SUPERSPEED_ISO_COMP then if c.pep then 8 else 2
  else 2

def copied (desc : Bool) (type dlen : ℕ) : ℕ := if desc then max dlen (if isClassSpecific type then 3 else 2) else 2

/-- Every descriptor that the walk over the lengths comes to lies inside the reply, as far as it is looked at. -/
def FitsFrom (buf : Buffer) (w : Alloc) : ℕ → ℕ → Ctx → Prop
  | 0, _, _ => True
  | rounds + 1, pos, c =>
    pos < buf.bytes.length → 2 ≤ buf.peek pos →
      pos + max (c.need (w.node pos) (buf.peek (pos + 1))) (copied (w.desc pos) (buf.peek (pos + 1)) (buf.peek pos)) ≤
          buf.bytes.length ∧
        FitsFrom buf w rounds (pos + buf.peek pos) (c.next (w.node pos) (buf.peek (pos + 1)))

def Fits (buf : Buffer) (w : Alloc) : Prop := FitsFrom buf w buf.bytes.length 0 ⟨false, false, false⟩

def Ends (x : Except Fault β) : Prop := ∃ b, x = .ok b

theorem Ends.pure (b : β) : Ends (pure b : Except Fault β) := ⟨b, rfl⟩

theorem ends_bind {x : Except Fault β} {f : β → Except Fault γ} : Ends (x >>= f) ↔ ∃ b, x = .ok b ∧ Ends (f b) := by
  simp only [Ends, bind_ok]
  exact ⟨fun ⟨c, b, hx, hf⟩ => ⟨b, hx, c, hf⟩, fun ⟨b, hx, c, hf⟩ => ⟨c, b, hx, hf⟩⟩

theorem ends_bind_iff {x : Except Fault β} {f : β → Except Fault γ} {p : Prop} (h : ∀ b, Ends (f b) ↔ p) :
    Ends (x >>= f) ↔ Ends x ∧ p := by
  simp only [ends_bind, h]
  exact ⟨fun ⟨b, hx, hp⟩ => ⟨⟨b, hx⟩, hp⟩, fun ⟨⟨b, hx⟩, hp⟩ => ⟨b, hx, hp⟩⟩

theorem inside_of_lt (h : i < buf.bytes.length) : buf.inside i = .ok (buf.peek i) := by
  simp [Buffer.inside, Buffer.peek, h]

theorem inside_of_le (h : buf.bytes.length ≤ i) : buf.inside i = .error .outside := by
  simp [Buffer.inside, List.getElem?_eq_none h]

theorem ends_inside : Ends (buf.inside i) ↔ i < buf.bytes.length := by
  rcases lt_or_ge i buf.bytes.length with h | h
  · exact ⟨fun _ => h, fun _ => ⟨_, inside_of_lt h⟩⟩
  · rw [inside_of_le h]
    exact ⟨fun ⟨_, h'⟩ => (nomatch h'), fun h' => absurd h' (by omega)⟩

theorem ends_inside_bind {f : ℕ → Except Fault β} :
    Ends (buf.inside i >>= f) ↔ i < buf.bytes.length ∧ Ends (f (buf.peek i)) := by
  rcases lt_or_ge i buf.bytes.length with h | h
  · rw [inside_of_lt h]
    exact ⟨fun h' => ⟨h, h'⟩, fun h' => h'.2⟩
  · rw [inside_of_le h]
    exact ⟨fun ⟨_, h'⟩ => (nomatch h'), fun h' => absurd h'.1 (by omega)⟩

theorem ends_le2word : Ends (Reader.le2word buf.inside i) ↔ i + 1 < buf.bytes.length := by
  simp only [Reader.le2word, ends_inside_bind, Ends.pure, and_true]
  omega

theorem ends_le2long : Ends (Reader.le2long buf.inside i) ↔ i + 3 < buf.bytes.length := by
  have hhi (lo : ℕ) : Ends (do let hi ← Reader.le2word buf.inside (i + 2); return lo + 2 ^ 16 * hi) ↔
      i + 3 < buf.bytes.length := by
    rw [ends_bind_iff (p := True) fun _ => iff_of_true (Ends.pure _) trivial, ends_le2word]
    simp
  rw [Reader.le2long, ends_bind_iff hhi, ends_le2word]
  omega

theorem ends_copyMem (n : ℕ) : Ends (Reader.copyMem buf.inside i n) ↔ n = 0 ∨ i + n ≤ buf.bytes.length := by
  induction n generalizing i with
  | zero => exact iff_of_true (Ends.pure _) (.inl rfl)
  | succ n ih =>
    rw [Reader.copyMem, ends_inside_bind, ends_bind_iff (p := True) fun _ => iff_of_true (Ends.pure _) trivial, ih,
      and_true]
    omega

theorem ends_parseConfiguration :
    Ends (parseConfiguration buf.inside w pos s) ↔ (w.node pos = true → pos + 9 ≤ buf.bytes.length) := by
  unfold parseConfiguration
  split
  · next hw =>
    simp only [ends_inside_bind, Ends.pure, and_true, hw, true_implies]
    omega
  · next hw => exact iff_of_true (Ends.pure _) fun h => absurd h hw

theorem ends_parseInterface : Ends (parseInterface buf.inside w pos s) ↔
    (s.pc = true → w.node pos = true → pos + 9 ≤ buf.bytes.length) := by
  unfold parseInterface
  split
  · next hpc => exact iff_of_true (Ends.pure _) fun h => absurd h (by simpa using hpc)
  · next hpc =>
    have hpc' : s.pc = true := by simpa using hpc
    split
    · next hw =>
      simp only [ends_inside_bind, Ends.pure, and_true, hpc', hw, true_implies]
      omega
    · next hw => exact iff_of_true (Ends.pure _) fun _ h => absurd h hw

theorem ends_parseEndpoint : Ends (parseEndpoint buf.inside w pd pos s) ↔
    (s.altif ≠ none → w.node pos = true → pos + 7 ≤ buf.bytes.length) := by
  unfold parseEndpoint
  split
  · next ha => exact iff_of_true (Ends.pure _) fun h => absurd (by simpa using ha) h
  · next ha =>
    have ha' : s.altif ≠ none := by simpa using ha
    split
    · next hw =>
      have hrest (addr attr mps : ℕ) : Ends (do
          let bInterval ← buf.inside (pos + 6)
          return s.addEndpoint (endpointOf pd (s.base + pos) addr attr mps bInterval) : Except Fault Parse) ↔
          pos + 6 < buf.bytes.length := by
        rw [ends_inside_bind]
        exact ⟨fun h => h.1, fun h => ⟨h, Ends.pure _⟩⟩
      rw [ends_inside_bind, ends_inside_bind, ends_bind_iff (hrest _ _), ends_le2word]
      simp only [ha', hw, true_implies, ne_eq, not_false_eq_true]
      omega
    · next hw => exact iff_of_true (Ends.pure _) fun _ h => absurd h hw

theorem ends_parseEpComp : Ends (parseEpComp buf.inside pd pos s) ↔ (s.pep = true → pos + 6 ≤ buf.bytes.length) := by
  unfold parseEpComp
  split
  · next hpep => exact iff_of_true (Ends.pure _) fun h => absurd h (by simpa using hpep)
  · next hpep =>
    have hpep' : s.pep = true := by simpa using hpep
    rw [ends_inside_bind, ends_inside_bind, ends_bind_iff (p := True) fun _ => iff_of_true (Ends.pure _) trivial,
      ends_le2word]
    simp only [hpep', true_implies, and_true]
    omega

theorem ends_parseIsoComp : Ends (parseIsoComp buf.inside pos s) ↔ (s.pep = true → pos + 8 ≤ buf.bytes.length) := by
  unfold parseIsoComp
  split
  · next hpep => exact iff_of_true (Ends.pure _) fun h => absurd h (by simpa using hpep)
  · next hpep =>
    have hpep' : s.pep = true := by simpa using hpep
    rw [ends_bind_iff (p := True) fun _ => iff_of_true (Ends.pure _) trivial, ends_le2long]
    simp only [hpep', true_implies, and_true]
    omega

def Parse.ctx (s : Parse) : Ctx := ⟨s.pc, s.altif.isSome, s.pep⟩

theorem ends_parseType (type : ℕ) (htype : pos + 2 ≤ buf.bytes.length) :
    Ends (parseType buf.inside w pd pos s type) ↔ pos + s.ctx.need (w.node pos) type ≤ buf.bytes.length := by
  unfold parseType Ctx.need Parse.ctx
  split
  · rw [ends_parseConfiguration]
    cases w.node pos <;> simp [htype]
  split
  · rw [ends_parseInterface]
    cases s.pc <;> cases w.node pos <;> simp [htype]
  split
  · rw [ends_parseEndpoint]
    cases s.altif <;> cases w.node pos <;> simp [htype]
  split
  · rw [ends_parseEpComp]
    cases s.pep <;> simp [htype]
  split
  · rw [ends_parseIsoComp]
    cases s.pep <;> simp [htype]
  · exact iff_of_true (Ends.pure _) htype

theorem ends_pAllocDescriptor (type : ℕ) (htype : pos + 2 ≤ buf.bytes.length) (hdlen : 2 ≤ dlen) :
    Ends (pAllocDescriptor buf.inside w pos s dlen type) ↔
      pos + copied (w.desc pos) type dlen ≤ buf.bytes.length := by
  unfold pAllocDescriptor copied
  split
  · have hdata (csSubType : ℕ) : Ends (do
        let data ← Reader.copyMem buf.inside pos dlen
        return { s with
          descriptors := s.descriptors ++
            [⟨dlen, type, csSubType, data, s.curConfig.map (·.id), s.curAltif.map (·.id), s.curPep.map (·.id)⟩] } :
          Except Fault Parse) ↔ pos + dlen ≤ buf.bytes.length := by
      rw [ends_bind_iff (p := True) fun _ => iff_of_true (Ends.pure _) trivial, ends_copyMem]
      simp only [and_true]
      omega
    rw [ends_bind_iff hdata, Reader.csSubType]
    split
    · rw [ends_inside]
      omega
    · rw [iff_true_intro (Ends.pure _), true_and]
      omega
  · exact iff_of_true (Ends.pure _) htype

theorem ends_parseDescriptor (hdlen : 2 ≤ dlen) : Ends (parseDescriptor buf.inside w pd pos s dlen) ↔
    pos + max (s.ctx.need (w.node pos) (buf.peek (pos + 1))) (copied (w.desc pos) (buf.peek (pos + 1)) dlen) ≤
      buf.bytes.length := by
  have hneed : 2 ≤ s.ctx.need (w.node pos) (buf.peek (pos + 1)) := by
    unfold Ctx.need
    split_ifs <;> omega
  rw [parseDescriptor, ends_inside_bind]
  constructor
  · rintro ⟨hpos, h⟩
    rw [ends_bind_iff fun _ => ends_pAllocDescriptor _ (by omega) hdlen, ends_parseType _ (by omega)] at h
    omega
  · intro h
    refine ⟨by omega, ?_⟩
    rw [ends_bind_iff fun _ => ends_pAllocDescriptor _ (by omega) hdlen, ends_parseType _ (by omega)]
    omega

theorem Round.ctx {get : Reader} {type : ℕ} (hr : Round get w pd pos s t) (htype : get (pos + 1) = .ok type) :
    t.ctx = s.ctx.next (w.node pos) type := by
  have heq {type' : ℕ} (h : get (pos + 1) = .ok type') : type' = type := Except.ok.inj (h.symm.trans htype)
  cases hr with
  | noConfig h hw =>
    obtain rfl := heq h
    rw [hw]
    rfl
  | config pc h hw =>
    obtain rfl := heq h
    rw [hw]
    rfl
  | stray h hpc =>
    obtain rfl := heq h
    simp [Parse.ctx, Ctx.next, hpc, UDT_CONFIGURATION, UDT_INTERFACE]
  | noInterface h hpc hw =>
    obtain rfl := heq h
    simp [Parse.ctx, Ctx.next, hpc, hw, UDT_CONFIGURATION, UDT_INTERFACE]
  | interface altif h hpc hw =>
    obtain rfl := heq h
    unfold Parse.addInterface
    split <;> simp [Parse.ctx, Ctx.next, hpc, hw, UDT_CONFIGURATION, UDT_INTERFACE]
  | noEndpoint h ha hw =>
    obtain rfl := heq h
    have hsome : s.altif.isSome = true := Option.isSome_iff_ne_none.mpr ha
    simp [Parse.ctx, Ctx.next, hsome, hw, UDT_CONFIGURATION, UDT_INTERFACE, UDT_ENDPOINT]
  | endpoint addr attr mps interval h ha hw =>
    obtain rfl := heq h
    obtain ⟨isAlt, hsome⟩ := Option.ne_none_iff_exists'.mp ha
    simp [Parse.ctx, Ctx.next, Parse.addEndpoint, Parse.onAltif, hsome, hw, UDT_CONFIGURATION, UDT_INTERFACE,
      UDT_ENDPOINT]
  | companion f type' h hc hi he =>
    obtain rfl := heq h
    unfold Parse.onPep Parse.onAltif
    split <;> simp [Parse.ctx, Ctx.next, hc, hi, he]
  | other type' h hc hi he =>
    obtain rfl := heq h
    unfold Ctx.next
    rw [if_neg hc, if_neg hi]
    split
    · next hep => rw [if_neg (by simp [Parse.ctx, he hep])]
    · rfl

theorem parseLoop_ends_iff {rounds : ℕ} (hrounds : buf.bytes.length ≤ pos + rounds) :
    Ends (parseLoop buf.inside w pd buf.bytes.length rounds pos s) ↔ FitsFrom buf w rounds pos s.ctx := by
  induction rounds generalizing pos s with
  | zero =>
    rw [parseLoop, if_neg (by omega)]
    exact iff_of_true (Ends.pure _) trivial
  | succ rounds ih =>
    rw [parseLoop, FitsFrom]
    split
    · next hpos =>
      rw [ends_inside_bind]
      simp only [hpos, true_and, true_implies]
      split
      · next hlen => exact iff_of_true (Ends.pure _) fun h => absurd h (by omega)
      · next hlen =>
        simp only [show 2 ≤ buf.peek pos by omega, true_implies]
        rw [← ends_parseDescriptor (by omega), ends_bind]
        constructor
        · rintro ⟨t, ht, h⟩
          obtain ⟨u, descriptors, hround, rfl⟩ := parseDescriptor_round ht
          obtain ⟨type, htype, -⟩ := bind_ok.mp ht
          have hinside : buf.inside (pos + 1) = .ok (buf.peek (pos + 1)) :=
            inside_of_lt (ends_inside.mp ⟨type, htype⟩)
          rw [ih (by omega)] at h
          rw [← hround.ctx hinside]
          exact ⟨⟨_, ht⟩, h⟩
        · rintro ⟨⟨t, ht⟩, h⟩
          obtain ⟨u, descriptors, hround, rfl⟩ := parseDescriptor_round ht
          obtain ⟨type, htype, -⟩ := bind_ok.mp ht
          have hinside : buf.inside (pos + 1) = .ok (buf.peek (pos + 1)) :=
            inside_of_lt (ends_inside.mp ⟨type, htype⟩)
          refine ⟨_, ht, ?_⟩
          rw [ih (by omega)]
          rw [← hround.ctx hinside] at h
          exact h
    · next hpos => exact iff_of_true (Ends.pure _) fun h => absurd h hpos

theorem copyMem_memory (buf : Buffer) (i n : ℕ) : Ends (Reader.copyMem buf.memory i n) := by
  induction n generalizing i with
  | zero => exact .pure _
  | succ n ih =>
    obtain ⟨rest, hrest⟩ := ih (i + 1)
    exact ⟨buf.peek i :: rest, bind_ok.mpr ⟨_, rfl, bind_ok.mpr ⟨rest, hrest, rfl⟩⟩⟩

theorem parseType_memory (buf : Buffer) (w : Alloc) (pd : Speed) (pos : ℕ) (s : Parse) (type : ℕ) :
    Ends (parseType buf.memory w pd pos s type) := by
  unfold parseType
  split
  · unfold parseConfiguration
    split <;> exact ⟨_, rfl⟩
  split
  · unfold parseInterface
    split
    · exact ⟨_, rfl⟩
    · split <;> exact ⟨_, rfl⟩
  split
  · unfold parseEndpoint
    split
    · exact ⟨_, rfl⟩
    · split <;> exact ⟨_, rfl⟩
  split
  · unfold parseEpComp
    split <;> exact ⟨_, rfl⟩
  split
  · unfold parseIsoComp
    split <;> exact ⟨_, rfl⟩
  · exact ⟨_, rfl⟩

theorem parseDescriptor_memory (buf : Buffer) (w : Alloc) (pd : Speed) (pos : ℕ) (s : Parse) (dlen : ℕ) :
    Ends (parseDescriptor buf.memory w pd pos s dlen) := by
  obtain ⟨t, ht⟩ := parseType_memory buf w pd pos s (buf.peek (pos + 1))
  refine ends_bind.mpr ⟨_, rfl, ends_bind.mpr ⟨t, ht, ?_⟩⟩
  unfold pAllocDescriptor
  split
  · obtain ⟨data, hdata⟩ := copyMem_memory buf pos dlen
    have hsub : Ends (Reader.csSubType buf.memory pos (buf.peek (pos + 1))) := by
      unfold Reader.csSubType
      split <;> exact ⟨_, rfl⟩
    obtain ⟨csSubType, hsub⟩ := hsub
    exact ends_bind.mpr ⟨csSubType, hsub, ends_bind.mpr ⟨data, hdata, .pure _⟩⟩
  · exact .pure _

theorem parseLoop_memory {rounds : ℕ} (hrounds : buf.bytes.length ≤ pos + rounds) :
    Ends (parseLoop buf.memory w pd buf.bytes.length rounds pos s) := by
  induction rounds generalizing pos s with
  | zero =>
    rw [parseLoop, if_neg (by omega)]
    exact .pure _
  | succ rounds ih =>
    unfold parseLoop
    split
    · refine ends_bind.mpr ⟨_, rfl, ?_⟩
      split
      · exact .pure _
      · next hlen =>
        obtain ⟨t, ht⟩ := parseDescriptor_memory buf w pd pos s (buf.peek pos)
        exact ends_bind.mpr ⟨t, ht, ih (by omega)⟩
    · exact .pure _

theorem ends_parseBuffer {mem : Buffer → Reader} : Ends (parseBuffer mem pd buf w s) ↔
    Ends (parseLoop (mem buf) w pd buf.bytes.length buf.bytes.length 0 s.unbound) :=
  (ends_bind_iff (p := True) fun _ => iff_of_true (Ends.pure _) trivial).trans (and_iff_left trivial)

structure StaysInside (pd : Speed) (buf : Buffer) (w : Alloc) (s : Parse) : Prop where
  ends : Ends (parseBuffer Buffer.memory pd buf w s)
  inside : Ends (parseBuffer Buffer.inside pd buf w s)

theorem parse_inside_iff (pd : Speed) (buf : Buffer) (w : Alloc) (s : Parse) :
    StaysInside pd buf w s ↔ Fits buf w := by
  have hinside : Ends (parseBuffer Buffer.inside pd buf w s) ↔ Fits buf w := by
    rw [ends_parseBuffer, parseLoop_ends_iff (by omega)]
    rfl
  refine ⟨fun h => hinside.mp h.inside, fun h => ⟨?_, hinside.mpr h⟩⟩
  exact ends_parseBuffer.mpr (parseLoop_memory (by omega))

def cutReply : Buffer := ⟨[9, 2, 11, 0, 0, 1, 0, 0x80, 50, 0x10, 0x24], fun _ => 0xaa⟩

theorem parse_not_inside :
    (∃ t, parseBuffer Buffer.memory ⟨false, false, false⟩ cutReply allocAll start = .ok t ∧
      t.descriptors.map (·.length) = [9, 16]) ∧
    parseBuffer Buffer.inside ⟨false, false, false⟩ cutReply allocAll start = .error .outside ∧
    ¬StaysInside ⟨false, false, false⟩ cutReply allocAll start := by
  have hread : parseBuffer Buffer.inside ⟨false, false, false⟩ cutReply allocAll start = .error .outside := rfl
  refine ⟨⟨_, rfl, rfl⟩, hread, fun h => ?_⟩
  obtain ⟨t, ht⟩ := h.inside
  rw [hread] at ht
  cases ht

end Neptune.DevConfig
