import Neptune.Proofs.ParseTree

/-! The polling intervals of the endpoints: they are sane but for the interrupt endpoints of a SuperSpeed device, whose
interval has no upper clamp before the shift. -/

namespace Neptune.DevConfig

variable {pd : Speed} {s t : Parse} {q pep : PsdEndpoint}

def TransType.Periodic (transType : TransType) : Prop := transType = .interrupt ∨ transType = .isochronous

instance (transType : TransType) : Decidable transType.Periodic := inferInstanceAs (Decidable (_ ∨ _))

/-- No shift leaves the field; the interval of a periodic endpoint at high or super speed is the power of two that its
descriptor says, once that is between 1 and 16. -/
structure PsdEndpoint.Sane (pd : Speed) (pep : PsdEndpoint) : Prop where
  shift : ∀ count, pep.shift = some count → count < 16
  interval : pd.super = true ∨ pd.high = true → pep.transType.Periodic →
    pep.interval = 2 ^ (max 1 (min 16 pep.intervalRaw) - 1) ∧ 1 ≤ pep.interval ∧ pep.interval ≤ 32768

def PsdEndpoint.Unclamped (pd : Speed) (pep : PsdEndpoint) : Prop :=
  pd.super = true ∧ pep.transType = .interrupt ∧ 16 < pep.intervalRaw

def PsdEndpoint.Polled (pd : Speed) (pep : PsdEndpoint) : Prop :=
  ∃ maxPktSize, pep.interval = (polling pd pep.transType maxPktSize pep.intervalRaw).interval ∧
    pep.shift = (polling pd pep.transType maxPktSize pep.intervalRaw).shift

theorem clampInterval_eq (bInterval : ℕ) : clampInterval bInterval = max 1 (min 16 bInterval) := by
  unfold clampInterval
  split
  · omega
  · split <;> omega

theorem shifted_interval {interval : ℕ} (maxPktSize : ℕ) (h : interval ≤ 16) :
    (shifted maxPktSize interval).interval = 2 ^ (interval - 1) := by
  have hcount : (interval - 1) % 64 = interval - 1 := Nat.mod_eq_of_lt (by omega)
  have hword : 2 ^ (interval - 1) < 2 ^ 16 := Nat.pow_lt_pow_right (by omega) (by omega)
  simp only [shifted, hcount, uword_of_lt hword]

theorem interval_bounds {interval : ℕ} (h : interval ≤ 16) :
    1 ≤ 2 ^ (interval - 1) ∧ 2 ^ (interval - 1) ≤ 32768 := by
  refine ⟨Nat.one_le_two_pow, ?_⟩
  calc 2 ^ (interval - 1) ≤ 2 ^ 15 := Nat.pow_le_pow_right (by omega) (by omega)
    _ = 32768 := by norm_num

theorem sane_of_shifted {maxPktSize interval : ℕ} (hle : interval ≤ 16)
    (hraw : interval = max 1 (min 16 pep.intervalRaw)) (hint : pep.interval = (shifted maxPktSize interval).interval)
    (hshift : pep.shift = (shifted maxPktSize interval).shift) : pep.Sane pd where
  shift count hc := by
    rw [hshift] at hc
    cases hc
    omega
  interval _ _ := by
    rw [hint, shifted_interval maxPktSize hle, ← hraw]
    exact ⟨rfl, interval_bounds hle⟩

theorem polling_cases (pd : Speed) (transType : TransType) (maxPktSize bInterval : ℕ) :
    (polling pd transType maxPktSize bInterval).shift = none ∧
        ¬((pd.super = true ∨ pd.high = true) ∧ transType.Periodic) ∨
      (∃ m, polling pd transType maxPktSize bInterval = shifted m (clampInterval bInterval)) ∧
        ¬(pd.super = true ∧ transType = .interrupt) ∨
      polling pd transType maxPktSize bInterval = shifted maxPktSize (clampLow bInterval) ∧
        pd.super = true ∧ transType = .interrupt := by
  unfold polling
  split
  · next hsuper =>
    cases transType with
    | control | bulk => exact .inl ⟨rfl, fun h => by simp [TransType.Periodic] at h⟩
    | isochronous => exact .inr (.inl ⟨⟨_, rfl⟩, fun h => nomatch h.2⟩)
    | interrupt => exact .inr (.inr ⟨rfl, hsuper, rfl⟩)
  · next hsuper =>
    split
    · cases transType with
      | control | bulk => exact .inl ⟨rfl, fun h => by simp [TransType.Periodic] at h⟩
      | isochronous | interrupt => exact .inr (.inl ⟨⟨_, rfl⟩, fun h => hsuper h.1⟩)
    · next hhigh =>
      have hslow (h : (pd.super = true ∨ pd.high = true) ∧ transType.Periodic) : False := h.1.elim hsuper hhigh
      split
      · cases transType <;> exact .inl ⟨rfl, hslow⟩
      · cases transType with
        | control => exact .inl ⟨rfl, hslow⟩
        | bulk => exact .inl ⟨rfl, hslow⟩
        | isochronous => exact .inr (.inl ⟨⟨_, rfl⟩, fun h => hsuper h.1⟩)
        | interrupt => exact .inl ⟨rfl, hslow⟩

theorem PsdEndpoint.Polled.sane_iff (h : pep.Polled pd) : pep.Sane pd ↔ ¬pep.Unclamped pd := by
  obtain ⟨maxPktSize, hint, hshift⟩ := h
  rcases polling_cases pd pep.transType maxPktSize pep.intervalRaw with
    ⟨hnone, hnot⟩ | ⟨⟨m, heq⟩, hnot⟩ | ⟨heq, hsuper, htype⟩
  · refine ⟨fun _ hun => hnot ⟨.inl hun.1, .inl hun.2.1⟩, fun _ => ⟨fun count hc => ?_, fun hs hp => ?_⟩⟩
    · rw [hshift, hnone] at hc
      cases hc
    · exact absurd ⟨hs, hp⟩ hnot
  · refine ⟨fun _ hun => hnot ⟨hun.1, hun.2.1⟩, fun _ => ?_⟩
    have hclamp := clampInterval_eq pep.intervalRaw
    rw [heq] at hint hshift
    exact sane_of_shifted (by omega) hclamp hint hshift
  · rw [heq] at hint hshift
    constructor
    · rintro hsane ⟨-, -, hhigh⟩
      have hlow : clampLow pep.intervalRaw = pep.intervalRaw := if_neg (by omega)
      rw [hlow] at hshift
      have := hsane.shift _ hshift
      omega
    · intro hnot
      have hle : pep.intervalRaw ≤ 16 := by
        by_contra hgt
        exact hnot ⟨hsuper, htype, by omega⟩
      have hlow : clampLow pep.intervalRaw = max 1 (min 16 pep.intervalRaw) := by
        unfold clampLow
        split <;> omega
      exact sane_of_shifted (by omega) hlow hint hshift

theorem PsdEndpoint.Polled.accompanied (h : pep.Polled pd) (hq : pep.Accompanied q) : q.Polled pd := by
  obtain ⟨_, _, _, _, _, rfl⟩ := hq
  exact h

theorem polled_endpointOf (pd : Speed) (id addr attr mps interval : ℕ) :
    (endpointOf pd id addr attr mps interval).Polled pd := ⟨_, rfl, rfl⟩

def AllPolled (pd : Speed) (s : Parse) : Prop := ∀ q ∈ s.eps, q.Polled pd

theorem AllPolled.onAltif {f : PsdInterface → PsdInterface} (h : AllPolled pd s)
    (hf : ∀ x, ∀ q ∈ (f x).eps, q ∈ x.eps ∨ q.Polled pd ∨ ∃ pep ∈ x.eps, pep.Accompanied q) :
    AllPolled pd (s.onAltif f) := by
  intro q hq
  obtain ⟨y, hy, hq⟩ := Parse.mem_eps.mp hq
  rcases Parse.mem_onAltif hy with hy | ⟨x, hx, rfl⟩
  · exact h q (Parse.mem_eps.mpr ⟨y, hy, hq⟩)
  · rcases hf x q hq with hq | hq | ⟨pep, hp, hq⟩
    · exact h q (Parse.mem_eps.mpr ⟨x, hx, hq⟩)
    · exact hq
    · exact (h pep (Parse.mem_eps.mpr ⟨x, hx, hp⟩)).accompanied hq

theorem AllPolled.round {get : Reader} {w : Alloc} {pos : ℕ} (h : AllPolled pd s) (hr : Round get w pd pos s t) :
    AllPolled pd t := by
  cases hr with
  | noConfig | stray | noInterface | noEndpoint | other => exact h
  | config pc _ _ hpc =>
    intro q hq
    obtain ⟨x, hx, hq⟩ := Parse.mem_eps.mp hq
    obtain ⟨c, hc, hx⟩ := Parse.mem_ifs.mp hx
    rcases List.mem_append.mp hc with hc | hc
    · exact h q (Parse.mem_eps.mpr ⟨x, Parse.mem_ifs.mpr ⟨c, hc, hx⟩, hq⟩)
    · rw [List.mem_singleton.mp hc, PsdConfig.ifs, hpc] at hx
      cases hx
  | interface altif _ _ _ _ heps =>
    intro q hq
    obtain ⟨x, hx, hq⟩ := Parse.mem_eps.mp hq
    rcases Parse.mem_addInterface hx with hx | ⟨parent, rfl⟩
    · exact h q (Parse.mem_eps.mpr ⟨x, hx, hq⟩)
    · rw [heps] at hq
      cases hq
  | endpoint addr attr mps interval =>
    refine h.onAltif fun x q hq => ?_
    rcases List.mem_append.mp hq with hq | hq
    · exact .inl hq
    · exact .inr (.inl (List.mem_singleton.mp hq ▸ polled_endpointOf pd _ addr attr mps interval))
  | companion f _ _ _ _ _ _ hf =>
    refine h.onAltif fun x q hq => ?_
    rcases mem_onLast hq with hq | ⟨pep, hp, rfl⟩
    · exact .inl hq
    · exact .inr (.inr ⟨pep, hp, hf pep⟩)

theorem AllPolled.parseBuffer {mem : Buffer → Reader} {buf : Buffer} {w : Alloc} (h : AllPolled pd s)
    (ht : parseBuffer mem pd buf w s = .ok t) : AllPolled pd t := by
  obtain ⟨u, hu, rfl⟩ := parseBuffer_loop ht
  obtain ⟨-, hall⟩ := parseLoop_invariant (fun _ => AllPolled pd) (fun pos dlen s t hs _ _ hd => by
    obtain ⟨v, _, hv, rfl⟩ := parseDescriptor_round hd
    have hall : AllPolled pd v := hs.round hv
    exact hall) hu h
  exact hall

theorem intervals_sane {mem : Buffer → Reader} {replies : List CfgReply} {ok : Bool}
    (h : pGetDevConfig mem pd replies start = .ok (ok, t)) (hq : q ∈ t.eps) : q.Sane pd ↔ ¬q.Unclamped pd := by
  have hall : AllPolled pd t :=
    pGetDevConfig_invariant (AllPolled pd) (fun _ _ _ _ hs => hs.parseBuffer) h fun _ hq => by cases hq
  exact (hall q hq).sane_iff

def interruptBuffer (bInterval : UInt8) : List UInt8 :=
  [9, 2, 25, 0, 1, 1, 0, 0x80, 50,
    9, 4, 0, 0, 1, 3, 0, 0, 0,
    7, 5, 0x81, 3, 8, 0, bInterval]

def superSpeed : Speed := ⟨true, false, false⟩

def interruptEndpoint (bInterval : ℕ) : PsdEndpoint := endpointOf superSpeed 18 0x81 3 8 bInterval

theorem intervals_sane_four :
    pGetDevConfig Buffer.memory superSpeed [goodReply 1 (interruptBuffer 4)] start =
        .ok (true, parsed superSpeed [goodReply 1 (interruptBuffer 4)]) ∧
      (interruptEndpoint 4).interval = 8 ∧ (interruptEndpoint 4).Sane superSpeed := by
  have h : pGetDevConfig Buffer.memory superSpeed [goodReply 1 (interruptBuffer 4)] start =
      .ok (true, parsed superSpeed [goodReply 1 (interruptBuffer 4)]) := rfl
  exact ⟨h, rfl, (intervals_sane h (q := interruptEndpoint 4) (by decide)).mpr fun hun => absurd hun.2.2 (by decide)⟩

theorem intervals_not_sane :
    pGetDevConfig Buffer.memory superSpeed [goodReply 1 (interruptBuffer 17)] start =
        .ok (true, parsed superSpeed [goodReply 1 (interruptBuffer 17)]) ∧
      interruptEndpoint 17 ∈ (parsed superSpeed [goodReply 1 (interruptBuffer 17)]).eps ∧
      (interruptEndpoint 17).interval = 0 ∧ (interruptEndpoint 17).shift = some 16 ∧
      ¬(interruptEndpoint 17).Sane superSpeed :=
  ⟨rfl, by decide, rfl, rfl, fun hsane => absurd (hsane.shift 16 rfl) (by decide)⟩

end Neptune.DevConfig
