import Neptune.Proofs.MidiExact

/-! Whether the device sees each SysEx closed. One that is cut with no byte held gets no closing packet. -/

namespace Neptune.CamdMidi

open List

open Midi UsbMidiTx

variable {tx : UsbMidiTx} {cable b : UInt8}

/-- Status bytes that end a SysEx without being its F7: another message begins, or nothing. -/
def begins (b : UInt8) : Bool := 0x80 ≤ b && b < 0xf8 && b ≠ 0xf7

/-- A stream so far: the messages begun, and each packet with the number of the one it belongs to. -/
structure Sent where
  tx : UsbMidiTx
  count : ℕ
  packets : List (ℕ × Packet)

def numbered (tx : UsbMidiTx) (cable : UInt8) (n : ℕ) (b : UInt8) : List (ℕ × Packet) :=
  if begins b then
    (tx.nTxSysExCut cable).map (n, ·) ++ ((tx.nTxByte cable b).2.drop (tx.nTxSysExCut cable).length).map (n + 1, ·)
  else (tx.nTxByte cable b).2.map (n, ·)

def Sent.byte (cable : UInt8) (s : Sent) (b : UInt8) : Sent where
  tx := (s.tx.nTxByte cable b).1
  count := if begins b then s.count + 1 else s.count
  packets := s.packets ++ numbered s.tx cable s.count b

def sent (cable : UInt8) (bs : List UInt8) : Sent := bs.foldl (Sent.byte cable) ⟨freshTx, 0, []⟩

def shown (packets : List (ℕ × Packet)) : List (ℕ × Packet) := packets.filter (·.2.cin ≠ 0xf)

def Follows (x y : ℕ × Packet) : Prop := x.2.cin = 4 → y.1 = x.1 ∧ 4 ≤ y.2.cin ∧ y.2.cin ≤ 7

structure Closed (s : Sent) : Prop where
  follows : (shown s.packets).IsChain Follows
  last : ∀ x ∈ (shown s.packets).getLast?, x.2.cin = 4 → inSysex s.tx = true ∧ x.1 = s.count

def sysexLen (len : ℕ) (b : UInt8) : ℕ :=
  if isRealtime b then len
  else if isData b then if len = 0 then 0 else len + 1
  else if b = 0xf0 then 1 else 0

/-- No SysEx is cut when its bytes so far, F0 the first and realtime bytes left out, are a multiple of three. -/
def Whole : ℕ → List UInt8 → Prop
  | _, [] => True
  | len, b :: bs => (begins b = true → len = 0 ∨ ¬3 ∣ len) ∧ Whole (sysexLen len b) bs

theorem begins_iff : begins b = true ↔ 0x80 ≤ b ∧ b < 0xf8 ∧ b ≠ 0xf7 := by
  simp [begins, and_assoc]

theorem not_begins (h : begins b = false) : b < 0x80 ∨ 0xf8 ≤ b ∨ b = 0xf7 := by
  by_contra hno
  obtain ⟨hdata, hreal, heox⟩ := by simpa only [not_or] using hno
  rw [begins_iff.mpr ⟨UInt8.not_lt.mp hdata, UInt8.not_le.mp hreal, heox⟩] at h
  exact absurd h nofun

/-- A status byte that begins a message: the cut, and what is the message's own. -/
theorem nTxByte_begins (h : begins b = true) : (tx.nTxByte cable b).1.state ≠ .sysex0 ∧
    (tx.nTxByte cable b).2 = tx.nTxSysExCut cable ++ if b = 0xf6 then [nTxPacket cable 5 b 0 0] else [] := by
  obtain ⟨hle, hlt, heox⟩ := begins_iff.mp h
  by_cases hchannel : b < 0xf0
  · have hne : b ≠ 0xf6 := by
      rintro rfl
      exact absurd hchannel (by decide)
    rw [nTxByte_channel hle hchannel, if_neg hne, append_nil]
    refine ⟨?_, rfl⟩
    split <;> nofun
  · have hsystem := UInt8.not_lt.mp hchannel
    rw [nTxByte_system hsystem hlt, if_neg heox]
    rcases system_cases b hsystem hlt with rfl | rfl | rfl | rfl | rfl | rfl | rfl | rfl
    all_goals first | exact absurd rfl heox | exact ⟨nofun, rfl⟩

theorem numbered_begins (n : ℕ) (h : begins b = true) : numbered tx cable n b =
    (tx.nTxSysExCut cable).map (n, ·) ++ if b = 0xf6 then [(n + 1, nTxPacket cable 5 b 0 0)] else [] := by
  unfold numbered
  rw [if_pos h, (nTxByte_begins h).2, drop_left]
  split <;> rfl

theorem numbered_snd (n : ℕ) (b : UInt8) : (numbered tx cable n b).map Prod.snd = (tx.nTxByte cable b).2 := by
  by_cases h : begins b = true
  · rw [numbered_begins n h, (nTxByte_begins h).2, map_append, map_map]
    congr 1
    · exact map_id' _
    · split <;> rfl
  · unfold numbered
    rw [if_neg h, map_map]
    exact map_id' _

theorem le_numbered (n : ℕ) (b : UInt8) : ∀ x ∈ numbered tx cable n b, n ≤ x.1 := by
  intro x hx
  unfold numbered at hx
  split at hx
  · rcases mem_append.mp hx with hx | hx
    · obtain ⟨p, -, rfl⟩ := mem_map.mp hx
      exact Nat.le_refl _
    · obtain ⟨p, -, rfl⟩ := mem_map.mp hx
      exact n.le_succ
  · obtain ⟨p, -, rfl⟩ := mem_map.mp hx
    exact Nat.le_refl _

theorem sent_snd (bs : List UInt8) (s : Sent) :
    (bs.foldl (Sent.byte cable) s).packets.map Prod.snd = s.packets.map Prod.snd ++ (nTxBytes cable s.tx bs).2 := by
  induction bs generalizing s with
  | nil => exact (append_nil _).symm
  | cons b bs ih =>
    rw [foldl_cons, ih]
    unfold Sent.byte
    dsimp only
    rw [map_append, numbered_snd, append_assoc]
    rfl

def Holds (tx : UsbMidiTx) (len : ℕ) : Prop :=
  if len = 0 then inSysex tx = false
  else tx.state = if len % 3 = 0 then .sysex0 else if len % 3 = 1 then .sysex1 else .sysex2

theorem Holds.sysex0 {len : ℕ} (h : Holds tx len) : tx.state = .sysex0 ↔ len ≠ 0 ∧ 3 ∣ len := by
  unfold Holds at h
  rw [Nat.dvd_iff_mod_eq_zero]
  by_cases hlen : len = 0
  · rw [if_pos hlen] at h
    refine ⟨fun hs => ?_, fun hs => absurd hlen hs.1⟩
    unfold inSysex at h
    rw [hs] at h
    exact absurd h (by decide)
  · rw [if_neg hlen] at h
    rw [h]
    split
    · next h0 => exact ⟨fun _ => ⟨hlen, h0⟩, fun _ => rfl⟩
    · next h0 =>
      refine ⟨fun hs => ?_, fun hs => absurd hs.2 h0⟩
      split at hs <;> exact absurd hs nofun

theorem Holds.byte {len : ℕ} (h : Holds tx len) (hcable : cable < 16) (hwaits : Waits tx) (b : UInt8) :
    Holds (tx.nTxByte cable b).1 (sysexLen len b) := by
  unfold sysexLen
  have hin := (nTxByte_state hcable hwaits b).2
  by_cases hreal : isRealtime b = true
  · rw [if_pos hreal, nTxByte_realtime (of_decide_eq_true hreal)]
    exact h
  · rw [if_neg hreal]
    by_cases hdata : isData b = true
    · rw [if_pos hdata, nTxByte_data (of_decide_eq_true hdata)]
      rw [nTxByte_data (of_decide_eq_true hdata), hdata] at hin
      unfold Holds at h ⊢
      by_cases hlen : len = 0
      · rw [if_pos hlen] at h ⊢
        exact hin.trans h
      · rw [if_neg hlen] at h ⊢
        unfold nTxData
        rw [h]
        have hmod : len % 3 = 0 ∧ (len + 1) % 3 = 1 ∨ len % 3 = 1 ∧ (len + 1) % 3 = 2 ∨
            len % 3 = 2 ∧ (len + 1) % 3 = 0 := by
          omega
        rcases hmod with ⟨h0, h1⟩ | ⟨h0, h1⟩ | ⟨h0, h1⟩ <;> rw [h0, h1] <;> rfl
    · rw [if_neg hdata]
      rw [eq_false_of_ne_true hreal, eq_false_of_ne_true hdata] at hin
      by_cases hf0 : b = 0xf0
      · rw [if_pos hf0, hf0, nTxByte_system (by decide) (by decide)]
        rfl
      · rw [if_neg hf0]
        exact hin.trans (decide_eq_false hf0)

/-- A byte adds these packets, and message `n` becomes message `n'`. -/
structure Goes (tx tx' : UsbMidiTx) (n n' : ℕ) (new : List (ℕ × Packet)) : Prop where
  chain : new.IsChain Follows
  head : ∀ y ∈ new.head?, inSysex tx = true → y.1 = n ∧ 4 ≤ y.2.cin ∧ y.2.cin ≤ 7
  last : ∀ y ∈ new.getLast?, y.2.cin = 4 → inSysex tx' = true ∧ y.1 = n'
  held : new = [] → inSysex tx = true → inSysex tx' = true ∧ n' = n
  full : tx'.state = .sysex0 → new = [] ∧ tx.state = .sysex0 ∧ n' = n ∨ ∃ y ∈ new.getLast?, y.2.cin = 4 ∧ y.1 = n'

section

variable {n : ℕ} (hcable : cable < 16)
include hcable

theorem begins_goes (h : begins b = true) (hs : tx.state ≠ .sysex0) :
    Goes tx (tx.nTxByte cable b).1 n (n + 1) (shown (numbered tx cable n b)) := by
  have hstate := (@nTxByte_begins tx cable b h).1
  rw [numbered_begins n h]
  generalize (tx.nTxByte cable b).1 = tx' at hstate
  cases htx : tx.state with
  | sysex0 => exact absurd htx hs
  | _ =>
    by_cases htune : b = 0xf6 <;> constructor <;>
      simp [nTxSysExCut, shown, Follows, inSysex, htune, htx, hstate, cin_nTxPacket hcable]

theorem eox_goes : Goes tx (tx.nTxSysExEnd cable).1 n n (shown ((tx.nTxSysExEnd cable).2.map (n, ·))) := by
  unfold nTxSysExEnd
  cases htx : tx.state with
  | _ => constructor <;> simp [shown, inSysex, htx, cin_nTxPacket hcable]

omit hcable in
/-- No message but a SysEx has the code of a SysEx. -/
theorem appends_sysex {realtime sysex : Bool} {p : Packet} (h : Appends cable realtime sysex p) (h4 : p.cin = 4) :
    sysex = true := by
  rcases h.2.2 with ⟨ds, hparams, -, -, hcode⟩ | ⟨-, -, hsysex⟩
  · have hne : params p.b0 ≠ none → codeIndex p.b0 ≠ 4 := by
      generalize p.b0 = b
      revert b
      exact forall_byte (by decide +kernel)
    exact absurd (hcode.symm.trans h4) (hne (by rw [hparams]; nofun))
  · exact hsysex

omit hcable in
theorem message_goes {len d0 d1 : UInt8} (hin : inSysex tx = false)
    (happends : ∀ p ∈ (tx.nTxMessage cable len d0 d1).2, Appends cable false (inSysex tx) p) :
    Goes tx (tx.nTxMessage cable len d0 d1).1 n n (shown ((tx.nTxMessage cable len d0 d1).2.map (n, ·))) := by
  have hone : ∃ p, (tx.nTxMessage cable len d0 d1).2 = [p] ∧ (tx.nTxMessage cable len d0 d1).1.state ≠ .sysex0 := by
    unfold nTxMessage
    split
    · refine ⟨_, rfl, ?_⟩
      dsimp only
      split <;> nofun
    · exact ⟨_, rfl, nofun⟩
  obtain ⟨p, hp, hstate⟩ := hone
  have hp' := happends p (hp ▸ mem_singleton_self p)
  have hreal : p.cin ≠ 0xf := fun h => absurd (hp'.2.1.mp h) nofun
  have hcin : p.cin ≠ 4 := fun h => absurd (hin.symm.trans (appends_sysex hp' h)) nofun
  rw [hp]
  constructor <;> simp [shown, hin, hreal, hcin, hstate]

theorem data_goes (hwaits : Waits tx) (hb : b < 0x80) :
    Goes tx (tx.nTxData cable b).1 n n (shown ((tx.nTxData cable b).2.map (n, ·))) := by
  have happends := nTxData_appends hcable hwaits hb
  unfold nTxData at happends ⊢
  cases htx : tx.state with
  | oneParam | twoParam2 =>
    rw [htx] at happends
    exact message_goes (by simp [inSysex, htx]) happends
  | _ => constructor <;> simp [shown, inSysex, htx, cin_nTxPacket hcable]

theorem byte_goes (hwaits : Waits tx) (hcut : begins b = true → tx.state ≠ .sysex0) :
    Goes tx (tx.nTxByte cable b).1 n (if begins b then n + 1 else n) (shown (numbered tx cable n b)) := by
  by_cases h : begins b = true
  · rw [if_pos h]
    exact begins_goes hcable h (hcut h)
  · rw [if_neg h]
    unfold numbered
    rw [if_neg h]
    rcases not_begins (eq_false_of_ne_true h) with hdata | hreal | rfl
    · rw [nTxByte_data hdata]
      exact data_goes hcable hwaits hdata
    · rw [nTxByte_realtime hreal]
      constructor <;> simp [shown, cin_nTxPacket hcable]
    · exact eox_goes hcable

end

def Full (s : Sent) : Prop := s.tx.state = .sysex0 → ∃ x ∈ (shown s.packets).getLast?, x.2.cin = 4 ∧ x.1 = s.count

/-- A SysEx has been left open: its packet is followed by one of another message, or by none yet. -/
def Left (s : Sent) : Prop :=
  ¬(shown s.packets).IsChain Follows ∨ ∃ x ∈ (shown s.packets).getLast?, x.2.cin = 4 ∧ x.1 < s.count

theorem Left.not_closed {s : Sent} (h : Left s) : ¬Closed s := by
  intro hclosed
  rcases h with h | ⟨x, hx, hcin, hlt⟩
  · exact h hclosed.follows
  · exact absurd (hclosed.last x hx hcin).2 (Nat.ne_of_lt hlt)

theorem shown_byte (s : Sent) (b : UInt8) :
    shown (s.byte cable b).packets = shown s.packets ++ shown (numbered s.tx cable s.count b) :=
  filter_append ..

theorem Closed.byte {s : Sent} (h : Closed s) (hfull : Full s)
    (hgoes : Goes s.tx (s.byte cable b).tx s.count (s.byte cable b).count (shown (numbered s.tx cable s.count b))) :
    Closed (s.byte cable b) ∧ Full (s.byte cable b) := by
  have hlast : ∀ x, x ∈ (shown s.packets ++ shown (numbered s.tx cable s.count b)).getLast? →
      x ∈ (shown (numbered s.tx cable s.count b)).getLast? ∨
        shown (numbered s.tx cable s.count b) = [] ∧ x ∈ (shown s.packets).getLast? := by
    intro x hx
    rw [getLast?_append] at hx
    cases hnew : shown (numbered s.tx cable s.count b) with
    | nil => exact .inr ⟨rfl, by simpa [hnew] using hx⟩
    | cons y ys => exact .inl (by simpa [hnew] using hx)
  refine ⟨⟨?_, fun x hx hcin => ?_⟩, fun hs => ?_⟩
  · rw [shown_byte]
    refine isChain_append.mpr ⟨h.follows, hgoes.chain, fun x hx y hy hcin => ?_⟩
    obtain ⟨hin, hcount⟩ := h.last x hx hcin
    rw [hcount]
    exact hgoes.head y hy hin
  · rw [shown_byte] at hx
    rcases hlast x hx with hx | ⟨hnil, hx⟩
    · exact hgoes.last x hx hcin
    · obtain ⟨hin, hcount⟩ := h.last x hx hcin
      obtain ⟨hin', hcount'⟩ := hgoes.held hnil hin
      exact ⟨hin', hcount.trans hcount'.symm⟩
  · rw [shown_byte, getLast?_append]
    rcases hgoes.full hs with ⟨hnil, hs, hcount⟩ | ⟨y, hy, hy'⟩
    · rw [hnil]
      obtain ⟨x, hx, hcin, hx'⟩ := hfull hs
      exact ⟨x, hx, hcin, hx'.trans hcount.symm⟩
    · refine ⟨y, ?_, hy'⟩
      rw [show (shown (numbered s.tx cable s.count b)).getLast? = some y from hy]
      rfl

theorem Left.byte {s : Sent} (h : Left s) (b : UInt8) : Left (s.byte cable b) := by
  have hle : s.count ≤ (s.byte cable b).count := by
    unfold Sent.byte
    dsimp only
    split
    · exact Nat.le_succ _
    · exact Nat.le_refl _
  unfold Left
  rw [shown_byte]
  rcases h with h | ⟨x, hx, hcin, hlt⟩
  · exact .inl fun hc => h (isChain_append.mp hc).1
  · cases hnew : shown (numbered s.tx cable s.count b) with
    | nil => exact .inr ⟨x, by rwa [append_nil], hcin, Nat.lt_of_lt_of_le hlt hle⟩
    | cons y ys =>
      refine .inl fun hc => ?_
      have hy := ((isChain_append.mp hc).2.2 x hx y rfl hcin).1
      have hmem : y ∈ numbered s.tx cable s.count b := mem_of_mem_filter (hnew ▸ mem_cons_self)
      exact absurd (le_numbered s.count b y hmem) (Nat.not_le.mpr (hy ▸ hlt))

theorem Left.bytes (bs : List UInt8) {s : Sent} (h : Left s) : ¬Closed (bs.foldl (Sent.byte cable) s) := by
  induction bs generalizing s with
  | nil => exact h.not_closed
  | cons b bs ih => exact ih (h.byte b)

/-- The cut of a full SysEx has nothing to send, and F6 alone is of the next message. -/
theorem Full.left {s : Sent} (h : Full s) (hcable : cable < 16) (hs : s.tx.state = .sysex0) (hb : begins b = true) :
    Left (s.byte cable b) := by
  obtain ⟨x, hx, hcin, hcount⟩ := h hs
  unfold Left
  rw [shown_byte, numbered_begins _ hb]
  unfold nTxSysExCut
  rw [hs]
  by_cases htune : b = 0xf6
  · refine .inl fun hc => ?_
    have heq := ((isChain_append.mp hc).2.2 x hx (s.count + 1, nTxPacket cable 5 b 0 0)
      (by simp [htune, shown, cin_nTxPacket hcable]) hcin).1
    exact absurd (heq.trans hcount) (Nat.succ_ne_self _)
  · refine .inr ⟨x, by simpa [htune, shown] using hx, hcin, ?_⟩
    show x.1 < if begins b then _ else _
    rw [if_pos hb, hcount]
    exact Nat.lt_succ_self _

theorem closed_bytes (hcable : cable < 16) (bs : List UInt8) {s : Sent} {len : ℕ} (hwaits : Waits s.tx)
    (hholds : Holds s.tx len) (hclosed : Closed s) (hfull : Full s) :
    Closed (bs.foldl (Sent.byte cable) s) ↔ Whole len bs := by
  induction bs generalizing s len with
  | nil => exact iff_of_true hclosed trivial
  | cons b bs ih =>
    by_cases hcut : begins b = true → len = 0 ∨ ¬3 ∣ len
    · obtain ⟨hclosed', hfull'⟩ := hclosed.byte hfull (byte_goes hcable hwaits fun hb hs =>
        (hcut hb).elim (hholds.sysex0.mp hs).1 fun hnot => hnot (hholds.sysex0.mp hs).2)
      refine (ih (nTxByte_state hcable hwaits b).1 (hholds.byte hcable hwaits b) hclosed' hfull').trans ?_
      exact (and_iff_right hcut).symm
    · obtain ⟨hb, hlen⟩ := Classical.not_imp.mp hcut
      obtain ⟨hlen, hdvd⟩ := not_or.mp hlen
      have hleft := hfull.left hcable (hholds.sysex0.mpr ⟨hlen, not_not.mp hdvd⟩) hb
      exact iff_of_false (hleft.bytes bs) fun h => hcut h.1

theorem sysex_closed (hcable : cable < 16) (bs : List UInt8) :
    (sent cable bs).packets.map Prod.snd = (nTxBytes cable freshTx bs).2 ∧ (Closed (sent cable bs) ↔ Whole 0 bs) :=
  ⟨sent_snd bs _, closed_bytes hcable bs waits_fresh rfl ⟨.nil, fun _ hx => absurd hx nofun⟩ fun h => absurd h nofun⟩

theorem sysex_closed_cable :
    (sent 2 [0xf0, 1, 2, 0xf7]).packets.map Prod.snd = (nTxBytes 2 freshTx [0xf0, 1, 2, 0xf7]).2 ∧
      (Closed (sent 2 [0xf0, 1, 2, 0xf7]) ↔ Whole 0 [0xf0, 1, 2, 0xf7]) :=
  sysex_closed (by decide) _

/-- A SysEx of three bytes is cut by a note. -/
theorem sysex_left_open : ¬Closed (sent 0 [0xf0, 1, 2, 0x90, 0x3c, 0x7f]) := by
  intro h
  have hchain := h.follows
  rw [show shown (sent 0 [0xf0, 1, 2, 0x90, 0x3c, 0x7f]).packets =
    [(1, ⟨4, 0xf0, 1, 2⟩), (2, ⟨0x09, 0x90, 0x3c, 0x7f⟩)] by decide] at hchain
  exact absurd ((isChain_cons_cons.mp hchain).1 rfl).1 (by decide)

end Neptune.CamdMidi
