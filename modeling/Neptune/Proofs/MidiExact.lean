import Neptune.Spec.MidiStream
import Neptune.Spec.MidiTx

/-! The packets of a cable say what its bytes say: the converter's state is what the last segment holds open. -/

namespace Neptune.CamdMidi

open List

open Midi UsbMidiTx

variable {tx : UsbMidiTx} {cable b : UInt8} {bs lead : List UInt8}

theorem forall_byte {P : UInt8 → Prop} (h : ∀ i : Fin 256, P (UInt8.ofNat i)) (b : UInt8) : P b := by
  have hb := h ⟨b.toNat, b.toNat_lt⟩
  rwa [show UInt8.ofNat b.toNat = b from UInt8.ofNat_toNat] at hb

section

variable (b : UInt8)

theorem channel_status : 0x80 ≤ b → b < 0xf0 →
    ((b &&& 0xf0 = 0xc0 ∨ b &&& 0xf0 = 0xd0) ∧ params b = some 1 ∨
      ¬ (b &&& 0xf0 = 0xc0 ∨ b &&& 0xf0 = 0xd0) ∧ params b = some 2) ∧
    b >>> 4 < 16 ∧ b >>> 4 ≠ 0xf ∧ params b = some (cinlength (b >>> 4) - 1) ∧ 1 ≤ cinlength (b >>> 4) := by
  revert b
  exact forall_byte (by decide +kernel)

theorem channel_params (hle : 0x80 ≤ b) (hlt : b < 0xf0) :
    ((b &&& 0xf0 = 0xc0 ∨ b &&& 0xf0 = 0xd0) ∧ params b = some 1 ∨
      ¬ (b &&& 0xf0 = 0xc0 ∨ b &&& 0xf0 = 0xd0) ∧ params b = some 2) :=
  (channel_status b hle hlt).1

theorem channel_cin (hle : 0x80 ≤ b) (hlt : b < 0xf0) :
    b >>> 4 < 16 ∧ b >>> 4 ≠ 0xf ∧ params b = some (cinlength (b >>> 4) - 1) ∧ 1 ≤ cinlength (b >>> 4) :=
  (channel_status b hle hlt).2

theorem status_params : (b &&& 0x80 ≠ 0 ↔ 0x80 ≤ b) ∧ (params b ≠ none → 0x80 ≤ b) ∧
    ((params b = some 1 → b < 0xf0 ∨ b = 0xf1 ∨ b = 0xf3) ∧ (params b = some 2 → b < 0xf0 ∨ b = 0xf2)) ∧
    (0xf8 ≤ b → params b = some 0) := by
  revert b
  exact forall_byte (by decide +kernel)

theorem statusBit : b &&& 0x80 ≠ 0 ↔ 0x80 ≤ b := (status_params b).1

theorem params_status : params b ≠ none → 0x80 ≤ b := (status_params b).2.1

theorem params_cases : (params b = some 1 → b < 0xf0 ∨ b = 0xf1 ∨ b = 0xf3) ∧
    (params b = some 2 → b < 0xf0 ∨ b = 0xf2) :=
  (status_params b).2.2.1

theorem realtime_params : 0xf8 ≤ b → params b = some 0 := (status_params b).2.2.2

theorem system_cases (hle : 0xf0 ≤ b) (hlt : b < 0xf8) :
    b = 0xf0 ∨ b = 0xf1 ∨ b = 0xf2 ∨ b = 0xf3 ∨ b = 0xf4 ∨ b = 0xf5 ∨ b = 0xf6 ∨ b = 0xf7 := by
  simp only [UInt8.le_iff_toNat_le, UInt8.lt_iff_toNat_lt, UInt8.reduceToNat] at hle hlt
  simp only [← UInt8.toNat_inj, UInt8.reduceToNat]
  omega

end

theorem header_nibbles (cable cin : UInt8) : cable < 16 → cin < 16 →
    usbmidiCable (usbmidiHeader cable cin) = cable ∧ usbmidiCinOf (usbmidiHeader cable cin) = cin := by
  intro hcable hcin
  have hall : ∀ i j : Fin 16, usbmidiCable (usbmidiHeader (UInt8.ofNat i) (UInt8.ofNat j)) = UInt8.ofNat i ∧
      usbmidiCinOf (usbmidiHeader (UInt8.ofNat i) (UInt8.ofNat j)) = UInt8.ofNat j := by decide +kernel
  have h := hall ⟨cable.toNat, UInt8.lt_iff_toNat_lt.mp hcable⟩ ⟨cin.toNat, UInt8.lt_iff_toNat_lt.mp hcin⟩
  rwa [show UInt8.ofNat cable.toNat = cable from UInt8.ofNat_toNat,
    show UInt8.ofNat cin.toNat = cin from UInt8.ofNat_toNat] at h

variable {n : ℕ} {b0 b1 b2 cin status : UInt8} {ds : List UInt8}

theorem bytes_nTxPacket (hcable : cable < 16) (hcin : cin < 16) :
    (nTxPacket cable cin b0 b1 b2).bytes = [b0, b1, b2].take (cinlength cin) := by
  unfold Packet.bytes Packet.cin nTxPacket
  rw [(header_nibbles cable cin hcable hcin).2]

theorem cin_nTxPacket (hcable : cable < 16) (hcin : cin < 16) :
    (nTxPacket cable cin b0 b1 b2).cin = cin :=
  (header_nibbles cable cin hcable hcin).2

theorem cable_nTxPacket (hcable : cable < 16) (hcin : cin < 16) :
    (nTxPacket cable cin b0 b1 b2).cable = cable :=
  (header_nibbles cable cin hcable hcin).1

theorem running_one {d : UInt8} (h : params status = some 1) :
    running status (d :: ds) = status :: d :: running status ds := by
  cases ds with
  | nil => exact if_pos h
  | cons e ds => exact if_pos h

theorem running_two {d e : UInt8} (h : params status = some 2) :
    running status (d :: e :: ds) = status :: d :: e :: running status ds :=
  if_neg (by rw [h]; nofun)

theorem said_channel (h : status < 0xf0) (ds : List UInt8) : said status ds = running status ds := if_pos h

theorem said_system (h : ¬ status < 0xf0) (hne : status ≠ 0xf0) (hn : params status = some n)
    (ds : List UInt8) : said status ds = if n ≤ ds.length then status :: ds.take n else [] := by
  unfold said
  rw [if_neg h, if_neg hne, hn]

def held (tx : UsbMidiTx) : List UInt8 :=
  match tx.state with
  | .sysex1 => [tx.data0]
  | .sysex2 => [tx.data0, tx.data1]
  | _ => []

def inSysex (tx : UsbMidiTx) : Bool := tx.state = .sysex0 ∨ tx.state = .sysex1 ∨ tx.state = .sysex2

/-- A message that waits for its data bytes has as many to come as its status says. -/
structure Waits (tx : UsbMidiTx) : Prop where
  one : tx.state = .oneParam → params tx.status = some 1
  two : tx.state = .twoParam1 ∨ tx.state = .twoParam2 → params tx.status = some 2
  data : tx.state = .twoParam2 → tx.data0 < 0x80

theorem waits_one (hs : tx.state = .oneParam) (h : params tx.status = some 1) : Waits tx where
  one := fun _ => h
  two := by
    rw [hs]
    nofun
  data := by
    rw [hs]
    nofun

theorem waits_two (hs : tx.state = .twoParam1) (h : params tx.status = some 2) : Waits tx where
  one := by
    rw [hs]
    nofun
  two := fun _ => h
  data := by
    rw [hs]
    nofun

theorem waits_none (hs : tx.state = .unknown ∨ inSysex tx = true) : Waits tx := by
  have hnot : tx.state ≠ .oneParam ∧ tx.state ≠ .twoParam1 ∧ tx.state ≠ .twoParam2 := by
    unfold inSysex at hs
    refine ⟨?_, ?_, ?_⟩ <;> intro h <;> rw [h] at hs <;> exact absurd hs (by decide)
  exact ⟨fun h => absurd h hnot.1, fun h => (h.elim hnot.2.1 hnot.2.2).elim, fun h => absurd h hnot.2.2⟩

def goesOn (tx : UsbMidiTx) (lead : List UInt8) : List UInt8 :=
  match tx.state with
  | .unknown => []
  | .oneParam | .twoParam1 => said tx.status lead
  | .twoParam2 => said tx.status (tx.data0 :: lead)
  | .sysex0 | .sysex1 | .sysex2 => held tx ++ lead

theorem said_short (h : params status = some n) (hne : status ≠ 0xf0)
    (hlt : ds.length < n) (htwo : ds.length < 2) : said status ds = [] := by
  by_cases hchannel : status < 0xf0
  · rw [said_channel hchannel]
    match ds with
    | [] => rfl
    | [d] => exact if_neg fun h1 => by rw [h1] at h; cases h; exact absurd hlt (by simp)
    | d :: e :: ds => exact absurd htwo (by simp)
  · rw [said_system hchannel hne h, if_neg (Nat.not_le.mpr hlt)]

theorem ne_sysex (h : params status = some n) : status ≠ 0xf0 := by
  rintro rfl
  exact absurd ((by decide : params 0xf0 = none).symm.trans h) nofun

theorem goesOn_nil (h : Waits tx) : goesOn tx [] = held tx := by
  unfold goesOn held
  split
  · next hs => rw [hs]
  · next hs =>
    rw [hs, said_short (h.one hs) (ne_sysex (h.one hs)) (by decide) (by decide)]
  · next hs =>
    rw [hs, said_short (h.two (.inl hs)) (ne_sysex (h.two (.inl hs))) (by decide) (by decide)]
  · next hs =>
    have hlt : [tx.data0].length < 2 := Nat.one_lt_two
    rw [hs, said_short (h.two (.inr hs)) (ne_sysex (h.two (.inr hs))) hlt hlt]
  all_goals
    next hs => rw [hs, append_nil]

def decode (packets : List Packet) : List UInt8 := packets.flatMap Packet.bytes

theorem decode_append (xs ys : List Packet) : decode (xs ++ ys) = decode xs ++ decode ys := flatMap_append

theorem decode_one (p : Packet) : decode [p] = p.bytes := flatMap_singleton ..

theorem nTxMessage_spec (d0 d1 : UInt8) (lead : List UInt8) (hcable : cable < 16) (hn : params tx.status = some n)
    (hone : n = 1 ∨ n = 2) (hds : [d0, d1].take n = ds) :
    decode (tx.nTxMessage cable (if n = 1 then 2 else 3) d0 d1).2 ++
        goesOn (tx.nTxMessage cable (if n = 1 then 2 else 3) d0 d1).1 lead = said tx.status (ds ++ lead) ∧
      inSysex (tx.nTxMessage cable (if n = 1 then 2 else 3) d0 d1).1 = false ∧
      Waits (tx.nTxMessage cable (if n = 1 then 2 else 3) d0 d1).1 := by
  unfold nTxMessage
  by_cases hchannel : tx.status < 0xf0
  · rw [if_pos hchannel]
    obtain ⟨hcin, -, hparams, hlength⟩ := channel_cin tx.status (params_status _ (by rw [hn]; nofun)) hchannel
    have hlen : cinlength (tx.status >>> 4) = n + 1 := by
      have := Option.some.inj (hn.symm.trans hparams)
      omega
    rw [decode_one, bytes_nTxPacket hcable hcin, hlen]
    subst hds
    rcases hone with rfl | rfl
    · refine ⟨?_, rfl, waits_one rfl hn⟩
      rw [said_channel hchannel]
      show tx.status :: d0 :: said tx.status lead = _
      rw [said_channel hchannel]
      exact (running_one hn).symm
    · refine ⟨?_, rfl, waits_two rfl hn⟩
      rw [said_channel hchannel]
      show tx.status :: d0 :: d1 :: said tx.status lead = _
      rw [said_channel hchannel]
      exact (running_two hn).symm
  · rw [if_neg hchannel]
    subst hds
    rw [said_system hchannel (ne_sysex hn) hn]
    rcases hone with rfl | rfl
    · refine ⟨?_, rfl, waits_none (.inl rfl)⟩
      show decode [nTxPacket cable 2 tx.status d0 d1] ++ [] = _
      rw [decode_one, bytes_nTxPacket hcable (by decide), if_pos (by simp)]
      rfl
    · refine ⟨?_, rfl, waits_none (.inl rfl)⟩
      show decode [nTxPacket cable 3 tx.status d0 d1] ++ [] = _
      rw [decode_one, bytes_nTxPacket hcable (by decide), if_pos (by simp)]
      rfl

theorem nTxData_spec (lead : List UInt8) (hcable : cable < 16) (h : Waits tx) (hb : b < 0x80) :
    decode (tx.nTxData cable b).2 ++ goesOn (tx.nTxData cable b).1 lead = goesOn tx (b :: lead) ∧
      inSysex (tx.nTxData cable b).1 = inSysex tx ∧ Waits (tx.nTxData cable b).1 := by
  unfold nTxData
  split
  · next hs =>
    have hspec := nTxMessage_spec b 0 lead hcable (h.one hs) (.inl rfl) rfl
    unfold goesOn inSysex at hspec ⊢
    rw [hs]
    exact hspec
  · next hs =>
    unfold goesOn inSysex
    rw [hs]
    exact ⟨rfl, rfl, ⟨nofun, fun _ => h.two (.inl hs), fun _ => hb⟩⟩
  · next hs =>
    have hspec := nTxMessage_spec tx.data0 b lead hcable (h.two (.inr hs)) (.inr rfl) rfl
    unfold goesOn inSysex at hspec ⊢
    rw [hs]
    exact hspec
  · next hs =>
    unfold goesOn inSysex held
    rw [hs]
    exact ⟨rfl, rfl, waits_none (.inr rfl)⟩
  · next hs =>
    unfold goesOn inSysex held
    rw [hs]
    exact ⟨rfl, rfl, waits_none (.inr rfl)⟩
  · next hs =>
    unfold goesOn inSysex held
    rw [hs, decode_one, bytes_nTxPacket hcable (by decide)]
    exact ⟨rfl, rfl, waits_none (.inr rfl)⟩
  · next hs =>
    unfold goesOn inSysex
    rw [hs]
    exact ⟨rfl, rfl, h⟩

theorem nTxByte_data (hb : b < 0x80) : tx.nTxByte cable b = tx.nTxData cable b := by
  have hbit : ¬ (b &&& 0x80 ≠ 0) := fun h => absurd ((statusBit b).mp h) (UInt8.not_le.mpr hb)
  have hsystem : ¬ 0xf0 ≤ b := fun h => absurd (UInt8.le_trans (by decide) h) (UInt8.not_le.mpr hb)
  have hrealtime : ¬ 0xf8 ≤ b := fun h => hsystem (UInt8.le_trans (by decide) h)
  unfold nTxByte
  rw [if_neg hrealtime, if_neg fun h => hbit h.1, if_neg hsystem, if_neg hbit]
  rfl

theorem nTxByte_channel (hb : 0x80 ≤ b) (hb' : b < 0xf0) :
    tx.nTxByte cable b =
      ({ tx with status := b, state := if params b = some 1 then .oneParam else .twoParam1 }, tx.nTxSysExCut cable) := by
  have hbit : b &&& 0x80 ≠ 0 := (statusBit b).mpr hb
  have hsystem : ¬ 0xf0 ≤ b := UInt8.not_le.mpr hb'
  have hrealtime : ¬ 0xf8 ≤ b := fun h => hsystem (UInt8.le_trans (by decide) h)
  have heox : b ≠ 0xf7 := by
    rintro rfl
    exact absurd hb' (by decide)
  unfold nTxByte
  rw [if_neg hrealtime, if_pos ⟨hbit, heox⟩, if_neg hsystem, if_pos hbit]
  rcases channel_params b hb hb' with ⟨hnibble, hparams⟩ | ⟨hnibble, hparams⟩
  · rw [if_pos hnibble, if_pos hparams]
    dsimp only
    rw [append_nil]
  · rw [if_neg hnibble, if_neg (by rw [hparams]; nofun)]
    dsimp only
    rw [append_nil]

theorem nTxByte_system (hb : 0xf0 ≤ b) (hb' : b < 0xf8) :
    tx.nTxByte cable b =
      ((tx.nTxSystem cable b).1,
        (if b = 0xf7 then [] else tx.nTxSysExCut cable) ++ (tx.nTxSystem cable b).2) := by
  have hbit : b &&& 0x80 ≠ 0 := (statusBit b).mpr (UInt8.le_trans (by decide) hb)
  unfold nTxByte
  rw [if_neg (UInt8.not_le.mpr hb'), if_pos hb]
  by_cases heox : b = 0xf7
  · rw [if_neg fun h => h.2 heox, if_pos heox]
  · rw [if_pos ⟨hbit, heox⟩, if_neg heox]

theorem nTxByte_realtime (hb : 0xf8 ≤ b) : tx.nTxByte cable b = (tx, [nTxPacket cable 0xf b 0 0]) := if_pos hb

theorem decode_cut (hcable : cable < 16) : decode (tx.nTxSysExCut cable) = held tx := by
  unfold nTxSysExCut held
  cases tx.state with
  | sysex1 | sysex2 =>
    rw [decode_one, bytes_nTxPacket hcable (by decide)]
    rfl
  | _ => rfl

theorem decode_end (hcable : cable < 16) :
    decode (tx.nTxSysExEnd cable).2 = if inSysex tx then held tx ++ [0xf7] else [] := by
  unfold nTxSysExEnd inSysex held
  cases tx.state with
  | sysex0 | sysex1 | sysex2 =>
    rw [decode_one, bytes_nTxPacket hcable (by decide)]
    rfl
  | _ => rfl

theorem held_outside (h : inSysex tx = false) : held tx = [] := by
  unfold inSysex at h
  unfold held
  cases hs : tx.state with
  | sysex1 | sysex2 => exact absurd h (by rw [hs]; decide)
  | _ => rfl

theorem nTxSystem_spec (tx : UsbMidiTx) (lead : List UInt8) (hcable : cable < 16) (hb : 0xf0 ≤ b) (hb' : b < 0xf8) (heox : b ≠ 0xf7) :
    decode (tx.nTxSystem cable b).2 ++ goesOn (tx.nTxSystem cable b).1 lead = said b lead ∧
      inSysex (tx.nTxSystem cable b).1 = decide (b = 0xf0) ∧ Waits (tx.nTxSystem cable b).1 := by
  rcases system_cases b hb hb' with rfl | rfl | rfl | rfl | rfl | rfl | rfl | rfl
  · exact ⟨rfl, rfl, waits_none (.inr rfl)⟩
  · exact ⟨rfl, rfl, waits_one rfl (show params 0xf1 = some 1 by decide)⟩
  · exact ⟨rfl, rfl, waits_two rfl (show params 0xf2 = some 2 by decide)⟩
  · exact ⟨rfl, rfl, waits_one rfl (show params 0xf3 = some 1 by decide)⟩
  -- F4 and F5 are undefined
  · exact ⟨rfl, rfl, waits_none (.inl rfl)⟩
  · exact ⟨rfl, rfl, waits_none (.inl rfl)⟩
  · refine ⟨?_, rfl, waits_none (.inl rfl)⟩
    show decode [nTxPacket cable 5 0xf6 0 0] ++ [] = _
    rw [decode_one, bytes_nTxPacket hcable (by decide), said_system (n := 0) (by decide) (by decide) (by decide),
      if_pos (Nat.zero_le _)]
    rfl
  · exact absurd rfl heox

theorem nTxByte_status (tx : UsbMidiTx) (lead : List UInt8) (hcable : cable < 16) (hb : 0x80 ≤ b) (hb' : b < 0xf8) :
    decode (tx.nTxByte cable b).2 ++ goesOn (tx.nTxByte cable b).1 lead =
        held tx ++ (if b = 0xf7 ∧ inSysex tx then [0xf7] else said b lead) ∧
      inSysex (tx.nTxByte cable b).1 = decide (b = 0xf0) ∧ Waits (tx.nTxByte cable b).1 := by
  by_cases hchannel : b < 0xf0
  · have hne : b ≠ 0xf7 ∧ b ≠ 0xf0 := by
      constructor <;> rintro rfl <;> exact absurd hchannel (by decide)
    have hplain : (if b = 0xf7 ∧ inSysex tx then [0xf7] else said b lead) = said b lead := if_neg fun h => hne.1 h.1
    rw [nTxByte_channel hb hchannel, decode_cut hcable, hplain, decide_eq_false hne.2]
    rcases channel_params b hb hchannel with ⟨-, hparams⟩ | ⟨-, hparams⟩
    · rw [if_pos hparams]
      exact ⟨rfl, rfl, waits_one rfl hparams⟩
    · rw [if_neg (by rw [hparams]; nofun)]
      exact ⟨rfl, rfl, waits_two rfl hparams⟩
  · have hsystem := UInt8.not_lt.mp hchannel
    rw [nTxByte_system hsystem hb']
    dsimp only
    rw [decode_append]
    by_cases heox : b = 0xf7
    · subst heox
      rw [if_pos rfl]
      refine ⟨?_, rfl, waits_none (.inl rfl)⟩
      show [] ++ decode (tx.nTxSysExEnd cable).2 ++ [] = _
      rw [decode_end hcable, nil_append, append_nil]
      cases hin : inSysex tx with
      | true => rw [if_pos rfl, if_pos ⟨rfl, rfl⟩]
      | false =>
        rw [if_neg nofun, if_neg fun h => absurd h.2 nofun, held_outside hin]
        rfl
    · obtain ⟨hsaid, hin, hwaits⟩ := nTxSystem_spec tx lead hcable hsystem hb' heox
      rw [if_neg heox, decode_cut hcable, if_neg fun h => heox h.1, append_assoc, hsaid]
      exact ⟨rfl, hin, hwaits⟩

theorem waits_fresh : Waits freshTx := waits_none (.inl rfl)

theorem isRealtime_lt (h : isRealtime b = false) : b < 0xf8 := UInt8.not_le.mp (of_decide_eq_false h)

theorem nTxBytes_spec (hcable : cable < 16) (h : Waits tx) (hbs : ∀ b ∈ bs, isRealtime b = false) :
    decode (nTxBytes cable tx bs).2 ++ held (nTxBytes cable tx bs).1 =
      goesOn tx (segments bs).1 ++ saidAll (inSysex tx) (segments bs).2 ∧ Waits (nTxBytes cable tx bs).1 := by
  induction bs generalizing tx with
  | nil =>
    refine ⟨?_, h⟩
    show held tx = goesOn tx [] ++ []
    rw [goesOn_nil h, append_nil]
  | cons b bs ih =>
    have hb := isRealtime_lt (hbs b mem_cons_self)
    have hrest : ∀ b ∈ bs, isRealtime b = false := fun b hb => hbs b (mem_cons_of_mem _ hb)
    show decode ((tx.nTxByte cable b).2 ++ (nTxBytes cable (tx.nTxByte cable b).1 bs).2) ++
      held (nTxBytes cable (tx.nTxByte cable b).1 bs).1 = _ ∧ Waits (nTxBytes cable (tx.nTxByte cable b).1 bs).1
    rw [decode_append, append_assoc]
    by_cases hdata : b < 0x80
    · obtain ⟨hsaid, hin, hwaits⟩ := nTxData_spec (segments bs).1 hcable h hdata
      rw [nTxByte_data hdata]
      obtain ⟨hall, hwaits'⟩ := ih hwaits hrest
      have hseg : segments (b :: bs) = (b :: (segments bs).1, (segments bs).2) := if_pos (decide_eq_true hdata)
      rw [hall, ← append_assoc, hsaid, hin, hseg]
      exact ⟨rfl, hwaits'⟩
    · obtain ⟨hsaid, hin, hwaits⟩ := nTxByte_status tx (segments bs).1 hcable (UInt8.not_lt.mp hdata) hb
      obtain ⟨hall, hwaits'⟩ := ih hwaits hrest
      have hseg : segments (b :: bs) = ([], (b, (segments bs).1) :: (segments bs).2) :=
        if_neg fun hd => hdata (of_decide_eq_true hd)
      rw [hall, ← append_assoc, hsaid, hin, hseg, goesOn_nil h, append_assoc]
      exact ⟨rfl, hwaits'⟩

theorem nTxBytes_append (xs ys : List UInt8) :
    nTxBytes cable tx (xs ++ ys) =
      ((nTxBytes cable (nTxBytes cable tx xs).1 ys).1,
        (nTxBytes cable tx xs).2 ++ (nTxBytes cable (nTxBytes cable tx xs).1 ys).2) := by
  induction xs generalizing tx with
  | nil => rfl
  | cons x xs ih =>
    rw [cons_append]
    show ((nTxBytes cable (tx.nTxByte cable x).1 (xs ++ ys)).1,
      (tx.nTxByte cable x).2 ++ (nTxBytes cable (tx.nTxByte cable x).1 (xs ++ ys)).2) = _
    rw [ih]
    dsimp only
    rw [← append_assoc]
    rfl

def Complete (p : Packet) : Prop :=
  ∃ ds : List UInt8, params p.b0 = some ds.length ∧ (∀ d ∈ ds, isData d = true) ∧
    [p.b1, p.b2] = ds ++ List.replicate (2 - ds.length) 0 ∧ p.cin = codeIndex p.b0

/-- What a byte appends: packets of the cable, each a message or a part of the SysEx the byte was in. -/
def Appends (cable : UInt8) (realtime sysex : Bool) (p : Packet) : Prop :=
  p.cable = cable ∧ (p.cin = 0xf ↔ realtime = true) ∧ (Complete p ∨ 4 ≤ p.cin ∧ p.cin ≤ 7 ∧ sysex = true)

theorem appends_part (hcable : cable < 16) (hcin : 4 ≤ cin ∧ cin ≤ 7) :
    Appends cable false true (nTxPacket cable cin b0 b1 b2) := by
  have hlt : cin < 16 := UInt8.lt_of_le_of_lt hcin.2 (by decide)
  unfold Appends
  rw [cable_nTxPacket hcable hlt, cin_nTxPacket hcable hlt]
  refine ⟨rfl, ⟨fun h => absurd hcin.2 (by rw [h]; decide), nofun⟩, .inr ⟨hcin.1, hcin.2, rfl⟩⟩

theorem appends_message {realtime sysex : Bool} (ds : List UInt8) (hcable : cable < 16) (hcin : cin < 16)
    (hrealtime : cin = 0xf ↔ realtime = true) (hparams : params b0 = some ds.length) (hdata : ∀ d ∈ ds, isData d = true)
    (hbytes : [b1, b2] = ds ++ List.replicate (2 - ds.length) 0) (hcode : cin = codeIndex b0) :
    Appends cable realtime sysex (nTxPacket cable cin b0 b1 b2) := by
  unfold Appends Complete
  rw [cable_nTxPacket hcable hcin, cin_nTxPacket hcable hcin]
  exact ⟨rfl, hrealtime, .inl ⟨ds, hparams, hdata, hbytes, hcode⟩⟩

theorem nTxMessage_appends {d0 d1 : UInt8} (sysex : Bool) (hcable : cable < 16) (hn : params tx.status = some n)
    (hone : n = 1 ∧ isData d0 = true ∧ d1 = 0 ∨ n = 2 ∧ isData d0 = true ∧ isData d1 = true) :
    ∀ p ∈ (tx.nTxMessage cable (if n = 1 then 2 else 3) d0 d1).2, Appends cable false sysex p := by
  intro p hp
  have hds : ∃ ds : List UInt8, n = ds.length ∧ (∀ d ∈ ds, isData d = true) ∧
      [d0, d1] = ds ++ List.replicate (2 - ds.length) 0 := by
    rcases hone with ⟨rfl, hd0, rfl⟩ | ⟨rfl, hd0, hd1⟩
    · exact ⟨[d0], rfl, by simpa using hd0, rfl⟩
    · exact ⟨[d0, d1], rfl, by simpa using ⟨hd0, hd1⟩, rfl⟩
  obtain ⟨ds, rfl, hdata, hbytes⟩ := hds
  unfold nTxMessage at hp
  by_cases hchannel : tx.status < 0xf0
  · rw [if_pos hchannel] at hp
    obtain rfl := mem_singleton.mp hp
    obtain ⟨hcin, hne, -, -⟩ := channel_cin tx.status (params_status _ (by rw [hn]; nofun)) hchannel
    exact appends_message ds hcable hcin ⟨fun h => absurd h hne, nofun⟩ hn hdata hbytes (if_pos hchannel).symm
  · rw [if_neg hchannel] at hp
    obtain rfl := mem_singleton.mp hp
    rcases hone with ⟨hlen, -⟩ | ⟨hlen, -⟩
    · have hstatus := ((params_cases tx.status).1 (hlen ▸ hn)).resolve_left hchannel
      rw [if_pos hlen]
      refine appends_message ds hcable (by decide) ⟨fun h => absurd h (by decide), nofun⟩ hn hdata hbytes ?_
      rcases hstatus with hstatus | hstatus <;> rw [hstatus] <;> rfl
    · have hstatus := ((params_cases tx.status).2 (hlen ▸ hn)).resolve_left hchannel
      rw [if_neg (by rw [hlen]; nofun)]
      refine appends_message ds hcable (by decide) ⟨fun h => absurd h (by decide), nofun⟩ hn hdata hbytes ?_
      rw [hstatus]
      rfl

theorem nTxSysExCut_appends (hcable : cable < 16) : ∀ p ∈ tx.nTxSysExCut cable, Appends cable false (inSysex tx) p := by
  intro p hp
  unfold nTxSysExCut at hp
  unfold inSysex
  cases hs : tx.state with
  | sysex1 | sysex2 =>
    rw [hs] at hp
    obtain rfl := mem_singleton.mp hp
    exact appends_part hcable (by decide)
  | _ =>
    rw [hs] at hp
    exact absurd hp not_mem_nil

theorem nTxSysExEnd_appends (hcable : cable < 16) :
    ∀ p ∈ (tx.nTxSysExEnd cable).2, Appends cable false (inSysex tx) p := by
  intro p hp
  unfold nTxSysExEnd at hp
  unfold inSysex
  cases hs : tx.state with
  | sysex0 | sysex1 | sysex2 =>
    rw [hs] at hp
    obtain rfl := mem_singleton.mp hp
    exact appends_part hcable (by decide)
  | _ =>
    rw [hs] at hp
    exact absurd hp not_mem_nil

theorem nTxData_appends (hcable : cable < 16) (h : Waits tx) (hb : b < 0x80) :
    ∀ p ∈ (tx.nTxData cable b).2, Appends cable false (inSysex tx) p := by
  intro p hp
  have hdata : isData b = true := decide_eq_true hb
  unfold nTxData at hp
  split at hp
  · next hs => exact nTxMessage_appends _ hcable (h.one hs) (.inl ⟨rfl, hdata, rfl⟩) p hp
  · exact absurd hp not_mem_nil
  · next hs =>
    exact nTxMessage_appends _ hcable (h.two (.inr hs)) (.inr ⟨rfl, decide_eq_true (h.data hs), hdata⟩) p hp
  · exact absurd hp not_mem_nil
  · exact absurd hp not_mem_nil
  · next hs =>
    obtain rfl := mem_singleton.mp hp
    unfold inSysex
    rw [hs]
    exact appends_part hcable (by decide)
  · exact absurd hp not_mem_nil

theorem nTxByte_appends (hcable : cable < 16) (h : Waits tx) (b : UInt8) :
    ∀ p ∈ (tx.nTxByte cable b).2, Appends cable (isRealtime b) (inSysex tx) p := by
  intro p hp
  by_cases hreal : 0xf8 ≤ b
  · have hone : isRealtime b = true := decide_eq_true hreal
    rw [nTxByte_realtime hreal] at hp
    obtain rfl := mem_singleton.mp hp
    rw [hone]
    have hcode : codeIndex b = 0xf := by
      unfold codeIndex
      rw [if_neg (UInt8.not_lt.mpr (UInt8.le_trans (by decide) hreal)), if_pos hreal]
    exact appends_message [] hcable (by decide) (by decide) (realtime_params b hreal) (fun _ hd => absurd hd not_mem_nil) rfl hcode.symm
  · rw [show isRealtime b = false from decide_eq_false hreal]
    have hlt := UInt8.not_le.mp hreal
    by_cases hdata : b < 0x80
    · rw [nTxByte_data hdata] at hp
      exact nTxData_appends hcable h hdata p hp
    · by_cases hchannel : b < 0xf0
      · rw [nTxByte_channel (UInt8.not_lt.mp hdata) hchannel] at hp
        exact nTxSysExCut_appends hcable p hp
      · have hsystem := UInt8.not_lt.mp hchannel
        rw [nTxByte_system hsystem hlt] at hp
        rcases mem_append.mp hp with hp | hp
        · split at hp
          · exact absurd hp not_mem_nil
          · exact nTxSysExCut_appends hcable p hp
        · rcases system_cases b hsystem hlt with rfl | rfl | rfl | rfl | rfl | rfl | rfl | rfl
          · exact absurd hp not_mem_nil
          · exact absurd hp not_mem_nil
          · exact absurd hp not_mem_nil
          · exact absurd hp not_mem_nil
          · exact absurd hp not_mem_nil
          · exact absurd hp not_mem_nil
          · obtain rfl := mem_singleton.mp hp
            exact appends_message [] hcable (by decide) (by decide) (by decide)
              (fun _ hd => absurd hd not_mem_nil) rfl rfl
          · exact nTxSysExEnd_appends hcable p hp

section

variable (hcable : cable < 16)
include hcable

theorem nTxByte_state (h : Waits tx) (b : UInt8) :
    Waits (tx.nTxByte cable b).1 ∧ inSysex (tx.nTxByte cable b).1 =
      if !isData b && !isRealtime b then decide (b = 0xf0) else inSysex tx := by
  by_cases hreal : 0xf8 ≤ b
  · rw [nTxByte_realtime hreal, show isRealtime b = true from decide_eq_true hreal, Bool.not_true, Bool.and_false]
    exact ⟨h, rfl⟩
  · rw [show isRealtime b = false from decide_eq_false hreal]
    by_cases hdata : b < 0x80
    · obtain ⟨-, hin, hwaits⟩ := nTxData_spec [] hcable h hdata
      rw [nTxByte_data hdata, show isData b = true from decide_eq_true hdata]
      exact ⟨hwaits, hin⟩
    · obtain ⟨-, hin, hwaits⟩ := nTxByte_status tx [] hcable (UInt8.not_lt.mp hdata) (UInt8.not_le.mp hreal)
      rw [show isData b = false from decide_eq_false hdata]
      exact ⟨hwaits, hin⟩

theorem nTxBytes_waits (h : Waits tx) (bs : List UInt8) : Waits (nTxBytes cable tx bs).1 := by
  induction bs generalizing tx with
  | nil => exact h
  | cons b bs ih => exact ih (nTxByte_state hcable h b).1

theorem nTxBytes_inSysex (bs : List UInt8) :
    inSysex (nTxBytes cable freshTx bs).1 = inSysEx bs := by
  induction bs using List.reverseRecOn with
  | nil => rfl
  | append_singleton bs b ih =>
    have hwaits := nTxBytes_waits hcable waits_fresh bs
    rw [nTxBytes_append]
    show inSysex ((nTxBytes cable freshTx bs).1.nTxByte cable b).1 = _
    rw [(nTxByte_state hcable hwaits b).2, ih]
    unfold inSysEx
    rw [filter_append]
    cases hstatus : !isData b && !isRealtime b with
    | true =>
      have hlast : [b].filter (fun b => !isData b && !isRealtime b) = [b] := by simpa using hstatus
      rw [hlast, List.getLast?_append, if_pos rfl]
      simp
    | false =>
      have hlast : [b].filter (fun b => !isData b && !isRealtime b) = [] := by simpa using hstatus
      rw [hlast, append_nil, if_neg Bool.false_ne_true]

theorem nTxBytes_appends (h : Waits tx) (bs : List UInt8) :
    ∀ p ∈ (nTxBytes cable tx bs).2, p.cable = cable := by
  induction bs generalizing tx with
  | nil => exact fun p hp => absurd hp not_mem_nil
  | cons b bs ih =>
    intro p hp
    rcases mem_append.mp hp with hp | hp
    · exact (nTxByte_appends hcable h b p hp).1
    · exact ih (nTxByte_state hcable h b).1 p hp

theorem nTxBytes_filter (h : Waits tx) (bs : List UInt8) :
    nTxBytes cable tx (bs.filter (!isRealtime ·)) =
      ((nTxBytes cable tx bs).1, (nTxBytes cable tx bs).2.filter (·.cin ≠ 0xf)) := by
  induction bs generalizing tx with
  | nil => rfl
  | cons b bs ih =>
    have hwaits := (nTxByte_state hcable h b).1
    show _ = ((nTxBytes cable (tx.nTxByte cable b).1 bs).1,
      ((tx.nTxByte cable b).2 ++ (nTxBytes cable (tx.nTxByte cable b).1 bs).2).filter (·.cin ≠ 0xf))
    rw [filter_append]
    cases hreal : isRealtime b with
    | true =>
      have hle : 0xf8 ≤ b := of_decide_eq_true hreal
      rw [filter_cons_of_neg (by rw [hreal]; nofun), ih h, nTxByte_realtime hle]
      dsimp only
      rw [filter_cons_of_neg (by rw [cin_nTxPacket hcable (by decide)]; decide)]
      rfl
    | false =>
      have hall : (tx.nTxByte cable b).2.filter (·.cin ≠ 0xf) = (tx.nTxByte cable b).2 := by
        refine filter_eq_self.mpr fun p hp => decide_eq_true fun hcin => ?_
        exact absurd (((nTxByte_appends hcable h b p hp).2.1.mp hcin).symm.trans hreal) nofun
      rw [filter_cons_of_pos (by rw [hreal]; rfl), hall]
      show ((nTxBytes cable (tx.nTxByte cable b).1 (bs.filter (!isRealtime ·))).1, (tx.nTxByte cable b).2 ++
        (nTxBytes cable (tx.nTxByte cable b).1 (bs.filter (!isRealtime ·))).2) = _
      rw [ih hwaits]

end

def bytesOf (cable : UInt8) (pulls : List Pull) : List UInt8 := (pulls.filter (·.portNum = cable)).flatMap Pull.bytes

theorem bytesOf_snoc (cable : UInt8) (pulls : List Pull) (pull : Pull) :
    bytesOf cable (pulls ++ [pull]) = bytesOf cable pulls ++ if pull.portNum = cable then pull.bytes else [] := by
  unfold bytesOf
  rw [filter_append, flatMap_append]
  congr 1
  by_cases h : pull.portNum = cable
  · simp [h]
  · simp [h]

theorem pulls_spec {outCables : ℕ} (hcables : outCables ≤ 16) (pulls : List Pull) (hc : cable.toNat < outCables) :
    (pulls.foldl (nPullPort outCables) .init).tx cable = (nTxBytes cable freshTx (bytesOf cable pulls)).1 ∧
      (pulls.foldl (nPullPort outCables) .init).out.filter (·.cable = cable) =
        (nTxBytes cable freshTx (bytesOf cable pulls)).2 := by
  have hlt : ∀ c : UInt8, c.toNat < outCables → c < 16 := fun c hc =>
    UInt8.lt_iff_toNat_lt.mpr (Nat.lt_of_lt_of_le hc hcables)
  induction pulls using List.reverseRecOn generalizing cable with
  | nil => exact ⟨rfl, rfl⟩
  | append_singleton pulls pull ih =>
    obtain ⟨htx, hout⟩ := ih hc
    rw [foldl_append, bytesOf_snoc, foldl_cons, foldl_nil]
    generalize pulls.foldl (nPullPort outCables) .init = s at *
    unfold nPullPort
    by_cases hport : pull.portNum = cable
    · subst hport
      rw [if_pos hc, if_pos rfl, nTxBytes_append, htx, filter_append, hout]
      dsimp only
      refine ⟨Function.update_self .., congrArg _ (filter_eq_self.mpr fun p hp => decide_eq_true ?_)⟩
      exact nTxBytes_appends (hlt _ hc) (nTxBytes_waits (hlt _ hc) waits_fresh _) _ p hp
    · rw [if_neg hport, append_nil]
      split
      · next hother =>
        obtain ⟨htx', -⟩ := ih hother
        dsimp only
        refine ⟨(Function.update_of_ne (Ne.symm hport) ..).trans htx, ?_⟩
        rw [filter_append, hout, filter_eq_nil_iff.mpr fun p hp => ?_, append_nil]
        rw [htx'] at hp
        have hcable := nTxBytes_appends (hlt _ hother) (nTxBytes_waits (hlt _ hother) waits_fresh _) _ p hp
        simpa [hcable] using hport
      · exact ⟨htx, hout⟩

theorem nCableCount_le (jacks : Option ℕ) : nCableCount jacks ≤ 16 := by
  unfold nCableCount
  split
  · split
    · next h => exact h.2
    · decide
  · decide

structure Exact (cable : UInt8) (bs : List UInt8) (packets : List Packet) : Prop where
  own : packets = (nTxBytes cable freshTx bs).2
  /-- Running status expanded, what is incomplete or undefined dropped; the last bytes of an open SysEx wait. -/
  stream : ∃ waiting : List UInt8,
    nParseMidi cable (packets.filter (·.cin ≠ 0xf)) ++ waiting = expand (bs.filter (!isRealtime ·)) ∧
      waiting.length ≤ 2 ∧ (inSysEx bs = false → waiting = [])
  /-- A realtime byte stands where it came; the packets before and after are those without it. -/
  realtime : ∀ pre r post, bs = pre ++ r :: post → isRealtime r = true → ∃ rest,
    packets = (nTxBytes cable freshTx pre).2 ++ nTxPacket cable 0xf r 0 0 :: rest ∧
      (nTxBytes cable freshTx (pre ++ post)).2 = (nTxBytes cable freshTx pre).2 ++ rest
  /-- What a byte appends is a message or part of the SysEx it came in. -/
  messages : ∀ pre b post, bs = pre ++ b :: post → ∃ new rest,
    (nTxBytes cable freshTx (pre ++ [b])).2 = (nTxBytes cable freshTx pre).2 ++ new ∧
      packets = (nTxBytes cable freshTx pre).2 ++ new ++ rest ∧
      ∀ p ∈ new, Complete p ∨ 4 ≤ p.cin ∧ p.cin ≤ 7 ∧ inSysEx pre = true

theorem nTxBytes_exact (hcable : cable < 16) (bs : List UInt8) : Exact cable bs (nTxBytes cable freshTx bs).2 where
  own := rfl
  stream := by
    refine ⟨held (nTxBytes cable freshTx bs).1, ?_, ?_, fun hout => ?_⟩
    · have hfilter := nTxBytes_filter hcable waits_fresh bs
      have hnone : ∀ b ∈ bs.filter (!isRealtime ·), isRealtime b = false := fun b hb => by
        simpa using (mem_filter.mp hb).2
      have hspec := (nTxBytes_spec hcable waits_fresh hnone).1
      have hparse : nParseMidi cable ((nTxBytes cable freshTx bs).2.filter (·.cin ≠ 0xf)) =
          decode ((nTxBytes cable freshTx bs).2.filter (·.cin ≠ 0xf)) := by
        unfold nParseMidi decode
        refine flatMap_congr fun p hp => if_pos ?_
        exact nTxBytes_appends hcable waits_fresh bs p (mem_filter.mp hp).1
      rw [hfilter] at hspec
      rw [hparse, hspec]
      rfl
    · unfold held
      split <;> simp
    · exact held_outside ((nTxBytes_inSysex hcable bs).trans hout)
  realtime := by
    rintro pre r post rfl hr
    refine ⟨(nTxBytes cable (nTxBytes cable freshTx pre).1 post).2, ?_, by rw [nTxBytes_append]⟩
    rw [nTxBytes_append]
    show _ ++ (((nTxBytes cable freshTx pre).1.nTxByte cable r).2 ++
      (nTxBytes cable ((nTxBytes cable freshTx pre).1.nTxByte cable r).1 post).2) = _
    rw [nTxByte_realtime (of_decide_eq_true hr)]
    rfl
  messages := by
    rintro pre b post rfl
    refine ⟨((nTxBytes cable freshTx pre).1.nTxByte cable b).2,
      (nTxBytes cable ((nTxBytes cable freshTx pre).1.nTxByte cable b).1 post).2, ?_, ?_, fun p hp => ?_⟩
    · rw [nTxBytes_append]
      show _ ++ (_ ++ []) = _
      rw [append_nil]
    · rw [nTxBytes_append, append_assoc]
      rfl
    · have happends := nTxByte_appends hcable (nTxBytes_waits hcable waits_fresh pre) b p hp
      rw [nTxBytes_inSysex hcable] at happends
      exact happends.2.2

theorem midi_exact (jacks : Option ℕ) (pulls : List Pull) {cable : UInt8} (hc : cable.toNat < nCableCount jacks) :
    Exact cable (bytesOf cable pulls)
      ((pulls.foldl (nPullPort (nCableCount jacks)) .init).out.filter (·.cable = cable)) := by
  rw [(pulls_spec (nCableCount_le jacks) pulls hc).2]
  exact nTxBytes_exact (UInt8.lt_iff_toNat_lt.mpr (Nat.lt_of_lt_of_le hc (nCableCount_le jacks))) _

/-- Two ports: a note with running status around a clock byte, and a SysEx, in three pulls. -/
theorem midi_exact_two :
    Exact 0 [0x90, 0x3c, 0xf8, 0x7f, 0x3e, 0x7f]
      (([⟨0, [0x90, 0x3c]⟩, ⟨1, [0xf0, 0x01, 0xf7]⟩, ⟨0, [0xf8, 0x7f, 0x3e, 0x7f]⟩].foldl (nPullPort (nCableCount (some 2)))
        .init).out.filter (·.cable = 0)) :=
  midi_exact (some 2) [⟨0, [0x90, 0x3c]⟩, ⟨1, [0xf0, 0x01, 0xf7]⟩, ⟨0, [0xf8, 0x7f, 0x3e, 0x7f]⟩] (by decide)

end Neptune.CamdMidi
