import Neptune.Spec.ModeXlate

/-! When the translation of a six-byte command preserves its meaning. -/

namespace Neptune.ModeXlate

variable {ncm : NepClassMS} {mem : Bool} {c : Cdb6} {length : UInt32} {data : ℕ → UInt8} {answer : Answer}

theorem length10_bytes (b : UInt8) : (lengthHigh b).toNat * 2 ^ 8 + (lengthLow b).toNat = b.toNat + 4 := by
  have hlt := b.toNat_lt
  rw [lengthHigh, lengthLow, UInt8.toNat_ofNat', UInt8.toNat_ofNat']
  omega

theorem op10_spec (kind : Kind) : kind.op10 ≠ SCSI_REQUEST_SENSE ∧ kind.op10 ≠ SCSI_INQUIRY ∧
    (kind.op10 = SCSI_MODE_SELECT_10 ↔ kind = .modeSelect) ∧ (kind.op10 = SCSI_MODE_SENSE_10 ↔ kind = .modeSense) := by
  cases kind <;> decide

variable {x : Xlated}

theorem packet_command (csType : CSType) {kind : Kind} {i : ℕ} (hop : x.scsicmd10.command 0 = kind.op10)
    (hi : csType = .ufi → kind = .modeSelect → i ≠ 7 ∧ i ≠ 8) :
    (packet csType x).scsicmd10.command i = x.scsicmd10.command i := by
  obtain ⟨hsense, hinquiry, hselect, -⟩ := op10_spec kind
  unfold packet
  split
  · rfl
  · dsimp only
    split
    · next hufi =>
      rw [hop, if_neg fun h => hsense h.1, if_neg fun h => hinquiry h.1,
        if_neg fun h => (hi hufi (hselect.mp h.1)).1 h.2, if_neg fun h => (hi hufi (hselect.mp h.1)).2 h.2]
    · rfl

theorem packet_select (hop : x.scsicmd10.command 0 = SCSI_MODE_SELECT_10) :
    (packet .ufi x).scsicmd10.command 7 = 0 ∧ (packet .ufi x).scsicmd10.command 8 = 8 := by
  have hsense : SCSI_MODE_SELECT_10 ≠ SCSI_REQUEST_SENSE := by decide
  have hinquiry : SCSI_MODE_SELECT_10 ≠ SCSI_INQUIRY := by decide
  unfold packet
  rw [if_neg (by decide)]
  simp [hop, hsense, hinquiry]

theorem packet_rest (csType : CSType) (x : Xlated) : (packet csType x).scsicmd = x.scsicmd ∧
    (packet csType x).sensedata = x.sensedata ∧ (packet csType x).moved = x.moved ∧
    (packet csType x).scsicmd10.length = x.scsicmd10.length ∧ (packet csType x).scsicmd10.data = x.scsicmd10.data := by
  unfold packet
  split <;> exact ⟨rfl, rfl, rfl, rfl, rfl⟩

theorem preserved_iff (hon : ncm.translates 6 = true) (haccepted : ncm.accepts c.kind.op6 = true) :
    Preserved ncm mem c length data answer ↔
      let x := packet ncm.csType (xlate mem (c.request length data))
      Preserves ncm c length data answer x.scsicmd10 (xlateBack x (transfer answer x.scsicmd10)) := by
  have hrun : nScsiDirectInner ncm mem answer (c.request length data) =
      some ((packet ncm.csType (xlate mem (c.request length data))).scsicmd10,
        xlateBack (packet ncm.csType (xlate mem (c.request length data)))
          (transfer answer (packet ncm.csType (xlate mem (c.request length data))).scsicmd10)) := by
    have hop : ncm.accepts ((c.request length data).command 0) = true := haccepted
    have hlength : ncm.translates (c.request length data).cmdLength = true := hon
    dsimp only [nScsiDirectInner]
    rw [if_pos hop, if_pos hlength]
    rfl
  unfold Preserved
  rw [hrun]
  exact ⟨fun h => h _ _ rfl, fun h sent scsicmd hsent => by cases hsent; exact h⟩

theorem low_bits (b : UInt8) : (b &&& 0x1f).toNat = b.toNat % 2 ^ 5 := by
  exact Nat.and_two_pow_sub_one_eq_mod b.toNat 5

theorem blocks_sent (mem : Bool) (length : UInt32) (data : ℕ → UInt8) (csType : CSType)
    (hkind : c.kind = .read ∨ c.kind = .write ∨ c.kind = .seek) :
    let sent := (packet csType (xlate mem (c.request length data))).scsicmd10
    sent.command 0 = c.kind.op10 ∧ block10 sent.command = c.block ∧ length10 sent.command = c.b4.toNat ∧
      sent.length = length := by
  have hxlate : xlate mem (c.request length data) = xlateBlocks (c.request length data) := by
    obtain ⟨kind, b1, b2, b3, b4, b5⟩ := c
    rcases hkind with h | h | h <;> cases h <;> rfl
  have hzero : (xlateBlocks (c.request length data)).scsicmd10.command 0 = c.kind.op10 := by
    change c.kind.op6 ||| 0x20 = c.kind.op10
    rcases hkind with h | h | h <;> rw [h] <;> decide
  have hcommand : ∀ i, (packet csType (xlateBlocks (c.request length data))).scsicmd10.command i =
      (xlateBlocks (c.request length data)).scsicmd10.command i := fun i =>
    packet_command csType hzero fun _ hselect => by rw [hselect] at hkind; simp at hkind
  dsimp only
  rw [hxlate]
  refine ⟨(hcommand 0).trans hzero, ?_, ?_, (packet_rest csType _).2.2.2.1⟩
  · unfold block10
    rw [hcommand, hcommand, hcommand, hcommand]
    change (0 : UInt8).toNat * 2 ^ 24 + (c.b1 &&& 0x1f).toNat * 2 ^ 16 + c.b2.toNat * 2 ^ 8 + c.b3.toNat = c.block
    rw [low_bits, Cdb6.block, UInt8.toNat_zero, Nat.zero_mul, Nat.zero_add]
  · unfold length10
    rw [hcommand, hcommand]
    change (0 : UInt8).toNat * 2 ^ 8 + c.b4.toNat = c.b4.toNat
    rw [UInt8.toNat_zero, Nat.zero_mul, Nat.zero_add]

theorem blocks_iff (hkind : c.kind = .read ∨ c.kind = .write ∨ c.kind = .seek)
    (hx : x = packet ncm.csType (xlate mem (c.request length data))) (scsicmd : SCSICmd) :
    Preserves ncm c length data answer x.scsicmd10 scsicmd ↔ Translatable ncm mem c length answer := by
  obtain ⟨hop, hblock, hlength, hsame⟩ := blocks_sent mem length data ncm.csType hkind
  rw [← hx] at *
  unfold Preserves Translatable
  rw [and_iff_right hop]
  have hblocks : c.b4.toNat = c.blocks ↔ c.b4 ≠ 0 := by
    unfold Cdb6.blocks
    split
    · next h => simp [h]
    · next h => exact iff_of_true rfl h
  rcases hkind with h | h | h <;> rw [h] <;> dsimp only
  · rw [hlength, hsame, and_iff_right hblock, hblocks]
  · rw [hlength, hsame, and_iff_right hblock, hblocks]
  · rw [hsame, and_iff_right hblock]

theorem select_sent (mem : Bool) (length : UInt32) (data : ℕ → UInt8) (csType : CSType)
    (hkind : c.kind = .modeSelect) :
    let sent := (packet csType (xlate mem (c.request length data))).scsicmd10
    sent.command 0 = c.kind.op10 ∧
      length10 sent.command = (if csType = .ufi then 8 else c.b4.toNat + 4) ∧
      sent.length = (xlateSelect mem (c.request length data)).scsicmd10.length ∧
      sent.data = (xlateSelect mem (c.request length data)).scsicmd10.data := by
  have hxlate : xlate mem (c.request length data) = xlateSelect mem (c.request length data) := by
    obtain ⟨kind, b1, b2, b3, b4, b5⟩ := c
    cases hkind
    rfl
  have hcdb : (xlateSelect mem (c.request length data)).scsicmd10.command =
      cdb SCSI_MODE_SELECT_10 c.b1 0 0 0 0 0 (lengthHigh c.b4) (lengthLow c.b4) c.b5 := by
    unfold xlateSelect
    split <;> rfl
  have hzero : (xlateSelect mem (c.request length data)).scsicmd10.command 0 = c.kind.op10 := by
    rw [hcdb, hkind]
    rfl
  dsimp only
  rw [hxlate]
  refine ⟨(packet_command csType hzero fun _ _ => ⟨by decide, by decide⟩).trans hzero, ?_,
    (packet_rest csType _).2.2.2.1, (packet_rest csType _).2.2.2.2⟩
  unfold length10
  by_cases hufi : csType = .ufi
  · obtain ⟨hseven, height⟩ := packet_select (x := xlateSelect mem (c.request length data)) (by rw [hcdb]; rfl)
    rw [if_pos hufi, hufi, hseven, height]
    rfl
  · rw [if_neg hufi, packet_command csType hzero fun h => absurd h hufi,
      packet_command csType hzero fun h => absurd h hufi, hcdb]
    exact length10_bytes c.b4

theorem relist_eq (data : ℕ → UInt8) {n i : ℕ} (hi : i < n + 4) :
    (if i = 1 then data 0 else if i = 2 then data 1 else if i = 3 then data 2 else if i = 7 then data 3
      else if 8 ≤ i ∧ i < n + 4 then data (i - 4) else 0) = relist data i :=
  match i, hi with
  | 0, _ => by simp [relist]
  | 1, _ => rfl
  | 2, _ => rfl
  | 3, _ => rfl
  | 4, _ => by simp [relist]
  | 5, _ => by simp [relist]
  | 6, _ => by simp [relist]
  | 7, _ => rfl
  | i + 8, hi => by
    rw [if_neg (by omega), if_neg (by omega), if_neg (by omega), if_neg (by omega), if_pos ⟨Nat.le_add_left .., hi⟩]
    rfl

theorem select_iff (hkind : c.kind = .modeSelect)
    (hx : x = packet ncm.csType (xlate mem (c.request length data))) (scsicmd : SCSICmd) :
    Preserves ncm c length data answer x.scsicmd10 scsicmd ↔ Translatable ncm mem c length answer := by
  obtain ⟨hop, hannounced, hlength, hdata⟩ := select_sent mem length data ncm.csType hkind
  rw [← hx] at *
  unfold Preserves Translatable
  rw [and_iff_right hop, hkind]
  rw [hannounced, hlength, hdata]
  by_cases hmoved : mem = true ∧ 4 ≤ length
  · have hle : 4 ≤ length.toNat := UInt32.le_iff_toNat_le.mp hmoved.2
    have hselect : xlateSelect mem (c.request length data) = _ := if_pos hmoved
    rw [hselect]
    have hsum : (length + 4).toNat = (length.toNat + 4) % 2 ^ 32 := UInt32.toNat_add length 4
    rw [and_iff_right hmoved.1, and_iff_right hle]
    have hcount : (if ncm.csType = .ufi then 8 else c.b4.toNat + 4) =
        (if ncm.csType = .ufi then 4 else c.b4.toNat) + 4 := by
      split <;> rfl
    have hsmall : (if ncm.csType = .ufi then 4 else c.b4.toNat) ≤ 255 := by
      have := c.b4.toNat_lt
      split <;> omega
    rw [hcount]
    generalize (if ncm.csType = .ufi then 4 else c.b4.toNat) = count at hsmall ⊢
    change (length + 4).toNat = _ ∧ (length + 4).toNat = length.toNat + 4 ∧ (∀ i < (length + 4).toNat, _) ↔ _
    constructor
    · rintro ⟨hannounce, hfour, -⟩
      omega
    · intro h
      exact ⟨by omega, by omega, fun i hi => relist_eq data (by omega : i < length.toNat + 4)⟩
  · have hselect : xlateSelect mem (c.request length data) = _ := if_neg hmoved
    rw [hselect]
    refine iff_of_false ?_ ?_
    · rintro ⟨-, hfour, -⟩
      change length.toNat = _ at hfour
      omega
    · rintro ⟨hmem, hle, -⟩
      exact hmoved ⟨hmem, UInt32.le_iff_toNat_le.mpr hle⟩

def Trimmed (c : Cdb6) (length : UInt32) : Prop := 251 < c.b4 ∧ length.toNat = c.b4.toNat

instance : Decidable (Trimmed c length) := inferInstanceAs (Decidable (_ ∧ _))

def asked (c : Cdb6) (length : UInt32) : UInt8 := if Trimmed c length then c.b4 - 4 else c.b4

def room (c : Cdb6) (length : UInt32) : UInt32 := if Trimmed c length then length - 4 else length

theorem xlateSense_spec (mem : Bool) (c : Cdb6) (length : UInt32) (data : ℕ → UInt8) :
    let x := xlateSense mem (c.request length data)
    x.scsicmd10.command = cdb SCSI_MODE_SENSE_10 (c.b1 &&& 0xf7) c.b2 c.b3 0 0 0 (lengthHigh (asked c length))
      (lengthLow (asked c length)) c.b5 ∧
    x.scsicmd10.length = (if mem then room c length + 4 else room c length) ∧
    x.scsicmd10.data = (if mem then fun _ => 0 else data) ∧
    x.scsicmd.length = room c length ∧ x.scsicmd.data = data ∧ x.sensedata = mem ∧ x.moved = mem := by
  unfold asked room
  have htrim : (251 < (c.request length data).command 4 ∧
      (c.request length data).length.toNat = ((c.request length data).command 4).toNat) ↔ Trimmed c length := Iff.rfl
  dsimp only [xlateSense]
  by_cases h : Trimmed c length
  · rw [if_pos (htrim.mpr h), if_pos h, if_pos h]
    cases mem <;> exact ⟨rfl, rfl, rfl, rfl, rfl, rfl, rfl⟩
  · rw [if_neg (mt htrim.mp h), if_neg h, if_neg h]
    cases mem <;> exact ⟨rfl, rfl, rfl, rfl, rfl, rfl, rfl⟩

theorem transfer_actual (answer : Answer) (scsicmd : SCSICmd) :
    (transfer answer scsicmd).actual.toNat = min answer.bytes.length scsicmd.length.toNat := by
  have hlt := scsicmd.length.toNat_lt
  unfold transfer
  dsimp only
  rw [UInt32.toNat_ofNat', Nat.mod_eq_of_lt (by omega)]

theorem sized_iff (mem : Bool) (c : Cdb6) (length : UInt32) :
    (if mem then room c length + 4 else room c length).toNat = (asked c length).toNat + 4 ↔
      length.toNat = if mem then c.b4.toNat else c.b4.toNat + 4 := by
  have hbyte := c.b4.toNat_lt
  have hlt := length.toNat_lt
  have hadd : ∀ n : UInt32, (n + 4).toNat = (n.toNat + 4) % 2 ^ 32 := fun n => UInt32.toNat_add n 4
  unfold room asked
  by_cases h : Trimmed c length
  · have hlarge : 251 < c.b4.toNat := UInt8.lt_iff_toNat_lt.mp h.1
    have heq := h.2
    have hb : (c.b4 - 4).toNat = c.b4.toNat - 4 := UInt8.toNat_sub_of_le _ _ (UInt8.le_iff_toNat_le.mpr (by
      change 4 ≤ c.b4.toNat
      omega))
    have hl : (length - 4).toNat = length.toNat - 4 := UInt32.toNat_sub_of_le _ _ (UInt32.le_iff_toNat_le.mpr (by
      change 4 ≤ length.toNat
      omega))
    rw [if_pos h, if_pos h, hb]
    cases mem with
    | true =>
      rw [if_pos rfl, if_pos rfl, hadd, hl]
      omega
    | false =>
      rw [if_neg Bool.false_ne_true, if_neg Bool.false_ne_true, hl]
      omega
  · rw [if_neg h, if_neg h]
    cases mem with
    | true =>
      rw [if_pos rfl, if_pos rfl, hadd]
      omega
    | false => rw [if_neg Bool.false_ne_true, if_neg Bool.false_ne_true]

theorem asked_ge (c : Cdb6) (length : UInt32) : 4 ≤ (asked c length).toNat ↔ 4 ≤ c.b4.toNat := by
  unfold asked
  split
  · next h =>
    have hlarge : 251 < c.b4.toNat := UInt8.lt_iff_toNat_lt.mp h.1
    have hb : (c.b4 - 4).toNat = c.b4.toNat - 4 := UInt8.toNat_sub_of_le _ _ (UInt8.le_iff_toNat_le.mpr (by
      change 4 ≤ c.b4.toNat
      omega))
    omega
  · exact Iff.rfl

/-- What comes back in the caller's `n` bytes: without the header of the six-byte command. -/
structure Back (answer : Answer) (data : ℕ → UInt8) (x : Xlated) (y : SCSICmd) (n : UInt32) : Prop where
  length : y.length = n
  frame : ∀ i ≥ n.toNat, y.data i = data i
  never : 8 ≤ min answer.bytes.length x.scsicmd10.length.toNat →
    ¬Reheaded (fun i => answer.bytes.getD i 0) (min answer.bytes.length x.scsicmd10.length.toNat) y

theorem back_moved (hsensedata : x.sensedata = true) (hmoved : x.moved = true)
    (hop : (transfer answer x.scsicmd10).command 0 = SCSI_MODE_SENSE_10) {n : UInt32} (hroom : x.scsicmd.length = n)
    (hdata : x.scsicmd.data = data) (hlength : x.scsicmd10.length = n + 4) :
    Back answer data x (xlateBack x (transfer answer x.scsicmd10)) n := by
  have hactual := transfer_actual answer x.scsicmd10
  have hlt := n.toNat_lt
  have hsum : x.scsicmd10.length.toNat = (n.toNat + 4) % 2 ^ 32 := by rw [hlength]; exact UInt32.toNat_add n 4
  have height : 8 ≤ (transfer answer x.scsicmd10).actual ↔ 8 ≤ min answer.bytes.length x.scsicmd10.length.toNat := by
    rw [UInt32.le_iff_toNat_le, hactual]
    exact Iff.rfl
  unfold xlateBack
  rw [if_pos hsensedata, hmoved]
  dsimp only
  by_cases hlong : 8 ≤ (transfer answer x.scsicmd10).actual
  · rw [if_pos ⟨hop, hlong⟩]
    refine ⟨hroom, fun i hi => ?_, fun h hreheaded => ?_⟩
    · rw [height] at hlong
      dsimp only
      rw [if_neg (by omega), if_neg (by omega), if_neg (by omega), if_neg (by omega), if_neg (by omega), if_pos rfl,
        hdata]
    · have hbyte : (transfer answer x.scsicmd10).data 1 = answer.bytes.getD 1 0 := if_pos (by omega)
      have hcount := hreheaded.dataLength
      dsimp only at hcount
      rw [if_pos rfl, hbyte] at hcount
      omega
  · rw [if_neg fun h => hlong h.2]
    refine ⟨hroom, fun i _ => ?_, fun h => absurd (height.mpr h) hlong⟩
    dsimp only
    rw [if_pos rfl, hdata]

theorem back_in_place (hsensedata : x.sensedata = false) (hmoved : x.moved = false) {n : UInt32}
    (hroom : x.scsicmd.length = n) (hlength : x.scsicmd10.length = n) (hdata : x.scsicmd10.data = data) :
    Back answer data x (xlateBack x (transfer answer x.scsicmd10)) n := by
  have hactual := transfer_actual answer x.scsicmd10
  unfold xlateBack
  rw [if_neg (by rw [hsensedata]; decide), hmoved]
  refine ⟨hroom, fun i hi => ?_, fun h hreheaded => ?_⟩
  · change (if i < min answer.bytes.length x.scsicmd10.length.toNat then _ else x.scsicmd10.data i) = data i
    rw [hlength, if_neg (by omega), hdata]
  · have hcount := hreheaded.actual
    dsimp only at hcount
    omega

theorem sense_iff (hkind : c.kind = .modeSense)
    (hx : x = packet ncm.csType (xlate mem (c.request length data))) :
    Preserves ncm c length data answer x.scsicmd10 (xlateBack x (transfer answer x.scsicmd10)) ↔
      Translatable ncm mem c length answer := by
  have hxlate : xlate mem (c.request length data) = xlateSense mem (c.request length data) := by
    obtain ⟨kind, b1, b2, b3, b4, b5⟩ := c
    cases hkind
    rfl
  obtain ⟨hcdb, hlength, hdata, hroom, hcaller, hsensedata, hmoved⟩ := xlateSense_spec mem c length data
  have hzero : (xlateSense mem (c.request length data)).scsicmd10.command 0 = c.kind.op10 := by
    rw [hcdb, hkind]
    rfl
  have hcommand : ∀ i, x.scsicmd10.command i = cdb SCSI_MODE_SENSE_10 (c.b1 &&& 0xf7) c.b2 c.b3 0 0 0
      (lengthHigh (asked c length)) (lengthLow (asked c length)) c.b5 i := by
    intro i
    have hnot : c.kind ≠ .modeSelect := by rw [hkind]; decide
    rw [hx, hxlate, packet_command ncm.csType hzero fun _ h => absurd h hnot, hcdb]
  obtain ⟨hrest, hrest', hrest'', hlength', hdata'⟩ := packet_rest ncm.csType (xlateSense mem (c.request length data))
  rw [← hxlate, ← hx, hxlate] at hrest hrest' hrest'' hlength' hdata'
  rw [hlength] at hlength'
  rw [hdata] at hdata'
  have hannounced : length10 x.scsicmd10.command = (asked c length).toNat + 4 := by
    unfold length10
    rw [hcommand, hcommand]
    exact length10_bytes _
  have hop : (transfer answer x.scsicmd10).command 0 = SCSI_MODE_SENSE_10 := hcommand 0
  rw [← hrest] at hroom hcaller
  obtain ⟨hroom', hframe, hnever⟩ :
      Back answer data x (xlateBack x (transfer answer x.scsicmd10)) (room c length) := by
    cases mem with
    | true => exact back_moved hrest' hrest'' hop hroom hcaller hlength'
    | false => exact back_in_place hrest' hrest'' hroom hlength' hdata'
  have hsized := sized_iff mem c length
  rw [← hlength'] at hsized
  unfold Preserves Translatable
  rw [and_iff_right ((hcommand 0).trans (by rw [hkind]; rfl)), hkind]
  have hpage : x.scsicmd10.command 2 = c.b2 := hcommand 2
  have hsubpage : x.scsicmd10.command 3 = c.b3 := hcommand 3
  rw [and_iff_right hpage, and_iff_right hsubpage, hannounced, hroom', and_iff_left hframe, hsized]
  refine and_congr_right fun hlen => ?_
  have height : 8 ≤ min answer.bytes.length x.scsicmd10.length.toNat ↔ 8 ≤ answer.bytes.length ∧ 4 ≤ c.b4.toNat := by
    rw [← asked_ge c length, hsized.mpr hlen]
    omega
  rw [← height]
  exact ⟨fun h hanswered => hnever hanswered.2 (h hanswered.1 hanswered.2), fun h hres hlong => absurd ⟨hres, hlong⟩ h⟩

/-- The meaning of a six-byte command is preserved when a block count is not 0, a parameter list has a header and comes
from where there is memory for another, and there is no answer to `MODE SENSE`, all with as much data as the command is
for. -/
theorem translation_iff (ncm : NepClassMS) (mem : Bool) (c : Cdb6) (length : UInt32) (data : ℕ → UInt8)
    (answer : Answer) (hon : ncm.translates 6 = true) (haccepted : ncm.accepts c.kind.op6 = true) :
    Preserved ncm mem c length data answer ↔ Translatable ncm mem c length answer := by
  rw [preserved_iff hon haccepted]
  cases hkind : c.kind with
  | read => exact blocks_iff (.inl hkind) rfl _
  | write => exact blocks_iff (.inr (.inl hkind)) rfl _
  | seek => exact blocks_iff (.inr (.inr hkind)) rfl _
  | modeSelect => exact select_iff hkind rfl _
  | modeSense => exact sense_iff hkind rfl

def unit : NepClassMS := ⟨.scsi, true, false, 512⟩

theorem translation_iff_block : Preserved unit true ⟨.read, 0, 0, 5, 1, 0⟩ 512 (fun _ => 0) ⟨0, []⟩ :=
  (translation_iff unit true ⟨.read, 0, 0, 5, 1, 0⟩ 512 _ _ rfl rfl).mpr ⟨by decide, by decide⟩

/-- A read of 256 blocks becomes one of none. -/
theorem blocks_lost : ¬Preserved unit true ⟨.read, 0, 0, 5, 0, 0⟩ 131072 (fun _ => 0) ⟨0, []⟩ := by
  intro h
  have htranslatable := (translation_iff unit true ⟨.read, 0, 0, 5, 0, 0⟩ 131072 _ _ rfl rfl).mp h
  exact htranslatable.1 rfl

end Neptune.ModeXlate
