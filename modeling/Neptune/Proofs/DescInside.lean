import Neptune.Spec.UvcDesc

/-! Every read of a descriptor is inside it, and so is every pointer that is kept, with its count. -/

namespace Neptune.Uvc

open Option

namespace Desc

variable {d : Desc} {i : ℕ}

theorem byte_some (h : i < d.len) : ∃ b, d.byte i = some b := by
  unfold byte
  rw [List.getElem?_eq_getElem h]
  exact ⟨_, rfl⟩

theorem word_some (h : i + 1 < d.len) : ∃ w, d.word i = some w := by
  obtain ⟨low, hlow⟩ := byte_some (d := d) (i := i) (by omega)
  obtain ⟨high, hhigh⟩ := byte_some h
  refine ⟨low + 256 * high, ?_⟩
  unfold word
  rw [hlow, hhigh]
  rfl

theorem long_some (h : i + 3 < d.len) : ∃ v, d.long i = some v := by
  obtain ⟨low, hlow⟩ := word_some (d := d) (i := i) (by omega)
  obtain ⟨high, hhigh⟩ := word_some (d := d) (i := i + 2) (by omega)
  refine ⟨low + 65536 * high, ?_⟩
  unfold long
  rw [hlow, hhigh]
  rfl

theorem spells_some (d : Desc) (bs : List ℕ) (h : i + bs.length ≤ d.len) : ∃ b, d.spells i bs = some b := by
  induction bs generalizing i with
  | nil => exact ⟨true, rfl⟩
  | cons b bs ih =>
    rw [List.length_cons] at h
    obtain ⟨byte, hbyte⟩ := byte_some (d := d) (i := i) (by omega)
    unfold spells
    rw [hbyte, bind_eq_bind, bind_some]
    split
    · exact ih (by omega)
    · exact ⟨false, rfl⟩

end Desc

def Ptr.Inside (p : Ptr) (d : Desc) (count : ℕ) : Prop := p.desc = d ∧ p.off + count ≤ d.len

structure UvcEntity.Inside (ue : UvcEntity) : Prop where
  sources : ∀ p, ue.sources = some p → p.Inside ue.desc ue.numSources
  controls : ∀ p, ue.controls = some p → p.Inside ue.desc ue.controlSize
  unit : ue.type = UDST_VIDEO_CTRL_EXTENSION_UNIT → 20 ≤ ue.desc.len

def CtrlDesc.Inside (d : Desc) : CtrlDesc → Prop
  | .entity ue => ue.desc = d ∧ ue.Inside
  | _ => True

variable {d : Desc}

theorem terminal_inside {ue : UvcEntity} (hdesc : ue.desc = d) (h : ue.Inside) : (Desc.terminal ue).Inside d := by
  unfold Desc.terminal
  split
  · exact ⟨hdesc, h⟩
  · trivial

section

variable (d : Desc)

theorem ctrlHeader_inside : ∃ c, d.ctrlHeader = some c ∧ c.Inside d := by
  unfold Desc.ctrlHeader
  split
  · exact ⟨_, rfl, trivial⟩
  · next hlen =>
    obtain ⟨bcdUVC, hbcd⟩ := Desc.word_some (d := d) (i := 3) (by omega)
    obtain ⟨clock, hclock⟩ := Desc.long_some (d := d) (i := 7) (by omega)
    rw [hbcd, hclock]
    exact ⟨_, rfl, trivial⟩

theorem inputTerminal_inside : ∃ c, d.inputTerminal = some c ∧ c.Inside d := by
  unfold Desc.inputTerminal
  split
  · exact ⟨_, rfl, trivial⟩
  · next hlen =>
    obtain ⟨id, hid⟩ := Desc.byte_some (d := d) (i := 3) (by omega)
    obtain ⟨termType, htype⟩ := Desc.word_some (d := d) (i := 4) (by omega)
    rw [hid, htype]
    simp only [bind_eq_bind, bind_some]
    split
    · next hcamera =>
      obtain ⟨controlSize, hsize⟩ := Desc.byte_some (d := d) (i := 14) (by omega)
      rw [hsize, bind_some]
      split
      · next hbitmap =>
        refine ⟨_, rfl, terminal_inside rfl ⟨nofun, ?_, nofun⟩⟩
        rintro _ ⟨⟩
        exact ⟨rfl, hbitmap⟩
      · exact ⟨_, rfl, terminal_inside rfl ⟨nofun, nofun, nofun⟩⟩
    · exact ⟨_, rfl, terminal_inside rfl ⟨nofun, nofun, nofun⟩⟩

theorem outputTerminal_inside : ∃ c, d.outputTerminal = some c ∧ c.Inside d := by
  unfold Desc.outputTerminal
  split
  · exact ⟨_, rfl, trivial⟩
  · next hlen =>
    obtain ⟨id, hid⟩ := Desc.byte_some (d := d) (i := 3) (by omega)
    obtain ⟨termType, htype⟩ := Desc.word_some (d := d) (i := 4) (by omega)
    rw [hid, htype]
    refine ⟨_, rfl, terminal_inside rfl ⟨?_, nofun, nofun⟩⟩
    rintro _ ⟨⟩
    exact ⟨rfl, by dsimp only; omega⟩

theorem selectorUnit_inside : ∃ c, d.selectorUnit = some c ∧ c.Inside d := by
  unfold Desc.selectorUnit
  split
  · exact ⟨_, rfl, trivial⟩
  · next hlen =>
    obtain ⟨pins, hpins⟩ := Desc.byte_some (d := d) (i := 4) (by omega)
    obtain ⟨id, hid⟩ := Desc.byte_some (d := d) (i := 3) (by omega)
    rw [hpins, hid]
    simp only [bind_eq_bind, bind_some]
    split
    · exact ⟨_, rfl, trivial⟩
    · refine ⟨_, rfl, rfl, ?_, nofun, nofun⟩
      rintro _ ⟨⟩
      exact ⟨rfl, by dsimp only; omega⟩

theorem processingUnit_inside (version : ℕ) : ∃ c, d.processingUnit version = some c ∧ c.Inside d := by
  unfold Desc.processingUnit
  split
  · exact ⟨_, rfl, trivial⟩
  · next hlen =>
    obtain ⟨controlSize, hsize⟩ := Desc.byte_some (d := d) (i := 7) (by omega)
    obtain ⟨id, hid⟩ := Desc.byte_some (d := d) (i := 3) (by omega)
    rw [hsize, hid]
    simp only [bind_eq_bind, bind_some]
    by_cases hroom : d.len < 8 + 1 + (if UVC_VERSION_11 ≤ version then 1 else 0) + controlSize
    · rw [if_pos hroom]
      exact ⟨_, rfl, trivial⟩
    · rw [if_neg hroom]
      refine ⟨_, rfl, rfl, ?_, ?_, nofun⟩
      · rintro _ ⟨⟩
        exact ⟨rfl, by dsimp only; omega⟩
      · rintro _ ⟨⟩
        exact ⟨rfl, by dsimp only; omega⟩

theorem extensionUnit_inside : ∃ c, d.extensionUnit = some c ∧ c.Inside d := by
  unfold Desc.extensionUnit
  split
  · exact ⟨_, rfl, trivial⟩
  · next hlen =>
    obtain ⟨pins, hpins⟩ := Desc.byte_some (d := d) (i := 21) (by omega)
    obtain ⟨id, hid⟩ := Desc.byte_some (d := d) (i := 3) (by omega)
    rw [hpins, hid]
    simp only [bind_eq_bind, bind_some]
    split
    · exact ⟨_, rfl, trivial⟩
    · obtain ⟨ctrlsize, hsize⟩ := Desc.byte_some (d := d) (i := 22 + pins) (by omega)
      rw [hsize, bind_some]
      split
      · exact ⟨_, rfl, trivial⟩
      · refine ⟨_, rfl, rfl, ?_, ?_, fun _ => ?_⟩
        · rintro _ ⟨⟩
          exact ⟨rfl, by dsimp only; omega⟩
        · rintro _ ⟨⟩
          exact ⟨rfl, by dsimp only; omega⟩
        · dsimp only
          omega

theorem encodingUnit_inside : ∃ c, d.encodingUnit = some c ∧ c.Inside d := by
  unfold Desc.encodingUnit
  split
  · exact ⟨_, rfl, trivial⟩
  · next hlen =>
    obtain ⟨controlSize, hsize⟩ := Desc.byte_some (d := d) (i := 6) (by omega)
    obtain ⟨id, hid⟩ := Desc.byte_some (d := d) (i := 3) (by omega)
    rw [hsize, hid]
    simp only [bind_eq_bind, bind_some]
    split
    · exact ⟨_, rfl, trivial⟩
    · refine ⟨_, rfl, rfl, ?_, ?_, nofun⟩
      · rintro _ ⟨⟩
        exact ⟨rfl, by dsimp only; omega⟩
      · rintro _ ⟨⟩
        exact ⟨rfl, by dsimp only; omega⟩

theorem ctrlDesc_inside (version : ℕ) : ∃ c, d.ctrlDesc version = some c ∧ c.Inside d := by
  unfold Desc.ctrlDesc
  split
  · exact ⟨_, rfl, trivial⟩
  · next hlen =>
    obtain ⟨subtype, hsub⟩ := Desc.byte_some (d := d) (i := 2) (by omega)
    rw [hsub, bind_eq_bind, bind_some]
    split
    · exact ctrlHeader_inside d
    · exact inputTerminal_inside d
    · exact outputTerminal_inside d
    · exact selectorUnit_inside d
    · exact processingUnit_inside d version
    · exact extensionUnit_inside d
    · exact encodingUnit_inside d
    · exact ⟨_, rfl, trivial⟩

end

theorem row_layout : ∀ up ∈ uvcPayloads,
    (up.formatType ≠ 0 → up.defFrame < up.formatSize) ∧ (up.guid ≠ 0 → up.guid + 17 ≤ up.formatSize) ∧
      (up.frameType ≠ 0 → 3 < up.frameSize ∧ up.intervalType < up.frameSize ∧ up.width + 2 ≤ up.frameSize ∧
        up.height + 2 ≤ up.frameSize ∧ up.defInterval + 4 ≤ up.frameSize) := by decide

theorem formatTypes_pos : ∀ subtype ∈ uvcFormatTypes, subtype ≠ 0 := by decide

structure UvcPayload.FitsFormat (up : UvcPayload) (d : Desc) : Prop where
  size : up.formatSize ≤ d.len
  defFrame : up.formatType ≠ 0 → up.defFrame < d.len
  guid : up.guid ≠ 0 → up.guid + 17 ≤ d.len

theorem UvcPayload.FitsFormat.of_mem {up : UvcPayload} (hup : up ∈ uvcPayloads) (h : up.formatSize ≤ d.len) :
    up.FitsFormat d := by
  obtain ⟨hdef, hguid, -⟩ := row_layout up hup
  exact ⟨h, fun h' => (hdef h').trans_le h, fun h' => (hguid h').trans h⟩

theorem uvcFindPayloadIn_inside (subtype : ℕ) (d : Desc) {rows : List UvcPayload} (hrows : ∀ up ∈ rows, up ∈ uvcPayloads) :
    ∃ found, uvcFindPayloadIn subtype d rows = some found ∧
      ∀ up, found = some up → up ∈ uvcPayloads ∧ up.formatType = subtype ∧ up.FitsFormat d := by
  induction rows with
  | nil => exact ⟨none, rfl, nofun⟩
  | cons up rows ih =>
    have hup := hrows up List.mem_cons_self
    have hrest := ih fun up h => hrows up (List.mem_cons_of_mem _ h)
    unfold uvcFindPayloadIn
    split
    · next hfits =>
      have hinside := UvcPayload.FitsFormat.of_mem hup hfits.2
      have hthis : ∀ up', some up = some up' → up' ∈ uvcPayloads ∧ up'.formatType = subtype ∧ up'.FitsFormat d := by
        rintro _ ⟨⟩
        exact ⟨hup, hfits.1, hinside⟩
      split
      · exact ⟨some up, rfl, hthis⟩
      · next hguid =>
        have hlen := hinside.guid hguid
        obtain ⟨b, hb⟩ := Desc.spells_some (i := up.guid + 4) d uvcFourCCGuid (by
          rw [show uvcFourCCGuid.length = 12 from rfl]
          omega)
        rw [uvcIsFourCCGuid, hb, bind_eq_bind, bind_some]
        split
        · exact ⟨some up, rfl, hthis⟩
        · exact hrest
    · exact hrest

theorem uvcFindPayload_inside (subtype : ℕ) (d : Desc) :
    ∃ found, uvcFindPayload subtype d = some found ∧
      ∀ up, found = some up → up ∈ uvcPayloads ∧ up.formatType = subtype ∧ up.FitsFormat d :=
  uvcFindPayloadIn_inside subtype d fun _ h => h

theorem uvcFormatOf_inside {subtype : ℕ} (hsub : subtype ∈ uvcFormatTypes) (d : Desc) (frames : ℕ) :
    ∃ ufo, uvcFormatOf subtype d frames = some ufo ∧ ufo.desc = d ∧ ufo.frames = frames ∧ ufo.numFrames = 0 ∧
      uvcFindPayload subtype d = some ufo.payload ∧
        ∀ up, ufo.payload = some up → up ∈ uvcPayloads ∧ up.FitsFormat d := by
  obtain ⟨found, hfound, hrow⟩ := uvcFindPayload_inside subtype d
  obtain ⟨defFrame, hdef⟩ : ∃ n, ∀ index,
      (found.elim (some 0) fun up => d.byte up.defFrame).bind
        (fun defFrame => some (⟨index, subtype, 0, defFrame, found, frames, d⟩ : UvcFormat)) =
      some ⟨index, subtype, 0, n, found, frames, d⟩ := by
    cases found with
    | none => exact ⟨0, fun _ => rfl⟩
    | some up =>
      obtain ⟨-, htype, hfits⟩ := hrow up rfl
      obtain ⟨n, hn⟩ := Desc.byte_some (hfits.defFrame (htype ▸ formatTypes_pos subtype hsub))
      exact ⟨n, fun _ => by simp only [Option.elim_some, hn, bind_some]⟩
  have hof : ∃ index, uvcFormatOf subtype d frames = some ⟨index, subtype, 0, defFrame, found, frames, d⟩ := by
    unfold uvcFormatOf
    simp only [hfound, bind_eq_bind, bind_some]
    split
    · next h =>
      obtain ⟨index, hindex⟩ := Desc.byte_some h
      refine ⟨index, ?_⟩
      rw [hindex, ← hdef index]
      cases found <;> rfl
    · refine ⟨0, ?_⟩
      rw [← hdef 0]
      cases found <;> rfl
  obtain ⟨index, hof⟩ := hof
  exact ⟨_, hof, rfl, rfl, rfl, hfound, fun up h => ⟨(hrow up h).1, (hrow up h).2.2⟩⟩

def validFrame (up : UvcPayload) (d : Desc) : Bool :=
  decide (up.frameSize ≤ d.len) &&
    (d.byte up.intervalType).any fun n => up.intervals + 4 * (if n ≠ 0 then n else 3) ≤ d.len

/-- The record says what is in the descriptor, and its intervals are inside. -/
structure UvcFrame.Reads (ufr : UvcFrame) (up : UvcPayload) (d : Desc) : Prop where
  index : d.byte 3 = some ufr.index
  numIntervals : d.byte up.intervalType = some ufr.numIntervals
  width : d.word up.width = some ufr.width
  height : d.word up.height = some ufr.height
  intervals : ufr.intervals = ⟨d, up.intervals⟩
  inside : up.intervals + 4 * (if ufr.numIntervals ≠ 0 then ufr.numIntervals else 3) ≤ d.len

theorem uvcFrameInterval_inside (ufr : UvcFrame) (idx : ℕ) (h : ufr.intervals.off + 4 * idx + 4 ≤ ufr.intervals.desc.len) :
    ∃ n, uvcFrameInterval ufr idx = some n := by
  obtain ⟨interval, hinterval⟩ := Desc.long_some (d := ufr.intervals.desc) (i := ufr.intervals.off + 4 * idx) (by omega)
  unfold uvcFrameInterval
  rw [hinterval]
  exact ⟨_, rfl⟩

theorem uvcFrameOf_inside {up : UvcPayload} (hup : up ∈ uvcPayloads) (hframe : up.frameType ≠ 0) (d : Desc) :
    (validFrame up d = false ∧ uvcFrameOf up d = some none) ∨
      validFrame up d = true ∧ ∃ ufr, uvcFrameOf up d = some (some ufr) ∧ ufr.Reads up d := by
  obtain ⟨hidx, htype, hwidth, hheight, hdef⟩ := (row_layout up hup).2.2 hframe
  unfold uvcFrameOf validFrame
  by_cases hlen : d.len < up.frameSize
  · rw [if_pos hlen, decide_eq_false (by omega)]
    exact .inl ⟨rfl, rfl⟩
  · rw [if_neg hlen]
    obtain ⟨n, hn⟩ := Desc.byte_some (d := d) (i := up.intervalType) (by omega)
    rw [hn, bind_eq_bind, bind_some]
    by_cases hroom : d.len < up.intervals + 4 * (if n ≠ 0 then n else 3)
    · rw [if_pos hroom, any_some, decide_eq_false (not_le.mpr hroom), Bool.and_false]
      exact .inl ⟨rfl, rfl⟩
    · rw [if_neg hroom, any_some, decide_eq_true (not_lt.mp hlen), decide_eq_true (not_lt.mp hroom)]
      refine .inr ⟨rfl, ?_⟩
      obtain ⟨index, hindex⟩ := Desc.byte_some (d := d) (i := 3) (by omega)
      obtain ⟨width, hwidth⟩ := Desc.word_some (d := d) (i := up.width) (by omega)
      obtain ⟨height, hheight⟩ := Desc.word_some (d := d) (i := up.height) (by omega)
      obtain ⟨interval, hinterval⟩ := Desc.long_some (d := d) (i := up.defInterval) (by omega)
      obtain ⟨shortest, hshortest⟩ :=
        uvcFrameInterval_inside ⟨index, n, width, height, 0, ⟨d, up.intervals⟩⟩ 0 (by
          dsimp only
          split at hroom <;> omega)
      obtain ⟨longest, hlongest⟩ :=
        uvcFrameInterval_inside ⟨index, n, width, height, 0, ⟨d, up.intervals⟩⟩
          (if n ≠ 0 then n - 1 else 1) (by
          dsimp only
          split at hroom
          · next hn0 =>
            rw [if_pos hn0]
            omega
          · next hn0 =>
            rw [if_neg hn0]
            omega)
      refine ⟨⟨index, n, width, height, min (max interval shortest) longest, ⟨d, up.intervals⟩⟩, ?_, ?_⟩
      · simp only [hindex, hwidth, hheight, hinterval, uvcFrameMinInterval, uvcFrameMaxInterval, hshortest, hlongest,
          bind_some]
      · exact ⟨hindex, hn, hwidth, hheight, rfl, by dsimp only; omega⟩

end Neptune.Uvc
