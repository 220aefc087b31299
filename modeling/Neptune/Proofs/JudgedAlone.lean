import Neptune.Proofs.HidLayout

/-! A report is judged by the bytes that came with it, if all that is read came with it. -/

namespace Neptune.Hid

open List Option

open BitField
open NepHidItem

variable {nhi : NepHidItem} {buf buf' : Buf} {items : List NepHidItem} {reports : List InReport}
  {nch : NepClassHid} {c : Completion} {cs : List Completion} {n i isize ioffset len : ℕ} {signed : Bool}
  {reportid : ULONG} {v : LONG}

theorem bitAt_congr (h : buf (i >>> 3) = buf' (i >>> 3)) : bitAt buf i = bitAt buf' i := by
  unfold bitAt
  rw [h]

theorem readDown_congr (h : ∀ k < n, bitAt buf (i + k) = bitAt buf' (i + k)) :
    readDown buf n (i + n) v = readDown buf' n (i + n) v := by
  induction n generalizing v with
  | zero => rfl
  | succ n ih =>
    unfold readDown
    rw [show i + (n + 1) - 1 = i + n by omega, h n (by omega)]
    exact ih fun k hk => h k (by omega)

theorem extractField_congr (hsize : isize ≠ 0)
    (h : ∀ q ∈ fieldReads isize ioffset, buf q = buf' q) :
    extractField buf signed isize ioffset = extractField buf' signed isize ioffset := by
  have hbit : ∀ k < isize, bitAt buf (ioffset + k) = bitAt buf' (ioffset + k) := by
    intro k hk
    apply bitAt_congr
    apply h
    unfold fieldReads
    rw [if_neg hsize]
    exact mem_map.mpr ⟨k, mem_range.mpr hk, rfl⟩
  unfold extractField
  cases signed with
  | false =>
    rw [if_neg Bool.false_ne_true, if_neg Bool.false_ne_true]
    exact readDown_congr hbit
  | true =>
    rw [if_pos rfl, if_pos rfl, show ioffset + isize - 1 = ioffset + (isize - 1) by omega]
    dsimp only
    rw [hbit (isize - 1) (by omega)]
    exact readDown_congr fun k hk => hbit k (by omega)

theorem extractElement_congr (hsize : nhi.size ≠ 0) (h : ∀ q ∈ nhi.elementReads i, buf q = buf' q) :
    nhi.extractElement buf i = nhi.extractElement buf' i := by
  unfold elementReads at h
  unfold extractElement
  split
  · rename_i hbyte
    rw [if_pos hbyte] at h
    rw [h _ mem_cons_self]
  · rename_i hbyte
    rw [if_neg hbyte] at h
    split
    · rename_i hone
      rw [if_pos hone] at h
      rw [bitAt_congr (h _ mem_cons_self)]
    · rename_i hone
      rw [if_neg hone] at h
      exact extractField_congr hsize h

theorem extractVariable_congr (hsize : nhi.size ≠ 0) (hvar : nhi.isVariable = true)
    (h : ∀ q ∈ nhi.reads, buf q = buf' q) : nhi.extractVariable buf = nhi.extractVariable buf' := by
  unfold NepHidItem.reads at h
  rw [if_pos hvar] at h
  unfold extractVariable
  by_cases hbyte : (nhi.byteAligned && decide (nhi.size = 8)) = true
  · rw [if_pos hbyte] at h
    simp only [if_pos hbyte, Nat.add_zero]
    rw [h _ mem_cons_self]
  rw [if_neg hbyte] at h
  by_cases hword : (nhi.byteAligned && decide (nhi.size = 16)) = true
  · rw [if_pos hword] at h
    have h0 := h (nhi.offset >>> 3) (by simp)
    have h1 := h (nhi.offset >>> 3 + 1) (by simp)
    obtain ⟨haligned, hsize16⟩ := Bool.and_eq_true_iff.mp hword
    rw [decide_eq_true_iff] at hsize16
    simp [hsize16, haligned, h0, h1]
  rw [if_neg hword] at h
  by_cases hlong : (nhi.byteAligned && decide (nhi.size = 32)) = true
  · rw [if_pos hlong] at h
    have h0 := h (nhi.offset >>> 3) (by simp)
    have h1 := h (nhi.offset >>> 3 + 1) (by simp)
    have h2 := h (nhi.offset >>> 3 + 2) (by simp)
    have h3 := h (nhi.offset >>> 3 + 3) (by simp)
    obtain ⟨haligned, hsize32⟩ := Bool.and_eq_true_iff.mp hlong
    rw [decide_eq_true_iff] at hsize32
    simp [hsize32, haligned, h0, h1, h2, h3]
  rw [if_neg hlong] at h
  -- the ways that are left are those of an array
  have helement := extractElement_congr hsize h
  unfold extractElement at helement
  simp only [if_neg hbyte, Nat.add_zero, Nat.zero_mul] at helement
  simp only [if_neg hbyte, if_neg hword, if_neg hlong]
  exact helement

theorem nProcessItem_congr (hread : Readable nhi) (h : ∀ q ∈ nhi.reads, buf q = buf' q) :
    nhi.nProcessItem buf = nhi.nProcessItem buf' := by
  obtain ⟨hsize, hcount⟩ := hread
  unfold nProcessItem
  cases hvar : nhi.isVariable with
  | true => rw [if_pos rfl, if_pos rfl, extractVariable_congr hsize hvar h]
  | false =>
    rw [if_neg Bool.false_ne_true, if_neg Bool.false_ne_true]
    congr 1
    unfold extractArray
    apply map_congr_left
    intro i hi
    apply extractElement_congr hsize
    intro q hq
    apply h
    unfold NepHidItem.reads
    rw [hvar, if_neg Bool.false_ne_true, if_neg (hcount.resolve_left (by rw [hvar]; exact Bool.false_ne_true))]
    exact mem_flatMap.mpr ⟨i, hi, hq⟩

theorem processItems_congr
    (h : ∀ nhi ∈ items, Readable nhi ∧ ∀ q ∈ nhi.reads, buf q = buf' q) :
    processItems buf items = processItems buf' items := by
  induction items with
  | nil => rfl
  | cons nhi items ih =>
    obtain ⟨⟨hread, hsame⟩, hrest⟩ := forall_mem_cons.mp h
    unfold processItems
    rw [nProcessItem_congr hread hsame, ih hrest]

def reportOf (reportid : ULONG) (reports : List InReport) : Option InReport :=
  (reports.filter (·.reportID = reportid)).getLast?

theorem processReport_none (h : processReport reportid buf reports = none) :
    reports.filter (·.reportID = reportid) = [] := by
  induction reports with
  | nil => rfl
  | cons nhr reports ih =>
    unfold processReport at h
    split at h
    · exact absurd h (some_ne_none _)
    · rename_i hnone
      split at h
      · exact absurd h (some_ne_none _)
      · rename_i hne
        rw [filter_cons_of_neg (by simpa using hne)]
        exact ih hnone

theorem processReport_congr (h : ∀ nhr ∈ reportOf reportid reports, ∀ nhi ∈ nhr.inItems,
      Readable nhi ∧ ∀ q ∈ nhi.reads, buf q = buf' q) :
    processReport reportid buf reports = processReport reportid buf' reports := by
  induction reports with
  | nil => rfl
  | cons nhr reports ih =>
    unfold processReport
    unfold reportOf at h ih
    by_cases hlast : reports.filter (·.reportID = reportid) = []
    · have hsame := ih (by rw [hlast]; exact fun nhr' hin => absurd hin (not_mem_none _))
      rw [hsame]
      by_cases hid : nhr.reportID = reportid
      · rw [filter_cons_of_pos (by simpa using hid), hlast] at h
        rw [processItems_congr (h nhr rfl)]
      · rw [if_neg hid, if_neg hid]
    · have hsame := ih fun nhr' hin => h nhr' (by
        by_cases hid : nhr.reportID = reportid
        · rw [filter_cons_of_pos (by simpa using hid), getLast?_cons, hin]
          rfl
        · rw [filter_cons_of_neg (by simpa using hid)]
          exact hin)
      rw [hsame]
      cases hprocess : processReport reportid buf' reports with
      | none => exact absurd (processReport_none hprocess) hlast
      | some result => rfl

def intuosNeeds (intuos : Bool) (data : Buf) : ℕ :=
  if data 0 = 12 then 7
  else if data 0 ≠ 2 ∧ data 0 ≠ 5 ∧ data 0 ≠ 6 then 1
  else if data 1 &&& 0x40 = 0 then 2
  else if intuos then (if data 1 &&& 0x10 ≠ 0 ∨ data 1 &&& 0xa0 = 0xa0 then 9 else 8)
  else 10

def wacomNeeds (mode : WacomMode) (data : Buf) : ℕ :=
  match mode with
  | .intuos => intuosNeeds true data
  | .intuos3 | .cintiq => intuosNeeds false data
  | _ => 0

theorem parsePenPartner_congr (h : ∀ k < len, buf k = buf' k) :
    parsePenPartner buf len = parsePenPartner buf' len := by
  unfold parsePenPartner
  by_cases hlen : len < 7
  · rw [if_pos (.inr hlen), if_pos (.inr hlen)]
  · simp only [h 0 (by omega), h 1 (by omega), h 2 (by omega), h 3 (by omega), h 4 (by omega),
      h 5 (by omega), h 6 (by omega)]

theorem parseGraphire_congr (four : Bool) (h : ∀ k < len, buf k = buf' k) :
    parseGraphire four buf len = parseGraphire four buf' len := by
  unfold parseGraphire
  by_cases hlen : len < 8
  · rw [if_pos (.inr hlen), if_pos (.inr hlen)]
  · simp only [h 0 (by omega), h 1 (by omega), h 2 (by omega), h 3 (by omega), h 4 (by omega),
      h 5 (by omega), h 6 (by omega), h 7 (by omega)]

theorem parsePL_congr (two : Bool) (h : ∀ k < len, buf k = buf' k) :
    parsePL two buf len = parsePL two buf' len := by
  unfold parsePL
  by_cases hlen : len < 8
  · rw [if_pos (.inr hlen), if_pos (.inr hlen)]
  · simp only [h 0 (by omega), h 1 (by omega), h 2 (by omega), h 3 (by omega), h 4 (by omega),
      h 5 (by omega), h 6 (by omega), h 7 (by omega)]

theorem parsePLX_congr (h : ∀ k < len, buf k = buf' k) : parsePLX buf len = parsePLX buf' len := by
  unfold parsePLX
  by_cases hlen : len < 8
  · rw [if_pos (.inr hlen), if_pos (.inr hlen)]
  · simp only [h 0 (by omega), h 1 (by omega), h 2 (by omega), h 3 (by omega), h 4 (by omega),
      h 5 (by omega), h 6 (by omega), h 7 (by omega)]

theorem parseIntuos_congr (intuos : Bool) (h : ∀ k < intuosNeeds intuos buf, buf k = buf' k) :
    parseIntuos intuos buf = parseIntuos intuos buf' := by
  unfold intuosNeeds at h
  unfold parseIntuos
  by_cases hpad : buf 0 = 12
  · rw [if_pos hpad] at h
    rw [← h 0 (by omega), if_pos hpad, if_pos hpad, h 5 (by omega), h 6 (by omega)]
  rw [if_neg hpad] at h
  by_cases hother : buf 0 ≠ 2 ∧ buf 0 ≠ 5 ∧ buf 0 ≠ 6
  · rw [if_pos hother] at h
    rw [← h 0 (by omega), if_neg hpad, if_neg hpad, if_pos hother, if_pos hother]
  rw [if_neg hother] at h
  by_cases hout : buf 1 &&& 0x40 = 0
  · rw [if_pos hout] at h
    rw [← h 0 (by omega), ← h 1 (by omega), if_neg hpad, if_neg hpad, if_neg hother, if_neg hother, if_pos hout,
      if_pos hout]
  rw [if_neg hout] at h
  cases intuos with
  | false =>
    rw [if_neg Bool.false_ne_true] at h
    simp only [h 0 (by omega), h 1 (by omega), h 2 (by omega), h 3 (by omega), h 4 (by omega),
      h 5 (by omega), h 6 (by omega), h 7 (by omega), h 8 (by omega), h 9 (by omega)]
  | true =>
    rw [if_pos rfl] at h
    have hlow : ∀ k < 8, buf k = buf' k := by
      intro k hk
      apply h
      split <;> omega
    have h0 := hlow 0 (by omega)
    have h1 := hlow 1 (by omega)
    by_cases hmore : buf 1 &&& 0x10 ≠ 0 ∨ buf 1 &&& 0xa0 = 0xa0
    · rw [if_pos hmore] at h
      simp only [h0, h1, hlow 2 (by omega), hlow 3 (by omega), hlow 4 (by omega), hlow 5 (by omega),
        hlow 6 (by omega), hlow 7 (by omega), h 8 (by omega), if_true]
    · rw [not_or, not_not] at hmore
      rw [h1] at hmore
      simp only [h0, h1, hlow 2 (by omega), hlow 3 (by omega), hlow 4 (by omega), hlow 5 (by omega),
        hlow 6 (by omega), hlow 7 (by omega), hmore.1, if_neg hmore.2, ne_eq, not_true, if_false, if_true]

theorem nParseWacom_congr {mode : WacomMode} (h : ∀ k < len, buf k = buf' k)
    (hneeds : wacomNeeds mode buf ≤ len) : nParseWacom mode buf len = nParseWacom mode buf' len := by
  unfold wacomNeeds at hneeds
  unfold nParseWacom
  cases mode with
  | penPartner => exact parsePenPartner_congr h
  | graphire => exact parseGraphire_congr false h
  | graphire4 => exact parseGraphire_congr true h
  | pl => exact parsePL_congr false h
  | pl2 => exact parsePL_congr true h
  | plx => exact parsePLX_congr h
  | intuos => exact parseIntuos_congr true fun k hk => h k (hk.trans_le hneeds)
  | cintiq | intuos3 =>
    exact parseIntuos_congr false fun k hk => h k (hk.trans_le hneeds)

def NepClassHid.idOf (nch : NepClassHid) (c : Completion) : ULONG :=
  if nch.usesReportID then long (c.data 0) else 0

def NepClassHid.start (nch : NepClassHid) : ℕ := if nch.usesReportID then 1 else 0

def NepClassHid.looksAt (nch : NepClassHid) (c : Completion) : List NepHidItem :=
  if (nch.idOf c).toNat ≤ nch.maxReportID then
    ((reportOf (nch.idOf c) nch.reports).map (·.inItems)).getD []
  else []

def Covered (nch : NepClassHid) (c : Completion) : Prop :=
  c.ok = true → (∀ wacom ∈ nch.wacom, wacomNeeds wacom.1 c.data ≤ c.actual) ∧
    (0 < c.actual → ∀ nhi ∈ nch.looksAt c, Readable nhi ∧ ∀ q ∈ nhi.reads, nch.start + q < c.actual)

def Same (r r' : NepClassHid × List HidEvent) : Prop :=
  r.2 = r'.2 ∧ r.1.reports = r'.1.reports ∧ r.1.wacom = r'.1.wacom

theorem Same.symm {r r' : NepClassHid × List HidEvent} (h : Same r r') : Same r' r :=
  ⟨h.1.symm, h.2.1.symm, h.2.2.symm⟩

theorem Same.trans {r r' r'' : NepClassHid × List HidEvent} (h : Same r r') (h' : Same r' r'') :
    Same r r'' := ⟨h.1.trans h'.1, h.2.1.trans h'.2.1, h.2.2.trans h'.2.2⟩

theorem hidReport_same (nch : NepClassHid) (buf' : Buf) (h0 : nch.usesReportID = true → nch.buf 0 = buf' 0)
    (hitems : ∀ reportid, reportid = (if nch.usesReportID then long (nch.buf 0) else 0) →
      reportid.toNat ≤ nch.maxReportID → ∀ nhr ∈ reportOf reportid nch.reports, ∀ nhi ∈ nhr.inItems,
        Readable nhi ∧ ∀ q ∈ nhi.reads, nch.buf (nch.start + q) = buf' (nch.start + q)) :
    Same nch.hidReport { nch with buf := buf' }.hidReport := by
  unfold NepClassHid.hidReport
  unfold NepClassHid.start at hitems
  cases hids : nch.usesReportID with
  | true =>
    rw [hids] at hitems
    simp only [if_true] at hitems ⊢
    rw [← h0 hids]
    by_cases hmax : (long (nch.buf 0)).toNat ≤ nch.maxReportID
    · rw [if_pos hmax, if_pos hmax]
      have hsame : processReport (long (nch.buf 0)) (fun i => nch.buf (i + 1)) nch.reports =
          processReport (long (nch.buf 0)) (fun i => buf' (i + 1)) nch.reports := by
        apply processReport_congr
        intro nhr hnhr nhi hnhi
        obtain ⟨hread, hbytes⟩ := hitems _ rfl hmax nhr hnhr nhi hnhi
        refine ⟨hread, fun q hq => ?_⟩
        rw [Nat.add_comm q 1]
        exact hbytes q hq
      rw [hsame]
      split <;> exact ⟨rfl, rfl, rfl⟩
    · rw [if_neg hmax, if_neg hmax]
      exact ⟨rfl, rfl, rfl⟩
  | false =>
    rw [hids] at hitems
    simp only [Bool.false_eq_true, if_false, Nat.zero_add] at hitems ⊢
    by_cases hmax : (0 : ULONG).toNat ≤ nch.maxReportID
    · rw [if_pos hmax, if_pos hmax, processReport_congr (hitems 0 rfl hmax)]
      split <;> exact ⟨rfl, rfl, rfl⟩
    · rw [if_neg hmax, if_neg hmax]
      exact ⟨rfl, rfl, rfl⟩

theorem hidCompletion_same (hcovered : Covered nch c) :
    Same (nch.hidCompletion c) ({ nch with buf := c.data }.hidCompletion c) := by
  have hreceived : { nch with buf := c.data }.receive c = { nch with buf := c.data } := by
    unfold NepClassHid.receive
    simp only [ite_self]
  have hbuf : ∀ k < c.actual, (nch.receive c).buf k = c.data k := fun k hk => if_pos hk
  unfold NepClassHid.hidCompletion
  rw [hreceived]
  by_cases hok : c.ok = true
  · obtain ⟨hwacom, hitems⟩ := hcovered hok
    rw [hok]
    simp only [Bool.not_true, Bool.false_eq_true, if_false]
    have hhid : 0 < c.actual → Same (nch.receive c).hidReport { nch with buf := c.data }.hidReport := by
      intro hactual
      have hlooks := hitems hactual
      apply hidReport_same (nch.receive c) c.data
      · exact fun _ => hbuf 0 hactual
      · intro reportid hid hmax nhr hnhr nhi hnhi
        have hidOf : reportid = nch.idOf c := by
          rw [hid, hbuf 0 hactual]
          rfl
        have hin : nhi ∈ nch.looksAt c := by
          unfold NepClassHid.looksAt
          rw [← hidOf, if_pos (show reportid.toNat ≤ nch.maxReportID from hmax)]
          have hsome : reportOf reportid nch.reports = some nhr := hnhr
          rw [hsome]
          exact hnhi
        exact ⟨(hlooks nhi hin).1, fun q hq => hbuf _ ((hlooks nhi hin).2 q hq)⟩
    unfold NepClassHid.wacomReport
    cases htablet : nch.wacom with
    | none =>
      have htablet' : (nch.receive c).wacom = none := htablet
      rw [htablet']
      dsimp only
      by_cases hactual : c.actual > 0
      · rw [if_pos hactual, if_pos hactual]
        rw [← htablet]
        exact hhid hactual
      · rw [if_neg hactual, if_neg hactual]
        exact ⟨rfl, rfl, htablet⟩
    | some wacom =>
      have htablet' : (nch.receive c).wacom = some wacom := htablet
      have hparse := nParseWacom_congr (fun k hk => (hbuf k hk).symm) (hwacom wacom htablet)
      rw [htablet']
      dsimp only
      rw [hparse]
      cases nParseWacom wacom.1 (nch.receive c).buf c.actual with
      | some wr => exact ⟨rfl, rfl, rfl⟩
      | none =>
        dsimp only [map_none]
        by_cases hactual : c.actual > 0
        · rw [if_pos hactual, if_pos hactual, ← htablet]
          exact hhid hactual
        · rw [if_neg hactual, if_neg hactual]
          exact ⟨rfl, rfl, htablet⟩
  · rw [Bool.not_eq_true] at hok
    rw [hok]
    exact ⟨rfl, rfl, rfl⟩

def InReport.layout (nhr : InReport) : ULONG × List (List ℕ) := (nhr.reportID, nhr.inItems.map (·.reads))

theorem nProcessItem_reads (nhi : NepHidItem) (buf : Buf) : (nhi.nProcessItem buf).1.reads = nhi.reads := by
  unfold nProcessItem
  split
  · unfold processVariable
    split <;> rfl
  · rename_i hvar
    have hlength : (nhi.extractArray buf).length = nhi.count := by
      unfold extractArray
      rw [length_map, length_range]
    generalize nhi.extractArray buf = values at hlength
    have hcount : ∀ old oldBuffer, ({ nhi with
        buffer := values, oldValue := old, oldBuffer := oldBuffer } : NepHidItem).reads = nhi.reads := by
      intro old oldBuffer
      unfold NepHidItem.reads NepHidItem.count
      dsimp only
      rw [hlength]
      rfl
    unfold processArray
    dsimp only
    split
    · exact hcount _ _
    · exact hcount _ _

theorem processItems_reads (buf : Buf) (items : List NepHidItem) :
    (processItems buf items).1.map (·.reads) = items.map (·.reads) := by
  induction items with
  | nil => rfl
  | cons nhi items ih =>
    unfold processItems
    rw [map_cons, map_cons, ih, nProcessItem_reads]

theorem processReport_layout {result : List InReport × List HidEvent}
    (h : processReport reportid buf reports = some result) :
    result.1.map (·.layout) = reports.map (·.layout) := by
  induction reports generalizing result with
  | nil => exact absurd h (some_ne_none _).symm
  | cons nhr reports ih =>
    unfold processReport at h
    split at h
    · rename_i result' hrest
      obtain rfl := some.inj h
      exact congrArg (cons _) (ih hrest)
    · split at h
      · obtain rfl := some.inj h
        unfold InReport.layout
        rw [map_cons, map_cons, processItems_reads]
      · exact absurd h (some_ne_none _).symm

structure SameLayout (nch nch' : NepClassHid) : Prop where
  usesReportID : nch'.usesReportID = nch.usesReportID
  maxInSize : nch'.maxInSize = nch.maxInSize
  reports : nch'.reports.map (·.layout) = nch.reports.map (·.layout)

theorem hidReport_layout (nch : NepClassHid) : SameLayout nch nch.hidReport.1 := by
  unfold NepClassHid.hidReport
  generalize (if nch.usesReportID = true then long (nch.buf 0) else 0) = reportid
  dsimp only
  by_cases hmax : reportid.toNat ≤ nch.maxReportID
  · rw [if_pos hmax]
    split
    · rename_i hprocess
      exact ⟨rfl, rfl, processReport_layout hprocess⟩
    · exact ⟨rfl, rfl, rfl⟩
  · rw [if_neg hmax]
    exact ⟨rfl, rfl, rfl⟩

theorem hidCompletion_layout (nch : NepClassHid) (c : Completion) :
    SameLayout nch (nch.hidCompletion c).1 := by
  unfold NepClassHid.hidCompletion
  dsimp only
  split
  · exact ⟨rfl, rfl, rfl⟩
  split
  · rename_i result hwacom
    unfold NepClassHid.wacomReport at hwacom
    split at hwacom
    · exact absurd hwacom (some_ne_none _).symm
    · obtain ⟨wr, -, rfl⟩ := map_eq_some_iff.mp hwacom
      exact ⟨rfl, rfl, rfl⟩
  split
  · have hlayout := hidReport_layout (nch.receive c)
    exact ⟨hlayout.usesReportID, hlayout.maxInSize, hlayout.reports⟩
  · exact ⟨rfl, rfl, rfl⟩

def InBounds (nch : NepClassHid) : Prop :=
  ∀ nhr ∈ nch.reports, ∀ nhi ∈ nhr.inItems, ∀ q ∈ nhi.reads, nch.start + q < nch.maxInSize

def CoveredRun (nch : NepClassHid) : List Completion → Prop
  | [] => True
  | c :: cs => Covered nch c ∧ CoveredRun (nch.hidCompletion c).1 cs

/-- The events and the states of the items are the same whatever is in the buffer when a completion
comes, and no item that is looked at is read outside the buffer. -/
def JudgedRun (nch : NepClassHid) : List Completion → Prop
  | [] => True
  | c :: cs =>
    (∀ stale, Same (nch.hidCompletion c) ({ nch with buf := stale }.hidCompletion c)) ∧
    (c.ok = true → 0 < c.actual →
      ∀ nhi ∈ nch.looksAt c, ∀ q ∈ nhi.reads, nch.start + q < nch.maxInSize) ∧
    JudgedRun (nch.hidCompletion c).1 cs

def InBoundsRun (nch : NepClassHid) : List Completion → Prop
  | [] => InBounds nch
  | c :: cs => InBounds nch ∧ InBoundsRun (nch.hidCompletion c).1 cs

theorem judgedRun (hactual : ∀ c ∈ cs, c.actual ≤ nch.maxInSize) (hcovered : CoveredRun nch cs) :
    JudgedRun nch cs := by
  induction cs generalizing nch with
  | nil => trivial
  | cons c cs ih =>
    obtain ⟨hcover, hrest⟩ := hcovered
    refine ⟨fun stale => ?_, fun hok hpos nhi hin q hq => ?_, ih ?_ hrest⟩
    · have hstale : Covered { nch with buf := stale } c := hcover
      exact (hidCompletion_same hcover).trans (hidCompletion_same hstale).symm
    · exact (((hcover hok).2 hpos nhi hin).2 q hq).trans_le (hactual c mem_cons_self)
    · rw [(hidCompletion_layout nch c).maxInSize]
      exact fun c' hin => hactual c' (mem_cons_of_mem _ hin)

theorem InBounds.same {nch' : NepClassHid} (h : InBounds nch) (hsame : SameLayout nch nch') :
    InBounds nch' := by
  intro nhr' hnhr' nhi' hnhi' q hq
  have hmem : nhr'.layout ∈ nch.reports.map (·.layout) := by
    rw [← hsame.reports]
    exact mem_map_of_mem hnhr'
  obtain ⟨nhr, hnhr, heq⟩ := mem_map.mp hmem
  have hreads : nhi'.reads ∈ nhr.inItems.map (·.reads) := by
    rw [show nhr.inItems.map (·.reads) = nhr'.inItems.map (·.reads) from congrArg Prod.snd heq]
    exact mem_map_of_mem hnhi'
  obtain ⟨nhi, hnhi, hnhieq⟩ := mem_map.mp hreads
  unfold NepClassHid.start
  rw [hsame.usesReportID, hsame.maxInSize]
  exact h nhr hnhr nhi hnhi q (hnhieq ▸ hq)

theorem inBoundsRun (h : InBounds nch) (cs : List Completion) : InBoundsRun nch cs := by
  induction cs generalizing nch with
  | nil => exact h
  | cons c cs ih => exact ⟨h, ih (h.same (hidCompletion_layout nch c))⟩

theorem le_foldl_max {α : Type*} (f : α → ℕ) (l : List α) (m : ℕ) :
    m ≤ l.foldl (fun size a => max size (f a)) m ∧
      ∀ a ∈ l, f a ≤ l.foldl (fun size a => max size (f a)) m := by
  induction l generalizing m with
  | nil => exact ⟨le_rfl, fun a hin => absurd hin not_mem_nil⟩
  | cons a l ih =>
    obtain ⟨hle, hall⟩ := ih (max m (f a))
    refine ⟨(Nat.le_max_left _ _).trans hle, fun a' hin => ?_⟩
    rcases mem_cons.mp hin with rfl | hin
    · exact (Nat.le_max_right _ _).trans hle
    · exact hall a' hin

theorem inBounds_parsed {mem : ℕ → UInt8} {reportLength : ℕ} {parsed : List NepHidReport}
    (wacom : Option (WacomMode × List NepHidItem))
    (hparse : nParseReport mem reportLength = some parsed)
    (hfits : Sized .start (readItems mem reportLength reportLength 0)) :
    InBounds (nReadReports parsed wacom) := by
  obtain ⟨s, hs, rfl⟩ := map_eq_some_iff.mp hparse
  have hbounded := Bounded.start.parseItems hfits hs
  intro nhr hnhr nhi hnhi q hq
  obtain ⟨r, hr, rfl⟩ := mem_map.mp hnhr
  obtain ⟨x, hx, rfl⟩ := mem_map.mp hnhi
  obtain ⟨hxr, hkind⟩ := mem_filter.mp hx
  obtain ⟨hread, r', hr', hle⟩ :=
    hbounded.fitted x (mem_append_left _ (mem_flatMap.mpr ⟨r, hr, hxr⟩))
  have hlt := reads_lt hread hq
  rw [of_decide_eq_true hkind] at hle
  have hsmall := hbounded.small r' hr' .input
  have hbytes : ((r'.inSize + 7 : ULONG) >>> 3).toNat = (r'.inSize.toNat + 7) / 8 := by
    have hsize : r'.inSize.toNat < 65536 := hsmall
    rw [BitVec.toNat_ushiftRight, BitVec.toNat_add, BitField.shiftRight_three]
    rw [Nat.mod_eq_of_lt (by change _ + 7 < 2 ^ 32; omega)]
    rfl
  have hmax := (le_foldl_max (fun nhr : NepHidReport => ((nhr.inSize + 7 : ULONG) >>> 3).toNat) s.reports 0).2 r' hr'
  rw [hbytes] at hmax
  have hin : (r'.size .input).toNat = r'.inSize.toNat := rfl
  change (if usesReportID s.reports = true then 1 else 0) + q <
    s.reports.foldl (fun size nhr => max size ((nhr.inSize + 7 : ULONG) >>> 3).toNat) 0 +
      if usesReportID s.reports = true then 1 else 0
  omega

/-- In every run of completions in which all that is read has been received, each is judged by what it
brought and no item is read outside the buffer; in every run on a descriptor that fits, no item is. -/
theorem judged_by_received (nch : NepClassHid) (cs : List Completion)
    (hactual : ∀ c ∈ cs, c.actual ≤ nch.maxInSize) :
    (CoveredRun nch cs → JudgedRun nch cs) ∧
    ∀ mem reportLength reports wacom, nParseReport mem reportLength = some reports →
      Sized .start (readItems mem reportLength reportLength 0) → nch = nReadReports reports wacom →
      InBoundsRun nch cs := by
  refine ⟨judgedRun hactual, fun mem reportLength reports wacom hparse hfits heq => ?_⟩
  rw [heq]
  exact inBoundsRun (inBounds_parsed wacom hparse hfits) cs

def padKeyboard : List UInt8 :=
  [0x05, 0x07, 0x09, 0x06, 0xa1, 0x01, 0x15, 0x00, 0x25, 0x05, 0x75, 0x08, 0x95, 0x02,
    0x19, 0x00, 0x29, 0x05, 0x81, 0x00, 0xc0]

def padClass : NepClassHid := nReadReports (reportsOf padKeyboard) none

def wholeReport : Completion := ⟨true, 2, memory [0, 4]⟩

def runtReport : Completion := ⟨true, 1, memory [0, 0]⟩

theorem wholeReport_covered : CoveredRun padClass [wholeReport] := by
  refine ⟨fun _ => ⟨fun wacom hin => absurd hin (not_mem_none _), fun _ nhi hin => ?_⟩, trivial⟩
  have hlooks : padClass.looksAt wholeReport =
      ((nReadReports (reportsOf padKeyboard) none).reports.flatMap (·.inItems)) := by decide +kernel
  rw [hlooks] at hin
  have hall : ((nReadReports (reportsOf padKeyboard) none).reports.flatMap (·.inItems)).all
      (fun nhi => nhi.size ≠ 0 ∧ (nhi.isVariable = true ∨ nhi.count ≠ 0) ∧
        nhi.reads.all fun q => 0 + q < 2) = true := by decide +kernel
  have hone := of_decide_eq_true (all_eq_true.mp hall nhi hin)
  refine ⟨⟨hone.1, hone.2.1⟩, fun q hq => ?_⟩
  exact of_decide_eq_true (all_eq_true.mp hone.2.2 q hq)

theorem judged_by_received_whole : JudgedRun padClass [wholeReport] :=
  (judged_by_received padClass [wholeReport]
    (forall_mem_singleton.mpr (by decide +kernel))).1 wholeReport_covered

/-- The runt is judged by the key of the report before: it goes up if a byte of 0 is left instead. -/
theorem judged_by_stale :
    ¬ JudgedRun padClass [wholeReport, runtReport] ∧
    ((padClass.hidCompletion wholeReport).1.hidCompletion runtReport).2 = [] ∧
    ({ (padClass.hidCompletion wholeReport).1 with buf := fun _ => 0 }.hidCompletion runtReport).2 =
      [.up 0x00070004 4] := by
  have hstays : ((padClass.hidCompletion wholeReport).1.hidCompletion runtReport).2 = [] := by
    decide +kernel
  have hgoes : ({ (padClass.hidCompletion wholeReport).1 with buf := fun _ => 0 }.hidCompletion
      runtReport).2 = [.up 0x00070004 4] := by decide +kernel
  refine ⟨fun hjudged => ?_, hstays, hgoes⟩
  have hsame := (hjudged.2.2.1 fun _ => 0).1
  rw [hstays, hgoes] at hsame
  exact absurd hsame (by decide)

end Neptune.Hid
