import Neptune.Spec.StreamRead

/-! On a descending array both scans see only its first entry: the test that ends them early is the one for ascending
entries. The scan of the writer looks one entry behind the array when the entries before are all different. -/

namespace Neptune.PipeStream

open List

variable {tarrptr : ℕ → UInt8} {cchar c : UInt8} {p q : UInt8 → Bool} {data : List UInt8} {ahead : ℕ → Bool}

theorem upTo_cons_neg (h : p c = false) (data : List UInt8) : upTo p (c :: data) = c :: upTo p data := by
  simp [upTo, h]

theorem upTo_cons_pos (h : p c = true) (data : List UInt8) : upTo p (c :: data) = [c] := by
  simp [upTo, h]

theorem length_upTo_le (p : UInt8 → Bool) (data : List UInt8) : (upTo p data).length ≤ data.length := by
  induction data with
  | nil => exact Nat.le_refl _
  | cons c rest ih =>
    rw [upTo]
    split
    · simp
    · exact Nat.succ_le_succ ih

theorem upTo_of_none (h : data.any p = false) : upTo p data = data := by
  induction data with
  | nil => rfl
  | cons c rest ih =>
    obtain ⟨hc, hrest⟩ := Bool.or_eq_false_iff.mp (any_cons ▸ h)
    rw [upTo_cons_neg hc, ih hrest]

section

variable (test : UInt8 → Match) (data : List UInt8)

theorem scan_taken :
    (scan test data).taken = upTo (fun c => (test c).found) data := by
  induction data with
  | nil => rfl
  | cons c rest ih =>
    rw [scan, upTo]
    split
    · rfl
    · rw [ih]

theorem scan_found :
    (scan test data).found = data.any fun c => (test c).found := by
  induction data with
  | nil => rfl
  | cons c rest ih =>
    rw [scan, any_cons]
    split
    · next hfound => rw [hfound, Bool.true_or]
    · next hnot => rw [Bool.eq_false_iff.mpr hnot, Bool.false_or, ih]

theorem mem_scan_reads (i : ℕ) :
    i ∈ (scan test data).reads ↔ ∃ c ∈ upTo (fun c => (test c).found) data, i ∈ (test c).reads := by
  induction data with
  | nil => simp [scan, upTo]
  | cons c rest ih =>
    rw [scan, upTo]
    split
    · simp
    · rw [mem_append, ih]
      simp

end

theorem matchTerm_succ (ahead : ℕ → Bool) (tarrptr : ℕ → UInt8) (cchar : UInt8) (left tcnt : ℕ) :
    matchTerm ahead tarrptr cchar (left + 1) tcnt =
      if cchar < tarrptr tcnt then ⟨false, [tcnt]⟩
      else if cchar = tarrptr tcnt then ⟨true, [tcnt]⟩
      else if ahead tcnt then
        if tarrptr tcnt = tarrptr (tcnt + 1) then ⟨false, [tcnt, tcnt + 1]⟩
        else ⟨(matchTerm ahead tarrptr cchar left (tcnt + 1)).found,
          tcnt :: (tcnt + 1) :: (matchTerm ahead tarrptr cchar left (tcnt + 1)).reads⟩
      else ⟨(matchTerm ahead tarrptr cchar left (tcnt + 1)).found,
        tcnt :: (matchTerm ahead tarrptr cchar left (tcnt + 1)).reads⟩ := rfl

theorem matchTerm_above {left : ℕ} (tcnt : ℕ) (h : ∀ i, tcnt ≤ i → i < tcnt + left → tarrptr i < cchar) :
    (matchTerm ahead tarrptr cchar left tcnt).found = false := by
  induction left generalizing tcnt with
  | zero => rfl
  | succ left ih =>
    have hlt := h tcnt (Nat.le_refl _) (by omega)
    have hnext := ih (tcnt + 1) fun i hi hi' => h i (by omega) (by omega)
    rw [matchTerm_succ, if_neg (UInt8.lt_asymm hlt), if_neg (UInt8.ne_of_lt hlt).symm]
    split
    · split
      · rfl
      · exact hnext
    · exact hnext

theorem above_of_first (hdesc : Descending tarrptr) (h : tarrptr 0 < cchar) {i : ℕ} (hi : i < 8) :
    tarrptr i < cchar :=
  UInt8.lt_of_le_of_lt (hdesc 0 i (Nat.zero_le _) hi) h

theorem matchTerm_found (hdesc : Descending tarrptr) :
    (matchTerm ahead tarrptr cchar 8 0).found = decide (cchar = tarrptr 0) := by
  by_cases hlt : cchar < tarrptr 0
  · rw [matchTerm_succ, if_pos hlt, decide_eq_false (UInt8.ne_of_lt hlt)]
  · by_cases heq : cchar = tarrptr 0
    · rw [matchTerm_succ, if_neg hlt, if_pos heq, decide_eq_true heq]
    · have hgt : tarrptr 0 < cchar := UInt8.lt_of_le_of_ne (UInt8.not_lt.mp hlt) (Ne.symm heq)
      rw [matchTerm_above 0 fun i _ hi => above_of_first hdesc hgt (by omega), decide_eq_false heq]

theorem matchTerm_reads_first (h : ¬tarrptr 0 < cchar) : (matchTerm ahead tarrptr cchar 8 0).reads = [0] := by
  rw [matchTerm_succ]
  split
  · rfl
  · next hnot =>
    have heq : cchar = tarrptr 0 := UInt8.le_antisymm (UInt8.not_lt.mp h) (UInt8.not_lt.mp hnot)
    rw [if_pos heq]

theorem matchTerm_inside {left : ℕ} (tcnt : ℕ) (hahead : ∀ i, ahead i = true → i < 7) (hleft : tcnt + left ≤ 8) :
    ∀ i ∈ (matchTerm ahead tarrptr cchar left tcnt).reads, i < 8 := by
  induction left generalizing tcnt with
  | zero => exact fun i hi => absurd hi not_mem_nil
  | succ left ih =>
    have hnext := ih (tcnt + 1) (by omega)
    rw [matchTerm_succ]
    split
    · simp; omega
    · split
      · simp; omega
      · split
        · next hlook =>
          have := hahead tcnt hlook
          split
          · simp; omega
          · simp only [forall_mem_cons]
            exact ⟨by omega, by omega, hnext⟩
        · simp only [forall_mem_cons]
          exact ⟨by omega, hnext⟩

theorem writeMatch_inside (left tcnt : ℕ) (hpos : 0 < tcnt) (hleft : tcnt + left = 8)
    (h : ∀ i, tcnt ≤ i → i < 8 → tarrptr i < cchar) :
    (∀ i ∈ (matchTerm (fun tcnt => decide (tcnt ≠ 0)) tarrptr cchar left tcnt).reads, i < 8) ↔
      left = 0 ∨ ∃ i, tcnt ≤ i ∧ i < 7 ∧ tarrptr i = tarrptr (i + 1) := by
  induction left generalizing tcnt with
  | zero => simp [matchTerm]
  | succ left ih =>
    have hlt := h tcnt (Nat.le_refl _) (by omega)
    have hahead : decide (tcnt ≠ 0) = true := decide_eq_true (by omega)
    rw [matchTerm_succ, if_neg (UInt8.lt_asymm hlt), if_neg (UInt8.ne_of_lt hlt).symm, if_pos hahead]
    by_cases hlast : tcnt = 7
    · -- the entry behind the last one is read whatever it is
      have hbehind : ¬∃ i, tcnt ≤ i ∧ i < 7 ∧ tarrptr i = tarrptr (i + 1) := by
        rintro ⟨i, hi, hi', -⟩
        omega
      have hread : ¬tcnt + 1 < 8 := by omega
      split
      · simp [hbehind, hread]
      · simp [hbehind, hread]
    · split
      · next heq =>
        have hstop : ∃ i, tcnt ≤ i ∧ i < 7 ∧ tarrptr i = tarrptr (i + 1) := ⟨tcnt, Nat.le_refl _, by omega, heq⟩
        simp only [hstop, or_true, iff_true, forall_mem_cons]
        exact ⟨by omega, by omega, fun i hi => absurd hi not_mem_nil⟩
      · next hne =>
        have hnext := ih (tcnt + 1) (by omega) (by omega) fun i hi => h i (by omega)
        simp only [forall_mem_cons, hnext]
        constructor
        · rintro ⟨-, -, hzero | ⟨i, hi, hi', heq⟩⟩
          · omega
          · exact .inr ⟨i, by omega, hi', heq⟩
        · rintro (hzero | ⟨i, hi, hi', heq⟩)
          · cases hzero
          · have hlater : i ≠ tcnt := by
              rintro rfl
              exact hne heq
            exact ⟨by omega, by omega, .inr ⟨i, by omega, hi', heq⟩⟩

theorem writeMatch_inside_iff (hdesc : Descending tarrptr) :
    (∀ i ∈ (writeMatch tarrptr cchar).reads, i < 8) ↔
      (∃ i, 0 < i ∧ i < 7 ∧ tarrptr i = tarrptr (i + 1)) ∨ cchar ≤ tarrptr 0 := by
  by_cases hgt : tarrptr 0 < cchar
  · have hnext := writeMatch_inside 7 1 (by omega) rfl fun i _ hi => above_of_first hdesc hgt hi
    have hle : ¬cchar ≤ tarrptr 0 := UInt8.not_le.mpr hgt
    rw [writeMatch, matchTerm_succ, if_neg (UInt8.lt_asymm hgt), if_neg (UInt8.ne_of_lt hgt).symm, if_neg (by simp)]
    simp only [forall_mem_cons, hnext, hle, or_false]
    constructor
    · rintro ⟨-, hzero | hdup⟩
      · cases hzero
      · exact hdup
    · exact fun hdup => ⟨by omega, .inr hdup⟩
  · rw [writeMatch, matchTerm_reads_first hgt]
    simp [UInt8.not_lt.mp hgt]

theorem upTo_eq_nil : upTo p data = [] ↔ data = [] := by
  cases data with
  | nil => simp [upTo]
  | cons c rest =>
    rw [upTo]
    split <;> simp

theorem upTo_eq_iff (hpq : ∀ c, p c = true → q c = true) (data : List UInt8) :
    (upTo p data = upTo q data ∧ data.any p = data.any q) ↔ ∀ c, data.find? q = some c → p c = true := by
  induction data with
  | nil => simp [upTo]
  | cons c rest ih =>
    cases hq : q c with
    | true =>
      rw [upTo_cons_pos hq, List.find?_cons_of_pos hq, any_cons, any_cons, hq, Bool.true_or]
      cases hp : p c with
      | true => simp [upTo_cons_pos hp, hp]
      | false =>
        rw [upTo_cons_neg hp, Bool.false_or]
        constructor
        · rintro ⟨htaken, hany⟩
          have hrest : rest = [] := upTo_eq_nil.mp (List.cons.inj htaken).2
          rw [hrest] at hany
          cases hany
        · intro hfirst
          have hpc := hfirst c rfl
          rw [hp] at hpc
          cases hpc
    | false =>
      have hp : p c = false := by
        by_contra hpc
        rw [hpq c (Bool.not_eq_false _ ▸ hpc)] at hq
        cases hq
      rw [upTo_cons_neg hq, upTo_cons_neg hp, List.find?_cons_of_neg (Bool.eq_false_iff.mp hq), any_cons,
        any_cons, hp, hq, Bool.false_or, Bool.false_or, ← ih, cons_inj_right]

theorem scans_agree_iff (hdesc : Descending tarrptr) (data : List UInt8) :
    ScansAgree tarrptr data ↔ Found tarrptr data := by
  have hread : (fun c => (readMatch tarrptr c).found) = fun c => decide (c = tarrptr 0) :=
    funext fun c => matchTerm_found hdesc
  have hwrite : (fun c => (writeMatch tarrptr c).found) = fun c => decide (c = tarrptr 0) :=
    funext fun c => matchTerm_found hdesc
  have hmem : ∀ c, decide (c = tarrptr 0) = true → inTermArray tarrptr c = true := by
    intro c hc
    refine List.any_eq_true.mpr ⟨0, mem_range.mpr (by omega), ?_⟩
    rw [of_decide_eq_true hc, beq_self_eq_true]
  have hfirst := upTo_eq_iff hmem data
  have hreads : ∀ i ∈ (readScan tarrptr data).reads, i < 8 := by
    intro i hi
    obtain ⟨c, -, hc⟩ := (mem_scan_reads _ _ _).mp hi
    exact matchTerm_inside 0 (fun _ h => of_decide_eq_true h) (by omega) i hc
  constructor
  · intro h
    have hends : upTo (fun c => decide (c = tarrptr 0)) data = upTo (inTermArray tarrptr) data := by
      rw [← h.read, readScan, scan_taken, hread]
    refine ⟨fun c hc => ?_, ?_⟩
    · have hstops : (data.any fun c => decide (c = tarrptr 0)) = data.any (inTermArray tarrptr) := by
        rw [← h.stops, readScan, scan_found, hread]
      exact of_decide_eq_true (hfirst.mp ⟨hends, hstops⟩ c hc)
    · by_cases hdup : ∃ i, 0 < i ∧ i < 7 ∧ tarrptr i = tarrptr (i + 1)
      · exact .inl hdup
      · refine .inr fun c hc => ?_
        have hinside : ∀ i ∈ (writeMatch tarrptr c).reads, i < 8 := by
          intro i hi
          refine h.writeInside i ?_
          rw [writeScan, mem_scan_reads, hwrite, hends]
          exact ⟨c, hc, hi⟩
        exact ((writeMatch_inside_iff hdesc).mp hinside).resolve_left hdup
  · intro h
    obtain ⟨hends, hstops⟩ := hfirst.mpr fun c hc => decide_eq_true (h.first c hc)
    refine ⟨?_, ?_, ?_, hreads, ?_⟩
    · rw [readScan, scan_taken, hread, hends]
    · rw [readScan, scan_found, hread, hstops]
    · rw [writeScan, scan_taken, hwrite, hends]
    · intro i hi
      rw [writeScan, mem_scan_reads, hwrite, hends] at hi
      obtain ⟨c, hc, hi⟩ := hi
      exact (writeMatch_inside_iff hdesc).mpr (h.inside.imp id fun hle => hle c hc) i hi

def crLf : ℕ → UInt8 := fun i => [13, 10, 10, 10, 10, 10, 10, 10].getD i 0

theorem crLf_descending : Descending crLf := by
  have hall : ∀ j < 8, ∀ i ≤ j, crLf j ≤ crLf i := by decide
  exact fun i j hij hj => hall j hj i hij

theorem scans_agree_iff_crLf : ScansAgree crLf [65, 13, 10] ∧ Found crLf [65, 13, 10] := by
  have hfound : Found crLf [65, 13, 10] := ⟨fun c hc => (Option.some.inj hc).symm, .inl ⟨1, by decide⟩⟩
  exact ⟨(scans_agree_iff crLf_descending _).mpr hfound, hfound⟩

def countDown : ℕ → UInt8 := fun i => [8, 7, 6, 5, 4, 3, 2, 1].getD i 0

/-- A line feed ends neither; a character above all eight makes the writer's scan read the ninth byte. -/
theorem scans_disagree :
    ((readScan crLf [10, 65]).taken = [10, 65] ∧ (writeScan crLf [10, 65]).taken = [10, 65] ∧
      upTo (inTermArray crLf) [10, 65] = [10]) ∧
    ((readScan countDown [9]).reads = [0, 1, 1, 2, 2, 3, 3, 4, 4, 5, 5, 6, 6, 7, 7] ∧
      8 ∈ (writeScan countDown [9]).reads) ∧
    ¬∀ tarrptr data, Descending tarrptr → ScansAgree tarrptr data := by
  refine ⟨⟨by decide, by decide, by decide⟩, ⟨by decide, by decide⟩, fun hall => ?_⟩
  exact absurd (hall crLf [10, 65] crLf_descending).read (by decide)

end Neptune.PipeStream
