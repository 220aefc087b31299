import Neptune.Lib.Edges
import Neptune.Spec.HidItem

/-! The keys of an array item go down and up in turn. -/

namespace Neptune.Hid

open List

open Edges
open NepHidItem

variable {nhi : NepHidItem} {v : LONG} {old new r : List LONG} {rs rs' : List (List LONG)}

def NepHidItem.afterReports (nhi : NepHidItem) : List (List LONG) → NepHidItem
  | [] => nhi
  | r :: rs => (nhi.processArray r).1.afterReports rs

def NepHidItem.eventsOf (nhi : NepHidItem) : List (List LONG) → List HidEvent
  | [] => []
  | r :: rs => (nhi.processArray r).2 ++ (nhi.processArray r).1.eventsOf rs

def NepHidItem.rollsOver (nhi : NepHidItem) (r : List LONG) : Bool :=
  r.any fun value => nhi.inRange value && nhi.usageOf value = 0x00070001

def edgeOf (v : LONG) : HidEvent → Option Bool
  | .down _ value => if value = v then some true else none
  | .up _ value => if value = v then some false else none
  | _ => none

def edges (v : LONG) (es : List HidEvent) : List Bool := es.filterMap (edgeOf v)

def Held (v : LONG) (es : List HidEvent) : Prop := Unmatched (edges v es)

def Fresh (nhi : NepHidItem) : Prop := ∀ v ∈ nhi.oldBuffer, v = 0

/-- What is expected of the events of a run: each key goes down and up in turn, and is down if it is in
the report; a rollover changes nothing. -/
def Balanced (nhi : NepHidItem) (rs : List (List LONG)) : Prop :=
  (∀ v ≠ 0, Alternate false (edges v (nhi.eventsOf rs))) ∧
  ∀ rs' r, rs' ++ [r] <+: rs →
    if nhi.rollsOver r then
      ((nhi.afterReports rs').processArray r).2 = [] ∧
        ∀ v, Held v (nhi.eventsOf (rs' ++ [r])) ↔ Held v (nhi.eventsOf rs')
    else ∀ v ≠ 0, Held v (nhi.eventsOf (rs' ++ [r])) ↔ nhi.inRange v = true ∧ v ∈ r

def Tidy (nhi : NepHidItem) (v : LONG) (old new : List LONG) : Prop :=
  nhi.inRange v = true → (v ∉ old → new.count v ≤ 1) ∧ (v ∉ new → old.count v ≤ 1)

theorem edges_append (es es' : List HidEvent) : edges v (es ++ es') = edges v es ++ edges v es' :=
  filterMap_append

theorem processArray_rolled (h : nhi.rollsOver r = true) :
    nhi.processArray r = ({ nhi with buffer := r }, []) := if_pos h

theorem processArray_none (h : nhi.rollsOver r = true) : (nhi.processArray r).2 = [] := by
  rw [processArray_rolled h]

theorem processArray_keeps (h : nhi.rollsOver r = true) :
    (nhi.processArray r).1.oldBuffer = nhi.oldBuffer := by
  rw [processArray_rolled h]

theorem processArray_oldBuffer (h : nhi.rollsOver r = false) :
    (nhi.processArray r).1.oldBuffer = r := by
  unfold processArray
  rw [if_neg (Bool.not_eq_true _ ▸ h)]

theorem processArray_events (h : nhi.rollsOver r = false) :
    (nhi.processArray r).2 =
      { nhi with buffer := r }.upEvents ++ { nhi with buffer := r }.downEvents := by
  unfold processArray
  rw [if_neg (Bool.not_eq_true _ ▸ h)]

theorem processArray_inRange (nhi : NepHidItem) (r : List LONG) :
    (nhi.processArray r).1.inRange = nhi.inRange := by
  unfold processArray
  dsimp only
  split <;> rfl

theorem processArray_rollsOver (nhi : NepHidItem) (r : List LONG) :
    (nhi.processArray r).1.rollsOver = nhi.rollsOver := by
  unfold processArray
  dsimp only
  split <;> rfl

theorem count_filter_eq (l : List LONG) (p : LONG → Bool) (v : LONG) :
    (l.filter p).count v = if p v = true then l.count v else 0 := by
  by_cases hp : p v = true
  · rw [if_pos hp, count_filter hp]
  · rw [if_neg hp]
    apply count_eq_zero_of_not_mem
    intro hin
    exact hp (mem_filter.mp hin).2

theorem edges_map (b : Bool) {event : LONG → HidEvent} {v : LONG}
    (hedge : ∀ w, edgeOf v (event w) = if w = v then some b else none) (l : List LONG) :
    edges v (l.map event) = List.replicate (l.count v) b := by
  induction l with
  | nil => rfl
  | cons w l ih =>
    rw [map_cons, ← singleton_append, edges_append, ih, count_cons]
    by_cases heq : w = v
    · simp [edges, hedge, heq, replicate_succ]
    · simp [edges, hedge, heq]

theorem edges_report (h : nhi.rollsOver r = false) (v : LONG) :
    edges v (nhi.processArray r).2 =
      List.replicate (if nhi.inRange v = true ∧ v ∉ r then nhi.oldBuffer.count v else 0) false ++
      List.replicate (if nhi.inRange v = true ∧ v ∉ nhi.oldBuffer then r.count v else 0) true := by
  rw [processArray_events h, edges_append]
  unfold upEvents downEvents
  rw [edges_map false fun _ => rfl, edges_map true fun _ => rfl, count_filter_eq, count_filter_eq]
  simp only [Bool.and_eq_true, Bool.not_eq_true', contains_eq_mem, decide_eq_false_iff_not]
  rfl

def NepHidItem.isDown (nhi : NepHidItem) (old : List LONG) (v : LONG) : Bool :=
  nhi.inRange v && old.contains v

theorem processArray_isDown (nhi : NepHidItem) (r : List LONG) :
    (nhi.processArray r).1.isDown = nhi.isDown := by
  unfold NepHidItem.isDown
  rw [processArray_inRange]

theorem processArray_tidy (nhi : NepHidItem) (r : List LONG) :
    Tidy (nhi.processArray r).1 = Tidy nhi := by
  unfold Tidy
  rw [processArray_inRange]

theorem level_report (h : nhi.rollsOver r = false) (v : LONG) :
    level (nhi.isDown nhi.oldBuffer v) (edges v (nhi.processArray r).2) = nhi.isDown r v := by
  rw [edges_report h]
  unfold NepHidItem.isDown
  cases hrange : nhi.inRange v with
  | false => rfl
  | true =>
    by_cases hold : v ∈ nhi.oldBuffer <;> by_cases hnew : v ∈ r
    · simp [hold, hnew]
    · simp [hold, hnew, level_replicate (count_pos_iff.mpr hold)]
    · simp [hold, hnew, level_replicate (count_pos_iff.mpr hnew)]
    · simp [hold, hnew, count_eq_zero_of_not_mem]

theorem alternate_report (h : nhi.rollsOver r = false) (v : LONG) :
    Alternate (nhi.isDown nhi.oldBuffer v) (edges v (nhi.processArray r).2) ↔
      Tidy nhi v nhi.oldBuffer r := by
  rw [edges_report h]
  unfold NepHidItem.isDown Tidy
  cases hrange : nhi.inRange v with
  | false => exact iff_of_true trivial (fun hrange => absurd hrange Bool.false_ne_true)
  | true =>
    by_cases hold : v ∈ nhi.oldBuffer <;> by_cases hnew : v ∈ r
    · simp [hold, hnew, Alternate]
    · simpa [hold, hnew] using @alternate_replicate false
    · simpa [hold, hnew] using @alternate_replicate true
    · simp [hold, hnew, Alternate, count_eq_zero_of_not_mem]

section

variable (nhi : NepHidItem)

theorem eventsOf_cons (r : List LONG) (rs : List (List LONG)) :
    nhi.eventsOf (r :: rs) = (nhi.processArray r).2 ++ (nhi.processArray r).1.eventsOf rs := rfl

theorem afterReports_append (rs rs' : List (List LONG)) :
    nhi.afterReports (rs ++ rs') = (nhi.afterReports rs).afterReports rs' := by
  induction rs generalizing nhi with
  | nil => rfl
  | cons r rs ih => exact ih _

theorem eventsOf_append (rs rs' : List (List LONG)) :
    nhi.eventsOf (rs ++ rs') = nhi.eventsOf rs ++ (nhi.afterReports rs).eventsOf rs' := by
  induction rs generalizing nhi with
  | nil => rfl
  | cons r rs ih =>
    rw [cons_append, eventsOf_cons, eventsOf_cons, ih, append_assoc]
    rfl

theorem afterReports_rollsOver (rs : List (List LONG)) :
    (nhi.afterReports rs).rollsOver = nhi.rollsOver := by
  induction rs generalizing nhi with
  | nil => rfl
  | cons r rs ih => exact (ih _).trans (processArray_rollsOver nhi r)

theorem level_eventsOf (rs : List (List LONG)) (v : LONG) :
    level (nhi.isDown nhi.oldBuffer v) (edges v (nhi.eventsOf rs)) =
      nhi.isDown (nhi.afterReports rs).oldBuffer v := by
  induction rs generalizing nhi with
  | nil => rfl
  | cons r rs ih =>
    have hnext := ih (nhi.processArray r).1
    rw [processArray_isDown] at hnext
    rw [eventsOf_cons, edges_append, level_append]
    cases hover : nhi.rollsOver r with
    | true =>
      rw [processArray_keeps hover] at hnext
      rw [processArray_none hover]
      exact hnext
    | false =>
      rw [processArray_oldBuffer hover] at hnext
      rw [level_report hover]
      exact hnext

end

/-- The reports of a run that count: the old values and those of each report that is no rollover. -/
def NepHidItem.counted (nhi : NepHidItem) (rs : List (List LONG)) : List (List LONG) :=
  nhi.oldBuffer :: rs.filter fun r => !nhi.rollsOver r

theorem alternate_eventsOf (nhi : NepHidItem) (rs : List (List LONG)) (v : LONG) :
    Alternate (nhi.isDown nhi.oldBuffer v) (edges v (nhi.eventsOf rs)) ↔
      (nhi.counted rs).IsChain (Tidy nhi v) := by
  induction rs generalizing nhi with
  | nil => exact iff_of_true trivial (isChain_singleton _)
  | cons r rs ih =>
    have hnext := ih (nhi.processArray r).1
    unfold NepHidItem.counted at hnext ⊢
    rw [processArray_isDown, processArray_rollsOver, processArray_tidy] at hnext
    rw [eventsOf_cons, edges_append, alternate_append]
    cases hover : nhi.rollsOver r with
    | true =>
      rw [processArray_keeps hover] at hnext
      rw [filter_cons_of_neg (by rw [hover]; decide), processArray_none hover, ← hnext]
      exact and_iff_right trivial
    | false =>
      rw [processArray_oldBuffer hover] at hnext
      rw [filter_cons_of_pos (by rw [hover]; rfl), isChain_cons_cons, alternate_report hover,
        level_report hover, hnext]

theorem isDown_fresh (hfresh : Fresh nhi) (hv : v ≠ 0) : nhi.isDown nhi.oldBuffer v = false := by
  unfold NepHidItem.isDown
  rw [Bool.and_eq_false_iff]
  right
  rw [contains_eq_mem, decide_eq_false_iff_not]
  exact fun hin => hv (hfresh v hin)

theorem afterReports_last (h : nhi.rollsOver r = false) (rs : List (List LONG)) :
    (nhi.afterReports (rs ++ [r])).oldBuffer = r := by
  rw [afterReports_append]
  rw [← afterReports_rollsOver nhi rs] at h
  exact processArray_oldBuffer h

theorem held_iff (hfresh : Fresh nhi) (h : nhi.rollsOver r = false) (hv : v ≠ 0)
    (halt : Alternate false (edges v (nhi.eventsOf (rs ++ [r])))) :
    Held v (nhi.eventsOf (rs ++ [r])) ↔ nhi.inRange v = true ∧ v ∈ r := by
  have hlevel := level_eventsOf nhi (rs ++ [r]) v
  rw [isDown_fresh hfresh hv, afterReports_last h] at hlevel
  unfold Held
  rw [halt.unmatched_iff, hlevel]
  unfold NepHidItem.isDown
  rw [Bool.and_eq_true, contains_eq_mem, decide_eq_true_iff]

theorem report_none (h : nhi.rollsOver r = true) (rs : List (List LONG)) :
    ((nhi.afterReports rs).processArray r).2 = [] := by
  rw [← afterReports_rollsOver nhi rs] at h
  exact processArray_none h

theorem eventsOf_last (nhi : NepHidItem) (rs : List (List LONG)) (r : List LONG) :
    nhi.eventsOf (rs ++ [r]) = nhi.eventsOf rs ++ ((nhi.afterReports rs).processArray r).2 := by
  rw [eventsOf_append, eventsOf_cons]
  exact congrArg _ (append_nil _)

/-- In every run of reports the keys are balanced if, and only if, no key comes or goes twice at
once. -/
theorem keys_balanced (nhi : NepHidItem) (rs : List (List LONG)) (hfresh : Fresh nhi) :
    Balanced nhi rs ↔ ∀ v ≠ 0, (nhi.counted rs).IsChain (Tidy nhi v) := by
  have halt : (∀ v ≠ 0, Alternate false (edges v (nhi.eventsOf rs))) ↔
      ∀ v ≠ 0, (nhi.counted rs).IsChain (Tidy nhi v) := by
    apply forall₂_congr
    intro v hv
    rw [← alternate_eventsOf, isDown_fresh hfresh hv]
  unfold Balanced
  rw [halt, and_iff_left_iff_imp]
  intro htidy rs' r hprefix
  cases hover : nhi.rollsOver r with
  | true =>
    rw [if_pos rfl, eventsOf_last, report_none hover]
    exact ⟨rfl, fun v => by rw [append_nil]⟩
  | false =>
    rw [if_neg Bool.false_ne_true]
    intro v hv
    -- the run up to this report is a part of the whole
    obtain ⟨rest, rfl⟩ := hprefix
    have hall := halt.mpr htidy v hv
    rw [eventsOf_append, edges_append, alternate_append] at hall
    exact held_iff hfresh hover hv hall.1

def keyboard : NepHidItem where
  isVariable := false
  offset := 16
  size := 8
  isSigned := false
  logicalMin := 0
  logicalMax := 5
  usage := 0
  usageMap := [0x00070000, 0x00070001, 0x00070002, 0x00070003, 0x00070004, 0x00070005]
  oldValue := 0
  buffer := [0, 0]
  oldBuffer := [0, 0]

theorem keyboard_fresh : Fresh keyboard := forall_mem_cons.mpr ⟨rfl, forall_mem_singleton.mpr rfl⟩

def typed : List (List LONG) := [[4, 5], [1, 1], [5, 0], [0, 0]]

theorem typed_tidy (v : LONG) (hv : v ≠ 0) : (keyboard.counted typed).IsChain (Tidy keyboard v) := by
  have hcounted : keyboard.counted typed = [[0, 0], [4, 5], [5, 0], [0, 0]] := rfl
  rw [hcounted]
  simp only [isChain_cons_cons, isChain_singleton, and_true]
  have hnone : [0, 0].count v ≤ 1 := by
    apply Nat.le_one_iff_eq_zero_or_eq_one.mpr
    left
    apply count_eq_zero_of_not_mem
    intro hin
    exact hv (eq_of_mem_replicate (show v ∈ List.replicate 2 0 from hin))
  have hboth : [4, 5].count v ≤ 1 := nodup_iff_count_le_one.mp (by decide) v
  have hlast : [5, 0].count v ≤ 1 := nodup_iff_count_le_one.mp (by decide) v
  exact ⟨fun _ => ⟨fun _ => hboth, fun _ => hnone⟩, fun _ => ⟨fun _ => hlast, fun _ => hboth⟩,
    fun _ => ⟨fun _ => hnone, fun _ => hlast⟩⟩

theorem keys_balanced_typed : Balanced keyboard typed :=
  (keys_balanced keyboard typed keyboard_fresh).mpr typed_tidy

/-- A key that is told twice goes down twice, and once up. -/
theorem keys_doubled :
    Fresh keyboard ∧ ¬ Balanced keyboard [[4, 4], [4, 0], [0, 0]] ∧
    edges 4 (keyboard.eventsOf [[4, 4], [4, 0], [0, 0]]) = [true, true, false] := by
  have hedges : edges 4 (keyboard.eventsOf [[4, 4], [4, 0], [0, 0]]) = [true, true, false] := by decide
  refine ⟨keyboard_fresh, fun hbalanced => ?_, hedges⟩
  have halt := hbalanced.1 4 (by decide)
  rw [hedges] at halt
  exact absurd halt.2.1 (by decide)

end Neptune.Hid
