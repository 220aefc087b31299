import Neptune.Spec.Registry

/-! No controller and no class is registered twice exactly as long as an entry is linked where there
is none like it yet; and that is so when calls that add the same thing do not overlap. -/

namespace Neptune.Registry

open List Option Function

variable {τ : Type} [DecidableEq τ] {s s' s₀ : Registry τ} {e : AddEvent τ}
  {evs : List (AddEvent τ)} {t u v : τ}

structure NoTwins (s : Registry τ) : Prop where
  hardware : s.hardware.Pairwise fun a b => a.same b = false
  classes : s.classes.Pairwise fun a b => a.same b = false

def Unmatched (s : Registry τ) : AddEvent τ → Prop
  | .linkHardware t =>
    ∀ phw, s.pc t = .hardware phw true → pFindHardware s.hardware phw.devName phw.unit = none
  | .linkClass t copied _ =>
    ∀ name, s.pc t = .cls name → copied = true → findName s.classes name = none
  | _ => True

theorem pFindHardware_none {hardware : List PsdHardware} {phw : PsdHardware} :
    pFindHardware hardware phw.devName phw.unit = none ↔ ∀ x ∈ hardware, x.same phw = false := by
  simp [pFindHardware, PsdHardware.same]

theorem findName_none {classes : List PsdUsbClass} {name : List Char} {pri : ℤ} :
    findName classes name = none ↔ ∀ x ∈ classes, x.same ⟨some name, pri⟩ = false := by
  rw [findName, List.find?_eq_none]
  refine forall₂_congr fun x _ => ?_
  cases h : x.className <;> simp [PsdUsbClass.same, h]

theorem hardware_same_comm (a b : PsdHardware) : a.same b = b.same a :=
  psdHwMatch_comm _ _ _ _

theorem cls_same_comm {a b : PsdUsbClass} (h : a.same b = false) : b.same a = false := by
  cases ha : a.className <;> cases hb : b.className <;>
    simp_all [PsdUsbClass.same, eq_comm]

theorem same_unnamed (x : PsdUsbClass) (pri : ℤ) : x.same ⟨none, pri⟩ = false := by
  cases h : x.className <;> simp [PsdUsbClass.same, h]

theorem enqueue_perm (classes : List PsdUsbClass) (puc : PsdUsbClass) :
    (enqueue classes puc).Perm (puc :: classes) := by
  have h : (enqueue classes puc).Perm (puc :: (classes.takeWhile (fun x => puc.pri ≤ x.pri) ++
      classes.dropWhile fun x => puc.pri ≤ x.pri)) := perm_middle
  rwa [takeWhile_append_dropWhile] at h

theorem enqueue_pairwise (classes : List PsdUsbClass) (puc : PsdUsbClass) :
    (enqueue classes puc).Pairwise (fun a b => a.same b = false) ↔
      classes.Pairwise (fun a b => a.same b = false) ∧ ∀ x ∈ classes, x.same puc = false := by
  rw [(enqueue_perm classes puc).pairwise_iff cls_same_comm, pairwise_cons, and_comm]
  exact and_congr_right fun _ => forall₂_congr fun x _ => ⟨cls_same_comm, cls_same_comm⟩

theorem append_pairwise (hardware : List PsdHardware) (phw : PsdHardware) :
    (hardware ++ [phw]).Pairwise (fun a b => a.same b = false) ↔
      hardware.Pairwise (fun a b => a.same b = false) ∧ ∀ x ∈ hardware, x.same phw = false := by
  simp [pairwise_append]

/-- A step keeps the lists free of twins exactly when what it links is not there yet. -/
theorem step_noTwins (hi : s.NoTwins) (h : s.step e = some s') : s'.NoTwins ↔ s.Unmatched e := by
  have hkeep : s'.hardware = s.hardware → s'.classes = s.classes → s'.NoTwins := fun h1 h2 =>
    ⟨h1 ▸ hi.hardware, h2 ▸ hi.classes⟩
  cases e with
  | addHardware t name unit =>
    refine iff_of_true ?_ trivial
    simp only [step] at h
    split at h
    · split at h <;> obtain rfl := some.inj h <;> exact hkeep rfl rfl
    · obtain rfl := some.inj h
      exact hi
    · cases h
  | opened t =>
    refine iff_of_true ?_ trivial
    simp only [step] at h
    split at h
    · obtain rfl := some.inj h
      exact hkeep rfl rfl
    · cases h
  | linkHardware t =>
    simp only [step] at h
    split at h
    · rename_i phw hpc
      obtain rfl := some.inj h
      have hu : s.Unmatched (.linkHardware t) ↔ ∀ x ∈ s.hardware, x.same phw = false := by
        rw [← pFindHardware_none]
        refine ⟨fun hu => hu phw hpc, fun hu phw' hpc' => ?_⟩
        obtain ⟨rfl, -⟩ := AddPc.hardware.inj (hpc.symm.trans hpc')
        exact hu
      rw [hu]
      refine ⟨fun ht => ((append_pairwise _ _).mp ht.hardware).2, fun hx => ⟨?_, hi.classes⟩⟩
      exact (append_pairwise _ _).mpr ⟨hi.hardware, hx⟩
    · cases h
  | addClass t name openLibrary =>
    refine iff_of_true ?_ trivial
    simp only [step] at h
    split at h
    · split at h
      · obtain rfl := some.inj h
        exact hi
      · split at h <;> obtain rfl := some.inj h <;> exact hkeep rfl rfl
    · cases h
  | linkClass t copied pri =>
    simp only [step] at h
    split at h
    · rename_i name hpc
      obtain rfl := some.inj h
      have hu : s.Unmatched (.linkClass t copied pri) ↔
          ∀ x ∈ s.classes, x.same ⟨if copied then some name else none, pri⟩ = false := by
        cases copied with
        | false =>
          refine iff_of_true (fun _ _ hc => by cases hc) fun x _ => same_unnamed x pri
        | true =>
          have hf : (∀ x ∈ s.classes, x.same ⟨some name, pri⟩ = false) ↔
              findName s.classes name = none := findName_none.symm
          simp only [if_true, hf]
          refine ⟨fun hu => hu name hpc rfl, fun hu name' hpc' _ => ?_⟩
          obtain rfl := AddPc.cls.inj (hpc.symm.trans hpc')
          exact hu
      rw [hu]
      refine ⟨fun ht => ((enqueue_pairwise _ _).mp ht.classes).2, fun hx => ⟨hi.hardware, ?_⟩⟩
      exact (enqueue_pairwise _ _).mpr ⟨hi.classes, hx⟩
    · cases h
  | fail t =>
    refine iff_of_true ?_ trivial
    simp only [step] at h
    split at h
    · obtain rfl := some.inj h
      exact hkeep rfl rfl
    · obtain rfl := some.inj h
      exact hkeep rfl rfl
    · cases h
  | remHardware i =>
    refine iff_of_true ?_ trivial
    obtain rfl := some.inj h
    exact ⟨hi.hardware.sublist (eraseIdx_sublist _ _), hi.classes⟩
  | remClass i =>
    refine iff_of_true ?_ trivial
    obtain rfl := some.inj h
    exact ⟨hi.hardware, hi.classes.sublist (eraseIdx_sublist _ _)⟩

def Alone (s : Registry τ) : AddEvent τ → Prop
  | .addHardware _ name unit =>
    ∀ u phw opened, s.pc u = .hardware phw opened →
      psdHwMatch (some phw.devName) phw.unit name unit = false
  | .addClass _ name openLibrary =>
    ∀ u cls, s.pc u = .cls cls → openClass openLibrary true name ≠ some cls
  | _ => True

def Apart : AddPc → AddPc → Prop
  | .hardware phw _, .hardware phw' _ => phw.same phw' = false
  | .cls name, .cls name' => name ≠ name'
  | _, _ => True

theorem Apart.symm {a b : AddPc} (h : Apart a b) : Apart b a := by
  cases a <;> cases b <;> first | trivial | exact Ne.symm h | skip
  exact (hardware_same_comm _ _).trans h

def New (s : Registry τ) : AddPc → Prop
  | .hardware phw _ => ∀ x ∈ s.hardware, x.same phw = false
  | .cls name => ∀ x ∈ s.classes, x.className ≠ some name
  | .out => True

structure Solo (s : Registry τ) : Prop extends NoTwins s where
  new : ∀ u, s.New (s.pc u)
  apart : ∀ u v, u ≠ v → Apart (s.pc u) (s.pc v)

theorem Solo.goto {pc : AddPc} (hi : s.Solo) (hn : s.New pc)
    (ha : ∀ u, u ≠ t → Apart (s.pc u) pc) : (s.goto t pc).Solo := by
  refine ⟨⟨hi.hardware, hi.classes⟩, fun u => ?_, fun u v huv => ?_⟩
  · change s.New (update s.pc t pc u)
    rw [update_apply]
    split
    · exact hn
    · exact hi.new u
  · change Apart (update s.pc t pc u) (update s.pc t pc v)
    rw [update_apply, update_apply]
    split
    · rename_i hu
      rw [if_neg (hu ▸ huv.symm)]
      exact (ha v (hu ▸ huv.symm)).symm
    · rename_i hu
      split
      · exact ha u hu
      · exact hi.apart u v huv

theorem Solo.out (hi : s.Solo) (t : τ) : (s.goto t .out).Solo :=
  hi.goto trivial fun u _ => by cases s.pc u <;> trivial

theorem Solo.linkHardware {phw : PsdHardware} {opened : Bool} (hi : s.Solo)
    (hpc : s.pc t = .hardware phw opened) :
    ({ s with hardware := s.hardware ++ [phw] }.goto t .out).Solo := by
  have hnew : ∀ x ∈ s.hardware, x.same phw = false := by
    have := hi.new t
    rwa [hpc] at this
  have hout := hi.out t
  refine ⟨⟨(append_pairwise _ _).mpr ⟨hi.hardware, hnew⟩, hi.classes⟩, fun u => ?_, hout.apart⟩
  have hu := hout.new u
  change New _ (update s.pc t .out u) at hu ⊢
  rw [update_apply] at hu ⊢
  split at hu
  · rename_i h
    rw [if_pos h]
    trivial
  · rename_i h
    rw [if_neg h]
    have ha := hi.apart t u (Ne.symm h)
    rw [hpc] at ha
    cases hq : s.pc u with
    | out => trivial
    | cls => rwa [hq] at hu
    | hardware phw' b =>
      rw [hq] at hu ha
      intro x hx
      rcases mem_append.mp hx with hx | hx
      · exact hu x hx
      · rw [mem_singleton.mp hx]
        exact ha

theorem Solo.linkClass {name : List Char} (hi : s.Solo) (hpc : s.pc t = .cls name) (copied : Bool)
    (pri : ℤ) :
    ({ s with classes := enqueue s.classes ⟨if copied then some name else none, pri⟩ }.goto t
      .out).Solo := by
  have hnew : ∀ x ∈ s.classes, x.className ≠ some name := by
    have := hi.new t
    rwa [hpc] at this
  have hsame : ∀ x ∈ s.classes, x.same ⟨if copied then some name else none, pri⟩ = false := by
    intro x hx
    cases copied with
    | false => exact same_unnamed x pri
    | true => simp [PsdUsbClass.same, hnew x hx]
  have hout := hi.out t
  refine ⟨⟨hi.hardware, (enqueue_pairwise _ _).mpr ⟨hi.classes, hsame⟩⟩, fun u => ?_, hout.apart⟩
  have hu := hout.new u
  change New _ (update s.pc t .out u) at hu ⊢
  rw [update_apply] at hu ⊢
  split at hu
  · rename_i h
    rw [if_pos h]
    trivial
  · rename_i h
    rw [if_neg h]
    have ha := hi.apart t u (Ne.symm h)
    rw [hpc] at ha
    cases hq : s.pc u with
    | out => trivial
    | hardware => rwa [hq] at hu
    | cls name' =>
      rw [hq] at hu ha
      intro x hx
      rcases mem_cons.mp ((enqueue_perm _ _).mem_iff.mp hx) with rfl | hx
      · cases copied with
        | false => exact nofun
        | true => exact fun h => ha (some.inj h)
      · exact hu x hx

theorem step_solo (hi : s.Solo) (ha : s.Alone e) (h : s.step e = some s') : s'.Solo := by
  cases e with
  | addHardware t name unit =>
    simp only [step] at h
    split at h
    · rename_i n hpc
      split at h <;> obtain rfl := some.inj h
      · exact hi
      · rename_i hf
        refine hi.goto ?_ fun u _ => ?_
        · simpa [pFindHardware, PsdHardware.same, New] using hf
        · cases hq : s.pc u with
          | hardware phw b => simpa [Apart, PsdHardware.same] using ha u phw b hq
          | out | cls => trivial
    · obtain rfl := some.inj h
      exact hi
    · cases h
  | opened t =>
    simp only [step] at h
    split at h
    · rename_i phw hpc
      obtain rfl := some.inj h
      have hnew := hi.new t
      rw [hpc] at hnew
      refine hi.goto hnew fun u hu => ?_
      have := hi.apart u t hu
      rw [hpc] at this
      cases hq : s.pc u with
      | hardware => rwa [hq] at this
      | out | cls => trivial
    · cases h
  | linkHardware t =>
    simp only [step] at h
    split at h
    · rename_i phw hpc
      obtain rfl := some.inj h
      exact hi.linkHardware hpc
    · cases h
  | addClass t name openLibrary =>
    simp only [step] at h
    split at h
    · split at h
      · obtain rfl := some.inj h
        exact hi
      · rename_i cls ho
        split at h <;> obtain rfl := some.inj h
        · exact hi
        · rename_i hf
          refine hi.goto ?_ fun u _ => ?_
          · simpa [findName, New] using hf
          · cases hq : s.pc u with
            | cls name' =>
              rintro rfl
              exact ha u name' hq ho
            | out | hardware => trivial
    · cases h
  | linkClass t copied pri =>
    simp only [step] at h
    split at h
    · rename_i name hpc
      obtain rfl := some.inj h
      exact hi.linkClass hpc copied pri
    · cases h
  | fail t =>
    simp only [step] at h
    split at h
    · obtain rfl := some.inj h
      exact hi.out t
    · obtain rfl := some.inj h
      exact hi.out t
    · cases h
  | remHardware i =>
    obtain rfl := some.inj h
    have hsub : (s.hardware.eraseIdx i).Sublist s.hardware := eraseIdx_sublist _ _
    refine ⟨⟨hi.hardware.sublist hsub, hi.classes⟩, fun u => ?_, hi.apart⟩
    have hu := hi.new u
    change New _ (s.pc u)
    cases hq : s.pc u with
    | hardware phw b =>
      rw [hq] at hu
      exact fun x hx => hu x (hsub.subset hx)
    | cls name => rwa [hq] at hu
    | out => trivial
  | remClass i =>
    obtain rfl := some.inj h
    have hsub : (s.classes.eraseIdx i).Sublist s.classes := eraseIdx_sublist _ _
    refine ⟨⟨hi.hardware, hi.classes.sublist hsub⟩, fun u => ?_, hi.apart⟩
    have hu := hi.new u
    change New _ (s.pc u)
    cases hq : s.pc u with
    | cls name =>
      rw [hq] at hu
      exact fun x hx => hu x (hsub.subset hx)
    | hardware phw b => rwa [hq] at hu
    | out => trivial

structure Fresh (s : Registry τ) : Prop extends NoTwins s where
  out : ∀ t, s.pc t = .out

omit [DecidableEq τ] in
theorem Fresh.solo (h : s.Fresh) : s.Solo where
  toNoTwins := h.toNoTwins
  new := fun u => by
    rw [h.out u]
    trivial
  apart := fun u v _ => by
    rw [h.out u]
    trivial

/-- Along any events the lists stay free of twins exactly when whatever is linked is not there yet;
and they do in every run in which calls that add the same thing do not overlap. -/
theorem never_twice_iff (h0 : s₀.Fresh) (evs : List (AddEvent τ)) :
    (Runs.Always step (fun _ _ t => t.NoTwins) s₀ evs ↔
      Runs.Always step (fun s e _ => s.Unmatched e) s₀ evs) ∧
    ∀ s, Runs.Run step Alone s₀ evs s → s.NoTwins := by
  refine ⟨Runs.Always.invariant_iff (fun s e t => step_noTwins) h0.toNoTwins evs, fun s hr => ?_⟩
  have hi : s.Solo := hr.invariant Solo h0.solo fun _ _ _ hi ha hs => step_solo hi ha hs
  exact hi.toNoTwins

def noneAdded : Registry Bool := ⟨[], [], fun _ => .out⟩

theorem noneAdded_fresh : noneAdded.Fresh := ⟨⟨.nil, .nil⟩, fun _ => rfl⟩

def xhci : List Char := "xhci.device".toList

def inTurn : List (AddEvent Bool) :=
  [.addHardware true (some ("DEVS:USBHardware/XHCI.device".toList)) 0, .opened true,
    .linkHardware true, .addHardware false (some xhci) 0]

theorem never_twice_inTurn :
    (Runs.Always step (fun _ _ t => t.NoTwins) noneAdded inTurn ↔
      Runs.Always step (fun s e _ => s.Unmatched e) noneAdded inTurn) ∧
    ∀ s, Runs.Run step Alone noneAdded inTurn s → s.NoTwins :=
  never_twice_iff noneAdded_fresh inTurn

/-- Two tasks add the same controller, and both test before either links it; so with a class. -/
theorem twice_added :
    noneAdded.Fresh ∧
      (∃ s, Runs.Run step Runs.anyStep noneAdded
          [.addHardware true (some xhci) 0, .addHardware false (some xhci) 0, .opened true,
            .linkHardware true, .opened false, .linkHardware false] s ∧
        s.hardware = [⟨xhci, 0⟩, ⟨xhci, 0⟩] ∧ ¬ s.NoTwins) ∧
      ∃ s, Runs.Run step Runs.anyStep noneAdded
          [.addClass true ['h'] some, .addClass false ['h'] some, .linkClass true true 0,
            .linkClass false true 0] s ∧
        s.classes = [⟨some ['h'], 0⟩, ⟨some ['h'], 0⟩] ∧ ¬ s.NoTwins := by
  refine ⟨noneAdded_fresh, ⟨_, Runs.Run.get rfl, rfl, ?_⟩, ⟨_, Runs.Run.get rfl, rfl, ?_⟩⟩
  · intro h
    have := pairwise_pair.mp h.hardware
    revert this
    decide
  · intro h
    have := pairwise_pair.mp h.classes
    revert this
    decide

end Neptune.Registry
