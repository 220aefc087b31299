import Neptune.Spec.Enumerate

/-! Which failed enumerations are rolled back. -/

namespace Neptune.Enumerate

open PipeWait (IoErr Hub PsdDevice)
open PipeWait.PsdDevice (Reply)

structure Kept (s s' : Sys) : Prop where
  hasDevAddr : s'.pd.hasDevAddr = s.pd.hasDevAddr
  connected : s'.pd.connected = s.pd.connected
  pp : s'.pp = s.pp

theorem Kept.refl (s : Sys) : Kept s s := ⟨rfl, rfl, rfl⟩

theorem Kept.trans {s t u : Sys} (h : Kept s t) (h' : Kept t u) : Kept s u :=
  ⟨h'.hasDevAddr.trans h.hasDevAddr, h'.connected.trans h.connected, h'.pp.trans h.pp⟩

theorem psdWaitPipe_flags (pd : PsdDevice) (ioerr : IoErr) :
    (pd.psdWaitPipe ioerr).hasDevAddr = pd.hasDevAddr ∧ (pd.psdWaitPipe ioerr).connected = pd.connected := by
  unfold PsdDevice.psdWaitPipe PsdDevice.judge PsdDevice.countResult
  cases ioerr.score <;> dsimp only <;> split_ifs <;> exact ⟨rfl, rfl⟩

namespace Sys

variable (s : Sys) (answers : Answers) (usdd : List UInt8)

theorem pCtxDoOp_kept (ioerr : IoErr) : Kept s (s.pCtxDoOp ioerr).1 :=
  ⟨(psdWaitPipe_flags _ _).1, (psdWaitPipe_flags _ _).2, rfl⟩

theorem psdDoPipe_kept (reply : Reply) : Kept s (s.psdDoPipe reply).1 := by
  unfold Sys.psdDoPipe PsdDevice.psdDoPipe
  by_cases hconn : s.pd.connected = true
  · simp only [if_pos hconn]
    refine ⟨(psdWaitPipe_flags _ _).1.trans ?_, (psdWaitPipe_flags _ _).2.trans ?_, rfl⟩ <;> split <;> rfl
  · simp only [if_neg hconn]
    exact .refl s

theorem psdDoPipe_connected (reply : Reply) (h : s.pd.connected = true) : (s.psdDoPipe reply).2 = reply.ioerr := by
  simp only [Sys.psdDoPipe, PsdDevice.psdDoPipe, if_pos h]

theorem readFirst_kept (reply : Reply) : Kept s (s.readFirst reply usdd).1 := s.psdDoPipe_kept reply

theorem readFirst_ioerr (reply : Reply) (h : s.pd.connected = true) :
    (s.readFirst reply usdd).2.2 ≠ .none ↔ reply.ioerr ≠ .none ∧ reply.ioerr ≠ .runtPacket := by
  unfold readFirst
  simp only [s.psdDoPipe_connected reply h]
  by_cases hrunt : reply.ioerr = .runtPacket
  · simp [hrunt]
  · simp [hrunt]

theorem pAllocDevAddr_some {s s' : Sys} (h : s.pAllocDevAddr = some s') : Kept s s' := by
  unfold pAllocDevAddr at h
  split at h
  · cases h
    exact .refl s
  · obtain ⟨da, -, rfl⟩ := Option.map_eq_some_iff.mp h
    exact ⟨rfl, rfl, rfl⟩

theorem pAllocDevAddr_none {s : Sys} (h : s.pAllocDevAddr = none) : s.pd.devAddr = 0 := by
  unfold pAllocDevAddr at h
  by_contra hda
  rw [if_pos hda] at h
  exact nomatch h

/-- The address is still that of no device, and the flags are as they were. -/
structure Undone (s s' : Sys) : Prop where
  hasDevAddr : s'.pd.hasDevAddr = s.pd.hasDevAddr
  connected : s'.pd.connected = s.pd.connected
  devAddr : s'.pp.devAddr = 0

theorem Undone.kept {s s' s'' : Sys} (h : Undone s s') (h' : Kept s' s'') : Undone s s'' :=
  ⟨h'.hasDevAddr.trans h.hasDevAddr, h'.connected.trans h.connected, (congrArg PsdPipe.devAddr h'.pp).trans h.devAddr⟩

theorem pLegacyAddressDevice_undone (hlegacy : s.contextBackend = false) (hopened : s.Opened)
    (herr : (s.pLegacyAddressDevice answers usdd).2.2 ≠ .none) : Undone s (s.pLegacyAddressDevice answers usdd).1 := by
  unfold pLegacyAddressDevice at herr ⊢
  cases halloc : s.pAllocDevAddr with
  | none =>
    have haddr : s.pp.devAddr = 0 := by
      rcases hopened with h | h
      · exact h
      · rw [h, psdAllocPipeAddr, hlegacy, if_neg nofun, pAllocDevAddr_none halloc]
    exact ⟨rfl, rfl, haddr⟩
  | some s₁ =>
    rw [halloc] at herr
    dsimp only at herr ⊢
    have hkept := pAllocDevAddr_some halloc
    generalize hpp : (if s₁.pd.highSpeed then
      { s₁.pp with devAddr := 0, maxPktSize := 64, flags := s₁.pp.flags ||| UHFF_HIGHSPEED }
      else if s₁.pd.lowSpeed then
        { s₁.pp with devAddr := 0, maxPktSize := 8, flags := s₁.pp.flags ||| UHFF_LOWSPEED }
      else { s₁.pp with devAddr := 0, maxPktSize := 8 } : PsdPipe) = pp at herr ⊢
    have hzero : pp.devAddr = 0 := by
      rw [← hpp]
      split_ifs <;> rfl
    have hset : Undone s { s₁ with pp } := ⟨hkept.hasDevAddr, hkept.connected, hzero⟩
    replace hset := hset.kept (readFirst_kept _ usdd answers.read8)
    generalize { s₁ with pp }.readFirst answers.read8 usdd = first at herr hset ⊢
    split at herr
    · next hfirst =>
      rw [if_pos hfirst]
      exact hset
    · next hfirst =>
      rw [if_neg hfirst]
      have hsent := psdDoPipe_kept first.1 answers.setAddress
      generalize first.1.psdDoPipe answers.setAddress = sent at herr hsent ⊢
      have hagain : Kept first.1
          (if sent.2 = .timeout ∨ sent.2 = .stall then sent.1.psdDoPipe answers.setAddressAgain else sent).1 := by
        split
        · exact hsent.trans (psdDoPipe_kept _ _)
        · exact hsent
      generalize (if sent.2 = .timeout ∨ sent.2 = .stall then sent.1.psdDoPipe answers.setAddressAgain
        else sent) = again at herr hagain ⊢
      split at herr
      · next hagain' =>
        rw [if_pos hagain']
        exact hset.kept hagain
      · exact absurd rfl herr

def CreatedMute : Prop :=
  (∃ tt, s.translator = some tt ∧ (answers.create (s.createDevice tt)).ioerr = .none) ∧
    answers.read8.ioerr ≠ .none ∧ answers.read8.ioerr ≠ .runtPacket

theorem pContextAddressDevice_mute (h : s.CreatedMute answers) :
    (s.pContextAddressDevice answers usdd).2.2 ≠ .none ∧ (s.pContextAddressDevice answers usdd).1.pp = s.pp ∧
      (s.pContextAddressDevice answers usdd).1.pd.hasDevAddr = true ∧
      (s.pContextAddressDevice answers usdd).1.pd.connected = true := by
  obtain ⟨⟨tt, htt, hcreate⟩, hread⟩ := h
  unfold pContextAddressDevice
  rw [htt]
  simp only [hcreate, pCtxDoOp, ne_eq, not_true_eq_false, if_false]
  generalize hs : Sys.mk _ _ _ _ = created
  have hconn : created.pd.connected = true := by rw [← hs]
  have hkept := readFirst_kept created usdd answers.read8
  refine ⟨(readFirst_ioerr created usdd answers.read8 hconn).mpr hread, ?_, ?_, hkept.connected.trans hconn⟩
  · rw [hkept.pp, ← hs]
  · rw [hkept.hasDevAddr, ← hs]

theorem pContextAddressDevice_kept (h : ¬s.CreatedMute answers)
    (herr : (s.pContextAddressDevice answers usdd).2.2 ≠ .none) :
    Kept s (s.pContextAddressDevice answers usdd).1 := by
  unfold pContextAddressDevice at herr ⊢
  cases htt : s.translator with
  | none => exact .refl s
  | some tt =>
    rw [htt] at herr
    by_cases hcreate : (answers.create (s.createDevice tt)).ioerr = .none
    · simp only [pCtxDoOp, hcreate, ne_eq, not_true_eq_false, if_false] at herr
      exact absurd ⟨⟨tt, htt, hcreate⟩, (readFirst_ioerr _ usdd answers.read8 rfl).mp herr⟩ h
    · simp only [pCtxDoOp, ne_eq, hcreate, not_false_eq_true, if_true]
      exact s.pCtxDoOp_kept _

theorem Undone.rolledBack {s s' : Sys} (h : Undone s.withTimeout s') : RolledBack s (s'.restore s.pp) where
  hasDevAddr := fun hset => h.hasDevAddr ▸ hset
  connected := fun hset => h.connected ▸ hset
  flags := rfl
  nakTimeout := rfl
  devAddr := h.devAddr

theorem unassign_rolledBack (s' : Sys) : RolledBack s (s'.unassign.restore s.pp) :=
  ⟨nofun, nofun, rfl, rfl, rfl⟩

theorem describe_rolledBack {s' : Sys} (hnull : (s'.describe answers s.pp usdd).2 = false) :
    RolledBack s (s'.describe answers s.pp usdd).1 := by
  unfold describe at hnull ⊢
  split
  · exact unassign_rolledBack s _
  · next hmax =>
    rw [hmax] at hnull
    dsimp only at hnull ⊢
    split
    · exact unassign_rolledBack s _
    · next hupdate =>
      rw [if_neg hupdate] at hnull
      split
      · exact unassign_rolledBack s _
      · next hread =>
        rw [if_neg hread] at hnull
        exact nomatch hnull

theorem Undone.of_kept {s s' : Sys} (h : Kept s s') (hzero : s.pp.devAddr = 0) : Undone s s' :=
  ⟨h.hasDevAddr, h.connected, (congrArg PsdPipe.devAddr h.pp).trans hzero⟩

theorem hopAddressDevice_undone (hopened : s.Opened) (hno : ¬(s.contextBackend = true ∧ s.CreatedMute answers))
    (herr : (s.hopAddressDevice answers usdd).2.2 ≠ .none) : Undone s (s.hopAddressDevice answers usdd).1 := by
  unfold hopAddressDevice at herr ⊢
  split
  · next hcontext =>
    rw [if_pos hcontext] at herr
    have hzero : s.pp.devAddr = 0 := by
      rcases hopened with h | h
      · exact h
      · rw [h, psdAllocPipeAddr, if_pos hcontext]
    exact .of_kept (s.pContextAddressDevice_kept answers usdd (fun hmute => hno ⟨hcontext, hmute⟩) herr) hzero
  · next hlegacy =>
    rw [if_neg hlegacy] at herr
    exact s.pLegacyAddressDevice_undone answers usdd (eq_false_of_ne_true hlegacy) hopened herr

end Sys

/-- A failed enumeration is rolled back exactly where the device has not been stranded. -/
theorem rolled_back_iff (answers : Answers) (s : Sys) (hopened : s.Opened) :
    ((s.psdEnumerateDevice answers).2 = false → RolledBack s (s.psdEnumerateDevice answers).1) ↔
      ¬Stranded answers s := by
  unfold Sys.psdEnumerateDevice
  dsimp only
  by_cases hmute : s.contextBackend = true ∧ s.CreatedMute answers
  · obtain ⟨hcontext, hcreated, hread⟩ := hmute
    obtain ⟨herr, hpp, haddr, hconn⟩ :=
      s.withTimeout.pContextAddressDevice_mute answers (List.replicate 18 0) ⟨hcreated, hread⟩
    have hhop : s.withTimeout.hopAddressDevice answers (List.replicate 18 0) =
        s.withTimeout.pContextAddressDevice answers (List.replicate 18 0) := if_pos hcontext
    rw [hhop, if_pos herr]
    have hzero : s.pp.devAddr = 0 := by
      rcases hopened with h | h
      · exact h
      · rw [h, psdAllocPipeAddr, if_pos hcontext]
    constructor
    · rintro hall ⟨-, -, -, -, hflags⟩
      exact hflags ⟨(hall rfl).hasDevAddr haddr, (hall rfl).connected hconn⟩
    · intro hno _
      have hflags : s.pd.hasDevAddr ∧ s.pd.connected := by
        by_contra hflags
        exact hno ⟨hcontext, hcreated, hread.1, hread.2, hflags⟩
      exact ⟨fun _ => hflags.1, fun _ => hflags.2, rfl, rfl, (congrArg PsdPipe.devAddr hpp).trans hzero⟩
  · refine iff_of_true (fun hnull => ?_) fun h => hmute ⟨h.1, h.2.1, h.2.2.1, h.2.2.2.1⟩
    split
    · next herr => exact (s.withTimeout.hopAddressDevice_undone answers _ hopened hmute herr).rolledBack
    · next herr =>
      rw [if_neg herr] at hnull
      exact s.describe_rolledBack answers _ hnull

def fresh (contextBackend : Bool) : Sys where
  contextBackend := contextBackend
  taken := fun _ => false
  pd := ⟨[⟨true, 1, 0, 0⟩], 2, false, true, false, false, true, false, false, false, false, 0, 0, 0, 0, 8⟩
  pp := ⟨0x0042, 0, 0, 8⟩

def mute : Answers where
  read8 := ⟨false, .timeout, []⟩
  setAddress := ⟨false, .timeout, []⟩
  setAddressAgain := ⟨false, .timeout, []⟩
  create := fun _ => ⟨.none, 5, 77⟩
  updateEp0 := fun _ _ => .none
  read18 := ⟨false, .timeout, []⟩
  rest := fun _ s => s

theorem rolled_back_iff_mute : RolledBack (fresh false) ((fresh false).psdEnumerateDevice mute).1 :=
  (rolled_back_iff mute (fresh false) (.inl rfl)).mpr (fun h => nomatch h.1) (by decide)

/-- The device keeps `PDFF_HASDEVADDR` though there is none to be read from. -/
theorem stranded : ((fresh true).psdEnumerateDevice mute).2 = false ∧
    (fresh true).pd.hasDevAddr = false ∧ ((fresh true).psdEnumerateDevice mute).1.pd.hasDevAddr = true ∧
    ¬RolledBack (fresh true) ((fresh true).psdEnumerateDevice mute).1 :=
  ⟨by decide, by decide, by decide, fun h => absurd (h.hasDevAddr (by decide)) (by decide)⟩

end Neptune.Enumerate
