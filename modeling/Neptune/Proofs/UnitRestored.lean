import Neptune.Lib.Run
import Neptune.Spec.UvcCtrl

/-! What is in force in the H.264 unit while no stream of an embedded mode runs. -/

namespace Neptune.UvcCtrl

open Uvc Runs

structure H264Unit where
  probe : List UInt8
  inForce : List UInt8
  deriving DecidableEq, Repr

namespace H264Unit

variable (unit : H264Unit)

def set (cfg : List UInt8) (makes : List UInt8 → Except UsbError (List UInt8)) : H264Unit × Option UsbError :=
  match makes cfg with
  | .error ioerr => (unit, some ioerr)
  | .ok takes => ({ unit with probe := takes }, none)

def get (buf : List UInt8) (n : ℕ) : List UInt8 := receive buf cfgSize (unit.probe.take n)

def commit (cfg : List UInt8) : Option UsbError → H264Unit × Option UsbError
  | some ioerr => (unit, some ioerr)
  | none => ({ unit with inForce := cfg }, none)

def embedCommit (cfg : List UInt8) (makes : List UInt8 → Except UsbError (List UInt8)) (ioerr : Option UsbError) :
    H264Unit × Option UsbError :=
  match unit.set cfg makes with
  | (unit, some ioerr) => (unit, some ioerr)
  | (unit, none) => unit.commit cfg ioerr

def restore (was : List UInt8) : H264Unit := (unit.embedCommit was .ok none).1

end H264Unit

structure Embedding where
  unit : H264Unit
  format : Option Bool
  embed : List UInt8
  /-- `ns_Streaming`: whether the mode of the stream is an embedded one. -/
  stream : Option Bool
  before : H264Unit

/-- The answers to the requests of a negotiation; the restoring ones are taken. -/
structure NegotiateAnswers where
  has : Except UsbError ℕ
  set : List UInt8 → Except UsbError (List UInt8)
  takes : Except UsbError ℕ
  commitProbe : List UInt8 → Except UsbError (List UInt8)
  commit : Option UsbError
  negotiate : Except UvError Bool

structure EmbedRequest where
  frame : UvcFrame
  interval : ℕ
  bitrate : ℕ
  keyinterval : ℕ

def Embedding.asked (s : Embedding) (r : EmbedRequest) (n : ℕ) : List UInt8 :=
  wanted (s.unit.get [] n) r.frame r.interval r.bitrate r.keyinterval

def Embedding.negotiateEmbedded (s : Embedding) (r : EmbedRequest) (o : NegotiateAnswers) :
    Embedding × Option UvError :=
  match o.has with
  | .error ioerr => (s, some (refusal ioerr))
  | .ok n =>
    let was := s.unit.get [] n
    let cfg := s.asked r n
    match s.unit.set cfg o.set with
    | (unit, some ioerr) => ({ s with unit := unit }, some (refusal ioerr))
    | (unit, none) =>
      match o.takes with
      | .error ioerr => ({ s with unit := unit }, some (refusal ioerr))
      | .ok m =>
        let cfg := unit.get cfg m
        if takesSize cfg r.frame then
          match unit.embedCommit cfg o.commitProbe o.commit with
          | (unit, some ioerr) => ({ s with unit := unit }, some (refusal ioerr))
          | (unit, none) =>
            let s := { s with unit := unit.restore was }
            match o.negotiate with
            | .error err => (s, some err)
            | .ok embedded => ({ s with format := some embedded, embed := cfg }, none)
        else ({ s with unit := unit }, some .refused)

/-- The outcomes of what `uvcStart` does: the requests, the alternate setting, the memory, the transport. -/
structure StartAnswers where
  embedProbe : List UInt8 → Except UsbError (List UInt8)
  embedCommit : Option UsbError
  commit : Option UsbError
  bandwidth : Bool
  memory : Bool
  transport : Option UsbError

def StartAnswers.starts (o : StartAnswers) : Bool :=
  o.commit.isNone && o.bandwidth && o.memory && o.transport.isNone

inductive StartError
  | busy
  | noMode
  | refused
  | usb
  | noBandwidth
  deriving DecidableEq, Repr

def startRefusal : UsbError → StartError
  | .stall => .refused
  | .other => .usb

def Embedding.startCommitted (s : Embedding) (embedded : Bool) (before : H264Unit) (o : StartAnswers) :
    Embedding × Option StartError :=
  match o.commit with
  | some ioerr => (s, some (startRefusal ioerr))
  | none =>
    if !o.bandwidth then (s, some .noBandwidth)
    else if o.memory && o.transport.isNone then ({ s with stream := some embedded, before := before }, none)
    else (s, some .usb)

def Embedding.start (s : Embedding) (o : StartAnswers) : Embedding × Option StartError :=
  match s.stream, s.format with
  | some _, _ => (s, some .busy)
  | none, none => (s, some .noMode)
  | none, some false => s.startCommitted false s.unit o
  | none, some true =>
    match s.unit.embedCommit s.embed o.embedProbe o.embedCommit with
    | (unit, some ioerr) => ({ s with unit := unit }, some (startRefusal ioerr))
    | (unit, none) => { s with unit := unit }.startCommitted true s.unit o

def Embedding.stop (s : Embedding) : Embedding :=
  match s.stream with
  | none => s
  | some embedded => { s with unit := if embedded then s.before else s.unit, stream := none }

/-- The calls of one unit; a plain mode may be negotiated as well. -/
inductive EmbedCall
  | negotiateEmbedded (r : EmbedRequest) (o : NegotiateAnswers)
  | negotiate (result : Except UvError Bool)
  | start (o : StartAnswers)
  | stop

def Embedding.step (s : Embedding) : EmbedCall → Option Embedding
  | .negotiateEmbedded r o => some (s.negotiateEmbedded r o).1
  | .negotiate (.error _) => some s
  | .negotiate (.ok embedded) => some { s with format := some embedded }
  | .start o => some (s.start o).1
  | .stop => some s.stop

def Restored (own : List UInt8) (s : Embedding) : Prop := s.stream ≠ some true → s.unit.inForce = own

/-- A negotiation that comes as far as to restore has been told what is in force; a start that fails behind
its commit to the unit has changed nothing by that. -/
def Clean (s : Embedding) : EmbedCall → Prop
  | .negotiateEmbedded r o =>
    s.stream ≠ some true → ∀ n m takes taken, o.has = .ok n → o.set (s.asked r n) = .ok takes → o.takes = .ok m →
      takesSize (H264Unit.get { s.unit with probe := takes } (s.asked r n) m) r.frame = true →
      o.commitProbe (H264Unit.get { s.unit with probe := takes } (s.asked r n) m) = .ok taken → o.commit = none →
      s.unit.get [] n = s.unit.inForce
  | .start o =>
    s.stream = none → s.format = some true → ∀ taken, o.embedProbe s.embed = .ok taken → o.embedCommit = none →
      o.starts = false → s.embed = s.unit.inForce
  | _ => True

def Embedding.idle (unit : H264Unit) (format : Option Bool) (embed : List UInt8) : Embedding :=
  ⟨unit, format, embed, none, unit⟩

def Keeps (own : List UInt8) (s : Embedding) : Prop :=
  (s.stream = some true → s.before.inForce = own) ∧ Restored own s

variable {own : List UInt8} {s : Embedding}

theorem set_error {unit : H264Unit} {cfg : List UInt8} {makes : List UInt8 → Except UsbError (List UInt8)}
    {ioerr : UsbError} (h : makes cfg = .error ioerr) : unit.set cfg makes = (unit, some ioerr) := by
  rw [H264Unit.set, h]

theorem set_ok {unit : H264Unit} {cfg takes : List UInt8} {makes : List UInt8 → Except UsbError (List UInt8)}
    (h : makes cfg = .ok takes) : unit.set cfg makes = ({ unit with probe := takes }, none) := by
  rw [H264Unit.set, h]

theorem negotiateEmbedded_stream (s : Embedding) (r : EmbedRequest) (o : NegotiateAnswers) :
    (s.negotiateEmbedded r o).1.stream = s.stream ∧ (s.negotiateEmbedded r o).1.before = s.before := by
  unfold Embedding.negotiateEmbedded
  split
  · exact ⟨rfl, rfl⟩
  · dsimp only
    split
    · exact ⟨rfl, rfl⟩
    · split
      · exact ⟨rfl, rfl⟩
      · split
        · split
          · exact ⟨rfl, rfl⟩
          · split <;> exact ⟨rfl, rfl⟩
        · exact ⟨rfl, rfl⟩

theorem negotiateEmbedded_inForce (s : Embedding) (r : EmbedRequest) (o : NegotiateAnswers)
    (hstream : s.stream ≠ some true) :
    (s.negotiateEmbedded r o).1.unit.inForce = s.unit.inForce ↔ Clean s (.negotiateEmbedded r o) := by
  unfold Embedding.negotiateEmbedded
  match hhas : o.has with
  | .error ioerr =>
    refine iff_of_true rfl fun _ n m takes taken h => ?_
    rw [hhas] at h
    cases h
  | .ok n =>
    dsimp only
    match hset : o.set (s.asked r n) with
    | .error ioerr =>
      rw [set_error hset]
      refine iff_of_true rfl fun _ n' m takes taken h h' => ?_
      cases hhas.symm.trans h
      cases hset.symm.trans h'
    | .ok takes =>
      rw [set_ok hset]
      match htakes : o.takes with
      | .error ioerr =>
        refine iff_of_true rfl fun _ n' m takes taken h h' h'' => ?_
        cases htakes.symm.trans h''
      | .ok m =>
        dsimp only
        by_cases hsize : takesSize (H264Unit.get { s.unit with probe := takes } (s.asked r n) m) r.frame = true
        · rw [if_pos hsize]
          match hprobe : o.commitProbe (H264Unit.get { s.unit with probe := takes } (s.asked r n) m) with
          | .error ioerr =>
            rw [H264Unit.embedCommit, set_error hprobe]
            refine iff_of_true rfl fun _ n' m' takes' taken h h' h'' _ hp => ?_
            cases hhas.symm.trans h
            cases htakes.symm.trans h''
            cases hset.symm.trans h'
            cases hprobe.symm.trans hp
          | .ok taken =>
            rw [H264Unit.embedCommit, set_ok hprobe]
            match hcommit : o.commit with
            | some ioerr =>
              refine iff_of_true rfl fun _ n' m' takes' taken h h' h'' _ hp hc => ?_
              cases hcommit.symm.trans hc
            | none =>
              dsimp only [H264Unit.commit]
              constructor
              · intro hsame _ n' m' takes' taken' h _ _ _ _ _
                cases hhas.symm.trans h
                split at hsame <;> exact hsame
              · intro hclean
                have hread := hclean hstream n m takes taken hhas hset htakes hsize hprobe hcommit
                split <;> exact hread
        · rw [if_neg hsize]
          refine iff_of_true rfl fun _ n' m' takes' taken h h' h'' hs => ?_
          cases hhas.symm.trans h
          cases htakes.symm.trans h''
          cases hset.symm.trans h'
          exact absurd hs hsize

theorem startCommitted_cases (s : Embedding) (embedded : Bool) (before : H264Unit) (o : StartAnswers) :
    (o.starts = true ∧ (s.startCommitted embedded before o).1 = { s with stream := some embedded, before := before }) ∨
      (o.starts = false ∧ (s.startCommitted embedded before o).1 = s) := by
  unfold Embedding.startCommitted StartAnswers.starts
  cases o.commit with
  | some ioerr => exact .inr ⟨rfl, rfl⟩
  | none =>
    cases o.bandwidth
    · exact .inr ⟨rfl, rfl⟩
    · by_cases hgo : (o.memory && o.transport.isNone) = true
      · refine .inl ⟨?_, congrArg Prod.fst (if_pos hgo)⟩
        exact hgo
      · refine .inr ⟨?_, congrArg Prod.fst (if_neg hgo)⟩
        exact eq_false_of_ne_true hgo

theorem Keeps.start (h : Keeps own s) (o : StartAnswers) :
    (Restored own (s.start o).1 ↔ Clean s (.start o)) ∧ (Restored own (s.start o).1 → Keeps own (s.start o).1) := by
  have hsame : Clean s (.start o) → (Restored own s ↔ Clean s (.start o)) ∧ (Restored own s → Keeps own s) :=
    fun hclean => ⟨iff_of_true h.2 hclean, fun _ => h⟩
  obtain ⟨unit, format, embed, stream, before⟩ := s
  match stream, format with
  | some embedded, _ => exact hsame nofun
  | none, none => exact hsame nofun
  | none, some false =>
    unfold Embedding.start
    obtain ⟨-, hrun⟩ | ⟨-, hrun⟩ := startCommitted_cases ⟨unit, some false, embed, none, before⟩ false unit o
    · rw [hrun]
      exact ⟨iff_of_true (fun _ => h.2 nofun) nofun, fun hr => ⟨nofun, hr⟩⟩
    · rw [hrun]
      exact hsame nofun
  | none, some true =>
    have hunit : unit.inForce = own := h.2 nofun
    unfold Embedding.start
    match hprobe : o.embedProbe embed with
    | .error ioerr =>
      rw [H264Unit.embedCommit, set_error hprobe]
      refine ⟨iff_of_true (fun _ => hunit) fun _ _ taken htaken => ?_, fun hr => ⟨nofun, hr⟩⟩
      cases hprobe.symm.trans htaken
    | .ok taken =>
      rw [H264Unit.embedCommit, set_ok hprobe]
      match hcommit : o.embedCommit with
      | some ioerr =>
        refine ⟨iff_of_true (fun _ => hunit) fun _ _ taken htaken hnone => ?_, fun hr => ⟨nofun, hr⟩⟩
        cases hcommit.symm.trans hnone
      | none =>
        dsimp only [H264Unit.commit]
        obtain ⟨hstarts, hrun⟩ | ⟨hstarts, hrun⟩ := startCommitted_cases
          ⟨⟨taken, embed⟩, some true, embed, none, before⟩ true unit o
        · rw [hrun]
          refine ⟨iff_of_true (fun hnot => absurd rfl hnot) fun _ _ taken _ _ hfails => ?_,
            fun hr => ⟨fun _ => hunit, hr⟩⟩
          cases hstarts.symm.trans hfails
        · rw [hrun]
          refine ⟨⟨fun hr _ _ taken _ _ _ => ?_, fun hclean _ => ?_⟩, fun hr => ⟨nofun, hr⟩⟩
          · exact (hr nofun).trans hunit.symm
          · exact (hclean rfl rfl taken hprobe hcommit hstarts).trans hunit

theorem Keeps.stop (h : Keeps own s) : Keeps own s.stop := by
  obtain ⟨hbefore, hrestored⟩ := h
  unfold Embedding.stop
  match hstream : s.stream with
  | none => exact ⟨hbefore, hrestored⟩
  | some true => exact ⟨nofun, fun _ => hbefore hstream⟩
  | some false => exact ⟨nofun, fun _ => hrestored (by rw [hstream]; nofun)⟩

theorem Keeps.step {t : Embedding} {c : EmbedCall} (h : Keeps own s) (hstep : s.step c = some t) :
    (Restored own t ↔ Clean s c) ∧ (Restored own t → Keeps own t) := by
  cases c with
  | negotiateEmbedded r o =>
    cases hstep
    obtain ⟨hstream, hbefore⟩ := negotiateEmbedded_stream s r o
    refine ⟨?_, fun hr => ⟨fun hrun => ?_, hr⟩⟩
    · by_cases hrun : s.stream = some true
      · exact iff_of_true (fun hnot => absurd (hstream.trans hrun) hnot) fun hnot => absurd hrun hnot
      · rw [← negotiateEmbedded_inForce s r o hrun]
        exact ⟨fun hr => (hr (hstream ▸ hrun)).trans (h.2 hrun).symm, fun heq _ => heq.trans (h.2 hrun)⟩
    · rw [hbefore]
      exact h.1 (hstream.symm.trans hrun)
  | negotiate result =>
    have hkeeps : Keeps own t := by
      cases result <;> (cases hstep; exact ⟨h.1, h.2⟩)
    exact ⟨iff_of_true hkeeps.2 trivial, fun _ => hkeeps⟩
  | start o =>
    cases hstep
    exact h.start o
  | stop =>
    cases hstep
    exact ⟨iff_of_true h.stop.2 trivial, fun _ => h.stop⟩

/-- In a run the unit has what it had whenever no stream of an embedded mode runs, exactly when every call is
clean. -/
theorem unit_restored_iff (unit : H264Unit) (format : Option Bool) (embed : List UInt8) (calls : List EmbedCall) :
    Always Embedding.step (fun _ _ t => Restored unit.inForce t) (.idle unit format embed) calls ↔
      Always Embedding.step (fun s c _ => Clean s c) (.idle unit format embed) calls := by
  have hidle : Keeps unit.inForce (.idle unit format embed) := ⟨nofun, fun _ => rfl⟩
  generalize Embedding.idle unit format embed = s at hidle ⊢
  induction calls generalizing s with
  | nil => exact Iff.rfl
  | cons c calls ih =>
    refine forall₂_congr fun t ht => ?_
    obtain ⟨hiff, hkeeps⟩ := hidle.step ht
    change Restored unit.inForce t ∧ _ ↔ Clean s c ∧ _
    rw [← hiff]
    exact and_congr_right fun hr => ih t (hkeeps hr)

def plainUnit : H264Unit := ⟨List.replicate cfgSize 0, List.replicate cfgSize 0⟩

def vgaRequest : EmbedRequest := ⟨⟨1, 1, 640, 480, 333333, ⟨.null, 0⟩⟩, 333333, 0, 0⟩

def commitRefused : List EmbedCall :=
  [.negotiateEmbedded vgaRequest ⟨.ok cfgSize, .ok, .ok cfgSize, .ok, none, .ok true⟩,
    .start ⟨.ok, none, some .stall, true, true, none⟩]

/-- The unit goes on putting H.264 into the frames of everybody else. -/
theorem start_leaves_switched_on :
    ∃ t, exec Embedding.step (.idle plainUnit none []) commitRefused = some t ∧ t.stream = none ∧
      t.unit.inForce ≠ plainUnit.inForce ∧ t.unit.inForce.getD 33 0 = UInt8.ofNat (UVCXMF_ENABLE ||| UVCXMF_H264) :=
  ⟨_, rfl, rfl, by decide, by decide⟩

end Neptune.UvcCtrl
