import Neptune.Spec.UvcCtrl

/-! The mode a unit is left with is one of the camera's, but for H.264 inside MJPEG frames, where the
camera's answer for the carrier and the unit's answer are not compared. -/

namespace Neptune.UvcCtrl

open List Option

open Uvc

variable {uf : UvcFunction} {us : UvcStreamDesc} {ufo : UvcFormat} {ncv : NepClassVideo} {ns : NepVideoStream}
  {mode : UvcMode} {err : Option UvError} {uvq : UsbVideoModeReq} {f k interval : ℕ}

theorem findFrom_spec {α : Type} {p : α → Option Bool} {xs : List α} (n i : ℕ)
    (h : findFrom p xs i n = some (some k)) :
    i ≤ k ∧ k < i + n ∧ ∃ x, xs[k]? = some x ∧ p x = some true := by
  induction n generalizing i with
  | zero => exact absurd h nofun
  | succ n ih =>
    obtain ⟨x, hx, h⟩ := bind_eq_some_iff.mp h
    obtain ⟨fits, hfits, h⟩ := bind_eq_some_iff.mp h
    cases fits with
    | true =>
      obtain rfl : i = k := by simpa using h
      exact ⟨le_rfl, by omega, x, hx, hfits⟩
    | false =>
      obtain ⟨hle, hlt, hfound⟩ := ih (i + 1) h
      exact ⟨by omega, by omega, hfound⟩

def FormatOf (us : UvcStreamDesc) (f : ℕ) : Prop := us.formats ≤ f ∧ f < us.formats + us.numFormats

def FrameOf (ufo : UvcFormat) (k : ℕ) : Prop := ufo.frames ≤ k ∧ k < ufo.frames + ufo.numFrames

theorem bestFormatFrom_spec {formats : List UvcFormat} (n i : ℕ) (best : Option (ℕ × ℕ)) {P : ℕ → Prop}
    (hbest : ∀ b ∈ best, P b.1)
    (hP : ∀ j ufo, i ≤ j → j < i + n → formats[j]? = some ufo → uvcIsStreamable ufo = true → P j)
    (h : bestFormatFrom formats best i n = some (some f)) : P f := by
  induction n generalizing i best with
  | zero =>
    obtain ⟨b, hb, rfl⟩ := map_eq_some_iff.mp (some.inj h)
    exact hbest b hb
  | succ n ih =>
    have hP' : ∀ j ufo, i + 1 ≤ j → j < i + 1 + n → formats[j]? = some ufo → uvcIsStreamable ufo = true → P j :=
      fun j ufo hle hlt => hP j ufo (by omega) (by omega)
    obtain ⟨ufo, hufo, h⟩ := bind_eq_some_iff.mp h
    split at h
    · next hbetter =>
      refine ih (i + 1) _ ?_ hP' h
      rintro _ ⟨⟩
      exact hP i ufo le_rfl (by omega) hufo (Bool.and_eq_true_iff.mp hbetter).1
    · exact ih (i + 1) best hbest hP' h

theorem uvcFindFormat_spec {fourcc : ℕ} (h : uvcFindFormat uf us fourcc = some (some f)) :
    FormatOf us f ∧ ∃ ufo, uf.formats[f]? = some ufo ∧ uvcIsStreamable ufo = true := by
  unfold uvcFindFormat at h
  split at h
  · obtain ⟨hle, hlt, ufo, hufo, hfits⟩ := findFrom_spec _ _ h
    refine ⟨⟨hle, hlt⟩, ufo, hufo, ?_⟩
    by_contra hnot
    rw [if_neg hnot] at hfits
    exact absurd hfits nofun
  · refine bestFormatFrom_spec _ _ none
      (P := fun j => FormatOf us j ∧ ∃ ufo, uf.formats[j]? = some ufo ∧ uvcIsStreamable ufo = true) nofun ?_ h
    exact fun j ufo hle hlt hufo hstream => ⟨⟨hle, hlt⟩, ufo, hufo, hstream⟩

theorem uvcFindFrame_spec {width height : ℕ} (h : uvcFindFrame uf ufo width height = some (some k)) :
    FrameOf ufo k := by
  obtain ⟨found, hfound, h⟩ := bind_eq_some_iff.mp h
  cases found with
  | some j =>
    obtain rfl : j = k := by simpa using h
    obtain ⟨hle, hlt, -⟩ := findFrom_spec _ _ hfound
    exact ⟨hle, hlt⟩
  | none =>
    dsimp only at h
    split at h
    · exact absurd h nofun
    · next hsome =>
      obtain rfl : ufo.frames = k := by simpa using h
      exact ⟨le_rfl, by omega⟩

theorem uvcDefaultFrame_spec {width height : ℕ} (h : uvcDefaultFrame uf ufo width height = some (some k)) :
    FrameOf ufo k := by
  obtain ⟨users, husers, h⟩ := bind_eq_some_iff.mp h
  cases users with
  | some j =>
    obtain rfl : j = k := by simpa using h
    split at husers
    · exact uvcFindFrame_spec husers
    · exact absurd husers nofun
  | none => exact uvcFindFrame_spec h

theorem asked_spec (h : asked ncv ns uvq = some (some (f, k, interval))) :
    FormatOf ns.desc f ∧ ∃ ufo, ncv.function.formats[f]? = some ufo ∧ uvcIsStreamable ufo = true ∧ FrameOf ufo k := by
  obtain ⟨found, hfound, h⟩ := bind_eq_some_iff.mp h
  cases found with
  | none => exact absurd h nofun
  | some g =>
    obtain ⟨ufo, hufo, h⟩ := bind_eq_some_iff.mp h
    obtain ⟨frame, hframe, h⟩ := bind_eq_some_iff.mp h
    cases frame with
    | none => exact absurd h nofun
    | some j =>
      obtain ⟨ufr, hufr, h⟩ := bind_eq_some_iff.mp h
      obtain ⟨snapped, hsnapped, h⟩ := bind_eq_some_iff.mp h
      obtain ⟨rfl, rfl, rfl⟩ : g = f ∧ j = k ∧ snapped = interval := by simpa using h
      obtain ⟨hof, ufo', hufo', hstream⟩ := uvcFindFormat_spec hfound
      obtain rfl : ufo' = ufo := some.inj (hufo'.symm.trans hufo)
      refine ⟨hof, ufo', hufo, hstream, ?_⟩
      split at hframe
      · exact uvcFindFrame_spec hframe
      · exact uvcDefaultFrame_spec hframe

/-- The alternate setting carries `payloadsize` bytes an interval; a bulk one as many as there are. -/
def Carries (ncv : NepClassVideo) (payloadsize i : ℕ) : Prop :=
  ∃ pep, ncv.alternates[i]? = some (some pep) ∧ (pep.transferType = .bulk ∨
    pep.transferType = .isochronous ∧ payloadsize ≤ uvcCapacity ncv.superspeed pep)

theorem findAlternateFrom_spec {payloadsize : ℕ} (before alts : List (Option PsdEndpoint)) (bestcap : ℕ)
    (bestif : Option ℕ) (hall : ncv.alternates = before ++ alts) (hbest : ∀ b ∈ bestif, Carries ncv payloadsize b)
    (h : findAlternateFrom ncv.superspeed payloadsize bestcap bestif before.length alts = some k) :
    Carries ncv payloadsize k := by
  induction alts generalizing before bestcap bestif with
  | nil => exact hbest k h
  | cons alt alts ih =>
    have hall' : ncv.alternates = (before ++ [alt]) ++ alts := by rw [hall, append_assoc]; rfl
    have hlen : (before ++ [alt]).length = before.length + 1 := by simp
    have hget : ncv.alternates[before.length]? = some alt := by
      rw [hall, List.getElem?_append_right le_rfl, Nat.sub_self]
      rfl
    cases alt with
    | none => exact ih (before ++ [none]) bestcap bestif hall' hbest (by rw [hlen]; exact h)
    | some pep =>
      unfold findAlternateFrom at h
      split at h
      · next hbulk =>
        obtain rfl : before.length = k := some.inj h
        exact ⟨pep, hget, .inl hbulk⟩
      · dsimp only at h
        split at h
        · next hfits =>
          refine ih (before ++ [some pep]) _ (some before.length) hall' ?_ (by rw [hlen]; exact h)
          rintro _ ⟨⟩
          exact ⟨pep, hget, .inr ⟨hfits.1, hfits.2.1⟩⟩
        · exact ih (before ++ [some pep]) bestcap bestif hall' hbest (by rw [hlen]; exact h)

theorem uvcFindAlternate_spec {payloadsize : ℕ} (h : uvcFindAlternate ncv payloadsize = some k) :
    Carries ncv payloadsize k :=
  findAlternateFrom_spec [] ncv.alternates _ none rfl nofun h

def padded (size : ℕ) (answer : List UInt8) : List UInt8 :=
  answer.take size ++ List.replicate (size - answer.length) 0

theorem length_padded (size : ℕ) (answer : List UInt8) : (padded size answer).length = size := by
  rw [padded, length_append, length_take, length_replicate]
  omega

theorem take_receive (buf : List UInt8) (size : ℕ) (answer : List UInt8) :
    (receive buf size answer).take size = padded size answer := by
  show (padded size answer ++ buf.drop size).take size = _
  rw [take_append_of_le_length (length_padded size answer).ge, take_of_length_le (length_padded size answer).le]

theorem le_receive (buf : List UInt8) {size i n : ℕ} (answer : List UInt8) (h : i + n ≤ size) :
    le (receive buf size answer) i n = le (padded size answer) i n := by
  have hlen := length_padded size answer
  have hdrop : ((receive buf size answer).drop i).take n = ((padded size answer).drop i).take n := by
    show ((padded size answer ++ buf.drop size).drop i).take n = _
    rw [drop_append_of_le_length (by omega), take_append_of_le_length (by
      rw [length_drop]
      omega)]
  unfold le
  rw [hdrop]

theorem probeSize_le (version : ℕ) : 26 ≤ probeSize version := by
  unfold probeSize
  split
  · omega
  · split <;> omega

def Named (uf : UvcFunction) (us : UvcStreamDesc) (f index g : ℕ) : Prop :=
  ∃ ufo, uf.formats[f]? = some ufo ∧
    ((index = ufo.index ∧ g = f) ∨ index ≠ ufo.index ∧ uvcFormatByIndex uf us index = some (some g))

variable {actual g : ℕ} {hasencoder : Bool} {reply : UsbVideoModeReq}

theorem answered_spec {probe : List UInt8} (h : answered uf us f probe = some (some (g, k))) :
    Named uf us f (le probe 2 1) g ∧ ∃ ufo, uf.formats[g]? = some ufo ∧ uvcIsStreamable ufo = true ∧ FrameOf ufo k := by
  obtain ⟨asked, hasked, h⟩ := bind_eq_some_iff.mp h
  obtain ⟨found, hfound, h⟩ := bind_eq_some_iff.mp h
  cases found with
  | none => exact absurd h nofun
  | some j =>
    obtain ⟨ufo, hufo, h⟩ := bind_eq_some_iff.mp h
    split at h
    · next hstream =>
      obtain ⟨frame, hframe, h⟩ := bind_eq_some_iff.mp h
      obtain ⟨rfl, hk⟩ : j = g ∧ frame = some k := by
        cases frame with
        | none => exact absurd h nofun
        | some i => simpa using h
      obtain ⟨hle, hlt, -⟩ := findFrom_spec _ _ (hframe.trans (congrArg some hk))
      refine ⟨⟨asked, hasked, ?_⟩, ufo, hufo, hstream, hle, hlt⟩
      split at hfound
      · next hother => exact .inr ⟨hother, hfound⟩
      · next hsame => exact .inl ⟨not_not.mp hsame, (some.inj (some.inj hfound)).symm⟩
    · exact absurd h nofun

theorem Named.formatOf {index : ℕ} (h : Named uf us f index g) (hf : FormatOf us f) : FormatOf us g := by
  obtain ⟨ufo, -, ⟨-, rfl⟩ | ⟨-, hfound⟩⟩ := h
  · exact hf
  · obtain ⟨hle, hlt, -⟩ := findFrom_spec _ _ hfound
    exact ⟨hle, hlt⟩

structure Settled (ncv : NepClassVideo) (ns : NepVideoStream) (f : ℕ) (mode : UvcMode) : Prop where
  probe : ∃ answer g k ufo, ncv.camera.probe = .ok answer ∧
    commitBlock ncv.function.version mode = padded (probeSize ncv.function.version) answer ∧
    Named ncv.function ns.desc f (le (padded (probeSize ncv.function.version) answer) 2 1) g ∧
    mode.format = some g ∧ mode.frame = some k ∧ ncv.function.formats[g]? = some ufo ∧
    uvcIsStreamable ufo = true ∧ FrameOf ufo k
  interval : mode.interval ≠ 0
  alternate : ∃ i, Carries ncv mode.payloadSize i

theorem uvcNegotiate_spec (h : uvcNegotiate ncv ns f k interval = some (mode, err)) :
    (∀ e, err = some e → mode = ns.mode) ∧ (err = none → Settled ncv ns f mode) := by
  obtain ⟨ufo, -, h⟩ := bind_eq_some_iff.mp h
  obtain ⟨up, -, h⟩ := bind_eq_some_iff.mp h
  obtain ⟨ufr, -, h⟩ := bind_eq_some_iff.mp h
  dsimp only at h
  split at h
  · obtain ⟨rfl, rfl⟩ := Prod.mk.inj (some.inj h)
    exact ⟨fun _ _ => rfl, nofun⟩
  split at h
  · obtain ⟨rfl, rfl⟩ := Prod.mk.inj (some.inj h)
    exact ⟨fun _ _ => rfl, nofun⟩
  next answer hanswer =>
  obtain ⟨named, hnamed, h⟩ := bind_eq_some_iff.mp h
  cases named with
  | none =>
    obtain ⟨rfl, rfl⟩ := Prod.mk.inj (some.inj h)
    exact ⟨fun _ _ => rfl, nofun⟩
  | some named =>
    obtain ⟨g, j⟩ := named
    obtain ⟨hnamed, ufo', hufo', hstream, hframe⟩ := answered_spec hnamed
    obtain ⟨ufo, hufo, h⟩ := bind_eq_some_iff.mp h
    obtain rfl : ufo' = ufo := some.inj (hufo'.symm.trans hufo)
    obtain ⟨ufr, -, h⟩ := bind_eq_some_iff.mp h
    obtain ⟨picturesize, -, h⟩ := bind_eq_some_iff.mp h
    split at h
    · obtain ⟨rfl, rfl⟩ := Prod.mk.inj (some.inj h)
      exact ⟨fun _ _ => rfl, nofun⟩
    next alt halt =>
    split at h
    · exact absurd h nofun
    · next hinterval =>
      obtain ⟨rfl, rfl⟩ := Prod.mk.inj (some.inj h)
      have hsize := probeSize_le ncv.function.version
      refine ⟨nofun, fun _ => ⟨⟨answer, g, j, ufo', hanswer, take_receive .., ?_, rfl, rfl, hufo, hstream, hframe⟩,
        hinterval, alt, uvcFindAlternate_spec halt⟩⟩
      rwa [le_receive _ _ (by omega)] at hnamed

theorem unitConfig_spec {camera : Camera} {ufr : UvcFrame} {bitrate keyinterval : ℕ} {cfg : List UInt8}
    (h : unitConfig camera ufr interval bitrate keyinterval = .ok cfg) :
    ∃ takes, camera.unitTakes = .ok takes ∧ cfg.take cfgSize = padded cfgSize takes ∧
      le cfg 0 4 = le (padded cfgSize takes) 0 4 := by
  unfold unitConfig at h
  split at h
  · exact absurd h nofun
  dsimp only at h
  split at h
  · exact absurd h nofun
  split at h
  · exact absurd h nofun
  next takes htakes =>
  split at h
  · obtain rfl := Except.ok.inj h
    exact ⟨takes, htakes, take_receive .., le_receive _ _ (by decide)⟩
  · exact absurd h nofun

theorem uvcNegotiateEmbedded_spec {bitrate keyinterval : ℕ}
    (h : uvcNegotiateEmbedded ncv ns f k interval bitrate keyinterval = some (mode, err)) :
    (∀ e, err = some e → mode = ns.mode) ∧ (err = none → ∃ carried takes, Settled ncv ns f carried ∧
      ncv.camera.unitTakes = .ok takes ∧
      mode = { carried with frame := some k, interval := le (padded cfgSize takes) 0 4, embed := mode.embed }) := by
  obtain ⟨unit, -, h⟩ := bind_eq_some_iff.mp h
  cases unit with
  | none => exact absurd h nofun
  | some unit =>
    obtain ⟨ufo, -, h⟩ := bind_eq_some_iff.mp h
    obtain ⟨ufr, -, h⟩ := bind_eq_some_iff.mp h
    split at h
    · obtain ⟨rfl, rfl⟩ := Prod.mk.inj (some.inj h)
      exact ⟨fun _ _ => rfl, nofun⟩
    next cfg hcfg =>
    obtain ⟨takes, htakes, -, hrate⟩ := unitConfig_spec hcfg
    split at h
    · obtain ⟨rfl, rfl⟩ := Prod.mk.inj (some.inj h)
      exact ⟨fun _ _ => rfl, nofun⟩
    obtain ⟨carrier, -, h⟩ := bind_eq_some_iff.mp h
    obtain ⟨small, -, h⟩ := bind_eq_some_iff.mp h
    obtain ⟨snapped, -, h⟩ := bind_eq_some_iff.mp h
    obtain ⟨⟨carried, err'⟩, hcarried, h⟩ := bind_eq_some_iff.mp h
    obtain ⟨hkept, hsettled⟩ := uvcNegotiate_spec hcarried
    dsimp only at h
    split at h
    · next hnone =>
      obtain ⟨rfl, rfl⟩ := Prod.mk.inj (some.inj h)
      refine ⟨nofun, fun _ => ⟨carried, takes, hsettled hnone, htakes, ?_⟩⟩
      rw [hrate]
    · next hsome =>
      obtain ⟨rfl, rfl⟩ := Prod.mk.inj (some.inj h)
      exact ⟨hkept, fun hnone => absurd hnone hsome⟩

structure Coherent (ncv : NepClassVideo) (us : UvcStreamDesc) (mode : UvcMode) (reply : UsbVideoModeReq) : Prop where
  pair : ∃ f k ufo ufr, mode.format = some f ∧ mode.frame = some k ∧ FormatOf us f ∧
    ncv.function.formats[f]? = some ufo ∧ uvcIsStreamable ufo = true ∧ FrameOf ufo k ∧
    ncv.function.frames[k]? = some ufr ∧
    uvcFourCC ufo = some reply.fourCC ∧ reply.width = ufr.width ∧ reply.height = ufr.height
  interval : reply.interval = mode.interval ∧ 1 ≤ mode.interval
  alternate : ∃ i, Carries ncv mode.payloadSize i
  commit : ∃ answer, ncv.camera.probe = .ok answer ∧
    commitBlock ncv.function.version mode = padded (probeSize ncv.function.version) answer

/-- The unit names an interval, and the frame asked for is one of the format the camera names. -/
structure Agrees (ncv : NepClassVideo) (us : UvcStreamDesc) (f k : ℕ) : Prop where
  rate : ∀ takes, ncv.camera.unitTakes = .ok takes → le (padded cfgSize takes) 0 4 ≠ 0
  carrier : ∀ answer g ufo, ncv.camera.probe = .ok answer →
    Named ncv.function us f (le (padded (probeSize ncv.function.version) answer) 2 1) g →
    ncv.function.formats[g]? = some ufo → FrameOf ufo k

theorem answer_spec {embedded : Bool}
    (h : answer uf mode uvq hasencoder embedded = some (reply, actual)) :
    ∃ f k ufo ufr, mode.format = some f ∧ mode.frame = some k ∧ uf.formats[f]? = some ufo ∧
      uf.frames[k]? = some ufr ∧ uvcFourCC ufo = some reply.fourCC ∧ reply.width = ufr.width ∧
      reply.height = ufr.height ∧ reply.interval = mode.interval := by
  obtain ⟨f, hf, h⟩ := bind_eq_some_iff.mp h
  obtain ⟨ufo, hufo, h⟩ := bind_eq_some_iff.mp h
  obtain ⟨k, hk, h⟩ := bind_eq_some_iff.mp h
  obtain ⟨ufr, hufr, h⟩ := bind_eq_some_iff.mp h
  obtain ⟨fourCC, hfourCC, h⟩ := bind_eq_some_iff.mp h
  refine ⟨f, k, ufo, ufr, hf, hk, hufo, hufr, ?_⟩
  dsimp only at h
  split at h <;> obtain ⟨rfl, -⟩ := Prod.mk.inj (some.inj h) <;> exact ⟨hfourCC, rfl, rfl, rfl⟩

theorem Named.eq {index g' : ℕ} (h : Named uf us f index g) (h' : Named uf us f index g') : g = g' := by
  obtain ⟨ufo, hufo, h⟩ := h
  obtain ⟨ufo', hufo', h'⟩ := h'
  obtain rfl : ufo = ufo' := some.inj (hufo.symm.trans hufo')
  rcases h with ⟨hindex, rfl⟩ | ⟨hindex, hfound⟩
  · exact (h'.resolve_right fun h => h.1 hindex).2.symm
  · obtain ⟨-, hfound'⟩ := h'.resolve_left fun h => hindex h.1
    exact some.inj (some.inj (hfound.symm.trans hfound'))

theorem Settled.coherent {embedded : Bool}
    (h : Settled ncv ns f mode) (hf : FormatOf ns.desc f)
    (hreply : answer ncv.function mode uvq hasencoder embedded = some (reply, actual)) :
    Coherent ncv ns.desc mode reply := by
  obtain ⟨answer, g, k, ufo, hprobe, hcommit, hnamed, hformat, hframe, hufo, hstream, hof⟩ := h.probe
  obtain ⟨g', k', ufo', ufr, hformat', hframe', hufo', hufr, hfourCC, hwidth, hheight, hinterval⟩ := answer_spec hreply
  obtain rfl : g = g' := some.inj (hformat.symm.trans hformat')
  obtain rfl : k = k' := some.inj (hframe.symm.trans hframe')
  obtain rfl : ufo = ufo' := some.inj (hufo.symm.trans hufo')
  exact ⟨⟨g, k, ufo, ufr, hformat, hframe, hnamed.formatOf hf, hufo, hstream, hof, hufr, hfourCC, hwidth, hheight⟩,
    ⟨hinterval, Nat.one_le_iff_ne_zero.mpr h.interval⟩, h.alternate, answer, hprobe, hcommit⟩

theorem Settled.embedded {embedded : Bool} {carried : UvcMode}
    {takes : List UInt8} (h : Settled ncv ns f carried) (hf : FormatOf ns.desc f)
    (htakes : ncv.camera.unitTakes = .ok takes)
    (hmode : mode =
      { carried with frame := some k, interval := le (padded cfgSize takes) 0 4, embed := mode.embed })
    (hreply : answer ncv.function mode uvq hasencoder embedded = some (reply, actual)) :
    Coherent ncv ns.desc mode reply ↔ Agrees ncv ns.desc f k := by
  obtain ⟨answer, g, j, ufo, hprobe, hcommit, hnamed, hformat, hframe, hufo, hstream, hof⟩ := h.probe
  have hmformat : mode.format = some g := by rw [hmode]; exact hformat
  have hmframe : mode.frame = some k := by rw [hmode]
  have hminterval : mode.interval = le (padded cfgSize takes) 0 4 := by rw [hmode]
  have hmprobe : mode.probe = carried.probe := by rw [hmode]
  have hmpayload : mode.payloadSize = carried.payloadSize := by rw [hmode]
  obtain ⟨g', k', ufo', ufr, hformat', hframe', hufo', hufr, hfourCC, hwidth, hheight, hinterval⟩ := answer_spec hreply
  obtain rfl : g = g' := some.inj (hmformat.symm.trans hformat')
  obtain rfl : k = k' := some.inj (hmframe.symm.trans hframe')
  obtain rfl : ufo = ufo' := some.inj (hufo.symm.trans hufo')
  constructor
  · intro hcoh
    refine ⟨fun takes' htakes' => ?_, fun answer' g' ufo' hprobe' hnamed' hufo' => ?_⟩
    · obtain rfl : takes = takes' := Except.ok.inj (htakes.symm.trans htakes')
      rw [← hminterval]
      exact Nat.one_le_iff_ne_zero.mp hcoh.interval.2
    · obtain rfl : answer = answer' := Except.ok.inj (hprobe.symm.trans hprobe')
      obtain rfl := hnamed.eq hnamed'
      obtain ⟨g', k', ufo'', -, hf', hk', -, hufo'', -, hof', -⟩ := hcoh.pair
      obtain rfl : g = g' := some.inj (hmformat.symm.trans hf')
      obtain rfl : k = k' := some.inj (hmframe.symm.trans hk')
      obtain rfl : ufo' = ufo'' := some.inj (hufo'.symm.trans hufo'')
      exact hof'
  · intro hagrees
    refine ⟨⟨g, k, ufo, ufr, hmformat, hmframe, hnamed.formatOf hf, hufo, hstream,
      hagrees.carrier answer g ufo hprobe hnamed hufo, hufr, hfourCC, hwidth, hheight⟩, ⟨hinterval, ?_⟩, ?_, answer,
      hprobe, ?_⟩
    · rw [hminterval]
      exact Nat.one_le_iff_ne_zero.mpr (hagrees.rate takes htakes)
    · rw [hmpayload]
      exact h.alternate
    · rw [commitBlock, hmprobe]
      exact hcommit

/-- The mode asked for is not H.264 inside MJPEG frames, or the camera's answers agree with it. -/
def AnswersAgree (ncv : NepClassVideo) (ns : NepVideoStream) (uvq : UsbVideoModeReq) : Prop :=
  ∀ f k interval ufo, asked ncv ns uvq = some (some (f, k, interval)) → ncv.function.formats[f]? = some ufo →
    isEmbedded ufo = true → Agrees ncv ns.desc f k

theorem mode_coherent (data : Option UsbVideoModeReq) (length : ℕ) (result : Except UvError (UsbVideoModeReq × ℕ))
    (h : nCmdSetMode ncv ns data length = some (mode, result)) :
    (∀ err, result = .error err → mode = ns.mode) ∧
    (∀ reply actual, result = .ok (reply, actual) →
      (Coherent ncv ns.desc mode reply ↔ ∀ uvq, data = some uvq → AnswersAgree ncv ns uvq)) := by
  have hkept : ∀ err, some (ns.mode, .error err) = some (mode, result) →
      (∀ err, result = .error err → mode = ns.mode) ∧ (∀ reply actual, result = .ok (reply, actual) →
        (Coherent ncv ns.desc mode reply ↔ ∀ uvq, data = some uvq → AnswersAgree ncv ns uvq)) := by
    intro err h
    obtain ⟨rfl, rfl⟩ := Prod.mk.inj (some.inj h)
    exact ⟨fun _ _ => rfl, nofun⟩
  unfold nCmdSetMode at h
  cases data with
  | none => exact hkept _ h
  | some uvq =>
    dsimp only at h
    split at h
    · exact hkept _ h
    split at h
    · exact hkept _ h
    obtain ⟨found, hasked, h⟩ := bind_eq_some_iff.mp h
    cases found with
    | none => exact hkept _ h
    | some found =>
      obtain ⟨f, k, interval⟩ := found
      obtain ⟨ufo, hufo, h⟩ := bind_eq_some_iff.mp h
      obtain ⟨⟨mode', err⟩, hneg, h⟩ := bind_eq_some_iff.mp h
      obtain ⟨hf, -⟩ := asked_spec hasked
      have hagree : (∀ uvq', some uvq = some uvq' → AnswersAgree ncv ns uvq') ↔
          (isEmbedded ufo = true → Agrees ncv ns.desc f k) := by
        constructor
        · exact fun h hemb => h uvq rfl f k interval ufo hasked hufo hemb
        · rintro h _ ⟨⟩ f' k' interval' ufo' hasked' hufo' hemb
          obtain ⟨rfl, rfl, rfl⟩ : f = f' ∧ k = k' ∧ interval = interval' := by simpa [hasked] using hasked'
          obtain rfl : ufo = ufo' := some.inj (hufo.symm.trans hufo')
          exact h hemb
      cases err with
      | some err =>
        obtain ⟨rfl, rfl⟩ := Prod.mk.inj (some.inj h)
        refine ⟨fun _ _ => ?_, nofun⟩
        split at hneg
        · exact (uvcNegotiateEmbedded_spec hneg).1 _ rfl
        · exact (uvcNegotiate_spec hneg).1 _ rfl
      | none =>
        obtain ⟨reply, hreply, h⟩ := bind_eq_some_iff.mp h
        obtain ⟨rfl, rfl⟩ := Prod.mk.inj (some.inj h)
        refine ⟨nofun, ?_⟩
        rintro reply actual ⟨⟩
        rw [hagree]
        split at hneg
        · next hemb =>
          obtain ⟨carried, takes, hsettled, htakes, hmode⟩ := (uvcNegotiateEmbedded_spec hneg).2 rfl
          rw [hsettled.embedded hf htakes hmode hreply]
          exact ⟨fun h _ => h, fun h => h hemb⟩
        · next hplain =>
          have hsettled := (uvcNegotiate_spec hneg).2 rfl
          exact ⟨fun _ hemb => absurd hemb hplain, fun _ => hsettled.coherent hf hreply⟩

/-- A range from 1 in steps of `0xffffffff`: the nearest interval wraps to 0. -/
example : uvcSnapInterval ⟨1, 0, 640, 480, 1, ⟨⟨0, [1, 0, 0, 0] ++ List.replicate 8 255⟩, 0⟩⟩ 0x80000001 = some 0 := by
  decide

def ctrlHeader : Desc := ⟨0x1000, [13, 0x24, 0x01, 0x10, 0x01, 39, 0, 0, 0, 0, 0, 1, 1]⟩

def h264Unit : Desc :=
  ⟨0x1010, [26, 0x24, 0x06, 2, 0x41, 0x76, 0x9e, 0xa2, 0x04, 0xde, 0xe3, 0x47, 0x8b, 0x2b, 0xf4, 0x34, 0x1a, 0xff, 0x00,
    0x3b, 1, 1, 1, 1, 1, 0]⟩

def yuy2Format : Desc :=
  ⟨0x2000, [27, 0x24, 0x04, 1, 1, 0x59, 0x55, 0x59, 0x32, 0x00, 0x00, 0x10, 0x00, 0x80, 0x00, 0x00, 0xaa, 0x00, 0x38,
    0x9b, 0x71, 16, 1, 0, 0, 0, 0]⟩

def yuy2Frame : Desc :=
  ⟨0x2020, [30, 0x24, 0x05, 1, 0, 0x80, 0x02, 0xe0, 0x01, 0, 0, 0, 0, 0, 0, 0, 0, 0, 0, 0, 0, 0x15, 0x16, 0x05, 0, 1,
    0x15, 0x16, 0x05, 0]⟩

def mjpegFormat : Desc := ⟨0x2040, [11, 0x24, 0x06, 2, 1, 0, 1, 0, 0, 0, 0]⟩

def mjpegFrame : Desc :=
  ⟨0x2050, [30, 0x24, 0x07, 1, 0, 0x40, 0x01, 0xf0, 0x00, 0, 0, 0, 0, 0, 0, 0, 0, 0, 0, 0, 0, 0x15, 0x16, 0x05, 0, 1,
    0x15, 0x16, 0x05, 0]⟩

def webcam : UvcFunction where
  version := UVC_VERSION_11
  clockFrequency := 0
  numEntities := 1
  numStreams := 1
  numFormats := 3
  numFrames := 2
  skipped := 0
  entities := [⟨2, UDST_VIDEO_CTRL_EXTENSION_UNIT, 0, 1, 1, some ⟨h264Unit, 22⟩, some ⟨h264Unit, 24⟩, h264Unit⟩, .zero]
  streams := [{ UvcStreamDesc.zero with ifNum := 1, numFormats := 3 }]
  formats :=
    [⟨1, 0x04, 1, 1, some rowUncompressed, 0, yuy2Format⟩, ⟨2, 0x06, 1, 1, some rowMjpeg, 1, mjpegFormat⟩,
      ⟨2, 0x06, 1, 1, some rowEmbedded, 1, mjpegFormat⟩, .zero]
  frames := [⟨1, 1, 640, 480, 333333, ⟨yuy2Frame, 26⟩⟩, ⟨1, 1, 320, 240, 333333, ⟨mjpegFrame, 26⟩⟩, .zero, .zero]

theorem webcam_built : nBuildFunction ⟨32, 20, 14, 16, 20⟩ true [ctrlHeader, h264Unit]
    (fun _ => some [yuy2Format, yuy2Frame, mjpegFormat, mjpegFrame]) = some (some webcam) := by decide +kernel

/-- It takes every request. Its PROBE answer names format `index`, its unit's answer 320x240 and `rate`. -/
def webcamAnswers (index : UInt8) (rate : List UInt8) : NepClassVideo where
  function := webcam
  superspeed := false
  alternates := [none, some ⟨.isochronous, 1024, 1, 0⟩]
  camera :=
    { probeSet := fun _ => none
      probe := .ok ([1, 0, index, 1, 0x15, 0x16, 0x05, 0] ++ List.replicate 10 0 ++ [0, 0x60, 0x09, 0, 0, 4, 0, 0])
      unitHas := .ok []
      unitSet := fun _ => none
      unitTakes := .ok (rate ++ List.replicate 8 0 ++ [0x40, 0x01, 0xf0, 0x00])
      unitProbe := fun _ => none
      unitCommit := fun _ => none }

def idleStream : NepVideoStream where
  desc := { UvcStreamDesc.zero with ifNum := 1, numFormats := 3 }
  streaming := false
  default := ⟨0, 0, 0⟩
  mode := ⟨none, none, 0, 0, 0, 0, [], []⟩

def request (fourCC : ℕ) : UsbVideoModeReq := ⟨fourCC, 0, 0, 0, 0, 0, 0⟩

def replied (result : Option (UvcMode × Except UvError (UsbVideoModeReq × ℕ))) : Option (List ℕ) :=
  result.bind fun
    | (_, .ok (uvq, _)) => some [uvq.fourCC, uvq.width, uvq.height, uvq.interval]
    | _ => none

theorem replied_spec {result : Option (UvcMode × Except UvError (UsbVideoModeReq × ℕ))} {ns : List ℕ}
    (h : replied result = some ns) : ∃ mode reply actual, result = some (mode, .ok (reply, actual)) ∧
      ns = [reply.fourCC, reply.width, reply.height, reply.interval] := by
  obtain ⟨⟨mode, result⟩, rfl, h⟩ := bind_eq_some_iff.mp h
  cases result with
  | error err => exact absurd h nofun
  | ok reply => exact ⟨mode, reply.1, reply.2, rfl, (some.inj h).symm⟩

/-- The default mode, MJPEG. -/
theorem mode_coherent_webcam :
    ∃ mode reply actual, nCmdSetMode (webcamAnswers 2 []) idleStream (some (request 0)) 16 =
        some (mode, .ok (reply, actual)) ∧ reply.fourCC = UVFCC_MJPG ∧
      Coherent (webcamAnswers 2 []) idleStream.desc mode reply := by
  have hrun : replied (nCmdSetMode (webcamAnswers 2 []) idleStream (some (request 0)) 16) =
      some [UVFCC_MJPG, 320, 240, 333333] := by decide +kernel
  obtain ⟨mode, reply, actual, h, hreply⟩ := replied_spec hrun
  refine ⟨mode, reply, actual, h, (List.cons.inj hreply).1.symm, ?_⟩
  refine ((mode_coherent _ _ _ h).2 reply actual rfl).mpr ?_
  rintro _ ⟨⟩ f k interval ufo hasked hufo hemb
  have hmjpeg : asked (webcamAnswers 2 []) idleStream (request 0) = some (some (1, 1, 333333)) := by decide +kernel
  obtain ⟨rfl, rfl, rfl⟩ : 1 = f ∧ 1 = k ∧ 333333 = interval := by simpa [hmjpeg] using hasked
  obtain rfl := some.inj hufo
  exact absurd hemb (by decide)

/-- The camera answers the carrier's PROBE with YUY2; the unit leaves the interval open. -/
theorem embedded_disagrees :
    (∃ mode reply actual, nCmdSetMode (webcamAnswers 1 [0x15, 0x16, 0x05, 0]) idleStream (some (request UVFCC_H264)) 16 =
        some (mode, .ok (reply, actual)) ∧
      ¬ Coherent (webcamAnswers 1 [0x15, 0x16, 0x05, 0]) idleStream.desc mode reply) ∧
    ∃ mode reply actual, nCmdSetMode (webcamAnswers 2 [0, 0, 0, 0]) idleStream (some (request UVFCC_H264)) 16 =
        some (mode, .ok (reply, actual)) ∧
      ¬ Coherent (webcamAnswers 2 [0, 0, 0, 0]) idleStream.desc mode reply := by
  constructor
  · have hrun : replied (nCmdSetMode (webcamAnswers 1 [0x15, 0x16, 0x05, 0]) idleStream (some (request UVFCC_H264)) 16) =
        some [0x59555932, 320, 240, 333333] := by decide +kernel
    obtain ⟨mode, reply, actual, h, hreply⟩ := replied_spec hrun
    refine ⟨mode, reply, actual, h, fun hcoh => ?_⟩
    obtain ⟨f, k, ufo, ufr, -, -, hf, hufo, -, hk, hufr, hfourCC, hwidth, -⟩ := hcoh.pair
    obtain ⟨hyuy2, h320, -⟩ : 0x59555932 = reply.fourCC ∧ 320 = reply.width ∧ _ := by simpa using hreply
    rw [← hyuy2] at hfourCC
    rw [← h320] at hwidth
    -- a YUY2 picture is 640 wide
    have hthree : f = 0 ∨ f = 1 ∨ f = 2 := by
      have := hf.2
      simp only [idleStream, UvcStreamDesc.zero] at this
      omega
    rcases hthree with rfl | rfl | rfl <;> obtain rfl := some.inj hufo
    · obtain rfl : k = 0 := by
        have := hk.2
        simp only at this
        omega
      obtain rfl := some.inj hufr
      exact absurd hwidth (by decide)
    · exact absurd hfourCC (by decide)
    · exact absurd hfourCC (by decide)
  · have hrun : replied (nCmdSetMode (webcamAnswers 2 [0, 0, 0, 0]) idleStream (some (request UVFCC_H264)) 16) =
        some [UVFCC_H264, 320, 240, 0] := by decide +kernel
    obtain ⟨mode, reply, actual, h, hreply⟩ := replied_spec hrun
    refine ⟨mode, reply, actual, h, fun hcoh => ?_⟩
    obtain ⟨-, -, -, hzero⟩ : UVFCC_H264 = reply.fourCC ∧ 320 = reply.width ∧ 240 = reply.height ∧ 0 = reply.interval :=
      by simpa using hreply
    obtain ⟨hsame, hpos⟩ := hcoh.interval
    omega

end Neptune.UvcCtrl
