import Neptune.Proofs.ExchangeSound
import Neptune.Proofs.SameTransfers
import Neptune.Proofs.UasOwned

/-! A block request of the unit task that is replied without an error: its commands go through the
data from the beginning to the end, and a transport has carried out each of them. -/

namespace Neptune

open List Uas

namespace BlockIo

open MSTask (Command)

variable {ncm : NepClassMS} {u : BlockUnit} {tp : TP} {x : Exchange}

/-- A data phase that counts: it ends without an error, or with one that the transport forgives. -/
def Forgiven (tpType : Transport.TPType) (r : Transport.Reply) : Prop :=
  r.ioerr = 0 ∨ Transport.nIsOverflowErr r.ioerr = true ∨ r.ioerr = Transport.UHIOERR_STALL ∨
    (tpType = .bulk ∧ r.ioerr = Transport.UHIOERR_RUNTPACKET) ∨ (tpType = .cbi ∧ r.late = true)

structure UasDone (length : ℕ) (a : UasAttempt) : Prop where
  status : Uas.nUasErrForgiven a.status.ioerr = true
  sense : Uas.nUasIUId a.status = Uas.UAS_IU_ID_SENSE
  good : Uas.nUasParseStatus a.status = Uas.SCSI_GOOD
  data : length ≠ 0 → ∃ d, a.data = some d ∧ Uas.nUasErrForgiven d.ioerr = true

def Carried (tp : TP) (x : Exchange) : Prop :=
  match tp with
  | .msc ncm =>
    ∃ a, (Transport.nScsiDirect ncm x.scsi x.answer.devs x.st).attempts.getLast? = some a ∧
      Transport.Completed ncm.tpType x.scsi a.2.2 ∧
      (x.cmd.length ≠ 0 → Forgiven ncm.tpType (x.answer.devs a.2.1 .data))
  | .uas => ∃ a, (nScsiDirectUAS x.scsi x.answer.uas).2.getLast? = some a ∧ UasDone x.cmd.length a

def ReliedOn (tp : TP) (x : Exchange) : Prop :=
  match tp with
  | .msc ncm => ∀ a ∈ (Transport.nScsiDirect ncm x.scsi x.answer.devs x.st).attempts,
      Transport.Relied ncm x.scsi x.answer.devs a
  | .uas => True

end BlockIo

namespace Transport

variable {ncm : NepClassMS} {cmd : SCSICmd} {dev : Device} {devs : ℕ → Device} {st : St} {tag : ℕ}
variable {a : St × ℕ × List Phase}

theorem bulkData_forgiven (hlen : cmd.length ≠ 0) (h : (bulkData ncm cmd dev tag st).1 = 0) :
    BlockIo.Forgiven .bulk (dev .data) := by
  revert h
  unfold bulkData
  rw [if_neg hlen]
  change (if nIsOverflowErr (dev .data).ioerr = true ∨ (dev .data).ioerr = UHIOERR_RUNTPACKET then 0
    else stallErr (dev .data) _) = 0 → _
  split
  · rename_i hshort
    rcases hshort with hover | hrunt
    · exact fun _ => Or.inr (Or.inl hover)
    · exact fun _ => Or.inr (Or.inr (Or.inr (Or.inl ⟨rfl, hrunt⟩)))
  · unfold stallErr
    split
    · rename_i hstall
      exact fun _ => Or.inr (Or.inr (Or.inl hstall))
    · exact fun hok => Or.inl hok

theorem bulkAttempt_forgiven (hlen : cmd.length ≠ 0) (h : (bulkAttempt ncm cmd dev st).1 = 0) :
    BlockIo.Forgiven .bulk (dev .data) := by
  revert h
  unfold bulkAttempt bulkDataPhase
  simp only
  split
  · exact fun h => absurd h phase_fails
  split
  · split <;> exact fun h => absurd h phase_fails
  split
  · exact fun h => absurd h phase_fails
  · rename_i hdata
    exact fun _ => bulkData_forgiven hlen (not_not.mp hdata)

theorem cbiAttempt_forgiven (hlen : cmd.length ≠ 0) (hs : Straight ncm cmd dev st)
    (h : (cbiAttempt ncm cmd dev st).1 = 0) : BlockIo.Forgiven ncm.tpType (dev .data) := by
  rw [cbiAttempt_eq] at h
  split at h
  · exact absurd h phase_fails
  rename_i hdeny
  have hstraight := hs.resolve_left hdeny
  split at h
  · split at h
    · exact absurd h phase_fails
    · rename_i hdata
      rcases (cbiData_came ncm cmd dev _).mp (not_not.mp hdata) with
        hnone | hlate | hover | hstall | hok
      · exact absurd hnone hlen
      · exact Or.inr (Or.inr (Or.inr (Or.inr hlate)))
      · exact Or.inr (Or.inl hover)
      · exact Or.inr (Or.inr (Or.inl hstall))
      · exact Or.inl hok
  · rename_i hcommand
    rw [if_neg hcommand] at hstraight
    split at h
    · rename_i hstall
      split at h
      · rename_i hagain
        exact absurd (hstraight hstall hagain).2 hlen
      · exact absurd h (cbiRefused_fails _ _ _ _)
    · exact absurd h (cbiRefused_fails _ _ _ _)

theorem attempt_forgiven (hlen : cmd.length ≠ 0) (hs : Relied ncm cmd devs a)
    (h : (run (attempt ncm cmd) devs a).1 = 0) :
    BlockIo.Forgiven ncm.tpType (devs a.2.1 .data) := by
  by_cases htp : ncm.tpType = .bulk
  · unfold run attempt at h
    rw [htp] at h ⊢
    exact bulkAttempt_forgiven hlen h
  · unfold run at h
    rw [attempt_cbi htp] at h
    have hstraight : Straight ncm cmd (devs a.2.1) { a.1 with phases := [] } := hs.resolve_left htp
    exact cbiAttempt_forgiven hlen hstraight h

end Transport

namespace BlockIo

open MSTask (Command)

variable {ncm : NepClassMS} {u : BlockUnit} {tp : TP} {x : Exchange}

theorem carried_msc {ms : Transport.NepClassMS} (h : x.result (.msc ms) = 0)
    (hr : ReliedOn (.msc ms) x) : Carried (.msc ms) x := by
  unfold Exchange.result at h
  unfold ReliedOn at hr
  unfold Carried
  simp only at h hr ⊢
  rw [Transport.nScsiDirect_eq] at h hr ⊢
  obtain ⟨a, hlast, hzero⟩ := Transport.attempts_zero h
  have ha := mem_of_getLast? hlast
  refine ⟨a, hlast, ?_, ?_⟩
  · rw [Transport.attempts_run ha]
    exact Transport.attempt_ok (hr a ha) hzero
  · intro hlen
    exact Transport.attempt_forgiven (fun h => hlen (x.length ▸ h)) (hr a ha) hzero

variable {length : ℕ} {alloc : Bool} {w : Uas.Wire} {ut : Uas.UasTag} {r : Option (ℤ × ℕ × Host Link)}
  {bounce direct : Piece → Host Link → ℤ × Host Link}

theorem dataReply_before (iu : Uas.Iu) (tag : ℕ) (h : dataReply w = none) :
    dataReply (psdWaitPipe (.status tag) (sendIu iu w).2).2 = none := by
  unfold dataReply at h ⊢
  rw [psdWaitPipe_passed, sendIu_passed, findSome?_append, findSome?_append, h]
  rfl

theorem dataReply_congr {w' : Uas.Wire} (h : w.passed = w'.passed) :
    dataReply w = dataReply w' := by
  unfold dataReply
  rw [h]

theorem waitData_reply {dataLen : ℕ} (hlen : dataLen ≠ 0)
    (hgood : nUasStatusGood ut = true) (hw : dataReply w = none) :
    ∃ d, dataReply (waitData dataLen ut w).2 = some d ∧
      (waitData dataLen ut w).1 = d.ioerr := by
  refine ⟨(psdWaitPipe (.data ut.tag) w).1, ?_, ?_⟩
  · unfold waitData dataReply at *
    rw [if_neg hlen, if_pos hgood]
    rw [psdWaitPipe_passed, findSome?_append, hw]
    rfl
  · unfold waitData
    rw [if_neg hlen, if_pos hgood]

theorem statusGood_of (hf : nUasErrForgiven ut.status.ioerr = true)
    (hsense : nUasIUId ut.status = Uas.UAS_IU_ID_SENSE)
    (hgood : nUasParseStatus ut.status = Uas.SCSI_GOOD) : nUasStatusGood ut = true := by
  unfold nUasStatusGood
  rw [hf, hsense, hgood]
  rfl

theorem phase_ne : Uas.HFERR_Phase ≠ 0 := by decide

theorem badStatus_ne : Uas.HFERR_BadStatus ≠ 0 := by decide

theorem forgiven_of_zero {ioerr : ℤ}
    (h : (if nUasErrForgiven ioerr = true then 0 else ioerr) = 0) :
    nUasErrForgiven ioerr = true := by
  by_contra hnot
  rw [if_neg hnot] at h
  rw [h] at hnot
  exact hnot rfl

theorem doCommand_zero
    (h : (Uas.nUasDoCommand length ut w).1 = 0) :
    ∃ ut' w', (dataReply w = none → dataReply w' = none) ∧
      (Uas.nUasDoCommand length ut w).2.1.status = ut'.status ∧
      dataReply (Uas.nUasDoCommand length ut w).2.2 =
        dataReply (Uas.waitData length ut' w').2 ∧
      Uas.nUasErrForgiven ut'.status.ioerr = true ∧
      Uas.nUasIUId ut'.status = Uas.UAS_IU_ID_SENSE ∧
      Uas.nUasErrForgiven (Uas.waitData length ut' w').1 = true := by
  revert h
  unfold Uas.nUasDoCommand
  simp only
  split
  · rename_i hsend
    exact fun h => absurd h hsend
  split
  · rename_i hstatus
    intro h
    change (Uas.psdWaitPipe _ _).1.ioerr = 0 at h
    rw [h] at hstatus
    exact absurd hstatus Bool.false_ne_true
  rename_i hstatus
  split
  · exact fun h => absurd h phase_ne
  rename_i hsense
  intro h
  rw [Bool.not_eq_true, Bool.not_eq_false'] at hstatus
  refine ⟨_, _, dataReply_before _ _, rfl, dataReply_congr (finalize_passed 0), hstatus,
    not_not.mp hsense, ?_⟩
  · exact forgiven_of_zero h

theorem doCommand_done {e : UasExchange} (h : (nUasDoCommand length e).ioerr = 0)
    (hgood : Uas.nUasParseStatus (nUasDoCommand length e).status = Uas.SCSI_GOOD) :
    UasDone length (nUasDoCommand length e) := by
  revert h hgood
  unfold nUasDoCommand
  cases e.tag with
  | none => exact fun h => absurd h phase_ne
  | some ut =>
    intro h hgood
    obtain ⟨ut', w', hbefore, hstatus, hlast, hforgiven, hsense, hdata⟩ := doCommand_zero h
    change Uas.nUasParseStatus (Uas.nUasDoCommand length ut _).2.1.status = _ at hgood
    rw [hstatus] at hgood
    refine ⟨?_, ?_, ?_, ?_⟩
    · change Uas.nUasErrForgiven (Uas.nUasDoCommand length ut _).2.1.status.ioerr = true
      rw [hstatus]
      exact hforgiven
    · change Uas.nUasIUId (Uas.nUasDoCommand length ut _).2.1.status = _
      rw [hstatus]
      exact hsense
    · change Uas.nUasParseStatus (Uas.nUasDoCommand length ut _).2.1.status = _
      rw [hstatus]
      exact hgood
    · intro hlen
      obtain ⟨d, hd, hderr⟩ :=
        waitData_reply hlen (statusGood_of hforgiven hsense hgood) (hbefore rfl)
      exact ⟨d, hlast.trans hd, hderr ▸ hdata⟩

theorem uasAttempts_eq (length senseLen : ℕ) (answers : ℕ → UasAnswer) (n k : ℕ) :
    uasAttempts length senseLen answers n k =
      if (answers k).deny then (Uas.HFERR_Phase, [])
      else
        let a := nUasDoCommand length (answers k).command
        if a.ioerr ≠ 0 then (Uas.HFERR_Phase, [a])
        else if nUasParseStatus a.status = Uas.SCSI_GOOD then (0, [a])
        else if unitAttention (uasSense senseLen a.status (answers k).sense) then
          n.casesOn (Uas.HFERR_BadStatus, [a]) fun n =>
            ((uasAttempts length senseLen answers n (k + 1)).1, a :: (uasAttempts length senseLen answers n (k + 1)).2)
        else (Uas.HFERR_BadStatus, [a]) := by
  cases n <;> rfl

theorem uasAttempts_done {senseLen : ℕ} {answers : ℕ → UasAnswer} {n k : ℕ}
    (h : (uasAttempts length senseLen answers n k).1 = 0) :
    ∃ a, (uasAttempts length senseLen answers n k).2.getLast? = some a ∧ UasDone length a := by
  induction n generalizing k with
  | zero =>
    revert h
    rw [uasAttempts_eq]
    simp only
    split_ifs with hdeny herr hgood hattention
    · exact fun h => absurd h phase_ne
    · exact fun h => absurd h phase_ne
    · exact fun _ => ⟨_, rfl, doCommand_done (not_not.mp herr) hgood⟩
    · exact fun h => absurd h badStatus_ne
    · exact fun h => absurd h badStatus_ne
  | succ n ih =>
    revert h
    rw [uasAttempts_eq]
    simp only
    split_ifs with hdeny herr hgood hattention
    · exact fun h => absurd h phase_ne
    · exact fun h => absurd h phase_ne
    · exact fun _ => ⟨_, rfl, doCommand_done (not_not.mp herr) hgood⟩
    · intro h
      obtain ⟨a, hlast, hdone⟩ := ih h
      refine ⟨a, ?_, hdone⟩
      rw [getLast?_cons, hlast]
      rfl
    · exact fun h => absurd h badStatus_ne

theorem carried_of_zero (h : x.result tp = 0) (hr : ReliedOn tp x) : Carried tp x := by
  cases tp with
  | msc ms => exact carried_msc h hr
  | uas =>
    obtain ⟨a, hlast, hdone⟩ := uasAttempts_done h
    exact ⟨a, hlast, x.length ▸ hdone⟩

/-- The transfers go through the data from an offset to an end, without a gap: each with so many
bytes of `io_Data` as its command has, or by way of one block. -/
inductive Parts (iswrite : Bool) : List Exchange → ℕ → ℕ → Prop
  | done {n : ℕ} : Parts iswrite [] n n
  | direct {x : Exchange} {xs : List Exchange} {offset n : ℕ}
      (hx : x.cmd.data = .ioData offset ∧ x.cmd.isRead = !iswrite)
      (hrest : Parts iswrite xs (offset + x.cmd.length) n) : Parts iswrite (x :: xs) offset n
  | readBlock {x : Exchange} {xs : List Exchange} {offset k n : ℕ} (hread : iswrite = false)
      (hx : x.cmd.data = .oneBlock ∧ x.cmd.isRead = true) (hk : k ≤ x.cmd.length)
      (hrest : Parts iswrite xs (offset + k) n) : Parts iswrite (x :: xs) offset n
  | writeBlock {x y : Exchange} {xs : List Exchange} {offset k n : ℕ} (hwrite : iswrite = true)
      (hx : x.cmd.data = .oneBlock ∧ x.cmd.isRead = true)
      (hy : y.cmd.data = .oneBlock ∧ y.cmd.isRead = false) (hk : k ≤ y.cmd.length)
      (hrest : Parts iswrite xs (offset + k) n) : Parts iswrite (x :: y :: xs) offset n

def Goes (u : BlockUnit) (iswrite : Bool) (offset len : ℕ) (h h' : Host Link) : Prop :=
  ∃ xs, h'.world.log = h.world.log ++ xs ∧ (∀ x ∈ xs, x.result u.tp = 0) ∧
    ∀ ys n, Parts iswrite ys (offset + len) n → Parts iswrite (xs ++ ys) offset n

variable {iswrite : Bool} {offset len k : ℕ} {h h' h'' : Host Link}

theorem Goes.none : Goes u iswrite offset 0 h h :=
  ⟨[], (append_nil _).symm, fun _ hx => absurd hx not_mem_nil, fun _ _ hys => hys⟩

theorem Goes.trans (hg : Goes u iswrite offset k h h')
    (hg' : Goes u iswrite (offset + k) len h' h'') : Goes u iswrite offset (k + len) h h'' := by
  obtain ⟨xs, hxs, hok, hparts⟩ := hg
  obtain ⟨xs', hxs', hok', hparts'⟩ := hg'
  refine ⟨xs ++ xs', ?_, ?_, ?_⟩
  · rw [hxs', hxs, append_assoc]
  · intro x hx
    rcases mem_append.mp hx with hx | hx
    · exact hok x hx
    · exact hok' x hx
  · intro ys n hys
    rw [append_assoc]
    apply hparts
    apply hparts'
    rw [Nat.add_assoc]
    exact hys

theorem Goes.parts (hg : Goes u iswrite offset len h h') (hlog : h.world.log = []) :
    Parts iswrite h'.world.log offset (offset + len) ∧ ∀ x ∈ h'.world.log, x.result u.tp = 0 := by
  obtain ⟨xs, hxs, hok, hparts⟩ := hg
  rw [hlog, nil_append] at hxs
  have := hparts [] _ .done
  rw [append_nil] at this
  exact ⟨hxs ▸ this, hxs ▸ hok⟩

theorem minusOne_ne : (-1 : ℤ) ≠ 0 := by decide

theorem badLength_ne : IOERR_BADLENGTH ≠ 0 := by decide

theorem badAddress_ne : IOERR_BADADDRESS ≠ 0 := by decide

theorem receive_world (h : Host Link) (cmd : SCSICmd) (received : List (List UInt8)) :
    (h.receive cmd received).world = h.world := by
  unfold Host.receive Host.setBuffer
  split
  · cases cmd.data <;> rfl
  · rfl

theorem nScsiDirect_zero {cmd : SCSICmd} (hok : (nScsiDirect u cmd h).1 = 0) :
    ∃ x : Exchange, (nScsiDirect u cmd h).2.world.log = h.world.log ++ [x] ∧ x.cmd = cmd ∧
      x.result u.tp = 0 := by
  revert hok
  unfold nScsiDirect
  simp only
  split
  · exact fun hok => absurd hok minusOne_ne
  · intro hok
    refine ⟨⟨cmd, scsiCmd u cmd h, h.world.answers h.world.log.length, h.world.st, rfl, rfl⟩, ?_, rfl,
      hok⟩
    rw [receive_world]

def Delivers (u : BlockUnit) (iswrite : Bool) (f : Piece → Host Link → ℤ × Host Link)
    (p : Piece) : Prop :=
  ∀ h, (f p h).1 = 0 → Goes u iswrite p.dataoffset p.datalen h (f p h).2

section

variable (ncm : NepClassMS) (u : BlockUnit)

theorem direct_delivers (iswrite : Bool) (p : Piece) :
    Delivers u iswrite (fun p => nScsiDirect u (directCmd ncm p iswrite)) p := by
  intro h hok
  obtain ⟨x, hlog, hcmd, hresult⟩ := nScsiDirect_zero hok
  refine ⟨[x], hlog, ?_, ?_⟩
  · intro y hy
    obtain rfl := mem_singleton.mp hy
    exact hresult
  · intro ys n hys
    apply Parts.direct
    · rw [hcmd]
      exact ⟨rfl, rfl⟩
    · rw [hcmd]
      exact hys

theorem readBounce_delivers {p : Piece}
    (hp : p.datalen ≤ ncm.blockSize) :
    Delivers u false (readBounce ncm (nScsiDirect u)) p := by
  intro h
  unfold readBounce
  simp only
  split
  · rename_i herr
    exact fun hok => absurd hok herr
  rename_i hok
  intro _
  obtain ⟨x, hlog, hcmd, hresult⟩ := nScsiDirect_zero (not_not.mp hok)
  refine ⟨[x], hlog, ?_, ?_⟩
  · intro y hy
    obtain rfl := mem_singleton.mp hy
    exact hresult
  · intro ys n hys
    apply Parts.readBlock rfl _ _ hys
    · rw [hcmd]
      exact ⟨rfl, rfl⟩
    · rw [hcmd]
      exact hp

theorem writeBounce_delivers {p : Piece}
    (hp : p.datalen ≤ ncm.blockSize) :
    Delivers u true (writeBounce ncm (nScsiDirect u)) p := by
  intro h
  unfold writeBounce
  simp only
  split
  · rename_i herr
    exact fun hok => absurd hok herr
  rename_i hok
  intro hok'
  obtain ⟨x, hlog, hcmd, hresult⟩ := nScsiDirect_zero (not_not.mp hok)
  obtain ⟨y, hlog', hcmd', hresult'⟩ := nScsiDirect_zero hok'
  refine ⟨[x, y], ?_, ?_, ?_⟩
  · rw [hlog']
    rw [hlog, append_assoc]
    rfl
  · intro z hz
    rcases mem_pair.mp hz with rfl | rfl
    · exact hresult
    · exact hresult'
  · intro ys n hys
    apply Parts.writeBlock rfl _ _ _ hys
    · rw [hcmd]
      exact ⟨rfl, rfl⟩
    · rw [hcmd']
      exact ⟨rfl, rfl⟩
    · rw [hcmd']
      exact hp

end

def Reaches (u : BlockUnit) (iswrite : Bool) (offset len : ℕ) (h : Host Link)
    (r : Option (ℤ × ℕ × Host Link)) : Prop :=
  ∃ error d h', r = some (error, d, h') ∧
    (error = 0 → d = offset + len ∧ Goes u iswrite offset len h h')

theorem Reaches.step {d : ℕ} (hd : d ≤ len)
    (hg : Goes u iswrite offset d h h')
    (hr : Reaches u iswrite (offset + d) (len - d) h' r) : Reaches u iswrite offset len h r := by
  obtain ⟨error, e, h₁, hrun, hrest⟩ := hr
  refine ⟨error, e, h₁, hrun, ?_⟩
  intro hzero
  obtain ⟨he, hgoes⟩ := hrest hzero
  have hsum : d + (len - d) = len := Nat.add_sub_of_le hd
  refine ⟨by omega, ?_⟩
  rw [← hsum]
  exact hg.trans hgoes

theorem Reaches.fail {error : ℤ} {d : ℕ} (herr : error ≠ 0) :
    Reaches u iswrite offset len h (some (error, d, h')) :=
  ⟨error, d, h', rfl, fun hzero => absurd hzero herr⟩

theorem piece_spec (ncm : NepClassMS) {inside remain : ℕ} (hi : inside < ncm.blockSize)
    (hr : remain ≠ 0) :
    0 < (piece ncm inside remain).2 ∧ (piece ncm inside remain).2 ≤ remain ∧
      ((piece ncm inside remain).1 = true → (piece ncm inside remain).2 ≤ ncm.blockSize) ∧
      ((piece ncm inside remain).1 = false → inside = 0) := by
  have hmt := maxtrans_pos ncm
  unfold piece
  simp only
  split
  · refine ⟨?_, ?_, ?_, nofun⟩
    · exact lt_min (by omega) (by omega)
    · exact (min_le_left _ _).trans (min_le_left _ _)
    · exact fun _ => (min_le_right _ _).trans (Nat.sub_le _ _)
  · rename_i hnot
    refine ⟨by omega, min_le_left _ _, nofun, ?_⟩
    exact fun _ => not_not.mp fun hne => hnot (Or.inl hne)

theorem emulLoop_reaches
    (hb : ∀ p : Piece, p.datalen ≤ ncm.blockSize → Delivers u iswrite bounce p)
    (hd : ∀ p : Piece, Delivers u iswrite direct p) (fuel : ℕ) (p : Piece) (error : ℤ)
    (h : Host Link) (hi : p.insideblockoffset < ncm.blockSize) (hf : p.datalen < fuel) :
    Reaches u iswrite p.dataoffset p.datalen h (emulLoop ncm bounce direct fuel p error h) := by
  induction fuel generalizing p error h with
  | zero => exact absurd hf (Nat.not_lt_zero _)
  | succ fuel ih =>
    by_cases hp : p.datalen = 0
    · rw [emulLoop_done (Nat.succ_pos _) hp, hp]
      exact ⟨error, _, h, rfl, fun _ => ⟨rfl, .none⟩⟩
    obtain ⟨hpos, hle, hblock, hinside⟩ := piece_spec ncm hi hp
    obtain ⟨through, d, hpiece⟩ : ∃ t d, piece ncm p.insideblockoffset p.datalen = (t, d) :=
      ⟨_, _, rfl⟩
    rw [hpiece] at hpos hle hblock hinside
    cases through with
    | true =>
      by_cases hok : (bounce { p with datalen := d } h).1 = 0
      · rw [emulLoop_through bounce direct fuel error hp hpiece hok]
        refine .step hle (hb { p with datalen := d } (hblock rfl) h hok) (ih _ 0 _ ?_ ?_)
        · exact blockSize_pos ncm
        · change p.datalen - d < fuel
          omega
      · have hstop : emulLoop ncm bounce direct (fuel + 1) p error h =
            some ((bounce { p with datalen := d } h).1, p.dataoffset,
              (bounce { p with datalen := d } h).2) := by
          simp only [emulLoop, if_neg hp, hpiece, if_true, ne_eq, hok, not_false_eq_true]
        rw [hstop]
        exact .fail hok
    | false =>
      by_cases hok : (direct { p with datalen := d } h).1 = 0
      · rw [emulLoop_direct bounce direct fuel error hp hpiece hok]
        refine .step hle (hd { p with datalen := d } h hok) (ih _ 0 _ hi ?_)
        change p.datalen - d < fuel
        omega
      · have hstop : emulLoop ncm bounce direct (fuel + 1) p error h =
            some ((direct { p with datalen := d } h).1, p.dataoffset,
              (direct { p with datalen := d } h).2) := by
          simp only [emulLoop, if_neg hp, hpiece, Bool.false_eq_true, if_false, ne_eq, hok,
            not_false_eq_true, if_true]
        rw [hstop]
        exact .fail hok

theorem rwCmd_goes {c : Cursor} (hok : (nScsiDirect u (rwCmd ncm iswrite c k) h).1 = 0) :
    Goes u iswrite c.dataoffset k h (nScsiDirect u (rwCmd ncm iswrite c k) h).2 := by
  obtain ⟨x, hlog, hcmd, hresult⟩ := nScsiDirect_zero hok
  refine ⟨[x], hlog, ?_, ?_⟩
  · intro y hy
    obtain rfl := mem_singleton.mp hy
    exact hresult
  · intro ys n hys
    apply Parts.direct
    · rw [hcmd]
      exact ⟨rfl, rfl⟩
    · rw [hcmd]
      exact hys

theorem rwLoop_reaches (ncm : NepClassMS) (u : BlockUnit) (iswrite : Bool) (fuel : ℕ) (c : Cursor)
    (error : ℤ) (h : Host Link) (hf : c.dataremain < fuel) :
    Reaches u iswrite c.dataoffset c.dataremain h
      (rwLoop ncm iswrite (nScsiDirect u) fuel c error h) := by
  induction fuel generalizing c error h with
  | zero => exact absurd hf (Nat.not_lt_zero _)
  | succ fuel ih =>
    unfold rwLoop
    simp only
    split
    · rename_i hzero
      rw [hzero]
      exact ⟨error, _, h, rfl, fun _ => ⟨rfl, .none⟩⟩
    split
    · rename_i herr
      exact .fail herr
    · rename_i hok
      have hmt := maxtrans_pos ncm
      refine .step (min_le_left _ ncm.maxtrans) (rwCmd_goes (not_not.mp hok)) (ih _ _ _ ?_)
      change c.dataremain - min c.dataremain ncm.maxtrans < fuel
      omega

structure Covered (u : BlockUnit) (iswrite : Bool) (length : ℕ) (o : Outcome Link) : Prop where
  actual : o.actual = length
  parts : Parts iswrite o.host.world.log 0 length
  carried : ∀ x ∈ o.host.world.log, ReliedOn u.tp x → Carried u.tp x

theorem covered_of_reaches (hlog : h.world.log = [])
    (hr : Reaches u iswrite 0 len h r) :
    ∃ o, (r.map fun (error, dataoffset, h) => (⟨error, error, dataoffset, h⟩ : Outcome Link)) =
        some o ∧ (o.error = 0 → Covered u iswrite len o) := by
  obtain ⟨error, d, h', rfl, hgoes⟩ := hr
  refine ⟨_, rfl, ?_⟩
  intro hzero
  obtain ⟨hd, hg⟩ := hgoes hzero
  obtain ⟨hparts, hok⟩ := hg.parts hlog
  rw [Nat.zero_add] at hd hparts
  exact ⟨hd, hparts, fun x hx hr => carried_of_zero (hok x hx) hr⟩

theorem emulate_covered
    (hb : ∀ p : Piece, p.datalen ≤ ncm.blockSize → Delivers u iswrite bounce p)
    (hd : ∀ p : Piece, Delivers u iswrite direct p)
    (hone : hasOneBlock ncm alloc = true) (io : IOStdReq) (hlog : h.world.log = []) :
    ∃ o, emulate ncm alloc bounce direct io h = some o ∧
      (o.error = 0 → Covered u iswrite io.length o) := by
  unfold emulate
  split
  · exact ⟨_, rfl, fun h => absurd h badLength_ne⟩
  split
  · exact ⟨_, rfl, fun h => absurd h badAddress_ne⟩
  rw [hone, if_neg (by decide)]
  apply covered_of_reaches hlog
  exact emulLoop_reaches hb hd _ ⟨startBlock ncm io, io.offset % ncm.blockSize, 0, io.length⟩ _ _
    (Nat.mod_lt _ (blockSize_pos ncm)) (Nat.lt_succ_self _)

def HasBounce (ncm : NepClassMS) (alloc : Bool) (io : IOStdReq) : Prop :=
  (aligned ncm io.length && aligned ncm io.offset) = true ∨ hasOneBlock ncm alloc = true

theorem nReadWrite64_covered (iswrite : Bool) (emul : Bool) {io : IOStdReq}
    (hone : HasBounce ncm alloc io) (hlog : h.world.log = []) :
    ∃ o, nReadWrite64 ncm iswrite alloc emul (nScsiDirect u) io h = some o ∧
      (o.error = 0 → Covered u iswrite io.length o) := by
  unfold nReadWrite64
  split
  · rename_i hunaligned
    rcases hone with haligned | hone
    · rw [Bool.and_eq_true] at haligned
      rw [haligned.1, haligned.2] at hunaligned
      exact absurd hunaligned (by decide)
    split
    · cases iswrite with
      | true =>
        exact emulate_covered (fun _ hp => writeBounce_delivers ncm u hp)
          (direct_delivers ncm u true) hone io hlog
      | false =>
        exact emulate_covered (fun _ hp => readBounce_delivers ncm u hp)
          (direct_delivers ncm u false) hone io hlog
    split
    · exact ⟨_, rfl, fun h => absurd h badLength_ne⟩
    · exact ⟨_, rfl, fun h => absurd h badAddress_ne⟩
  · apply covered_of_reaches hlog
    exact rwLoop_reaches ncm u iswrite _ (startCursor ncm io) _ _ (Nat.lt_succ_self _)

theorem blockArm_covered (u : BlockUnit) (cmd : Command) (emul : Bool)
    {io : IOStdReq} (hone : HasBounce ncm alloc io) (hlog : h.world.log = []) :
    ∃ o, blockArm ncm alloc emul (nScsiDirect u) cmd io h = some o ∧
      (o.error = 0 → Covered u (!cmd.isRead) io.length o) := by
  rw [blockArm_eq, ← meant_length io cmd]
  apply nReadWrite64_covered _ _ _ hlog
  unfold HasBounce
  rw [meant_length, meant_offset]
  exact hone

end BlockIo

end Neptune
