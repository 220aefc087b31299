import Neptune.Proofs.PipeAttrs

/-! Every pipe of a stream is in exactly one place after each call, as long as no step drops one. -/

namespace Neptune.StreamPipes

open Option Function

variable {pps t : PsdPipeStream} {P : ℕ → Place} {n : ℕ} {held : Option ℕ} {w : World} {tags : Tags}

theorem freeOld_inv {todo : List (Option ℕ)} (hp : Placed pps P) (hquiet : ∀ m, some m ∉ some n :: todo → (P m).quiet)
    (htodo : ∀ m, some m ∈ some n :: todo → pps.IsPipe m) (hthere : ∀ mp, pps.msgPort = some mp → mp ∉ pps.deleted)
    (htype : (pps.pipe n).type ≠ .message) : Inv { pps.psdWaitPipe n with pc := .freeOld todo } := by
  have hsame : Same pps (pps.psdWaitPipe n) := .psdWaitPipe n
  refine ⟨_, (hp.psdWaitPipe (htodo n List.mem_cons_self) htype).congr rfl rfl rfl rfl rfl rfl, fun m hm => ?_,
    fun m hm => ?_, fun mp hmp => ?_⟩
  · by_cases hmn : m = n
    · rw [hmn, update_self]
      exact afterWait_quiet hp htype
    · rw [update_of_ne hmn]
      refine hquiet m fun hin => ?_
      rcases List.mem_cons.mp hin with he | hin
      · exact hmn (some.inj he)
      · exact hm hin
  · have hm := htodo m (List.mem_cons_of_mem _ hm)
    rwa [← hsame.isPipe] at hm
  · change (pps.psdWaitPipe n).msgPort = some mp at hmp
    rw [hsame.msgPort] at hmp
    change mp ∉ (pps.psdWaitPipe n).deleted
    rw [hsame.deleted]
    exact hthere mp hmp

theorem go_inv (h : Inv pps) (hk : Keeps pps (.go w)) (hs : pps.go w = some t) : Inv t := by
  obtain ⟨P, hp, hat⟩ := h
  unfold At at hat
  unfold Keeps KeepsAt at hk
  unfold PsdPipeStream.go at hs
  cases hpc : pps.pc with
  | idle =>
    rw [hpc] at hs
    exact nomatch hs
  | read length =>
    rw [hpc] at hs hat hk
    cases hs
    exact psdStreamRead_inv hp hat hk
  | collect length actual term =>
    rw [hpc] at hs hat
    obtain ⟨mp, -, rfl⟩ := map_eq_some_iff.mp hs
    split
    · rename_i hget
      exact getMsg_inv hp hat.1 hat.2 hget
    · exact .still hp hat.1 (by constructor <;> rfl) fun h => ⟨h, hat.2⟩
  | drain length actual term =>
    rw [hpc] at hs hat
    cases hs
    exact drain_inv hp hat.1 hat.2
  | send length actual term =>
    rw [hpc] at hs hat
    cases hs
    exact sendFast_inv hp hat.1 hat.2
  | slow length actual term remlen =>
    rw [hpc] at hs hat
    cases hs
    exact sendSlow_inv hp hat.1 hat.2
  | wait length actual =>
    rw [hpc] at hs
    exact nomatch hs
  | plainWait n =>
    rw [hpc] at hat
    exact hat.elim
  | write data =>
    rw [hpc] at hs hat
    cases hs
    exact psdStreamWrite_inv hp hat
  | bulk n data actual =>
    rw [hpc] at hs hat
    cases hs
    exact sendBulk_inv hp hat.1 hat.2.1 hat.2.2
  | rest data actual =>
    rw [hpc] at hs hat
    cases hs
    exact .still hp hat (by constructor <;> rfl) id
  | await n stage =>
    rw [hpc] at hs hat
    dsimp only at hs
    split at hs
    · exact nomatch hs
    · split at hs
      · rename_i hget
        cases hs
        exact await_inv hp hat.1 hat.2 hget
      · exact nomatch hs
  | waitPipe n stage =>
    rw [hpc] at hs hat
    obtain ⟨htype, ht⟩ := ite_none_left_eq_some.mp hs
    cases ht
    obtain ⟨hplaced, hset, hpipe⟩ := waited hp hat.1 htype
    exact written_inv hplaced hset hpipe ((Same.psdWaitPipe n).direction.trans hat.2)
  | flush =>
    rw [hpc] at hs hat hk
    exact psdStreamFlush_inv hp hat hk hs
  | flushWait todo =>
    rw [hpc] at hs hat
    obtain ⟨hset, hquiet, htodo⟩ := hat
    cases todo with
    | nil =>
      cases hs
      exact .still hp hset (by constructor <;> rfl) fun h => ⟨h, hquiet⟩
    | cons o todo =>
      cases o with
      | none => exact nomatch hs
      | some n =>
        obtain ⟨htype, ht⟩ := ite_none_left_eq_some.mp hs
        cases ht
        have hplaced := hp.waitQuiet (hquiet n) (htodo n List.mem_cons_self) htype
        refine .still hplaced (hset.congr (.psdWaitPipe n)) (by constructor <;> rfl)
          fun h => ⟨h, hquiet, fun m hm => ?_⟩
        have hm := htodo m (List.mem_cons_of_mem _ hm)
        rwa [← (Same.psdWaitPipe n).isPipe] at hm
  | flushReady =>
    rw [hpc] at hs hat
    cases hs
    exact flushReady_inv hp hat.1 hat.2
  | flushPort =>
    rw [hpc] at hs hat
    exact flushPort_inv hp hat.1 hat.2 hs
  | flushOut n =>
    rw [hpc] at hs hat
    obtain ⟨htype, ht⟩ := ite_none_left_eq_some.mp hs
    cases ht
    obtain ⟨hplaced, hset, hpipe⟩ := waited hp hat.1 htype
    exact flushed_inv hplaced hset hpipe
  | setAttrs tags =>
    rw [hpc] at hs hat hk
    cases hs
    exact psdSetAttrs_inv hp hat hk
  | freeOld todo =>
    rw [hpc] at hs hat
    obtain ⟨hquiet, htodo, hthere⟩ := hat
    cases todo with
    | nil =>
      cases hs
      exact resetLists_inv hp (fun n => hquiet n List.not_mem_nil) hthere
    | cons o todo =>
      cases o with
      | none => exact nomatch hs
      | some n =>
        obtain ⟨htype, ht⟩ := ite_none_left_eq_some.mp hs
        cases ht
        exact freeOld_inv hp hquiet htodo hthere htype
  | alloc =>
    rw [hpc] at hs hat
    cases hs
    exact allocPipe_inv hp hat

theorem Same.complete (n : ℕ) (data : List UInt8) (error : StreamRead.IoErr) :
    Same pps (pps.complete n data error) := by
  refine ⟨rfl, fun m => ?_, rfl, rfl, rfl⟩
  by_cases hm : m = n
  · simp [PsdPipeStream.complete, PsdPipeStream.addTail, PsdPipeStream.setPipe, hm]
  · simp [PsdPipeStream.complete, PsdPipeStream.addTail, PsdPipeStream.setPipe, PsdPipeStream.atPort, hm]

theorem Settled.complete (hs : Settled pps P held) (hn : P n = .flight) (mp : ℕ) :
    Settled pps (update P n (.on (.port mp))) held := by
  refine hs.move (fun _ _ => Iff.rfl) (fun _ _ => nofun) (fun he => ⟨(hs.holds n he).1, nofun, nofun⟩) fun hd hne => ?_
  have hquiet := hs.out hd n hne
  rw [hn] at hquiet
  exact hquiet.elim

theorem complete_inv {data : List UInt8} {error : StreamRead.IoErr} (h : Inv pps)
    (htype : (pps.pipe n).type = .message) : Inv (pps.complete n data error) := by
  obtain ⟨P, hp, hat⟩ := h
  have hn : P n = .flight := (hp.flight n).mp htype
  have hloud : ¬(P n).quiet := by rw [hn]; exact id
  have hsame : Same pps (pps.complete n data error) := .complete n data error
  have hset : ∀ {held}, Settled pps P held → Settled (pps.complete n data error)
      (update P n (.on (.port (pps.pipe n).msgPort))) held := fun hs => (hs.complete hn _).congr hsame
  refine ⟨_, hp.complete hn data error, ?_⟩
  unfold At at hat ⊢
  rw [show (pps.complete n data error).pc = pps.pc from rfl, hsame.direction]
  cases hpc : pps.pc <;> rw [hpc] at hat
  case plainWait => exact hat
  case collect => exact ⟨hset hat.1, hat.2⟩
  case drain => exact ⟨hset hat.1, hat.2⟩
  case send => exact ⟨hset hat.1, hat.2⟩
  case slow => exact ⟨hset hat.1, hat.2⟩
  case wait => exact ⟨hset hat.1, hat.2⟩
  case await => exact ⟨hset hat.1, hat.2⟩
  case waitPipe => exact ⟨hset hat.1, hat.2⟩
  case flushOut => exact ⟨hset hat.1, hat.2⟩
  case bulk => exact absurd (hat.1.out hat.2.1 n nofun) hloud
  case flushWait => exact absurd (hat.2.1 n) hloud
  case flushReady => exact absurd (hat.2 n) hloud
  case flushPort => exact absurd (hat.2 n) hloud
  case freeOld todo =>
    refine ⟨fun m hm => ?_, fun m hm => ?_, ?_⟩
    · have hmn : m ≠ n := by
        rintro rfl
        exact hloud (hat.1 m hm)
      rw [update_of_ne hmn]
      exact hat.1 m hm
    · rw [hsame.isPipe]
      exact hat.2.1 m hm
    · rw [hsame.msgPort, hsame.deleted]
      exact hat.2.2
  all_goals exact hset hat

theorem call_inv {c : Call} (h : Inv pps) (hs : step pps (.call c) = some t) : Inv t := by
  obtain ⟨P, hp, hat⟩ := h
  unfold At at hat
  unfold step at hs
  cases hpc : pps.pc <;> simp only [hpc, reduceCtorEq, some.injEq] at hs
  rw [hpc] at hat
  subst hs
  refine .still hp hat (by constructor <;> rfl) fun h => ?_
  cases c <;> exact h

theorem wake_inv {aborted : Bool} (h : Inv pps) (hs : step pps (.wake aborted) = some t) : Inv t := by
  obtain ⟨P, hp, hat⟩ := h
  have hat' := hat
  unfold At at hat
  unfold step at hs
  cases hpc : pps.pc <;> simp only [hpc, reduceCtorEq] at hs
  case wait length actual =>
    rw [hpc] at hat
    split at hs
    · cases hs
      exact .still hp hat.1 (by constructor <;> rfl) id
    · cases hs
      exact .still hp hat.1 (by constructor <;> rfl) fun h => ⟨h, hat.2⟩
  case await n stage =>
    rw [hpc] at hat
    split at hs
    · cases hs
      exact .still hp hat.1 (by constructor <;> rfl) fun h => ⟨h, hat.2⟩
    · cases hs
      exact ⟨P, hp, hat'⟩

theorem step_inv {e : Event} (h : Inv pps) (hk : Keeps pps e) (hs : step pps e = some t) : Inv t := by
  cases e with
  | call c => exact call_inv h hs
  | go w => exact go_inv h hk hs
  | wake aborted => exact wake_inv h hs
  | complete n data error =>
    obtain ⟨⟨htype, -⟩, rfl⟩ := Runs.of_guard hs
    exact complete_inv h htype

theorem openStream_inv (direction : Bool) (maxPktSize : ℕ) (tags : Tags) :
    Inv (openStream direction maxPktSize tags) := by
  have hnone : ∀ n, ¬(openStream direction maxPktSize tags).IsPipe n := fun n hn => nomatch hn
  refine ⟨fun _ => .nowhere, ⟨⟨_, Linked.reps_empty, fun _ _ => iff_of_false nofun nofun⟩,
    fun _ => iff_of_false nofun nofun, nofun, fun n hn => absurd rfl hn, fun n hn => absurd hn (hnone n), fun n hn => absurd hn (hnone n), rfl⟩, ?_⟩
  exact ⟨fun n hn => absurd hn (hnone n), fun n hn => absurd hn (hnone n), nofun, fun _ _ _ => trivial, nofun⟩

theorem Inv.conserved (h : Inv pps) : pps.Conserved := by
  obtain ⟨P, hp, hat⟩ := h
  refine ⟨hp.tame, fun hidle n hn => ?_⟩
  have hs : Settled pps P none := by
    unfold At at hat
    cases hpc : pps.pc <;> rw [hpc] at hidle hat <;> first | exact hat | exact nomatch hidle
  have hport := hs.port n hn
  have hreplied : pps.Replied n ↔ P n = .on (.port (pps.pipe n).msgPort) := by
    constructor
    · rintro ⟨mp, hmp, hon⟩
      cases hport.symm.trans hmp
      exact hp.items.mp hon
    · exact fun hon => ⟨_, hport, hp.items.mpr hon⟩
  have hfree : pps.On .free n ↔ P n = .on .free := hp.items
  have hready : pps.On .ready n ↔ P n = .on .ready := hp.items
  have hflight : pps.InFlight n ↔ P n = .flight := hp.flight n
  match hP : P n with
  | .nowhere => exact absurd hP (hs.placed n hn nofun)
  | .on .free =>
    exact .free (hfree.mpr hP) (by rw [hready, hP]; exact nofun) (by rw [hflight, hP]; exact nofun)
      (by rw [hreplied, hP]; exact nofun)
  | .on .ready =>
    exact .ready (hready.mpr hP) (by rw [hfree, hP]; exact nofun) (by rw [hflight, hP]; exact nofun)
      (by rw [hreplied, hP]; exact nofun)
  | .flight =>
    exact .inFlight (hflight.mpr hP) (by rw [hfree, hP]; exact nofun) (by rw [hready, hP]; exact nofun)
      (by rw [hreplied, hP]; exact nofun)
  | .on (.port mp) =>
    have hmp := (hp.port n mp hP).1
    exact .replied (hreplied.mpr (by rw [hP, hmp])) (by rw [hfree, hP]; exact nofun) (by rw [hready, hP]; exact nofun)
      (by rw [hflight, hP]; exact nofun)

/-- As long as every step keeps the pipes, each is in exactly one place after every call. -/
theorem pipes_conserved {direction : Bool} {maxPktSize : ℕ} {evs : List Event}
    (h : Runs.Run step Keeps (openStream direction maxPktSize tags) evs t) : t.Conserved :=
  (h.invariant Inv (openStream_inv direction maxPktSize tags) fun _ _ _ hI hok hs => step_inv hI hok hs).conserved

def someWorld : World := ⟨true, true, some 0, none⟩

def noWait (bufferRead : Bool) (msgPort : Option (Option ℕ)) : Tags where
  msgPort := msgPort
  numPipes := some 2
  bufferSize := none
  flags := fun flags => { flags with bufferRead := bufferRead, doNotWait := true }
  termArray := none

def goes (steps : ℕ) : List Event := List.replicate steps (.go someWorld)

def calls (c : Call) (steps : ℕ) : List Event := .call c :: goes steps

def opensAndReads : List Event := goes 5 ++ calls (.read (some 1)) 7

theorem read_conserved :
    ∃ t, Runs.Run step Keeps (openStream true 64 (noWait true none)) opensAndReads t ∧ t.Conserved := by
  have hmeets : Runs.Meets step Keeps (openStream true 64 (noWait true none)) opensAndReads := by decide +kernel
  have hrun := Runs.Run.get_meets hmeets (by decide +kernel)
  exact ⟨_, hrun, pipes_conserved hrun⟩

def PsdPipeStream.lost (pps : PsdPipeStream) (n : ℕ) : Bool :=
  pps.pc.isIdle && decide (some n ∈ pps.pipes.getD []) && !decide (pps.On .free n) && !decide (pps.On .ready n) &&
    !decide (pps.InFlight n) && !decide (pps.Replied n)

theorem lost_run {evs : List Event} (n : ℕ) (h : (Runs.exec step pps evs).any (·.lost n) = true) :
    ∃ t, Runs.Run step Runs.anyStep pps evs t ∧ ¬t.Conserved := by
  obtain ⟨t, ht, hlost⟩ := (Option.any_eq_true _ _).mp h
  refine ⟨t, .of_exec_any ht, fun hconserved => ?_⟩
  simp only [PsdPipeStream.lost, Bool.and_eq_true, decide_eq_true_eq, Bool.not_eq_true',
    decide_eq_false_iff_not] at hlost
  obtain ⟨⟨⟨⟨⟨hidle, hn⟩, hfree⟩, hready⟩, hflight⟩, hreplied⟩ := hlost
  cases hconserved.2 hidle n hn with
  | free h => exact hfree h
  | ready h => exact hready h
  | inFlight h => exact hflight h
  | replied h => exact hreplied h

/-- A flush loses the pipes it aborts, a plain read all but the one it sends, and a new port those that reply to the
old one. -/
theorem pipe_lost :
    (∃ evs t, Runs.Run step Runs.anyStep (openStream true 64 (noWait true none)) evs t ∧ ¬t.Conserved) ∧
    (∃ evs t, Runs.Run step Runs.anyStep (openStream true 64 (noWait false none)) evs t ∧ ¬t.Conserved) ∧
    ∃ evs t, Runs.Run step Runs.anyStep (openStream true 64 (noWait true (some (some 5)))) evs t ∧ ¬t.Conserved := by
  refine ⟨⟨opensAndReads ++ calls .flush 1 ++ [.complete 0 [] .other, .complete 1 [] .other] ++ goes 5, ?_⟩,
    ⟨goes 5 ++ calls (.read (some 1)) 1 ++ [.complete 0 [7] .none] ++ goes 1, ?_⟩,
    ⟨opensAndReads ++ calls (.setAttrs (noWait true (some (some 6)))) 1 ++ [.complete 0 [7] .none], ?_⟩⟩
  · exact lost_run 0 (by decide +kernel)
  · exact lost_run 1 (by decide +kernel)
  · exact lost_run 0 (by decide +kernel)

end Neptune.StreamPipes
