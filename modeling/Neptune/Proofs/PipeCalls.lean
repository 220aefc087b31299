import Neptune.Spec.StreamPipes

/-! Every pipe of a stream in one place: the abstract state behind the linked lists, and what the operations on the
lists do to it. -/

namespace Neptune

open Option Function List

namespace StreamPipes

open Linked (Links Reps)

inductive Place
  | on (l : ListId)
  | flight
  | nowhere
  deriving DecidableEq

variable {pps t : PsdPipeStream} {P Q : ℕ → Place} {l : ListId} {n m mp : ℕ} {p : Place} {links : Links ListId ℕ}

/-- The pipe `n` is in the place `P n`. A pipe that has been sent has a port that is there. -/
structure Placed (pps : PsdPipeStream) (P : ℕ → Place) : Prop where
  lists : ∃ L, Reps pps.links L ∧ ∀ l n, n ∈ L l ↔ P n = .on l
  flight : ∀ n, (pps.pipe n).type = .message ↔ P n = .flight
  port : ∀ n mp, P n = .on (.port mp) → (pps.pipe n).msgPort = mp ∧ (pps.pipe n).type = .replyMsg
  own : ∀ n, P n ≠ .nowhere → pps.IsPipe n
  lt : ∀ n, pps.IsPipe n → n < pps.allocated
  there : ∀ n, pps.IsPipe n → (pps.pipe n).type ≠ .freeMsg → (pps.pipe n).msgPort ∉ pps.deleted
  tame : pps.wild = false

theorem Placed.congr (h : Placed pps P) (hlinks : t.links = pps.links) (hpipe : t.pipe = pps.pipe)
    (hpipes : t.pipes = pps.pipes) (hallocated : t.allocated = pps.allocated) (hdeleted : t.deleted = pps.deleted)
    (hwild : t.wild = pps.wild) : Placed t P := by
  have his : ∀ n, t.IsPipe n = pps.IsPipe n := fun n => by rw [PsdPipeStream.IsPipe, hpipes]; rfl
  refine ⟨hlinks ▸ h.lists, hpipe ▸ h.flight, hpipe ▸ h.port, ?_, ?_, ?_, hwild.trans h.tame⟩
  · simpa only [his] using h.own
  · simpa only [his, hallocated] using h.lt
  · simpa only [his, hpipe, hdeleted] using h.there

theorem Placed.move (h : Placed pps P) (hpipes : t.pipes = pps.pipes) (hallocated : t.allocated = pps.allocated)
    (hdeleted : t.deleted = pps.deleted) (hwild : t.wild = false)
    (hlists : ∃ L, Reps t.links L ∧ ∀ l m, m ∈ L l ↔ update P n p m = .on l)
    (hothers : ∀ m, m ≠ n → t.pipe m = pps.pipe m) (hflight : (t.pipe n).type = .message ↔ p = .flight)
    (hport : ∀ mp, p = .on (.port mp) → (t.pipe n).msgPort = mp ∧ (t.pipe n).type = .replyMsg)
    (hthere : (t.pipe n).type ≠ .freeMsg → (t.pipe n).msgPort ∉ pps.deleted)
    (hown : p ≠ .nowhere → pps.IsPipe n) : Placed t (update P n p) := by
  have his : ∀ n, t.IsPipe n = pps.IsPipe n := fun n => by rw [PsdPipeStream.IsPipe, hpipes]; rfl
  refine ⟨hlists, fun m => ?_, fun m mp hp => ?_, fun m hp => ?_, fun m => ?_, fun m hm => ?_, hwild⟩
  · by_cases hm : m = n
    · rw [hm, update_self]
      exact hflight
    · rw [update_of_ne hm, hothers m hm]
      exact h.flight m
  · by_cases hm : m = n
    · rw [hm, update_self] at hp
      rw [hm]
      exact hport mp hp
    · rw [update_of_ne hm] at hp
      rw [hothers m hm]
      exact h.port m mp hp
  · rw [his]
    by_cases hm : m = n
    · rw [hm, update_self] at hp
      rw [hm]
      exact hown hp
    · rw [update_of_ne hm] at hp
      exact h.own m hp
  · rw [his, hallocated]
    exact h.lt m
  · rw [his] at hm
    rw [hdeleted]
    by_cases hmn : m = n
    · rw [hmn]
      exact hthere
    · rw [hothers m hmn]
      exact h.there m hm

theorem Placed.there_of (h : Placed pps P) (hn : P n ≠ .nowhere) (htype : (pps.pipe n).type ≠ .freeMsg) :
    (pps.pipe n).msgPort ∉ pps.deleted :=
  h.there n (h.own n hn) htype

theorem Placed.first (h : Placed pps P) (hfirst : pps.links.first l = some n) : P n = .on l := by
  obtain ⟨L, hreps, hmem⟩ := h.lists
  rw [hreps.first] at hfirst
  exact (hmem l n).mp (mem_of_mem_head? hfirst)

theorem Placed.items (h : Placed pps P) : n ∈ pps.links.items l (pps.allocated + 2) ↔ P n = .on l := by
  obtain ⟨L, hreps, hmem⟩ := h.lists
  have hlt : ∀ a ∈ L l, a < pps.allocated := fun a ha =>
    h.lt a (h.own a (by rw [(hmem l a).mp ha]; exact nofun))
  have hlen : (L l).length ≤ pps.allocated := by
    have hsub : L l ⊆ range pps.allocated := fun a ha => mem_range.mpr (hlt a ha)
    simpa using (subperm_of_subset (hreps.nodup l) hsub).length_le
  rw [hreps.items (by omega)]
  exact hmem l n

variable {L : ListId → List ℕ}

theorem remove_lists (hreps : Reps pps.links L) (hmem : ∀ l n, n ∈ L l ↔ P n = .on l)
    (hn : P n = .on l) (hp : ∀ l, p ≠ .on l) :
    ∃ L, Reps (pps.links.remove n) L ∧ ∀ l m, m ∈ L l ↔ update P n p m = .on l := by
  refine ⟨_, hreps.remove ((hmem l n).mpr hn), fun l' m => ?_⟩
  by_cases hm : m = n
  · subst hm
    rw [update_self]
    refine iff_of_false (fun hin => ?_) (hp l')
    by_cases hl : l' = l
    · subst hl
      rw [update_self] at hin
      exact (hreps.nodup l').not_mem_erase hin
    · rw [update_of_ne hl, hmem, hn] at hin
      cases hin
      exact hl rfl
  · rw [update_of_ne hm, ← hmem]
    by_cases hl : l' = l
    · subst hl
      rw [update_self, mem_erase_of_ne hm]
    · rw [update_of_ne hl]

theorem Placed.remove (h : Placed pps P) (hn : P n = .on l) : Placed (pps.remove n) (update P n .nowhere) := by
  obtain ⟨L, hreps, hmem⟩ := h.lists
  refine h.move rfl rfl rfl h.tame (remove_lists hreps hmem hn nofun) (fun _ _ => rfl) ?_ nofun
    (h.there n (h.own n (by rw [hn]; exact nofun))) (fun hne => absurd rfl hne)
  exact iff_of_false (fun hmsg => nomatch hn.symm.trans ((h.flight n).mp hmsg)) nofun

theorem Placed.remHead (h : Placed pps P) (hget : pps.links.remHead l = some (n, links)) :
    P n = .on l ∧ links = pps.links.remove n := by
  obtain ⟨L, hreps, hmem⟩ := h.lists
  cases hl : L l with
  | nil => exact nomatch (hreps.remHead_nil hl).symm.trans hget
  | cons a rest =>
    cases (hreps.remHead_cons hl).symm.trans hget
    exact ⟨(hmem l n).mp (by rw [hl]; exact mem_cons_self), rfl⟩

theorem addTail_lists (h : Placed pps P) (hn : P n = .nowhere ∨ P n = .flight) (l : ListId) :
    ∃ L, Reps (pps.links.addTail l n) L ∧ ∀ l' m, m ∈ L l' ↔ update P n (.on l) m = .on l' := by
  obtain ⟨L, hreps, hmem⟩ := h.lists
  have hnot : ∀ l', n ∉ L l' := by
    intro l' hin
    rw [hmem] at hin
    rcases hn with hn | hn <;> exact nomatch hn.symm.trans hin
  refine ⟨_, hreps.addTail l hnot, fun l' m => ?_⟩
  by_cases hl : l' = l
  · subst hl
    rw [update_self, mem_append, mem_singleton, hmem]
    by_cases hm : m = n
    · rw [hm, update_self]
      exact iff_of_true (.inr rfl) rfl
    · rw [update_of_ne hm]
      exact or_iff_left hm
  · rw [update_of_ne hl, hmem]
    by_cases hm : m = n
    · rw [hm, update_self, ← hmem]
      refine iff_of_false (hnot l') fun he => ?_
      cases he
      exact hl rfl
    · rw [update_of_ne hm]

theorem Placed.addTail (h : Placed pps P) (hn : P n = .nowhere) (hpipe : pps.IsPipe n) (hl : ∀ mp, l ≠ .port mp) :
    Placed (pps.addTail l n) (update P n (.on l)) := by
  refine h.move rfl rfl rfl h.tame (addTail_lists h (.inl hn) l) (fun _ _ => rfl) ?_ (fun mp hp => ?_)
    (h.there n hpipe) fun _ => hpipe
  · exact iff_of_false (fun hmsg => nomatch hn.symm.trans ((h.flight n).mp hmsg)) nofun
  · cases hp
    exact absurd rfl (hl mp)

theorem Placed.setPipe {pp : PsdPipe} (h : Placed pps P) (htype : pp.type = (pps.pipe n).type)
    (hport : pp.msgPort = (pps.pipe n).msgPort) : Placed (pps.setPipe n pp) P := by
  refine ⟨h.lists, fun m => ?_, fun m mp hp => ?_, h.own, h.lt, fun m hm => ?_, h.tame⟩
  · by_cases hm : m = n
    · simpa [PsdPipeStream.setPipe, hm, htype] using h.flight n
    · simpa [PsdPipeStream.setPipe, hm] using h.flight m
  · by_cases hm : m = n
    · subst hm
      simpa [PsdPipeStream.setPipe, htype, hport] using h.port m mp hp
    · simpa [PsdPipeStream.setPipe, hm] using h.port m mp hp
  · by_cases hmn : m = n
    · subst hmn
      simpa [PsdPipeStream.setPipe, htype, hport] using h.there m hm
    · simpa [PsdPipeStream.setPipe, hmn] using h.there m hm

theorem lists_self (hmem : ∀ l n, n ∈ L l ↔ P n = .on l) (hn : P n = .nowhere ∨ P n = .flight)
    (hp : ∀ l, p ≠ .on l) (l : ListId) (m : ℕ) : m ∈ L l ↔ update P n p m = .on l := by
  rw [hmem]
  by_cases hm : m = n
  · rw [hm, update_self]
    refine iff_of_false (fun he => ?_) (hp l)
    rcases hn with hn | hn <;> exact nomatch hn.symm.trans he
  · rw [update_of_ne hm]

theorem Placed.submit (h : Placed pps P) (hn : P n = .nowhere) (hpipe : pps.IsPipe n)
    (hthere : (pps.pipe n).msgPort ∉ pps.deleted) (slot : Option ℕ) (length : ℕ) :
    Placed (pps.submit n slot length) (update P n .flight) := by
  obtain ⟨L, hreps, hmem⟩ := h.lists
  refine h.move rfl rfl rfl h.tame ⟨L, hreps, lists_self hmem (.inl hn) nofun⟩
    (fun m hm => update_of_ne hm _ _) ?_ nofun (fun _ => ?_) fun _ => hpipe
  · exact iff_of_true (by simp [PsdPipeStream.submit, PsdPipeStream.setPipe]) rfl
  · simpa [PsdPipeStream.submit, PsdPipeStream.setPipe] using hthere

theorem atPort_eq (h : Placed pps P) (hmp : mp ∉ pps.deleted) : pps.atPort mp = pps := by
  unfold PsdPipeStream.atPort
  rw [decide_eq_false hmp, h.tame]
  show { pps with wild := false } = pps
  rw [← h.tame]

theorem Placed.complete (h : Placed pps P) (hn : P n = .flight) (data : List UInt8) (error : StreamRead.IoErr) :
    Placed (pps.complete n data error) (update P n (.on (.port (pps.pipe n).msgPort))) := by
  have htype := (h.flight n).mpr hn
  have hthere : (pps.pipe n).msgPort ∉ pps.deleted :=
    h.there_of (by rw [hn]; exact nofun) (by rw [htype]; exact nofun)
  unfold PsdPipeStream.complete
  dsimp only
  rw [atPort_eq h hthere]
  refine h.move rfl rfl rfl h.tame (addTail_lists h (.inr hn) _) (fun m hm => update_of_ne hm _ _) ?_
    (fun mp hp => ?_) (fun _ => ?_) fun _ => h.own n (by rw [hn]; exact nofun)
  · exact iff_of_false (by simp [PsdPipeStream.setPipe, PsdPipeStream.addTail]) nofun
  · cases hp
    simp [PsdPipeStream.setPipe, PsdPipeStream.addTail]
  · simpa [PsdPipeStream.setPipe, PsdPipeStream.addTail] using hthere

theorem Placed.settle {pp : PsdPipe} (h : Placed pps P) (htype : pp.type = .freeMsg) (hflight : P n ≠ .flight)
    (hport : ∀ mp, P n ≠ .on (.port mp)) : Placed (pps.setPipe n pp) P := by
  refine ⟨h.lists, fun m => ?_, fun m mp hp => ?_, h.own, h.lt, fun m hm => ?_, h.tame⟩
  · by_cases hm : m = n
    · rw [hm]
      exact iff_of_false (by simp [PsdPipeStream.setPipe, htype]) hflight
    · simpa [PsdPipeStream.setPipe, hm] using h.flight m
  · have hm : m ≠ n := by
      rintro rfl
      exact hport mp hp
    simpa [PsdPipeStream.setPipe, hm] using h.port m mp hp
  · by_cases hmn : m = n
    · subst hmn
      simp [PsdPipeStream.setPipe, htype]
    · simpa [PsdPipeStream.setPipe, hmn] using h.there m hm

def afterWait (P : ℕ → Place) (n : ℕ) : Place :=
  match P n with
  | .on (.port _) => .nowhere
  | p => p

theorem afterWait_eq (h : ∀ mp, P n ≠ .on (.port mp)) : afterWait P n = P n := by
  unfold afterWait
  split
  · rename_i mp hp
    exact absurd hp (h mp)
  · rfl

theorem Placed.psdWaitPipe (h : Placed pps P) (hpipe : pps.IsPipe n) (hn : (pps.pipe n).type ≠ .message) :
    Placed (pps.psdWaitPipe n) (update P n (afterWait P n)) := by
  have hflight : P n ≠ .flight := fun hp => hn ((h.flight n).mpr hp)
  unfold PsdPipeStream.psdWaitPipe
  dsimp only
  by_cases hreply : (pps.pipe n).type = .replyMsg
  · rw [if_pos hreply, atPort_eq h (h.there n hpipe (by rw [hreply]; exact nofun))]
    by_cases hin : n ∈ pps.links.items (.port (pps.pipe n).msgPort) (pps.allocated + 2)
    · rw [if_pos hin]
      have hon : P n = .on (.port (pps.pipe n).msgPort) := h.items.mp hin
      have hwaited : afterWait P n = .nowhere := by rw [afterWait, hon]
      rw [hwaited]
      exact (h.remove hon).settle rfl (by simp) (by simp)
    · rw [if_neg hin]
      have hport : ∀ mp, P n ≠ .on (.port mp) := by
        intro mp hp
        rw [h.items, (h.port n mp hp).1] at hin
        exact hin hp
      rw [afterWait_eq hport, update_eq_self]
      exact h.settle rfl hflight hport
  · have hport : ∀ mp, P n ≠ .on (.port mp) := fun mp hp => hreply (h.port n mp hp).2
    rw [if_neg hreply, afterWait_eq hport, update_eq_self]
    exact h

variable {u : PsdPipeStream} {held held' : Option ℕ} {w : World}

def Place.quiet : Place → Prop
  | .flight | .on (.port _) => False
  | _ => True

/-- Between the operations of a call: `held` is the pipe it has sent and waits for. -/
structure Settled (pps : PsdPipeStream) (P : ℕ → Place) (held : Option ℕ) : Prop where
  placed : ∀ n, pps.IsPipe n → held ≠ some n → P n ≠ .nowhere
  port : ∀ n, pps.IsPipe n → pps.msgPort = some (pps.pipe n).msgPort
  holds : ∀ n, held = some n → pps.IsPipe n ∧ P n ≠ .on .free ∧ P n ≠ .on .ready
  out : pps.direction = false → ∀ n, held ≠ some n → (P n).quiet
  there : ∀ mp, pps.msgPort = some mp → mp ∉ pps.deleted

def At (pps : PsdPipeStream) (P : ℕ → Place) : Prop :=
  match pps.pc with
  | .plainWait _ => False
  | .collect _ _ _ | .drain _ _ _ | .send _ _ _ | .slow _ _ _ _ | .wait _ _ => Settled pps P none ∧ pps.direction = true
  | .bulk n _ _ => Settled pps P none ∧ pps.direction = false ∧ P n = .on .free
  | .await n _ | .waitPipe n _ | .flushOut n => Settled pps P (some n) ∧ pps.direction = false
  | .flushWait todo => Settled pps P none ∧ (∀ n, (P n).quiet) ∧ ∀ n, some n ∈ todo → pps.IsPipe n
  | .flushReady | .flushPort => Settled pps P none ∧ ∀ n, (P n).quiet
  | .freeOld todo =>
    (∀ n, some n ∉ todo → (P n).quiet) ∧ (∀ n, some n ∈ todo → pps.IsPipe n) ∧
      ∀ mp, pps.msgPort = some mp → mp ∉ pps.deleted
  | _ => Settled pps P none

def Inv (pps : PsdPipeStream) : Prop := ∃ P, Placed pps P ∧ At pps P

structure Same (pps t : PsdPipeStream) : Prop where
  pipes : t.pipes = pps.pipes
  ports : ∀ n, (t.pipe n).msgPort = (pps.pipe n).msgPort
  msgPort : t.msgPort = pps.msgPort
  direction : t.direction = pps.direction
  deleted : t.deleted = pps.deleted

theorem Same.isPipe (h : Same pps t) : t.IsPipe n = pps.IsPipe n := by
  rw [PsdPipeStream.IsPipe, h.pipes]
  rfl

theorem Same.trans (h : Same pps t) (h' : Same t u) : Same pps u :=
  ⟨h'.pipes.trans h.pipes, fun n => (h'.ports n).trans (h.ports n), h'.msgPort.trans h.msgPort,
    h'.direction.trans h.direction, h'.deleted.trans h.deleted⟩

theorem Same.setPipe {pp : PsdPipe} (hport : pp.msgPort = (pps.pipe n).msgPort) : Same pps (pps.setPipe n pp) := by
  refine ⟨rfl, fun m => ?_, rfl, rfl, rfl⟩
  by_cases hm : m = n
  · rw [hm]
    simpa [PsdPipeStream.setPipe] using hport
  · simp [PsdPipeStream.setPipe, hm]

theorem Same.submit (n : ℕ) (slot : Option ℕ) (length : ℕ) : Same pps (pps.submit n slot length) := .setPipe rfl

theorem Same.remove (n : ℕ) : Same pps (pps.remove n) := ⟨rfl, fun _ => rfl, rfl, rfl, rfl⟩

theorem Same.addTail (l : ListId) (n : ℕ) : Same pps (pps.addTail l n) := ⟨rfl, fun _ => rfl, rfl, rfl, rfl⟩

theorem Same.psdWaitPipe (n : ℕ) : Same pps (pps.psdWaitPipe n) := by
  have hset : Same pps ((pps.atPort (pps.pipe n).msgPort).setPipe n { pps.pipe n with type := .freeMsg }) :=
    .trans (t := pps.atPort (pps.pipe n).msgPort) ⟨rfl, fun _ => rfl, rfl, rfl, rfl⟩ (.setPipe rfl)
  unfold PsdPipeStream.psdWaitPipe
  dsimp only
  split
  · split
    · exact hset.trans (.remove n)
    · exact hset
  · exact ⟨rfl, fun _ => rfl, rfl, rfl, rfl⟩

theorem Settled.congr (h : Settled pps P held) (hs : Same pps t) : Settled t P held := by
  refine ⟨fun n hn => ?_, fun n hn => ?_, fun n hn => ?_, fun hd => ?_, ?_⟩
  · rw [hs.isPipe] at hn
    exact h.placed n hn
  · rw [hs.isPipe] at hn
    rw [hs.msgPort, hs.ports]
    exact h.port n hn
  · rw [hs.isPipe]
    exact h.holds n hn
  · rw [hs.direction] at hd
    exact h.out hd
  · rw [hs.msgPort, hs.deleted]
    exact h.there

theorem Settled.move (h : Settled pps P held) (hheld : ∀ m, m ≠ n → (held' = some m ↔ held = some m))
    (hplaced : pps.IsPipe n → held' ≠ some n → p ≠ .nowhere)
    (hp : held' = some n → pps.IsPipe n ∧ p ≠ .on .free ∧ p ≠ .on .ready)
    (hout : pps.direction = false → held' ≠ some n → p.quiet) : Settled pps (update P n p) held' := by
  refine ⟨fun m hm hne => ?_, h.port, fun m hm => ?_, fun hd m hne => ?_, h.there⟩
  · by_cases hmn : m = n
    · rw [hmn] at hm hne ⊢
      rw [update_self]
      exact hplaced hm hne
    · rw [update_of_ne hmn]
      exact h.placed m hm (mt (hheld m hmn).mpr hne)
  · by_cases hmn : m = n
    · rw [hmn] at hm ⊢
      rw [update_self]
      exact hp hm
    · rw [update_of_ne hmn]
      exact h.holds m ((hheld m hmn).mp hm)
  · by_cases hmn : m = n
    · rw [hmn] at hne ⊢
      rw [update_self]
      exact hout hd hne
    · rw [update_of_ne hmn]
      exact h.out hd m (mt (hheld m hmn).mpr hne)

theorem Settled.shift (h : Settled pps P none) (hp : p ≠ .nowhere) (hout : pps.direction = false → p.quiet) :
    Settled pps (update P n p) none :=
  h.move (fun _ _ => Iff.rfl) (fun _ _ => hp) nofun fun hd _ => hout hd

theorem Settled.take (h : Settled pps P none) (hn : pps.IsPipe n) (hfree : p ≠ .on .free) (hready : p ≠ .on .ready) :
    Settled pps (update P n p) (some n) :=
  h.move (fun _ hm => ⟨fun he => absurd (some.inj he).symm hm, nofun⟩) (fun _ hne => absurd rfl hne)
    (fun _ => ⟨hn, hfree, hready⟩) fun _ hne => absurd rfl hne

theorem Settled.give (h : Settled pps P (some n)) (hp : p ≠ .nowhere) (hout : pps.direction = false → p.quiet) :
    Settled pps (update P n p) none :=
  h.move (fun _ hm => ⟨nofun, fun he => absurd (some.inj he).symm hm⟩) (fun _ _ => hp) nofun
    fun hd _ => hout hd

theorem Settled.pipe_there (h : Settled pps P held) (hn : pps.IsPipe n) : (pps.pipe n).msgPort ∉ pps.deleted :=
  h.there _ (h.port n hn)

theorem Placed.isPipe (h : Placed pps P) (hn : P n = .on l) : pps.IsPipe n := h.own n (by rw [hn]; exact nofun)

theorem Placed.sendFree (h : Placed pps P) (hset : Settled pps P held) (hn : P n = .on l) (slot : Option ℕ)
    (length : ℕ) : Placed ((pps.remove n).submit n slot length) (update P n .flight) := by
  have hsent := (h.remove hn).submit (update_self ..) (h.isPipe hn) (hset.pipe_there (h.isPipe hn)) slot length
  rwa [update_idem] at hsent

theorem Placed.relink (h : Placed pps P) (l' : ListId) (hn : P n = .on l) (hl : ∀ mp, l' ≠ .port mp) :
    Placed ((pps.remove n).addTail l' n) (update P n (.on l')) := by
  have hput := (h.remove hn).addTail (update_self ..) (h.isPipe hn) hl
  rwa [update_idem] at hput

structure Still (pps t : PsdPipeStream) : Prop where
  links : t.links = pps.links
  pipe : t.pipe = pps.pipe
  pipes : t.pipes = pps.pipes
  allocated : t.allocated = pps.allocated
  deleted : t.deleted = pps.deleted
  wild : t.wild = pps.wild
  msgPort : t.msgPort = pps.msgPort
  direction : t.direction = pps.direction

theorem Still.same (h : Still pps t) : Same pps t :=
  ⟨h.pipes, fun n => by rw [h.pipe], h.msgPort, h.direction, h.deleted⟩

theorem Placed.still (h : Placed pps P) (hs : Still pps t) : Placed t P :=
  h.congr hs.links hs.pipe hs.pipes hs.allocated hs.deleted hs.wild

theorem Inv.still (hp : Placed pps P) (hs : Settled pps P held) (h : Still pps t) (hat : Settled t P held → At t P) :
    Inv t := ⟨P, hp.still h, hat (hs.congr h.same)⟩

theorem psdDoPipeGone_placed (hp : Placed pps P) (hquiet : (P n).quiet) : Placed (pps.psdDoPipeGone n) P := by
  refine hp.settle rfl (fun hf => ?_) fun mp hm => ?_
  · rw [hf] at hquiet
    exact hquiet
  · rw [hm] at hquiet
    exact hquiet

theorem psdStreamRead_inv {length : Option ℕ} (hp : Placed pps P) (hs : Settled pps P none)
    (hk : ¬PlainSends pps length w) : Inv (pps.psdStreamRead length w) := by
  unfold PsdPipeStream.psdStreamRead
  by_cases hopen : pps.pipes.isNone ∨ pps.direction = false
  · rw [if_pos hopen]
    exact .still hp hs (by constructor <;> rfl) id
  · rw [if_neg hopen]
    rw [not_or, Bool.not_eq_true, isNone_eq_false_iff, Bool.not_eq_false] at hopen
    by_cases hasync : pps.flags.asyncIo = true
    · rw [if_pos hasync]
      exact .still hp hs (by constructor <;> rfl) id
    · rw [if_neg hasync]
      by_cases hbuffer : pps.flags.bufferRead = true
      · rw [if_pos hbuffer]
        exact .still hp hs (by constructor <;> rfl) fun h => ⟨h, hopen.2⟩
      · rw [if_neg hbuffer]
        cases hfirst : pps.firstFree with
        | none => exact .still hp hs (by constructor <;> rfl) id
        | some n =>
          have hn : P n = .on .free := hp.first hfirst
          dsimp only
          split
          · exact .still hp hs (by constructor <;> rfl) id
          · rename_i hlength
            split
            · rename_i hconnected
              exact absurd ⟨hopen.1, hopen.2, Bool.not_eq_true _ ▸ hasync, Bool.not_eq_true _ ▸ hbuffer,
                by rw [hfirst]; rfl, hlength, hconnected⟩ hk
            · have hgone := psdDoPipeGone_placed hp (n := n) (by rw [hn]; trivial)
              exact .still hgone (hs.congr (.setPipe rfl)) (by constructor <;> rfl) id

variable {actual length : ℕ} {term : Bool} {stage : Stage}

theorem getMsg_inv {length : Option ℕ} (hp : Placed pps P) (hs : Settled pps P none)
    (hdir : pps.direction = true) (hget : pps.links.remHead l = some (n, links)) :
    Inv (pps.getMsg n links length actual term) := by
  obtain ⟨hn, rfl⟩ := hp.remHead hget
  unfold PsdPipeStream.getMsg
  dsimp only
  split
  · have hput := hp.relink .free hn nofun
    have hset := (hs.shift (n := n) (p := .on .free) nofun fun _ => trivial).congr
      ((Same.remove n).trans (.addTail .free n))
    exact .still hput hset (by constructor <;> rfl) fun h => ⟨h, hdir⟩
  · have hput := hp.relink .ready hn nofun
    have hset := (hs.shift (n := n) (p := .on .ready) nofun fun _ => trivial).congr
      ((Same.remove n).trans (.addTail .ready n))
    exact .still hput hset (by constructor <;> rfl) fun h => ⟨h, hdir⟩

theorem copyPacket_inv (hp : Placed pps P) (hs : Settled pps P none)
    (hdir : pps.direction = true) (hn : P n = .on .ready) : Inv (pps.copyPacket n length actual term) := by
  unfold PsdPipeStream.copyPacket
  dsimp only
  split
  · have hput := hp.relink .free hn nofun
    have hset := (hs.shift (n := n) (p := .on .free) nofun fun _ => trivial).congr
      ((Same.remove n).trans (.addTail .free n))
    split
    · exact .still hput hset (by constructor <;> rfl) fun h => ⟨h, hdir⟩
    · exact .still hput hset (by constructor <;> rfl) fun h => ⟨h, hdir⟩
  · split
    · exact .still hp hs (by constructor <;> rfl) fun h => ⟨h, hdir⟩
    · exact .still hp hs (by constructor <;> rfl) fun h => ⟨h, hdir⟩

theorem drain_inv (hp : Placed pps P) (hs : Settled pps P none)
    (hdir : pps.direction = true) : Inv (pps.drain length actual term) := by
  unfold PsdPipeStream.drain
  split
  · exact .still hp hs (by constructor <;> rfl) fun h => ⟨h, hdir⟩
  · cases hfirst : pps.links.first .ready with
    | none => exact .still hp hs (by constructor <;> rfl) id
    | some n =>
      dsimp only
      split
      · exact .still hp hs (by constructor <;> rfl) id
      · exact copyPacket_inv hp hs hdir (hp.first hfirst)

theorem sendRead (pp : PsdPipe) (hp : Placed pps P) (hs : Settled pps P none) (hdir : pps.direction = true)
    (hn : P n = .on .free) (htype : pp.type = (pps.pipe n).type) (hport : pp.msgPort = (pps.pipe n).msgPort)
    (slot : Option ℕ) (length : ℕ) :
    Placed (((pps.setPipe n pp).remove n).psdSendPipe n slot length) (update P n .flight) ∧
      Settled (((pps.setPipe n pp).remove n).psdSendPipe n slot length) (update P n .flight) none := by
  have hset : Settled (pps.setPipe n pp) P none := hs.congr (.setPipe hport)
  refine ⟨(hp.setPipe htype hport).sendFree hset hn slot length, ?_⟩
  refine (hset.shift (p := .flight) nofun fun hd => ?_).congr ((Same.remove n).trans (.submit n slot length))
  exact nomatch hdir.symm.trans hd

theorem sendFast_inv (hp : Placed pps P) (hs : Settled pps P none)
    (hdir : pps.direction = true) : Inv (pps.sendFast length actual term) := by
  unfold PsdPipeStream.sendFast
  split
  · cases hfirst : pps.firstFree with
    | none => exact .still hp hs (by constructor <;> rfl) fun h => ⟨h, hdir⟩
    | some n =>
      obtain ⟨hplaced, hset⟩ := sendRead { pps.pipe n with inPlace := true } hp hs hdir (hp.first hfirst) rfl
        rfl none (length - length % pps.maxPktSize)
      exact .still hplaced hset (by constructor <;> rfl) fun h => ⟨h, hdir⟩
  · exact .still hp hs (by constructor <;> rfl) fun h => ⟨h, hdir⟩

theorem passEnd_inv (hp : Placed pps P) (hs : Settled pps P none)
    (hdir : pps.direction = true) : Inv (pps.passEnd length actual term) := by
  unfold PsdPipeStream.passEnd
  split
  · exact .still hp hs (by constructor <;> rfl) id
  · exact .still hp hs (by constructor <;> rfl) fun h => ⟨h, hdir⟩

theorem sendSlow_inv {remlen : ℕ} (hp : Placed pps P) (hs : Settled pps P none)
    (hdir : pps.direction = true) : Inv (pps.sendSlow length actual term remlen) := by
  unfold PsdPipeStream.sendSlow
  cases hfirst : pps.firstFree with
  | none => exact passEnd_inv hp hs hdir
  | some n =>
    dsimp only
    split
    · obtain ⟨hplaced, hset⟩ := sendRead { pps.pipe n with inPlace := false } hp hs hdir (hp.first hfirst) rfl
        rfl (some ((pps.pipe n).num * pps.bufferSize))
        (if pps.flags.readAhead = true ∨ remlen % pps.maxPktSize ≠ 0 then pps.bufferSize else remlen)
      exact .still hplaced hset (by constructor <;> rfl) fun h => ⟨h, hdir⟩
    · exact passEnd_inv hp hs hdir

theorem sendTaken (hp : Placed pps P) (hs : Settled pps P none) (hn : P n = .on .free) (slot : Option ℕ) (length : ℕ) :
    Placed ((pps.remove n).submit n slot length) (update P n .flight) ∧
      Settled ((pps.remove n).submit n slot length) (update P n .flight) (some n) :=
  ⟨hp.sendFree hs hn slot length,
    (hs.take (p := .flight) (hp.isPipe hn) nofun nofun).congr ((Same.remove n).trans (.submit n slot length))⟩

theorem sendWrite_inv {slot : Option ℕ} (hp : Placed pps P) (hs : Settled pps P none)
    (hdir : pps.direction = false) (hn : P n = .on .free) : Inv (pps.sendWrite n slot length stage) := by
  obtain ⟨hplaced, hset⟩ := sendTaken hp hs hn slot length
  exact .still hplaced hset (by constructor <;> rfl) fun h => ⟨h, hdir⟩

theorem psdStreamWrite_inv {data : List UInt8} (hp : Placed pps P) (hs : Settled pps P none) :
    Inv (pps.psdStreamWrite data) := by
  unfold PsdPipeStream.psdStreamWrite
  by_cases hopen : pps.pipes.isNone ∨ pps.direction = true
  · rw [if_pos hopen]
    exact .still hp hs (by constructor <;> rfl) id
  · rw [if_neg hopen]
    rw [not_or, Bool.not_eq_true, Bool.not_eq_true] at hopen
    have hdir := hopen.2
    generalize pps.toWrite data = data
    split
    · exact .still hp hs (by constructor <;> rfl) id
    · cases hfirst : pps.firstFree with
      | none => exact .still hp hs (by constructor <;> rfl) id
      | some n =>
        have hn : P n = .on .free := hp.first hfirst
        dsimp only
        split
        · exact .still hp hs (by constructor <;> rfl) id
        · split
          · split
            · exact .still hp hs (by constructor <;> rfl) fun h => ⟨h, hdir, hn⟩
            · generalize pps.pendLength data.length = remlen
              have hstill : Still pps (pps.pendBytes (data.take remlen)) := by constructor <;> rfl
              split
              · exact sendWrite_inv (hp.still hstill) (hs.congr hstill.same) hdir hn
              · exact .still (hp.still hstill) (hs.congr hstill.same) (by constructor <;> rfl) fun h => ⟨h, hdir, hn⟩
          · exact sendWrite_inv hp hs hdir hn

theorem sendBulk_inv {data : List UInt8} (hp : Placed pps P) (hs : Settled pps P none)
    (hdir : pps.direction = false) (hn : P n = .on .free) : Inv (pps.sendBulk n data actual) := by
  unfold PsdPipeStream.sendBulk
  split
  · exact sendWrite_inv hp hs hdir hn
  · exact .still hp hs (by constructor <;> rfl) id

theorem await_inv (hp : Placed pps P) (hs : Settled pps P (some n)) (hdir : pps.direction = false)
    (hget : pps.links.remHead (.port mp) = some (m, links)) :
    Inv { pps with links := links, pc := .waitPipe n stage } := by
  obtain ⟨hm, rfl⟩ := hp.remHead hget
  have hmn : m = n := by
    by_contra hne
    have hquiet := hs.out hdir m fun he => hne (some.inj he).symm
    rw [hm] at hquiet
    exact hquiet
  subst hmn
  have hset : Settled pps (update P m .nowhere) (some m) :=
    hs.move (fun _ _ => Iff.rfl) (fun _ hne => absurd rfl hne) (fun _ => ⟨hp.isPipe hm, nofun, nofun⟩)
      fun _ hne => absurd rfl hne
  exact .still (hp.remove hm) (hset.congr (.remove m)) (by constructor <;> rfl) fun h => ⟨h, hdir⟩

theorem waited (hp : Placed pps P) (hs : Settled pps P (some n)) (htype : (pps.pipe n).type ≠ .message) :
    Placed (pps.psdWaitPipe n) (update P n .nowhere) ∧
      Settled (pps.psdWaitPipe n) (update P n .nowhere) (some n) ∧ (pps.psdWaitPipe n).IsPipe n := by
  obtain ⟨hpipe, hfree, hready⟩ := hs.holds n rfl
  have hnowhere : afterWait P n = .nowhere := by
    unfold afterWait
    split
    · rfl
    · rename_i hport
      match hP : P n with
      | .flight => exact absurd ((hp.flight n).mpr hP) htype
      | .nowhere => rfl
      | .on .free => exact absurd hP hfree
      | .on .ready => exact absurd hP hready
      | .on (.port mp) => exact absurd hP (hport mp)
  have hplaced := hp.psdWaitPipe hpipe htype
  rw [hnowhere] at hplaced
  have hset : Settled pps (update P n .nowhere) (some n) :=
    hs.move (fun _ _ => Iff.rfl) (fun _ hne => absurd rfl hne) (fun _ => ⟨hpipe, nofun, nofun⟩)
      fun _ hne => absurd rfl hne
  refine ⟨hplaced, hset.congr (.psdWaitPipe n), ?_⟩
  rw [(Same.psdWaitPipe n).isPipe]
  exact hpipe

section

variable (hp : Placed pps (update P n .nowhere)) (hs : Settled pps (update P n .nowhere) (some n))
  (hpipe : pps.IsPipe n)
include hp hs hpipe

theorem freed :
    Placed (pps.addTail .free n) (update P n (.on .free)) ∧
      Settled (pps.addTail .free n) (update P n (.on .free)) none := by
  have hplaced := hp.addTail (l := .free) (update_self ..) hpipe nofun
  have hset := (hs.give (p := .on .free) nofun fun _ => trivial).congr (.addTail .free n)
  rw [update_idem] at hplaced hset
  exact ⟨hplaced, hset⟩

theorem written_inv (hdir : pps.direction = false) :
    Inv (pps.written n stage) := by
  obtain ⟨hplaced, hset⟩ := freed hp hs hpipe
  have hn : update P n (.on .free) n = .on .free := update_self ..
  unfold PsdPipeStream.written
  cases stage with
  | plain => exact .still hplaced hset (by constructor <;> rfl) id
  | pend data actual =>
    dsimp only
    split
    · exact .still hplaced hset (by constructor <;> rfl) fun h => ⟨h, hdir, hn⟩
    · exact .still hplaced hset (by constructor <;> rfl) id
  | bulk data actual =>
    dsimp only
    split
    · exact .still hplaced hset (by constructor <;> rfl) id
    · exact .still hplaced hset (by constructor <;> rfl) id

end

theorem psdStreamFlush_inv (hp : Placed pps P) (hs : Settled pps P none)
    (hk : pps.direction = true → ∀ n, pps.IsPipe n → ¬pps.InFlight n ∧ ¬pps.Replied n)
    (h : pps.psdStreamFlush w = some t) : Inv t := by
  unfold PsdPipeStream.psdStreamFlush at h
  by_cases hdir : pps.direction = true
  · rw [if_pos hdir] at h
    obtain ⟨pipes, hpipes, rfl⟩ := map_eq_some_iff.mp h
    have hquiet : ∀ n, (P n).quiet := by
      intro n
      match hP : P n with
      | .flight =>
        have hpipe : pps.IsPipe n := hp.own n (by rw [hP]; exact nofun)
        exact (hk hdir n hpipe).1 ((hp.flight n).mpr hP)
      | .on (.port mp) =>
        have hport := hs.port n (hp.isPipe hP)
        rw [(hp.port n mp hP).1] at hport
        exact (hk hdir n (hp.isPipe hP)).2 ⟨mp, hport, hp.items.mpr hP⟩
      | .nowhere | .on .free | .on .ready => trivial
    refine .still hp hs (by constructor <;> rfl) fun h => ⟨h, hquiet, fun n hn => ?_⟩
    rw [PsdPipeStream.IsPipe, hpipes]
    exact hn
  · rw [if_neg hdir] at h
    have hdir := Bool.eq_false_iff.mpr hdir
    cases hfirst : pps.firstFree with
    | none =>
      rw [hfirst] at h
      cases h
      exact .still hp hs (by constructor <;> rfl) id
    | some n =>
      have hn : P n = .on .free := hp.first hfirst
      rw [hfirst] at h
      dsimp only at h
      split at h
      · cases h
        exact .still hp hs (by constructor <;> rfl) id
      · split at h
        · cases h
          obtain ⟨hplaced, hset⟩ := sendTaken hp hs hn (some 0) pps.bytesPending
          exact .still hplaced hset (by constructor <;> rfl) fun h => ⟨h, hdir⟩
        · cases h
          have hpipe := hp.isPipe hn
          have hgone := psdDoPipeGone_placed (hp.remove hn) (n := n) (by rw [update_self]; trivial)
          have hheld : Settled pps (update P n .nowhere) (some n) := hs.take hpipe nofun nofun
          obtain ⟨hplaced, hset⟩ := freed hgone (hheld.congr ((Same.remove n).trans (.setPipe rfl))) hpipe
          exact .still hplaced hset (by constructor <;> rfl) id

theorem flushed_inv (hp : Placed pps (update P n .nowhere))
    (hs : Settled pps (update P n .nowhere) (some n)) (hpipe : pps.IsPipe n) : Inv (pps.flushed n) := by
  obtain ⟨hplaced, hset⟩ := freed hp hs hpipe
  exact .still hplaced hset (by constructor <;> rfl) id

theorem Placed.waitQuiet (hp : Placed pps P) (hquiet : (P n).quiet) (hpipe : pps.IsPipe n)
    (htype : (pps.pipe n).type ≠ .message) : Placed (pps.psdWaitPipe n) P := by
  have hplaced := hp.psdWaitPipe hpipe htype
  have heq : afterWait P n = P n := afterWait_eq fun mp hm => by
    rw [hm] at hquiet
    exact hquiet
  rwa [heq, update_eq_self] at hplaced

theorem flushReady_inv (hp : Placed pps P) (hs : Settled pps P none) (hquiet : ∀ n, (P n).quiet) :
    Inv pps.flushReady := by
  unfold PsdPipeStream.flushReady
  cases hfirst : pps.links.first .ready with
  | none => exact .still hp hs (by constructor <;> rfl) fun h => ⟨h, hquiet⟩
  | some n =>
    have hput := hp.relink .free (hp.first hfirst) nofun
    have hset := (hs.shift (n := n) (p := .on .free) nofun fun _ => trivial).congr
      ((Same.remove n).trans (.addTail .free n))
    refine .still hput hset (by constructor <;> rfl) fun h => ⟨h, fun m => ?_⟩
    by_cases hm : m = n
    · rw [hm, update_self]
      trivial
    · rw [update_of_ne hm]
      exact hquiet m

theorem flushPort_inv (hp : Placed pps P) (hs : Settled pps P none) (hquiet : ∀ n, (P n).quiet)
    (h : pps.flushPort = some t) : Inv t := by
  obtain ⟨mp, -, rfl⟩ := map_eq_some_iff.mp h
  split
  · rename_i n links hget
    have hon := (hp.remHead hget).1
    have hn := hquiet n
    rw [hon] at hn
    exact hn.elim
  · exact .still hp hs (by constructor <;> rfl) id

end StreamPipes

end Neptune
