import Neptune.Proofs.PipeCalls

/-! The attributes of a stream: another port, and pipes that are allocated anew. -/

namespace Neptune.StreamPipes

open Function List Option

open Linked (Links Reps)

variable {pps t : PsdPipeStream} {P : ℕ → Place} {n mp : ℕ} {w : World} {tags : Tags}

theorem Placed.newPort (hp : Placed pps P) (hlinks : t.links = pps.links.newList (.port mp)) (hpipe : t.pipe = pps.pipe)
    (hpipes : t.pipes = pps.pipes) (hallocated : t.allocated = pps.allocated) (hwild : t.wild = pps.wild)
    (hdeleted : ∀ mp, mp ∉ pps.deleted → mp ∉ t.deleted) :
    Placed t fun n => if P n = .on (.port mp) then .nowhere else P n := by
  obtain ⟨L, hreps, hmem⟩ := hp.lists
  have his : ∀ n, t.IsPipe n = pps.IsPipe n := fun n => by rw [PsdPipeStream.IsPipe, hpipes]; rfl
  refine ⟨⟨_, hlinks ▸ hreps.newList (.port mp), fun l n => ?_⟩, fun n => ?_, fun n mp' hn => ?_, fun n hn => ?_,
    fun n => ?_, fun n hn htype => ?_, hwild.trans hp.tame⟩
  · by_cases hl : l = .port mp
    · rw [hl, update_self]
      refine iff_of_false not_mem_nil ?_
      split
      · rintro ⟨⟩
      · assumption
    · rw [update_of_ne hl, hmem]
      split
      · rename_i hn
        rw [hn]
        exact iff_of_false (fun he => hl (Place.on.inj he).symm) (by rintro ⟨⟩)
      · rfl
  · rw [hpipe, hp.flight]
    split
    · rename_i hn
      rw [hn]
      exact iff_of_false (by rintro ⟨⟩) (by rintro ⟨⟩)
    · rfl
  · rw [hpipe]
    split at hn
    · cases hn
    · exact hp.port n mp' hn
  · rw [his]
    split at hn
    · exact absurd rfl hn
    · exact hp.own n hn
  · rw [his, hallocated]
    exact hp.lt n
  · rw [his] at hn
    rw [hpipe] at htype ⊢
    exact hdeleted _ (hp.there n hn htype)

theorem Placed.packTags (hp : Placed pps P) (hk : PortKept pps tags w) : Placed (pps.packTags tags w) P := by
  refine ⟨hp.lists, hp.flight, hp.port, hp.own, hp.lt, fun n hn htype => ?_, hp.tame⟩
  have hthere := hp.there n hn htype
  change (pps.pipe n).msgPort ∉ pps.deletePort tags
  unfold PsdPipeStream.deletePort
  cases htag : tags.msgPort with
  | none => exact hthere
  | some msgPort =>
    have hown : pps.ownMsgPort = false := by
      rw [← Bool.not_eq_true]
      intro hown
      rcases hk with hk | hk | hk
      · exact nomatch htag.symm.trans hk
      · exact nomatch hown.symm.trans hk.1
      · exact htype ((hk.2 hown).2 n hn)
    rw [hown]
    exact fun hin => hthere (mem_of_mem_filter hin)

theorem packTags_there (hk : PortKept pps tags w) (hthere : ∀ mp, pps.msgPort = some mp → mp ∉ pps.deleted) :
    ∀ mp, (pps.packTags tags w).msgPort = some mp → mp ∉ (pps.packTags tags w).deleted := by
  intro mp hmp
  change tags.msgPort.getD pps.msgPort = some mp at hmp
  change mp ∉ pps.deletePort tags
  unfold PsdPipeStream.deletePort
  cases htag : tags.msgPort with
  | none =>
    rw [htag] at hmp
    exact hthere mp hmp
  | some msgPort =>
    rw [htag, getD_some] at hmp
    have hold : mp ∉ if pps.ownMsgPort then pps.msgPort.toList else [] := by
      split
      · rename_i hown
        rw [mem_toList]
        intro hport
        rcases hk with hk | hk | hk
        · exact nomatch htag.symm.trans hk
        · exact nomatch hown.symm.trans hk.1
        · exact (hk.2 hown).1 (by rw [htag, hmp, hport])
      · exact not_mem_nil
    rw [mem_append, not_or]
    exact ⟨hold, by simp [hmp]⟩

structure Ported (pps : PsdPipeStream) (P : ℕ → Place) (t : PsdPipeStream) (Q : ℕ → Place) : Prop where
  placed : Placed t Q
  lost : ∀ n, Q n = P n ∨ Q n = .nowhere
  kept : pps.msgPort.isSome → Q = P ∧ t.msgPort = pps.msgPort
  there : ∀ mp, t.msgPort = some mp → mp ∉ t.deleted
  pipes : t.pipes = pps.pipes
  pipe : t.pipe = pps.pipe
  direction : t.direction = pps.direction

theorem createPort_ported (hp : Placed pps P) (hthere : ∀ mp, pps.msgPort = some mp → mp ∉ pps.deleted) (w : World) :
    ∃ Q, Ported pps P (pps.createPort w) Q := by
  unfold PsdPipeStream.createPort
  split
  · rename_i mp hmp hport
    refine ⟨_, hp.newPort rfl rfl rfl rfl rfl fun mp' hnot hin => hnot (mem_of_mem_filter hin), fun n => ?_,
      fun hsome => ?_, fun mp' hmp' => ?_, rfl, rfl, rfl⟩
    · split
      · exact .inr rfl
      · exact .inl rfl
    · rw [hmp] at hsome
      exact nomatch hsome
    · cases hmp'
      simp
  · exact ⟨P, hp, fun _ => .inl rfl, fun _ => ⟨rfl, rfl⟩, hthere, rfl, rfl, rfl⟩

theorem psdSetAttrs_inv (hp : Placed pps P) (hs : Settled pps P none) (hk : PortKept pps tags w) :
    Inv (pps.psdSetAttrs tags w) := by
  obtain ⟨Q, hQ⟩ := createPort_ported (hp.packTags hk) (packTags_there hk hs.there) w
  have his : ∀ n, ((pps.packTags tags w).createPort w).IsPipe n = pps.IsPipe n := fun n => by
    rw [PsdPipeStream.IsPipe, hQ.pipes]
    rfl
  refine ⟨Q, hQ.placed.congr rfl rfl rfl rfl rfl rfl, ?_⟩
  unfold PsdPipeStream.psdSetAttrs
  cases hre : pps.reallocates tags w with
  | true =>
    refine ⟨fun n hn => ?_, fun n hn => ?_, hQ.there⟩
    · have hnowhere : P n = .nowhere := by
        by_contra hne
        exact hn (hp.own n hne)
      rcases hQ.lost n with hn | hn
      · rw [hn, hnowhere]
        trivial
      · rw [hn]
        trivial
    · have hn : pps.IsPipe n := hn
      rwa [← his n] at hn
  | false =>
    have hport : (pps.packTags tags w).msgPort = pps.msgPort := by
      change tags.msgPort.getD pps.msgPort = pps.msgPort
      rcases hk with hk | hk | hk
      · rw [hk]
        rfl
      · rw [hk.2]
        rfl
      · cases hre.symm.trans hk.1
    -- a stream without a port has no pipes
    have hkept : ∀ n, pps.IsPipe n → Q = P ∧ ((pps.packTags tags w).createPort w).msgPort = pps.msgPort := by
      intro n hn
      have hsome : (pps.packTags tags w).msgPort.isSome := by
        rw [hport, hs.port n hn]
        rfl
      rw [← hport]
      exact hQ.kept hsome
    refine ⟨fun n hn _ => ?_, fun n hn => ?_, ?_, fun hd n _ => ?_, hQ.there⟩
    · have hn : pps.IsPipe n := by
        rw [← his n]
        exact hn
      rw [(hkept n hn).1]
      exact hs.placed n hn (some_ne_none n).symm
    · have hn : pps.IsPipe n := by
        rw [← his n]
        exact hn
      have hpn : ((pps.packTags tags w).createPort w).pipe n = pps.pipe n := congrFun hQ.pipe n
      change ((pps.packTags tags w).createPort w).msgPort = some (((pps.packTags tags w).createPort w).pipe n).msgPort
      rw [(hkept n hn).2, hpn]
      exact hs.port n hn
    · rintro _ ⟨⟩
    · have hd : pps.direction = false := hQ.direction.symm.trans hd
      rcases hQ.lost n with hn | hn
      · rw [hn]
        exact hs.out hd n (some_ne_none n).symm
      · rw [hn]
        trivial

theorem afterWait_quiet (hp : Placed pps P) (htype : (pps.pipe n).type ≠ .message) : (afterWait P n).quiet := by
  unfold afterWait
  split
  · trivial
  · rename_i hport
    match hP : P n with
    | .flight => exact absurd ((hp.flight n).mpr hP) htype
    | .on (.port mp) => exact absurd hP (hport mp)
    | .nowhere | .on .free | .on .ready => trivial

theorem resetLists_inv (hp : Placed pps P) (hquiet : ∀ n, (P n).quiet)
    (hthere : ∀ mp, pps.msgPort = some mp → mp ∉ pps.deleted) : Inv (pps.resetLists w) := by
  have hnone : ∀ n, ¬(pps.resetLists w).IsPipe n := by
    intro n hn
    unfold PsdPipeStream.IsPipe PsdPipeStream.resetLists at hn
    dsimp only at hn
    split at hn
    · exact nomatch hn
    · exact nomatch hn
  obtain ⟨L, hreps, hmem⟩ := hp.lists
  have hplaced : Placed (pps.resetLists w) fun _ => .nowhere := by
    refine ⟨⟨_, (hreps.newList .free).newList .ready, fun l n => iff_of_false (fun hin => ?_) nofun⟩, fun n => ?_,
      nofun, fun n hn => absurd rfl hn, fun n hn => absurd hn (hnone n), fun n hn => absurd hn (hnone n), hp.tame⟩
    · match l with
      | .free =>
        simp at hin
      | .ready =>
        simp at hin
      | .port mp =>
        have hready : ListId.port mp ≠ .ready := nofun
        have hfree : ListId.port mp ≠ .free := nofun
        rw [update_of_ne hready, update_of_ne hfree, hmem] at hin
        have hn := hquiet n
        rw [hin] at hn
        exact hn
    · refine iff_of_false (fun htype => ?_) nofun
      have hn := hquiet n
      rw [(hp.flight n).mp htype] at hn
      exact hn
  have hset : Settled (pps.resetLists w) (fun _ => .nowhere) none :=
    ⟨fun n hn => absurd hn (hnone n), fun n hn => absurd hn (hnone n), nofun, fun _ _ _ => trivial, hthere⟩
  have hpc : (pps.resetLists w).pc = .alloc ∨ (pps.resetLists w).pc = .idle := by
    unfold PsdPipeStream.resetLists
    cases w.memory
    · exact .inr rfl
    · exact .inl rfl
  refine ⟨_, hplaced, ?_⟩
  unfold At
  rcases hpc with hpc | hpc
  · rw [hpc]
    exact hset
  · rw [hpc]
    exact hset

theorem isPipe_snoc {pipes : List (Option ℕ)} {o : Option ℕ} (h : pps.pipes.getD [] = pipes)
    (ht : t.pipes = some (pipes ++ [o])) : t.IsPipe n ↔ pps.IsPipe n ∨ o = some n := by
  unfold PsdPipeStream.IsPipe
  rw [ht, h, getD_some, mem_append, mem_singleton]
  exact or_congr_right eq_comm

theorem Placed.alloc (hp : Placed pps P) {pp : PsdPipe} (htype : pp.type = .freeMsg)
    (hpipes : ∀ n, t.IsPipe n ↔ pps.IsPipe n ∨ some pps.allocated = some n) (hlinks : t.links = pps.links)
    (hpipe : t.pipe = update pps.pipe pps.allocated pp) (hallocated : t.allocated = pps.allocated + 1)
    (hdeleted : t.deleted = pps.deleted) (hwild : t.wild = pps.wild) : Placed t P := by
  have hnew : ¬pps.IsPipe pps.allocated := fun hn => Nat.lt_irrefl _ (hp.lt _ hn)
  have hnowhere : P pps.allocated = .nowhere := by
    by_contra hne
    exact hnew (hp.own _ hne)
  have hold : ∀ n, n ≠ pps.allocated → t.pipe n = pps.pipe n := fun n hn => by rw [hpipe, update_of_ne hn]
  have hself : t.pipe pps.allocated = pp := by rw [hpipe, update_self]
  refine ⟨hlinks ▸ hp.lists, fun n => ?_, fun n mp hn => ?_, fun n hn => (hpipes n).mpr (.inl (hp.own n hn)),
    fun n hn => ?_, fun n hn hfree => ?_, hwild.trans hp.tame⟩
  · by_cases hn : n = pps.allocated
    · rw [hn, hself, htype, hnowhere]
      exact iff_of_false nofun nofun
    · rw [hold n hn]
      exact hp.flight n
  · have hne : n ≠ pps.allocated := by
      rintro rfl
      exact nomatch hnowhere.symm.trans hn
    rw [hold n hne]
    exact hp.port n mp hn
  · rw [hallocated]
    rcases (hpipes n).mp hn with hn | hn
    · exact Nat.lt_succ_of_lt (hp.lt n hn)
    · cases hn
      exact Nat.lt_succ_self _
  · rw [hdeleted]
    rcases (hpipes n).mp hn with hn | hn
    · have hne : n ≠ pps.allocated := by
        rintro rfl
        exact hnew hn
      rw [hold n hne] at hfree ⊢
      exact hp.there n hn hfree
    · cases hn
      rw [hself] at hfree
      exact absurd htype hfree

theorem allocNone_inv {pipes : List (Option ℕ)} (hp : Placed pps P) (hs : Settled pps P none)
    (hpipes : pps.pipes.getD [] = pipes) : Inv { pps with pipes := some (pipes ++ [none]), pc := .alloc } := by
  have his : ∀ n, PsdPipeStream.IsPipe { pps with pipes := some (pipes ++ [none]), pc := .alloc } n ↔ pps.IsPipe n :=
    fun n => (isPipe_snoc hpipes rfl).trans (or_iff_left nofun)
  refine ⟨P, ⟨hp.lists, hp.flight, hp.port, fun n hn => (his n).mpr (hp.own n hn), fun n hn => hp.lt n ((his n).mp hn),
    fun n hn => hp.there n ((his n).mp hn), hp.tame⟩, ?_⟩
  exact ⟨fun n hn => hs.placed n ((his n).mp hn), fun n hn => hs.port n ((his n).mp hn), nofun, hs.out, hs.there⟩

theorem allocSome_inv {pipes : List (Option ℕ)} {pp : PsdPipe} (hp : Placed pps P) (hs : Settled pps P none)
    (hpipes : pps.pipes.getD [] = pipes) (htype : pp.type = .freeMsg) (hport : pps.msgPort = some pp.msgPort) :
    Inv { (pps.setPipe pps.allocated pp).addTail .free pps.allocated with
      pipes := some (pipes ++ [some pps.allocated])
      allocated := pps.allocated + 1
      pc := .alloc } := by
  have hnew : ¬pps.IsPipe pps.allocated := fun hn => Nat.lt_irrefl _ (hp.lt _ hn)
  have hnowhere : P pps.allocated = .nowhere := by
    by_contra hne
    exact hnew (hp.own _ hne)
  generalize hgrown : { pps.setPipe pps.allocated pp with
    pipes := some (pipes ++ [some pps.allocated])
    allocated := pps.allocated + 1 } = grown
  have his : ∀ n, grown.IsPipe n ↔ pps.IsPipe n ∨ some pps.allocated = some n := fun n =>
    isPipe_snoc hpipes (by rw [← hgrown])
  have hplaced : Placed grown P := hp.alloc htype his (by rw [← hgrown]; rfl) (by rw [← hgrown]; rfl)
    (by rw [← hgrown]) (by rw [← hgrown]; rfl) (by rw [← hgrown]; rfl)
  have hput := hplaced.addTail (l := .free) hnowhere ((his _).mpr (.inr rfl)) nofun
  have hset : Settled (grown.addTail .free pps.allocated) (update P pps.allocated (.on .free)) none := by
    subst hgrown
    refine ⟨fun n hn _ => ?_, fun n hn => ?_, nofun, fun hd n _ => ?_, hs.there⟩
    · by_cases hne : n = pps.allocated
      · rw [hne, update_self]
        exact nofun
      · rw [update_of_ne hne]
        refine hs.placed n (((his n).mp hn).resolve_right fun he => ?_) nofun
        exact hne (some.inj he).symm
    · change pps.msgPort = some (update pps.pipe pps.allocated pp n).msgPort
      by_cases hne : n = pps.allocated
      · rw [hne, update_self]
        exact hport
      · rw [update_of_ne hne]
        refine hs.port n (((his n).mp hn).resolve_right fun he => ?_)
        exact hne (some.inj he).symm
    · by_cases hne : n = pps.allocated
      · rw [hne, update_self]
        trivial
      · rw [update_of_ne hne]
        exact hs.out hd n nofun
  subst hgrown
  exact .still hput hset (by constructor <;> rfl) id

theorem allocPipe_inv (hp : Placed pps P) (hs : Settled pps P none) : Inv (pps.allocPipe w) := by
  unfold PsdPipeStream.allocPipe
  dsimp only
  generalize hpipes : pps.pipes.getD [] = pipes
  split
  · split
    · rename_i mp hmp
      split
      · exact allocSome_inv hp hs hpipes rfl hmp
      · exact allocNone_inv hp hs hpipes
    · exact allocNone_inv hp hs hpipes
  · exact .still hp hs (by constructor <;> rfl) id

end Neptune.StreamPipes
