import Neptune.Proofs.DescInside

/-! The model of a video function: its memory holds, and each format has the frames that followed it.
The formats of a stream and the frames of a format are counted in bytes. -/

namespace Neptune.Uvc

open List Option

def Desc.isFormat (d : Desc) : Bool := decide (3 ≤ d.len) && (d.byte 2).any (· ∈ uvcFormatTypes)

def Desc.isFrame (d : Desc) (up : UvcPayload) : Bool :=
  decide (3 ≤ d.len) && decide (up.frameType ≠ 0) && decide (d.byte 2 = some up.frameType) && validFrame up d

structure Group where
  format : Desc
  rest : List Desc

namespace Group

variable (g : Group)

def row : Option UvcPayload := do
  let subtype ← g.format.byte 2
  (← uvcFindPayload subtype g.format)

def frames : List Desc :=
  match g.row with
  | none => []
  | some up => g.rest.filter (·.isFrame up)

end Group

def group (gs : List Group) (d : Desc) : List Group :=
  if d.isFormat then gs ++ [⟨d, []⟩]
  else
    match gs.getLast? with
    | none => []
    | some g => gs.dropLast ++ [⟨g.format, g.rest ++ [d]⟩]

def groups (descs : List Desc) : List Group := descs.foldl group []

def frameCount (gs : List Group) : ℕ := (gs.map (·.frames.length)).sum

/-- The record of a format has its frames, in the array of the frames. -/
structure Parsed (frames : List UvcFrame) (ufo : UvcFormat) (g : Group) : Prop where
  desc : ufo.desc = g.format
  row : ufo.payload = g.row
  known : ∀ up, ufo.payload = some up → up ∈ uvcPayloads ∧ up.FitsFormat ufo.desc
  count : ufo.numFrames = g.frames.length
  inside : ufo.frames + ufo.numFrames ≤ frames.length
  reads : List.Forall₂ (fun ufr d => ∃ up, g.row = some up ∧ ufr.Reads up d)
    ((frames.drop ufo.frames).take ufo.numFrames) g.frames

variable {M N : List UvcFrame} {ufo : UvcFormat} {g : Group} {d : Desc}

theorem Parsed.append (h : Parsed M ufo g) (N : List UvcFrame) : Parsed (M ++ N) ufo g := by
  have hlen := h.inside
  refine ⟨h.desc, h.row, h.known, h.count, by rw [length_append]; omega, ?_⟩
  rw [drop_append_of_le_length (by omega), take_append_of_le_length (by rw [length_drop]; omega)]
  exact h.reads

theorem Group.frames_join_of_not (h : ∀ up, g.row = some up → d.isFrame up = false) :
    (⟨g.format, g.rest ++ [d]⟩ : Group).frames = g.frames := by
  change (match g.row with | none => [] | some up => (g.rest ++ [d]).filter (·.isFrame up)) = g.frames
  unfold Group.frames
  cases hrow : g.row with
  | none => rfl
  | some up =>
    dsimp only
    rw [filter_append, filter_cons_of_neg (by rw [h up hrow]; nofun), filter_nil, append_nil]

theorem Group.frames_join {up : UvcPayload} (hrow : g.row = some up) (h : d.isFrame up = true) :
    (⟨g.format, g.rest ++ [d]⟩ : Group).frames = g.frames ++ [d] := by
  change (match g.row with | none => [] | some up => (g.rest ++ [d]).filter (·.isFrame up)) = g.frames ++ [d]
  unfold Group.frames
  rw [hrow]
  dsimp only
  simp [h]

theorem Parsed.pass (h : Parsed M ufo g) (hnot : ∀ up, g.row = some up → d.isFrame up = false) :
    Parsed M ufo ⟨g.format, g.rest ++ [d]⟩ := by
  have hframes := Group.frames_join_of_not hnot
  exact ⟨h.desc, h.row, h.known, by rw [hframes]; exact h.count, h.inside, by rw [hframes]; exact h.reads⟩

theorem Parsed.take (h : Parsed M ufo g) (hlast : ufo.frames + ufo.numFrames = M.length) {up : UvcPayload}
    (hrow : g.row = some up) (hframe : d.isFrame up = true) {ufr : UvcFrame} (hreads : ufr.Reads up d) :
    Parsed (M ++ [ufr]) { ufo with numFrames := ufo.numFrames + 1 } ⟨g.format, g.rest ++ [d]⟩ := by
  have hframes := Group.frames_join hrow hframe
  refine ⟨h.desc, h.row, h.known, ?_, ?_, ?_⟩
  · rw [hframes, length_append, ← h.count]
    rfl
  · rw [length_append, ← hlast]
    exact le_of_eq (Nat.add_assoc _ _ _).symm
  · rw [hframes]
    dsimp only
    rw [drop_append_of_le_length (by omega),
      take_of_length_le (by rw [length_append, length_drop, length_singleton]; omega)]
    have hall : (M.drop ufo.frames).take ufo.numFrames = M.drop ufo.frames :=
      take_of_length_le (by rw [length_drop]; omega)
    refine rel_append ?_ (.cons ⟨up, hrow, hreads⟩ .nil)
    have hold := h.reads
    rwa [hall] at hold

variable {α : Type} {ds : List Desc} {uf : UvcFunction}

theorem forall₂_snoc_inv {β : Type} {R : α → β → Prop} {as : List α} {bs : List β} {b : β}
    (h : List.Forall₂ R as (bs ++ [b])) : ∃ as' a, as = as' ++ [a] ∧ List.Forall₂ R as' bs ∧ R a b := by
  have hhead := forall₂_take_append as bs [b] h
  have htail := forall₂_drop_append as bs [b] h
  obtain ⟨a, u, hab, hnil, hdrop⟩ := forall₂_cons_right_iff.mp htail
  obtain rfl := forall₂_nil_right_iff.mp hnil
  exact ⟨_, a, (take_append_drop bs.length as).symm.trans (by rw [hdrop]), hhead, hab⟩

section Arrays

variable {α : Type} {xs zs : List α} {x z : α} {n : ℕ}

def Filled (z : α) (n : ℕ) (xs : List α) : List α := xs ++ List.replicate (n - xs.length) z

theorem put_end (h : xs.length < n) : put (Filled z n xs) xs.length x = some (Filled z n (xs ++ [x])) := by
  obtain ⟨k, hk⟩ : ∃ k, n - xs.length = k + 1 := ⟨n - xs.length - 1, by omega⟩
  have hk' : n - (xs ++ [x]).length = k := by
    rw [length_append, length_singleton]
    omega
  unfold put Filled
  rw [if_pos (by rw [length_append, length_replicate]; omega), hk, hk', replicate_succ,
    set_append_right _ _ le_rfl, Nat.sub_self, set_cons_zero, append_assoc, singleton_append]

theorem filled_get (ys : List α) : (Filled z n (xs ++ x :: ys))[xs.length]? = some x := by
  unfold Filled
  rw [append_assoc, getElem?_append_right le_rfl, Nat.sub_self]
  rfl

theorem put_last (y : α) : put (Filled z n (xs ++ [x])) xs.length y = some (Filled z n (xs ++ [y])) := by
  unfold put Filled
  rw [if_pos (by simp only [length_append, length_singleton]; omega), append_assoc,
    set_append_right _ _ le_rfl, Nat.sub_self, append_assoc]
  simp only [length_append, length_singleton, singleton_append, set_cons_zero]

end Arrays

/-- The arrays in use: `K` places for streams, `D` for formats and for frames. -/
structure View (uf : UvcFunction) (S : List UvcStreamDesc) (F : List UvcFormat) (M : List UvcFrame) (K D : ℕ) :
    Prop where
  streams : uf.streams = Filled .zero K S
  numStreams : uf.numStreams = S.length
  formats : uf.formats = Filled .zero D F
  numFormats : uf.numFormats = F.length
  frames : uf.frames = Filled .zero D M
  numFrames : uf.numFrames = M.length

structure Beside (uf uf' : UvcFunction) : Prop where
  entities : uf'.entities = uf.entities
  numEntities : uf'.numEntities = uf.numEntities

theorem Beside.refl (uf : UvcFunction) : Beside uf uf := ⟨rfl, rfl⟩

theorem Beside.trans {uf' uf'' : UvcFunction} (h : Beside uf uf') (h' : Beside uf' uf'') : Beside uf uf'' :=
  ⟨h'.entities.trans h.entities, h'.numEntities.trans h.numEntities⟩

theorem groups_snoc (ds : List Desc) (d : Desc) : groups (ds ++ [d]) = group (groups ds) d := by
  unfold groups
  rw [foldl_append]
  rfl

theorem group_of_format (h : d.isFormat = true) (gs : List Group) : group gs d = gs ++ [⟨d, []⟩] := if_pos h

theorem group_nil (h : d.isFormat = false) : group [] d = [] := by
  unfold group
  rw [if_neg (by rw [h]; nofun)]
  rfl

theorem group_snoc (h : d.isFormat = false) (gs : List Group) (g : Group) :
    group (gs ++ [g]) d = gs ++ [⟨g.format, g.rest ++ [d]⟩] := by
  unfold group
  rw [if_neg (by rw [h]; nofun), getLast?_concat, dropLast_concat]

theorem frameCount_append (gs gs' : List Group) : frameCount (gs ++ gs') = frameCount gs + frameCount gs' := by
  unfold frameCount
  rw [map_append, sum_append]

theorem frameCount_singleton (g : Group) : frameCount [g] = g.frames.length := by simp [frameCount]

structure Fits (F M : ℕ) (gs : List Group) : Prop where
  formats : gs.length ≤ 255
  frames : ∀ g ∈ gs, g.frames.length ≤ 255
  allFormats : F + gs.length ≤ 65535
  allFrames : M + frameCount gs ≤ 65535

theorem Group.length_frames_join (g : Group) (d : Desc) :
    g.frames.length ≤ (⟨g.format, g.rest ++ [d]⟩ : Group).frames.length := by
  by_cases h : ∃ up, g.row = some up ∧ d.isFrame up = true
  · obtain ⟨up, hrow, hframe⟩ := h
    rw [Group.frames_join hrow hframe, length_append]
    omega
  · rw [Group.frames_join_of_not fun up hrow => by
      by_contra hframe
      exact h ⟨up, hrow, by simpa using hframe⟩]

theorem Fits.before {F M : ℕ} (h : Fits F M (groups (ds ++ [d]))) : Fits F M (groups ds) := by
  rw [groups_snoc] at h
  cases hformat : d.isFormat with
  | true =>
    rw [group_of_format hformat] at h
    have hformats := h.formats
    have hall := h.allFormats
    have hframes := h.allFrames
    rw [length_append] at hformats hall
    rw [frameCount_append] at hframes
    exact ⟨by omega, fun g hg => h.frames g (mem_append_left _ hg), by omega, by omega⟩
  | false =>
    rcases eq_nil_or_concat (groups ds) with hnil | ⟨gs, g, hgs⟩
    · rw [hnil, group_nil hformat] at h
      rw [hnil]
      exact h
    · rw [concat_eq_append] at hgs
      rw [hgs, group_snoc hformat] at h
      rw [hgs]
      have hjoin := g.length_frames_join d
      have hlast := h.frames _ (mem_append_right gs (mem_singleton_self _))
      have hformats := h.formats
      have hall := h.allFormats
      have hframes := h.allFrames
      rw [length_append, length_singleton] at hformats hall
      rw [frameCount_append, frameCount_singleton] at hframes
      refine ⟨by rw [length_append]; exact hformats, fun g' hg' => ?_, by rw [length_append]; exact hall, ?_⟩
      · rcases mem_append.mp hg' with hg' | hg'
        · exact h.frames g' (mem_append_left _ hg')
        · rw [mem_singleton.mp hg']
          omega
      · rw [frameCount_append, frameCount_singleton]
        omega

theorem frameType_other : ∀ up ∈ uvcPayloads, up.frameType ≠ 0 →
    up.frameType ≠ 0x01 ∧ up.frameType ≠ 0x02 ∧ up.frameType ∉ uvcFormatTypes := by decide

theorem Desc.isFormat_eq {subtype : ℕ} (hlen : 3 ≤ d.len) (hsub : d.byte 2 = some subtype) :
    d.isFormat = decide (subtype ∈ uvcFormatTypes) := by
  unfold Desc.isFormat
  rw [hsub, decide_eq_true hlen]
  rfl

theorem Desc.isFrame_eq {subtype : ℕ} (hlen : 3 ≤ d.len) (hsub : d.byte 2 = some subtype) (up : UvcPayload) :
    d.isFrame up = (decide (up.frameType ≠ 0) && decide (subtype = up.frameType) && validFrame up d) := by
  unfold Desc.isFrame
  rw [hsub, decide_eq_true hlen, Bool.true_and]
  simp only [some.injEq]

/-- A stream that is being fed: `us` is its record, `G` its formats and `N` its frames, `ds` what has come. -/
structure Feeding (start uf : UvcFunction) (S : List UvcStreamDesc) (F : List UvcFormat) (M : List UvcFrame) (K D : ℕ)
    (ds : List Desc) (us : UvcStreamDesc) (G : List UvcFormat) (N : List UvcFrame) : Prop where
  view : View uf (S ++ [us]) (F ++ G) (M ++ N) K D
  first : us.formats = F.length
  numFormats : us.numFormats = G.length
  parsed : List.Forall₂ (Parsed (M ++ N)) G (groups ds)
  last : ∀ f, G.getLast? = some f → f.frames + f.numFrames = (M ++ N).length
  count : N.length = frameCount (groups ds)
  room : G.length + N.length ≤ ds.length
  beside : Beside start uf

section Stream

variable {start uf : UvcFunction} {S : List UvcStreamDesc} {F G : List UvcFormat} {K D subtype : ℕ} {ds : List Desc}
  {us : UvcStreamDesc}

section

variable (h : Feeding start uf S F M K D ds us G N) (hformat : d.isFormat = false)
  (hframe : ∀ up ∈ uvcPayloads, d.isFrame up = true → ∀ f, G.getLast? = some f → f.payload ≠ some up)
include h hformat hframe

theorem Feeding.pass {uf' : UvcFunction} {us' : UvcStreamDesc} (hview : View uf' (S ++ [us']) (F ++ G) (M ++ N) K D)
    (hfirst : us'.formats = us.formats) (hnum : us'.numFormats = us.numFormats) (hbeside : Beside uf uf') :
    Feeding start uf' S F M K D (ds ++ [d]) us' G N := by
  have hroom := h.room
  have hlen : (ds ++ [d]).length = ds.length + 1 := length_append
  have hparsed := h.parsed
  have hcount := h.count
  rcases eq_nil_or_concat (groups ds) with hnil | ⟨gs, g, hgs⟩
  · rw [hnil] at hparsed hcount
    have hnil' : groups (ds ++ [d]) = [] := by rw [groups_snoc, hnil, group_nil hformat]
    exact ⟨hview, hfirst.trans h.first, hnum.trans h.numFormats, by rw [hnil']; exact hparsed, h.last,
      by rw [hnil']; exact hcount, by omega, h.beside.trans hbeside⟩
  · rw [concat_eq_append] at hgs
    rw [hgs] at hparsed hcount
    obtain ⟨G', f, hG, hinit, hlast⟩ := forall₂_snoc_inv hparsed
    have hnot : ∀ up, g.row = some up → d.isFrame up = false := by
      intro up hrow
      by_contra hframe'
      have hpayload := hlast.row.trans hrow
      exact hframe up (hlast.known up hpayload).1 (by simpa using hframe') f (by rw [hG, getLast?_concat]) hpayload
    have hgs' : groups (ds ++ [d]) = gs ++ [⟨g.format, g.rest ++ [d]⟩] := by rw [groups_snoc, hgs, group_snoc hformat]
    refine ⟨hview, hfirst.trans h.first, hnum.trans h.numFormats, ?_, h.last, ?_, by omega, h.beside.trans hbeside⟩
    · rw [hgs', hG]
      exact rel_append hinit (.cons (hlast.pass hnot) .nil)
    · rw [hgs', hcount, frameCount_append, frameCount_append, frameCount_singleton, frameCount_singleton,
        Group.frames_join_of_not hnot]

theorem Feeding.skip :
    Feeding start uf.skip S F M K D (ds ++ [d]) us G N :=
  h.pass hformat hframe ⟨h.view.streams, h.view.numStreams, h.view.formats, h.view.numFormats, h.view.frames,
    h.view.numFrames⟩ rfl rfl ⟨rfl, rfl⟩

end

theorem View.stream (h : View uf (S ++ [us]) F M K D) : uf.streams[S.length]? = some us := by
  rw [h.streams]
  exact filled_get []

theorem uvcAddStreamHeader_inside (us : UvcStreamDesc) (subtype : ℕ) (d : Desc) :
    ∃ r, uvcAddStreamHeader us subtype d = some r ∧
      ∀ us', r = some us' → us'.formats = us.formats ∧ us'.numFormats = us.numFormats := by
  unfold uvcAddStreamHeader
  split
  · split
    · exact ⟨none, rfl, nofun⟩
    · next hlen =>
      obtain ⟨epAddr, hep⟩ := Desc.byte_some (d := d) (i := 6) (by omega)
      obtain ⟨info, hinfo⟩ := Desc.byte_some (d := d) (i := 7) (by omega)
      obtain ⟨terminalLink, hlink⟩ := Desc.byte_some (d := d) (i := 8) (by omega)
      obtain ⟨stillMethod, hstill⟩ := Desc.byte_some (d := d) (i := 9) (by omega)
      rw [hep, hinfo, hlink, hstill]
      refine ⟨_, rfl, ?_⟩
      rintro _ ⟨⟩
      exact ⟨rfl, rfl⟩
  · split
    · exact ⟨none, rfl, nofun⟩
    · next hlen =>
      obtain ⟨epAddr, hep⟩ := Desc.byte_some (d := d) (i := 6) (by omega)
      obtain ⟨terminalLink, hlink⟩ := Desc.byte_some (d := d) (i := 7) (by omega)
      rw [hep, hlink]
      refine ⟨_, rfl, ?_⟩
      rintro _ ⟨⟩
      exact ⟨rfl, rfl⟩

section

variable (h : Feeding start uf S F M K D ds us G N) (hlen : 3 ≤ d.len) (hsub : d.byte 2 = some subtype)
include h hlen hsub

theorem Feeding.header (hheader : subtype = 0x01 ∨ subtype = 0x02) :
    ∃ uf' us', uvcAddStreamDesc uf S.length d = some uf' ∧ Feeding start uf' S F M K D (ds ++ [d]) us' G N := by
  have hformat : d.isFormat = false := by
    rw [Desc.isFormat_eq hlen hsub]
    rcases hheader with rfl | rfl <;> decide
  have hframe : ∀ up ∈ uvcPayloads, d.isFrame up = true → ∀ f, G.getLast? = some f → f.payload ≠ some up := by
    intro up hup hframe
    rw [Desc.isFrame_eq hlen hsub, Bool.and_eq_true, Bool.and_eq_true, decide_eq_true_eq, decide_eq_true_eq] at hframe
    obtain ⟨⟨hne, hthis⟩, -⟩ := hframe
    obtain ⟨h1, h2, -⟩ := frameType_other up hup hne
    rcases hheader with rfl | rfl
    · exact absurd hthis.symm h1
    · exact absurd hthis.symm h2
  obtain ⟨r, hr, hsame⟩ := uvcAddStreamHeader_inside us subtype d
  unfold uvcAddStreamDesc
  rw [if_neg (by omega), hsub, bind_eq_bind, bind_some, if_pos hheader, h.view.stream,
    bind_eq_bind, bind_some, hr, bind_eq_bind, bind_some]
  cases r with
  | none => exact ⟨_, us, rfl, h.skip hformat hframe⟩
  | some us' =>
    obtain ⟨hfirst, hnum⟩ := hsame us' rfl
    dsimp only
    rw [h.view.streams, put_last, bind_eq_bind, bind_some]
    refine ⟨_, us', rfl, h.pass hformat hframe ?_ hfirst hnum ⟨rfl, rfl⟩⟩
    refine ⟨rfl, ?_, h.view.formats, h.view.numFormats, h.view.frames, h.view.numFrames⟩
    have hnum := h.view.numStreams
    rw [length_append, length_singleton] at hnum ⊢
    exact hnum

theorem Feeding.format (hformat : subtype ∈ uvcFormatTypes) (hfits : Fits F.length M.length (groups (ds ++ [d])))
    (hroom : F.length + ds.length < D) :
    ∃ uf' us' G', uvcAddStreamDesc uf S.length d = some uf' ∧ Feeding start uf' S F M K D (ds ++ [d]) us' G' N := by
  have hnot : ¬ (subtype = 0x01 ∨ subtype = 0x02) := by
    rintro (rfl | rfl)
    · exact absurd hformat (by decide)
    · exact absurd hformat (by decide)
  have hgroups : groups (ds ++ [d]) = groups ds ++ [⟨d, []⟩] := by
    rw [groups_snoc, group_of_format (by rw [Desc.isFormat_eq hlen hsub]; exact decide_eq_true hformat)]
  obtain ⟨ufo, hufo, hdesc, hframes, hzero, hpayload, hknown⟩ := uvcFormatOf_inside hformat d uf.numFrames
  have hGlen : G.length = (groups ds).length := h.parsed.length_eq
  rw [hgroups] at hfits
  have hlen255 := hfits.formats
  have hlen65535 := hfits.allFormats
  rw [length_append, length_singleton] at hlen255 hlen65535
  have hin := h.room
  unfold uvcAddStreamDesc
  rw [if_neg (by omega), hsub, bind_eq_bind, bind_some, if_neg hnot, if_pos hformat]
  unfold uvcAddFormat
  rw [hufo, bind_eq_bind, bind_some, h.view.formats, h.view.numFormats,
    put_end (by rw [length_append]; omega), bind_eq_bind, bind_some, h.view.stream,
    bind_eq_bind, bind_some, h.view.streams, put_last, bind_eq_bind, bind_some]
  refine ⟨_, _, G ++ [ufo], rfl, ⟨⟨rfl, ?_, ?_, ?_, h.view.frames, h.view.numFrames⟩, h.first, ?_, ?_, ?_, ?_, ?_,
    ⟨h.beside.entities, h.beside.numEntities⟩⟩⟩
  · rw [h.view.numStreams, length_append, length_append]
    rfl
  · rw [append_assoc]
  · dsimp only
    rw [uword_of_lt (by rw [length_append]; omega), length_append, length_append, length_append,
      length_singleton]
    omega
  · dsimp only
    rw [h.numFormats, ubyte, Nat.mod_eq_of_lt (by omega), length_append, length_singleton]
  · rw [hgroups]
    refine rel_append h.parsed (.cons ?_ .nil)
    have hrow : ufo.payload = (⟨d, []⟩ : Group).row := by
      unfold Group.row
      rw [hsub, bind_eq_bind, bind_some, hpayload]
      rfl
    have hnone : (⟨d, []⟩ : Group).frames = [] := by
      unfold Group.frames
      split <;> rfl
    refine ⟨hdesc, hrow, fun up hup => ?_, by rw [hzero, hnone]; rfl, ?_, ?_⟩
    · rw [hdesc]
      exact hknown up hup
    · rw [hframes, hzero, h.view.numFrames, Nat.add_zero]
    · rw [hzero, hnone, take_zero]
      exact .nil
  · intro f hf
    rw [getLast?_concat] at hf
    obtain rfl := some.inj hf
    rw [hframes, hzero, h.view.numFrames, Nat.add_zero]
  · rw [hgroups, frameCount_append, frameCount_singleton, h.count]
    have hnone : (⟨d, []⟩ : Group).frames = [] := by
      unfold Group.frames
      split <;> rfl
    rw [hnone]
    rfl
  · rw [length_append, length_append, length_singleton, length_singleton]
    omega

theorem Feeding.frame (hother : subtype ∉ uvcFormatTypes)
    (hfits : Fits F.length M.length (groups (ds ++ [d]))) (hroom : M.length + ds.length < D) :
    ∃ uf' valid G' N', uvcAddFrame uf S.length subtype d = some (uf', valid) ∧
      Feeding start (if valid then uf' else uf'.skip) S F M K D (ds ++ [d]) us G' N' := by
  have hformat : d.isFormat = false := by
    rw [Desc.isFormat_eq hlen hsub]
    exact decide_eq_false hother
  unfold uvcAddFrame
  rw [h.view.stream, bind_eq_bind, bind_some]
  rcases eq_nil_or_concat (groups ds) with hnil | ⟨gs, g, hgs⟩
  · -- no format yet
    obtain rfl : G = [] := forall₂_nil_right_iff.mp (hnil ▸ h.parsed)
    rw [if_pos (show us.numFormats = 0 from h.numFormats)]
    exact ⟨uf, true, [], N, rfl, h.pass hformat nofun h.view rfl rfl ⟨rfl, rfl⟩⟩
  · rw [concat_eq_append] at hgs
    have hparsed := h.parsed
    rw [hgs] at hparsed
    obtain ⟨G', f, rfl, hinit, hlast⟩ := forall₂_snoc_inv hparsed
    have hnum : us.numFormats = G'.length + 1 := by
      rw [h.numFormats, length_append, length_singleton]
    have hidx : us.formats + (us.numFormats - 1) = (F ++ G').length := by
      rw [h.first, hnum, length_append]
      rfl
    have hformats : uf.formats = Filled .zero D ((F ++ G') ++ [f]) := by rw [h.view.formats, append_assoc]
    have hget : uf.formats[us.formats + (us.numFormats - 1)]? = some f := by
      rw [hidx, hformats]
      exact filled_get []
    rw [if_neg (by omega), hget, bind_eq_bind, bind_some]
    have hends := h.last f (by rw [getLast?_concat])
    have hlastf : ∀ f', (G' ++ [f]).getLast? = some f' → f' = f := by
      intro f' hf'
      rw [getLast?_concat] at hf'
      exact (some.inj hf').symm
    cases htakes : f.takes subtype with
    | none =>
      refine ⟨uf, true, G' ++ [f], N, rfl, h.pass hformat (fun up hup hframe f' hf' hpay => ?_) h.view rfl rfl ⟨rfl, rfl⟩⟩
      rw [Desc.isFrame_eq hlen hsub, Bool.and_eq_true, Bool.and_eq_true, decide_eq_true_eq, decide_eq_true_eq] at hframe
      rw [hlastf f' hf'] at hpay
      unfold UvcFormat.takes at htakes
      rw [hpay] at htakes
      dsimp only at htakes
      rw [if_pos hframe.1] at htakes
      exact absurd htakes nofun
    | some up =>
      have hpay : f.payload = some up ∧ up.frameType ≠ 0 ∧ subtype = up.frameType := by
        unfold UvcFormat.takes at htakes
        split at htakes
        · next up' hpay =>
          split at htakes
          · next hthis =>
            obtain rfl := some.inj htakes
            exact ⟨hpay, hthis⟩
          · exact absurd htakes nofun
        · exact absurd htakes nofun
      obtain ⟨hpay, hne, hthis⟩ := hpay
      have hisFrame : d.isFrame up = validFrame up d := by
        rw [Desc.isFrame_eq hlen hsub, decide_eq_true hne, decide_eq_true hthis]
        rfl
      dsimp only
      rcases uvcFrameOf_inside (hlast.known up hpay).1 hne d with ⟨hinvalid, hof⟩ | ⟨hvalid, ufr, hof, hreads⟩
      · rw [hof, bind_eq_bind, bind_some]
        refine ⟨uf, false, G' ++ [f], N, rfl, h.skip hformat fun up' hup' hframe f' hf' hpay' => ?_⟩
        rw [hlastf f' hf', hpay] at hpay'
        obtain rfl := some.inj hpay'
        rw [hisFrame, hinvalid] at hframe
        exact absurd hframe nofun
      · have hrow : g.row = some up := hlast.row.symm.trans hpay
        have hframe : d.isFrame up = true := hisFrame.trans hvalid
        have hgs' : groups (ds ++ [d]) = gs ++ [⟨g.format, g.rest ++ [d]⟩] := by rw [groups_snoc, hgs, group_snoc hformat]
        have hjoin := Group.frames_join hrow hframe
        have hcount := h.count
        have hin := h.room
        rw [hgs, frameCount_append, frameCount_singleton] at hcount
        rw [hgs'] at hfits
        have hbyte := hfits.frames _ (mem_append_right gs (mem_singleton_self _))
        have hword := hfits.allFrames
        rw [hjoin, length_append, length_singleton] at hbyte
        rw [frameCount_append, frameCount_singleton, hjoin, length_append, length_singleton] at hword
        have hubyte : ubyte (f.numFrames + 1) = f.numFrames + 1 := Nat.mod_eq_of_lt (by rw [hlast.count]; omega)
        rw [hof, bind_eq_bind, bind_some]
        dsimp only
        rw [h.view.frames, h.view.numFrames, put_end (by rw [length_append]; omega), bind_eq_bind,
          bind_some, hidx, hformats, put_last, bind_eq_bind, bind_some, hubyte]
        refine ⟨_, true, G' ++ [{ f with numFrames := f.numFrames + 1 }], N ++ [ufr], rfl, ?_⟩
        rw [if_pos rfl]
        refine ⟨⟨h.view.streams, h.view.numStreams, ?_, ?_, ?_, ?_⟩, h.first, ?_, ?_, ?_, ?_, ?_,
          ⟨h.beside.entities, h.beside.numEntities⟩⟩
        · rw [← append_assoc]
        · rw [h.view.numFormats]
          simp only [length_append, length_singleton]
        · rw [← append_assoc]
        · dsimp only
          rw [uword_of_lt (by rw [length_append]; omega)]
          simp only [length_append, length_singleton]
          omega
        · rw [hnum, length_append, length_singleton]
        · rw [hgs', ← append_assoc]
          exact rel_append (hinit.imp fun _ _ hp => hp.append [ufr]) (.cons (hlast.take hends hrow hframe hreads) .nil)
        · intro f' hf'
          rw [getLast?_concat] at hf'
          obtain rfl := some.inj hf'
          simp only [length_append, length_singleton] at hends ⊢
          omega
        · rw [hgs', frameCount_append, frameCount_singleton, hjoin, length_append, length_append]
          simp only [length_singleton]
          omega
        · simp only [length_append, length_singleton] at hin ⊢
          omega

end

theorem Feeding.step (h : Feeding start uf S F M K D ds us G N) (hfits : Fits F.length M.length (groups (ds ++ [d])))
    (hroomF : F.length + ds.length < D) (hroomM : M.length + ds.length < D) :
    ∃ uf' us' G' N', uvcAddStreamDesc uf S.length d = some uf' ∧
      Feeding start uf' S F M K D (ds ++ [d]) us' G' N' := by
  by_cases hlen : 3 ≤ d.len
  · obtain ⟨subtype, hsub⟩ := Desc.byte_some (d := d) (i := 2) (by omega)
    by_cases hheader : subtype = 0x01 ∨ subtype = 0x02
    · obtain ⟨uf', us', hadd, hnext⟩ := h.header hlen hsub hheader
      exact ⟨uf', us', G, N, hadd, hnext⟩
    · by_cases hformat : subtype ∈ uvcFormatTypes
      · obtain ⟨uf', us', G', hadd, hnext⟩ := h.format hlen hsub hformat hfits hroomF
        exact ⟨uf', us', G', N, hadd, hnext⟩
      · obtain ⟨uf', valid, G', N', hadd, hnext⟩ := h.frame hlen hsub hformat hfits hroomM
        refine ⟨_, us, G', N', ?_, hnext⟩
        unfold uvcAddStreamDesc
        rw [if_neg (by omega), hsub, bind_eq_bind, bind_some, if_neg hheader, if_neg hformat, hadd]
        rfl
  · refine ⟨uf.skip, us, G, N, if_pos (by omega), h.skip ?_ fun up _ hframe => ?_⟩
    · unfold Desc.isFormat
      rw [decide_eq_false hlen, Bool.false_and]
    · unfold Desc.isFrame at hframe
      rw [decide_eq_false hlen] at hframe
      exact absurd hframe nofun

theorem Feeding.run (h : Feeding start uf S F M K D [] us [] []) (ds : List Desc)
    (hfits : Fits F.length M.length (groups ds)) (hroomF : F.length + ds.length ≤ D) (hroomM : M.length + ds.length ≤ D) :
    ∃ uf' us' G N, ds.foldlM (fun uf d => uvcAddStreamDesc uf S.length d) uf = some uf' ∧
      Feeding start uf' S F M K D ds us' G N := by
  induction ds using reverseRecOn with
  | nil => exact ⟨uf, us, [], [], rfl, h⟩
  | append_singleton ds d ih =>
    rw [length_append, length_singleton] at hroomF hroomM
    obtain ⟨uf', us', G, N, hfold, hfeeding⟩ := ih hfits.before (by omega) (by omega)
    obtain ⟨uf'', us'', G', N', hadd, hnext⟩ := hfeeding.step hfits (by omega) (by omega)
    refine ⟨uf'', us'', G', N', ?_, hnext⟩
    rw [foldlM_append, hfold, bind_eq_bind, bind_some, foldlM_cons, hadd]
    rfl

end Stream

def Desc.isH264Unit (d : Desc) : Bool :=
  decide (d.byte 2 = some UDST_VIDEO_CTRL_EXTENSION_UNIT) && (d.extensionUnit matches some (.entity _)) &&
    decide (d.spells 4 uvcxH264XuGuid = some true)

def Group.carries (g : Group) : Bool := decide (g.row = some rowMjpeg) && decide (g.frames ≠ [])

theorem ctrlDesc_unit {version : ℕ} {ue : UvcEntity} (h : d.ctrlDesc version = some (.entity ue))
    (htype : ue.type = UDST_VIDEO_CTRL_EXTENSION_UNIT) :
    d.byte 2 = some UDST_VIDEO_CTRL_EXTENSION_UNIT ∧ d.extensionUnit = some (.entity ue) := by
  unfold Desc.ctrlDesc at h
  split at h
  · exact absurd h nofun
  · next hlen =>
    obtain ⟨subtype, hsub⟩ := Desc.byte_some (d := d) (i := 2) (by omega)
    rw [hsub, bind_eq_bind, bind_some] at h
    split at h
    · unfold Desc.ctrlHeader at h
      grind [bind_eq_some_iff]
    · unfold Desc.inputTerminal Desc.terminal at h
      grind [bind_eq_some_iff, UDST_VIDEO_CTRL_EXTENSION_UNIT]
    · unfold Desc.outputTerminal Desc.terminal at h
      grind [bind_eq_some_iff, UDST_VIDEO_CTRL_EXTENSION_UNIT]
    · unfold Desc.selectorUnit at h
      grind [bind_eq_some_iff, UDST_VIDEO_CTRL_EXTENSION_UNIT]
    · unfold Desc.processingUnit at h
      grind [bind_eq_some_iff, UDST_VIDEO_CTRL_EXTENSION_UNIT]
    · exact ⟨hsub, h⟩
    · unfold Desc.encodingUnit at h
      grind [bind_eq_some_iff, UDST_VIDEO_CTRL_EXTENSION_UNIT]
    · exact absurd h nofun

def Came (ctrl : List Desc) (ue : UvcEntity) : Prop := ∃ d ∈ ctrl, ∃ version, d.ctrlDesc version = some (.entity ue)

theorem uvcFindH264UnitFrom_inside {entities : List UvcEntity} (hinside : ∀ ue ∈ entities, ue.Inside) (i n : ℕ)
    (hn : i + n ≤ entities.length) :
    ∃ found, uvcFindH264UnitFrom entities i n = some found ∧ ∀ ue, found = some ue →
      ue ∈ entities ∧ ue.type = UDST_VIDEO_CTRL_EXTENSION_UNIT ∧ ue.desc.spells 4 uvcxH264XuGuid = some true := by
  induction n generalizing i with
  | zero => exact ⟨none, rfl, nofun⟩
  | succ n ih =>
    have hi : i < entities.length := by omega
    have hget : entities[i]? = some entities[i] := getElem?_eq_getElem hi
    have hmem : entities[i] ∈ entities := getElem_mem hi
    have hrest := ih (i + 1) (by omega)
    unfold uvcFindH264UnitFrom
    rw [hget, bind_eq_bind, bind_some]
    split
    · exact hrest
    · next htype =>
      have htype := not_not.mp htype
      have hlen := (hinside _ hmem).unit htype
      obtain ⟨b, hb⟩ := Desc.spells_some (i := 4) entities[i].desc uvcxH264XuGuid (by
        rw [show uvcxH264XuGuid.length = 16 from rfl]
        omega)
      rw [hb, bind_eq_bind, bind_some]
      split
      · next hsame =>
        refine ⟨_, rfl, ?_⟩
        rintro _ ⟨⟩
        exact ⟨hmem, htype, by rw [hb, hsame]⟩
      · exact hrest

theorem uvcFindCarrierFrom_eq (D : ℕ) (F G : List UvcFormat) :
    uvcFindCarrierFrom (Filled .zero D (F ++ G)) F.length G.length = some (G.find? UvcFormat.carries) := by
  induction G generalizing F with
  | nil => rfl
  | cons f G ih =>
    rw [length_cons]
    unfold uvcFindCarrierFrom
    rw [filled_get, bind_eq_bind, bind_some]
    split
    · next hcarries => rw [find?_cons_of_pos hcarries]
    · next hcarries =>
      rw [find?_cons_of_neg hcarries, ← ih (F ++ [f]), append_assoc, length_append]
      rfl

structure Entities (ctrl : List Desc) (C : ℕ) (uf : UvcFunction) (done : ℕ) : Prop where
  length : uf.entities.length = C
  count : uf.numEntities ≤ done
  inside : ∀ ue ∈ uf.entities, ue.Inside
  came : ∀ ue ∈ uf.entities, ue = .zero ∨ Came ctrl ue

theorem Entities.add {ctrl : List Desc} {C done : ℕ} (h : Entities ctrl C uf done) (hd : d ∈ ctrl)
    (hroom : done < C) : ∃ uf', uvcAddControlDesc uf d = some uf' ∧ Entities ctrl C uf' (done + 1) ∧
      (∀ S F M K D, View uf S F M K D → View uf' S F M K D) := by
  obtain ⟨c, hc, hinside⟩ := ctrlDesc_inside d uf.version
  have hcount := h.count
  unfold uvcAddControlDesc
  rw [hc, bind_eq_bind, bind_some]
  cases c with
  | header version clockFrequency =>
    exact ⟨_, rfl, ⟨h.length, by dsimp only; omega, h.inside, h.came⟩, fun _ _ _ _ _ hv =>
      ⟨hv.streams, hv.numStreams, hv.formats, hv.numFormats, hv.frames, hv.numFrames⟩⟩
  | entity ue =>
    have hput : put uf.entities uf.numEntities ue = some (uf.entities.set uf.numEntities ue) :=
      if_pos (by rw [h.length]; omega)
    dsimp only
    rw [hput, bind_eq_bind, bind_some]
    refine ⟨_, rfl, ⟨?_, ?_, ?_, ?_⟩, fun _ _ _ _ _ hv =>
      ⟨hv.streams, hv.numStreams, hv.formats, hv.numFormats, hv.frames, hv.numFrames⟩⟩
    · rw [length_set, h.length]
    · exact (Nat.mod_le _ _).trans (by omega)
    · intro ue' hue'
      rcases mem_or_eq_of_mem_set hue' with hue' | rfl
      · exact h.inside ue' hue'
      · exact hinside.2
    · intro ue' hue'
      rcases mem_or_eq_of_mem_set hue' with hue' | rfl
      · exact h.came ue' hue'
      · exact .inr ⟨d, hd, uf.version, hc⟩
  | invalid =>
    exact ⟨_, rfl, ⟨h.length, by change uf.numEntities ≤ _; omega, h.inside, h.came⟩, fun _ _ _ _ _ hv =>
      ⟨hv.streams, hv.numStreams, hv.formats, hv.numFormats, hv.frames, hv.numFrames⟩⟩
  | unknown => exact ⟨uf, rfl, ⟨h.length, by omega, h.inside, h.came⟩, fun _ _ _ _ _ hv => hv⟩

theorem Entities.run {ctrl : List Desc} {C : ℕ} (ds : List Desc) (hds : ∀ d ∈ ds, d ∈ ctrl)
    {done : ℕ} (h : Entities ctrl C uf done) (hroom : done + ds.length ≤ C) :
    ∃ uf', ds.foldlM uvcAddControlDesc uf = some uf' ∧ Entities ctrl C uf' (done + ds.length) ∧
      (∀ S F M K D, View uf S F M K D → View uf' S F M K D) := by
  induction ds generalizing uf done with
  | nil => exact ⟨uf, rfl, h, fun _ _ _ _ _ hv => hv⟩
  | cons d ds ih =>
    rw [length_cons] at hroom
    obtain ⟨uf', hadd, hnext, hview⟩ := h.add (hds d mem_cons_self) (by omega)
    obtain ⟨uf'', hfold, hlast, hviews⟩ := ih (fun d hd => hds d (mem_cons_of_mem _ hd)) hnext (by omega)
    refine ⟨uf'', ?_, ?_, fun S F M K D hv => hviews S F M K D (hview S F M K D hv)⟩
    · rw [foldlM_cons, hadd]
      exact hfold
    · rw [length_cons, show done + (ds.length + 1) = done + 1 + ds.length by omega]
      exact hlast

/-- The formats `fs` of a stream with the descriptors `ds`, and behind them the one without a
descriptor, which has the frames of its carrier. -/
def StreamModel (frames : List UvcFrame) (fs : List UvcFormat) (ds : List Desc) : Prop :=
  ∃ G twin, fs = G ++ Option.toList twin ∧ List.Forall₂ (Parsed frames) G (groups ds) ∧
    ∀ t, twin = some t → ∃ f ∈ G, f.carries = true ∧ t = { f with payload := some rowEmbedded }

theorem StreamModel.append {fs : List UvcFormat} (h : StreamModel M fs ds) (N : List UvcFrame) :
    StreamModel (M ++ N) fs ds := by
  obtain ⟨G, twin, hfs, hparsed, htwin⟩ := h
  exact ⟨G, twin, hfs, hparsed.imp fun _ _ hp => hp.append N, htwin⟩

def formatCount (unit : Bool) (ds : List Desc) : ℕ :=
  (groups ds).length + if unit && (groups ds).any (·.carries) then 1 else 0

structure StreamBuilt (uf uf' : UvcFunction) (S : List UvcStreamDesc) (F : List UvcFormat) (M : List UvcFrame) (K D : ℕ)
    (unit : Bool) (ds : List Desc) (us : UvcStreamDesc) (G : List UvcFormat) (N : List UvcFrame) : Prop where
  view : View uf' (S ++ [us]) (F ++ G) (M ++ N) K D
  first : us.formats = F.length
  numFormats : us.numFormats = G.length
  model : StreamModel (M ++ N) G ds
  formats : G.length ≤ formatCount unit ds
  frames : N.length = frameCount (groups ds)
  room : G.length ≤ ds.length ∧ N.length ≤ ds.length
  beside : Beside uf uf'

theorem le_frameCount {gs : List Group} (h : g ∈ gs) : g.frames.length ≤ frameCount gs :=
  single_le_sum (fun _ _ => Nat.zero_le _) _ (mem_map_of_mem h)

theorem Parsed.carries {f : UvcFormat} (h : Parsed M f g) (hcarries : f.carries = true) : g.carries = true := by
  unfold UvcFormat.carries at hcarries
  unfold Group.carries
  rw [Bool.and_eq_true, decide_eq_true_eq, decide_eq_true_eq] at hcarries ⊢
  refine ⟨h.row ▸ hcarries.1, fun hnil => hcarries.2 ?_⟩
  rw [h.count, hnil]
  rfl

section Build

variable {ctrl : List Desc} {uf : UvcFunction} {S : List UvcStreamDesc} {F : List UvcFormat} {C K D : ℕ}

theorem exists_of_forall₂ {α β : Type} {R : α → β → Prop} {as : List α} {bs : List β} (h : List.Forall₂ R as bs) {a : α}
    (ha : a ∈ as) : ∃ b ∈ bs, R a b := by
  induction h with
  | nil => exact absurd ha nofun
  | cons hab _ ih =>
    rcases mem_cons.mp ha with rfl | ha
    · exact ⟨_, mem_cons_self, hab⟩
    · obtain ⟨b, hb, hr⟩ := ih ha
      exact ⟨b, mem_cons_of_mem _ hb, hr⟩

theorem uvcAddEmbeddedFormat_inside {start : UvcFunction} {ds : List Desc} {us : UvcStreamDesc} {G : List UvcFormat}
    (h : Feeding start uf S F M K D ds us G N) {done : ℕ} (hent : Entities ctrl C start done) (hdone : done ≤ C)
    (hcount : formatCount (ctrl.any (·.isH264Unit)) ds ≤ 255)
    (hall : F.length + formatCount (ctrl.any (·.isH264Unit)) ds ≤ 65535) (hroom : F.length + ds.length ≤ D) :
    ∃ uf' us' G', uvcAddEmbeddedFormat uf S.length = some uf' ∧
      StreamBuilt start uf' S F M K D (ctrl.any (·.isH264Unit)) ds us' G' N := by
  have hroom' := h.room
  have hlen : G.length = (groups ds).length := h.parsed.length_eq
  have hin := hent.count
  obtain ⟨found, hfound, hunit⟩ := uvcFindH264UnitFrom_inside hent.inside 0 start.numEntities (by
    rw [hent.length]
    omega)
  have hplain : StreamBuilt start uf S F M K D (ctrl.any (·.isH264Unit)) ds us G N :=
    ⟨h.view, h.first, h.numFormats, ⟨G, none, by simp, h.parsed, nofun⟩, by unfold formatCount; omega, h.count,
      ⟨by omega, by omega⟩, h.beside⟩
  unfold uvcAddEmbeddedFormat uvcFindH264Unit
  rw [h.beside.entities, h.beside.numEntities, hfound, bind_eq_bind, bind_some]
  cases found with
  | none => exact ⟨uf, us, G, rfl, hplain⟩
  | some ue =>
    dsimp only
    rw [h.view.stream, bind_eq_bind, bind_some, h.first, h.numFormats, h.view.formats,
      uvcFindCarrierFrom_eq, bind_eq_bind, bind_some]
    cases hfind : G.find? UvcFormat.carries with
    | none => exact ⟨uf, us, G, rfl, hplain⟩
    | some f =>
      have hf : f ∈ G := mem_of_find?_eq_some hfind
      have hcarries : f.carries = true := find?_some hfind
      obtain ⟨g, hg, hparsed⟩ := exists_of_forall₂ h.parsed hf
      have hunit : ctrl.any (·.isH264Unit) = true := by
        obtain ⟨hmem, htype, hspells⟩ := hunit ue rfl
        rcases hent.came ue hmem with rfl | ⟨d, hd, version, hctrl⟩
        · exact absurd htype (by decide)
        · obtain ⟨hsub, hext⟩ := ctrlDesc_unit hctrl htype
          obtain ⟨c, hc, hinside⟩ := ctrlDesc_inside d version
          obtain rfl := some.inj (hc.symm.trans hctrl)
          refine any_eq_true.mpr ⟨d, hd, ?_⟩
          unfold Desc.isH264Unit
          rw [hext, decide_eq_true hsub, ← hinside.1, decide_eq_true hspells]
          rfl
      have hformats : formatCount (ctrl.any (·.isH264Unit)) ds = G.length + 1 := by
        unfold formatCount
        rw [hunit, any_eq_true.mpr ⟨g, hg, hparsed.carries hcarries⟩, hlen]
        rfl
      -- the carrier has a frame, whose descriptor took no place
      have hframe : 1 ≤ N.length := by
        have hle := le_frameCount hg
        have hnum := hparsed.count
        have hne : f.numFrames ≠ 0 := by
          unfold UvcFormat.carries at hcarries
          simpa using (Bool.and_eq_true_iff.mp hcarries).2
        have hcountN := h.count
        omega
      rw [hformats] at hcount hall
      dsimp only
      rw [h.view.numFormats, put_end (by rw [length_append]; omega), bind_eq_bind, bind_some,
        h.view.streams, put_last, bind_eq_bind, bind_some]
      refine ⟨_, _, G ++ [{ f with payload := some rowEmbedded }], rfl, ⟨⟨rfl, ?_, ?_, ?_, h.view.frames, h.view.numFrames⟩,
        rfl, ?_, ⟨G, some _, rfl, h.parsed, ?_⟩, ?_, h.count, ⟨?_, by omega⟩, ⟨rfl, rfl⟩⟩⟩
      · rw [h.view.numStreams, length_append, length_append]
        rfl
      · rw [append_assoc]
      · dsimp only
        rw [uword_of_lt (by rw [length_append]; omega)]
        simp only [length_append, length_singleton]
        omega
      · dsimp only
        rw [ubyte, Nat.mod_eq_of_lt (by omega), length_append, length_singleton]
      · rintro _ ⟨⟩
        exact ⟨f, hf, hcarries, rfl⟩
      · rw [hformats, length_append, length_singleton]
      · rw [length_append, length_singleton]
        omega

theorem uvcAddStream_inside (hview : View uf S F M K D) (ifnum : ℕ) (hK : S.length < K) (hK' : K ≤ 255) :
    ∃ uf' us, uvcAddStream uf ifnum = some (uf', S.length) ∧ Feeding uf uf' S F M K D [] us [] [] := by
  unfold uvcAddStream
  rw [hview.streams, hview.numStreams, put_end hK, bind_eq_bind, bind_some]
  refine ⟨_, _, rfl, ⟨rfl, ?_, ?_, ?_, ?_, ?_⟩, hview.numFormats, rfl, .nil, nofun, rfl, le_rfl, ⟨rfl, rfl⟩⟩
  · rw [uword_of_lt (by omega), length_append]
    rfl
  · rw [append_nil]
    exact hview.formats
  · rw [append_nil]
    exact hview.numFormats
  · rw [append_nil]
    exact hview.frames
  · rw [append_nil]
    exact hview.numFrames

theorem nBuildStream_inside {done : ℕ} (hview : View uf S F M K D) (hent : Entities ctrl C uf done) (hdone : done ≤ C)
    (ifnum : ℕ) (ds : List Desc) (hfits : Fits F.length M.length (groups ds))
    (hcount : formatCount (ctrl.any (·.isH264Unit)) ds ≤ 255)
    (hall : F.length + formatCount (ctrl.any (·.isH264Unit)) ds ≤ 65535)
    (hK : S.length < K) (hK' : K ≤ 255) (hroomF : F.length + ds.length ≤ D) (hroomM : M.length + ds.length ≤ D) :
    ∃ uf' us G N, nBuildStream uf ifnum ds = some uf' ∧
      StreamBuilt uf uf' S F M K D (ctrl.any (·.isH264Unit)) ds us G N := by
  obtain ⟨uf₁, us₁, hstream, hstart⟩ := uvcAddStream_inside hview ifnum hK hK'
  obtain ⟨uf₂, us₂, G, N, hfold, hfeeding⟩ := hstart.run ds hfits hroomF hroomM
  obtain ⟨uf₃, us₃, G', hadd, hbuilt⟩ := uvcAddEmbeddedFormat_inside hfeeding hent hdone hcount hall hroomF
  refine ⟨uf₃, us₃, G', N, ?_, hbuilt⟩
  unfold nBuildStream
  rw [hstream, bind_eq_bind, bind_some]
  dsimp only
  rw [hfold, bind_eq_bind, bind_some, hadd]

structure Built (start uf : UvcFunction) (S : List UvcStreamDesc) (F : List UvcFormat) (M : List UvcFrame) (K D : ℕ)
    (unit : Bool) (streams : List (ℕ × List Desc)) : Prop where
  view : View uf S F M K D
  models : List.Forall₂ (fun us stream => us.formats + us.numFormats ≤ F.length ∧
    StreamModel M ((F.drop us.formats).take us.numFormats) stream.2) S streams
  formats : F.length ≤ (streams.map fun stream => formatCount unit stream.2).sum
  frames : M.length = (streams.map fun stream => frameCount (groups stream.2)).sum
  room : F.length ≤ nStreamDescs streams ∧ M.length ≤ nStreamDescs streams
  beside : Beside start uf

/-- No count of the function leaves its field, and the memory asked for is what the arrays take. -/
structure InRange (z : Sizes) (ctrl : List Desc) (ifs : ℕ) (streams : List (ℕ × List Desc)) : Prop where
  size : z.total ctrl.length ifs (nStreamDescs streams) < 2 ^ 32
  formats : ∀ stream ∈ streams, formatCount (ctrl.any (·.isH264Unit)) stream.2 ≤ 255
  frames : ∀ stream ∈ streams, ∀ g ∈ groups stream.2, g.frames.length ≤ 255
  allFormats : (streams.map fun stream => formatCount (ctrl.any (·.isH264Unit)) stream.2).sum ≤ 65535
  allFrames : (streams.map fun stream => frameCount (groups stream.2)).sum ≤ 65535

theorem nStreamDescs_append (streams : List (ℕ × List Desc)) (stream : ℕ × List Desc) :
    nStreamDescs (streams ++ [stream]) = nStreamDescs streams + stream.2.length := by
  simp [nStreamDescs]

theorem Built.run {start : UvcFunction} {done : ℕ} (hview : View start [] [] [] K D) (hent : Entities ctrl C start done)
    (hdone : done ≤ C) (hK' : K ≤ 255) (streams : List (ℕ × List Desc))
    (hformats : ∀ stream ∈ streams, formatCount (ctrl.any (·.isH264Unit)) stream.2 ≤ 255)
    (hframes : ∀ stream ∈ streams, ∀ g ∈ groups stream.2, g.frames.length ≤ 255)
    (hallFormats : (streams.map fun stream => formatCount (ctrl.any (·.isH264Unit)) stream.2).sum ≤ 65535)
    (hallFrames : (streams.map fun stream => frameCount (groups stream.2)).sum ≤ 65535)
    (hK : streams.length ≤ K) (hD : nStreamDescs streams ≤ D) :
    ∃ uf S F M, streams.foldlM (fun uf stream => nBuildStream uf stream.1 stream.2) start = some uf ∧
      Built start uf S F M K D (ctrl.any (·.isH264Unit)) streams := by
  induction streams using reverseRecOn with
  | nil => exact ⟨start, [], [], [], rfl, hview, .nil, le_rfl, rfl, ⟨le_rfl, le_rfl⟩, .refl start⟩
  | append_singleton streams stream ih =>
    rw [map_append, sum_append, map_singleton, sum_singleton] at hallFormats hallFrames
    rw [length_append, length_singleton] at hK
    rw [nStreamDescs_append] at hD
    obtain ⟨uf, S, F, M, hfold, hbuilt⟩ :=
      ih (fun s hs => hformats s (mem_append_left _ hs)) (fun s hs => hframes s (mem_append_left _ hs)) (by omega)
        (by omega) (by omega) (by omega)
    have hlast : stream ∈ streams ++ [stream] := mem_append_right _ (mem_singleton_self _)
    have hcount := hformats stream hlast
    have hgroups : (groups stream.2).length ≤ formatCount (ctrl.any (·.isH264Unit)) stream.2 := Nat.le_add_right _ _
    have hF := hbuilt.formats
    have hM := hbuilt.frames
    have hroom := hbuilt.room
    have hS : S.length = streams.length := hbuilt.models.length_eq
    have hentities : Entities ctrl C uf done :=
      ⟨by rw [hbuilt.beside.entities]; exact hent.length, by rw [hbuilt.beside.numEntities]; exact hent.count,
        by rw [hbuilt.beside.entities]; exact hent.inside, by rw [hbuilt.beside.entities]; exact hent.came⟩
    obtain ⟨uf', us, G, N, hadd, hnext⟩ := nBuildStream_inside hbuilt.view hentities hdone stream.1 stream.2
      ⟨by omega, hframes stream hlast, by omega, by omega⟩ hcount (by omega) (by omega) hK' (by omega) (by omega)
    have hG := hnext.formats
    have hN := hnext.frames
    have hin := hnext.room
    refine ⟨uf', S ++ [us], F ++ G, M ++ N, ?_, hnext.view, ?_, ?_, ?_, ?_, hbuilt.beside.trans hnext.beside⟩
    · rw [foldlM_append, hfold, bind_eq_bind, bind_some, foldlM_cons, hadd]
      rfl
    · refine rel_append (hbuilt.models.imp fun us s hs => ?_) (.cons ?_ .nil)
      · obtain ⟨hle, hmodel⟩ := hs
        refine ⟨by rw [length_append]; omega, ?_⟩
        rw [drop_append_of_le_length (by omega), take_append_of_le_length (by rw [length_drop]; omega)]
        exact hmodel.append N
      · refine ⟨by rw [hnext.first, hnext.numFormats, length_append], ?_⟩
        rw [hnext.first, hnext.numFormats, drop_left, take_length]
        exact hnext.model
    · rw [length_append, map_append, sum_append, map_singleton, sum_singleton]
      omega
    · rw [length_append, map_append, sum_append, map_singleton, sum_singleton]
      omega
    · rw [length_append, length_append, nStreamDescs_append]
      omega

end Build

theorem byte_lt {i n : ℕ} (h : d.byte i = some n) : n < 256 := by
  obtain ⟨b, -, rfl⟩ := map_eq_some_iff.mp h
  exact b.toNat_lt

theorem mapM_some {β : Type} {f : α → Option β} (xs : List α) (h : ∀ x ∈ xs, ∃ y, f x = some y) :
    ∃ ys, xs.mapM f = some ys ∧ ys.length = xs.length := by
  induction xs with
  | nil => exact ⟨[], rfl, rfl⟩
  | cons x xs ih =>
    obtain ⟨y, hy⟩ := h x mem_cons_self
    obtain ⟨ys, hys, hlen⟩ := ih fun x hx => h x (mem_cons_of_mem _ hx)
    refine ⟨y :: ys, ?_, congrArg (· + 1) hlen⟩
    rw [mapM_cons, hy, hys]
    rfl

theorem nCollection_inside (header : Desc) (hlen : 12 ≤ header.len) :
    ∃ ifnums, nCollection header = some ifnums ∧ ifnums.length ≤ 255 := by
  obtain ⟨count, hcount⟩ := Desc.byte_some (d := header) (i := 11) (by omega)
  have hlt := byte_lt hcount
  obtain ⟨ifnums, hifnums, hnum⟩ := mapM_some (range (min count (header.len - 12)))
    (f := fun cnt => header.byte (12 + cnt)) fun cnt hcnt => by
      rw [mem_range] at hcnt
      exact Desc.byte_some (by omega)
  refine ⟨ifnums, ?_, ?_⟩
  · unfold nCollection
    rw [hcount, bind_eq_bind, bind_some, hifnums]
  · rw [hnum, length_range]
    omega

def ifNumbers (ctrl : List Desc) : List ℕ := ((ctrl.find? isCtrlHeader).bind nCollection).getD []

structure Faithful (uf : UvcFunction) (streams : List (ℕ × List Desc)) : Prop where
  entities : ∀ ue ∈ uf.entities, ue.Inside
  streams : List.Forall₂ (fun us stream =>
    StreamModel (uf.frames.take uf.numFrames) ((uf.formats.drop us.formats).take us.numFormats) stream.2)
    (uf.streams.take uf.numStreams) streams

theorem take_filled (z : α) (n : ℕ) (xs : List α) : (Filled z n xs).take xs.length = xs := take_left

theorem Built.faithful {start : UvcFunction} {S : List UvcStreamDesc} {F : List UvcFormat} {K D : ℕ} {unit : Bool}
    {streams : List (ℕ × List Desc)} (h : Built start uf S F M K D unit streams)
    (hentities : ∀ ue ∈ start.entities, ue.Inside) : Faithful uf streams := by
  refine ⟨by rw [h.beside.entities]; exact hentities, ?_⟩
  rw [h.view.streams, h.view.numStreams, take_filled, h.view.frames, h.view.numFrames, take_filled, h.view.formats]
  refine h.models.imp fun us s hs => ?_
  obtain ⟨hle, hmodel⟩ := hs
  unfold Filled
  rw [drop_append_of_le_length (by omega), take_append_of_le_length (by rw [length_drop]; omega)]
  exact hmodel

/-- No access is outside its descriptor or its array, and the model is faithful, where no count leaves its
field. -/
theorem function_faithful (z : Sizes) (alloc : Bool) (ctrl : List Desc) (find : ℕ → Option (List Desc))
    (h : InRange z ctrl (ifNumbers ctrl).length (nStreams find (ifNumbers ctrl))) :
    ∃ r, nBuildFunction z alloc ctrl find = some r ∧
      ∀ uf, r = some uf → Faithful uf (nStreams find (ifNumbers ctrl)) := by
  unfold nBuildFunction
  cases hheader : ctrl.find? isCtrlHeader with
  | none => exact ⟨none, rfl, nofun⟩
  | some header =>
    dsimp only
    split
    · exact ⟨none, rfl, nofun⟩
    · next hlen =>
      obtain ⟨ifnums, hifnums, hnum⟩ := nCollection_inside header (by omega)
      have hnumbers : ifNumbers ctrl = ifnums := by
        unfold ifNumbers
        rw [hheader, bind_some, hifnums]
        rfl
      rw [hnumbers] at h ⊢
      rw [hifnums, bind_eq_bind, bind_some]
      split
      · exact ⟨none, rfl, nofun⟩
      · have hinit : ∃ uf, uvcInitFunction z (uvcFunctionSize z ctrl.length ifnums.length
            (nStreamDescs (nStreams find ifnums))) ctrl.length ifnums.length (nStreamDescs (nStreams find ifnums)) =
              some uf ∧ View uf [] [] [] ifnums.length (nStreamDescs (nStreams find ifnums)) ∧
                Entities ctrl ctrl.length uf 0 := by
          unfold uvcInitFunction uvcFunctionSize ulong
          rw [Nat.mod_eq_of_lt h.size, if_pos le_rfl]
          refine ⟨_, rfl, ⟨rfl, rfl, rfl, rfl, rfl, rfl⟩, length_replicate, le_rfl, ?_, ?_⟩
          · intro ue hue
            rw [eq_of_mem_replicate hue]
            exact ⟨nofun, nofun, nofun⟩
          · exact fun ue hue => .inl (eq_of_mem_replicate hue)
        obtain ⟨uf₀, hinit, hview₀, hent₀⟩ := hinit
        obtain ⟨uf₁, hctrl, hent₁, hviews⟩ := hent₀.run ctrl (fun _ hd => hd) (Nat.zero_add _).le
        have hnumStreams : (nStreams find ifnums).length ≤ ifnums.length := length_filterMap_le _ _
        obtain ⟨uf₂, S, F, M, hstreams, hbuilt⟩ := Built.run (hviews _ _ _ _ _ hview₀) hent₁ (Nat.zero_add _).le hnum
          (nStreams find ifnums) h.formats h.frames h.allFormats h.allFrames hnumStreams le_rfl
        rw [hinit, bind_eq_bind, bind_some, hctrl, bind_some, hstreams, bind_some]
        refine ⟨some uf₂, rfl, ?_⟩
        rintro _ ⟨⟩
        exact hbuilt.faithful hent₁.inside

theorem StreamModel.counts {fs : List UvcFormat} (h : StreamModel M fs ds) :
    (fs.map (·.numFrames)).take (groups ds).length = (groups ds).map (·.frames.length) := by
  obtain ⟨G, twin, rfl, hparsed, -⟩ := h
  have hG : G.map (·.numFrames) = (groups ds).map (·.frames.length) := by
    generalize groups ds = gs at hparsed
    induction hparsed with
    | nil => rfl
    | cons hp _ ih => rw [map_cons, map_cons, hp.count, ih]
  rw [map_append, hG, take_left' (length_map _)]

def sizes : Sizes := ⟨32, 20, 14, 16, 20⟩

def ctrlHeader : Desc := ⟨0x1000, [13, 0x24, 0x01, 0x10, 0x01, 13, 0, 0, 0, 0, 0, 1, 1]⟩

def mjpegFormat : Desc := ⟨0x2000, [11, 0x24, 0x06, 1, 1, 0, 1, 0, 0, 0, 0]⟩

def mjpegFrame : Desc :=
  ⟨0x3000, [30, 0x24, 0x07, 1, 0, 0x40, 0x01, 0xf0, 0, 0, 0, 0, 0, 0, 0, 0, 0, 0, 0, 0, 0,
    0x15, 0x16, 0x05, 0, 1, 0x15, 0x16, 0x05, 0]⟩

def mpegFormat : Desc := ⟨0x4000, [7, 0x24, 0x0a, 1, 0, 0, 0]⟩

def oneStream (ds : List Desc) : ℕ → Option (List Desc) := fun _ => some ds

theorem function_faithful_one :
    ∃ uf, nBuildFunction sizes true [ctrlHeader] (oneStream [mjpegFormat, mjpegFrame]) = some (some uf) ∧
      Faithful uf (nStreams (oneStream [mjpegFormat, mjpegFrame]) (ifNumbers [ctrlHeader])) := by
  obtain ⟨r, hr, hfaithful⟩ := function_faithful sizes true [ctrlHeader] (oneStream [mjpegFormat, mjpegFrame])
    ⟨by decide +kernel, by decide +kernel, by decide +kernel, by decide +kernel, by decide +kernel⟩
  have hbuilt : (nBuildFunction sizes true [ctrlHeader] (oneStream [mjpegFormat, mjpegFrame])).any (·.isSome) = true := by
    decide +kernel
  rw [hr, any_some] at hbuilt
  obtain ⟨uf, rfl⟩ := isSome_iff_exists.mp hbuilt
  exact ⟨uf, hr, hfaithful uf rfl⟩

def firstCounts (uf : UvcFunction) : List ℕ :=
  match uf.streams.take uf.numStreams with
  | [] => []
  | us :: _ => ((uf.formats.drop us.formats).take us.numFormats).map (·.numFrames)

theorem Faithful.firstCounts (stream : ℕ × List Desc) (h : Faithful uf [stream]) :
    (firstCounts uf).take (groups stream.2).length = (groups stream.2).map (·.frames.length) := by
  obtain ⟨us, u, hmodel, hnil, hstreams⟩ := forall₂_cons_right_iff.mp h.streams
  unfold Uvc.firstCounts
  rw [hstreams]
  exact hmodel.counts

theorem counts_wrap :
    (∃ uf, nBuildFunction sizes true [ctrlHeader] (oneStream (mjpegFormat :: List.replicate 256 mjpegFrame)) =
        some (some uf) ∧
      ¬ Faithful uf (nStreams (oneStream (mjpegFormat :: List.replicate 256 mjpegFrame)) (ifNumbers [ctrlHeader]))) ∧
    ∃ uf, nBuildFunction sizes true [ctrlHeader] (oneStream (List.replicate 256 mpegFormat)) = some (some uf) ∧
      ¬ Faithful uf (nStreams (oneStream (List.replicate 256 mpegFormat)) (ifNumbers [ctrlHeader])) := by
  have hwrap : ∀ ds : List Desc,
      (nBuildFunction sizes true [ctrlHeader] (oneStream ds)).any (·.any fun uf =>
        (firstCounts uf).take (groups ds).length ≠ (groups ds).map (·.frames.length)) = true →
      ∃ uf, nBuildFunction sizes true [ctrlHeader] (oneStream ds) = some (some uf) ∧
        ¬ Faithful uf (nStreams (oneStream ds) (ifNumbers [ctrlHeader])) := by
    intro ds hany
    cases hbuild : nBuildFunction sizes true [ctrlHeader] (oneStream ds) with
    | none => exact absurd (hbuild ▸ hany) nofun
    | some r =>
      cases r with
      | none => exact absurd (hbuild ▸ hany) nofun
      | some uf =>
        rw [hbuild, any_some, any_some, decide_eq_true_eq] at hany
        exact ⟨uf, rfl, fun h => hany (h.firstCounts (1, ds))⟩
  exact ⟨hwrap _ (by decide +kernel), hwrap _ (by decide +kernel)⟩

end Neptune.Uvc
