import Neptune.Spec.StringDesc

/-! When a string descriptor and the language array are decoded as the device has sent them. -/

namespace Neptune.StringDesc

open List Option

theorem swap_word (hi lo : UInt8) : AROS_LE2WORD (.ofNat (hi.toNat * 2 ^ 8 + lo.toNat)) =
    .ofNat (lo.toNat * 2 ^ 8 + hi.toNat) := by
  have hhi := hi.toNat_lt
  have hlo := lo.toNat_lt
  refine UInt16.toNat_inj.mp ?_
  have hleft : (hi.toNat * 2 ^ 8 + lo.toNat) <<< 8 % 2 ^ 16 = lo.toNat <<< 8 := by
    omega
  have hright : (hi.toNat * 2 ^ 8 + lo.toNat) >>> 8 = hi.toNat := by
    omega
  have hmod : (hi.toNat * 2 ^ 8 + lo.toNat) % 2 ^ 16 = hi.toNat * 2 ^ 8 + lo.toNat := Nat.mod_eq_of_lt (by omega)
  have hmod' : (lo.toNat * 2 ^ 8 + hi.toNat) % 2 ^ 16 = lo.toNat * 2 ^ 8 + hi.toNat := Nat.mod_eq_of_lt (by omega)
  simp only [AROS_LE2WORD, UInt16.toNat_or, UInt16.toNat_shiftLeft, UInt16.toNat_shiftRight, UInt16.toNat_ofNat',
    UInt16.reduceToNat, Nat.reduceMod, hmod, hmod']
  rw [hleft, hright, ← Nat.shiftLeft_add_eq_or_of_lt hhi, Nat.shiftLeft_eq]

theorem leWords_eq : ∀ l : List UInt8, leWords l = (words l).map AROS_LE2WORD
  | [] => rfl
  | [_] => rfl
  | lo :: hi :: rest => by rw [leWords, words, map_cons, swap_word, leWords_eq rest]

theorem words_length : ∀ l : List UInt8, (words l).length = l.length / 2
  | [] => rfl
  | [a] => by
    rw [length_singleton]
    rfl
  | _ :: _ :: rest => by
    rw [words, length_cons, words_length rest, length_cons, length_cons]
    omega

theorem leWords_take : ∀ a b : List UInt8, (leWords (a ++ b)).take (a.length / 2) = leWords a
  | [], _ => take_zero
  | [a], b => by
    have hzero : [a].length / 2 = 0 := Nat.div_eq_of_lt (by rw [length_singleton]; decide)
    rw [hzero, take_zero]
    rfl
  | lo :: hi :: rest, b => by
    have hlen : (lo :: hi :: rest).length / 2 = rest.length / 2 + 1 := by
      rw [length_cons, length_cons]
      omega
    rw [cons_append, cons_append, leWords, hlen, take_succ_cons, leWords_take rest b, leWords]

theorem words_drop_two : ∀ l : List UInt8, words (l.drop 2) = (words l).drop 1
  | [] => rfl
  | [_] => rfl
  | _ :: _ :: _ => rfl

theorem units_eq (data : List UInt8) : units data = ((words data).drop 1).map AROS_LE2WORD := by
  rw [units, leWords_eq, words_drop_two]

theorem units_length (data : List UInt8) : (units data).length = data.length / 2 - 1 := by
  rw [units_eq, length_map, length_drop, words_length]

theorem units_append (a b : List UInt8) : (units (a ++ b)).take (a.length / 2 - 1) = units a := by
  have hlen : (a.drop 2).length / 2 = a.length / 2 - 1 := by
    rw [length_drop]
    omega
  by_cases h : 2 ≤ a.length
  · rw [units, drop_append_of_le_length h, ← hlen, leWords_take]
    rfl
  · have hzero : a.length / 2 - 1 = 0 := by omega
    have hnil : (units a).length = 0 := by rw [units_length, hzero]
    rw [hzero, take_zero, length_eq_zero_iff.mp hnil]

theorem convertLangs_spec (mid post : List UInt16) : ∀ (pre : List UInt16) (x : UInt16),
    convertLangs mid.length pre.length (pre ++ x :: (mid ++ post)) = some (pre ++ mid.map AROS_LE2WORD ++ 0 :: post) := by
  induction mid with
  | nil =>
    intro pre x
    rw [length_nil, convertLangs, setWord, if_pos (by simp)]
    simp
  | cons w mid ih =>
    intro pre x
    have hget : (pre ++ x :: (w :: mid ++ post))[pre.length + 1]? = some w := by simp
    have hset : setWord (pre ++ x :: (w :: mid ++ post)) pre.length (AROS_LE2WORD w) =
        some (pre ++ [AROS_LE2WORD w] ++ w :: (mid ++ post)) := by
      rw [setWord, if_pos (by simp)]
      simp
    have hlen : pre.length + 1 = (pre ++ [AROS_LE2WORD w]).length := by simp
    rw [length_cons, convertLangs, hget]
    dsimp only [bind_eq_bind, bind_some]
    rw [hset, bind_some, hlen, ih]
    simp

theorem findEnglish_spec (ids : List UInt16) :
    findEnglish (ids ++ [0]) = some (decide (0x0409 ∈ ids.takeWhile (· ≠ 0))) := by
  induction ids with
  | nil => rfl
  | cons id ids ih =>
    rw [cons_append, findEnglish]
    by_cases hz : id = 0
    · simp [hz]
    · rw [if_neg hz, takeWhile_cons_of_pos (by simpa using hz)]
      by_cases he : id = 0x0409
      · simp [he]
      · rw [if_neg he, ih]
        congr 2
        simp [Ne.symm he]

variable {len : ℕ} {buf data : List UInt8}

theorem setLangs_spec (x : UInt16) (mid : List UInt16) (hlen : len / 2 = mid.length + 1) :
    setLangs len (x :: mid) = some
      { langIDArray := some (mid.map AROS_LE2WORD ++ [0])
        currLangID := if 0x0409 ∈ (mid.map AROS_LE2WORD).takeWhile (· ≠ 0) then 0x0409
          else (mid.map AROS_LE2WORD).headD 0 } := by
  have hconvert := convertLangs_spec mid [] [] x
  rw [append_nil, nil_append, nil_append, length_nil] at hconvert
  have hfirst : (mid.map AROS_LE2WORD ++ [0])[0]? = some ((mid.map AROS_LE2WORD).headD 0) := by cases mid <;> rfl
  rw [setLangs, if_pos (by omega), hlen, Nat.add_sub_cancel, hconvert]
  dsimp only [bind_eq_bind, bind_some, Option.pure_def]
  rw [hfirst, findEnglish_spec]
  simp only [bind_some, decide_eq_true_eq]

theorem langWords_length {size : ℕ} (h : data.length ≤ size) :
    (langWords size data).length = size / 2 := by
  rw [langWords, words_length, length_append, length_replicate]
  congr 1
  omega

theorem setLangs_langWords (hlen : 4 ≤ len) (hdata : data.length ≤ len) :
    ∃ pd, setLangs len (langWords len data) = some pd ∧ (LangsRight len data pd ↔ WholeLangs len data) := by
  have hsize := langWords_length hdata
  obtain ⟨x, mid, hcons⟩ := exists_cons_of_length_pos (l := langWords len data) (by omega)
  rw [hcons, length_cons] at hsize
  refine ⟨_, hcons ▸ setLangs_spec x mid hsize.symm, ?_⟩
  -- the words behind the header, with those that have not come
  have hmid : mid.map AROS_LE2WORD = units (data ++ replicate (len - data.length) 0) := by
    rw [units_eq]
    exact congrArg (fun l => (drop 1 l).map AROS_LE2WORD) hcons.symm
  have hfull : mid.map AROS_LE2WORD = units data ↔ data.length / 2 = len / 2 := by
    constructor
    · intro he
      have hl := congrArg length he
      rw [length_map, units_length] at hl
      omega
    · intro he
      rw [← units_append data (replicate (len - data.length) 0), ← hmid]
      refine (take_of_length_le ?_).symm
      rw [length_map]
      omega
  have hshort : ¬len < 4 := not_lt.mpr hlen
  rw [LangsRight, WholeLangs, and_iff_right hlen, ← hfull]
  simp only [hlen, true_imp_iff, hshort, false_or, some.injEq]
  constructor
  · rintro ⟨harray, hcurr⟩
    have he := append_cancel_right harray
    refine ⟨he, fun hmem => ?_⟩
    rw [he, if_pos hmem] at hcurr
    by_contra hno
    rw [if_neg hno] at hcurr
    -- a first id that is 0x0409 comes before any 0
    cases hu : units data with
    | nil =>
      rw [hu] at hmem
      exact absurd hmem not_mem_nil
    | cons id ids =>
      rw [hu, headD_cons] at hcurr
      refine hno ?_
      rw [hu, hcurr, takeWhile_cons_of_pos (by decide)]
      exact mem_cons_self
  · rintro ⟨he, hbefore⟩
    rw [he]
    refine ⟨rfl, ?_⟩
    by_cases hmem : 0x0409 ∈ units data
    · rw [if_pos hmem, if_pos (hbefore hmem)]
    · rw [if_neg hmem, if_neg fun h => hmem (takeWhile_subset _ h)]

theorem psdDoPipe_spec (h : len ≤ buf.length) (reply : Reply) :
    psdDoPipe buf len reply = some (reply.data.take len ++ buf.drop (reply.data.take len).length) ∧
      (reply.data.take len ++ buf.drop (reply.data.take len).length).length = buf.length := by
  refine ⟨if_pos h, ?_⟩
  rw [length_append, length_drop, length_take]
  omega

theorem head_append (data : List UInt8) {b : UInt8} (h : buf[0]? = some b) :
    (data ++ buf.drop data.length)[0]? = some (data.headD b) := by
  cases data with
  | nil => simpa using h
  | cons a data => rfl

theorem readLength_spec (runtOk : Bool) (hbuf : buf.length = 256) (hzero : buf[0]? = some 0)
    (replies : List Reply) : ∃ buf', buf'.length = 256 ∧
    match declared runtOk replies with
    | (some (len, _), replies') => readLength runtOk buf replies = some (buf', true, replies') ∧
        ∃ b, buf'[0]? = some b ∧ b.toNat = len
    | (none, replies') => readLength runtOk buf replies = some (buf', false, replies') := by
  obtain ⟨hpipe, hlen⟩ := psdDoPipe_spec (by omega : 2 ≤ buf.length) (replies.headD .gone)
  have hhead := head_append ((replies.headD .gone).data.take 2) hzero
  by_cases hfirst : (replies.headD .gone).ioerr = .none ∨ (replies.headD .gone).ioerr = .overflow
  · have hdecl : declared runtOk replies = (some _, replies.tail) := if_pos hfirst
    rw [hdecl]
    refine ⟨_, hlen.trans hbuf, ?_, _, hhead, rfl⟩
    unfold readLength
    dsimp only
    rw [hpipe]
    exact if_pos hfirst
  · obtain ⟨hpipe', hlen'⟩ := psdDoPipe_spec (by omega : 256 ≤ ((replies.headD .gone).data.take 2 ++
      buf.drop ((replies.headD .gone).data.take 2).length).length) (replies.tail.headD .gone)
    have hhead' := head_append ((replies.tail.headD .gone).data.take 256) hhead
    obtain ⟨buf', hbuf', hrun⟩ : ∃ buf', buf' = (replies.tail.headD .gone).data.take 256 ++
        drop ((replies.tail.headD .gone).data.take 256).length ((replies.headD .gone).data.take 2 ++
          buf.drop ((replies.headD .gone).data.take 2).length) ∧
        readLength runtOk buf replies = some (buf', decide ((replies.tail.headD .gone).ioerr = .none ∨
          runtOk ∧ (replies.tail.headD .gone).ioerr = .runtPacket), replies.tail.tail) := by
      refine ⟨_, rfl, ?_⟩
      unfold readLength
      dsimp only
      rw [hpipe]
      dsimp only [bind_eq_bind, bind_some]
      rw [if_neg hfirst, hpipe']
      rfl
    rw [← hbuf'] at hlen' hhead'
    by_cases hall : (replies.tail.headD .gone).ioerr = .none ∨ runtOk ∧ (replies.tail.headD .gone).ioerr = .runtPacket
    · have hdecl : declared runtOk replies = (some _, replies.tail.tail) := (if_neg hfirst).trans (if_pos hall)
      rw [decide_eq_true hall] at hrun
      rw [hdecl]
      exact ⟨_, hlen'.trans (hlen.trans hbuf), hrun, _, hhead', rfl⟩
    · have hdecl : declared runtOk replies = (none, replies.tail.tail) := (if_neg hfirst).trans (if_neg hall)
      rw [decide_eq_false hall] at hrun
      rw [hdecl]
      exact ⟨_, hlen'.trans (hlen.trans hbuf), hrun⟩

theorem set_zero (h : buf.length = 256) : (buf.set 0 0).length = 256 ∧ (buf.set 0 0)[0]? = some 0 := by
  refine ⟨by rw [length_set, h], ?_⟩
  rw [getElem?_set_self]
  omega

theorem readLangArray_spec (arrayMem : Bool) (pd : PsdDevice) (hbuf : buf.length = 256)
    (hzero : buf[0]? = some 0) (replies : List Reply) : ∃ pd' buf', buf'.length = 256 ∧
    readLangArray arrayMem pd buf replies = some (pd', buf', (langReply arrayMem replies).2) ∧
    ∀ read ∈ (langReply arrayMem replies).1, (LangsRight read.1 read.2 pd' ↔ WholeLangs read.1 read.2) := by
  obtain ⟨buf', hlen, hread⟩ := readLength_spec true hbuf hzero replies
  obtain ⟨⟨read, replies'⟩, hdecl⟩ : ∃ read, declared true replies = read := ⟨_, rfl⟩
  rw [hdecl] at hread
  unfold langReply readLangArray
  rw [hdecl]
  cases read with
  | some read =>
    obtain ⟨len, data⟩ := read
    obtain ⟨hread, b, hb, rfl⟩ := hread
    rw [hread]
    dsimp only [bind_eq_bind, bind_some]
    rw [if_pos rfl, hb]
    dsimp only [bind_some]
    cases arrayMem with
    | false => exact ⟨pd, buf', hlen, rfl, nofun⟩
    | true =>
      by_cases hshort : b.toNat < 4
      · -- 0x0409 is in the host's order already
        have hdummy : setLangs 4 (0 :: [0x0409]) = _ := setLangs_spec 0 [0x0409] rfl
        simp only [if_pos hshort, if_true, Bool.not_true, Bool.false_eq_true, if_false]
        refine ⟨_, buf', hlen, congrArg (bind · fun pd => some (pd, buf', replies')) hdummy, fun read hr => ?_⟩
        cases hr
        refine iff_of_false (fun h => ?_) fun h => absurd h.1 (not_le.mpr hshort)
        have hcurr := h.2.trans (if_pos (Or.inl hshort))
        revert hcurr
        decide
      · simp only [if_neg hshort, if_true, Bool.not_true, Bool.false_eq_true, if_false]
        by_cases hok : (replies'.headD .gone).ioerr = .none
        · obtain ⟨pd', hset, hiff⟩ := setLangs_langWords (not_lt.mp hshort)
            (length_take_le b.toNat (replies'.headD .gone).data)
          simp only [if_pos hok, hset]
          refine ⟨pd', buf', hlen, rfl, fun read hr => ?_⟩
          cases hr
          exact hiff
        · have hlength := langWords_length (length_take_le b.toNat (replies'.headD .gone).data)
          have hset : setWord (langWords b.toNat ((replies'.headD .gone).data.take b.toNat)) 0 0 = some _ :=
            if_pos (by omega)
          simp only [if_neg hok, hset]
          exact ⟨_, buf', hlen, rfl, nofun⟩
  | none =>
    rw [hread]
    exact ⟨_, buf', hlen, rfl, nofun⟩

theorem convertString_spec (buf : List UInt8) (size n : ℕ) : ∀ (i : ℕ) (str : List UInt8), i + 2 * n ≤ buf.length →
    str.length + n < size →
    convertString buf size n i str = some (str ++ ((leWords (buf.drop i)).take n).map latin1) := by
  induction n with
  | zero =>
    intro i str _ hsize
    rw [convertString, if_pos (by omega), take_zero, map_nil, append_nil]
  | succ n ih =>
    intro i str hbuf hsize
    have hhi : buf[i]? = some buf[i] := getElem?_eq_getElem (by omega)
    have hlo : buf[i + 1]? = some buf[i + 1] := getElem?_eq_getElem (by omega)
    rw [convertString, hhi, hlo]
    dsimp only [bind_eq_bind, bind_some]
    rw [if_pos (by omega), ih (i + 2) _ (by omega) (by rw [length_append, length_singleton]; omega),
      drop_eq_getElem_cons (by omega : i < buf.length), drop_eq_getElem_cons (by omega : i + 1 < buf.length),
      leWords, take_succ_cons, map_cons, swap_word, append_assoc, singleton_append]

theorem takeString_spec {rest : List UInt8} (hlen : 2 < len) (hbuf : len ≤ (data ++ rest).length) :
    ∃ str, takeString true (data ++ rest) len = some str ∧
      ((∀ chars ∈ str, chars = (units data).map latin1) ↔ WholeString len data) := by
  have hconvert := convertString_spec (data ++ rest) (len / 2) (len / 2 - 1) 2 [] (by omega)
    (by rw [length_nil]; omega)
  change _ = some (((units (data ++ rest)).take (len / 2 - 1)).map latin1) at hconvert
  have hlength : ((units (data ++ rest)).take (len / 2 - 1)).length = len / 2 - 1 := by
    rw [length_take, units_length]
    omega
  have hpos : 0 < len / 2 := by omega
  rw [takeString, if_pos rfl, if_pos hpos, hconvert]
  refine ⟨_, rfl, ?_⟩
  rw [WholeString, if_neg (not_le.mpr hlen)]
  by_cases hfour : 4 ≤ len
  · have hne : ((units (data ++ rest)).take (len / 2 - 1)).map latin1 ≠ [] := fun h => by
      have := congrArg length h
      rw [length_map, hlength, length_nil] at this
      omega
    rw [if_neg hne]
    constructor
    · intro h _
      have hl := congrArg length (h _ rfl)
      rw [length_map, length_map, hlength, units_length] at hl
      omega
    · rintro h chars hchars
      cases hchars
      rw [← h hfour, units_append]
  · have hzero : len / 2 - 1 = 0 := by omega
    rw [hzero, take_zero, map_nil, if_pos rfl]
    exact iff_of_true nofun fun h => absurd h hfour

theorem takeString_reply (stringMem : Bool) {rest : List UInt8} (hlen : 2 < len)
    (hbuf : len ≤ (data ++ rest).length) : ∃ str, takeString stringMem (data ++ rest) len = some str ∧
    ((∀ chars ∈ str, ∃ read ∈ some (len, data), chars = (units read.2).map latin1) ↔
      (stringMem = true → ∀ read ∈ some (len, data), WholeString read.1 read.2)) := by
  cases stringMem with
  | false => exact ⟨none, rfl, iff_of_true nofun nofun⟩
  | true =>
    obtain ⟨str, hstr, hiff⟩ := takeString_spec hlen hbuf
    refine ⟨str, hstr, ?_⟩
    simpa using hiff

theorem readString_spec (stringMem : Bool) (hbuf : buf.length = 256) (hzero : buf[0]? = some 0)
    (replies : List Reply) : ∃ str, readString stringMem buf replies = some str ∧
    ((∀ chars ∈ str, ∃ read ∈ stringReply replies, chars = (units read.2).map latin1) ↔
      (stringMem = true → ∀ read ∈ stringReply replies, WholeString read.1 read.2)) := by
  obtain ⟨buf', hlen, hread⟩ := readLength_spec false hbuf hzero replies
  obtain ⟨⟨read, replies'⟩, hdecl⟩ : ∃ read, declared false replies = read := ⟨_, rfl⟩
  rw [hdecl] at hread
  unfold stringReply readString
  rw [hdecl]
  cases read with
  | some read =>
    obtain ⟨len, data⟩ := read
    obtain ⟨hread, b, hb, rfl⟩ := hread
    have hbyte := b.toNat_lt
    rw [hread]
    dsimp only [bind_eq_bind, bind_some]
    rw [if_pos rfl, hb]
    dsimp only [bind_some]
    by_cases hlong : 2 < b.toNat
    · obtain ⟨hpipe, hlen'⟩ := psdDoPipe_spec (by omega : b.toNat ≤ buf'.length) (replies'.headD .gone)
      rw [if_pos hlong, if_pos hlong, hpipe]
      dsimp only [bind_some]
      cases (replies'.headD .gone).ioerr with
      | none => exact takeString_reply stringMem hlong (by omega)
      | runtPacket =>
        by_cases hthree : 3 < ((replies'.headD .gone).data.take b.toNat).length
        · have hle := length_take_le b.toNat (replies'.headD .gone).data
          rw [if_pos hthree, if_pos hthree]
          exact takeString_reply stringMem (by omega) (by omega)
        · rw [if_neg hthree, if_neg hthree]
          exact ⟨none, rfl, iff_of_true nofun nofun⟩
      | overflow | other _ =>
        obtain ⟨hpipe', hlen''⟩ := psdDoPipe_spec (by omega : 256 ≤ ((replies'.headD .gone).data.take b.toNat ++
          buf'.drop ((replies'.headD .gone).data.take b.toNat).length).length) (replies'.tail.headD .gone)
        rw [hpipe']
        dsimp only [bind_some]
        by_cases hok : (replies'.tail.headD .gone).ioerr = .none
        · rw [if_pos hok, if_pos hok]
          exact takeString_reply stringMem hlong (by omega)
        · rw [if_neg hok, if_neg hok]
          exact ⟨none, rfl, iff_of_true nofun nofun⟩
    · rw [if_neg hlong, if_neg hlong]
      refine ⟨_, rfl, ?_⟩
      cases stringMem with
      | false => exact iff_of_true nofun nofun
      | true =>
        have hwhole : WholeString b.toNat data ↔ data.length < 4 := by rw [WholeString, if_pos (not_lt.mp hlong)]
        have hunits : [] = (units data).map latin1 ↔ data.length < 4 := by
          rw [eq_comm, map_eq_nil_iff, ← length_eq_zero_iff, units_length]
          omega
        simp [hwhole, hunits]
  | none =>
    rw [hread]
    exact ⟨none, rfl, iff_of_true nofun nofun⟩

theorem langRead_spec (stack : Stack) (arrayMem stringMem : Bool) (pd : PsdDevice) (replies : List Reply) :
    ∃ (pd' : PsdDevice) (buf' : List UInt8), buf'.length = 256 ∧
      psdGetStringDescriptor stack arrayMem stringMem pd replies =
        (readString stringMem (buf'.set 0 0) (langRead arrayMem pd replies).2).bind (fun str => some (pd', str)) ∧
      ∀ read ∈ (langRead arrayMem pd replies).1, (LangsRight read.1 read.2 pd' ↔ WholeLangs read.1 read.2) := by
  obtain ⟨hstack, hzero⟩ := set_zero stack.property
  unfold psdGetStringDescriptor langRead
  cases pd.langIDArray with
  | none =>
    obtain ⟨pd', buf', hbuf', hread, hright⟩ := readLangArray_spec arrayMem pd hstack hzero replies
    refine ⟨pd', buf', hbuf', ?_, hright⟩
    dsimp only
    rw [hread]
    rfl
  | some langs => exact ⟨pd, _, hstack, rfl, nofun⟩

/-- A call is right exactly where what the device sends is as long as it says, the language array is not too short, and no
0 hides an 0x0409 in it. -/
theorem decodes_iff (stack : Stack) (arrayMem stringMem : Bool) (pd : PsdDevice) (replies : List Reply) :
    Decodes stack arrayMem stringMem pd replies ↔ Whole arrayMem stringMem pd replies := by
  obtain ⟨pd', buf', hbuf', hrun, hright⟩ := langRead_spec stack arrayMem stringMem pd replies
  obtain ⟨hset, hzero⟩ := set_zero hbuf'
  obtain ⟨str, hstr, hwhole⟩ := readString_spec stringMem hset hzero (langRead arrayMem pd replies).2
  rw [hstr] at hrun
  unfold Decodes Whole
  rw [hrun, ← hwhole]
  constructor
  · rintro ⟨pd'', str', he, hlangs, hchars⟩
    cases he
    exact ⟨fun read hr => (hright read hr).mp (hlangs read hr), hchars⟩
  · rintro ⟨hlangs, hchars⟩
    exact ⟨pd', str, rfl, fun read hr => (hright read hr).mpr (hlangs read hr), hchars⟩

/-- A device without languages: the two bytes of the header are all of its array. Its string is empty. -/
theorem dummy_swapped : ¬Decodes ⟨List.replicate 256 0, length_replicate⟩ true true ⟨none, 0⟩
    [⟨.none, [2, 3]⟩, ⟨.none, [2, 3]⟩] := by
  rintro ⟨pd, str, hrun, hlangs, -⟩
  obtain ⟨pd', buf', hbuf', hrun', hright⟩ := langRead_spec ⟨List.replicate 256 0, length_replicate⟩ true true
    ⟨none, 0⟩ [⟨.none, [2, 3]⟩, ⟨.none, [2, 3]⟩]
  rw [hrun] at hrun'
  obtain ⟨str', -, he⟩ := bind_eq_some_iff.mp hrun'.symm
  cases he
  have hwhole := (hright (2, []) rfl).mp (hlangs (2, []) rfl)
  exact absurd hwhole.1 (by decide)

end Neptune.StringDesc
