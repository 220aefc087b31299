import Neptune.Lib.Bytes
import Neptune.Lib.Word
import Neptune.Spec.AudioPlay

/-! Recording: the frames of the service intervals, through the converter and the two record blocks, to AHI.
A division by zero, and an access the hook must not make, end the run. -/

namespace Neptune

open List Option Function

namespace UsbAudio.Record

structure Uat1f where
  nrChannels : ℕ
  subframeSize : ℕ
  bitResolution : ℕ
  bytes : subframeSize < 256
  typegood : (nrChannels = 1 ∨ nrChannels = 2) ∧
    (bitResolution = 8 ∨ bitResolution = 16 ∨ 16 < bitResolution ∧ bitResolution ≤ 32)

structure Endpoint where
  maxPktSize : ℕ
  numTransMuFr : ℕ
  bytesPerInterval : ℕ
  interval : ℕ
  highspeed : Bool
  superspeed : Bool
  words : maxPktSize < 2 ^ 16 ∧ numTransMuFr < 4 ∧ bytesPerInterval < 2 ^ 32 ∧ interval < 2 ^ 16

/-- What else the call meets: whether it comes as far as the endpoint's attributes, whether the stack has a
handler for it, and which sizes there is memory for. -/
structure Env where
  selected : Bool
  handler : Bool
  psdAllocVec : ℕ → Bool

def byteSample (data : List UInt8) (src : ℕ) : Option UInt16 := do return (← data[src]?).toUInt16 * 256

def wordSample (data : List UInt8) (src : ℕ) : Option UInt16 := do
  return (← data[src]?).toUInt16 ||| (← data[src + 1]?).toUInt16 <<< 8

/-- Where it starts to read, and how far apart the samples of a frame and the frames are. -/
structure Converter where
  sample : List UInt8 → ℕ → Option UInt16
  first : ℕ
  right : ℕ
  stride : ℕ

def nRec8BitMono : Converter := ⟨byteSample, 0, 0, 1⟩
def nRec8BitStereo : Converter := ⟨byteSample, 0, 1, 2⟩
def nRec16BitMono : Converter := ⟨wordSample, 0, 0, 2⟩
def nRec16BitStereo : Converter := ⟨wordSample, 0, 2, 4⟩
def nRec24BitMono : Converter := ⟨wordSample, 1, 0, 3⟩
def nRec24BitStereo : Converter := ⟨wordSample, 1, 3, 6⟩
def nRec32BitMono : Converter := ⟨wordSample, 2, 0, 4⟩
def nRec32BitStereo : Converter := ⟨wordSample, 2, 4, 8⟩

def nConverter : ℕ → ℕ → Option Converter
  | 1, 1 => some nRec8BitMono
  | 1, 2 => some nRec8BitStereo
  | 2, 1 => some nRec16BitMono
  | 2, 2 => some nRec16BitStereo
  | 3, 1 => some nRec24BitMono
  | 3, 2 => some nRec24BitStereo
  | 4, 1 => some nRec32BitMono
  | 4, 2 => some nRec32BitStereo
  | _, _ => none

def poke (room : ℕ → Bool) (tar : ℕ) (x : UInt16) (mem : ℕ → UInt16) : Option (ℕ → UInt16) :=
  if room tar then some (Function.update mem tar x) else none

def Converter.rounds (c : Converter) (data : List UInt8) (room : ℕ → Bool) :
    ℕ → ℕ → ℕ → (ℕ → UInt16) → Option (ℕ → UInt16)
  | 0, _, _, mem => some mem
  | n + 1, src, tar, mem => do
    let mem ← poke room tar (← c.sample data src) mem
    let mem ← poke room (tar + 1) (← c.sample data (src + c.right)) mem
    c.rounds data room n (src + c.stride) (tar + 2) mem

def Converter.entry (c : Converter) (data : List UInt8) (room : ℕ → Bool) (tar cnt : ℕ) (mem : ℕ → UInt16) :
    Option (ℕ → UInt16) :=
  c.rounds data room (ulongSub cnt 1 + 1) c.first tar mem

structure RecMode where
  frameSize : ℕ
  intervalBytes : ℕ
  words : ℕ
  samConv : Converter

def nRecBlockFrames (intervalBytes frameSize : ℕ) : Option ℕ := do
  return ulong (1024 + (← quot intervalBytes frameSize))

def Endpoint.served (ep : Endpoint) : ℕ × ℕ :=
  (if ep.highspeed || ep.superspeed then (if 8 < ep.interval then ep.interval >>> 3 else 1) else ep.interval,
    if ep.superspeed then ep.bytesPerInterval else ep.maxPktSize * ep.numTransMuFr)

def subLibAllocAudio (u : Uat1f) (ep : Endpoint) (env : Env) : Option (Option RecMode) :=
  if env.selected then do
    let frameSize := uword (u.subframeSize * u.nrChannels)
    let (interval, intervalBytes) := ep.served
    let _maxfreq ← quot (ulong (1000 * intervalBytes)) (ulong (frameSize * interval))
    if env.handler then
      let size := ulong (2 * (← nRecBlockFrames intervalBytes frameSize) * 2 * 2)
      if env.psdAllocVec size && env.psdAllocVec intervalBytes then
        return (nConverter u.subframeSize u.nrChannels).map fun samConv =>
          { frameSize, intervalBytes, words := size / 2, samConv }
      else return none
    else return none
  else some none

structure Recorder where
  mem : ℕ → UInt16
  base : ℕ
  length : ℕ
  recFrames : ℕ
  held : Option ℕ
  handed : List (List (UInt16 × UInt16))

def block (mem : ℕ → UInt16) (base length : ℕ) : List (UInt16 × UInt16) :=
  (List.range length).map fun i => (mem (base + 2 * i), mem (base + 2 * i + 1))

/-- Where the hook may write: into the block it fills, and not into the one AHI was given. -/
def Recorder.room (nam : RecMode) (frames : ℕ) (s : Recorder) (i : ℕ) : Bool :=
  decide (i < nam.words ∧ s.base ≤ i ∧ i < s.base + 2 * frames) &&
    s.held.all fun base => decide (i < base ∨ base + 2 * frames ≤ i)

def nInReqHook (nam : RecMode) (length : ℕ) : ℕ := if nam.intervalBytes < length then nam.intervalBytes else length

def nInDoneHook (nam : RecMode) (data : List UInt8) (s : Recorder) : Option Recorder := do
  let cnt ← quot data.length nam.frameSize
  if cnt = 0 then return s
  let frames ← nRecBlockFrames nam.intervalBytes nam.frameSize
  let mem ← nam.samConv.entry data (s.room nam frames) (s.base + s.length * 2) cnt s.mem
  let s := { s with mem, recFrames := ulong (s.recFrames + cnt), length := s.length + cnt }
  if 1024 ≤ s.length then
    return { s with
      handed := s.handed ++ [block s.mem s.base s.length]
      held := some s.base
      base := if s.base = 0 then frames * 2 else 0
      length := 0 }
  else return s

def serve (nam : RecMode) (s : Recorder) (data : List UInt8) : Option Recorder :=
  nInDoneHook nam (data.take (nInReqHook nam data.length)) s

def start (mem : ℕ → UInt16) : Recorder := ⟨mem, 0, 0, 0, none, []⟩

def exec (nam : RecMode) (mem : ℕ → UInt16) (ds : List (List UInt8)) : Option Recorder :=
  ds.foldlM (serve nam) (start mem)

def top16 (bytes : List UInt8) : UInt16 := UInt16.ofNat (Fields.value bytes * 256 ^ 2 / 256 ^ bytes.length)

def sampleAt (data : List UInt8) (p size : ℕ) : UInt16 := top16 ((List.range size).map fun i => data.getD (p + i) 0)

def frames (u : Uat1f) (data : List UInt8) : List (UInt16 × UInt16) :=
  (List.range (data.length / (u.subframeSize * u.nrChannels))).map fun i =>
    let p := i * (u.subframeSize * u.nrChannels)
    (sampleAt data p u.subframeSize, sampleAt data (p + (u.nrChannels - 1) * u.subframeSize) u.subframeSize)

structure Delivered (u : Uat1f) (nam : RecMode) (ds : List (List UInt8)) (s : Recorder) : Prop where
  whole : s.handed.flatten ++ block s.mem s.base s.length =
    (ds.map fun data => frames u (data.take nam.intervalBytes)).flatten
  waiting : s.length < 1024

variable {u : Uat1f} {nam : RecMode} {ep : Endpoint} {env : Env} {s : Recorder} {c : Converter} {data : List UInt8}
  {mem : ℕ → UInt16}

theorem word_eq (lo hi : UInt8) : lo.toUInt16 ||| hi.toUInt16 <<< 8 = UInt16.ofNat (hi.toNat * 256 + lo.toNat) := by
  have hlo := lo.toNat_lt
  have hhi := hi.toNat_lt
  apply UInt16.toNat.inj
  rw [UInt16.toNat_or, UInt16.toNat_shiftLeft, UInt16.toNat_ofNat_of_lt' (by simp [UInt16.size]; omega)]
  simp only [UInt8.toNat_toUInt16, UInt16.reduceToNat, Nat.reduceMod]
  rw [Nat.mod_eq_of_lt (by rw [Nat.shiftLeft_eq]; omega), Nat.or_comm, ← Nat.shiftLeft_add_eq_or_of_lt hlo,
    Nat.shiftLeft_eq]

theorem byteSample_eq {src : ℕ} (h : src < data.length) :
    byteSample data src = some (UInt16.ofNat ((data.getD src 0).toNat * 256)) := by
  unfold byteSample
  rw [getElem?_eq_getElem h, getD_eq_getElem _ _ h]
  refine congrArg some (UInt16.toNat.inj ?_)
  have hb := (data[src]).toNat_lt
  rw [UInt16.toNat_ofNat_of_lt' (by simp [UInt16.size]; omega), UInt16.toNat_mul]
  simp only [UInt8.toNat_toUInt16, UInt16.reduceToNat]
  omega

theorem wordSample_eq {src : ℕ} (h : src + 1 < data.length) : wordSample data src =
    some (UInt16.ofNat ((data.getD (src + 1) 0).toNat * 256 + (data.getD src 0).toNat)) := by
  unfold wordSample
  rw [getElem?_eq_getElem h, getElem?_eq_getElem (Nat.lt_of_succ_lt h), getD_eq_getElem _ _ h,
    getD_eq_getElem _ _ (Nat.lt_of_succ_lt h)]
  exact congrArg some (word_eq _ _)

theorem sampleAt_byte (data : List UInt8) (p : ℕ) : sampleAt data p 1 = UInt16.ofNat ((data.getD p 0).toNat * 256) := by
  unfold sampleAt top16
  congr 1
  simp [range_succ, Fields.value, Bytes.ofBE]
  omega

/-- The two bytes on top are what counts. -/
theorem sampleAt_word (data : List UInt8) (p k : ℕ) (hk : k ≤ 2) : sampleAt data p (k + 2) =
    UInt16.ofNat ((data.getD (p + k + 1) 0).toNat * 256 + (data.getD (p + k) 0).toNat) := by
  have hbyte : ∀ i, (data.getD i 0).toNat < 256 := fun i => (data.getD i 0).toNat_lt
  have h0 := hbyte p
  have h1 := hbyte (p + 1)
  have hcases : k = 0 ∨ k = 1 ∨ k = 2 := by omega
  unfold sampleAt top16
  congr 1
  rcases hcases with rfl | rfl | rfl
  · simp [range_succ, Fields.value, Bytes.ofBE]
  · simp [range_succ, Fields.value, Bytes.ofBE, Nat.add_assoc] at *
    omega
  · simp [range_succ, Fields.value, Bytes.ofBE, Nat.add_assoc] at *
    omega

structure Converter.Reads (c : Converter) (size channels : ℕ) : Prop where
  pos : 0 < size ∧ 0 < channels
  stride : c.stride = size * channels
  right : c.right = (channels - 1) * size
  sample : ∀ {data : List UInt8} {p : ℕ}, p + size ≤ data.length →
    c.sample data (p + c.first) = some (sampleAt data p size)

theorem reads_byte (channels : ℕ) (h : 0 < channels) :
    Converter.Reads ⟨byteSample, 0, (channels - 1) * 1, 1 * channels⟩ 1 channels :=
  ⟨⟨Nat.one_pos, h⟩, rfl, rfl, fun hp =>
    (byteSample_eq (by dsimp only; omega)).trans (congrArg some (sampleAt_byte _ _).symm)⟩

theorem reads_word (k channels : ℕ) (hk : k ≤ 2) (h : 0 < channels) :
    Converter.Reads ⟨wordSample, k, (channels - 1) * (k + 2), (k + 2) * channels⟩ (k + 2) channels :=
  ⟨⟨Nat.succ_pos _, h⟩, rfl, rfl, fun hp => (wordSample_eq (by dsimp only; omega)).trans
    (congrArg some (sampleAt_word _ _ k hk).symm)⟩

theorem nConverter_reads {size channels : ℕ} (h : nConverter size channels = some c) : c.Reads size channels := by
  unfold nConverter at h
  split at h
  case h_9 => cases h
  all_goals obtain rfl := some.inj h
  case h_1 => exact reads_byte 1 (by decide)
  case h_2 => exact reads_byte 2 (by decide)
  case h_3 => exact reads_word 0 1 (by decide) (by decide)
  case h_4 => exact reads_word 0 2 (by decide) (by decide)
  case h_5 => exact reads_word 1 1 (by decide) (by decide)
  case h_6 => exact reads_word 1 2 (by decide) (by decide)
  case h_7 => exact reads_word 2 1 (by decide) (by decide)
  case h_8 => exact reads_word 2 2 (by decide) (by decide)

theorem rounds_eq {room : ℕ → Bool} {left right : ℕ → UInt16} {n src tar : ℕ}
    (hleft : ∀ i < n, c.sample data (src + i * c.stride) = some (left i))
    (hright : ∀ i < n, c.sample data (src + i * c.stride + c.right) = some (right i))
    (hroom : ∀ i, tar ≤ i → i < tar + 2 * n → room i = true) :
    ∃ mem', c.rounds data room n src tar mem = some mem' ∧
      (∀ i < n, mem' (tar + 2 * i) = left i ∧ mem' (tar + 2 * i + 1) = right i) ∧
      ∀ i, i < tar → mem' i = mem i := by
  induction n generalizing src tar mem left right with
  | zero => exact ⟨mem, rfl, nofun, fun _ _ => rfl⟩
  | succ n ih =>
    have hl := hleft 0 n.succ_pos
    have hr := hright 0 n.succ_pos
    rw [Nat.zero_mul, Nat.add_zero] at hl hr
    have hsrc : ∀ i, src + c.stride + i * c.stride = src + (i + 1) * c.stride := fun i => by ring
    obtain ⟨mem', hmem, hpairs, hbefore⟩ := @ih (update (update mem tar (left 0)) (tar + 1) (right 0))
      (fun i => left (i + 1)) (fun i => right (i + 1)) (src + c.stride) (tar + 2)
      (fun i hi => hsrc i ▸ hleft (i + 1) (by omega)) (fun i hi => hsrc i ▸ hright (i + 1) (by omega))
      (fun i hi hn => hroom i (by omega) (by omega))
    refine ⟨mem', ?_, fun i hi => ?_, fun i hi => ?_⟩
    · unfold Converter.rounds poke
      simp only [hl, hr, if_pos (hroom tar le_rfl (by omega)), if_pos (hroom (tar + 1) (by omega) (by omega)),
        bind_eq_bind, bind_some]
      exact hmem
    · cases i with
      | zero =>
        refine ⟨(hbefore tar (by omega)).trans ?_, (hbefore (tar + 1) (by omega)).trans (update_self ..)⟩
        rw [update_of_ne (by omega), update_self]
      | succ i =>
        rw [show tar + 2 * (i + 1) = tar + 2 + 2 * i by ring]
        exact hpairs i (by omega)
    · rw [hbefore i (by omega), update_of_ne (by omega), update_of_ne (by omega)]

/-- The format has bytes, the endpoint an interval, and the two blocks fit 32 bits. Only a low speed endpoint has
an interval of zero. -/
structure Sane (u : Uat1f) (ep : Endpoint) : Prop where
  sized : u.subframeSize ≠ 0
  interval : ep.highspeed = true ∨ ep.superspeed = true ∨ ep.interval ≠ 0
  room : ep.served.2 / (u.subframeSize * u.nrChannels) + 1024 < 2 ^ 29

structure Fits (u : Uat1f) (nam : RecMode) : Prop where
  reads : nam.samConv.Reads u.subframeSize u.nrChannels
  frameSize : nam.frameSize = u.subframeSize * u.nrChannels
  frames : nRecBlockFrames nam.intervalBytes nam.frameSize = some (nam.intervalBytes / nam.frameSize + 1024)
  room : nam.intervalBytes / nam.frameSize + 1024 < 2 ^ 29
  words : nam.words = 4 * (nam.intervalBytes / nam.frameSize + 1024)

theorem Endpoint.served_pos (h : ep.highspeed = true ∨ ep.superspeed = true ∨ ep.interval ≠ 0) :
    0 < ep.served.1 ∧ ep.served.1 < 2 ^ 16 := by
  have hword := ep.words.2.2.2
  unfold Endpoint.served
  dsimp only
  split
  · split
    · omega
    · omega
  · rename_i hfast
    simp only [Bool.or_eq_true, not_or] at hfast
    exact ⟨Nat.pos_of_ne_zero ((h.resolve_left hfast.1).resolve_left hfast.2), hword⟩

theorem alloc_fits (h : Sane u ep) (env : Env) :
    ∃ res, subLibAllocAudio u ep env = some res ∧ ∀ nam ∈ res, Fits u nam := by
  have hbytes := (show ∀ n, n < 2 ^ 29 → 2 * n * 2 * 2 < 2 ^ 32 by omega) _ h.room
  have hchannels : 0 < u.nrChannels ∧ u.nrChannels ≤ 2 := by
    rcases u.typegood.1 with h | h <;> omega
  have hsize := Nat.mul_le_mul (Nat.le_of_lt_succ u.bytes) hchannels.2
  have hpos := Nat.mul_pos (Nat.pos_of_ne_zero h.sized) hchannels.1
  have hframe : uword (u.subframeSize * u.nrChannels) = u.subframeSize * u.nrChannels := uword_of_lt (by omega)
  obtain ⟨hinterval, hword⟩ := Endpoint.served_pos h.interval
  have hserved : ulong (u.subframeSize * u.nrChannels * ep.served.1) = u.subframeSize * u.nrChannels * ep.served.1 :=
    Nat.mod_eq_of_lt ((Nat.mul_le_mul hsize hword.le).trans_lt (by decide))
  have hblocks : nRecBlockFrames ep.served.2 (u.subframeSize * u.nrChannels) =
      some (ep.served.2 / (u.subframeSize * u.nrChannels) + 1024) := by
    unfold nRecBlockFrames quot
    rw [if_pos hpos.ne', bind_eq_bind, bind_some, Nat.add_comm, ulong,
      Nat.mod_eq_of_lt (h.room.trans (by decide))]
    rfl
  unfold subLibAllocAudio
  cases env.selected with
  | false => exact ⟨none, rfl, nofun⟩
  | true =>
    simp only [if_true, hframe, hserved, quot, if_pos (Nat.mul_pos hpos hinterval).ne', hblocks, bind_eq_bind,
      bind_some]
    split
    · split
      · refine ⟨_, rfl, fun nam hnam => ?_⟩
        obtain ⟨c, hc, rfl⟩ := map_eq_some_iff.1 hnam
        refine ⟨nConverter_reads hc, rfl, hblocks, h.room, ?_⟩
        dsimp only
        rw [ulong, Nat.mod_eq_of_lt hbytes]
        omega
      · exact ⟨none, rfl, nofun⟩
    · exact ⟨none, rfl, nofun⟩

structure Inv (u : Uat1f) (nam : RecMode) (ds : List (List UInt8)) (s : Recorder) : Prop
    extends Delivered u nam ds s where
  base : s.base = 0 ∨ s.base = (nam.intervalBytes / nam.frameSize + 1024) * 2
  held : ∀ base ∈ s.held, base ≠ s.base ∧ (base = 0 ∨ base = (nam.intervalBytes / nam.frameSize + 1024) * 2)

theorem block_append (mem : ℕ → UInt16) (base n m : ℕ) :
    block mem base (n + m) = block mem base n ++ block mem (base + 2 * n) m := by
  unfold block
  rw [List.range_add, List.map_append, List.map_map]
  congr 1
  refine List.map_congr_left fun i _ => ?_
  simp only [Function.comp, Nat.mul_add, Nat.add_assoc]

theorem Inv.room {ds : List (List UInt8)} (h : Inv u nam ds s) (hfits : Fits u nam) {i : ℕ} (hbase : s.base ≤ i)
    (hi : i < s.base + 2 * (nam.intervalBytes / nam.frameSize + 1024)) :
    s.room nam (nam.intervalBytes / nam.frameSize + 1024) i = true := by
  unfold Recorder.room
  have hwords := hfits.words
  rw [Bool.and_eq_true, decide_eq_true_iff]
  constructor
  · rcases h.base with hb | hb <;> omega
  · cases hheld : s.held with
    | none => rfl
    | some base =>
      obtain ⟨hne, hor⟩ := h.held base hheld
      simp only [all_some, decide_eq_true_iff]
      rcases h.base with hb | hb <;> rcases hor with hor | hor <;> omega

/-- A converter writes the frames of an interval behind those that are there. -/
theorem entry_eq {ds : List (List UInt8)} (h : Inv u nam ds s) (hfits : Fits u nam)
    (hcnt : 0 < data.length / nam.frameSize) (hle : data.length ≤ nam.intervalBytes) : ∃ mem,
      nam.samConv.entry data (s.room nam (nam.intervalBytes / nam.frameSize + 1024)) (s.base + s.length * 2)
        (data.length / nam.frameSize) s.mem = some mem ∧
      block mem s.base (s.length + data.length / nam.frameSize) = block s.mem s.base s.length ++ frames u data := by
  have hreads := hfits.reads
  have hframe := hfits.frameSize
  have hwait := h.waiting
  have hroom := hfits.room
  have hdiv : data.length / nam.frameSize ≤ nam.intervalBytes / nam.frameSize := Nat.div_le_div_right hle
  have hcount : ulongSub (data.length / nam.frameSize) 1 + 1 = data.length / nam.frameSize := by
    unfold ulongSub
    omega
  have hmul := Nat.div_mul_le_self data.length nam.frameSize
  have hin : ∀ i < data.length / nam.frameSize, i * nam.frameSize + nam.frameSize ≤ data.length := by
    intro i hi
    have hnext := Nat.mul_le_mul_right nam.frameSize hi
    rw [Nat.succ_mul] at hnext
    omega
  have hlast : (u.nrChannels - 1) * u.subframeSize + u.subframeSize = nam.frameSize := by
    rw [hframe, ← Nat.succ_mul, Nat.succ_eq_add_one, Nat.sub_add_cancel hreads.pos.2, Nat.mul_comm]
  have hstride := hreads.stride.trans hframe.symm
  unfold Converter.entry
  rw [hcount]
  obtain ⟨mem, hmem, hpairs, hbefore⟩ := @rounds_eq nam.samConv data s.mem
    (s.room nam (nam.intervalBytes / nam.frameSize + 1024))
    (fun i => sampleAt data (i * nam.frameSize) u.subframeSize)
    (fun i => sampleAt data (i * nam.frameSize + (u.nrChannels - 1) * u.subframeSize) u.subframeSize)
    (data.length / nam.frameSize) nam.samConv.first (s.base + s.length * 2)
    (fun i hi => by
      have hp := hin i hi
      rw [hstride, Nat.add_comm]
      exact hreads.sample (by omega))
    (fun i hi => by
      have hp := hin i hi
      rw [hstride, hreads.right, Nat.add_assoc, Nat.add_comm]
      exact hreads.sample (by omega))
    (fun i hbase hi => h.room hfits (by omega) (by omega))
  refine ⟨mem, hmem, ?_⟩
  rw [block_append]
  congr 1
  · exact map_congr_left fun i hi => by
      have hlt := mem_range.1 hi
      rw [hbefore _ (by omega), hbefore _ (by omega)]
  · unfold block frames
    rw [← hframe]
    refine map_congr_left fun i hi => ?_
    obtain ⟨hl, hr⟩ := hpairs i (mem_range.1 hi)
    rw [Nat.mul_comm s.length 2] at hl hr
    exact Prod.ext hl hr

theorem Inv.serve {ds : List (List UInt8)} (h : Inv u nam ds s) (hfits : Fits u nam) (data : List UInt8) :
    ∃ t, serve nam s data = some t ∧ Inv u nam (ds ++ [data]) t := by
  have hcut : data.take (nInReqHook nam data.length) = data.take nam.intervalBytes := by
    unfold nInReqHook
    split
    · rfl
    · rw [take_length, take_of_length_le (by omega)]
  have hle : (data.take nam.intervalBytes).length ≤ nam.intervalBytes := length_take_le _ _
  have hds : ((ds ++ [data]).map fun data => frames u (data.take nam.intervalBytes)).flatten =
      (ds.map fun data => frames u (data.take nam.intervalBytes)).flatten ++
        frames u (data.take nam.intervalBytes) := by
    simp
  have hpos : nam.frameSize ≠ 0 :=
    hfits.frameSize ▸ (Nat.mul_pos hfits.reads.pos.1 hfits.reads.pos.2).ne'
  unfold Record.serve nInDoneHook quot
  rw [hcut]
  generalize data.take nam.intervalBytes = data at *
  rw [if_pos hpos, bind_eq_bind, bind_some]
  by_cases hcnt : data.length / nam.frameSize = 0
  · rw [if_pos hcnt]
    refine ⟨s, rfl, ⟨⟨?_, h.waiting⟩, h.base, h.held⟩⟩
    have hnone : frames u data = [] := by
      unfold frames
      rw [← hfits.frameSize, hcnt]
      rfl
    rw [hds, hnone, append_nil]
    exact h.whole
  · obtain ⟨mem, hmem, hblock⟩ := entry_eq h hfits (Nat.pos_of_ne_zero hcnt) hle
    rw [if_neg hcnt, hfits.frames]
    simp only [bind_eq_bind, bind_some, hmem]
    have hall := hds.trans (congrArg (· ++ frames u data) h.whole.symm)
    split
    · refine ⟨_, rfl, ⟨⟨?_, (by decide : 0 < 1024)⟩, ?_, ?_⟩⟩
      · rw [hall, flatten_append, hblock]
        simp [block]
      · split
        · exact .inr rfl
        · exact .inl rfl
      · rintro base hbase
        obtain rfl := some.inj hbase
        rcases h.base with hb | hb <;> simp only [hb] <;> simp
    · rename_i hmore
      refine ⟨_, rfl, ⟨⟨?_, Nat.lt_of_not_le hmore⟩, h.base, h.held⟩⟩
      rw [hall, hblock, append_assoc]

def ready : Env := ⟨true, true, fun _ => true⟩

def fullSpeed : Endpoint := ⟨192, 1, 192, 1, false, false, by decide⟩

end UsbAudio.Record

end Neptune
