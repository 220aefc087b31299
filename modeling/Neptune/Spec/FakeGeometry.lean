import Neptune.Lib.Word

/-! `nFakeGeometry`. A loop that goes on for ever, an index outside of `primes` or `count` and a division by zero have no
result. -/

namespace Neptune.FakeGeometry

/-- What is read and written of `struct DriveGeometry`. -/
structure DriveGeometry where
  totalSectors : ℕ
  cylinders : ℕ
  cylSectors : ℕ
  heads : ℕ
  trackSectors : ℕ
  bufMemType : ℕ
  deviceType : ℕ
  flags : ℕ
  reserved : ℕ
  deriving DecidableEq

def MEMF_PUBLIC : ℕ := 1
def DGF_REMOVABLE : ℕ := 1
def RETURN_WARN : ℕ := 5
def RETURN_ERROR : ℕ := 10

structure NepClassMS where
  /-- `PFF_FIX_CAPACITY` and `PFF_NO_FALLBACK` of `cdc_PatchFlags`. -/
  fixCapacity : Bool
  noFallback : Bool
  /-- `PFF_FIX_CAPACITY` of `ncm_FallbackAdvised`. -/
  advised : Bool
  deviceType : ℕ
  removable : Bool
  msgs : List (ℕ × String)
  deriving DecidableEq

def psdAddErrorMsg (rc : ℕ) (text : String) (ncm : NepClassMS) : NepClassMS := { ncm with msgs := ncm.msgs ++ [(rc, text)] }

/-- Of `PFF_FIX_CAPACITY`. What `nStoreConfig` keeps of the change is not modelled. -/
def nApplyFallback (enable : Bool) (rc : ℕ) (ncm : NepClassMS) : Bool × NepClassMS :=
  if ncm.fixCapacity = enable then (false, ncm)
  else if ncm.noFallback then
    if ncm.advised then (false, ncm)
    else (false, psdAddErrorMsg rc
      (if enable then "\"Fix Capacity\" is probably needed for this device. Please check this."
        else "\"Fix Capacity\" is probably enabled incorrectly for this device. Please check this.")
      { ncm with advised := true })
  else (true, psdAddErrorMsg rc
    (if enable then "Fallback: Enabling Fix Capacity." else "Fallback: Disabling Fix Capacity.")
    { ncm with fixCapacity := enable })

def PrimeTable : List ℕ :=
  [5, 7, 11, 13, 17, 19, 23, 29, 31, 37, 41, 43, 47, 53, 59, 61, 67, 71, 73, 79, 83, 89, 97, 101, 103, 107, 109,
    113, 127, 131, 137, 139, 149, 151, 157, 163, 167, 173, 179, 181, 191, 193, 197, 199, 211, 223, 227, 229, 233,
    239, 241, 251, 257, 263, 269, 271, 277, 281, 283, 293, 307, 311, 313, 317, 331, 337, 347, 349, 353, 359, 367,
    373, 379, 383, 389, 397, 401, 409, 419, 421, 431, 433, 439, 443, 449, 457, 461, 463, 467, 479, 487, 491, 499,
    503, 509, 521, 523, 541, 547, 557, 563, 569, 571, 577, 587, 593, 599, 601, 607, 613, 617, 619, 631, 641, 643,
    647, 653, 659, 661, 673, 677, 683, 691, 701, 709, 719, 727, 733, 739, 743, 751, 757, 761, 769, 773, 787, 797,
    809, 811, 821, 823, 827, 829, 839, 853, 857, 859, 863, 877, 881, 883, 887, 907, 911, 919, 929, 937, 941, 947,
    953, 967, 971, 977, 983, 991, 997, 1009, 1013, 1019, 1021, 1031, 1033, 1039, 1049, 1051, 1061, 1063, 1069, 1087,
    1091, 1093, 1097, 1103, 1109, 1117, 1123, 1129, 1151, 1153, 1163, 1171, 1181, 1187, 1193, 1201, 1213, 1217,
    1223, 1229, 1231, 1237, 1249, 1259, 1277, 1279, 1283, 1289, 1291, 1297, 1301, 1303, 1307, 1319, 1321, 1327,
    1361, 1367, 1373, 1381, 1399, 1409, 1423, 1427, 1429, 1433, 1439, 1447, 1451, 1453, 1459, 1471, 1481, 1483,
    1487, 1489, 1493, 1499, 1511, 1523, 1531, 1543, 1549, 1553, 1559, 1567, 1571, 1579, 1583, 1597, 1601, 1607,
    1609, 1613, 1619, 1621, 1627, 1637, 1657, 1663, 1667, 1669, 1693, 1697, 1699, 1709, 1721, 1723, 1733, 1741,
    1747, 1753, 1759, 1777, 1783, 1787, 1789, 1801, 1811, 1823, 1831, 1847, 1861, 1867, 1871, 1873, 1877, 1879,
    1889, 1901, 1907, 1913, 1931, 1933, 1949, 1951, 1973, 1979, 1987, 1993, 1997, 1999]

def rd (array : ℕ → ℕ) (i : ℕ) : Option ℕ := if i < 32 then some (array i) else none

def wr (array : ℕ → ℕ) (i v : ℕ) : Option (ℕ → ℕ) := if i < 32 then some (Function.update array i v) else none

structure Factors where
  primes : ℕ → ℕ
  count : ℕ → ℕ
  curpos : ℕ

/-- The twos, which are counted in `count[0]`. -/
def halve : ℕ → (ℕ → ℕ) → ℕ → Option ((ℕ → ℕ) × ℕ)
  | 0, _, _ => none
  | fuel + 1, count, remblks =>
    if remblks % 2 = 0 then halve fuel (Function.update count 0 (uword (count 0 + 1))) (remblks / 2)
    else some (count, remblks)

structure Search where
  primes : ℕ → ℕ
  count : ℕ → ℕ
  curpos : ℕ
  remblks : ℕ
  curprime : ℕ
  curprimesq : ℕ
  primetblptr : List ℕ

def nextPrime (curprime : ℕ) : List ℕ → ℕ × List ℕ
  | prime :: primetblptr => (prime, primetblptr)
  | [] => (uword (curprime + 2), [])

/-- Once through the loop, and whether it has been left with `break`. -/
def searchStep (s : Search) : Option (Search × Bool) :=
  if s.remblks % s.curprime ≠ 0 then
    if s.curprimesq ≤ s.remblks then some (s, true)
    else do
      let n ← rd s.count s.curpos
      -- the prime has been there at least once
      let count ← if n ≠ 0 then wr s.count (s.curpos + 1) 0 else some s.count
      let curpos := if n ≠ 0 then s.curpos + 1 else s.curpos
      if n ≠ 0 ∧ curpos = 31 then some ({ s with count := count, curpos := curpos }, true)
      else do
        let (curprime, primetblptr) := nextPrime s.curprime s.primetblptr
        let primes ← wr s.primes curpos curprime
        some ({ s with primes, count, curpos, curprime, curprimesq := ulong (curprime * curprime), primetblptr }, false)
  else do
    let n ← rd s.count s.curpos
    let count ← wr s.count s.curpos (uword (n + 1))
    some ({ s with count, remblks := s.remblks / s.curprime }, false)

def search : ℕ → Search → Option Search
  | 0, _ => none
  | fuel + 1, s => do
    let (s, broken) ← searchStep s
    if !broken ∧ 1 < s.remblks ∧ s.curprime ≤ s.remblks then search fuel s else some s

def factorise (fuel : ℕ) (f : Factors) (remblks : ℕ) : Option Factors := do
  let primes ← wr f.primes 0 2
  let count ← wr f.count 0 0
  let (count, remblks) ← halve fuel count remblks
  let curpos := if count 0 ≠ 0 then 1 else 0
  let primes ← wr primes curpos 3
  let count ← wr count curpos 0
  let s ← search fuel
    { primes, count, curpos, remblks, curprime := 3, curprimesq := 9, primetblptr := PrimeTable }
  let n ← rd s.count s.curpos
  let curpos := if n ≠ 0 then s.curpos + 1 else s.curpos
  if 1 < s.remblks ∧ curpos ≠ 0 then do
    let count ← wr s.count curpos 1
    let primes ← wr s.primes curpos s.remblks
    some ⟨primes, count, curpos + 1⟩
  else some ⟨s.primes, s.count, curpos⟩

/-- The attempts, until there are factors or the clearing of Fix Capacity has been refused (no factors). -/
def attempts : ℕ → Factors → NepClassMS → DriveGeometry → Option (NepClassMS × DriveGeometry × Option Factors)
  | 0, _, _, _ => none
  | fuel + 1, f, ncm, tddg => do
    let f ← factorise fuel f tddg.totalSectors
    if f.curpos ≠ 0 then some (ncm, tddg, some f)
    else
      let ncm := psdAddErrorMsg RETURN_WARN "FakeGeometry: Total number of blocks is a prime number!" ncm
      if ncm.fixCapacity then
        let (changed, ncm) := nApplyFallback false RETURN_ERROR ncm
        if !changed then some (ncm, tddg, none)
        else attempts fuel f ncm { tddg with totalSectors := ulong (tddg.totalSectors + 1) }
      else
        let (_, ncm) := nApplyFallback true RETURN_WARN ncm
        attempts fuel f ncm { tddg with totalSectors := ulongSub tddg.totalSectors 1 }

/-- The first factor that there still is, from `cnt` on. -/
def firstFactor (f : Factors) : ℕ → ℕ → Option ℕ
  | 0, _ => none
  | fuel + 1, cnt => do
    let n ← rd f.count cnt
    if n ≠ 0 then some cnt else firstFactor f fuel (if f.curpos ≤ cnt + 1 then 0 else cnt + 1)

structure Deal where
  trackSectors : ℕ
  heads : ℕ
  remfact : ℕ
  deriving DecidableEq

def quot (a b : ℕ) : Option ℕ := if b ≠ 0 then some (a / b) else none

def dealFactor (curpos tries factor : ℕ) (d : Deal) : Option (Deal × Bool) :=
  if ulong (d.trackSectors * factor) < 256 ∧ ulong (d.trackSectors * factor) < d.remfact then do
    let remfact ← quot d.remfact factor
    some ({ d with trackSectors := ulong (d.trackSectors * factor), remfact }, true)
  else if ulong (d.heads * factor) ≤ 16 ∧ ulong (d.heads * d.heads * factor * factor) < d.trackSectors then do
    let remfact ← quot d.remfact factor
    some ({ d with heads := ulong (d.heads * factor), remfact }, true)
  else some (d, decide (64 ≤ ulong (d.heads * d.trackSectors) ∨ curpos < tries))

def deal : ℕ → Factors → (totfactors tries : ℕ) → Deal → Option Deal
  | 0, _, _, _, _ => none
  | fuel + 1, f, totfactors, tries, d =>
    if totfactors = 0 then some d
    else do
      let cnt ← firstFactor f fuel 0
      -- `factor` is a `UWORD`
      let factor := uword (← rd f.primes cnt)
      let (d, taken) ← dealFactor f.curpos tries factor d
      if taken then do
        let n ← rd f.count cnt
        let count ← wr f.count cnt (n - 1)
        deal fuel { f with count } (totfactors - 1) 0 d
      else deal fuel f totfactors (uword (tries + 1)) d

def sumFactors (f : Factors) : Option ℕ :=
  (List.range f.curpos).foldlM (fun totfactors cnt => do
    let n ← rd f.count cnt
    some (uword (totfactors + n))) 0

/-- `early` is whether it has returned because the clearing of Fix Capacity was refused. -/
structure Faked where
  ncm : NepClassMS
  tddg : DriveGeometry
  early : Bool

/-- `stack` is what the arrays hold before. -/
def nFakeGeometry (fuel : ℕ) (stack : Factors) (ncm : NepClassMS) (tddg : DriveGeometry) : Option Faked :=
  if tddg.totalSectors = 0 then some ⟨ncm, tddg, false⟩
  else do
    let tddg := { tddg with
      deviceType := ncm.deviceType
      flags := if ncm.removable then DGF_REMOVABLE else 0
      bufMemType := MEMF_PUBLIC
      reserved := 0 }
    let (ncm, tddg, factors) ← attempts fuel stack ncm tddg
    match factors with
    | none => some ⟨ncm, tddg, true⟩
    | some f =>
      let totfactors ← sumFactors f
      let d ← deal fuel f totfactors 0 ⟨1, 1, tddg.totalSectors⟩
      some ⟨ncm, { tddg with
        trackSectors := d.trackSectors
        heads := d.heads
        cylinders := d.remfact
        cylSectors := ulong (d.trackSectors * d.heads) }, false⟩

/-- The geometry that has been made of `tddg`. -/
def Exact (tddg tddg' : DriveGeometry) : Prop :=
  tddg'.cylinders * tddg'.heads * tddg'.trackSectors = tddg'.totalSectors ∧
  tddg'.cylSectors = tddg'.heads * tddg'.trackSectors ∧
  tddg'.totalSectors ≤ tddg.totalSectors + 1 ∧ tddg.totalSectors ≤ tddg'.totalSectors + 1

/-- The call ends, and unless it returns early its geometry is exact. -/
def Invents (stack : Factors) (ncm : NepClassMS) (tddg : DriveGeometry) : Prop :=
  ∃ enough, ∀ fuel ≥ enough, ∃ faked, nFakeGeometry fuel stack ncm tddg = some faked ∧
    (faked.early = true ∨ Exact tddg faked.tddg)

def Stubborn (n : ℕ) : Prop := n % 2 ≠ 0 ∧ n % 3 ≠ 0 ∧ n ≠ 5 ∧ n ≠ 7

instance : DecidablePred Stubborn := fun _ => inferInstanceAs (Decidable (_ ∧ _))

def factored (fixCapacity : Bool) (n : ℕ) : ℕ :=
  if Stubborn n then if fixCapacity then n + 1 else n - 1 else n

/-- Whether a last factor `r` goes to the tracks or the heads behind twos and threes that make `s`. -/
def Fits (s r : ℕ) : Prop :=
  s * r < 256 ∨ s < 256 ∧ r * r < s ∨ r = 3 ∧ 256 ≤ s ∧ s < 768 ∧ s ≠ 512 ∨ r = 5 ∧ (s = 256 ∨ s = 729)

/-- What is left of `n` without its twos and threes goes into a `UWORD`, or what of it does divides it or fits nowhere. -/
def Dealable (n : ℕ) : Prop := ∀ a b q, n = 2 ^ a * 3 ^ b * q → q % 2 ≠ 0 → q % 3 ≠ 0 →
  q < 2 ^ 16 ∨ q % 2 ^ 16 ∣ q ∨ ¬Fits (2 ^ a * 3 ^ b) (q % 2 ^ 16)

/-- The number is neither taken down to 0 nor has a bad factor; or the call returns early. -/
def Sound (ncm : NepClassMS) (n : ℕ) : Prop :=
  Stubborn n ∧ ncm.fixCapacity = true ∧ ncm.noFallback = true ∨
  factored ncm.fixCapacity n ≠ 0 ∧ Dealable (factored ncm.fixCapacity n)

end Neptune.FakeGeometry
