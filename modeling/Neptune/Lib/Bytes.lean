import Mathlib

/-! Bytes: numbers with the highest byte first, and runs of bytes copied from one place to
another. -/

namespace Bytes

def toBE : ℕ → ℕ → List UInt8
  | 0, _ => []
  | k + 1, n => UInt8.ofNat (n / 256 ^ k) :: toBE k n

def ofBE (bs : List UInt8) : ℕ := bs.foldl (fun n b => n * 256 + b.toNat) 0

@[simp] theorem length_toBE (k n : ℕ) : (toBE k n).length = k := by
  induction k with
  | zero => rfl
  | succ k ih => simp [toBE, ih]

theorem foldl_toBE (k n a : ℕ) :
    (toBE k n).foldl (fun n b => n * 256 + b.toNat) a = a * 256 ^ k + n % 256 ^ k := by
  induction k generalizing a with
  | zero => simp [toBE, Nat.mod_one]
  | succ k ih =>
    have hb : (UInt8.ofNat (n / 256 ^ k)).toNat = n / 256 ^ k % 256 := UInt8.toNat_ofNat'
    simp only [toBE, List.foldl_cons, hb]
    rw [ih, Nat.mod_pow_succ]
    ring

theorem ofBE_toBE (k n : ℕ) : ofBE (toBE k n) = n % 256 ^ k := by
  unfold ofBE
  rw [foldl_toBE]
  omega

theorem ofBE_append (as bs : List UInt8) : ofBE (as ++ bs) = ofBE as * 256 ^ bs.length + ofBE bs := by
  have hbs : ∀ a, bs.foldl (fun n b => n * 256 + b.toNat) a = a * 256 ^ bs.length + ofBE bs := by
    unfold ofBE
    induction bs with
    | nil => simp
    | cons b bs ih =>
      intro a
      simp only [List.foldl_cons, List.length_cons]
      rw [ih, ih (0 * 256 + b.toNat)]
      ring
  unfold ofBE
  rw [List.foldl_append]
  exact hbs _

variable {α : Type*} {src dst mid : ℕ → α} {s d n m i N : ℕ}

/-- `n` bytes from `s` on go to `d`. -/
def copy (src : ℕ → α) (s : ℕ) (dst : ℕ → α) (d n : ℕ) : ℕ → α := fun i =>
  if d ≤ i ∧ i < d + n then src (s + (i - d)) else dst i

theorem copy_zero : copy src s dst d 0 = dst := by
  funext j
  exact if_neg (by omega)

theorem copy_in (h : i < n) : copy src s dst d n (d + i) = src (s + i) := by
  unfold copy
  rw [if_pos ⟨by omega, by omega⟩]
  congr 1
  omega

theorem copy_out (h : i < d ∨ d + n ≤ i) : copy src s dst d n i = dst i :=
  if_neg (by omega)

theorem copy_append : copy src (s + n) (copy src s dst d n) (d + n) m = copy src s dst d (n + m) := by
  funext j
  unfold copy
  by_cases h₁ : d + n ≤ j ∧ j < d + n + m
  · rw [if_pos h₁, if_pos ⟨by omega, by omega⟩]
    congr 1
    omega
  · rw [if_neg h₁]
    by_cases h₂ : d ≤ j ∧ j < d + n
    · rw [if_pos h₂, if_pos ⟨by omega, by omega⟩]
    · rw [if_neg h₂, if_neg (by omega)]

theorem copy_through (h : i + n ≤ N) :
    copy (copy src s mid 0 N) i dst d n = copy src (s + i) dst d n := by
  funext j
  unfold copy
  by_cases hj : d ≤ j ∧ j < d + n
  · rw [if_pos hj, if_pos hj, if_pos ⟨by omega, by omega⟩]
    congr 1
    omega
  · rw [if_neg hj, if_neg hj]

theorem copy_patch (h : i + n ≤ N) :
    copy (copy src s (copy dst d mid 0 N) i n) 0 dst d N = copy src s dst (d + i) n := by
  funext j
  unfold copy
  by_cases hj : d + i ≤ j ∧ j < d + i + n
  · rw [if_pos hj, if_pos ⟨by omega, by omega⟩, if_pos ⟨by omega, by omega⟩]
    congr 1
    omega
  · rw [if_neg hj]
    by_cases hN : d ≤ j ∧ j < d + N
    · rw [if_pos hN, if_neg (by omega), if_pos ⟨by omega, by omega⟩]
      congr 1
      omega
    · rw [if_neg hN]

end Bytes

namespace Fields

variable {bs f g : List UInt8} {i j k n : ℕ}

/-- The lowest `k` bytes of a number, lowest first. -/
def bytes (k n : ℕ) : List UInt8 := (Bytes.toBE k n).reverse

def value (f : List UInt8) : ℕ := Bytes.ofBE f.reverse

def get (bs : List UInt8) (i k : ℕ) : List UInt8 := (bs.drop i).take k

def put (bs : List UInt8) (i : ℕ) (f : List UInt8) : List UInt8 := bs.take i ++ f ++ bs.drop (i + f.length)

@[simp] theorem length_bytes (k n : ℕ) : (bytes k n).length = k := by
  unfold bytes
  rw [List.length_reverse, Bytes.length_toBE]

theorem value_bytes (k n : ℕ) : value (bytes k n) = n % 256 ^ k := by
  unfold value bytes
  rw [List.reverse_reverse, Bytes.ofBE_toBE]

theorem value_bytes_of_lt (h : n < 256 ^ k) : value (bytes k n) = n := (value_bytes k n).trans (Nat.mod_eq_of_lt h)

theorem length_put (h : i + f.length ≤ bs.length) : (put bs i f).length = bs.length := by
  unfold put
  simp only [List.length_append, List.length_take, List.length_drop]
  omega

theorem get_put (h : i + f.length ≤ bs.length) : get (put bs i f) i f.length = f := by
  have hi : (bs.take i).length = i := List.length_take_of_le (by omega)
  unfold get put
  rw [List.append_assoc, List.drop_append_of_le_length (by omega), List.drop_of_length_le (by omega), List.nil_append,
    List.take_left]

theorem get_put_of_disjoint (h : i + f.length ≤ bs.length) (hd : j + k ≤ i ∨ i + f.length ≤ j) :
    get (put bs i f) j k = get bs j k := by
  have hi : (bs.take i).length = i := List.length_take_of_le (by omega)
  unfold get put
  rcases hd with hd | hd
  · rw [List.append_assoc, List.drop_append_of_le_length (by omega), List.take_append_of_le_length
      (by rw [List.length_drop]; omega), List.drop_take, List.take_take, Nat.min_eq_left (by omega)]
  · rw [List.drop_append, List.drop_of_length_le (by rw [List.length_append]; omega), List.nil_append, List.drop_drop]
    congr 2
    rw [List.length_append]
    omega

theorem get_append_left (h : i + k ≤ bs.length) : get (bs ++ g) i k = get bs i k := by
  unfold get
  rw [List.drop_append_of_le_length (by omega), List.take_append_of_le_length (by rw [List.length_drop]; omega)]

theorem get_take (h : i + k ≤ n) : get (bs.take n) i k = get bs i k := by
  unfold get
  rw [List.drop_take, List.take_take, Nat.min_eq_left (by omega)]

theorem get_append (l f r : List UInt8) : get (l ++ (f ++ r)) l.length f.length = f := by
  unfold get
  rw [List.drop_left, List.take_left]

theorem put_append (l r f : List UInt8) : put (l ++ r) l.length f = l ++ (f ++ r.drop f.length) := by
  unfold put
  rw [List.take_left, List.drop_append, List.drop_of_length_le (Nat.le_add_right ..), List.nil_append, Nat.add_sub_cancel_left,
    List.append_assoc]

def putAll (bs : List UInt8) (ws : List (ℕ × List UInt8)) : List UInt8 := ws.foldl (fun bs w => put bs w.1 w.2) bs

variable {ws : List (ℕ × List UInt8)}

section

variable (h : ∀ w ∈ ws, w.1 + w.2.length ≤ bs.length)
include h

theorem length_putAll : (putAll bs ws).length = bs.length := by
  induction ws generalizing bs with
  | nil => rfl
  | cons w ws ih =>
    have hput := length_put (h w List.mem_cons_self)
    have hrest := ih fun v hv => hput ▸ h v (List.mem_cons_of_mem w hv)
    exact hrest.trans hput

theorem get_putAll_of_disjoint
    (hd : ∀ w ∈ ws, j + k ≤ w.1 ∨ w.1 + w.2.length ≤ j) : get (putAll bs ws) j k = get bs j k := by
  induction ws generalizing bs with
  | nil => rfl
  | cons w ws ih =>
    have hw := h w List.mem_cons_self
    have hrest := ih (fun v hv => length_put hw ▸ h v (List.mem_cons_of_mem w hv))
      fun v hv => hd v (List.mem_cons_of_mem w hv)
    exact hrest.trans (get_put_of_disjoint hw (hd w List.mem_cons_self))

theorem get_putAll (hd : ws.Pairwise fun w v => w.1 + w.2.length ≤ v.1) (hw : (i, f) ∈ ws) :
    get (putAll bs ws) i f.length = f := by
  induction ws generalizing bs with
  | nil => exact absurd hw List.not_mem_nil
  | cons w ws ih =>
    have hfit := h w List.mem_cons_self
    have hrest : ∀ v ∈ ws, v.1 + v.2.length ≤ (put bs w.1 w.2).length := fun v hv =>
      length_put hfit ▸ h v (List.mem_cons_of_mem w hv)
    obtain ⟨hfirst, hd⟩ := List.pairwise_cons.mp hd
    rcases List.mem_cons.mp hw with rfl | hw
    · exact (get_putAll_of_disjoint hrest fun v hv => .inl (hfirst v hv)).trans (get_put hfit)
    · exact ih hrest hd hw

end

end Fields
