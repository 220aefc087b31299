import Mathlib

/-! Arithmetic of machine words. -/

namespace Neptune

def uword (n : ℕ) : ℕ := n % 2 ^ 16

def usub (n m : ℕ) : ℕ := uword (2 ^ 16 - m + n)

theorem uword_of_lt {n : ℕ} (h : n < 2 ^ 16) : uword n = n := Nat.mod_eq_of_lt h

theorem uword_lt (n : ℕ) : uword n < 2 ^ 16 := Nat.mod_lt _ (by norm_num)

theorem usub_of_le {n m : ℕ} (h : m ≤ n) (hn : n < 2 ^ 16) : usub n m = n - m := by
  unfold usub uword; omega

theorem usub_lt (n m : ℕ) : usub n m < 2 ^ 16 := uword_lt _

def ulong (n : ℕ) : ℕ := n % 2 ^ 32

def ulongSub (n m : ℕ) : ℕ := (2 ^ 32 - m + n) % 2 ^ 32

theorem ulongSub_of_le {n m : ℕ} (h : m ≤ n) (hn : n < 2 ^ 32) : ulongSub n m = n - m := by
  unfold ulongSub; omega

end Neptune
