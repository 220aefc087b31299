import Neptune.Spec.HidItem

/-! Array strings mean what they say as long as there is no negative number, and nothing behind a
string. -/

namespace Neptune.Hid

open List Option

open ArrayParser

variable {s t : ArrayParser} {b : List LONG} {v a k i : ℕ} {g : Bool} {mode : ArrayMode} {ch c : UInt8}
  {str rest : List UInt8} {x : LONG} {xs ys : List LONG} {f : LONG → LONG}

/-- A hexadecimal digit, and whether it is a capital letter if it is one. -/
structure HexDigit where
  value : Fin 16
  upper : Bool
  deriving DecidableEq, Repr

def HexDigit.char (d : HexDigit) : UInt8 :=
  if d.value < 10 then 0x30 + UInt8.ofNat d.value
  else (if d.upper then 0x41 else 0x61) + UInt8.ofNat (d.value - 10)

def decimalChar (d : Fin 10) : UInt8 := 0x30 + UInt8.ofNat d

inductive Element
  | decimal (d : Fin 10) (ds : List (Fin 10))
  | negative (d : Fin 10) (ds : List (Fin 10))
  | hex (ds : List HexDigit)
  | ascii (c : {c : UInt8 // c ≠ 0})
  | string (cs : List {c : UInt8 // c ≠ 0 ∧ c ≠ 0x22})
  deriving DecidableEq

namespace Element

def text : Element → List UInt8
  | decimal d ds => (d :: ds).map decimalChar
  | negative d ds => 0x2d :: (d :: ds).map decimalChar
  | hex ds => 0x30 :: 0x78 :: ds.map HexDigit.char
  | ascii c => [0x27, c.1, 0x27]
  | string cs => 0x22 :: (cs.map (·.1) ++ [0x22])

def number (base : ℕ) (ds : List ℕ) : ℕ := Nat.ofDigits base ds.reverse

def values : Element → List LONG
  | decimal d ds => [BitVec.ofNat 32 (number 10 ((d :: ds).map (·.1)))]
  | negative d ds => [-BitVec.ofNat 32 (number 10 ((d :: ds).map (·.1)))]
  | hex ds => [BitVec.ofNat 32 (number 16 (ds.map (·.value.1)))]
  | ascii c => [character c.1]
  | string cs => cs.map fun c => character c.1

def isHex : Element → Bool
  | hex _ => true
  | _ => false

def isNegative : Element → Bool
  | negative _ _ => true
  | _ => false

def width : Element → ℕ
  | string cs => cs.length
  | _ => 0

end Element

/-- An element with the blanks around it; there are none behind a hexadecimal number. -/
structure Written where
  before : ℕ
  element : Element
  after : ℕ
  tight : element.isHex = true → after = 0

namespace Written

def blanks (k : ℕ) : List UInt8 := List.replicate k 0x20

def text : List Written → List UInt8
  | [] => []
  | [w] => blanks w.before ++ w.element.text ++ blanks w.after
  | w :: ws => blanks w.before ++ w.element.text ++ blanks w.after ++ 0x2c :: text ws

end Written

def valuesOf (es : List Element) : List LONG := es.flatMap Element.values

def put (b : List LONG) (v : ℕ) : List LONG → List LONG
  | [] => b
  | x :: xs => put (b.set v x) (v + 1) xs

theorem put_cons (b : List LONG) (v : ℕ) (x : LONG) (xs : List LONG) :
    put b v (x :: xs) = put (b.set v x) (v + 1) xs := rfl

theorem length_put (b : List LONG) (v : ℕ) (xs : List LONG) : (put b v xs).length = b.length := by
  induction xs generalizing b v with
  | nil => rfl
  | cons x xs ih => rw [put_cons, ih, length_set]

theorem getElem?_put (b : List LONG) (h : i < v ∨ v + xs.length ≤ i) : (put b v xs)[i]? = b[i]? := by
  induction xs generalizing b v with
  | nil => rfl
  | cons x xs ih =>
    rw [length_cons] at h
    rw [put_cons, ih _ (by omega), getElem?_set_ne (by omega)]

theorem put_eq (h : v + xs.length ≤ b.length) : put b v xs = b.take v ++ xs ++ b.drop (v + xs.length) := by
  induction xs generalizing b v with
  | nil => exact (by simp : b = b.take v ++ [] ++ b.drop (v + 0))
  | cons x xs ih =>
    rw [length_cons] at h
    rw [put_cons, ih (by rw [length_set]; omega), take_set, drop_set_of_lt (by omega), length_cons,
      show v + 1 + xs.length = v + (xs.length + 1) by omega]
    congr 1
    rw [take_succ_eq_append_getElem (by omega), set_append_right _ _ (by simp)]
    simp [Nat.min_eq_left (by omega : v ≤ b.length)]

theorem parse_cons (ch : UInt8) (str : List UInt8) (s : ArrayParser) : parse (ch :: str) s =
    if s.acount = 0 then some (s.buffer, [.excess])
    else
      match s.round ch str with
      | none => none
      | some (.syntaxError s mode) => some (s.buffer, [.syntaxError mode])
      | some (.next s) => parse str s
      | some (.skip s) =>
        match str with
        | [] => some s.finish
        | _ :: str => parse str s :=
  parse.eq_def ..

theorem parse_full (ha : s.acount = 0) (hmode : s.mode ≠ .ascii) (str : List UInt8) :
    parse str s = some (s.buffer, [.excess]) := by
  cases str with
  | nil =>
    unfold parse finish
    rw [if_neg hmode, if_pos ha]
  | cons ch str => rw [parse_cons, if_pos ha]

theorem parse_next (ha : s.acount ≠ 0) (h : s.round ch str = some (.next t)) :
    parse (ch :: str) s = parse str t := by
  rw [parse_cons, if_neg ha, h]

theorem parse_skip (ha : s.acount ≠ 0) (h : s.round ch (c :: str) = some (.skip t)) :
    parse (ch :: c :: str) s = parse str t := by
  rw [parse_cons, if_neg ha, h]

theorem parse_error (ha : s.acount ≠ 0) (h : s.round ch str = some (.syntaxError t mode)) :
    parse (ch :: str) s = some (t.buffer, [.syntaxError mode]) := by
  rw [parse_cons, if_neg ha, h]

theorem store_eq (h : s.valptr < s.buffer.length) :
    s.store f = some { s with buffer := s.buffer.modify s.valptr f } := if_pos h

theorem modify_const (b : List LONG) (v : ℕ) (x : LONG) : b.modify v (fun _ => x) = b.set v x := by
  apply ext_getElem?
  intro i
  rw [getElem?_modify, getElem?_set]
  by_cases hi : v = i
  · subst hi
    by_cases hlt : v < b.length
    · simp [hlt]
    · simp [hlt]
  · simp [hi]

theorem modify_set (b : List LONG) (v : ℕ) (x : LONG) (f : LONG → LONG) :
    (b.set v x).modify v f = b.set v (f x) := by
  apply ext_getElem?
  intro i
  rw [getElem?_modify, getElem?_set, getElem?_set]
  by_cases hi : v = i
  · subst hi
    by_cases hlt : v < b.length
    · simp [hlt]
    · simp [hlt]
  · simp [hi]

theorem decimalChar_spec : ∀ d : Fin 10, isDigit (decimalChar d) = true ∧
    digit (decimalChar d) 0x30 = BitVec.ofNat 32 d ∧ (decimalChar d = 0x30 ↔ d = 0) := by
  decide

theorem hexChar_spec : ∀ value : Fin 16, ∀ upper : Bool,
    let ch := HexDigit.char ⟨value, upper⟩
    isDigit ch = true ∧ digit ch 0x30 = BitVec.ofNat 32 value ∨
      isDigit ch = false ∧ (0x61 ≤ ch ∧ ch ≤ 0x66) ∧ digit ch 0x61 + 10 = BitVec.ofNat 32 value ∨
      isDigit ch = false ∧ ¬ (0x61 ≤ ch ∧ ch ≤ 0x66) ∧ (0x41 ≤ ch ∧ ch ≤ 0x46) ∧
        digit ch 0x41 + 10 = BitVec.ofNat 32 value := by
  decide

theorem number_append (base : ℕ) (ds : List ℕ) (d : ℕ) :
    Element.number base (ds ++ [d]) = Element.number base ds * base + d := by
  unfold Element.number
  rw [reverse_append, reverse_singleton, singleton_append, Nat.ofDigits_cons]
  ring

theorem parse_digits (ds : List (Fin 10)) (ns : List ℕ) (ha : a ≠ 0) (hv : v < b.length) (rest : List UInt8) :
    parse (ds.map decimalChar ++ rest)
        ⟨b.set v (BitVec.ofNat 32 (Element.number 10 ns)), v, a, .decimal, false⟩ =
      parse rest ⟨b.set v (BitVec.ofNat 32 (Element.number 10 (ns ++ ds.map (·.1)))), v, a, .decimal, false⟩ := by
  induction ds generalizing ns with
  | nil => rw [map_nil, map_nil, append_nil, nil_append]
  | cons d ds ih =>
    obtain ⟨hdigit, hvalue, -⟩ := decimalChar_spec d
    have hround : (⟨b.set v (BitVec.ofNat 32 (Element.number 10 ns)), v, a, .decimal, false⟩ : ArrayParser).round
        (decimalChar d) (ds.map decimalChar ++ rest) =
        some (.next ⟨b.set v (BitVec.ofNat 32 (Element.number 10 (ns ++ [d.1]))), v, a, .decimal, false⟩) := by
      simp only [ArrayParser.round, inDecimal, hdigit, if_true]
      rw [store_eq (by simpa using hv), modify_set, number_append]
      simp [hvalue, BitVec.ofNat_add, BitVec.ofNat_mul]
    rw [map_cons, cons_append, parse_next ha hround, ih, append_assoc]
    rfl

theorem parse_hexDigits (ds : List HexDigit) (ns : List ℕ) (ha : a ≠ 0) (hv : v < b.length) (rest : List UInt8) :
    parse (ds.map HexDigit.char ++ rest)
        ⟨b.set v (BitVec.ofNat 32 (Element.number 16 ns)), v, a, .hex, g⟩ =
      parse rest ⟨b.set v (BitVec.ofNat 32 (Element.number 16 (ns ++ ds.map (·.value.1)))), v, a, .hex, g⟩ := by
  induction ds generalizing ns with
  | nil => rw [map_nil, map_nil, append_nil, nil_append]
  | cons d ds ih =>
    have hshift : ∀ y : LONG, y = BitVec.ofNat 32 d.value →
        (BitVec.ofNat 32 (Element.number 16 ns) <<< 4) + y =
          BitVec.ofNat 32 (Element.number 16 (ns ++ [d.value.1])) := by
      rintro y rfl
      rw [number_append, BitVec.ofNat_add, BitVec.ofNat_mul, BitVec.shiftLeft_eq_mul_twoPow]
      rfl
    have hround : (⟨b.set v (BitVec.ofNat 32 (Element.number 16 ns)), v, a, .hex, g⟩ : ArrayParser).round
        d.char (ds.map HexDigit.char ++ rest) =
        some (.next ⟨b.set v (BitVec.ofNat 32 (Element.number 16 (ns ++ [d.value.1]))), v, a, .hex, g⟩) := by
      have hv' : v < (b.set v (BitVec.ofNat 32 (Element.number 16 ns))).length := by simpa using hv
      rcases hexChar_spec d.value d.upper with ⟨hdigit, hvalue⟩ | ⟨hdigit, hlow, hvalue⟩ | ⟨hdigit, hlow, hhigh, hvalue⟩
      · simp only [ArrayParser.round, inHex, hdigit, if_true]
        rw [store_eq hv', modify_set, hshift _ hvalue]
        rfl
      · simp only [ArrayParser.round, inHex, hdigit, if_neg Bool.false_ne_true, if_pos hlow]
        rw [store_eq hv', modify_set, BitVec.add_assoc, hshift _ hvalue]
        rfl
      · simp only [ArrayParser.round, inHex, hdigit, if_neg Bool.false_ne_true, if_neg hlow, if_pos hhigh]
        rw [store_eq hv', modify_set, BitVec.add_assoc, hshift _ hvalue]
        rfl
    rw [map_cons, cons_append, parse_next ha hround, ih, append_assoc]
    rfl

theorem parse_characters (cs : List {c : UInt8 // c ≠ 0 ∧ c ≠ 0x22}) (hroom : v + a ≤ b.length)
    (rest : List UInt8) : parse (cs.map (·.1) ++ rest) ⟨b, v, a, .string, g⟩ =
      if a < cs.length then some (put b v ((cs.map fun c => character c.1).take a), [.excess])
      else parse rest ⟨put b v (cs.map fun c => character c.1), v + cs.length, a - cs.length, .string, g⟩ := by
  induction cs generalizing b v a with
  | nil => rfl
  | cons c cs ih =>
    by_cases ha : a = 0
    · rw [if_pos (by rw [ha]; exact Nat.succ_pos _), ha]
      exact parse_full rfl (by simp) _
    have hround : (⟨b, v, a, .string, g⟩ : ArrayParser).round c.1 (cs.map (·.1) ++ rest) =
        some (.next ⟨b.set v (character c.1), v + 1, a - 1, .string, g⟩) := by
      simp only [ArrayParser.round, inString, if_neg c.2.2]
      rw [store_eq (by change v < b.length; omega), modify_const]
      rfl
    rw [map_cons, cons_append, parse_next ha hround, ih (by rw [length_set]; omega), map_cons,
      length_cons]
    obtain ⟨n, rfl⟩ := Nat.exists_eq_succ_of_ne_zero ha
    by_cases hlt : n < cs.length
    · rw [if_pos (by omega), if_pos (by omega)]
      rfl
    · rw [if_neg (by omega), if_neg (by omega), show n + 1 - 1 - cs.length = n + 1 - (cs.length + 1) by omega,
        show v + 1 + cs.length = v + (cs.length + 1) by omega]
      rfl

theorem parse_blanks (k : ℕ) (ha : a ≠ 0) (rest : List UInt8) :
    parse (Written.blanks k ++ rest) ⟨b, v, a, .start, g⟩ = parse rest ⟨b, v, a, .start, g⟩ := by
  induction k with
  | zero => rfl
  | succ k ih => exact (parse_next ha rfl).trans ih

def Ended (mode : ArrayMode) : Prop := mode = .decimal ∨ mode = .hex ∨ mode = .termination

variable {e : Element} {es : List Element}

theorem parse_single (ha : a ≠ 0) (hv : v < b.length) (hneg : e.isNegative = false)
    (hx : e.values = [x]) (hstring : ∀ cs, e ≠ .string cs) (hrest : rest.head? ≠ some 0x78) :
    ∃ mode g', Ended mode ∧ (mode = .hex → e.isHex = true) ∧
      parse (e.text ++ rest) ⟨b, v, a, .start, g⟩ = parse rest ⟨b.set v x, v, a, mode, g'⟩ := by
  cases e with
  | decimal d ds =>
    obtain rfl := (cons.inj hx).1
    refine ⟨.decimal, false, .inl rfl, nofun, ?_⟩
    obtain ⟨hdigit, hvalue, hzero⟩ := decimalChar_spec d
    have hnext : (ds.map decimalChar ++ rest).head? ≠ some 0x78 := by
      cases ds with
      | nil => exact hrest
      | cons d' ds =>
        have hnotx : ∀ d : Fin 10, decimalChar d ≠ 0x78 := by decide
        exact fun h => hnotx d' (some.inj h)
    have hround : (⟨b, v, a, .start, g⟩ : ArrayParser).round (decimalChar d) (ds.map decimalChar ++ rest) =
        some (.next ⟨b.set v (BitVec.ofNat 32 (Element.number 10 [d.1])), v, a, .decimal, false⟩) := by
      have hnumber : Element.number 10 [d.1] = d.1 := Nat.ofDigits_singleton
      simp only [ArrayParser.round, inStart, if_neg fun h : _ ∧ _ => hnext h.2, hdigit, if_true]
      rw [store_eq hv, modify_const, hvalue, hnumber]
      rfl
    exact (parse_next ha hround).trans (parse_digits ds [d.1] ha hv rest)
  | negative d ds => exact absurd hneg (by simp [Element.isNegative])
  | hex ds =>
    obtain rfl := (cons.inj hx).1
    refine ⟨.hex, g, .inr (.inl rfl), fun _ => rfl, ?_⟩
    have hround : (⟨b, v, a, .start, g⟩ : ArrayParser).round 0x30 (0x78 :: (ds.map HexDigit.char ++ rest)) =
        some (.skip ⟨b.set v (BitVec.ofNat 32 (Element.number 16 [])), v, a, .hex, g⟩) := by
      simp only [ArrayParser.round, inStart, head?_cons, and_self, if_true]
      rw [store_eq hv, modify_const]
      rfl
    exact (parse_skip ha hround).trans (parse_hexDigits ds [] ha hv rest)
  | ascii c =>
    obtain rfl := (cons.inj hx).1
    refine ⟨.termination, g, .inr (.inr rfl), nofun, ?_⟩
    have hround : (⟨b, v, a, .ascii, g⟩ : ArrayParser).round c.1 (0x27 :: rest) =
        some (.skip ⟨b.set v (character c.1), v, a, .termination, g⟩) := by
      simp only [ArrayParser.round, inAscii, head?_cons, if_true]
      rw [store_eq hv, modify_const]
      rfl
    exact (parse_next ha rfl).trans (parse_skip ha hround)
  | string cs => exact absurd rfl (hstring cs)

theorem parse_string (cs : List {c : UInt8 // c ≠ 0 ∧ c ≠ 0x22}) (ha : a ≠ 0) (hroom : v + a ≤ b.length)
    (rest : List UInt8) : parse ((Element.string cs).text ++ rest) ⟨b, v, a, .start, g⟩ =
      if a ≤ cs.length then some (put b v ((Element.string cs).values.take a), [.excess])
      else parse rest ⟨put b v (Element.string cs).values, v + cs.length, a - cs.length, .termination, g⟩ := by
  have htext : (Element.string cs).text ++ rest = 0x22 :: (cs.map (·.1) ++ 0x22 :: rest) := by
    simp [Element.text]
  rw [htext, parse_next ha (t := ⟨b, v, a, .string, g⟩) rfl, parse_characters cs hroom]
  by_cases hlt : a < cs.length
  · rw [if_pos hlt, if_pos hlt.le]
    rfl
  rw [if_neg hlt]
  by_cases heq : a = cs.length
  · rw [if_pos heq.le, parse_full (by simp [heq]) (by simp)]
    rw [take_of_length_le (by simp [Element.values, heq])]
    rfl
  · rw [if_neg (by omega), parse_next (t := ⟨_, _, _, .termination, g⟩) (by change a - cs.length ≠ 0; omega) rfl]
    rfl

theorem parse_ended (k : ℕ) (hmode : Ended mode) (hhex : mode = .hex → k = 0) (ha : a ≠ 0)
    (rest : List UInt8) : ∃ mode', Ended mode' ∧
      parse (Written.blanks k ++ rest) ⟨b, v, a, mode, g⟩ = parse rest ⟨b, v, a, mode', g⟩ := by
  induction k generalizing mode with
  | zero => exact ⟨mode, hmode, rfl⟩
  | succ k ih =>
    have hround : (⟨b, v, a, mode, g⟩ : ArrayParser).round 0x20 (Written.blanks k ++ rest) =
        some (.next ⟨b, v, a, .termination, g⟩) := by
      rcases hmode with rfl | rfl | rfl
      · rfl
      · exact absurd (hhex rfl) (Nat.succ_ne_zero k)
      · rfl
    obtain ⟨mode', hended, hparse⟩ := ih (.inr (.inr rfl)) nofun
    exact ⟨mode', hended, (parse_next ha hround).trans hparse⟩

theorem parse_comma (hmode : Ended mode) (ha : a ≠ 0) (rest : List UInt8) :
    parse (0x2c :: rest) ⟨b, v, a, mode, g⟩ = parse rest ⟨b, v + 1, a - 1, .start, g⟩ := by
  rcases hmode with rfl | rfl | rfl <;> exact parse_next ha rfl

theorem parse_element (ha : a ≠ 0) (hroom : v + a ≤ b.length) (hneg : e.isNegative = false)
    (hrest : rest.head? ≠ some 0x78) :
    (a ≤ e.width → parse (e.text ++ rest) ⟨b, v, a, .start, g⟩ = some (put b v (e.values.take a), [.excess])) ∧
    (e.width < a → ∃ mode g', Ended mode ∧ (mode = .hex → e.isHex = true) ∧
      parse (e.text ++ rest) ⟨b, v, a, .start, g⟩ =
        parse rest ⟨put b v e.values, v + e.width, a - e.width, mode, g'⟩) := by
  have hv : v < b.length := by omega
  cases e with
  | negative d ds => exact absurd hneg (by simp [Element.isNegative])
  | string cs =>
    rw [parse_string cs ha hroom]
    constructor
    · intro hle
      exact if_pos hle
    · intro hlt
      exact ⟨.termination, g, .inr (.inr rfl), nofun, if_neg (Nat.not_le.mpr hlt)⟩
  | _ =>
    refine ⟨fun hle => absurd (Nat.le_zero.mp hle) ha, fun _ => ?_⟩
    exact parse_single ha hv hneg rfl nofun hrest

/-- The array and the messages after the elements have been put in from entry `v` on, with room for `a`
entries. -/
def placed : List Element → ℕ → ℕ → List LONG → List LONG × List ArrayMsg
  | [], _, _, b => (b, [])
  | e :: es, v, a, b =>
    if a = 0 then (b, [.excess])
    else if e.isNegative then (b.set v 0, [.syntaxError .start])
    else if a ≤ e.width then (put b v (e.values.take a), [.excess])
    else placed es (v + e.width + 1) (a - e.width - 1) (put b v e.values)

theorem placed_nil (v a : ℕ) (b : List LONG) : placed [] v a b = (b, []) := rfl

theorem placed_cons (e : Element) (es : List Element) (v a : ℕ) (b : List LONG) : placed (e :: es) v a b =
    if a = 0 then (b, [.excess])
    else if e.isNegative then (b.set v 0, [.syntaxError .start])
    else if a ≤ e.width then (put b v (e.values.take a), [.excess])
    else placed es (v + e.width + 1) (a - e.width - 1) (put b v e.values) := rfl

theorem parse_negative (ha : a ≠ 0) (hv : v < b.length) (hneg : e.isNegative = true) :
    parse (e.text ++ rest) ⟨b, v, a, .start, g⟩ = some (b.set v 0, [.syntaxError .start]) := by
  cases e with
  | negative d ds =>
    have hround : (⟨b, v, a, .start, g⟩ : ArrayParser).round 0x2d ((d :: ds).map decimalChar ++ rest) =
        some (.syntaxError ⟨b.set v 0, v, a, .decimal, true⟩ .start) := by
      have hdigit : isDigit 0x2d = false := by decide
      have hminus : ¬ ((0x2d : UInt8) = 0x30 ∧ ((d :: ds).map decimalChar ++ rest).head? = some 0x78) :=
        fun h => absurd h.1 (by decide)
      simp only [ArrayParser.round, inStart, if_neg hminus, hdigit, if_neg Bool.false_ne_true, if_true]
      rw [store_eq hv, modify_const]
      rfl
    exact parse_error ha hround
  | _ => exact absurd hneg (by simp [Element.isNegative])

theorem head?_behind (k : ℕ) (str : List UInt8) (h : str = [] ∨ str.head? = some 0x2c) :
    (Written.blanks k ++ str).head? ≠ some 0x78 := by
  cases k with
  | zero =>
    rcases h with rfl | h
    · exact nofun
    · change str.head? ≠ some 0x78
      rw [h]
      decide
  | succ k => exact fun h => absurd (some.inj h) (by decide)

theorem parse_text (ws : List Written) (hne : ws ≠ []) (hroom : v + a ≤ b.length) :
    parse (Written.text ws) ⟨b, v, a, .start, g⟩ = some (placed (ws.map (·.element)) v a b) := by
  induction ws generalizing b v a g with
  | nil => exact absurd rfl hne
  | cons w ws ih =>
    rw [map_cons, placed_cons]
    by_cases ha : a = 0
    · rw [if_pos ha]
      exact parse_full ha (by simp) _
    rw [if_neg ha]
    obtain ⟨tail, htail, htext⟩ : ∃ tail : List UInt8, (tail = if ws = [] then [] else 0x2c :: Written.text ws) ∧
        Written.text (w :: ws) = Written.blanks w.before ++ (w.element.text ++ (Written.blanks w.after ++ tail)) := by
      refine ⟨_, rfl, ?_⟩
      cases ws with
      | nil => simp [Written.text]
      | cons w' ws => simp [Written.text]
    have hbehind : (Written.blanks w.after ++ tail).head? ≠ some 0x78 := by
      apply head?_behind
      rw [htail]
      split
      · exact .inl rfl
      · exact .inr rfl
    rw [htext, parse_blanks _ ha]
    by_cases hneg : w.element.isNegative = true
    · rw [if_pos hneg]
      exact parse_negative ha (by omega) hneg
    rw [if_neg hneg]
    obtain ⟨hshort, hlong⟩ :=
      parse_element (g := g) ha hroom (Bool.eq_false_of_not_eq_true hneg) hbehind
    by_cases hwidth : a ≤ w.element.width
    · rw [if_pos hwidth]
      exact hshort hwidth
    rw [if_neg hwidth]
    obtain ⟨mode, g', hmode, hhex, hparse⟩ := hlong (by omega)
    have hleft : a - w.element.width ≠ 0 := by omega
    obtain ⟨mode', hmode', hblanks⟩ := parse_ended (b := put b v w.element.values) (v := v + w.element.width)
      (g := g') w.after hmode (fun h => w.tight (hhex h)) hleft tail
    rw [hparse, hblanks, htail]
    by_cases hlast : ws = []
    · rw [if_pos hlast, hlast]
      unfold parse finish
      rcases hmode' with rfl | rfl | rfl <;> simp [hleft, placed_nil]
    · rw [if_neg hlast, parse_comma hmode' hleft]
      exact ih hlast (by rw [length_put]; omega)

/-- With room for `a` entries, no negative number is reached, and nothing that has a value comes behind a
string that leaves room. -/
def Direct : ℕ → List Element → Prop
  | _, [] => True
  | a, e :: es =>
    a = 0 ∨
      match e with
      | .negative _ _ => False
      | .string cs => a ≤ cs.length ∨ valuesOf es = []
      | _ => Direct (a - 1) es

def SyntaxError (msgs : List ArrayMsg) : Prop := ∃ mode, .syntaxError mode ∈ msgs

theorem placed_negative (ha : a ≠ 0) (hneg : e.isNegative = true) (es : List Element) :
    placed (e :: es) v a b = (b.set v 0, [.syntaxError .start]) := by
  rw [placed_cons, if_neg ha, if_pos hneg]

theorem placed_short (ha : a ≠ 0) (hneg : e.isNegative = false) (hwidth : a ≤ e.width)
    (es : List Element) : placed (e :: es) v a b = (put b v (e.values.take a), [.excess]) := by
  rw [placed_cons, if_neg ha, hneg, if_neg Bool.false_ne_true, if_pos hwidth]

theorem placed_long (ha : a ≠ 0) (hneg : e.isNegative = false) (hwidth : ¬ a ≤ e.width)
    (es : List Element) :
    placed (e :: es) v a b = placed es (v + e.width + 1) (a - e.width - 1) (put b v e.values) := by
  rw [placed_cons, if_neg ha, hneg, if_neg Bool.false_ne_true, if_neg hwidth]

structure Single (e : Element) (x : LONG) : Prop where
  values : e.values = [x]
  width : e.width = 0
  positive : e.isNegative = false

theorem Single.placed (h : Single e x) (ha : a ≠ 0) (es : List Element) :
    placed (e :: es) v a b = Hid.placed es (v + 1) (a - 1) (b.set v x) := by
  rw [placed_long ha h.positive (by rw [h.width]; omega), h.width, h.values]
  rfl

theorem valuesOf_cons (e : Element) (es : List Element) : valuesOf (e :: es) = e.values ++ valuesOf es := rfl

theorem length_characters (cs : List {c : UInt8 // c ≠ 0 ∧ c ≠ 0x22}) :
    (Element.string cs).values.length = cs.length := length_map _

theorem not_syntaxError_excess : ¬ SyntaxError [.excess] := by simp [SyntaxError]

theorem placed_silent (h : valuesOf es = []) (v a : ℕ) (b : List LONG) :
    (placed es v a b).1 = b ∧ ¬ SyntaxError (placed es v a b).2 := by
  induction es generalizing v a with
  | nil => exact ⟨rfl, nofun⟩
  | cons e es ih =>
    obtain ⟨hvalues, hrest⟩ := append_eq_nil_iff.mp ((valuesOf_cons e es).symm.trans h)
    have hneg : e.isNegative = false := by
      cases e with
      | negative d ds => exact absurd hvalues (cons_ne_nil _ _)
      | _ => rfl
    by_cases ha : a = 0
    · rw [placed_cons, if_pos ha]
      exact ⟨rfl, not_syntaxError_excess⟩
    by_cases hwidth : a ≤ e.width
    · rw [placed_short ha hneg hwidth, hvalues, take_nil]
      exact ⟨rfl, not_syntaxError_excess⟩
    · rw [placed_long ha hneg hwidth, hvalues]
      exact ih hrest _ _

theorem placed_direct (h : Direct a es) (v : ℕ) (b : List LONG) :
    (placed es v a b).1 = put b v ((valuesOf es).take a) ∧ ¬ SyntaxError (placed es v a b).2 := by
  induction es generalizing v a b with
  | nil =>
    unfold valuesOf
    rw [flatMap_nil, take_nil]
    exact ⟨rfl, nofun⟩
  | cons e es ih =>
    rw [valuesOf_cons]
    by_cases ha : a = 0
    · rw [placed_cons, if_pos ha, ha]
      exact ⟨rfl, not_syntaxError_excess⟩
    have hdirect := h.resolve_left ha
    have hsingle : ∀ x, Single e x → Direct (a - 1) es →
        (placed (e :: es) v a b).1 = put b v ((e.values ++ valuesOf es).take a) ∧
          ¬ SyntaxError (placed (e :: es) v a b).2 := by
      intro x hx hrest
      obtain ⟨n, rfl⟩ := Nat.exists_eq_succ_of_ne_zero ha
      rw [hx.placed ha, hx.values]
      exact ih hrest (v + 1) (b.set v x)
    cases e with
    | negative d ds => exact absurd hdirect id
    | string cs =>
      have hlength := length_characters cs
      by_cases hwidth : a ≤ cs.length
      · rw [placed_short (e := .string cs) ha rfl hwidth, take_append_of_le_length (by omega)]
        exact ⟨rfl, not_syntaxError_excess⟩
      · have hnone : valuesOf es = [] := Or.resolve_left hdirect hwidth
        rw [placed_long (e := .string cs) ha rfl hwidth, hnone, append_nil, take_of_length_le (by omega)]
        exact placed_silent hnone _ _ _
    | _ => exact hsingle _ ⟨rfl, rfl, rfl⟩ hdirect

theorem placed_before (es : List Element) (hi : i < v) : (placed es v a b).1[i]? = b[i]? := by
  induction es generalizing v a b with
  | nil => rfl
  | cons e es ih =>
    rw [placed_cons]
    split
    · rfl
    split
    · exact getElem?_set_ne (by omega)
    split
    · exact getElem?_put b (.inl hi)
    · rw [ih (by omega), getElem?_put b (.inl hi)]

theorem placed_indirect (h : ¬ Direct a es) (v : ℕ) :
    (∀ b, SyntaxError (placed es v a b).2) ∨
      ∃ k < a, ∃ x, (valuesOf es)[k]? = some x ∧ ∀ b, (placed es v a b).1[v + k]? = b[v + k]? := by
  induction es generalizing v a with
  | nil => exact absurd trivial h
  | cons e es ih =>
    obtain ⟨ha, hindirect⟩ := not_or.mp h
    have hsingle : ∀ x, Single e x → ¬ Direct (a - 1) es →
        (∀ b, SyntaxError (placed (e :: es) v a b).2) ∨
          ∃ k < a, ∃ x, (valuesOf (e :: es))[k]? = some x ∧
            ∀ b, (placed (e :: es) v a b).1[v + k]? = b[v + k]? := by
      intro x hx hrest
      rcases ih hrest (v + 1) with herror | ⟨k, hk, y, hy, hsame⟩
      · left
        intro b
        rw [hx.placed ha]
        exact herror _
      · refine .inr ⟨k + 1, by omega, y, ?_, fun b => ?_⟩
        · rw [valuesOf_cons, hx.values]
          exact hy
        · rw [hx.placed ha, show v + (k + 1) = v + 1 + k by omega, hsame, getElem?_set_ne (by omega)]
    cases e with
    | negative d ds =>
      left
      intro b
      rw [placed_negative (e := .negative d ds) ha rfl]
      exact ⟨.start, mem_singleton_self _⟩
    | string cs =>
      obtain ⟨hwidth, hsome⟩ := not_or.mp hindirect
      have hlength := length_characters cs
      refine .inr ⟨cs.length, by omega, (valuesOf es).head hsome, ?_, fun b => ?_⟩
      · rw [valuesOf_cons, getElem?_append_right hlength.le, hlength, Nat.sub_self,
          ← head?_eq_getElem?, head?_eq_some_head hsome]
      · rw [placed_long (e := .string cs) ha rfl hwidth]
        change (placed es (v + cs.length + 1) _ _).1[v + cs.length]? = _
        rw [placed_before es (by omega), getElem?_put b (.inr (by omega))]
    | _ => exact hsingle _ ⟨rfl, rfl, rfl⟩ hindirect

def Inside (s : ArrayParser) : Prop := s.valptr + s.acount ≤ s.buffer.length

theorem round_inside (h : Inside s) (ha : s.acount ≠ 0) (ch : UInt8) (str : List UInt8) :
    ∃ r, s.round ch str = some r ∧
      match r with
      | .next t => Inside t
      | .skip t => Inside t
      | .syntaxError _ _ => True := by
  unfold Inside at h
  have hstore : ∀ f, s.store f = some { s with buffer := s.buffer.modify s.valptr f } :=
    fun f => store_eq (by omega)
  unfold ArrayParser.round inStart inDecimal inHex inAscii inString inTermination
  simp only [hstore]
  cases s.mode <;> dsimp only <;> (repeat' split) <;>
    exact ⟨_, rfl, by simp [Inside, comma] <;> omega⟩

theorem parse_isSome (h : Inside s) (str : List UInt8) : (parse str s).isSome = true := by
  induction hn : str.length using Nat.strong_induction_on generalizing str s with
  | _ n ih =>
    cases str with
    | nil => rfl
    | cons ch str =>
      rw [parse_cons]
      by_cases ha : s.acount = 0
      · rw [if_pos ha]
        rfl
      obtain ⟨r, hr, hinside⟩ := round_inside h ha ch str
      rw [if_neg ha, hr]
      cases r with
      | next t => exact ih str.length (by rw [← hn]; exact Nat.lt_succ_self _) hinside str rfl
      | syntaxError t mode => rfl
      | skip t =>
        cases str with
        | nil => rfl
        | cons c str =>
          refine ih str.length ?_ hinside str rfl
          rw [← hn, length_cons, length_cons]
          omega

theorem nParseArrayString_isSome (nhi : NepHidItem) (str : List UInt8) :
    (nhi.nParseArrayString str).isSome = true := by
  unfold NepHidItem.nParseArrayString
  split
  · rfl
  · rw [isSome_map]
    apply parse_isSome
    have hle : uword nhi.count ≤ nhi.count := Nat.mod_le _ _
    change 0 + uword nhi.count ≤ nhi.count
    omega

/-- The values are in the array one after the other from its beginning, those for which there is no room
left out, the rest of the array is as it was, and there was no syntax error. -/
def Meant (nhi : NepHidItem) (es : List Element) (result : Option (NepHidItem × List ArrayMsg)) : Prop :=
  ∃ msgs, ¬ SyntaxError msgs ∧ result =
    some ({ nhi with buffer := (valuesOf es).take nhi.count ++ nhi.buffer.drop (valuesOf es).length }, msgs)

theorem text_ne_nil {ws : List Written} (hne : ws ≠ []) : Written.text ws ≠ [] := by
  have helement : ∀ e : Element, e.text ≠ [] := by
    intro e
    cases e <;> simp [Element.text]
  cases ws with
  | nil => exact absurd rfl hne
  | cons w ws => cases ws <;> simp [Written.text, helement]

theorem nParseArrayString_text (nhi : NepHidItem) {ws : List Written} (hne : ws ≠ []) (hcount : nhi.count ≤ 65535) :
    ∃ noSpace, ¬ SyntaxError noSpace ∧ nhi.nParseArrayString (Written.text ws) =
      some ({ nhi with buffer := (placed (ws.map (·.element)) 0 nhi.count nhi.buffer).1 },
        noSpace ++ (placed (ws.map (·.element)) 0 nhi.count nhi.buffer).2) := by
  refine ⟨if uword nhi.count = 0 then [.noSpace] else [], ?_, ?_⟩
  · split <;> simp [SyntaxError]
  · unfold NepHidItem.nParseArrayString
    rw [if_neg (text_ne_nil hne)]
    dsimp only
    rw [uword_of_lt (by omega), parse_text ws hne (by rw [Nat.zero_add]; exact le_rfl)]
    rfl

theorem syntaxError_append {msgs msgs' : List ArrayMsg} :
    SyntaxError (msgs ++ msgs') ↔ SyntaxError msgs ∨ SyntaxError msgs' := by
  unfold SyntaxError
  simp only [mem_append, exists_or]

theorem put_take (b xs : List LONG) : put b 0 (xs.take b.length) = xs.take b.length ++ b.drop xs.length := by
  rw [put_eq (by simp), take_zero, nil_append, Nat.zero_add, length_take]
  by_cases hle : xs.length ≤ b.length
  · rw [Nat.min_eq_right hle]
  · rw [Nat.min_eq_left (by omega), drop_length, drop_eq_nil_of_le (by omega)]

def arrayOf (buffer : List LONG) : NepHidItem where
  isVariable := false
  offset := 0
  size := 8
  isSigned := false
  logicalMin := 0
  logicalMax := 255
  usage := 0
  usageMap := []
  oldValue := 0
  buffer := buffer
  oldBuffer := []

/-- An array string means what it says whatever the array holds if, and only if, it is direct; no string
writes outside the array. -/
theorem array_string_iff (ws : List Written) (n : ℕ) (hne : ws ≠ []) (hn : n ≤ 65535) :
    ((∀ nhi : NepHidItem, nhi.count = n →
      Meant nhi (ws.map (·.element)) (nhi.nParseArrayString (Written.text ws))) ↔
        Direct n (ws.map (·.element))) ∧
    ∀ (nhi : NepHidItem) (str : List UInt8), (nhi.nParseArrayString str).isSome = true := by
  refine ⟨⟨fun h => ?_, ?_⟩, nParseArrayString_isSome⟩
  · by_contra hindirect
    rcases placed_indirect hindirect 0 with herror | ⟨k, hk, x, hx, hsame⟩
    · obtain ⟨noSpace, -, hparse⟩ := nParseArrayString_text (arrayOf (List.replicate n 0)) hne
        (by change (List.replicate n _).length ≤ _; simpa using hn)
      obtain ⟨msgs, hnone, hmeant⟩ := h (arrayOf (List.replicate n 0)) length_replicate
      obtain ⟨-, rfl⟩ := Prod.mk.inj (some.inj (hparse.symm.trans hmeant))
      apply hnone
      refine syntaxError_append.mpr (.inr ?_)
      have hcount : (arrayOf (List.replicate n 0)).count = n := length_replicate
      rw [hcount]
      exact herror _
    · have hcount : (arrayOf (List.replicate n (x + 1))).count = n := length_replicate
      obtain ⟨noSpace, -, hparse⟩ := nParseArrayString_text (arrayOf (List.replicate n (x + 1))) hne (by omega)
      obtain ⟨msgs, -, hmeant⟩ := h (arrayOf (List.replicate n (x + 1))) hcount
      obtain ⟨harray, -⟩ := Prod.mk.inj (some.inj (hparse.symm.trans hmeant))
      have hentry := congrArg (fun nhi : NepHidItem => nhi.buffer[k]?) harray
      have hlength : k < (valuesOf (ws.map (·.element))).length := (List.getElem?_eq_some_iff.mp hx).1
      have hold : (placed (ws.map (·.element)) 0 n (List.replicate n (x + 1))).1[k]? = some (x + 1) := by
        have hkept := hsame (List.replicate n (x + 1))
        rw [Nat.zero_add] at hkept
        rw [hkept, List.getElem?_replicate, if_pos hk]
      rw [hcount] at hentry
      change (placed (ws.map (·.element)) 0 n (List.replicate n (x + 1))).1[k]? =
        ((valuesOf (ws.map (·.element))).take n ++ _)[k]? at hentry
      rw [hold, List.getElem?_append_left (by rw [length_take]; omega), List.getElem?_take_of_lt hk, hx] at hentry
      have heq : x + 1 = x := some.inj hentry
      bv_omega
  · rintro hdirect nhi rfl
    obtain ⟨noSpace, hnone, hparse⟩ := nParseArrayString_text nhi hne hn
    obtain ⟨hbuffer, hsilent⟩ := placed_direct hdirect 0 nhi.buffer
    have hput := put_take nhi.buffer (valuesOf (ws.map (·.element)))
    change put nhi.buffer 0 (List.take nhi.count _) = List.take nhi.count _ ++ _ at hput
    rw [hbuffer, hput] at hparse
    exact ⟨_, fun h => (syntaxError_append.mp h).elim hnone hsilent, hparse⟩

def mixed : List Written :=
  [⟨0, .hex [⟨1, false⟩, ⟨15, false⟩], 0, fun _ => rfl⟩, ⟨1, .ascii ⟨0x61, by decide⟩, 1, nofun⟩,
    ⟨0, .string [⟨0x62, by decide⟩, ⟨0x63, by decide⟩], 0, nofun⟩]

theorem array_string_mixed : Meant (arrayOf [9, 9, 9, 9, 9]) (mixed.map (·.element))
    ((arrayOf [9, 9, 9, 9, 9]).nParseArrayString (Written.text mixed)) :=
  (array_string_iff mixed 5 (cons_ne_nil _ _) (by decide)).1.mpr
    (by simp [Direct, mixed, valuesOf]) _ rfl

def minusFive : List Written := [⟨0, .negative 5 [], 0, nofun⟩]

def stringFirst : List Written := [⟨0, .string [⟨0x61, by decide⟩], 0, nofun⟩, ⟨0, .decimal 5 [], 0, nofun⟩]

/-- A minus sign is a syntax error, and an entry is left out behind a string. -/
theorem array_string_lost :
    ((arrayOf [9]).nParseArrayString (Written.text minusFive) = some (arrayOf [0], [.syntaxError .start]) ∧
      ¬ Meant (arrayOf [9]) (minusFive.map (·.element))
        ((arrayOf [9]).nParseArrayString (Written.text minusFive))) ∧
    (arrayOf [9, 9, 9]).nParseArrayString (Written.text stringFirst) = some (arrayOf [0x61, 9, 5], []) ∧
      ¬ Meant (arrayOf [9, 9, 9]) (stringFirst.map (·.element))
        ((arrayOf [9, 9, 9]).nParseArrayString (Written.text stringFirst)) := by
  have hminus : (arrayOf [9]).nParseArrayString (Written.text minusFive) =
      some (arrayOf [0], [.syntaxError .start]) := by decide
  have hstring : (arrayOf [9, 9, 9]).nParseArrayString (Written.text stringFirst) =
      some (arrayOf [0x61, 9, 5], []) := by decide
  refine ⟨⟨hminus, ?_⟩, hstring, ?_⟩
  · rw [hminus]
    rintro ⟨msgs, hnone, heq⟩
    obtain ⟨-, rfl⟩ := Prod.mk.inj (some.inj heq)
    exact hnone ⟨.start, mem_singleton_self _⟩
  · rw [hstring]
    rintro ⟨msgs, -, heq⟩
    have hentry := congrArg (fun nhi : NepHidItem => nhi.buffer[1]?) (Prod.mk.inj (some.inj heq)).1
    exact absurd hentry (by decide)

end Neptune.Hid
