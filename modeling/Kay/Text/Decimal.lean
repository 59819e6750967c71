import Kay.Text.Digit

/-!
# Decimal numerals

A natural number is written with its shortest decimal numeral, and a digit string stands for its
value whatever its leading zeros. `value_digits` says that reading takes back what writing gave.
-/

namespace Kay.Text.Decimal

/-- The digit character of a number below ten. -/
def digit (n : Nat) : Char := Char.ofNat ('0'.toNat + n)

/-- The shortest decimal numeral of a number. -/
def digits (n : Nat) : List Char :=
  if n < 10 then [digit n] else digits (n / 10) ++ [digit (n % 10)]
termination_by n
decreasing_by omega

/-- The number that a digit string stands for. -/
def value (cs : List Char) : Nat :=
  cs.foldl (fun n c ↦ 10 * n + (c.toNat - '0'.toNat)) 0

theorem toNat_digit {n : Nat} (h : n < 10) : (digit n).toNat = '0'.toNat + n := by
  have : n = 0 ∨ n = 1 ∨ n = 2 ∨ n = 3 ∨ n = 4 ∨ n = 5 ∨ n = 6 ∨ n = 7 ∨ n = 8 ∨ n = 9 := by omega
  rcases this with rfl | rfl | rfl | rfl | rfl | rfl | rfl | rfl | rfl | rfl <;> rfl

theorem isAsciiDigit_digit {n : Nat} (h : n < 10) : isAsciiDigit (digit n) = true := by
  have : n = 0 ∨ n = 1 ∨ n = 2 ∨ n = 3 ∨ n = 4 ∨ n = 5 ∨ n = 6 ∨ n = 7 ∨ n = 8 ∨ n = 9 := by omega
  rcases this with rfl | rfl | rfl | rfl | rfl | rfl | rfl | rfl | rfl | rfl <;> rfl

theorem isAsciiDigit_of_mem_digits (n : Nat) : ∀ c ∈ digits n, isAsciiDigit c = true := by
  fun_induction digits n with
  | case1 n h => simpa using isAsciiDigit_digit h
  | case2 n h ih =>
    intro c hc
    rcases List.mem_append.1 hc with hc | hc
    · exact ih c hc
    · rw [List.mem_singleton.1 hc]
      exact isAsciiDigit_digit (Nat.mod_lt _ (by decide))

theorem value_append_singleton (cs : List Char) (c : Char) :
    value (cs ++ [c]) = 10 * value cs + (c.toNat - '0'.toNat) := by
  simp [value]

/-- Reading a numeral takes back the number it was written for. -/
theorem value_digits (n : Nat) : value (digits n) = n := by
  fun_induction digits n with
  | case1 n h => simp [value, toNat_digit h]
  | case2 n h ih =>
    rw [value_append_singleton, ih, toNat_digit (Nat.mod_lt _ (by decide))]
    omega

/-- The numeral of an integer, with a minus sign in front of a negative one. -/
def ofInt : Int → List Char
  | .ofNat n => digits n
  | .negSucc n => '-' :: digits (n + 1)

/-- A numeral has nothing but digits and a minus sign. -/
theorem notMem_ofInt {c : Char} (hminus : c ≠ '-') (hdigit : isAsciiDigit c = false) (n : Int) :
    c ∉ ofInt n := by
  have hdigits (m : Nat) : c ∉ digits m := fun h ↦
    ne_true_of_eq_false hdigit (isAsciiDigit_of_mem_digits m c h)
  rcases n with m | m
  · exact hdigits m
  · exact List.not_mem_cons_of_ne_of_not_mem hminus (hdigits (m + 1))

theorem digits_injective : Function.Injective digits := fun m n h ↦ by
  rw [← value_digits m, h, value_digits]

/-- An integer can be read off its numeral. -/
theorem ofInt_injective : Function.Injective ofInt := by
  -- A minus sign is not a digit.
  have hminus (m : Nat) (cs : List Char) : digits m ≠ '-' :: cs := fun h ↦
    absurd (isAsciiDigit_of_mem_digits m '-' (h ▸ List.mem_cons_self)) (by decide)
  rintro (m | m) (n | n) h
  · rw [digits_injective h]
  · exact absurd h (hminus m _)
  · exact absurd h.symm (hminus n _)
  · rw [Nat.succ.inj (digits_injective (List.cons.inj h).2)]

/-- The numeral of an integer as a string. -/
def text (n : Int) : String := String.ofList (ofInt n)

end Kay.Text.Decimal
