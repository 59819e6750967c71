/-!
# Sets of code points

A property of characters that a standard gives by enumeration is kept here as a table of ranges.
The ranges ascend, so membership can stop at the first range that starts beyond the code point;
that they do is part of the type, and `contains_iff` is what the early stop rests on.
-/

namespace Kay.Text

/-- Every range is nonempty and ends before the next one starts. -/
def Ascending : List (Nat × Nat) → Bool
  | [] => true
  | [(lo, hi)] => lo ≤ hi
  | (lo, hi) :: (lo', hi') :: rest => lo ≤ hi && hi < lo' && Ascending ((lo', hi') :: rest)

/-- A set of code points, as ascending ranges with both ends included. -/
structure CodePoints where
  /-- The ranges, each with its first and its last member. -/
  ranges : List (Nat × Nat)
  /-- The ranges ascend and do not meet. -/
  ascending : Ascending ranges = true := by decide +kernel

/-- Membership by search from the low end, given up where the ranges have passed the code point. -/
def within (n : Nat) : List (Nat × Nat) → Bool
  | [] => false
  | (lo, hi) :: rest => lo ≤ n && (n ≤ hi || within n rest)

theorem Ascending.tail {lo hi : Nat} {rest : List (Nat × Nat)}
    (h : Ascending ((lo, hi) :: rest) = true) : Ascending rest = true := by
  cases rest with
  | nil => rfl
  | cons r rest => simp only [Ascending, Bool.and_eq_true] at h; exact h.2

theorem Ascending.lt_of_mem {lo hi : Nat} {rest : List (Nat × Nat)}
    (h : Ascending ((lo, hi) :: rest) = true) : ∀ r ∈ rest, lo ≤ hi ∧ hi < r.1 := by
  induction rest generalizing lo hi with
  | nil => simp
  | cons s rest ih =>
    obtain ⟨lo', hi'⟩ := s
    simp only [Ascending, Bool.and_eq_true, decide_eq_true_eq] at h
    intro r hr
    rcases List.mem_cons.1 hr with rfl | hr
    · exact h.1
    · have := ih h.2 r hr
      omega

theorem within_iff {n : Nat} {ranges : List (Nat × Nat)} (h : Ascending ranges = true) :
    within n ranges = true ↔ ∃ r ∈ ranges, r.1 ≤ n ∧ n ≤ r.2 := by
  induction ranges with
  | nil => simp [within]
  | cons s rest ih =>
    obtain ⟨lo, hi⟩ := s
    simp only [within, Bool.and_eq_true, Bool.or_eq_true, decide_eq_true_eq, List.mem_cons,
      exists_eq_or_imp, ih (Ascending.tail h)]
    constructor
    · rintro ⟨hlo, hhi | hr⟩
      · exact .inl ⟨hlo, hhi⟩
      · exact .inr hr
    · rintro (⟨hlo, hhi⟩ | ⟨r, hr, hr'⟩)
      · exact ⟨hlo, .inl hhi⟩
      · have := Ascending.lt_of_mem h r hr
        exact ⟨by omega, .inr ⟨r, hr, hr'⟩⟩

namespace CodePoints

/-- Whether the set holds the code point of a character. -/
def contains (s : CodePoints) (c : Char) : Bool := within c.toNat s.ranges

theorem contains_iff (s : CodePoints) (c : Char) :
    s.contains c = true ↔ ∃ r ∈ s.ranges, r.1 ≤ c.toNat ∧ c.toNat ≤ r.2 :=
  within_iff s.ascending

end CodePoints

end Kay.Text
