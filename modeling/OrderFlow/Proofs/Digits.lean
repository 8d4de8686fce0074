import OrderFlow.Text.Blank
import OrderFlow.Text.Digits

/-! # Written numbers are read back

    Ids, stamps and counts are written digit by digit, in a base of at most
    sixteen.  Whatever the base, and with or without zeros in front, the digits
    are read as the number that was written. -/

namespace OrderFlow.Text

/-! ## One digit -/

theorem digitValue_digitChar : ∀ d < 16, digitValue (digitChar d) = some d := by
  decide

theorem isDigitOf_digitChar : ∀ d < 16, isDigitOf 16 (digitChar d) = true := by
  decide

theorem isBlankChar_digitChar : ∀ d < 16, isBlankChar (digitChar d) = false := by
  decide

theorem isDecimal_digitChar : ∀ d < 10, isDecimal (digitChar d) = true := by
  decide

/-- A decimal digit is not blank. -/
theorem not_isBlankChar_of_isDecimal {c : Char} (h : isDecimal c = true) :
    isBlankChar c = false := by
  simp only [isDecimal, Bool.and_eq_true, decide_eq_true_eq] at h
  simp only [isBlankChar, Bool.or_eq_false_iff, Bool.and_eq_false_iff, decide_eq_false_iff_not,
    beq_eq_false_iff_ne]
  omega

/-! ## Where a run of characters ends -/

section runs
variable {α : Type} {p : α → Bool}

/-- What comes next, if anything, does not have the property. -/
def Stops (p : α → Bool) (rest : List α) : Prop :=
  ∀ a ∈ rest.head?, p a = false

theorem stops_nil : Stops p [] := by
  intro a ha
  simp at ha

theorem stops_cons {a : α} (h : p a = false) (rest : List α) : Stops p (a :: rest) := by
  intro b hb
  obtain rfl : a = b := by simpa using hb
  exact h

theorem Stops.take {rest : List α} (h : Stops p rest) (n : Nat) : Stops p (rest.take n) := by
  intro a ha
  rw [List.head?_take] at ha
  split at ha
  · cases ha
  · exact h a ha

/-- The front of a list, up to the first item without the property. -/
theorem takeWhile_front {front rest : List α} (h : ∀ a ∈ front, p a = true)
    (hends : Stops p rest) : (front ++ rest).takeWhile p = front := by
  rw [List.takeWhile_append_of_pos h]
  cases rest with
  | nil => simp
  | cons a rest =>
    have ha : p a = false := hends a rfl
    simp [ha]

theorem Stops.dropWhile_eq {rest : List α} (h : Stops p rest) : rest.dropWhile p = rest := by
  cases rest with
  | nil => rfl
  | cons a rest =>
    have ha : p a = false := h a rfl
    simp [ha]

end runs

/-! ## Several digits -/

section digits
variable {base : Nat}

theorem ofDigits_snoc (base : Nat) (cs : List Char) (c : Char) :
    ofDigits base (cs ++ [c]) = base * ofDigits base cs + (digitValue c).getD 0 := by
  unfold ofDigits
  rw [List.foldl_append]
  rfl

/-- One more digit that was written. -/
theorem ofDigits_digitChar (base : Nat) (cs : List Char) {d : Nat} (hd : d < 16) :
    ofDigits base (cs ++ [digitChar d]) = base * ofDigits base cs + d := by
  rw [ofDigits_snoc, digitValue_digitChar d hd, Option.getD_some]

theorem length_paddedDigits (base width n : Nat) : (paddedDigits base width n).length = width := by
  induction width generalizing n with
  | zero => rfl
  | succ width ih => simp [paddedDigits, ih]

/-- What holds of every digit holds of all characters of a number. -/
theorem forall_mem_paddedDigits {P : Char → Prop} (hbase : 0 < base)
    (h : ∀ d < base, P (digitChar d)) (width n : Nat) : ∀ c ∈ paddedDigits base width n, P c := by
  induction width generalizing n with
  | zero => simp [paddedDigits]
  | succ width ih =>
    intro c hc
    rcases List.mem_append.mp hc with hc | hc
    · exact ih _ c hc
    · rw [List.mem_singleton] at hc
      subst hc
      exact h _ (Nat.mod_lt _ hbase)

theorem forall_mem_digitsOf {P : Char → Prop} (hbase : 2 ≤ base)
    (h : ∀ d < base, P (digitChar d)) (n : Nat) : ∀ c ∈ digitsOf base n, P c := by
  fun_induction digitsOf base n with
  | case1 n hn ih =>
    intro c hc
    rcases List.mem_append.mp hc with hc | hc
    · exact ih c hc
    · rw [List.mem_singleton] at hc
      subst hc
      exact h _ (Nat.mod_lt _ (by omega))
  | case2 n hn =>
    intro c hc
    rw [List.mem_singleton] at hc
    subst hc
    exact h n (by omega)

theorem digitsOf_ne_nil (base n : Nat) : digitsOf base n ≠ [] := by
  unfold digitsOf
  split <;> simp

/-- **Digits that were written** are read as the number that they were. -/
theorem ofDigits_paddedDigits (hpos : 0 < base) (hbase : base ≤ 16) (width n : Nat) :
    ofDigits base (paddedDigits base width n) = n % base ^ width := by
  induction width generalizing n with
  | zero => simp [paddedDigits, ofDigits, Nat.mod_one]
  | succ width ih =>
    have hdigit : n % base < 16 := Nat.lt_of_lt_of_le (Nat.mod_lt _ hpos) hbase
    rw [paddedDigits, ofDigits_digitChar base _ hdigit, ih, Nat.pow_succ,
      Nat.mul_comm (base ^ width) base, Nat.mod_mul]
    omega

theorem ofDigits_digitsOf (htwo : 2 ≤ base) (hbase : base ≤ 16) (n : Nat) :
    ofDigits base (digitsOf base n) = n := by
  fun_induction digitsOf base n with
  | case1 n hn ih =>
    have hdigit : n % base < 16 := by
      have hlt : n % base < base := Nat.mod_lt _ (by omega)
      omega
    rw [ofDigits_digitChar base _ hdigit, ih]
    exact Nat.div_add_mod n base
  | case2 n hn =>
    have hdigit : n < 16 := by omega
    show ofDigits base ([] ++ [digitChar n]) = n
    rw [ofDigits_digitChar base [] hdigit]
    simp [ofDigits]

/-- Only zero begins with a zero. -/
theorem digitsOf_head (n : Nat) (h : (digitsOf 10 n).head? = some '0') :
    (digitsOf 10 n).length = 1 := by
  have hzero : ∀ d < 10, digitChar d = '0' → d = 0 := by decide
  -- By induction the digits before the last one write a number that is not zero.
  have hpos : ∀ n, 0 < n → (digitsOf 10 n).head? ≠ some '0' := by
    intro n hn
    fun_induction digitsOf 10 n with
    | case1 n hle ih =>
      obtain ⟨c, rest, hfront⟩ := List.exists_cons_of_ne_nil (digitsOf_ne_nil 10 (n / 10))
      have hhead := ih (by omega)
      rw [hfront] at hhead ⊢
      exact hhead
    | case2 n hlt =>
      intro hhead
      have hdigit : digitChar n = '0' := by simpa using hhead
      have hn0 := hzero n (by omega) hdigit
      omega
  by_cases hn : n = 0
  · subst hn
    simp [digitsOf]
  · exact absurd h (hpos n (by omega))

end digits

/-! ## Decimals with zeros in front -/

theorem forall_mem_paddedDecimal {P : Char → Prop} (h : ∀ d < 10, P (digitChar d))
    (width n : Nat) : ∀ c ∈ paddedDecimal width n, P c := by
  unfold paddedDecimal
  split
  · exact forall_mem_paddedDigits (by decide) h width n
  · exact forall_mem_digitsOf (by decide) h n

theorem length_paddedDecimal {width n : Nat} (h : n < 10 ^ width) :
    (paddedDecimal width n).length = width := by
  unfold paddedDecimal
  rw [if_pos h, length_paddedDigits]

/-- **A decimal with zeros in front** is read as the number that was written. -/
theorem ofDigits_paddedDecimal (width n : Nat) : ofDigits 10 (paddedDecimal width n) = n := by
  unfold paddedDecimal
  split
  · next h => rw [ofDigits_paddedDigits (by decide) (by decide), Nat.mod_eq_of_lt h]
  · rw [ofDigits_digitsOf (by decide) (by decide)]

end OrderFlow.Text
