import OrderFlow.Proofs.Calendar
import OrderFlow.Proofs.Digits
import OrderFlow.Proofs.Instant
import OrderFlow.Time.Rfc3339

/-! # Written instants are read back

    An instant is written part by part, and each part is read as what it was
    written for, whatever comes after it.  So every instant that is not in a leap
    second is read back from its text, down to the nanosecond, from the first
    year to the last. -/

namespace OrderFlow.Instant

open Text

/-! ## Numbers -/

section numbers
variable {most width n : Nat} {rest : List Char}

/-- Digits are read up to the first character that is none. -/
theorem number_front {front : List Char} (hne : front ≠ [])
    (hall : ∀ c ∈ front, isDecimal c = true) (hlength : front.length ≤ most)
    (hvalue : ofDigits 10 front < 2 ^ 63) (hends : Stops isDecimal rest) :
    number most (front ++ rest) = some (ofDigits 10 front, rest) := by
  have hdigits : ((front ++ rest).take most).takeWhile isDecimal = front := by
    rw [List.take_append, List.take_of_length_le hlength]
    exact takeWhile_front hall (hends.take _)
  have hempty : front.isEmpty = false := by simpa using hne
  unfold number
  dsimp only
  rw [hdigits, List.drop_left, if_neg]
  rw [hempty]
  simpa using hvalue

theorem paddedDecimal_ne_nil (hwidth : 0 < width) (n : Nat) : paddedDecimal width n ≠ [] := by
  unfold paddedDecimal
  split
  · apply List.ne_nil_of_length_pos
    rw [length_paddedDigits]
    exact hwidth
  · exact digitsOf_ne_nil 10 n

theorem number_paddedDecimal (hwidth : 0 < width) (hlength : (paddedDecimal width n).length ≤ most)
    (hn : n < 2 ^ 63) (hends : Stops isDecimal rest) :
    number most (paddedDecimal width n ++ rest) = some (n, rest) := by
  have hvalue : ofDigits 10 (paddedDecimal width n) = n := ofDigits_paddedDecimal width n
  have hread := number_front (paddedDecimal_ne_nil hwidth n)
    (forall_mem_paddedDecimal isDecimal_digitChar width n) hlength (hvalue.symm ▸ hn) hends
  rw [hread, hvalue]

/-- A number begins with a digit. -/
theorem exists_cons_paddedDecimal (hwidth : 0 < width) (n : Nat) :
    ∃ c cs, paddedDecimal width n = c :: cs ∧ isDecimal c = true := by
  obtain ⟨c, cs, hcons⟩ := List.exists_cons_of_ne_nil (paddedDecimal_ne_nil hwidth n)
  have hall : ∀ d ∈ paddedDecimal width n, isDecimal d = true :=
    forall_mem_paddedDecimal isDecimal_digitChar width n
  rw [hcons] at hall
  exact ⟨c, cs, hcons, hall c List.mem_cons_self⟩

theorem trimStart_cons {c : Char} (h : isBlankChar c = false) (cs : List Char) :
    trimStart (c :: cs) = c :: cs := by
  simp [trimStart, h]

theorem trimStart_paddedDecimal (hwidth : 0 < width) (n : Nat) (rest : List Char) :
    trimStart (paddedDecimal width n ++ rest) = paddedDecimal width n ++ rest := by
  obtain ⟨c, cs, hcons, hc⟩ := exists_cons_paddedDecimal hwidth n
  rw [hcons, List.cons_append, trimStart_cons (not_isBlankChar_of_isDecimal hc)]

end numbers

/-! ## The parts of an instant -/

section parts
variable {n : Nat} {rest : List Char}

theorem bounded_paddedDecimal {low high : Nat} (hlow : low ≤ n) (hhigh : n ≤ high)
    (hn : n < 100) (hends : Stops isDecimal rest) :
    bounded low high (paddedDecimal 2 n ++ rest) = some (n, rest) := by
  have hlength : (paddedDecimal 2 n).length ≤ 2 := Nat.le_of_eq (length_paddedDecimal hn)
  have hnumber := number_paddedDecimal (by decide) hlength (by omega) hends
  unfold bounded
  rw [trimStart_paddedDecimal (by decide), hnumber, Option.bind_eq_bind, Option.bind_some]
  exact if_pos ⟨hlow, hhigh⟩

theorem literal_cons {c : Char} (h : isBlankChar c = false) (rest : List Char) :
    literal c (c :: rest) = some rest := by
  unfold literal
  rw [trimStart_cons h]
  exact if_pos rfl

/-- **A written year**, with four digits or with a sign. -/
theorem year_renderYear {y : Int} (hy : y.natAbs < 2 ^ 63)
    (hends : Stops isDecimal rest) :
    year (renderYear y ++ rest) = some (y, rest) := by
  -- Behind a sign all characters may be digits.
  have hlength : (paddedDecimal 4 y.natAbs).length ≤ (paddedDecimal 4 y.natAbs ++ rest).length := by
    rw [List.length_append]
    omega
  have hsigned := number_paddedDecimal (by decide) hlength hy hends
  unfold renderYear
  by_cases hplain : 0 ≤ y ∧ y ≤ 9999
  · rw [if_pos hplain]
    have hlength : (paddedDecimal 4 y.toNat).length ≤ 4 :=
      Nat.le_of_eq (length_paddedDecimal (by omega))
    have hnumber := number_paddedDecimal (by decide) hlength (by omega) hends
    have hyear : (y.toNat : Int) = y := Int.toNat_of_nonneg hplain.1
    unfold year
    rw [trimStart_paddedDecimal (by decide)]
    obtain ⟨c, cs, hcons, hc⟩ := exists_cons_paddedDecimal (by decide : 0 < 4) y.toNat
    rw [hcons] at hnumber ⊢
    -- A digit is not a sign.
    split
    · next heq =>
      rw [(List.cons.inj heq).1] at hc
      exact absurd hc (by decide)
    · next heq =>
      rw [(List.cons.inj heq).1] at hc
      exact absurd hc (by decide)
    · rw [hnumber]
      show some ((y.toNat : Int), rest) = some (y, rest)
      rw [hyear]
  · rw [if_neg hplain]
    unfold year
    by_cases hnegative : y < 0
    · have hyear : -(y.natAbs : Int) = y := by omega
      rw [if_pos hnegative, List.cons_append, trimStart_cons (by decide)]
      show (number _ _).map _ = _
      rw [hsigned]
      show some (-(y.natAbs : Int), rest) = some (y, rest)
      rw [hyear]
    · have hyear : (y.natAbs : Int) = y := by omega
      rw [if_neg hnegative, List.cons_append, trimStart_cons (by decide)]
      show (number _ _).map _ = _
      rw [hsigned]
      show some ((y.natAbs : Int), rest) = some (y, rest)
      rw [hyear]

/-- A fraction of so many digits. -/
theorem fraction_paddedDecimal {width : Nat} (hwidth : 0 < width) (hle : width ≤ 9)
    (hn : n < 10 ^ width) (hends : Stops isDecimal rest) :
    fraction ('.' :: (paddedDecimal width n ++ rest)) = some (n * 10 ^ (9 - width), rest) := by
  have hlength : (paddedDecimal width n).length = width := length_paddedDecimal hn
  have hsmall : n < 2 ^ 63 := by
    have hpow : 10 ^ width ≤ 10 ^ 9 := Nat.pow_le_pow_right (by decide) hle
    omega
  have hnumber : number 9 (paddedDecimal width n ++ rest) = some (n, rest) :=
    number_paddedDecimal hwidth (by omega) hsmall hends
  have hdigits : (paddedDecimal width n ++ rest).length - rest.length = width := by
    rw [List.length_append]
    omega
  -- No digits are left that would be cut off.
  have hrest : rest.dropWhile isDecimal = rest := hends.dropWhile_eq
  show (number 9 (paddedDecimal width n ++ rest) >>= _) = _
  rw [hnumber, Option.bind_eq_bind, Option.bind_some]
  dsimp only
  rw [hdigits, hrest]

/-- **A written fraction** is exact. -/
theorem fraction_renderFraction {nano : Nat} (h : nano < nanosPerSecond) :
    fraction (renderFraction nano ++ ['Z']) = some (nano, ['Z']) := by
  have hends : Stops isDecimal ['Z'] := stops_cons (by decide) []
  unfold nanosPerSecond at h
  unfold renderFraction
  by_cases hnone : nano = 0
  · rw [if_pos hnone, hnone]
    rfl
  rw [if_neg hnone]
  by_cases hmillis : nano % 1000000 = 0
  · have hnano : nano / 1000000 * 10 ^ (9 - 3) = nano := by omega
    rw [if_pos hmillis, List.cons_append,
      fraction_paddedDecimal (by decide) (by decide) (by omega) hends, hnano]
  rw [if_neg hmillis]
  by_cases hmicros : nano % 1000 = 0
  · have hnano : nano / 1000 * 10 ^ (9 - 6) = nano := by omega
    rw [if_pos hmicros, List.cons_append,
      fraction_paddedDecimal (by decide) (by decide) (by omega) hends, hnano]
  · have hnano : nano * 10 ^ (9 - 9) = nano := Nat.mul_one nano
    rw [if_neg hmicros, List.cons_append,
      fraction_paddedDecimal (by decide) (by decide) (by omega) hends, hnano]

theorem stops_renderFraction (nano : Nat) : Stops isDecimal (renderFraction nano ++ ['Z']) := by
  unfold renderFraction
  split
  · exact stops_cons (by decide) []
  split
  · exact stops_cons (by decide) _
  split <;> exact stops_cons (by decide) _

end parts

/-! ## Instants -/

/-- **A date and a time of the day**, in the written form. -/
theorem ofList?_written {date : Date} {hour minute second nano : Nat} (hdate : date.isValid = true)
    (hyear : -262143 ≤ date.year ∧ date.year ≤ 262142) (hhour : hour ≤ 23) (hminute : minute ≤ 59)
    (hsecond : second ≤ 59) (hnano : nano < nanosPerSecond) :
    ofList? (renderYear date.year ++ '-' :: (paddedDecimal 2 date.month ++
      '-' :: (paddedDecimal 2 date.day ++ 'T' :: (paddedDecimal 2 hour ++
        ':' :: (paddedDecimal 2 minute ++ ':' :: (paddedDecimal 2 second ++
          (renderFraction nano ++ ['Z']))))))) =
      make? (date.dayNumber * 86400 + (hour * 3600 + minute * 60 + second : Nat)) nano := by
  obtain ⟨hmonth, hmonth', hday, hday'⟩ := Date.bounds_of_isValid hdate
  unfold ofList?
  simp only [Option.bind_eq_bind]
  -- Each part ends at the mark before the next one: first the date, then the time of the day.
  rw [year_renderYear (by omega) (stops_cons (by decide) _), Option.bind_some,
    literal_cons (by decide), Option.bind_some,
    bounded_paddedDecimal hmonth hmonth' (by omega) (stops_cons (by decide) _), Option.bind_some,
    literal_cons (by decide), Option.bind_some,
    bounded_paddedDecimal hday hday' (by omega) (stops_cons (by decide) _), Option.bind_some]
  show (bounded 0 23 (paddedDecimal 2 hour ++ _)).bind _ = _
  rw [bounded_paddedDecimal (Nat.zero_le _) hhour (by omega) (stops_cons (by decide) _),
    Option.bind_some, literal_cons (by decide), Option.bind_some,
    bounded_paddedDecimal (Nat.zero_le _) hminute (by omega) (stops_cons (by decide) _),
    Option.bind_some, literal_cons (by decide), Option.bind_some,
    bounded_paddedDecimal (Nat.zero_le _) (by omega) (by omega) (stops_renderFraction nano),
    Option.bind_some, fraction_renderFraction hnano, Option.bind_some]
  -- What is left is the letter for UTC, and nothing after it.
  have hutc : offset (trimStart ['Z']) = some (0, []) := rfl
  have hleap : second ≠ 60 := by omega
  rw [hutc, Option.bind_some, if_pos ⟨rfl, hdate, hyear⟩, if_neg hleap, Nat.min_eq_left hsecond,
    Int.sub_zero]

theorem make?_parts (t : Instant) : make? t.second t.nano = some t :=
  dif_pos ⟨t.nano_lt, t.first_le, t.le_last⟩

/-- **A written instant is read back**, unless it is in a leap second. -/
theorem parse?_toString {t : Instant} (h : t.isLeap = false) :
    parse? (toString t) = some t := by
  have hnano : t.nano < nanosPerSecond := by
    simpa [isLeap] using h
  have hfirst := t.first_le
  have hlast := t.le_last
  have hvalid := Date.isValid_ofDayNumber (t.second / 86400)
  have hyear : -262143 ≤ (Date.ofDayNumber (t.second / 86400)).year ∧
      (Date.ofDayNumber (t.second / 86400)).year ≤ 262142 := by
    apply Date.year_ofDayNumber_range <;> omega
  have hclock : (t.second % 86400).toNat < 86400 := by omega
  have hread := ofList?_written hvalid hyear
    (show (t.second % 86400).toNat / 3600 ≤ 23 by omega)
    (show (t.second % 86400).toNat / 60 % 60 ≤ 59 by omega)
    (show (t.second % 86400).toNat % 60 ≤ 59 by omega) hnano
  have hsecond : (t.second / 86400) * 86400 +
      ((t.second % 86400).toNat / 3600 * 3600 + (t.second % 86400).toNat / 60 % 60 * 60 +
        (t.second % 86400).toNat % 60 : Nat) = t.second := by omega
  rw [Date.dayNumber_ofDayNumber, hsecond, make?_parts] at hread
  show ofList? (String.ofList t.render).toList = some t
  rw [String.toList_ofList, ← hread]
  unfold render
  rw [Nat.mod_eq_of_lt hnano, h]
  simp

end OrderFlow.Instant
