import Mathlib.Order.Defs.LinearOrder
import OrderFlow.Time.Instant

/-! # Instants are linearly ordered

    Instants are compared by their second and then by their nanosecond.
    This is a linear order, and its maximum and minimum are the ones that
    stamps are made with.

    Outside of leap seconds an instant is its number of nanoseconds (`Instant.IsAt`).
    A later one is at the sum, cut off at the latest instant there is, and an earlier
    one at the difference, cut off at the earliest. -/

namespace OrderFlow

theorem Instant.eq_of_parts {a b : Instant} (hsecond : a.second = b.second)
    (hnano : a.nano = b.nano) : a = b := by
  cases a
  cases b
  cases hsecond
  cases hnano
  rfl

theorem Instant.le_antisymm {a b : Instant} (hab : a ≤ b) (hba : b ≤ a) : a = b := by
  change ¬ (_ ∨ _) at hab hba
  exact eq_of_parts (by omega) (by omega)

instance : LinearOrder Instant where
  le_refl a := by
    show ¬ (_ ∨ _)
    omega
  le_trans a b c hab hbc := by
    change ¬ (_ ∨ _) at hab hbc
    show ¬ (_ ∨ _)
    omega
  le_antisymm a b := Instant.le_antisymm
  le_total a b := by
    show ¬ (_ ∨ _) ∨ ¬ (_ ∨ _)
    omega
  lt_iff_le_not_ge a b := by
    show (_ ∨ _) ↔ ¬ (_ ∨ _) ∧ ¬ ¬ (_ ∨ _)
    omega
  toDecidableLE := inferInstance
  toDecidableLT := inferInstance
  max_def a b := by
    show (if a < b then b else a) = if ¬ b < a then b else a
    by_cases hab : a < b
    · have hba : ¬ b < a := by
        change (_ ∨ _) at hab
        show ¬ (_ ∨ _)
        omega
      rw [if_pos hab, if_pos hba]
    · by_cases hba : b < a
      · rw [if_neg hab, if_neg (not_not_intro hba)]
      · -- Neither is earlier, so they are the same.
        rw [if_neg hab, if_pos hba]
        exact Instant.le_antisymm hba hab
  min_def a b := by
    show (if b < a then b else a) = if ¬ b < a then a else b
    by_cases hba : b < a
    · rw [if_pos hba, if_neg (not_not_intro hba)]
    · rw [if_neg hba, if_pos hba]

/-! ## The last instant -/

namespace Instant

/-- The last instant there is, at the end of a leap second. -/
def endOfTime : Instant :=
  { latest with
    nano := 1999999999
    nano_lt := by decide }

theorem le_endOfTime (t : Instant) : t ≤ endOfTime := by
  have hsecond := t.le_last
  have hnano := t.nano_lt
  show ¬ (8210266876799 < t.second ∨ 8210266876799 = t.second ∧ 1999999999 < t.nano)
  omega

theorem earlier_endOfTime : endOfTime.earlier ⟨0⟩ = endOfTime := by
  decide

/-! ## Instants as numbers -/

/-- **The instant at `n`** nanoseconds after 1970-01-01T00:00:00Z, outside of leap seconds:
    there is at most one. -/
structure IsAt (t : Instant) (n : Int) : Prop where
  isLeap : t.isLeap = false
  toNanos : t.toNanos = n

variable {t u : Instant} {m n : Int}

theorem isAt_toNanos (h : t.isLeap = false) : t.IsAt t.toNanos := ⟨h, rfl⟩

theorem toNanos_earliest : earliest.toNanos = -8334601228800000000000 := by decide

theorem toNanos_latest : latest.toNanos = 8210266876799999999999 := by decide

theorem IsAt.nano_lt (h : t.IsAt n) : t.nano < 1000000000 := by
  have hleap := h.isLeap
  unfold Instant.isLeap nanosPerSecond at hleap
  simpa using hleap

/-- **Earlier instants** are those at smaller numbers. -/
theorem IsAt.lt_iff (ht : t.IsAt m) (hu : u.IsAt n) : t < u ↔ m < n := by
  have htnano := ht.nano_lt
  have hunano := hu.nano_lt
  rw [← ht.toNanos, ← hu.toNanos]
  unfold Instant.toNanos nanosPerSecond
  show (_ ∨ _) ↔ _
  omega

theorem IsAt.le_iff (ht : t.IsAt m) (hu : u.IsAt n) : t ≤ u ↔ m ≤ n := by
  rw [← not_lt, hu.lt_iff ht, Int.not_lt]

theorem IsAt.unique (ht : t.IsAt n) (hu : u.IsAt n) : t = u :=
  Instant.le_antisymm ((ht.le_iff hu).mpr (Int.le_refl n)) ((hu.le_iff ht).mpr (Int.le_refl n))

theorem earliest_le_toNanos (t : Instant) : earliest.toNanos ≤ t.toNanos := by
  have hfirst := t.first_le
  rw [toNanos_earliest]
  unfold toNanos nanosPerSecond
  omega

theorem toNanos_le_latest (h : t.isLeap = false) : t.toNanos ≤ latest.toNanos := by
  have hlast := t.le_last
  have hnano := (isAt_toNanos h).nano_lt
  rw [toNanos_latest]
  unfold toNanos nanosPerSecond
  omega

/-- No instant is that early. -/
theorem ofNanos?_of_lt (h : n < earliest.toNanos) : ofNanos? n = none := by
  rw [toNanos_earliest] at h
  unfold ofNanos? make? nanosPerSecond
  rw [dif_neg]
  omega

/-- No instant is that late. -/
theorem ofNanos?_of_gt (h : latest.toNanos < n) : ofNanos? n = none := by
  rw [toNanos_latest] at h
  unfold ofNanos? make? nanosPerSecond
  rw [dif_neg]
  omega

/-- There is an instant at every number in between. -/
theorem exists_isAt (hfirst : earliest.toNanos ≤ n) (hlast : n ≤ latest.toNanos) :
    ∃ t, ofNanos? n = some t ∧ t.IsAt n := by
  rw [toNanos_earliest] at hfirst
  rw [toNanos_latest] at hlast
  have hrange : (n % nanosPerSecond).toNat < 2000000000 ∧ -8334601228800 ≤ n / nanosPerSecond ∧
      n / nanosPerSecond ≤ 8210266876799 := by
    unfold nanosPerSecond
    omega
  refine ⟨⟨n / nanosPerSecond, (n % nanosPerSecond).toNat, hrange.1, hrange.2.1, hrange.2.2⟩,
    dif_pos hrange, ?_, ?_⟩
  · apply decide_eq_false
    show ¬ nanosPerSecond ≤ (n % nanosPerSecond).toNat
    unfold nanosPerSecond
    omega
  · unfold toNanos nanosPerSecond
    dsimp only
    omega

/-! ## Later and earlier instants -/

/-- **A later instant** is at the sum, or it is the latest one if that is over.  (Outside of
    leap seconds.) -/
theorem isAt_later (h : t.isLeap = false) (d : Duration) :
    (t.later d).IsAt (min (t.toNanos + d.nanoseconds) latest.toNanos) := by
  have hnano : t.nano < nanosPerSecond := (isAt_toNanos h).nano_lt
  have hsum : t.second * nanosPerSecond + (t.nano % nanosPerSecond + d.nanoseconds : Nat) =
      t.toNanos + d.nanoseconds := by
    rw [Nat.mod_eq_of_lt hnano]
    unfold toNanos
    omega
  have hfirst := earliest_le_toNanos t
  unfold later
  rw [dif_neg (by simp [h]), hsum]
  by_cases hlast : t.toNanos + d.nanoseconds ≤ latest.toNanos
  · obtain ⟨t', ht', hat⟩ := exists_isAt (by omega) hlast
    rw [ht', Option.getD_some, Int.min_eq_left hlast]
    exact hat
  · rw [ofNanos?_of_gt (by omega), Option.getD_none, Int.min_eq_right (by omega)]
    exact isAt_toNanos (by decide)

/-- **An earlier instant** is at the difference, or it is the earliest one if that is over.
    (Outside of leap seconds.) -/
theorem isAt_earlier (h : t.isLeap = false) (d : Duration) :
    (t.earlier d).IsAt (max (t.toNanos - d.nanoseconds) earliest.toNanos) := by
  have hlast := toNanos_le_latest h
  unfold earlier
  rw [if_neg (by simp [h])]
  by_cases hfirst : earliest.toNanos ≤ t.toNanos - d.nanoseconds
  · obtain ⟨t', ht', hat⟩ := exists_isAt hfirst (by omega)
    rw [ht', Option.getD_some, Int.max_eq_left hfirst]
    exact hat
  · rw [ofNanos?_of_lt (by omega), Option.getD_none, Int.max_eq_right (by omega)]
    exact isAt_toNanos (by decide)

theorem toNanos_later (h : t.isLeap = false) (d : Duration) :
    (t.later d).toNanos = min (t.toNanos + d.nanoseconds) latest.toNanos :=
  (isAt_later h d).toNanos

end Instant

end OrderFlow
