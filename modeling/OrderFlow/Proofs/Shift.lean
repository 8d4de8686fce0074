import OrderFlow.Proofs.Instant
import OrderFlow.Proofs.Stored

/-! # Shifts that saturate

    A shift goes through steps that can fail: the duration becomes a span with a
    direction, which holds no more than 63 bits of milliseconds, and then the span
    takes one instant to another, if there is one.  When either fails, a shift forward
    ends at the latest instant and a shift backward at the earliest.

    Both failures mean the same.  A duration that is no span is longer than the time
    from the first instant to the last (`Span.time_lt_longest`), so it leads out of the
    range from wherever it starts.  Hence a shift is the exact sum or difference, cut
    off at the end that it runs into, and what is shifted by a configured delay or
    timeout, however long, is due or stale exactly when the numbers say so. -/

namespace OrderFlow

open Data

/-! ## Spans -/

/-- The nanoseconds in the longest span, which has `2 ^ 63 - 1` milliseconds. -/
def Span.longest : Nat := (2 ^ 63 - 1) * 1000000

/-- A span of time with a direction; backward is negative. -/
structure Span where
  /-- Its length in nanoseconds. -/
  nanoseconds : Int
  /-- No span is longer than the longest one. -/
  natAbs_le : nanoseconds.natAbs ≤ Span.longest
  deriving DecidableEq

namespace Span

/-- The span forward of a duration, unless it is too long. -/
def ofDuration? (d : Duration) : Option Span :=
  if h : d.nanoseconds ≤ longest then some ⟨d.nanoseconds, h⟩ else none

/-- The span in the other direction. -/
def reverse (s : Span) : Span :=
  ⟨-s.nanoseconds, (Int.natAbs_neg s.nanoseconds).symm ▸ s.natAbs_le⟩

/-- **The longest span** leads past all of time. -/
theorem time_lt_longest : Instant.latest.toNanos - Instant.earliest.toNanos < longest := by
  decide

end Span

/-! ## Shifts -/

namespace Instant

variable {t u : Instant} {d e : Duration}

/-- The instant to which a span leads, if there is one.  A leap second that the span leaves
    forward counts for no more than the second before it. -/
def plus? (t : Instant) (s : Span) : Option Instant :=
  if t.isLeap ∧ nanosPerSecond ≤ t.nano + s.nanoseconds ∧
      t.nano + s.nanoseconds < 2000000000 then
    make? t.second (t.nano + s.nanoseconds).toNat
  else if t.isLeap ∧ 0 < s.nanoseconds then
    ofNanos? (t.second * nanosPerSecond + (t.nano - nanosPerSecond : Nat) + s.nanoseconds)
  else
    ofNanos? (t.toNanos + s.nanoseconds)

/-- A shift by the duration `d`, made step by step; a step that fails ends it. -/
def shift (forward : Bool) (t : Instant) (d : Duration) : Instant :=
  let span := Span.ofDuration? d
  let shifted :=
    if forward then span.bind t.plus? else span.bind fun s => t.plus? s.reverse
  shifted.getD (if forward then latest else earliest)

/-- A duration that is no span leads past the latest instant. -/
theorem later_of_long (h : Span.longest < d.nanoseconds) : t.later d = latest := by
  have htime := Span.time_lt_longest
  have hfirst := t.first_le
  have hleap : ¬ (t.isLeap ∧ t.nano + d.nanoseconds < 2000000000) := by
    unfold Span.longest at h
    omega
  unfold later
  rw [dif_neg hleap, ofNanos?_of_gt, Option.getD_none]
  rw [toNanos_earliest] at htime
  unfold nanosPerSecond
  omega

/-- A duration that is no span leads before the earliest instant. -/
theorem earlier_of_long (h : Span.longest < d.nanoseconds) : t.earlier d = earliest := by
  have htime := Span.time_lt_longest
  have hlast := t.le_last
  have hnano := t.nano_lt
  have hleap : ¬ (t.isLeap ∧ nanosPerSecond + d.nanoseconds ≤ t.nano) := by
    unfold Span.longest at h
    omega
  unfold earlier
  rw [if_neg hleap, ofNanos?_of_lt, Option.getD_none]
  rw [toNanos_latest, toNanos_earliest] at htime
  unfold Span.longest at h
  rw [toNanos_earliest]
  unfold toNanos nanosPerSecond
  omega

theorem make?_second {nano : Nat} (t : Instant) (h : nano < 2000000000) :
    make? t.second nano = some { t with nano := nano, nano_lt := h } :=
  dif_pos ⟨h, t.first_le, t.le_last⟩

/-- A span forward leads to the later instant, or past all of them. -/
theorem plus?_forward (t : Instant) (h : d.nanoseconds ≤ Span.longest) :
    (t.plus? ⟨d.nanoseconds, h⟩).getD latest = t.later d := by
  have hnano := t.nano_lt
  unfold plus? later
  dsimp only
  -- Only inside a leap second is the start not simply a number.
  by_cases hleap : t.isLeap = true
  · have hfull : nanosPerSecond ≤ t.nano := of_decide_eq_true hleap
    by_cases hstays : t.nano + d.nanoseconds < 2000000000
    · have hsum : ((t.nano : Int) + d.nanoseconds).toNat = t.nano + d.nanoseconds := by omega
      rw [if_pos ⟨hleap, by omega, by omega⟩, dif_pos ⟨hleap, hstays⟩, hsum,
        make?_second t hstays, Option.getD_some]
    · -- The leap second is over, and what had passed of it counts for the second before it.
      have hpassed : t.nano % nanosPerSecond = t.nano - nanosPerSecond := by
        unfold nanosPerSecond at hfull ⊢
        omega
      rw [if_neg (by omega), if_pos ⟨hleap, by omega⟩, dif_neg (by omega), hpassed]
      congr 2
      omega
  · have hwithin : t.nano % nanosPerSecond = t.nano :=
      Nat.mod_eq_of_lt (isAt_toNanos (by simpa using hleap)).nano_lt
    rw [if_neg (by simp [hleap]), if_neg (by simp [hleap]), dif_neg (by simp [hleap]), hwithin]
    unfold toNanos
    congr 2
    omega

/-- A span backward leads to the earlier instant, or before all of them. -/
theorem plus?_backward (t : Instant) (h : d.nanoseconds ≤ Span.longest) :
    (t.plus? (Span.reverse ⟨d.nanoseconds, h⟩)).getD earliest = t.earlier d := by
  have hnano := t.nano_lt
  unfold plus? earlier Span.reverse
  dsimp only
  by_cases hstays : t.isLeap ∧ nanosPerSecond + d.nanoseconds ≤ t.nano
  · have hdifference : ((t.nano : Int) + -d.nanoseconds).toNat = t.nano - d.nanoseconds := by omega
    rw [if_pos ⟨hstays.1, by omega, by omega⟩, if_pos hstays, hdifference,
      make?_second t (by omega), Option.getD_some]
  · have hleaves : ¬ (t.isLeap ∧ nanosPerSecond ≤ (t.nano : Int) + -d.nanoseconds ∧
        (t.nano : Int) + -d.nanoseconds < 2000000000) := fun h => hstays ⟨h.1, by omega⟩
    rw [if_neg hleaves, if_neg (by omega), if_neg hstays]
    rfl

/-- **Forward**, the steps lead to the later instant. -/
theorem shift_true (t : Instant) (d : Duration) : t.shift true d = t.later d := by
  unfold shift Span.ofDuration?
  by_cases hlong : d.nanoseconds ≤ Span.longest
  · rw [dif_pos hlong]
    exact plus?_forward t hlong
  · rw [dif_neg hlong, later_of_long (by omega)]
    rfl

/-- **Backward**, the steps lead to the earlier instant. -/
theorem shift_false (t : Instant) (d : Duration) : t.shift false d = t.earlier d := by
  unfold shift Span.ofDuration?
  by_cases hlong : d.nanoseconds ≤ Span.longest
  · rw [dif_pos hlong]
    exact plus?_backward t hlong
  · rw [dif_neg hlong, earlier_of_long (by omega)]
    rfl

/-! ## What a shift keeps -/

/-- A later instant is **never before** the instant itself. -/
theorem le_later (h : t.isLeap = false) (d : Duration) : t ≤ t.later d := by
  have hlast := toNanos_le_latest h
  rw [(isAt_toNanos h).le_iff (isAt_later h d)]
  omega

/-- An earlier instant is **never after** the instant itself. -/
theorem earlier_le (h : t.isLeap = false) (d : Duration) : t.earlier d ≤ t := by
  have hfirst := earliest_le_toNanos t
  rw [(isAt_earlier h d).le_iff (isAt_toNanos h)]
  omega

/-- **Monotone**: from a later start, or by a longer duration, a shift leads no less far. -/
theorem later_le_later (ht : t.isLeap = false) (hu : u.isLeap = false) (htu : t ≤ u)
    (hde : d.nanoseconds ≤ e.nanoseconds) : t.later d ≤ u.later e := by
  rw [(isAt_toNanos ht).le_iff (isAt_toNanos hu)] at htu
  rw [(isAt_later ht d).le_iff (isAt_later hu e)]
  omega

/-- What is before an earlier instant is more than the duration ago.  The cut at the earliest
    instant is never seen, since nothing is before that. -/
theorem lt_earlier_iff (hu : u.isLeap = false) (ht : t.isLeap = false) :
    u < t.earlier d ↔ u.toNanos + d.nanoseconds < t.toNanos := by
  have hfirst := earliest_le_toNanos u
  rw [(isAt_toNanos hu).lt_iff (isAt_earlier ht d)]
  omega

end Instant

/-! ## Stale leases and rows put off -/

/-- **A lease is stale** when more than the timeout has passed, in exact numbers. -/
theorem OutboxRow.isStale_earlier_iff {e : OutboxRow} {now : Instant}
    (hlease : ∀ s ∈ e.lockedAt, s.isLeap = false) (hnow : now.isLeap = false) (d : Duration) :
    e.isStale (now.earlier d) = true ↔
      e.status = .processing ∧ ∃ s ∈ e.lockedAt, s.toNanos + d.nanoseconds < now.toNanos := by
  unfold isStale
  rw [decide_eq_true_eq]
  constructor
  · rintro ⟨hstatus, s, hs, hold⟩
    exact ⟨hstatus, s, hs, (Instant.lt_earlier_iff (hlease s hs) hnow).mp hold⟩
  · rintro ⟨hstatus, s, hs, hold⟩
    exact ⟨hstatus, s, hs, (Instant.lt_earlier_iff (hlease s hs) hnow).mpr hold⟩

/-- **A row that was put off is due** when the delay has passed, in exact numbers, or at the
    latest instant. -/
theorem OutboxRow.isDue_postpone_iff {now u : Instant} (hnow : now.isLeap = false)
    (hu : u.isLeap = false) (e : OutboxRow) (d : Duration) (error : String) :
    (e.postpone (now.later d) error).isDue u = true ↔
      min (now.toNanos + d.nanoseconds) Instant.latest.toNanos ≤ u.toNanos := by
  rw [← (Instant.isAt_later hnow d).le_iff (Instant.isAt_toNanos hu)]
  unfold isDue
  rw [decide_eq_true_eq]
  exact and_iff_right rfl

/-! ## Configured delays and timeouts -/

/-- The longest duration: the seconds have 64 bits, and there are the nanoseconds of one more. -/
def Duration.longest : Duration := ⟨(2 ^ 64 - 1) * 1000000000 + 999999999⟩

theorem Duration.ofSeconds_le_longest {n : Nat} (h : n < countBound) :
    (ofSeconds n).nanoseconds ≤ longest.nanoseconds := by
  unfold countBound at h
  unfold ofSeconds longest
  dsimp only
  omega

theorem Duration.ofMilliseconds_le_longest {n : Nat} (h : n < countBound) :
    (ofMilliseconds n).nanoseconds ≤ longest.nanoseconds := by
  unfold countBound at h
  unfold ofMilliseconds longest
  dsimp only
  omega

/-- **A delay has 64 bits**, as its policy's settings have, however often it was doubled. -/
theorem RetryPolicy.delayMillis_lt {p : RetryPolicy} (h : p.Writable) (attempt : Nat) :
    p.delayMillis attempt < countBound := by
  cases p with
  | fixed delay => exact h
  | exponential base cap => exact Nat.lt_of_le_of_lt (Nat.min_le_right _ _) h.2

/-- **Shifts saturate exactly.**  For any time outside of leap seconds and any duration:

    * the later instant is at the exact sum, or at the latest instant if that is over; and it is
      where the shift leads that is made step by step, whichever step fails;
    * the earlier instant is at the exact difference, or at the earliest instant if that is
      over; and it is where the shift leads that is made step by step;
    * later instants are monotone in time and duration and never before the time, and earlier
      ones are never after it;
    * every lock timeout that a configuration can hold is a duration, and a lease is stale under
      it exactly when more than the timeout has passed since;
    * every delay of a retry policy with settings of 64 bits is a duration, and a row that is put
      off by it is due exactly when it has passed, or at the latest instant. -/
theorem Instant.shifts_saturate {now : Instant} (hnow : now.isLeap = false) (d : Duration) :
    (now.shift true d = now.later d ∧
      (now.later d).IsAt (min (now.toNanos + d.nanoseconds) latest.toNanos)) ∧
    (now.shift false d = now.earlier d ∧
      (now.earlier d).IsAt (max (now.toNanos - d.nanoseconds) earliest.toNanos)) ∧
    (∀ (u : Instant) (e : Duration), u.isLeap = false → now ≤ u →
      d.nanoseconds ≤ e.nanoseconds → now.later d ≤ u.later e) ∧
    (now ≤ now.later d ∧ now.earlier d ≤ now) ∧
    (∀ c : Config, c.outboxLockTimeoutSecs < countBound →
      c.outboxLockTimeout.nanoseconds ≤ Duration.longest.nanoseconds ∧
      ∀ row : OutboxRow, (∀ s ∈ row.lockedAt, s.isLeap = false) →
        (row.isStale (now.earlier c.outboxLockTimeout) = true ↔
          row.status = .processing ∧ ∃ s ∈ row.lockedAt,
            s.toNanos + (c.outboxLockTimeoutSecs * 1000000000 : Nat) < now.toNanos)) ∧
    (∀ p : RetryPolicy, p.Writable → ∀ attempt : Nat,
      (p.delayBefore attempt).nanoseconds ≤ Duration.longest.nanoseconds ∧
      ∀ (row : OutboxRow) (error : String) (u : Instant), u.isLeap = false →
        ((row.postpone (now.later (p.delayBefore attempt)) error).isDue u = true ↔
          min (now.toNanos + (p.delayMillis attempt * 1000000 : Nat)) latest.toNanos ≤
            u.toNanos)) := by
  refine ⟨⟨shift_true now d, isAt_later hnow d⟩, ⟨shift_false now d, isAt_earlier hnow d⟩, ?_,
    ⟨le_later hnow d, earlier_le hnow d⟩, ?_, ?_⟩
  · intro u e hu hle hde
    exact later_le_later hnow hu hle hde
  · intro c hc
    refine ⟨Duration.ofSeconds_le_longest hc, fun row hlease => ?_⟩
    exact row.isStale_earlier_iff hlease hnow c.outboxLockTimeout
  · intro p hp attempt
    refine ⟨Duration.ofMilliseconds_le_longest (p.delayMillis_lt hp attempt), ?_⟩
    intro row error u hu
    exact row.isDue_postpone_iff hnow hu (p.delayBefore attempt) error

/-- A configuration with the longest lock timeout and the longest delay. -/
def mostPatient : Config where
  outboxLockTimeoutSecs := 2 ^ 64 - 1
  outboxRetry := .fixed (2 ^ 64 - 1)

/-- A row that was leased at the earliest instant there is. -/
def oldestLease : OutboxRow :=
  (OutboxRow.fresh ⟨.versionFour 0⟩ ⟨.versionFour 1⟩ OutboxRow.orderCreatedType ""
    .earliest).lease .earliest "worker"

/-- In 2024 and with the longest settings: the shifts end at both ends of time, not even the
    oldest lease is stale, and a row that was put off is due at the latest instant. -/
theorem Instant.shifts_saturate_longest : newYear2024.isLeap = false ∧
    (newYear2024.later .longest = latest ∧ newYear2024.earlier .longest = earliest) ∧
    (latest.isLeap = false ∧ newYear2024 ≤ latest ∧
      newYear2024.later .longest ≤ latest.later .longest) ∧
    (mostPatient.outboxLockTimeoutSecs < countBound ∧
      (∀ s ∈ oldestLease.lockedAt, s.isLeap = false) ∧
      oldestLease.isStale (newYear2024.earlier mostPatient.outboxLockTimeout) = false) ∧
    (mostPatient.outboxRetry.Writable ∧
      (oldestLease.postpone (newYear2024.later (mostPatient.outboxRetry.delayBefore 1))
        "timed out").isDue latest = true) := by
  obtain ⟨⟨-, hlater⟩, ⟨-, hearlier⟩, hmonotone, -, htimeout, hdelay⟩ :=
    @shifts_saturate newYear2024 (by decide) Duration.longest
  have hlease : ∀ s ∈ oldestLease.lockedAt, s.isLeap = false := by decide
  refine ⟨by decide,
    ⟨hlater.unique (isAt_toNanos (by decide)), hearlier.unique (isAt_toNanos (by decide))⟩,
    ⟨by decide, by decide, hmonotone latest _ (by decide) (by decide) (Nat.le_refl _)⟩,
    ⟨by decide, hlease, ?_⟩, by decide, ?_⟩
  · rw [Bool.eq_false_iff, ne_eq, (htimeout mostPatient (by decide)).2 oldestLease hlease]
    decide
  · rw [(hdelay mostPatient.outboxRetry (by decide) 1).2 oldestLease _ latest (by decide)]
    decide

end OrderFlow
