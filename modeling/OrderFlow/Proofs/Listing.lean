import Mathlib.Data.List.Sort
import Mathlib.Data.Prod.Lex
import OrderFlow.Proofs.Instant
import OrderFlow.Proofs.Table
import OrderFlow.Store.Basic

/-! # Listings

    A listing is sorted by a key that no two of its items share, so it is
    in strict order; and two listings of the same items are the same list,
    in whatever order the items came. -/

namespace OrderFlow

section sorted
variable {α κ : Type} {le : α → α → Bool} {key : α → κ}

theorem insertBy_eq_orderedInsert (le : α → α → Bool) (a : α) (l : List α) :
    insertBy le a l = l.orderedInsert (fun a b => le a b = true) a := by
  induction l with
  | nil => rfl
  | cons b rest ih => rw [insertBy, ih, List.orderedInsert_cons]

/-- Listings are sorted by insertion. -/
theorem sortBy_eq_insertionSort (le : α → α → Bool) (l : List α) :
    sortBy le l = l.insertionSort fun a b => le a b = true := by
  induction l with
  | nil => rfl
  | cons a rest ih => rw [sortBy, ih, insertBy_eq_orderedInsert, List.insertionSort_cons]

variable [LinearOrder κ]

/-- A listing by a key is in order. -/
theorem pairwise_le_sortBy (hle : ∀ a b, le a b = true ↔ key a ≤ key b) (l : List α) :
    (sortBy le l).Pairwise fun a b => key a ≤ key b := by
  have : Std.Total fun a b => le a b = true := by
    refine ⟨fun a b => ?_⟩
    rw [hle, hle]
    exact le_total (key a) (key b)
  have : IsTrans α fun a b => le a b = true := by
    refine ⟨fun a b c hab hbc => ?_⟩
    rw [hle] at hab hbc ⊢
    exact hab.trans hbc
  rw [sortBy_eq_insertionSort]
  exact (List.pairwise_insertionSort _ l).imp (hle _ _).mp

/-- A listing by a key that no two items share is in strict order. -/
theorem pairwise_lt_sortBy (hle : ∀ a b, le a b = true ↔ key a ≤ key b) {l : List α}
    (h : (l.map key).Nodup) : (sortBy le l).Pairwise fun a b => key a < key b := by
  have hdistinct : (sortBy le l).Pairwise fun a b => key a ≠ key b := by
    rw [← List.pairwise_map (f := key) (R := (· ≠ ·)), sortBy_eq_insertionSort]
    exact ((List.perm_insertionSort _ l).map key).nodup_iff.mpr h
  refine ((pairwise_le_sortBy hle l).and hdistinct).imp ?_
  rintro a b ⟨hab, hne⟩
  exact lt_of_le_of_ne hab hne

/-- Two listings of the same items are the same. -/
theorem eq_of_pairwise_lt {l l' : List α} (h : l.Pairwise fun a b => key a < key b)
    (h' : l'.Pairwise fun a b => key a < key b) (hmem : ∀ a, a ∈ l ↔ a ∈ l') : l = l' := by
  have hnodup {m : List α} (hm : m.Pairwise fun a b => key a < key b) : m.Nodup := by
    refine List.Pairwise.imp ?_ hm
    rintro a _ hab rfl
    exact lt_irrefl _ hab
  have hperm : l.Perm l' := (List.perm_ext_iff_of_nodup (hnodup h) (hnodup h')).mpr hmem
  exact hperm.eq_of_pairwise (fun a b _ _ hab hba => absurd hab (lt_asymm hba)) h h'

end sorted

/-! ## Items that are found by an id -/

section found
variable {α ι : Type} [DecidableEq ι] {id : α → ι}

/-- In a listing without repeated ids an item is found by its id. -/
theorem find?_id_eq_some_iff {l : List α} (h : (l.map id).Nodup) {i : ι} {a : α} :
    l.find? (fun b => id b = i) = some a ↔ a ∈ l ∧ id a = i := by
  constructor
  · intro hfound
    exact ⟨List.mem_of_find?_eq_some hfound, by simpa using List.find?_some hfound⟩
  · rintro ⟨ha, rfl⟩
    induction l with
    | nil => cases ha
    | cons b rest ih =>
      rw [List.map_cons, List.nodup_cons] at h
      rcases List.mem_cons.mp ha with rfl | ha
      · exact List.find?_cons_of_pos (by simp)
      · -- The id comes later, so it is not the first one's.
        have hne : ¬ id b = id a := fun heq => h.1 (heq ▸ List.mem_map_of_mem ha)
        rw [List.find?_cons_of_neg (by simpa using hne)]
        exact ih h.2 ha

/-- What is committed and shown, with what is staged and hides it: no id comes
    twice. -/
theorem Table.Keyed.nodup_overlay {t : Table ι α} (h : t.Keyed id) (shown : ι → Bool)
    {staged : List α} (hstaged : (staged.map id).Nodup)
    (hhides : ∀ a ∈ staged, shown (id a) = false) :
    ((t.values.filter (fun a => shown (id a)) ++ staged).map id).Nodup := by
  rw [List.map_append, List.nodup_append]
  refine ⟨?_, hstaged, ?_⟩
  · have hvalues : (t.values.map id).Nodup := by
      rw [h.map_values]
      exact h.distinct
    exact (List.filter_sublist.map id).nodup hvalues
  · rintro i hi j hj rfl
    obtain ⟨a, ha, rfl⟩ := List.mem_map.mp hi
    obtain ⟨b, hb, heq⟩ := List.mem_map.mp hj
    have hshown := (List.mem_filter.mp ha).2
    rw [← heq, hhides b hb] at hshown
    cases hshown

end found

/-! ## Rows and letters -/

theorem Uuid.toNat_inj {a b : Uuid} (h : a.toNat = b.toNat) : a = b := by
  cases a
  cases b
  exact congrArg Uuid.mk (BitVec.eq_of_toNat_eq h)

/-- By what rows are listed: their age and then their id. -/
def OutboxRow.listingKey (e : OutboxRow) : Instant ×ₗ Nat :=
  toLex (e.createdAt, e.id.uuid.toNat)

/-- By what dead letters are listed: how new they are and then their order's id. -/
def DeadLetter.listingKey (d : DeadLetter) : Instantᵒᵈ ×ₗ Nat :=
  toLex (OrderDual.toDual d.failedAt, d.order.uuid.toNat)

theorem OutboxRow.olderOrEqual_iff (a b : OutboxRow) :
    a.olderOrEqual b = true ↔ a.listingKey ≤ b.listingKey := by
  have hids : (compare a.id b.id).isLE = true ↔ a.id.uuid.toNat ≤ b.id.uuid.toNat :=
    Nat.isLE_compare
  unfold olderOrEqual listingKey
  rw [Prod.Lex.toLex_le_toLex]
  rcases lt_trichotomy a.createdAt b.createdAt with h | h | h
  · simp [h]
  · simp [h, hids]
  · simp [h, lt_asymm h, ne_of_gt h]

theorem DeadLetter.newerOrEqual_iff (a b : DeadLetter) :
    a.newerOrEqual b = true ↔ a.listingKey ≤ b.listingKey := by
  have hids : (compare a.order b.order).isLE = true ↔ a.order.uuid.toNat ≤ b.order.uuid.toNat :=
    Nat.isLE_compare
  unfold newerOrEqual listingKey
  rw [Prod.Lex.toLex_le_toLex]
  rcases lt_trichotomy a.failedAt b.failedAt with h | h | h
  · simp [h, lt_asymm h, ne_of_lt h]
  · simp [h, hids]
  · simp [h]

theorem OutboxRow.id_of_listingKey {a b : OutboxRow} (h : a.listingKey = b.listingKey) :
    a.id = b.id := by
  have hid : a.id.uuid = b.id.uuid := Uuid.toNat_inj (congrArg (fun k => (ofLex k).2) h)
  exact congrArg RowId.mk hid

theorem DeadLetter.order_of_listingKey {a b : DeadLetter} (h : a.listingKey = b.listingKey) :
    a.order = b.order := by
  have hid : a.order.uuid = b.order.uuid := Uuid.toNat_inj (congrArg (fun k => (ofLex k).2) h)
  exact congrArg OrderId.mk hid

theorem Store.sortRows_perm (rows : List OutboxRow) : (sortRows rows).Perm rows := by
  unfold sortRows
  rw [sortBy_eq_insertionSort]
  exact List.perm_insertionSort _ rows

theorem Store.sortLetters_perm (letters : List DeadLetter) :
    (sortLetters letters).Perm letters := by
  unfold sortLetters
  rw [sortBy_eq_insertionSort]
  exact List.perm_insertionSort _ letters

/-- A listing of rows without repeated ids is in strict order. -/
theorem Store.pairwise_sortRows {rows : List OutboxRow} (h : (rows.map (·.id)).Nodup) :
    (sortRows rows).Pairwise fun a b => a.listingKey < b.listingKey := by
  refine pairwise_lt_sortBy OutboxRow.olderOrEqual_iff ?_
  rw [List.Nodup, List.pairwise_map] at h ⊢
  exact h.imp fun hne heq => hne (OutboxRow.id_of_listingKey heq)

/-- A listing of letters without repeated orders is in strict order. -/
theorem Store.pairwise_sortLetters {letters : List DeadLetter}
    (h : (letters.map (·.order)).Nodup) :
    (sortLetters letters).Pairwise fun a b => a.listingKey < b.listingKey := by
  refine pairwise_lt_sortBy DeadLetter.newerOrEqual_iff ?_
  rw [List.Nodup, List.pairwise_map] at h ⊢
  exact h.imp fun hne heq => hne (DeadLetter.order_of_listingKey heq)

end OrderFlow
