import OrderFlow.Table

/-! # What tables say about their keys

    Everything about a table is read through `find?`.  Two facts make the
    list behind it trustworthy: no key comes twice (`Distinct`), and every
    value stands under the key that it carries itself (`Keyed`). -/

namespace OrderFlow.Table

variable {κ ν : Type} [DecidableEq κ]

/-! ## Entries and keys -/

theorem mem_of_find? {t : Table κ ν} {k : κ} {v : ν} (h : t.find? k = some v) : (k, v) ∈ t := by
  induction t with
  | nil => cases h
  | cons e rest ih =>
    obtain ⟨l, w⟩ := e
    by_cases hl : l = k
    · simp only [find?, hl, if_true, Option.some.injEq] at h
      subst hl h
      exact List.mem_cons_self
    · simp only [find?, hl, if_false] at h
      exact List.mem_cons_of_mem _ (ih h)

theorem find?_eq_none_iff {t : Table κ ν} {k : κ} : t.find? k = none ↔ k ∉ t.keys := by
  induction t with
  | nil => simp [find?, keys]
  | cons e rest ih =>
    obtain ⟨l, w⟩ := e
    by_cases hl : l = k
    · simp [find?, keys, hl]
    · have hk : ¬ k = l := fun h => hl h.symm
      simpa [find?, keys, hl, hk] using ih

theorem mem_values_of_find? {t : Table κ ν} {k : κ} {v : ν} (h : t.find? k = some v) :
    v ∈ t.values :=
  List.mem_map.mpr ⟨(k, v), mem_of_find? h, rfl⟩

/-- **No key comes twice.** -/
def Distinct (t : Table κ ν) : Prop :=
  t.keys.Nodup

theorem Distinct.find?_eq_some_iff {t : Table κ ν} (h : t.Distinct) {k : κ} {v : ν} :
    t.find? k = some v ↔ (k, v) ∈ t := by
  constructor
  · exact mem_of_find?
  · intro hm
    induction t with
    | nil => cases hm
    | cons e rest ih =>
      obtain ⟨l, w⟩ := e
      have hnd : l ∉ keys rest ∧ (keys rest).Nodup := List.nodup_cons.mp h
      rcases List.mem_cons.mp hm with heq | hrest
      · cases heq
        simp [find?]
      · -- The key stands in the rest, so it is not the first one as well.
        have hk : k ∈ keys rest := List.mem_map.mpr ⟨(k, v), hrest, rfl⟩
        have hl : l ≠ k := fun heq => hnd.1 (heq ▸ hk)
        simp [find?, hl, ih hnd.2 hrest]

omit [DecidableEq κ] in
theorem distinct_nil : Distinct ([] : Table κ ν) :=
  List.nodup_nil

theorem keys_put (t : Table κ ν) (k : κ) (v : ν) :
    (t.put k v).keys = if k ∈ t.keys then t.keys else t.keys ++ [k] := by
  induction t with
  | nil => simp [put, keys]
  | cons e rest ih =>
    obtain ⟨l, w⟩ := e
    by_cases hl : l = k
    · simp [put, keys, hl]
    · have hk : ¬ k = l := fun h => hl h.symm
      simp only [keys] at ih
      by_cases hm : k ∈ rest.map (·.1)
      · simp only [hm, if_true] at ih
        simp [put, keys, hl, ih, hm]
      · simp only [hm, if_false] at ih
        simp [put, keys, hl, hk, ih, hm]

theorem Distinct.put {t : Table κ ν} (h : t.Distinct) (k : κ) (v : ν) : (t.put k v).Distinct := by
  unfold Distinct at h ⊢
  rw [keys_put]
  split
  · exact h
  · next hk =>
    rw [List.nodup_append]
    refine ⟨h, by simp, ?_⟩
    intro a ha b hb
    rw [List.mem_singleton] at hb
    subst hb
    exact fun heq => hk (heq ▸ ha)

omit [DecidableEq κ] in
theorem Distinct.filter {t : Table κ ν} (h : t.Distinct) (p : κ × ν → Bool) :
    Distinct (List.filter p t) := by
  have hsub : (List.filter p t).Sublist t := List.filter_sublist
  exact (hsub.map Prod.fst).nodup h

theorem Distinct.erase {t : Table κ ν} (h : t.Distinct) (k : κ) : (t.erase k).Distinct :=
  h.filter _

theorem Distinct.putAll {t : Table κ ν} (h : t.Distinct) (staged : Table κ ν) :
    (t.putAll staged).Distinct := by
  unfold Table.putAll
  induction staged generalizing t with
  | nil => exact h
  | cons e rest ih => exact ih (h.put e.1 e.2)

theorem Distinct.settle {t : Table κ ν} (h : t.Distinct) (staged : Table κ (Option ν)) :
    (t.settle staged).Distinct := by
  unfold Table.settle
  induction staged generalizing t with
  | nil => exact h
  | cons e rest ih =>
    obtain ⟨k, v | v⟩ := e
    · exact ih (h.erase k)
    · exact ih (h.put k v)

/-! ## Looking into changed tables -/

/-- Putting back what stands there changes nothing. -/
theorem put_of_find? {t : Table κ ν} {k : κ} {v : ν} (h : t.find? k = some v) : t.put k v = t := by
  induction t with
  | nil => cases h
  | cons e rest ih =>
    obtain ⟨l, w⟩ := e
    by_cases hl : l = k
    · simp only [find?, hl, if_true, Option.some.injEq] at h
      simp [put, hl, h]
    · simp only [find?, hl, if_false] at h
      simp [put, hl, ih h]

/-- A value that is put twice is the one put last. -/
@[simp] theorem put_put (t : Table κ ν) (k : κ) (v w : ν) : (t.put k v).put k w = t.put k w := by
  induction t with
  | nil => simp [put]
  | cons e rest ih =>
    obtain ⟨l, u⟩ := e
    by_cases hl : l = k
    · simp [put, hl]
    · simp [put, hl, ih]

/-- A new key comes last. -/
theorem put_of_find?_none {t : Table κ ν} {k : κ} (h : t.find? k = none) (v : ν) :
    t.put k v = t ++ [(k, v)] := by
  induction t with
  | nil => rfl
  | cons e rest ih =>
    obtain ⟨l, w⟩ := e
    by_cases hl : l = k
    · simp [find?, hl] at h
    · simp only [find?, hl, if_false] at h
      simp [put, hl, ih h]

/-- What is filtered out may be put or replaced: the rest does not change. -/
theorem filter_put {t : Table κ ν} {k : κ} {v : ν} {p : κ × ν → Bool} (hnew : p (k, v) = false)
    (hold : ∀ w, t.find? k = some w → p (k, w) = false) :
    List.filter p (t.put k v) = List.filter p t := by
  induction t with
  | nil => simp [put, hnew]
  | cons e rest ih =>
    obtain ⟨l, w⟩ := e
    by_cases hl : l = k
    · subst hl
      have hw : p (l, w) = false := hold w (by simp [find?])
      simp [put, hnew, hw]
    · have hrest : ∀ w', find? rest k = some w' → p (k, w') = false := by
        intro w' hw'
        exact hold w' (by simpa [find?, hl] using hw')
      simp [put, hl, List.filter_cons, ih hrest]

/-- Taking out what was put leaves what taking it out would have left. -/
theorem erase_put (t : Table κ ν) (k : κ) (v : ν) : (t.put k v).erase k = t.erase k :=
  filter_put (by simp) (by simp)

theorem erase_of_find?_none {t : Table κ ν} {k : κ} (h : t.find? k = none) : t.erase k = t := by
  refine List.filter_eq_self.mpr fun e he => ?_
  have hkey : e.1 ≠ k := by
    rintro rfl
    exact find?_eq_none_iff.mp h (List.mem_map.mpr ⟨e, he, rfl⟩)
  simpa using hkey

theorem Distinct.find?_filter {t : Table κ ν} (h : t.Distinct) (p : κ × ν → Bool) (k : κ) :
    find? (List.filter p t) k = (t.find? k).filter fun v => p (k, v) := by
  cases hk : t.find? k with
  | none =>
    rw [Option.filter_none, find?_eq_none_iff]
    intro hm
    obtain ⟨e, he, heq⟩ := List.mem_map.mp hm
    exact find?_eq_none_iff.mp hk (List.mem_map.mpr ⟨e, (List.mem_filter.mp he).1, heq⟩)
  | some v =>
    have hm : (k, v) ∈ t := mem_of_find? hk
    by_cases hp : p (k, v)
    · rw [Option.filter_some, if_pos hp, (h.filter p).find?_eq_some_iff]
      exact List.mem_filter.mpr ⟨hm, hp⟩
    · -- With two entries of one key the second could come up here.
      rw [Option.filter_some, if_neg hp]
      refine Option.eq_none_iff_forall_ne_some.mpr ?_
      intro w hw
      obtain ⟨hw, hpw⟩ := List.mem_filter.mp (mem_of_find? hw)
      have : t.find? k = some w := h.find?_eq_some_iff.mpr hw
      rw [hk, Option.some.injEq] at this
      exact hp (this ▸ hpw)

/-- A key that is not staged keeps its value. -/
theorem find?_putAll_of_none {t staged : Table κ ν} {k : κ} (h : staged.find? k = none) :
    (t.putAll staged).find? k = t.find? k := by
  unfold putAll
  induction staged generalizing t with
  | nil => rfl
  | cons e rest ih =>
    obtain ⟨l, w⟩ := e
    by_cases hl : l = k
    · simp [find?, hl] at h
    · simp only [find?, hl, if_false] at h
      rw [List.foldl_cons, ih h, find?_put, if_neg hl]

/-- Staged values come before those of the table. -/
theorem find?_putAll {t staged : Table κ ν} (h : staged.Distinct) (k : κ) :
    (t.putAll staged).find? k = (staged.find? k).or (t.find? k) := by
  cases hk : staged.find? k with
  | none => rw [find?_putAll_of_none hk, Option.none_or]
  | some v =>
    rw [Option.some_or]
    unfold putAll
    induction staged generalizing t with
    | nil => cases hk
    | cons e rest ih =>
      obtain ⟨l, w⟩ := e
      have hnd : l ∉ keys rest ∧ (keys rest).Nodup := List.nodup_cons.mp h
      by_cases hl : l = k
      · subst hl
        simp only [find?, if_true, Option.some.injEq] at hk
        subst hk
        -- The rest does not stage the key again, so what is put first stays.
        have := find?_putAll_of_none (t := t.put l w) (find?_eq_none_iff.mpr hnd.1)
        unfold putAll at this
        rw [List.foldl_cons, this, find?_put, if_pos rfl]
      · simp only [find?, hl, if_false] at hk
        exact ih hnd.2 hk

/-- What is put over a table comes from the table or from what is put. -/
theorem find?_putAll_cases (t staged : Table κ ν) (k : κ) :
    (t.putAll staged).find? k = t.find? k ∨
      ∃ v, (k, v) ∈ staged ∧ (t.putAll staged).find? k = some v := by
  unfold putAll
  induction staged generalizing t with
  | nil => exact Or.inl rfl
  | cons e rest ih =>
    rw [List.foldl_cons]
    rcases ih (t.put e.1 e.2) with hsame | ⟨v, hv, hfound⟩
    · rw [hsame, find?_put]
      split
      · next hk => exact Or.inr ⟨e.2, by simp [← hk], rfl⟩
      · exact Or.inl rfl
    · exact Or.inr ⟨v, List.mem_cons_of_mem _ hv, hfound⟩

/-- A key that is not staged keeps its value. -/
theorem find?_settle_of_none {t : Table κ ν} {staged : Table κ (Option ν)} {k : κ}
    (h : staged.find? k = none) : (t.settle staged).find? k = t.find? k := by
  unfold settle
  induction staged generalizing t with
  | nil => rfl
  | cons e rest ih =>
    obtain ⟨l, w⟩ := e
    by_cases hl : l = k
    · simp [find?, hl] at h
    · simp only [find?, hl, if_false] at h
      cases w with
      | none => rw [List.foldl_cons, ih h, find?_erase, if_neg hl]
      | some w => rw [List.foldl_cons, ih h, find?_put, if_neg hl]

/-- What is staged decides, a staged nothing included. -/
theorem find?_settle_of_some {t : Table κ ν} {staged : Table κ (Option ν)} {k : κ} {v : Option ν}
    (h : staged.Distinct) (hk : staged.find? k = some v) : (t.settle staged).find? k = v := by
  unfold settle
  induction staged generalizing t with
  | nil => cases hk
  | cons e rest ih =>
    obtain ⟨l, w⟩ := e
    have hnd : l ∉ keys rest ∧ (keys rest).Nodup := List.nodup_cons.mp h
    by_cases hl : l = k
    · subst hl
      simp only [find?, if_true, Option.some.injEq] at hk
      subst hk
      -- As above: the key is settled here and not again.
      have hrest := find?_eq_none_iff.mpr hnd.1
      cases w with
      | none =>
        have := find?_settle_of_none (t := t.erase l) hrest
        unfold settle at this
        rw [List.foldl_cons, this, find?_erase, if_pos rfl]
      | some w =>
        have := find?_settle_of_none (t := t.put l w) hrest
        unfold settle at this
        rw [List.foldl_cons, this, find?_put, if_pos rfl]
    · simp only [find?, hl, if_false] at hk
      exact ih hnd.2 hk

/-! ## Tables that say the same -/

/-- Two tables that say the same have the same entries. -/
theorem Distinct.perm {t t' : Table κ ν} (h : t.Distinct) (h' : t'.Distinct)
    (hsame : ∀ k, t'.find? k = t.find? k) : t'.Perm t := by
  have hnodup {u : Table κ ν} (hu : u.Distinct) : u.Nodup :=
    List.Pairwise.of_map Prod.fst (fun _ _ hne heq => hne (congrArg Prod.fst heq)) hu
  rw [List.perm_ext_iff_of_nodup (hnodup h') (hnodup h)]
  intro e
  rw [← h.find?_eq_some_iff (k := e.1) (v := e.2), ← h'.find?_eq_some_iff, hsame]

/-- The same entries in another order say the same. -/
theorem Distinct.find?_of_perm {t t' : Table κ ν} (h : t.Distinct) (hperm : t'.Perm t) (k : κ) :
    t'.find? k = t.find? k := by
  have h' : t'.Distinct := ((hperm.map Prod.fst).nodup_iff).mpr h
  ext v
  rw [h.find?_eq_some_iff, h'.find?_eq_some_iff, hperm.mem_iff]

theorem find?_map {α : Type} (t : Table κ ν) (f : ν → α) (k : κ) :
    Table.find? (t.map fun e => (e.1, f e.2)) k = (t.find? k).map f := by
  induction t with
  | nil => rfl
  | cons e rest ih =>
    simp only [List.map_cons, find?]
    split
    · rfl
    · exact ih

/-- What all values of a table say of themselves depends on what is found. -/
theorem Distinct.map_perm {α : Type} {t t' : Table κ ν} (h : t.Distinct) (h' : t'.Distinct)
    {f : ν → α} (hsame : ∀ k, (t'.find? k).map f = (t.find? k).map f) :
    (t'.values.map f).Perm (t.values.map f) := by
  have hdistinct {u : Table κ ν} (hu : u.Distinct) :
      Table.Distinct (u.map fun e => (e.1, f e.2)) := by
    unfold Distinct keys at hu ⊢
    rwa [List.map_map]
  have hperm := (hdistinct h).perm (hdistinct h') fun k => by rw [find?_map, find?_map, hsame]
  have hvalues := hperm.map Prod.snd
  rw [List.map_map, List.map_map] at hvalues
  unfold values
  rw [List.map_map, List.map_map]
  exact hvalues

/-- One more key. -/
theorem Distinct.perm_cons {t t' : Table κ ν} (h : t.Distinct) (h' : t'.Distinct) {k : κ} {v : ν}
    (hnew : t.find? k = none) (hmore : ∀ i, t'.find? i = if k = i then some v else t.find? i) :
    t'.values.Perm (v :: t.values) := by
  have hcons : Distinct ((k, v) :: t) := List.nodup_cons.mpr ⟨find?_eq_none_iff.mp hnew, h⟩
  exact (hcons.perm h' hmore).map Prod.snd

/-! ## Values under their own keys -/

/-- **Every value stands under the key that it carries**, and no key comes
    twice. -/
structure Keyed (key : ν → κ) (t : Table κ ν) : Prop where
  distinct : t.Distinct
  own : ∀ {k v}, t.find? k = some v → key v = k

variable {key : ν → κ}

theorem Keyed.nil : Keyed key ([] : Table κ ν) where
  distinct := distinct_nil
  own h := by cases h

/-- Values with keys of their own. -/
theorem keyed_map {l : List ν} (h : (l.map key).Nodup) :
    Keyed key (l.map fun v => (key v, v) : Table κ ν) where
  distinct := by
    unfold Distinct keys
    rw [List.map_map]
    exact h
  own := by
    intro k v hk
    obtain ⟨v', -, heq⟩ := List.mem_map.mp (mem_of_find? hk)
    cases heq
    rfl

theorem Keyed.put {t : Table κ ν} (h : Keyed key t) {k : κ} {v : ν} (hv : key v = k) :
    Keyed key (t.put k v) where
  distinct := h.distinct.put k v
  own := by
    intro k' v' h'
    rw [find?_put] at h'
    split at h'
    · next hk =>
      cases h'
      exact hv.trans hk
    · exact h.own h'

theorem Keyed.putAll {t staged : Table κ ν} (h : Keyed key t) (hs : Keyed key staged) :
    Keyed key (t.putAll staged) where
  distinct := h.distinct.putAll staged
  own := by
    intro k v hk
    rw [find?_putAll hs.distinct] at hk
    rcases Option.or_eq_some_iff.mp hk with hk | ⟨-, hk⟩
    · exact hs.own hk
    · exact h.own hk

/-- The values of such a table are the ones found under their keys. -/
theorem Keyed.mem_values_iff {t : Table κ ν} (h : Keyed key t) {v : ν} :
    v ∈ t.values ↔ t.find? (key v) = some v := by
  constructor
  · intro hv
    obtain ⟨⟨k, w⟩, hm, rfl⟩ := List.mem_map.mp hv
    have hk := h.distinct.find?_eq_some_iff.mpr hm
    rwa [h.own hk]
  · exact mem_values_of_find?

/-- The keys that the values carry are the keys. -/
theorem Keyed.map_values {t : Table κ ν} (h : Keyed key t) : t.values.map key = t.keys := by
  unfold values keys
  rw [List.map_map]
  apply List.map_congr_left
  intro e he
  exact h.own (h.distinct.find?_eq_some_iff.mpr he)

end OrderFlow.Table
