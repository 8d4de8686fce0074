import OrderFlow.Data.Scalars
import OrderFlow.Proofs.Json
import OrderFlow.Proofs.Rfc3339
import OrderFlow.Proofs.Uuid

/-! # Written fields are read back

    A record that is written under the names of its fields shows, under each of
    them, what was written there.  What stands there is an id, an instant, a
    number, a text or a choice, and the reader of its kind gives it back. -/

namespace OrderFlow.Data

/-! ## Records -/

section records
variable {names : List String} {entries : List (String × Value)}

theorem named_of_not_mem {name : String} (h : name ∉ entries.map (·.1)) :
    named name entries = [] := by
  have hnone : entries.filter (fun e => e.1 == name) = [] := by
    apply List.filter_eq_nil_iff.mpr
    intro e he hname
    exact h (List.mem_map.mpr ⟨e, he, eq_of_beq hname⟩)
  rw [named, hnone, List.map_nil]

/-- Where names are distinct, each has its own value. -/
theorem single?_of_mem (hnodup : (entries.map (·.1)).Nodup) {name : String} {v : Value}
    (h : (name, v) ∈ entries) : single? name entries = some (some v) := by
  have hnamed : named name entries = [v] := by
    induction entries with
    | nil => cases h
    | cons e rest ih =>
      obtain ⟨hfresh, hrest⟩ := List.nodup_cons.mp hnodup
      rcases List.mem_cons.mp h with rfl | h
      · have hno : named name rest = [] := named_of_not_mem hfresh
        simpa [named] using hno
      · have hother : ¬ (e.1 == name) = true := by
          intro hname
          exact hfresh (List.mem_map.mpr ⟨(name, v), h, (eq_of_beq hname).symm⟩)
        simpa [named, hother] using ih hrest h
  unfold single?
  rw [hnamed]

/-- **A record under its own names** shows all that was written. -/
theorem fields?_record (hnames : entries.map (·.1) = names) (hnodup : names.Nodup)
    (partially : Bool) :
    fields? names partially (.record entries) = some (entries.map fun e => some e.2) := by
  subst hnames
  -- By induction over a part of the entries, each found among all of them.
  have hpart (part : List (String × Value)) (hpart : part ⊆ entries) :
      (part.map (·.1)).mapM (fun name => single? name entries) =
        some (part.map fun e => some e.2) := by
    induction part with
    | nil => rfl
    | cons e rest ih =>
      have he := single?_of_mem hnodup (hpart List.mem_cons_self)
      have hrest := ih fun d hd => hpart (List.mem_cons_of_mem e hd)
      rw [List.map_cons, List.mapM_cons, he, hrest]
      rfl
  exact hpart entries (List.Subset.refl entries)

end records

/-! ## Fields -/

section fields
variable {α : Type} {read : Value → Option α} {write : α → Value}

-- Stated for `>>=`, which readers go on with: simp enters an `Option.bind` by congruence, and
-- would go through all later fields again at each field.
theorem some_bind {β : Type} (a : α) (next : α → Option β) : (some a >>= next) = next a := by
  rw [Option.bind_eq_bind, Option.bind_some]

theorem required_some (v : Value) : required read (some v) = read v := by
  rw [required, Option.bind_some]

theorem orDefault_some (default : α) (v : Value) :
    orDefault default read (some v) = read v := by
  rw [orDefault]

/-- **What may be absent** is read back, unless its values are written as nothing. -/
theorem optional_ofOption {o : Option α} (hread : ∀ a ∈ o, read (write a) = some a)
    (hwrite : ∀ a, write a ≠ .null) :
    Value.optional read (some (Value.ofOption write o)) = some o := by
  cases o with
  | none => rfl
  | some a =>
    have ha : read (write a) = some a := hread a rfl
    have hnull := hwrite a
    unfold Value.ofOption Value.optional
    split
    · next heq => cases heq
    · next heq => exact absurd (Option.some.inj heq) hnull
    · next heq => rw [← Option.some.inj heq, ha, Option.map_some]

@[simp] theorem orderId?_ofOrderId (order : OrderId) :
    orderId? (ofOrderId order) = some order := by
  have htext : (ofOrderId order).text? = some (toString order.uuid) := rfl
  unfold orderId? uuid?
  rw [htext, Option.bind_some, Uuid.parse?_toString, Option.map_some]

@[simp] theorem rowId?_ofRowId (row : RowId) : rowId? (ofRowId row) = some row := by
  have htext : (ofRowId row).text? = some (toString row.uuid) := rfl
  unfold rowId? uuid?
  rw [htext, Option.bind_some, Uuid.parse?_toString, Option.map_some]

theorem instant?_ofInstant {t : Instant} (h : t.isLeap = false) :
    instant? (ofInstant t) = some t := by
  have htext : (ofInstant t).text? = some (toString t) := rfl
  unfold instant?
  rw [htext, Option.bind_some, Instant.parse?_toString h]

theorem natBelow?_ofNat {n bound : Nat} (h : n < bound) :
    (ofNat n).natBelow? bound = some n := by
  have hrange : (0 : Int) ≤ n ∧ (n : Int) < bound := by omega
  exact if_pos hrange

theorem counter?_ofNat {n : Nat} (h : n < counterBound) : counter? (ofNat n) = some n :=
  natBelow?_ofNat h

theorem count?_ofNat {n : Nat} (h : n < countBound) : count? (ofNat n) = some n :=
  natBelow?_ofNat h

@[simp] theorem text?_text (s : String) : (Value.text s).text? = some s := rfl

@[simp] theorem bool?_bool (b : Bool) : (Value.bool b).bool? = some b := rfl

@[simp] theorem optional_text (s : Option String) :
    Value.optional Value.text? (some (Value.ofOption .text s)) = some s := by
  apply optional_ofOption
  · intro a _
    rfl
  · intro a hnull
    cases hnull

theorem optional_instant {t : Option Instant} (h : ∀ a ∈ t, a.isLeap = false) :
    Value.optional instant? (some (Value.ofOption ofInstant t)) = some t := by
  apply optional_ofOption
  · intro a ha
    exact instant?_ofInstant (h a ha)
  · intro a hnull
    cases hnull

theorem optional_counter {n : Option Nat} (h : ∀ a ∈ n, a < counterBound) :
    Value.optional counter? (some (Value.ofOption ofNat n)) = some n := by
  apply optional_ofOption
  · intro a ha
    exact counter?_ofNat (h a ha)
  · intro a hnull
    cases hnull

end fields

end OrderFlow.Data

/-! ## Faithful fields -/

namespace OrderFlow.Json

open Data

variable {opened : Nat}

@[simp] theorem faithful_text (s : String) : Faithful opened (.text s) := trivial

@[simp] theorem faithful_bool (b : Bool) : Faithful opened (.bool b) := trivial

@[simp] theorem faithful_ofOrderId (order : OrderId) : Faithful opened (ofOrderId order) := trivial

@[simp] theorem faithful_ofRowId (row : RowId) : Faithful opened (ofRowId row) := trivial

@[simp] theorem faithful_ofInstant (t : Instant) : Faithful opened (ofInstant t) := trivial

/-- A count fits into a significand. -/
theorem faithful_ofNat {n : Nat} (h : n < countBound) : Faithful opened (ofNat n) := h

theorem faithful_ofOption {α : Type} {write : α → Value} {o : Option α}
    (h : ∀ a ∈ o, Faithful opened (write a)) : Faithful opened (Value.ofOption write o) := by
  cases o with
  | none => trivial
  | some a => exact h a rfl

end OrderFlow.Json
