/-! # Tables

    A table keeps one value a key, as a list of pairs.  New keys are added
    at the end and a value that is put again stays in its place, so the
    list also says in which order keys came. -/

namespace OrderFlow

/-- A table with keys `κ` and values `ν`. -/
abbrev Table (κ ν : Type) := List (κ × ν)

namespace Table

variable {κ ν : Type} [DecidableEq κ]

/-- The value of a key. -/
def find? : Table κ ν → κ → Option ν
  | [], _ => none
  | (k', v) :: rest, k => if k' = k then some v else find? rest k

/-- Puts a value under a key. -/
def put : Table κ ν → κ → ν → Table κ ν
  | [], k, v => [(k, v)]
  | (k', v') :: rest, k, v => if k' = k then (k, v) :: rest else (k', v') :: put rest k v

/-- Takes a key out. -/
def erase (t : Table κ ν) (k : κ) : Table κ ν :=
  t.filter fun e => e.1 ≠ k

/-- The keys, in the order in which they came. -/
def keys (t : Table κ ν) : List κ :=
  t.map (·.1)

/-- The values, in the order in which their keys came. -/
def values (t : Table κ ν) : List ν :=
  t.map (·.2)

/-- `t` with the values of `staged` put over its own. -/
def putAll (t staged : Table κ ν) : Table κ ν :=
  staged.foldl (fun t e => t.put e.1 e.2) t

/-- `t` with the staged values put over its own; a staged nothing takes the
    key out. -/
def settle (t : Table κ ν) (staged : Table κ (Option ν)) : Table κ ν :=
  staged.foldl (fun t e => match e.2 with
    | some v => t.put e.1 v
    | none => t.erase e.1) t

@[simp] theorem find?_put (t : Table κ ν) (k k' : κ) (v : ν) :
    (t.put k v).find? k' = if k = k' then some v else t.find? k' := by
  induction t with
  | nil => rfl
  | cons e rest ih =>
    obtain ⟨l, w⟩ := e
    by_cases hl : l = k
    · subst hl
      by_cases hk : l = k' <;> simp [put, find?, hk]
    · by_cases hk : l = k'
      · subst hk
        have : ¬ k = l := fun h => hl h.symm
        simp [put, find?, hl, this]
      · simp [put, find?, hl, hk, ih]

@[simp] theorem find?_erase (t : Table κ ν) (k k' : κ) :
    (t.erase k).find? k' = if k = k' then none else t.find? k' := by
  induction t with
  | nil => simp [erase, find?]
  | cons e rest ih =>
    obtain ⟨l, w⟩ := e
    by_cases hl : l = k
    · subst hl
      by_cases hk : l = k'
      · subst hk
        simpa [erase] using ih
      · simpa [erase, find?, hk] using ih
    · by_cases hk : l = k'
      · subst hk
        have : ¬ k = l := fun h => hl h.symm
        simp [erase, find?, hl, this]
      · simpa [erase, find?, hl, hk] using ih

end Table

end OrderFlow
