import OrderFlow.Uuid

/-! # Fresh ids

    A supply gives a new id with every draw for as long as it lasts, which
    is for `2 ^ 122` draws. -/

namespace OrderFlow

/-- The free bits of a version 4 id, as they stand in its number. -/
theorem Uuid.versionFour_toNat (n : Nat) :
    (versionFour n).toNat = n / 2 ^ 74 % 2 ^ 48 * 2 ^ 80 + 4 * 2 ^ 76 +
      n / 2 ^ 62 % 2 ^ 12 * 2 ^ 64 + 2 * 2 ^ 62 + n % 2 ^ 62 := by
  have high : n / 2 ^ 74 % 2 ^ 48 < 2 ^ 48 := Nat.mod_lt _ (by decide)
  have middle : n / 2 ^ 62 % 2 ^ 12 < 2 ^ 12 := Nat.mod_lt _ (by decide)
  have low : n % 2 ^ 62 < 2 ^ 62 := Nat.mod_lt _ (by decide)
  simp only [versionFour, ofNat, toNat, BitVec.toNat_ofNat]
  apply Nat.mod_eq_of_lt
  omega

/-- **Different free bits make different ids.** -/
theorem Uuid.versionFour_inj {m n : Nat} (hm : m < 2 ^ 122) (hn : n < 2 ^ 122)
    (h : versionFour m = versionFour n) : m = n := by
  have hnum : (versionFour m).toNat = (versionFour n).toNat := congrArg toNat h
  rw [versionFour_toNat, versionFour_toNat] at hnum
  omega

namespace IdSupply

/-- The id has been drawn. -/
def HasDrawn (s : IdSupply) (id : Uuid) : Prop :=
  ∃ k, k < s.next ∧ id = .versionFour k

/-- No id has had to come twice so far. -/
def Lasts (s : IdSupply) : Prop :=
  s.next ≤ 2 ^ 122

variable {s s' : IdSupply} {id : Uuid}

theorem HasDrawn.mono (h : s.HasDrawn id) (hle : s.next ≤ s'.next) : s'.HasDrawn id := by
  obtain ⟨k, hk, rfl⟩ := h
  exact ⟨k, Nat.lt_of_lt_of_le hk hle, rfl⟩

theorem Lasts.mono (h : s'.Lasts) (hle : s.next ≤ s'.next) : s.Lasts :=
  Nat.le_trans hle h

theorem hasDrawn_versionFour {k : Nat} (h : k < s.next) : s.HasDrawn (.versionFour k) :=
  ⟨k, h, rfl⟩

/-- Where something is put under an id that is drawn, all ids are drawn still. -/
theorem hasDrawn_upsert {κ α : Type} [DecidableEq κ] {uuid : κ → Uuid} {key : κ} {x : α}
    {found found' : κ → Option α} (hdrawn : ∀ {i y}, found i = some y → s.HasDrawn (uuid i))
    (hle : s.next ≤ s'.next) (hfound : ∀ i, found' i = if key = i then some x else found i)
    (hkey : s'.HasDrawn (uuid key)) {i : κ} {y : α} (hy : found' i = some y) :
    s'.HasDrawn (uuid i) := by
  rw [hfound] at hy
  split at hy
  · next hi => exact hi ▸ hkey
  · exact (hdrawn hy).mono hle

/-- What is drawn next has not been drawn before. -/
theorem not_hasDrawn {k : Nat} (hle : s.next ≤ k) (hk : k < 2 ^ 122) :
    ¬ s.HasDrawn (.versionFour k) := by
  rintro ⟨m, hm, h⟩
  have hlt : m < 2 ^ 122 := by omega
  have heq := Uuid.versionFour_inj hk hlt h
  omega

end IdSupply

end OrderFlow
