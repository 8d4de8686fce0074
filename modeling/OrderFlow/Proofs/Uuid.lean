import OrderFlow.Order.Id
import OrderFlow.Proofs.Digits

/-! # Written ids are read back

    An id is written as the hexadecimal digits of its number, and reading
    them gives the number again.  So an id is known by its text, and that is
    all that receipts and announcements hold of one. -/

namespace OrderFlow

namespace Uuid

open Text

/-- The 32 digits of an id. -/
def digits (u : Uuid) : List Char :=
  paddedDigits 16 32 u.toNat

theorem length_digits (u : Uuid) : u.digits.length = 32 :=
  length_paddedDigits 16 32 u.toNat

theorem ofHex?_digits (u : Uuid) : ofHex? u.digits = some u := by
  have hall : u.digits.all (isDigitOf 16) = true :=
    List.all_eq_true.mpr (forall_mem_paddedDigits (by decide) isDigitOf_digitChar 32 u.toNat)
  have hlt : u.toNat < 16 ^ 32 := u.bits.isLt
  have hnumber : ofDigits 16 u.digits = u.toNat := by
    unfold digits
    rw [ofDigits_paddedDigits (by decide) (by decide), Nat.mod_eq_of_lt hlt]
  have hsame : ofNat u.toNat = u := by
    unfold ofNat toNat
    rw [BitVec.ofNat_toNat, BitVec.setWidth_eq]
  unfold ofHex?
  rw [if_pos ⟨u.length_digits, hall⟩, hnumber, hsame]

/-! ## Groups of digits -/

/-- A group of characters, a hyphen, and the rest. -/
theorem group_then {n : Nat} {group : List Char} (h : group.length = n) (rest : List Char) :
    (group ++ '-' :: rest).take n = group ∧ (group ++ '-' :: rest).drop (n + 1) = rest ∧
      (group ++ '-' :: rest)[n]? = some '-' := by
  subst h
  refine ⟨List.take_left, ?_, ?_⟩
  · rw [← List.drop_drop, List.drop_left, List.drop_one, List.tail_cons]
  · rw [List.getElem?_append_right (Nat.le_refl _), Nat.sub_self, List.getElem?_cons_zero]

/-- **Five groups with hyphens between them** are found again. -/
theorem ofHyphenated?_groups {a b c d e : List Char} (ha : a.length = 8) (hb : b.length = 4)
    (hc : c.length = 4) (hd : d.length = 4) (he : e.length = 12) :
    ofHyphenated? (a ++ '-' :: (b ++ '-' :: (c ++ '-' :: (d ++ '-' :: e)))) =
      ofHex? (a ++ b ++ c ++ d ++ e) := by
  obtain ⟨ha₁, ha₂, ha₃⟩ := group_then ha (b ++ '-' :: (c ++ '-' :: (d ++ '-' :: e)))
  obtain ⟨hb₁, hb₂, hb₃⟩ := group_then hb (c ++ '-' :: (d ++ '-' :: e))
  obtain ⟨hc₁, hc₂, hc₃⟩ := group_then hc (d ++ '-' :: e)
  obtain ⟨hd₁, hd₂, hd₃⟩ := group_then hd e
  have hlen : (a ++ '-' :: (b ++ '-' :: (c ++ '-' :: (d ++ '-' :: e)))).length = 36 := by
    simp [ha, hb, hc, hd, he]
  generalize a ++ '-' :: (b ++ '-' :: (c ++ '-' :: (d ++ '-' :: e))) = cs at ha₁ ha₂ ha₃ hlen
  -- Behind each hyphen the next group begins.
  have h₁ : cs.drop 9 = b ++ '-' :: (c ++ '-' :: (d ++ '-' :: e)) := ha₂
  have h₂ : cs.drop 14 = c ++ '-' :: (d ++ '-' :: e) := by
    rw [← hb₂, ← h₁, List.drop_drop]
  have h₃ : cs.drop 19 = d ++ '-' :: e := by
    rw [← hc₂, ← h₂, List.drop_drop]
  have h₄ : cs.drop 24 = e := by
    rw [← hd₂, ← h₃, List.drop_drop]
  have hat (i : Nat) {j : Nat} {l : List Char} (h : cs.drop i = l) (hl : l[j]? = some '-') :
      cs[i + j]? = some '-' := by
    rw [← List.getElem?_drop, h, hl]
  have hhyphens : [8, 13, 18, 23].all (fun i => cs[i]? == some '-') = true := by
    simp [ha₃, hat 9 h₁ hb₃, hat 14 h₂ hc₃, hat 19 h₃ hd₃]
  unfold ofHyphenated?
  rw [if_pos ⟨hlen, hhyphens⟩, ha₁, h₁, hb₁, h₂, hc₁, h₃, hd₁, h₄]

theorem render_eq (u : Uuid) : u.render = u.digits.take 8 ++ '-' :: ((u.digits.drop 8).take 4 ++
    '-' :: ((u.digits.drop 12).take 4 ++ '-' :: ((u.digits.drop 16).take 4 ++
      '-' :: u.digits.drop 20))) := by
  unfold render digits
  simp only [List.append_assoc, List.cons_append]

theorem length_render (u : Uuid) : u.render.length = 36 := by
  rw [render_eq]
  simp [length_digits]

/-- The groups that an id's digits are written in. -/
theorem groups_eq (u : Uuid) : u.digits.take 8 ++ (u.digits.drop 8).take 4 ++
    (u.digits.drop 12).take 4 ++ (u.digits.drop 16).take 4 ++ u.digits.drop 20 = u.digits := by
  have hsplit (i j : Nat) :
      (u.digits.drop i).take j ++ u.digits.drop (i + j) = u.digits.drop i := by
    rw [← List.drop_drop, List.take_append_drop]
  rw [List.append_assoc, hsplit 16 4, List.append_assoc, hsplit 12 4, List.append_assoc,
    hsplit 8 4, List.take_append_drop]

/-- **A written id is read back.** -/
theorem parse?_toString (u : Uuid) : parse? (toString u) = some u := by
  have hchars : (toString u).toList = u.render := String.toList_ofList
  unfold parse? ofList?
  rw [hchars, if_neg (by rw [length_render]; decide), if_pos u.length_render]
  rw [render_eq, ofHyphenated?_groups (by simp [length_digits]) (by simp [length_digits])
    (by simp [length_digits]) (by simp [length_digits]) (by simp [length_digits]), groups_eq,
    ofHex?_digits]

/-- **An id is known by its text.** -/
theorem toString_inj {u v : Uuid} (h : toString u = toString v) : u = v := by
  have hu := u.parse?_toString
  rw [h, parse?_toString, Option.some.injEq] at hu
  exact hu.symm

/-- There is no blank in a written id. -/
theorem not_isBlankChar_of_mem_render (u : Uuid) {c : Char} (hc : c ∈ u.render) :
    isBlankChar c = false := by
  have hdigits : ∀ c ∈ u.digits, isBlankChar c = false :=
    forall_mem_paddedDigits (by decide) isBlankChar_digitChar 32 u.toNat
  have hhyphen : isBlankChar '-' = false := by decide
  rw [render_eq] at hc
  simp only [List.mem_append, List.mem_cons] at hc
  rcases hc with hc | rfl | hc | rfl | hc | rfl | hc | rfl | hc
  · exact hdigits c (List.mem_of_mem_take hc)
  · exact hhyphen
  · exact hdigits c (List.mem_of_mem_drop (List.mem_of_mem_take hc))
  · exact hhyphen
  · exact hdigits c (List.mem_of_mem_drop (List.mem_of_mem_take hc))
  · exact hhyphen
  · exact hdigits c (List.mem_of_mem_drop (List.mem_of_mem_take hc))
  · exact hhyphen
  · exact hdigits c (List.mem_of_mem_drop hc)

end Uuid

/-! ## Ids of orders -/

/-- A text without blanks is not trimmed. -/
theorem Text.trim_of_no_blanks {s : String} (h : ∀ c ∈ s.toList, isBlankChar c = false) :
    trim s = s := by
  have hstart (cs : List Char) (h : ∀ c ∈ cs, isBlankChar c = false) : trimStart cs = cs := by
    unfold trimStart
    cases cs with
    | nil => rfl
    | cons c rest => rw [List.dropWhile_cons, if_neg (by simp [h c List.mem_cons_self])]
  have hend : trimEnd s.toList = s.toList := by
    unfold trimEnd
    rw [hstart _ fun c hc => h c (List.mem_reverse.mp hc), List.reverse_reverse]
  unfold trim
  rw [hstart _ h, hend, String.ofList_toList]

/-- **The written id of an order is read back.** -/
theorem OrderId.parse?_toString (id : OrderId) : OrderId.parse? (toString id) = some id := by
  have htrim : Text.trim (toString id) = toString id := by
    refine Text.trim_of_no_blanks fun c hc => ?_
    have hchars : (toString id).toList = id.uuid.render := String.toList_ofList
    rw [hchars] at hc
    exact id.uuid.not_isBlankChar_of_mem_render hc
  unfold OrderId.parse?
  rw [htrim]
  show (Uuid.parse? (toString id.uuid)).map OrderId.mk = some id
  rw [Uuid.parse?_toString]
  rfl

end OrderFlow
