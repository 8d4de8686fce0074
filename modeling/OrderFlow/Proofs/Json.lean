import OrderFlow.Json.Reader
import OrderFlow.Json.Writer
import OrderFlow.Proofs.Digits

/-! # Written data is read back

    What is written in JSON is read as the data that it was (`parse?_toText`).
    The scanner finds the tokens of a value whatever stands around it, as long as
    a word or a number is not run on (`scanFrom_render`); and the machine puts
    the value of its tokens into the innermost open container, whatever that is
    (`run_tokens`).  Both go by recursion over the value.

    Data is read back if all of it denotes something (`Faithful`): numbers have to
    be whole and fit into a significand, and containers must not be nested too
    deeply. -/

namespace OrderFlow.Json

open Data Text

/-! ## Strings -/

/-- The scanner in the middle of a sound string. -/
def inString (chars : List Char) : Mode :=
  .string ⟨chars, none, true⟩

theorem toNat_ofNat {c : Char} {n : Nat} (h : c.toNat = n) : Char.ofNat n = c := by
  rw [← h, Char.ofNat_toNat]

/-- A short escape spells its character. -/
theorem scanFrom_short {c d : Char} (hu : d ≠ 'u') (hd : escaped? d = some c)
    (chars : List Char) (found : List Token) (rest : List Char) :
    scanFrom (inString chars) found ('\\' :: d :: rest) =
      scanFrom (inString (c :: chars)) found rest := by
  have hslash : (inString chars).step '\\' = some ([], .escape ⟨chars, none, true⟩) := rfl
  have hletter : (Mode.escape ⟨chars, none, true⟩).step d = some ([], inString (c :: chars)) := by
    simp [Mode.step, hu, hd, Partial.push, inString]
  rw [scanFrom, hslash]
  dsimp only
  rw [scanFrom, hletter]
  rfl

/-- A character spelled by its code. -/
theorem scanFrom_code {c : Char} (hc : c.toNat < 0x20) (chars : List Char) (found : List Token)
    (rest : List Char) :
    scanFrom (inString chars) found ('\\' :: 'u' :: (paddedDigits 16 4 c.toNat ++ rest)) =
      scanFrom (inString (c :: chars)) found rest := by
  have hdigit (k : Nat) : digitValue (digitChar (k % 16)) = some (k % 16) :=
    digitValue_digitChar _ (Nat.mod_lt _ (by decide))
  have hvalue : 16 * (16 * (16 * (c.toNat / 16 / 16 / 16 % 16) + c.toNat / 16 / 16 % 16) +
      c.toNat / 16 % 16) + c.toNat % 16 = c.toNat := by
    omega
  -- A code as low as this is not half of a surrogate pair.
  have hunit : (⟨chars, none, true⟩ : Partial).pushUnit c.toNat = ⟨c :: chars, none, true⟩ := by
    have hhigh : ¬ (0xD800 ≤ c.toNat ∧ c.toNat < 0xDC00) := by omega
    have hlow : ¬ (0xDC00 ≤ c.toNat ∧ c.toNat < 0xE000) := by omega
    simp [Partial.pushUnit, hhigh, hlow]
  have hslash : (inString chars).step '\\' = some ([], .escape ⟨chars, none, true⟩) := rfl
  have hletter : (Mode.escape ⟨chars, none, true⟩).step 'u' =
      some ([], .code ⟨chars, none, true⟩ 4 0) := rfl
  rw [scanFrom, hslash]
  dsimp only
  rw [scanFrom, hletter]
  simp only [paddedDigits, List.nil_append, List.cons_append, scanFrom, Mode.step, hdigit,
    Option.bind_eq_bind, Option.bind_some]
  simp [hvalue, hunit, inString]

/-- **One character of a string** is read as it was meant. -/
theorem scanFrom_escapeChar (c : Char) (chars : List Char) (found : List Token)
    (rest : List Char) :
    scanFrom (inString chars) found (escapeChar c ++ rest) =
      scanFrom (inString (c :: chars)) found rest := by
  unfold escapeChar
  split
  · next h => exact scanFrom_short (by decide) (by rw [h]; rfl) chars found rest
  split
  · next h => exact scanFrom_short (by decide) (by rw [h]; rfl) chars found rest
  split
  · next h => exact scanFrom_short (by decide) (by rw [h]; rfl) chars found rest
  split
  · next h => exact scanFrom_short (by decide) (by rw [h]; rfl) chars found rest
  split
  · next h => exact scanFrom_short (by decide) (by rw [h]; rfl) chars found rest
  split
  · next h => exact scanFrom_short (by decide) (by rw [← toNat_ofNat h]; rfl) chars found rest
  split
  · next h => exact scanFrom_short (by decide) (by rw [← toNat_ofNat h]; rfl) chars found rest
  split
  · next h => exact scanFrom_code h chars found rest
  · next hquote hslash _ _ _ _ _ hlow =>
    have hstep : (inString chars).step c = some ([], inString (c :: chars)) := by
      simp [inString, Mode.step, hquote, hslash, hlow, Partial.push]
    rw [List.singleton_append, scanFrom, hstep]
    rfl

/-- **A written string** is one token. -/
theorem scanFrom_renderText (s : String) (found : List Token) (rest : List Char) :
    scanFrom .between found (renderText s ++ rest) =
      scanFrom .between (.text (some s) :: found) rest := by
  have hchars (cs chars rest : List Char) :
      scanFrom (inString chars) found (cs.flatMap escapeChar ++ rest) =
        scanFrom (inString (cs.reverse ++ chars)) found rest := by
    induction cs generalizing chars with
    | nil => rfl
    | cons c cs ih =>
      rw [List.flatMap_cons, List.append_assoc, scanFrom_escapeChar, ih, List.reverse_cons,
        List.append_assoc, List.singleton_append]
  have hopen : Mode.between.step '"' = some ([], inString []) := rfl
  have hclose : (inString s.toList.reverse).step '"' = some ([.text (some s)], .between) := by
    simp [inString, Mode.step, Partial.finish]
  unfold renderText
  rw [List.cons_append, List.cons_append, scanFrom, hopen]
  dsimp only
  rw [List.append_assoc, List.reverse_nil, List.nil_append, hchars, List.append_nil,
    List.singleton_append, scanFrom, hclose]
  rfl

/-! ## Words and numbers -/

/-- A character of a word begins one. -/
theorem begin?_of_isWordChar {c : Char} (h : isWordChar c = true) :
    begin? c = some ([], .word [c]) := by
  have hnot {d : Char} (hd : isWordChar d = false) : c ≠ d := by
    rintro rfl
    rw [h] at hd
    cases hd
  have hgap : isGap c = false := by
    simp only [isGap, Bool.or_eq_false_iff, beq_eq_false_iff_ne]
    exact ⟨⟨⟨hnot (by decide), hnot (by decide)⟩, hnot (by decide)⟩, hnot (by decide)⟩
  unfold begin?
  rw [if_neg (by simp [hgap]), if_neg (hnot (by decide)), if_neg (hnot (by decide)),
    if_neg (hnot (by decide)), if_neg (hnot (by decide)), if_neg (hnot (by decide)),
    if_neg (hnot (by decide)), if_neg (hnot (by decide)), if_pos h]

/-- The characters of a word are collected. -/
theorem scanFrom_wordChars {cs : List Char} (h : ∀ c ∈ cs, isWordChar c = true)
    (chars : List Char) (found : List Token) (rest : List Char) :
    scanFrom (.word chars) found (cs ++ rest) =
      scanFrom (.word (cs.reverse ++ chars)) found rest := by
  induction cs generalizing chars with
  | nil => rfl
  | cons c cs ih =>
    have hstep : (Mode.word chars).step c = some ([], .word (c :: chars)) := by
      unfold Mode.step
      exact if_pos (h c List.mem_cons_self)
    rw [List.cons_append, scanFrom, hstep]
    dsimp only
    rw [List.reverse_nil, List.nil_append, ih fun d hd => h d (List.mem_cons_of_mem _ hd)]
    simp

/-- A word ends where something else begins. -/
theorem scanFrom_wordEnd {chars : List Char} {v : Value} (h : atom? chars.reverse = some v)
    {rest : List Char} (hends : Stops isWordChar rest) (found : List Token) :
    scanFrom (.word chars) found rest = scanFrom .between (.atom v :: found) rest := by
  cases rest with
  | nil =>
    unfold scanFrom
    dsimp only
    rw [h]
    rfl
  | cons c rest =>
    have hc : isWordChar c = false := hends c rfl
    have hstep : (Mode.word chars).step c = (begin? c).map fun p => (Token.atom v :: p.1, p.2) := by
      unfold Mode.step
      dsimp only
      rw [if_neg (by simp [hc]), h]
      cases begin? c <;> rfl
    have hbetween : Mode.between.step c = begin? c := rfl
    rw [scanFrom, scanFrom, hstep, hbetween]
    cases begin? c with
    | none => rfl
    | some p => simp

/-- **A written word or number** is one token. -/
theorem scanFrom_atom {cs : List Char} {v : Value} (hne : cs ≠ [])
    (hchars : ∀ c ∈ cs, isWordChar c = true) (hatom : atom? cs = some v) {rest : List Char}
    (hends : Stops isWordChar rest) (found : List Token) :
    scanFrom .between found (cs ++ rest) = scanFrom .between (.atom v :: found) rest := by
  obtain ⟨c, cs, rfl⟩ := List.exists_cons_of_ne_nil hne
  have hstep : Mode.between.step c = some ([], .word [c]) :=
    begin?_of_isWordChar (hchars c List.mem_cons_self)
  rw [List.cons_append, scanFrom, hstep]
  dsimp only
  rw [List.reverse_nil, List.nil_append,
    scanFrom_wordChars fun d hd => hchars d (List.mem_cons_of_mem _ hd)]
  apply scanFrom_wordEnd _ hends
  simpa using hatom

/-- Rounding adds less than a unit, and up to here units are small. -/
theorem roundDouble_lt {n : Nat} (h : n < significandBound) :
    roundDouble n < 2 * significandBound := by
  have hunit : 2 ^ (n.log2 - 52) ≤ significandBound := by
    by_cases hn : n = 0
    · subst hn
      decide
    · have hlog : n.log2 < 64 := (Nat.log2_lt hn).mpr h
      exact Nat.pow_le_pow_right (by decide) (by omega)
  have hdown : n / 2 ^ (n.log2 - 52) * 2 ^ (n.log2 - 52) ≤ n := Nat.div_mul_le_self _ _
  unfold roundDouble
  dsimp only
  split
  · omega
  · rw [Nat.add_mul, Nat.one_mul]
    omega

/-- A whole number that fits into a significand is a double. -/
theorem not_productOverflows {n : Nat} (h : n < significandBound) :
    productOverflows n 0 = false := by
  have hone : roundDouble (10 ^ (0 : Int).toNat) = 1 := roundDouble_of_lt 1 (by decide)
  have hbound : 2 * significandBound ≤ doubleBound := by decide +kernel
  have hround := roundDouble_lt h
  unfold productOverflows
  split
  · rfl
  · rw [if_neg (by decide), hone, decide_eq_false_iff_not]
    omega

/-- The digits of a number that fits into a significand are all absorbed. -/
theorem absorb_of_lt {m : Nat} {cs : List Char}
    (h : cs.foldl (fun n c => 10 * n + (digitValue c).getD 0) m < significandBound) :
    absorb m cs = (cs.foldl (fun n c => 10 * n + (digitValue c).getD 0) m, []) := by
  -- What has been absorbed only grows.
  have hgrows (cs : List Char) (m : Nat) :
      m ≤ cs.foldl (fun n c => 10 * n + (digitValue c).getD 0) m := by
    induction cs generalizing m with
    | nil => exact Nat.le_refl m
    | cons c cs ih =>
      have hrest := ih (10 * m + (digitValue c).getD 0)
      rw [List.foldl_cons]
      omega
  induction cs generalizing m with
  | nil => rfl
  | cons c cs ih =>
    rw [List.foldl_cons] at h ⊢
    have hlonger := hgrows cs (10 * m + (digitValue c).getD 0)
    unfold absorb
    dsimp only
    rw [if_pos (by omega), ih h]

theorem not_overflows {n : Nat} (h : n < significandBound) :
    overflows (digitsOf 10 n) [] 0 = false := by
  have hdigits : ofDigits 10 (digitsOf 10 n) = n := ofDigits_digitsOf (by decide) (by decide) n
  unfold ofDigits at hdigits
  have habsorb : absorb 0 (digitsOf 10 n) = (n, []) := by
    rw [absorb_of_lt (hdigits.symm ▸ h), hdigits]
  unfold overflows
  rw [habsorb]
  exact not_productOverflows h

/-- **The digits of a number** are read as the number, with or without a sign. -/
theorem magnitude_digitsOf (negative : Bool) {n : Nat} (h : n < significandBound)
    (hsign : negative = true → n ≠ 0) :
    magnitude negative (digitsOf 10 n) = some (.int (if negative then -n else n)) := by
  have hall : (digitsOf 10 n).takeWhile isDecimal = digitsOf 10 n := by
    have hfront : (digitsOf 10 n ++ []).takeWhile isDecimal = digitsOf 10 n :=
      takeWhile_front (forall_mem_digitsOf (by decide) isDecimal_digitChar n) stops_nil
    rwa [List.append_nil] at hfront
  have hdigits : digits1 (digitsOf 10 n) = some (digitsOf 10 n, []) := by
    unfold digits1
    simp [hall, digitsOf_ne_nil]
  have hzero : ¬ ((digitsOf 10 n).head? = some '0' ∧ (digitsOf 10 n).length ≠ 1) :=
    fun hhead => hhead.2 (digitsOf_head n hhead.1)
  have hfraction : fraction [] = some ([], []) := rfl
  have hexponent : exponent [] = some (0, []) := rfl
  unfold magnitude
  simp only [hdigits, hfraction, hexponent, Option.bind_eq_bind, Option.bind_some, if_neg hzero,
    not_overflows h, ofDigits_digitsOf (by decide : 2 ≤ 10) (by decide) n]
  cases negative with
  | false => rfl
  | true => simp [hsign rfl]

theorem isWordChar_digitChar : ∀ d < 10, isWordChar (digitChar d) = true := by
  decide

/-- A digit begins none of the words, and no sign. -/
theorem atom?_of_isDecimal {c : Char} (h : isDecimal c = true) (cs : List Char) :
    atom? (c :: cs) = magnitude false (c :: cs) := by
  have hnot {d : Char} (hd : isDecimal d = false) : c ≠ d := by
    rintro rfl
    rw [h] at hd
    cases hd
  unfold atom?
  split
  · next heq => exact absurd (List.cons.inj heq).1 (hnot (by decide))
  · next heq => exact absurd (List.cons.inj heq).1 (hnot (by decide))
  · next heq => exact absurd (List.cons.inj heq).1 (hnot (by decide))
  · next heq => exact absurd (List.cons.inj heq).1 (hnot (by decide))
  · rfl

/-- **A whole number** that fits into a significand is one token. -/
theorem scanFrom_int {n : Int} (h : n.natAbs < significandBound) {rest : List Char}
    (hends : Stops isWordChar rest) (found : List Token) :
    scanFrom .between found ((signedDecimal n).toList ++ rest) =
      scanFrom .between (.atom (.int n) :: found) rest := by
  have hdigits (k : Nat) : ∀ c ∈ digitsOf 10 k, isWordChar c = true :=
    forall_mem_digitsOf (by decide) isWordChar_digitChar k
  cases n with
  | ofNat k =>
    have hatom : atom? (digitsOf 10 k) = some (.int k) := by
      obtain ⟨c, cs, hcons⟩ := List.exists_cons_of_ne_nil (digitsOf_ne_nil 10 k)
      have hall : ∀ d ∈ digitsOf 10 k, isDecimal d = true :=
        forall_mem_digitsOf (by decide) isDecimal_digitChar k
      have hc : isDecimal c = true := by
        apply hall
        rw [hcons]
        exact List.mem_cons_self
      rw [hcons, atom?_of_isDecimal hc, ← hcons]
      exact magnitude_digitsOf false h (by simp)
    show scanFrom .between found ((decimal k).toList ++ rest) = _
    unfold decimal
    rw [String.toList_ofList]
    exact scanFrom_atom (digitsOf_ne_nil 10 k) (hdigits k) hatom hends found
  | negSucc k =>
    have hatom : atom? ('-' :: digitsOf 10 (k + 1)) = some (.int (.negSucc k)) :=
      magnitude_digitsOf true h (by simp)
    show scanFrom .between found ((String.ofList ('-' :: digitsOf 10 (k + 1))).toList ++ rest) = _
    rw [String.toList_ofList]
    refine scanFrom_atom (by simp) ?_ hatom hends found
    intro c hc
    rcases List.mem_cons.mp hc with rfl | hc
    · decide
    · exact hdigits _ c hc

/-! ## Tokens of a value -/

mutual

/-- The tokens that a value is written as. -/
def tokens : Value → List Token
  | .null | .real | .unreadable => [.atom .null]
  | .bool b => [.atom (.bool b)]
  | .int n => [.atom (.int n)]
  | .text s => [.text (some s)]
  | .list items => .openList :: itemTokens items ++ [.closeList]
  | .record entries => .openRecord :: entryTokens entries ++ [.closeRecord]

/-- The tokens of items with commas between them. -/
def itemTokens : List Value → List Token
  | [] => []
  | [v] => tokens v
  | v :: rest => tokens v ++ .comma :: itemTokens rest

/-- The tokens of entries with commas between them. -/
def entryTokens : List (String × Value) → List Token
  | [] => []
  | [(name, v)] => .text (some name) :: .colon :: tokens v
  | (name, v) :: rest => .text (some name) :: .colon :: tokens v ++ .comma :: entryTokens rest

end

mutual

/-- **Faithful**: all of the value denotes something when it is written, where
    `opened` containers are open around it. -/
def Faithful (opened : Nat) : Value → Prop
  | .null | .bool _ | .text _ => True
  | .int n => n.natAbs < significandBound
  | .real | .unreadable => False
  | .list items => opened < nestingLimit ∧ FaithfulItems (opened + 1) items
  | .record entries => opened < nestingLimit ∧ FaithfulEntries (opened + 1) entries

/-- Are all items faithful? -/
def FaithfulItems (opened : Nat) : List Value → Prop
  | [] => True
  | v :: rest => Faithful opened v ∧ FaithfulItems opened rest

/-- Are the values of all entries faithful? -/
def FaithfulEntries (opened : Nat) : List (String × Value) → Prop
  | [] => True
  | (_, v) :: rest => Faithful opened v ∧ FaithfulEntries opened rest

end

/-! ## The scanner finds the tokens -/

section marks
variable (found : List Token) (rest : List Char)

theorem scanFrom_comma : scanFrom .between found (',' :: rest) =
    scanFrom .between (.comma :: found) rest := rfl

theorem scanFrom_colon : scanFrom .between found (':' :: rest) =
    scanFrom .between (.colon :: found) rest := rfl

theorem scanFrom_openList : scanFrom .between found ('[' :: rest) =
    scanFrom .between (.openList :: found) rest := rfl

theorem scanFrom_closeList : scanFrom .between found (']' :: rest) =
    scanFrom .between (.closeList :: found) rest := rfl

theorem scanFrom_openRecord : scanFrom .between found ('\x7b' :: rest) =
    scanFrom .between (.openRecord :: found) rest := rfl

theorem scanFrom_closeRecord : scanFrom .between found ('\x7d' :: rest) =
    scanFrom .between (.closeRecord :: found) rest := rfl

end marks

mutual

/-- **The tokens of a value** are found in its written form, whatever comes after it. -/
theorem scanFrom_render {opened : Nat} (v : Value) (h : Faithful opened v) (found : List Token)
    {rest : List Char} (hends : Stops isWordChar rest) :
    scanFrom .between found (render v ++ rest) =
      scanFrom .between ((tokens v).reverse ++ found) rest := by
  -- By recursion over the value.  Only a word or a number needs to know that it is not run on.
  match v, h with
  | .null, _ =>
    rw [render]
    exact scanFrom_atom (by simp) (List.all_eq_true.mp rfl) rfl hends found
  | .bool true, _ =>
    rw [render]
    exact scanFrom_atom (by simp) (List.all_eq_true.mp rfl) rfl hends found
  | .bool false, _ =>
    rw [render]
    exact scanFrom_atom (by simp) (List.all_eq_true.mp rfl) rfl hends found
  | .int n, h => exact scanFrom_int h hends found
  | .text s, _ => exact scanFrom_renderText s found rest
  | .list items, h =>
    rw [render, tokens, List.cons_append, List.cons_append, scanFrom_openList, List.append_assoc,
      List.singleton_append, scanFrom_renderItems items h.2, scanFrom_closeList]
    simp
  | .record entries, h =>
    rw [render, tokens, List.cons_append, List.cons_append, scanFrom_openRecord,
      List.append_assoc, List.singleton_append, scanFrom_renderEntries entries h.2,
      scanFrom_closeRecord]
    simp

theorem scanFrom_renderItems {opened : Nat} (items : List Value) (h : FaithfulItems opened items)
    (found : List Token) (rest : List Char) :
    scanFrom .between found (renderItems items ++ ']' :: rest) =
      scanFrom .between ((itemTokens items).reverse ++ found) (']' :: rest) := by
  match items, h with
  | [], _ => rfl
  | [v], h =>
    rw [renderItems, itemTokens]
    exact scanFrom_render v h.1 found (stops_cons (by decide) rest)
  | v :: w :: more, h =>
    rw [renderItems, itemTokens, List.append_assoc, List.cons_append,
      scanFrom_render v h.1 found (stops_cons (by decide) _), scanFrom_comma,
      scanFrom_renderItems (w :: more) h.2]
    · simp
    · simp
    · simp

theorem scanFrom_renderEntries {opened : Nat} (entries : List (String × Value))
    (h : FaithfulEntries opened entries) (found : List Token) (rest : List Char) :
    scanFrom .between found (renderEntries entries ++ '\x7d' :: rest) =
      scanFrom .between ((entryTokens entries).reverse ++ found) ('\x7d' :: rest) := by
  match entries, h with
  | [], _ => rfl
  | [(name, v)], h =>
    rw [renderEntries, entryTokens, List.append_assoc, List.cons_append, scanFrom_renderText,
      scanFrom_colon, scanFrom_render v h.1 _ (stops_cons (by decide) rest)]
    simp
  | (name, v) :: e :: more, h =>
    rw [renderEntries, entryTokens, List.append_assoc, List.append_assoc, scanFrom_renderText,
      List.cons_append, scanFrom_colon, List.cons_append,
      scanFrom_render v h.1 _ (stops_cons (by decide) _), scanFrom_comma,
      scanFrom_renderEntries (e :: more) h.2]
    · simp
    · simp
    · simp

end

/-! ## The machine builds the value -/

/-- The entries of a record, as they lie on the stack. -/
def framed (entries : List (String × Value)) : List (Option String × Value) :=
  (entries.map fun e => (some e.1, e.2)).reverse

theorem framed_cons (e : String × Value) (entries : List (String × Value)) :
    framed (e :: entries) = framed entries ++ [(some e.1, e.2)] := by
  simp [framed]

/-- Every name is a text, so the record denotes something. -/
theorem close_framed {depth : Nat} (h : depth ≤ nestingLimit) (entries : List (String × Value)) :
    (Frame.record (framed entries) none).close depth = .record entries := by
  have hnames (l : List (String × Value)) :
      (l.map fun e => (some e.1, e.2)).mapM (fun e => e.1.map fun name => (name, e.2)) =
        some l := by
    induction l with
    | nil => rfl
    | cons e l ih => simp [ih]
  unfold Frame.close framed
  dsimp only
  rw [List.reverse_reverse, hnames]
  exact if_neg (by omega)

theorem close_list {depth : Nat} (h : depth ≤ nestingLimit) (items : List Value) :
    (Frame.list items.reverse).close depth = .list items := by
  unfold Frame.close
  dsimp only
  rw [if_neg (by omega), List.reverse_reverse]

mutual

/-- **The tokens of a value** put it where the next value belongs. -/
theorem run_tokens (stack : List Frame) (v : Value) (h : Faithful stack.length v)
    {expect : Expect} (hexpect : expect = .value ∨ expect = .valueOrEnd) :
    (tokens v).foldlM Machine.step ⟨stack, expect⟩ = some (place stack v) := by
  -- By recursion over the value.  What is on the stack already stays below its own frames.
  match v, h with
  | .null, _ | .bool _, _ | .int _, _ | .text _, _ => rcases hexpect with rfl | rfl <;> rfl
  | .list items, h =>
    have hopen : Machine.step ⟨stack, expect⟩ .openList =
        some ⟨.list [] :: stack, .valueOrEnd⟩ := by
      rcases hexpect with rfl | rfl <;> rfl
    have hclose (next : Expect) (hnext : next = .valueOrEnd ∨ next = .separator none) :
        Machine.step ⟨.list items.reverse :: stack, next⟩ .closeList =
          some (place stack (.list items)) := by
      rw [← close_list (Nat.succ_le_of_lt h.1) items]
      rcases hnext with rfl | rfl <;> rfl
    rw [tokens, List.cons_append, List.foldlM_cons, hopen]
    show (itemTokens items ++ [Token.closeList]).foldlM Machine.step _ = _
    match items with
    | [] => exact congrArg (· >>= pure) (hclose .valueOrEnd (Or.inl rfl))
    | v :: rest =>
      rw [List.foldlM_append, run_itemTokens stack (v :: rest) (by simp) h.2 [] (Or.inr rfl),
        List.append_nil]
      exact congrArg (· >>= pure) (hclose (.separator none) (Or.inr rfl))
  | .record entries, h =>
    have hopen : Machine.step ⟨stack, expect⟩ .openRecord =
        some ⟨.record [] none :: stack, .nameOrEnd⟩ := by
      rcases hexpect with rfl | rfl <;> rfl
    have hclose (next : Expect) (hnext : next = .nameOrEnd ∨ next = .separator none) :
        Machine.step ⟨.record (framed entries) none :: stack, next⟩ .closeRecord =
          some (place stack (.record entries)) := by
      rw [← close_framed (Nat.succ_le_of_lt h.1) entries]
      rcases hnext with rfl | rfl <;> rfl
    rw [tokens, List.cons_append, List.foldlM_cons, hopen]
    show (entryTokens entries ++ [Token.closeRecord]).foldlM Machine.step _ = _
    match entries with
    | [] => exact congrArg (· >>= pure) (hclose .nameOrEnd (Or.inl rfl))
    | e :: rest =>
      rw [List.foldlM_append, run_entryTokens stack (e :: rest) (by simp) h.2 [] (Or.inr rfl),
        List.append_nil]
      exact congrArg (· >>= pure) (hclose (.separator none) (Or.inr rfl))

/-- The items of a list go in, one after the other. -/
theorem run_itemTokens (stack : List Frame) (items : List Value) (hne : items ≠ [])
    (h : FaithfulItems (stack.length + 1) items) (before : List Value) {expect : Expect}
    (hexpect : expect = .value ∨ expect = .valueOrEnd) :
    (itemTokens items).foldlM Machine.step ⟨.list before :: stack, expect⟩ =
      some ⟨.list (items.reverse ++ before) :: stack, .separator none⟩ := by
  match items, h with
  | [], _ => exact absurd rfl hne
  | [v], h => exact run_tokens (.list before :: stack) v h.1 hexpect
  | v :: w :: more, h =>
    have hrest := run_itemTokens stack (w :: more) (by simp) h.2 (v :: before) (Or.inl rfl)
    rw [itemTokens, List.foldlM_append, run_tokens (.list before :: stack) v h.1 hexpect]
    · refine Eq.trans hrest ?_
      simp
    · simp

/-- The entries of a record go in, one after the other. -/
theorem run_entryTokens (stack : List Frame) (entries : List (String × Value))
    (hne : entries ≠ []) (h : FaithfulEntries (stack.length + 1) entries)
    (before : List (Option String × Value)) {expect : Expect}
    (hexpect : expect = .name ∨ expect = .nameOrEnd) :
    (entryTokens entries).foldlM Machine.step ⟨.record before none :: stack, expect⟩ =
      some ⟨.record (framed entries ++ before) none :: stack, .separator none⟩ := by
  -- Whether or not it is the first, an entry begins with its name.
  have hname (name : String) : [Token.text (some name), .colon].foldlM Machine.step
      ⟨.record before none :: stack, expect⟩ =
        some ⟨.record before (some name) :: stack, .value⟩ := by
    rcases hexpect with rfl | rfl <;> rfl
  match entries, h with
  | [], _ => exact absurd rfl hne
  | [(name, v)], h =>
    show ([Token.text (some name), .colon] ++ tokens v).foldlM Machine.step _ = _
    rw [List.foldlM_append, hname]
    exact run_tokens (.record before (some name) :: stack) v h.1 (Or.inl rfl)
  | (name, v) :: e :: more, h =>
    have hrest := run_entryTokens stack (e :: more) (by simp) h.2 ((some name, v) :: before)
      (Or.inl rfl)
    show ([Token.text (some name), .colon] ++
      (tokens v ++ .comma :: entryTokens (e :: more))).foldlM Machine.step _ = _
    rw [List.foldlM_append, hname, Option.bind_eq_bind, Option.bind_some, List.foldlM_append,
      run_tokens (.record before (some name) :: stack) v h.1 (Or.inl rfl)]
    refine Eq.trans hrest ?_
    rw [framed_cons (name, v), List.append_assoc, List.singleton_append]

end

/-! ## Texts -/

/-- **Written data is read back.** -/
theorem parse?_toText {v : Value} (h : Faithful 0 v) : parse? (toText v) = some v := by
  have hscan : scan? (toText v).toList = some (tokens v) := by
    have htokens := scanFrom_render v h [] stops_nil
    rw [List.append_nil, List.append_nil] at htokens
    unfold scan? toText
    rw [String.toList_ofList, htokens]
    unfold scanFrom
    simp
  have hrun : (tokens v).foldlM Machine.step ⟨[], .value⟩ = some ⟨[], .separator (some v)⟩ :=
    run_tokens [] v h (Or.inl rfl)
  unfold parse?
  rw [hscan]
  show assemble? (tokens v) = some v
  unfold assemble?
  rw [hrun]
  rfl

end OrderFlow.Json
