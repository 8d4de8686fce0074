/-! # Scanning

    A scan takes something off the front of a text or refuses; what it
    refuses it leaves untouched, so alternatives can be tried in turn.
    Repetition is bounded by the length of the text, since every round
    takes at least one character. -/

namespace OrderFlow.Toml

/-- A scan for an `α`. -/
abbrev Scan (α : Type) := StateT (List Char) Option α

namespace Scan

/-- Takes a character with the property. -/
def charIf (p : Char → Bool) : Scan Char
  | c :: rest => if p c then some (c, rest) else none
  | [] => none

/-- Takes the given character. -/
def char (c : Char) : Scan Unit := do
  let _ ← charIf (· == c)

/-- Takes the given characters. -/
def chars : List Char → Scan Unit
  | [] => pure ()
  | c :: rest => do
    char c
    chars rest

/-- Takes characters as long as they have the property. -/
def many (p : Char → Bool) : Scan (List Char) := fun cs =>
  some (cs.takeWhile p, cs.dropWhile p)

/-- Takes characters as long as they have the property, at least one. -/
def some1 (p : Char → Bool) : Scan (List Char) := do
  let c ← charIf p
  let rest ← many p
  pure (c :: rest)

/-- Takes exactly `n` characters with the property. -/
def exactly (n : Nat) (p : Char → Bool) : Scan (List Char) := fun cs =>
  let front := cs.take n
  if front.length = n ∧ front.all p then some (front, cs.drop n) else none

/-- Up to `n` rounds of a scan, until it refuses. -/
def rounds (scan : Scan α) : Nat → Scan (List α)
  | 0 => pure []
  | n + 1 => fun cs =>
    match scan cs with
    | none => some ([], cs)
    | some (a, rest) => (rounds scan n rest).map fun (as, rest) => (a :: as, rest)

/-- As many rounds of a scan as there are. -/
def repeated (scan : Scan α) : Scan (List α) := fun cs =>
  rounds scan cs.length cs

/-- One or more rounds of a scan, with separators between them. -/
def separated1 (scan : Scan α) (separator : Scan Unit) : Scan (List α) := do
  let first ← scan
  let rest ← repeated (do separator; scan)
  pure (first :: rest)

/-- What the scan finds, if it finds something. -/
def maybe (scan : Scan α) : Scan (Option α) :=
  (do pure (some (← scan))) <|> pure none

/-- Succeeds where the scan would, and takes nothing. -/
def ahead (scan : Scan α) : Scan Unit := fun cs =>
  (scan cs).map fun _ => ((), cs)

/-- Succeeds at the end of the text. -/
def atEnd : Scan Unit := fun cs =>
  if cs.isEmpty then some ((), cs) else none

end Scan

end OrderFlow.Toml
