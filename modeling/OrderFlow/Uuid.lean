import OrderFlow.Text.Digits

/-! # Universally unique ids

    128 bits, written as 32 hexadecimal digits in groups of 8-4-4-4-12.
    Reading is more generous than writing: the digits may be in either case,
    without hyphens, or with hyphens and then also in braces or behind
    `urn:uuid:`. -/

namespace OrderFlow

/-- A 128-bit id. -/
structure Uuid where
  /-- The 128 bits, most significant first. -/
  bits : BitVec 128
  deriving DecidableEq

namespace Uuid

open Text

/-- The id with the given number, taken modulo `2 ^ 128`. -/
def ofNat (n : Nat) : Uuid :=
  ⟨BitVec.ofNat 128 n⟩

/-- The id as a number. -/
def toNat (u : Uuid) : Nat :=
  u.bits.toNat

/-- Ids are ordered as numbers, which is also the order of their texts. -/
instance : Ord Uuid where
  compare a b := compare a.toNat b.toNat

/-- The written form, in lower case and with hyphens. -/
def render (u : Uuid) : List Char :=
  let ds := paddedDigits 16 32 u.toNat
  ds.take 8 ++ '-' :: (ds.drop 8).take 4 ++ '-' :: (ds.drop 12).take 4 ++
    '-' :: (ds.drop 16).take 4 ++ '-' :: ds.drop 20

instance : ToString Uuid where
  toString u := String.ofList u.render

/-- Reads 32 hexadecimal digits. -/
def ofHex? (cs : List Char) : Option Uuid :=
  if cs.length = 32 ∧ cs.all (isDigitOf 16) then some (ofNat (ofDigits 16 cs)) else none

/-- Reads 36 characters: digits in groups of 8-4-4-4-12 with hyphens between. -/
def ofHyphenated? (cs : List Char) : Option Uuid :=
  if cs.length = 36 ∧ [8, 13, 18, 23].all (fun i => cs[i]? == some '-') then
    ofHex? (cs.take 8 ++ (cs.drop 9).take 4 ++ (cs.drop 14).take 4 ++ (cs.drop 19).take 4 ++
      cs.drop 24)
  else
    none

/-- What may stand before the hyphenated form, in either case. -/
def urn : List Char := ['u', 'r', 'n', ':', 'u', 'u', 'i', 'd', ':']

/-- Reads any of the accepted forms; no character may stand around them. -/
def ofList? (cs : List Char) : Option Uuid :=
  if cs.length = 32 then ofHex? cs
  else if cs.length = 36 then ofHyphenated? cs
  else if cs.length = 38 ∧ cs.head? = some '\x7b' ∧ cs.getLast? = some '\x7d' then
    ofHyphenated? ((cs.drop 1).take 36)
  else if cs.length = 45 ∧ (cs.take 9).map Char.toLower = urn then
    ofHyphenated? (cs.drop 9)
  else
    none

/-- Reads any of the accepted forms. -/
def parse? (s : String) : Option Uuid :=
  ofList? s.toList

/-- The random id with the given 122 free bits: the version field says 4,
    the variant field binary 10. -/
def versionFour (n : Nat) : Uuid :=
  let high := n / 2 ^ 74 % 2 ^ 48
  let middle := n / 2 ^ 62 % 2 ^ 12
  let low := n % 2 ^ 62
  ofNat (high * 2 ^ 80 + 4 * 2 ^ 76 + middle * 2 ^ 64 + 2 * 2 ^ 62 + low)

end Uuid

/-- A source of random ids: the `k`-th draw gives the version 4 id with the
    free bits `first + k`, so no two of the first `2 ^ 122` draws agree. -/
structure IdSupply where
  /-- The free bits of the next id. -/
  next : Nat
  deriving DecidableEq

/-- The next id, and the supply without it. -/
def IdSupply.draw (s : IdSupply) : Uuid × IdSupply :=
  (Uuid.versionFour s.next, ⟨s.next + 1⟩)

end OrderFlow
