/-! # Blank text

    The blank characters are the ones with the Unicode property
    `White_Space`; `trim` cuts them off both ends and a text is blank when
    it holds nothing else.  Free text that reaches an order (reasons,
    correlation ids, worker ids) is judged by these three functions only. -/

namespace OrderFlow.Text

/-- The characters with the Unicode property `White_Space`. -/
def isBlankChar (c : Char) : Bool :=
  let n := c.toNat
  (0x9 ≤ n && n ≤ 0xD) || n == 0x20 || n == 0x85 || n == 0xA0 || n == 0x1680 ||
    (0x2000 ≤ n && n ≤ 0x200A) || n == 0x2028 || n == 0x2029 || n == 0x202F ||
    n == 0x205F || n == 0x3000

/-- `cs` without the blank characters at its start. -/
def trimStart (cs : List Char) : List Char :=
  cs.dropWhile isBlankChar

/-- `cs` without the blank characters at its end. -/
def trimEnd (cs : List Char) : List Char :=
  (trimStart cs.reverse).reverse

/-- `s` without the blank characters at either end. -/
def trim (s : String) : String :=
  String.ofList (trimEnd (trimStart s.toList))

/-- Does `s` hold no character but blank ones? -/
def isBlank (s : String) : Bool :=
  s.toList.all isBlankChar

/-- The trimmed text, or nothing for a blank one. -/
def nonBlank (s : String) : Option String :=
  if isBlank s then none else some (trim s)

end OrderFlow.Text
