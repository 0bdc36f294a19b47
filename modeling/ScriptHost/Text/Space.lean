/-!
# White space

Which characters count as white space when a text is trimmed: the Unicode property White_Space.
-/

namespace ScriptHost.Text

/-- The characters with the Unicode property White_Space. -/
def isSpace (c : Char) : Bool :=
  let n := c.toNat
  (0x09 ≤ n && n ≤ 0x0D) || n == 0x20 || n == 0x85 || n == 0xA0 || n == 0x1680 ||
    (0x2000 ≤ n && n ≤ 0x200A) || n == 0x2028 || n == 0x2029 || n == 0x202F || n == 0x205F ||
    n == 0x3000

/-! ## Trimming lists of characters -/

/-- Drops the white space that a list begins with. -/
def trimStart (cs : List Char) : List Char :=
  cs.dropWhile isSpace

/-- Drops the white space that a list ends with. -/
def trimEnd (cs : List Char) : List Char :=
  (cs.reverse.dropWhile isSpace).reverse

/-- Removes the white space at both ends. -/
def trimChars (cs : List Char) : List Char :=
  trimEnd (trimStart cs)

/-- Removes the white space at both ends of a text. -/
def trim (s : String) : String :=
  String.ofList (trimChars s.toList)

@[simp] theorem trimChars_nil : trimChars [] = [] := rfl

end ScriptHost.Text
