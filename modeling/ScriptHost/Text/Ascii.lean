/-!
# Letters without case

Names of engines, languages, extensions and mime types are compared with the case of ASCII letters
ignored; every other character stands for itself.
-/

namespace ScriptHost.Text

/-- Lower-cases the ASCII letters of a text. -/
def lower (s : String) : String :=
  String.ofList (s.toList.map Char.toLower)

/-- Whether two texts differ at most in the case of ASCII letters. -/
def sameName (a b : String) : Bool :=
  lower a == lower b

@[simp] theorem toList_lower (s : String) : (lower s).toList = s.toList.map Char.toLower := by
  simp [lower]

theorem sameName_iff (a b : String) : sameName a b = true ↔ lower a = lower b := by
  simp [sameName]

end ScriptHost.Text
