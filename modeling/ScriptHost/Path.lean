/-!
# Paths

Slash-separated paths of resources: the path above, and the extension of the last segment. The
main statement, `splitLast?_eq_some_iff`, says what it is to be split at the last separator.
-/

namespace ScriptHost.Path

/-- The texts before and after the last `sep`, if there is one. -/
def splitLast? (sep : Char) : List Char → Option (List Char × List Char)
  | [] => none
  | c :: cs =>
    match splitLast? sep cs with
    | some (before, after) => some (c :: before, after)
    | none => if c = sep then some ([], cs) else none

theorem splitLast?_eq_none_iff {sep : Char} {cs : List Char} :
    splitLast? sep cs = none ↔ sep ∉ cs := by
  induction cs with
  | nil => simp [splitLast?]
  | cons c cs ih => grind [splitLast?]

theorem splitLast?_append {sep : Char} {before after : List Char} (h : sep ∉ after) :
    splitLast? sep (before ++ sep :: after) = some (before, after) := by
  induction before with
  | nil => simp [splitLast?, splitLast?_eq_none_iff.2 h]
  | cons c cs ih => simp [splitLast?, ih]

theorem splitLast?_eq_some_iff {sep : Char} {cs before after : List Char} :
    splitLast? sep cs = some (before, after) ↔ cs = before ++ sep :: after ∧ sep ∉ after := by
  refine ⟨fun h => ?_, fun ⟨h, hn⟩ => h ▸ splitLast?_append hn⟩
  induction cs generalizing before after with
  | nil => simp [splitLast?] at h
  | cons c cs ih =>
    simp only [splitLast?] at h
    cases hs : splitLast? sep cs with
    | some p => grind
    | none => grind [splitLast?_eq_none_iff]

/-- The text without the slashes at its end. -/
def dropSlashes (cs : List Char) : List Char :=
  (cs.reverse.dropWhile (· == '/')).reverse

/-- The path above: none above the root, above a name without a slash, or above nothing. Slashes at
the end do not count. -/
def parent? (path : String) : Option String :=
  match splitLast? '/' (dropSlashes path.toList) with
  | none => none
  | some ([], _) => some "/"
  | some (above, _) => some (String.ofList above)

/-- The last segment of a path. -/
def lastSegment (cs : List Char) : List Char :=
  match splitLast? '/' cs with
  | none => cs
  | some (_, name) => name

/-- What follows the last dot of the last segment, if there is text on both sides of that dot. -/
def extension? (path : String) : Option String :=
  match splitLast? '.' (lastSegment path.toList) with
  | some (_ :: _, c :: ext) => some (String.ofList (c :: ext))
  | _ => none

end ScriptHost.Path
