import ScriptHost.Toml.Scalar

/-!
# Settings texts

Reads a TOML text as one table. The length of what is left of the text serves as fuel wherever a
reader calls itself.
-/

namespace ScriptHost.Toml

/-- What follows a comment, if one starts here: the end of its line. -/
def skipComment? (cs : List Char) : Option (List Char) :=
  match cs with
  | '#' :: cs =>
    let comment := cs.takeWhile fun c => !isForbidden c
    let rest := cs.drop comment.length
    if rest.isEmpty ∨ (newline? rest).isSome then some rest else none
  | cs => some cs

/-- Skips blanks, line ends and comments. -/
def skipFill : Nat → List Char → Option (List Char)
  | 0, cs => some cs
  | fuel + 1, cs => do
    let cs ← skipComment? (skipBlank cs)
    match newline? cs with
    | some cs => skipFill fuel cs
    | none => return cs

/-- One part of a dotted name. -/
def simpleKey : Reader String
  | '"' :: cs => (basic (cs.length + 1) cs).map fun (s, rest) => (String.ofList s, rest)
  | '\'' :: cs => (verbatim cs).map fun (s, rest) => (String.ofList s, rest)
  | cs =>
    let name := cs.takeWhile isWordChar
    if name.isEmpty then none else some (String.ofList name, cs.drop name.length)

/-- A dotted name. Blanks may stand around the dots. -/
def key : Nat → Reader (List String)
  | 0, _ => none
  | fuel + 1, cs => do
    let (name, cs) ← simpleKey cs
    match skipBlank cs with
    | '.' :: cs => do
      let (names, cs) ← key fuel (skipBlank cs)
      return (name :: names, cs)
    | cs => return ([name], cs)

/-- How deep lists and tables in braces may nest, and how many parts a dotted name may have. -/
def depthLimit : Nat := 80

/-- A dotted name with as many parts as are allowed. -/
def path : Reader (List String) := fun cs =>
  match key (cs.length + 1) cs with
  | some (names, rest) => if names.length ≤ depthLimit then some (names, rest) else none
  | none => none

mutual
/-- A value within which lists and tables may nest as deep as `depth` says. -/
def value : Nat → Nat → Reader Value
  | 0, _, _ => none
  | fuel + 1, depth, cs =>
    let text (r : Option (List Char × List Char)) := r.map fun (s, rest) =>
      (Value.text (String.ofList s), rest)
    match cs, depth with
    | '"' :: '"' :: '"' :: cs, _ => text (multiline '"' cs)
    | '\'' :: '\'' :: '\'' :: cs, _ => text (multiline '\'' cs)
    | '"' :: cs, _ => text (basic (cs.length + 1) cs)
    | '\'' :: cs, _ => text (verbatim cs)
    | '[' :: _, 0 | '\x7b' :: _, 0 => none
    | '[' :: cs, depth + 1 => (items fuel depth cs).map fun (vs, rest) => (.list vs, rest)
    | '\x7b' :: cs, depth + 1 =>
      (fields fuel depth [] cs).map fun (fs, rest) => (.table (toFields fs), rest)
    | cs, _ => scalar cs

/-- The items of a list, from behind its opening bracket or a comma. -/
def items : Nat → Nat → Reader (List Value)
  | 0, _, _ => none
  | fuel + 1, depth, cs => do
    match ← skipFill cs.length cs with
    | ']' :: cs => return ([], cs)
    | cs =>
      let (v, cs) ← value fuel depth cs
      match ← skipFill cs.length cs with
      | ',' :: cs => do
        let (vs, cs) ← items fuel depth cs
        return (v :: vs, cs)
      | ']' :: cs => return ([v], cs)
      | _ => none

/-- The fields of a table in braces, from behind its opening brace or a comma. Line ends and
comments may stand around names, values and signs, but not within a dotted name. -/
def fields : Nat → Nat → Fields → Reader Fields
  | 0, _, _, _ => none
  | fuel + 1, depth, sofar, cs => do
    match ← skipFill cs.length cs with
    | '\x7d' :: cs => return (sofar, cs)
    | cs =>
      let (name, cs) ← path cs
      match ← skipFill cs.length cs with
      | '=' :: cs => do
        let (v, cs) ← value fuel depth (← skipFill cs.length cs)
        let sofar ← sofar.assign name v
        match ← skipFill cs.length cs with
        | ',' :: cs => fields fuel depth sofar cs
        | '\x7d' :: cs => return (sofar, cs)
        | _ => none
      | _ => none
end

/-- What follows the rest of a line on which nothing more is said. -/
def endOfLine? (cs : List Char) : Option (List Char) := do
  let cs ← skipComment? (skipBlank cs)
  if cs.isEmpty then return [] else newline? cs

/-- The name of a header, and what follows it. -/
def header : Reader (List String) := fun cs =>
  (path (skipBlank cs)).map fun (names, rest) => (names, skipBlank rest)

/-- Reads the lines of a text. `under` is the header they stand under. -/
def readLines : Nat → List String → Fields → List Char → Option Fields
  | 0, _, _, _ => none
  | fuel + 1, under, root, cs => do
    match ← skipFill cs.length cs with
    | [] => return root
    | '[' :: '[' :: cs =>
      let (names, cs) ← header cs
      match cs with
      | ']' :: ']' :: cs =>
        let root ← root.within (Fields.append (names.getLastD "")) names.dropLast
        readLines fuel names root (← endOfLine? cs)
      | _ => none
    | '[' :: cs =>
      let (names, cs) ← header cs
      match cs with
      | ']' :: cs =>
        let root ← root.within (Fields.declare (names.getLastD "")) names.dropLast
        readLines fuel names root (← endOfLine? cs)
      | _ => none
    | cs =>
      let (names, cs) ← path cs
      match cs with
      | '=' :: cs =>
        let (v, cs) ← value (cs.length + 1) depthLimit (skipBlank cs)
        let root ← root.within (Fields.assign names v) under
        readLines fuel under root (← endOfLine? cs)
      | _ => none

/-- The table of a text. A byte order mark in front does not count. -/
def parse? (source : String) : Option (List (String × Value)) :=
  let cs := source.toList
  let cs := if cs.head? = some (Char.ofNat 0xFEFF) then cs.drop 1 else cs
  (readLines (cs.length + 1) [] [] cs).map toFields

end ScriptHost.Toml
