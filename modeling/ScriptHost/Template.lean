import ScriptHost.Data.Json
import ScriptHost.Text.Index
import ScriptHost.Text.Space

/-!
# Text templates

A template is text with placeholders: between a dollar sign with an opening brace and the next
closing brace, on one line, stands a name, perhaps followed by dots and further names that descend
into records and lists. Rendering puts the values in place of the placeholders and leaves the rest
as it is.
-/

namespace ScriptHost.Template

inductive Segment where
  | text (s : String)
  | field (name : String) (path : List String)
  deriving DecidableEq

/-- What can be wrong with a placeholder. -/
inductive Fault where
  /-- Its line ends before it is closed. -/
  | unterminated
  /-- A part between its dots is empty. -/
  | emptyPart (expression : String)
  deriving DecidableEq

def Fault.message : Fault → String
  | .unterminated => "unterminated placeholder"
  | .emptyPart e => "invalid placeholder " ++ "\x60$\x7b" ++ e ++ "\x7d\x60"

/-! ## Reading -/

/-- The text before the first opening of a placeholder, and what follows the opening. -/
def splitOpening : List Char → List Char × Option (List Char)
  | [] => ([], none)
  | '$' :: '\x7b' :: rest => ([], some rest)
  | c :: cs =>
    let (literal, rest) := splitOpening cs
    (c :: literal, rest)

/-- The text before the closing brace, and what follows it, if the brace comes before the end of the
line. -/
def splitClosing : List Char → Option (List Char × List Char)
  | [] => none
  | c :: cs =>
    if c = '\x7d' then some ([], cs)
    else if c = '\n' then none
    else (splitClosing cs).map fun (expression, rest) => (c :: expression, rest)

theorem length_splitClosing {cs expression rest : List Char}
    (h : splitClosing cs = some (expression, rest)) : rest.length < cs.length := by
  induction cs generalizing expression with
  | nil => simp [splitClosing] at h
  | cons c cs ih =>
    simp only [splitClosing] at h
    split at h
    · cases h
      simp
    · split at h
      · simp at h
      · obtain ⟨⟨e, r⟩, hs, he⟩ := Option.map_eq_some_iff.1 h
        cases he
        exact Nat.lt_succ_of_lt (ih hs)

theorem length_splitOpening {cs literal body : List Char}
    (h : splitOpening cs = (literal, some body)) : body.length < cs.length := by
  induction cs using splitOpening.induct generalizing literal with
  | case1 => simp [splitOpening] at h
  | case2 rest =>
    simp only [splitOpening, Prod.mk.injEq, Option.some.injEq] at h
    have : body.length = rest.length := by rw [h.2]
    simp only [List.length_cons]
    omega
  | case3 c cs hne l r hs ih =>
    rw [splitOpening, hs] at h
    · cases h
      exact Nat.lt_succ_of_lt (ih hs)
    · exact hne

/-- The trimmed parts between the dots of an expression. -/
def parts (expression : List Char) : List (List Char) :=
  (expression.splitOn '.').map Text.trimChars

/-- The segment of a placeholder, by the text between its braces. -/
def field? (expression : List Char) : Except Fault Segment :=
  let expression := Text.trimChars expression
  match parts expression with
  | name :: path =>
    if name.isEmpty || path.any List.isEmpty then .error (.emptyPart (String.ofList expression))
    else .ok (.field (String.ofList name) (path.map String.ofList))
  | [] => .error (.emptyPart (String.ofList expression))

/-- The segment of a text, unless it is empty. -/
def literal (cs : List Char) : List Segment :=
  if cs.isEmpty then [] else [.text (String.ofList cs)]

/-- The segments of a text that starts on a given line, or the first fault with its line. -/
def segmentsFrom (line : Nat) (cs : List Char) : Except (Fault × Nat) (List Segment) :=
  match h : splitOpening cs with
  | (text, none) => .ok (literal text)
  | (text, some body) =>
    let line := line + text.count '\n'
    match h' : splitClosing body with
    | none => .error (.unterminated, line)
    | some (expression, rest) =>
      match field? expression with
      | .error fault => .error (fault, line)
      | .ok field =>
        have := Nat.lt_trans (length_splitClosing h') (length_splitOpening h)
        (segmentsFrom line rest).map fun segments => literal text ++ field :: segments
  termination_by cs.length

end Template

/-- A template that has been read. -/
structure Template where
  segments : List Template.Segment
  deriving DecidableEq

namespace Template

/-- Reads a template, or gives the first fault with its line, counted from one. -/
def parse (source : String) : Except (Fault × Nat) Template :=
  (segmentsFrom 1 source.toList).map Template.mk

/-! ## Rendering -/

/-- One step down: into a record by name, into a list by position. -/
def child? (name : String) : Data → Option Data
  | .record fields => Data.field? name fields
  | .list items => (Text.index? name).bind fun i => items[i]?
  | _ => none

/-- The value that a path leads to. -/
def descend? (value : Data) (path : List String) : Option Data :=
  path.foldlM (fun current name => child? name current) value

/-- How a value shows: text as it is, null and what is missing not at all, the rest as JSON. -/
def shown : Option Data → String
  | none | some .null => ""
  | some (.text s) => s
  | some d => d.json

def Segment.render (lookup : String → Option Data) : Segment → String
  | .text s => s
  | .field name path => shown ((lookup name).bind fun value => descend? value path)

/-- The text of a template, with the values that `lookup` finds. -/
def render (t : Template) (lookup : String → Option Data) : String :=
  String.join (t.segments.map (Segment.render lookup))

end ScriptHost.Template
