import ScriptHost.Glob.Pattern

/-!
# Globs

The text form of path patterns. A star stands for any bytes and a question mark for one; slashes and
line ends are bytes like others. Two stars as a whole segment stand for any number of folders.
Square brackets list the bytes that may stand in one place, braces list alternatives, and a
backslash takes the next character as it is. The case of ASCII letters does not count.

A glob also has a depth, the number of braces, brackets, choices, sequences and stars around its
innermost part. Globs that nest deeper than `depthLimit` are well formed but are not looked for.
-/

namespace ScriptHost.Glob

inductive Token where
  | literal (c : Char)
  | anyOne
  | anyMany
  /-- Two stars and a slash at the start: any folders, or none. -/
  | folders
  /-- A slash and two stars at the end: anything below. -/
  | beneath
  /-- Two stars between slashes: any folders between, or none. -/
  | between
  /-- One byte out of ranges of characters, or out of all others. -/
  | oneOf (negated : Bool) (ranges : List (Char × Char))
  | choice (branches : List (List Token))

/-! ## Reading -/

/-- Where the reader stands within the text. -/
inductive Mode where
  | plain
  | escaped
  /-- Just behind an opening square bracket. -/
  | opening
  /-- Within square brackets: whether nothing has been listed yet, whether a range waits for its
  end, and the ranges so far, latest first. -/
  | members (negated fresh waiting : Bool) (ranges : List (Char × Char))

/-- The tokens read so far, latest first: those of the current branch, and for each open brace the
branches finished and the tokens before it. -/
structure Draft where
  branch : List Token
  outer : List (List (List Token) × List Token)

namespace Draft

def start : Draft := ⟨[], []⟩

def push (d : Draft) (t : Token) : Draft :=
  { d with branch := t :: d.branch }

def inBraces (d : Draft) : Bool :=
  !d.outer.isEmpty

def openBrace (d : Draft) : Draft :=
  ⟨[], ([], d.branch) :: d.outer⟩

/-- A comma ends a branch within braces and stands for itself outside. -/
def comma (d : Draft) : Draft :=
  match d.outer with
  | [] => d.push (.literal ',')
  | (finished, before) :: outer => ⟨[], (d.branch.reverse :: finished, before) :: outer⟩

def closeBrace? (d : Draft) : Option Draft :=
  match d.outer with
  | [] => none
  | (finished, before) :: outer =>
    some ⟨.choice (d.branch.reverse :: finished).reverse :: before, outer⟩

/-- Two stars behind a slash take its place. Behind other folder stars they add nothing. -/
def absorb (d : Draft) (t : Token) : Draft :=
  match d.branch with
  | .folders :: _ | .beneath :: _ => d
  | _ :: before => { d with branch := t :: before }
  | [] => d.push t

/-- What a pair of stars means and how many of the characters behind it belong to it. -/
def stars (d : Draft) (previous : Option Char) (rest : List Char) : Draft × List Char :=
  let plainStars := ((d.push .anyMany).push .anyMany, rest)
  if d.branch.isEmpty then
    if rest.isEmpty then (d.push .folders, [])
    else if rest.head? = some '/' then (d.push .folders, rest.tail)
    else plainStars
  else if previous = some '/' ∨ (d.inBraces ∧ (previous = some ',' ∨ previous = some '\x7b')) then
    match rest with
    | [] => (d.absorb .beneath, [])
    | c :: after =>
      if d.inBraces ∧ (c = ',' ∨ c = '\x7d') then (d.absorb .beneath, rest)
      else if c = '/' then (d.absorb .between, after)
      else plainStars
  else plainStars

end Draft

/-- Lists one more character within square brackets; a range must not run backwards. -/
def addMember (negated fresh waiting : Bool) (ranges : List (Char × Char)) (c : Char) :
    Option Mode :=
  if c = '-' ∧ !fresh ∧ !waiting then some (.members negated false true ranges)
  else if waiting then
    match ranges with
    | (low, _) :: ranges =>
      if c < low then none else some (.members negated false false ((low, c) :: ranges))
    | [] => none
  else some (.members negated false false ((c, c) :: ranges))

theorem Draft.length_stars_le (d : Draft) (previous : Option Char) (rest : List Char) :
    (d.stars previous rest).2.length ≤ rest.length := by
  unfold Draft.stars
  repeat' split
  all_goals simp_all

/-- Reads a glob from a place on; `previous` is the character before it. -/
def read (mode : Mode) (previous : Option Char) (d : Draft) : List Char → Option (List Token)
  | [] =>
    match mode with
    | .plain => if d.inBraces then none else some d.branch.reverse
    | _ => none
  | c :: cs =>
    match mode with
    | .escaped => read .plain (some c) (d.push (.literal c)) cs
    | .opening =>
      if c = '!' ∨ c = '^' then read (.members true true false []) (some c) d cs
      else match addMember false true false [] c with
        | some mode => read mode (some c) d cs
        | none => none
    | .members negated fresh waiting ranges =>
      if c = ']' ∧ !fresh then
        let ranges := if waiting then ('-', '-') :: ranges else ranges
        read .plain (some c) (d.push (.oneOf negated ranges.reverse)) cs
      else match addMember negated fresh waiting ranges c with
        | some mode => read mode (some c) d cs
        | none => none
    | .plain =>
      if c = '*' then
        match cs with
        | '*' :: rest =>
          let r := d.stars previous rest
          have := d.length_stars_le previous rest
          read .plain (some (if r.2.length < rest.length then '/' else '*')) r.1 r.2
        | cs => read .plain (some c) (d.push .anyMany) cs
      else if c = '?' then read .plain (some c) (d.push .anyOne) cs
      else if c = '[' then read .opening (some c) d cs
      else if c = '\x7b' then read .plain (some c) d.openBrace cs
      else if c = '\x7d' then
        match d.closeBrace? with
        | some d => read .plain (some c) d cs
        | none => none
      else if c = ',' then read .plain (some c) d.comma cs
      else if c = '\\' then read .escaped (some c) d cs
      else read .plain (some c) (d.push (.literal c)) cs
  termination_by cs => cs.length

/-! ## Meaning -/

/-- The lower case of an ASCII letter. -/
def foldByte (b : UInt8) : UInt8 :=
  if 0x41 ≤ b ∧ b ≤ 0x5A then b + 0x20 else b

/-- One byte, in either case. -/
def byte (b : UInt8) : Pattern :=
  .one fun x => foldByte x == foldByte b

/-- These bytes, in either case. -/
def bytes : Bytes → Pattern
  | [] => .nothing
  | b :: bs => .seq (byte b) (bytes bs)

/-- The ranges of bytes that a range of characters stands for: the bytes of its ends side by side,
with a range between the last byte of the one and the first byte of the other. -/
def byteRanges (r : Char × Char) : List (UInt8 × UInt8) :=
  let low := String.utf8EncodeChar r.1
  let high := String.utf8EncodeChar r.2
  let single (b : UInt8) := (b, b)
  if r.1 = r.2 then low.map single
  else
    low.dropLast.map single ++ [(low.getLastD 0, high.headD 0)] ++ high.tail.map single

/-- The other case of an ASCII letter. -/
def swapByte (b : UInt8) : UInt8 :=
  if 0x41 ≤ b ∧ b ≤ 0x5A then b + 0x20 else if 0x61 ≤ b ∧ b ≤ 0x7A then b - 0x20 else b

/-- One byte out of ranges, in either case. -/
def listed (ranges : List (Char × Char)) (x : UInt8) : Bool :=
  (ranges.flatMap byteRanges).any fun r =>
    (r.1 ≤ x && x ≤ r.2) || (r.1 ≤ swapByte x && swapByte x ≤ r.2)

def slash : Pattern := byte 0x2F

mutual
/-- Whether a token stands for no text at all, as empty braces do. -/
def Token.isBlank : Token → Bool
  | .choice branches => allBlank branches
  | _ => false

def branchBlank : List Token → Bool
  | [] => true
  | t :: ts => t.isBlank && branchBlank ts

def allBlank : List (List Token) → Bool
  | [] => true
  | b :: bs => branchBlank b && allBlank bs
end

mutual
/-- The bytes that a token stands for. -/
def Token.pattern : Token → Pattern
  | .literal c => bytes (String.utf8EncodeChar c)
  | .anyOne => .one fun _ => true
  | .anyMany => .many
  | .folders => .either (.either .nothing slash) (.seq .many slash)
  | .beneath => .seq slash .many
  | .between => .either slash (.seq slash (.seq .many slash))
  | .oneOf negated ranges => .one fun x => listed ranges x != negated
  | .choice branches => (choicePattern? branches).getD .nothing

def sequence : List Token → Pattern
  | [] => .nothing
  | t :: ts => .seq t.pattern (sequence ts)

/-- The alternatives of braces; blank ones do not count. -/
def choicePattern? : List (List Token) → Option Pattern
  | [] => none
  | b :: bs =>
    if branchBlank b then choicePattern? bs
    else match choicePattern? bs with
      | none => some (sequence b)
      | some p => some (.either (sequence b) p)
end

/-! ## Depth -/

/-- How many parts stand side by side, and how deep the deepest of them nests. -/
structure Nesting where
  parts : Nat
  depth : Nat

namespace Nesting

def none : Nesting := ⟨0, 0⟩

/-- As many bytes, one behind the other. -/
def bytes (count : Nat) : Nesting := ⟨count, 0⟩

/-- One byte that may be missing or stand several times. -/
def repeated : Nesting := ⟨1, 1⟩

def beside (a b : Nesting) : Nesting :=
  ⟨a.parts + b.parts, max a.depth b.depth⟩

/-- The depth of what stands side by side as a whole: two parts or more are a sequence. -/
def whole (n : Nesting) : Nat :=
  if n.parts < 2 then n.depth else n.depth + 1

/-- Braces around branches of these depths: two branches or more are a choice. -/
def braces : List Nat → Nesting
  | [] => none
  | [depth] => ⟨1, depth + 1⟩
  | depths => ⟨1, depths.foldl max 0 + 2⟩

/-- Square brackets: two members or more are a choice. -/
def brackets (members : Nat) : Nesting :=
  ⟨1, if members < 2 then 1 else 2⟩

end Nesting

mutual
/-- Stars for folders are braces around a lone slash, which may be missing at the start, and around
anything that ends in a slash. -/
def Token.nesting : Token → Nesting
  | .literal c => .bytes (String.utf8EncodeChar c).length
  | .anyOne => .bytes 1
  | .anyMany => .repeated
  | .folders => .braces [Nesting.repeated.whole, (Nesting.repeated.beside (.bytes 1)).whole]
  | .beneath => (Nesting.bytes 1).beside .repeated
  | .between =>
    let upToSlash := Nesting.repeated.beside (.bytes 1)
    .braces [(Nesting.bytes 1).whole, ((Nesting.bytes 1).beside upToSlash).whole]
  | .oneOf _ ranges => .brackets (ranges.flatMap byteRanges).length
  | .choice branches => .braces (branchDepths branches)

def sequenceNesting : List Token → Nesting
  | [] => .none
  | t :: ts => t.nesting.beside (sequenceNesting ts)

/-- The depths of the branches of braces; blank ones do not count. -/
def branchDepths : List (List Token) → List Nat
  | [] => []
  | b :: bs =>
    let n := sequenceNesting b
    if n.parts = 0 then branchDepths bs else n.whole :: branchDepths bs
end

/-! ## Globs as texts -/

/-- The tokens of a glob, if it is well formed. -/
def tokens? (text : String) : Option (List Token) :=
  read .plain none .start text.toList

/-- The pattern of a glob, if it is well formed. Two stars alone match everything. -/
def pattern? (text : String) : Option Pattern :=
  (tokens? text).map fun tokens =>
    match tokens with
    | [.folders] => .many
    | _ => sequence tokens

/-- How deep a glob nests, if it is well formed. As a whole it is a sequence, however short. -/
def depth? (text : String) : Option Nat :=
  (tokens? text).map fun tokens => (sequenceNesting tokens).depth + 1

/-- The deepest that globs are looked for. -/
def depthLimit : Nat := 250

/-- Whether a well-formed glob matches a path. -/
def accepts (text path : String) : Bool :=
  match pattern? text with
  | some p => p.accepts (Text.encode path)
  | none => false

/-- Braces around one branch are one level, around two or more they are two; blank branches do not
count, and a character of two bytes is a sequence. -/
example : depth? "a" = some 1 ∧ depth? "\x7ba\x7d" = some 2 ∧ depth? "\x7ba,b\x7d" = some 3 ∧
    depth? "\x7ba,\x7b\x7d\x7d" = some 2 ∧ depth? "\x7bab\x7d" = some 3 ∧
    depth? "\x7bé\x7d" = some 3 ∧ depth? "[ab]" = some 3 ∧ depth? "**/a" = some 5 ∧
    depth? "\x7b" = none := by
  decide +kernel

end ScriptHost.Glob
