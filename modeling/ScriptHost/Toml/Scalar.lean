import ScriptHost.Text.Hex
import ScriptHost.Toml.Table

/-!
# Words of settings texts

Quoted texts, numbers, dates and times of TOML. Every reader takes the characters from a place on
and gives what it read with the characters behind it, or nothing if the text is malformed.
-/

namespace ScriptHost.Toml

/-- A reader from a list of characters. -/
abbrev Reader (α : Type) := List Char → Option (α × List Char)

def isBlank (c : Char) : Bool :=
  c = ' ' || c = '\t'

/-- Controls may not stand in comments and quoted texts, the tab apart. -/
def isForbidden (c : Char) : Bool :=
  (c.toNat < 0x20 && c != '\t') || c.toNat = 0x7F

def skipBlank (cs : List Char) : List Char :=
  cs.dropWhile isBlank

/-- What follows the end of a line, if a line ends here. -/
def newline? : List Char → Option (List Char)
  | '\n' :: cs => some cs
  | '\r' :: '\n' :: cs => some cs
  | _ => none

/-! ## Quoted texts -/

/-- The character with a number of a given count of hexadecimal digits. -/
def codePoint? (count : Nat) (cs : List Char) : Option (Char × List Char) :=
  if cs.length < count then none
  else match Text.hexValue? (cs.take count) with
    | some n => if n.isValidChar then some (Char.ofNat n, cs.drop count) else none
    | none => none

/-- The character that an escape stands for, from behind its backslash. -/
def escape? : Reader Char
  | [] => none
  | c :: cs => match c with
    | 'b' => some (Char.ofNat 0x08, cs)
    | 't' => some ('\t', cs)
    | 'n' => some ('\n', cs)
    | 'f' => some (Char.ofNat 0x0C, cs)
    | 'r' => some ('\r', cs)
    | 'e' => some (Char.ofNat 0x1B, cs)
    | '"' => some ('"', cs)
    | '\\' => some ('\\', cs)
    | 'x' => codePoint? 2 cs
    | 'u' => codePoint? 4 cs
    | 'U' => codePoint? 8 cs
    | _ => none

/-- A text within double quotes, from behind the first. `fuel` bounds its length. -/
def basic : Nat → Reader (List Char)
  | 0, _ => none
  | _, [] => none
  | fuel + 1, c :: cs =>
    if c = '"' then some ([], cs)
    else if c = '\\' then do
      let (c, cs) ← escape? cs
      let (s, rest) ← basic fuel cs
      return (c :: s, rest)
    else if isForbidden c then none
    else do
      let (s, rest) ← basic fuel cs
      return (c :: s, rest)

/-- A text within single quotes, from behind the first. -/
def verbatim : Reader (List Char)
  | [] => none
  | c :: cs =>
    if c = '\'' then some ([], cs)
    else if isForbidden c then none
    else (verbatim cs).map fun (s, rest) => (c :: s, rest)

/-- The quotes at the end of a text of several lines: three close it, and up to two before them
belong to it. -/
def closing? (quote : Char) (cs : List Char) : Option (Nat × List Char) :=
  let n := (cs.takeWhile (· = quote)).length
  if 3 ≤ n then some (min (n - 3) 2, cs.drop (min n 5)) else none

/-- Skips blanks and line ends. -/
def skipLines : List Char → List Char
  | [] => []
  | '\r' :: '\n' :: cs => skipLines cs
  | c :: cs => if isBlank c ∨ c = '\n' then skipLines cs else c :: cs

/-- A text of several lines, from behind its opening quotes. Line ends stay as they are written. A
backslash at the end of a line joins it to the next text. -/
def lines (quote : Char) : Nat → Reader (List Char)
  | 0, _ => none
  | _, [] => none
  | fuel + 1, c :: cs =>
    match closing? quote (c :: cs) with
    | some (kept, rest) => some (List.replicate kept quote, rest)
    | none =>
      if c = '\\' ∧ quote = '"' then
        if (newline? (skipBlank cs)).isSome then lines quote fuel (skipLines cs)
        else do
          let (c, cs) ← escape? cs
          let (s, rest) ← lines quote fuel cs
          return (c :: s, rest)
      else if isForbidden c ∧ (newline? (c :: cs)).isNone then none
      else (lines quote fuel cs).map fun (s, rest) => (c :: s, rest)

/-- A text of several lines; a line end right behind the opening quotes does not count. -/
def multiline (quote : Char) (cs : List Char) : Option (List Char × List Char) :=
  let cs := (newline? cs).getD cs
  lines quote (cs.length + 1) cs

/-! ## Numbers, dates and times -/

/-- The sign of a number, and the rest of its characters. -/
def sign : List Char → Int × List Char
  | '-' :: cs => (-1, cs)
  | '+' :: cs => (1, cs)
  | cs => (1, cs)

/-- The characters of a number without its underscores, each of which has to stand between two
digits. -/
def ungrouped? (isDigit : Char → Bool) (cs : List Char) : Option (List Char) :=
  let groups := cs.splitOn '_'
  if (groups.tail.all fun g => g.head?.any isDigit) &&
      (groups.dropLast.all fun g => g.getLast?.any isDigit) then some groups.flatten
  else none

def isDigitOf (base : Nat) (c : Char) : Bool :=
  (Text.hexDigit? c).any (· < base)

def valueIn (base : Nat) (digits : List Char) : Nat :=
  digits.foldl (fun n c => n * base + ((Text.hexDigit? c).getD 0)) 0

/-- One decimal digit or more, and nothing else. -/
def isDecimal (cs : List Char) : Bool :=
  !cs.isEmpty && cs.all Char.isDigit

/-- The base that a letter behind a zero announces. -/
def base? : Char → Option Nat
  | 'x' => some 16
  | 'o' => some 8
  | 'b' => some 2
  | _ => none

/-- An integer in a base, from behind its mark. The mark alone has the outline of an integer. -/
def based? (base : Nat) (cs : List Char) : Option (Option Int) :=
  if cs.isEmpty then some none
  else match ungrouped? (isDigitOf base) cs with
    | some digits =>
      if digits.all (isDigitOf base) then some (some (valueIn base digits)) else none
    | none => none

/-- A decimal integer without its sign. Digits up to an underscore make the outline of one, and
hexadecimal digits may stand next to an underscore; whether it is a number shows only when all its
characters are looked at. -/
def decimal? (negative : Bool) (cs : List Char) : Option (Option Int) :=
  let rest := cs.dropWhile Char.isDigit
  if cs.isEmpty ∨ (cs.head? = some '0' ∧ 1 < cs.length) ∨ (rest.head?.any (· != '_')) then none
  else (ungrouped? (isDigitOf 16) cs).map fun digits =>
    if isDecimal digits then
      let n : Int := valueIn 10 digits
      some (if negative then -n else n)
    else none

/-- Whether the characters write a floating-point number with a point or an exponent, without its
sign. -/
def isFloat (cs : List Char) : Bool :=
  match ungrouped? Char.isDigit cs with
  | none => false
  | some digits =>
    let mantissa := digits.takeWhile fun c => c != 'e' && c != 'E'
    let exponent := digits.drop mantissa.length
    let whole := mantissa.takeWhile (· != '.')
    let fraction := mantissa.drop whole.length
    isDecimal whole && !(cs.head? = some '0' && 1 < whole.length) &&
      (fraction.isEmpty || isDecimal (fraction.drop 1)) &&
      (exponent.isEmpty || isDecimal (sign (exponent.drop 1)).2)

/-- Whether the characters are as many decimal digits with a value in a range. -/
def isNumber (count low high : Nat) (cs : List Char) : Bool :=
  cs.length = count && cs.all Char.isDigit && low ≤ valueIn 10 cs && valueIn 10 cs ≤ high

/-- The number of days of a month; every fourth year is a leap year, but of the full centuries only
every fourth. -/
def daysOf (year month : Nat) : Nat :=
  if month = 2 then
    if year % 4 = 0 ∧ (year % 100 ≠ 0 ∨ year % 400 = 0) then 29 else 28
  else if month = 4 ∨ month = 6 ∨ month = 9 ∨ month = 11 then 30
  else 31

def isDate (cs : List Char) : Bool :=
  match cs.splitOn '-' with
  | [y, m, d] =>
    isNumber 4 0 9999 y && isNumber 2 1 12 m &&
      isNumber 2 1 (daysOf (valueIn 10 y) (valueIn 10 m)) d
  | _ => false

/-- Hours and minutes, then perhaps seconds, then perhaps a fraction of a second. -/
def isTime (cs : List Char) : Bool :=
  let whole := cs.takeWhile (· != '.')
  let fraction := cs.drop whole.length
  match whole.splitOn ':' with
  | [h, m] => isNumber 2 0 23 h && isNumber 2 0 59 m && fraction.isEmpty
  | [h, m, s] =>
    isNumber 2 0 23 h && isNumber 2 0 59 m && isNumber 2 0 60 s &&
      (fraction.isEmpty || (1 < fraction.length && (fraction.drop 1).all Char.isDigit))
  | _ => false

/-- A time, perhaps with its distance from universal time. -/
def isZonedTime (cs : List Char) : Bool :=
  let time := cs.takeWhile fun c => c != 'Z' && c != 'z' && c != '+' && c != '-'
  let zone := cs.drop time.length
  let isOffset (cs : List Char) := match cs.splitOn ':' with
    | [h, m] => isNumber 2 0 23 h && isNumber 2 0 59 m
    | _ => false
  isTime time && match zone with
    | [] => true
    | c :: offset => if c = '+' ∨ c = '-' then isOffset offset else offset.isEmpty

/-- Whether the characters write a date, a time, or both. -/
def isMoment (cs : List Char) : Bool :=
  isDate cs || isTime cs ||
    (isDate (cs.take 10) && isZonedTime (cs.drop 11) &&
      match cs[10]? with
      | some c => c = 'T' || c = 't' || c = ' '
      | none => false)

def isWordChar (c : Char) : Bool :=
  c.isAlphanum || c = '_' || c = '-'

/-- The characters that end a word. -/
def delimiters : List Char :=
  "=,[]\x7b\x7d# \t\r\n".toList

/-- The characters of a number, a date, a time or a truth value. A single space may stand between a
date and a time. -/
def word (cs : List Char) : List Char × List Char :=
  let isPart (c : Char) := !delimiters.contains c
  let first := cs.takeWhile isPart
  let rest := cs.drop first.length
  match rest with
  | ' ' :: d :: more =>
    if isDate first ∧ d.isDigit then
      let second := (d :: more).takeWhile isPart
      (first ++ ' ' :: second, (d :: more).drop second.length)
    else (first, rest)
  | _ => (first, rest)

/-- What a word writes. Digits before a minus or a colon begin a date or a time; a point or the
letter of an exponent makes a floating-point number; and the rest are integers. -/
def number? (w : List Char) : Option Value :=
  let (s, cs) := sign w
  let rest := cs.dropWhile Char.isDigit
  let written := Value.scalar (String.ofList w)
  let plain : Option Value :=
    if rest.head? = some '-' ∨ rest.head? = some ':' then
      if isMoment w then some written else none
    else if rest.any fun c => c = '.' || c = 'e' || c = 'E' then
      if isFloat cs then some written else none
    else (decimal? (s < 0) cs).map .int
  if cs = "inf".toList ∨ cs = "nan".toList then some written
  else match w with
    | '0' :: mark :: ds =>
      match base? mark with
      | some base => (based? base ds).map .int
      | none => plain
    | _ => plain

/-- A value that is a single word. -/
def scalar (cs : List Char) : Option (Value × List Char) :=
  let (w, rest) := word cs
  if w = "true".toList then some (.bool true, rest)
  else if w = "false".toList then some (.bool false, rest)
  else (number? w).map fun v => (v, rest)

end ScriptHost.Toml
