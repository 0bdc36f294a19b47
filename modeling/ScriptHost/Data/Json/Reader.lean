import ScriptHost.Data
import ScriptHost.Decimal.Scaled
import ScriptHost.Text.Hex

/-!
# Data from JSON text

Reads JSON text. A number without a point and without an exponent that fits into 64 bits, with or
without a sign, is an integer; every other number, and the zero with a minus, is a floating-point
number and must not be too large for one. Each reader takes the characters from a place on and gives
what it read with the characters behind it.
-/

namespace ScriptHost

namespace Json

/-- A reader from a list of characters. -/
abbrev Reader (α : Type) := List Char → Option (α × List Char)

def skipBlanks (cs : List Char) : List Char :=
  cs.dropWhile fun c => c = ' ' || c = '\t' || c = '\n' || c = '\r'

/-! ## Texts -/

/-- The characters that letters stand for behind a backslash. -/
def escapes : List (Char × Char) :=
  [('"', '"'), ('\\', '\\'), ('/', '/'), ('b', Char.ofNat 0x08), ('f', Char.ofNat 0x0C),
    ('n', '\n'), ('r', '\r'), ('t', '\t')]

/-- The numbers of the characters before the closing quote. A character outside the first plane may
be written with two of them, a pair of surrogates. -/
def readPoints : Reader (List Nat)
  | [] => none
  | '"' :: rest => some ([], rest)
  | '\\' :: 'u' :: a :: b :: c :: d :: rest =>
    match Text.hexValue? [a, b, c, d], readPoints rest with
    | some n, some (points, rest) => some (n :: points, rest)
    | _, _ => none
  | '\\' :: letter :: rest =>
    match escapes.lookup letter, readPoints rest with
    | some c, some (points, rest) => some (c.toNat :: points, rest)
    | _, _ => none
  | c :: rest =>
    if c.toNat < 0x20 then none
    else (readPoints rest).map fun (points, rest) => (c.toNat :: points, rest)

/-- The characters with these numbers, where two surrogates count as one; a lone one is refused. -/
def joinSurrogates : List Nat → Option (List Char)
  | [] => some []
  | [n] => if n.isValidChar then some [Char.ofNat n] else none
  | n :: low :: rest =>
    if n.isValidChar then (joinSurrogates (low :: rest)).map (Char.ofNat n :: ·)
    else if n < 0xDC00 ∧ 0xDC00 ≤ low ∧ low < 0xE000 then
      let joined := 0x10000 + (n - 0xD800) * 0x400 + (low - 0xDC00)
      (joinSurrogates rest).map (Char.ofNat joined :: ·)
    else none

/-- The text from behind its opening quote. -/
def readText : Reader String := fun cs =>
  (readPoints cs).bind fun (points, rest) =>
    (joinSurrogates points).map fun chars => (String.ofList chars, rest)

/-! ## Numbers and words -/

/-- One digit or more. -/
def readDigits : Reader (List Nat) := fun cs =>
  let digits := cs.takeWhile Char.isDigit
  if digits.isEmpty then none
  else some (digits.map fun c => c.toNat - '0'.toNat, cs.drop digits.length)

def digitsValue (digits : List Nat) : Nat :=
  digits.foldl (fun n d => n * 10 + d) 0

/-- The digits behind a point, if one follows. -/
def readFraction : Reader (List Nat)
  | '.' :: cs => readDigits cs
  | cs => some ([], cs)

/-- The exponent, if one follows. -/
def readExponent : Reader (Option Int)
  | mark :: cs =>
    if mark = 'e' ∨ mark = 'E' then
      let (sign, cs) : Int × List Char := match cs with
        | '-' :: cs => (-1, cs)
        | '+' :: cs => (1, cs)
        | cs => (1, cs)
      (readDigits cs).map fun (digits, rest) => (some (sign * digitsValue digits), rest)
    else some (none, mark :: cs)
  | [] => some (none, [])

/-- Whether an integer fits into 64 bits, with or without a sign. -/
def fits (n : Int) : Bool :=
  Int64.minValue.toInt ≤ n && n < UInt64.size

def readNumber : Reader Data := fun cs => do
  let negative := cs.head? = some '-'
  let (whole, rest) ← readDigits (if negative then cs.drop 1 else cs)
  if whole.head? = some 0 ∧ 1 < whole.length then none
  let (fraction, rest) ← readFraction rest
  let (exponent, rest) ← readExponent rest
  let value : Int := if negative then -digitsValue whole else digitsValue whole
  if fraction.isEmpty ∧ exponent.isNone ∧ fits value ∧ ¬ (negative ∧ value = 0) then
    some (.int value, rest)
  else
    let s := Decimal.Scaled.ofDigits whole fraction
    let x ← Decimal.Scaled.toFloat? ⟨s.digits, s.exponent + exponent.getD 0⟩
    some (.real ⟨(if negative then -x else x).toBits⟩, rest)

def words : List (List Char × Data) :=
  [("null".toList, .null), ("true".toList, .bool true), ("false".toList, .bool false)]

/-- A word or a number. -/
def readWord : Reader Data := fun cs =>
  match words.find? fun w => w.1.isPrefixOf cs with
  | some (word, value) => some (value, cs.drop word.length)
  | none => readNumber cs

/-! ## Values -/

mutual
/-- A value with the blanks before it. Every reader of a part takes a character before it hands
over, or hands over to one that does, so twice the number of characters is fuel enough. -/
def readValue : Nat → Reader Data
  | 0, _ => none
  | fuel + 1, cs =>
    match skipBlanks cs with
    | '"' :: rest => (readText rest).map fun (s, rest) => (.text s, rest)
    | '[' :: rest =>
      match skipBlanks rest with
      | ']' :: rest => some (.list [], rest)
      | rest => (readItems fuel rest).map fun (items, rest) => (.list items, rest)
    | '\x7b' :: rest =>
      match skipBlanks rest with
      | '\x7d' :: rest => some (.record [], rest)
      | rest => (readFields fuel rest).map fun (fields, rest) => (.ofFields fields, rest)
    | cs => readWord cs

/-- One item or more, up to the bracket that closes the list. -/
def readItems : Nat → Reader (List Data)
  | 0, _ => none
  | fuel + 1, cs =>
    match readValue fuel cs with
    | none => none
    | some (item, rest) =>
      match skipBlanks rest with
      | ',' :: rest => (readItems fuel rest).map fun (items, rest) => (item :: items, rest)
      | ']' :: rest => some ([item], rest)
      | _ => none

/-- One field or more, up to the brace that closes the record. -/
def readFields : Nat → Reader (List (String × Data))
  | 0, _ => none
  | fuel + 1, cs =>
    match skipBlanks cs with
    | '"' :: rest =>
      match readText rest with
      | none => none
      | some (name, rest) =>
        match skipBlanks rest with
        | ':' :: rest =>
          match readValue fuel rest with
          | none => none
          | some (value, rest) =>
            match skipBlanks rest with
            | ',' :: rest =>
              (readFields fuel rest).map fun (fields, rest) => ((name, value) :: fields, rest)
            | '\x7d' :: rest => some ([(name, value)], rest)
            | _ => none
        | _ => none
    | _ => none
end

end Json

/-- The value that a whole JSON text stands for. -/
def Data.ofJson? (text : String) : Option Data :=
  let cs := text.toList
  match Json.readValue (2 * cs.length + 2) cs with
  | some (value, rest) => if (Json.skipBlanks rest).isEmpty then some value else none
  | none => none

/-- A whole number is an integer up to 64 bits, with a sign or without. -/
example : Data.ofJson? " [1, -1, 18446744073709551615, -9223372036854775808] " =
    some (.list [.int 1, .int (-1), .int 18446744073709551615, .int (-9223372036854775808)]) := by
  cbv

/-- Two surrogates are one character, and a lone one is refused. -/
example : Data.ofJson? "\"\\ud83d\\ude00\"" = some (.text "😀") := rfl

example : Data.ofJson? "\"\\ud83d\"" = none ∧ Data.ofJson? "\"\\ude00\"" = none := ⟨rfl, rfl⟩

/-- No zero leads a number, a point has digits on both sides, and nothing follows the value. -/
example : Data.ofJson? "01" = none ∧ Data.ofJson? "1." = none ∧ Data.ofJson? ".5" = none ∧
    Data.ofJson? "1 2" = none ∧ Data.ofJson? "[1,]" = none ∧ Data.ofJson? "" = none := by
  decide +kernel

end ScriptHost
