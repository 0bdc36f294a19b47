/-!
# UTF-8

Bytes of text. `decode?` reads well-formed UTF-8 only; `decodeLossy` reads anything and puts one
replacement character for every maximal part of a sequence that does not continue as it should.
-/

namespace ScriptHost

abbrev Bytes := List UInt8

namespace Text

/-- The UTF-8 form of a text. -/
def encode (s : String) : Bytes :=
  s.toList.flatMap String.utf8EncodeChar

/-- What a reader of UTF-8 meets: a character, or a part of a sequence that leads nowhere. -/
inductive Piece where
  | char (c : Char)
  | broken
  deriving DecidableEq, Repr

/-- How a sequence continues after its first byte: the number of bytes to come, the range of the
next one, and the bits of the character that the first byte holds. -/
structure Lead where
  following : Nat
  low : UInt8
  high : UInt8
  bits : Nat

/-- The first bytes of sequences of several bytes. The ranges of the second byte leave out
needlessly long forms, surrogates and numbers above U+10FFFF. -/
def lead? (b : UInt8) : Option Lead :=
  let n := b.toNat
  if 0xC2 ≤ n ∧ n ≤ 0xDF then some ⟨1, 0x80, 0xBF, n - 0xC0⟩
  else if n = 0xE0 then some ⟨2, 0xA0, 0xBF, 0⟩
  else if n = 0xED then some ⟨2, 0x80, 0x9F, 0xD⟩
  else if 0xE1 ≤ n ∧ n ≤ 0xEF then some ⟨2, 0x80, 0xBF, n - 0xE0⟩
  else if n = 0xF0 then some ⟨3, 0x90, 0xBF, 0⟩
  else if 0xF1 ≤ n ∧ n ≤ 0xF3 then some ⟨3, 0x80, 0xBF, n - 0xF0⟩
  else if n = 0xF4 then some ⟨3, 0x80, 0x8F, 4⟩
  else none

/-- The pieces of a byte text. `open?` is the sequence begun and not yet complete. -/
def piecesFrom : Option Lead → Bytes → List Piece
  | none, [] => []
  | some _, [] => [.broken]
  | none, b :: rest =>
    if b < 0x80 then .char (Char.ofNat b.toNat) :: piecesFrom none rest
    else match lead? b with
      | none => .broken :: piecesFrom none rest
      | some l => piecesFrom (some l) rest
  | some l, b :: rest =>
    if l.low ≤ b ∧ b ≤ l.high then
      let bits := l.bits * 64 + (b.toNat - 0x80)
      if l.following ≤ 1 then .char (Char.ofNat bits) :: piecesFrom none rest
      else piecesFrom (some ⟨l.following - 1, 0x80, 0xBF, bits⟩) rest
    else if b < 0x80 then .broken :: .char (Char.ofNat b.toNat) :: piecesFrom none rest
    else match lead? b with
      | none => .broken :: .broken :: piecesFrom none rest
      | some l' => .broken :: piecesFrom (some l') rest

/-- The pieces of a byte text, from its start. -/
def pieces (bytes : Bytes) : List Piece :=
  piecesFrom none bytes

/-- The character of a piece, if it is one. -/
def Piece.char? : Piece → Option Char
  | .char c => some c
  | .broken => none

/-- Reads well-formed UTF-8. -/
def decode? (bytes : Bytes) : Option String :=
  ((pieces bytes).mapM Piece.char?).map String.ofList

/-- Reads any bytes; U+FFFD stands for each part that is not well formed. -/
def decodeLossy (bytes : Bytes) : String :=
  String.ofList ((pieces bytes).map fun p => p.char?.getD (Char.ofNat 0xFFFD))

end Text

end ScriptHost
