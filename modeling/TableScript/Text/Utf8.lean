import TableScript.Text.Surrogate

/-!
Bytes and texts. A byte sequence is read character by character; where no character can be
completed, the longest piece that could have begun one is a defect. Reading either repairs a
defect, by one replacement character each, or stops at the first.
-/

namespace TableScript.Text

/-- What the bytes after a first byte may be: how many are owed, and the bounds of the next one. -/
structure Owed where
  count : Nat
  low : Nat
  high : Nat

def owedAfter (byte : Nat) : Option Owed :=
  if byte < 0x80 then some ⟨0, 0x80, 0xBF⟩
  else if 0xC2 ≤ byte && byte ≤ 0xDF then some ⟨1, 0x80, 0xBF⟩
  else if byte == 0xE0 then some ⟨2, 0xA0, 0xBF⟩
  else if byte == 0xED then some ⟨2, 0x80, 0x9F⟩
  else if 0xE1 ≤ byte && byte ≤ 0xEF then some ⟨2, 0x80, 0xBF⟩
  else if byte == 0xF0 then some ⟨3, 0x90, 0xBF⟩
  else if 0xF1 ≤ byte && byte ≤ 0xF3 then some ⟨3, 0x80, 0xBF⟩
  else if byte == 0xF4 then some ⟨3, 0x80, 0x8F⟩
  else none

-- The part of a first byte that counts towards the code point.
def leadBits (byte count : Nat) : Nat :=
  match count with
  | 0 => byte
  | 1 => byte % 0x20
  | 2 => byte % 0x10
  | _ => byte % 0x08

inductive Defect where
  | badStart
  | badContinuation
  | cutShort
  deriving DecidableEq

/-- One step of reading: a character, or a defect; either with the number of bytes it covers. -/
inductive Piece where
  | char (c : Char) (length : Nat)
  | defect (kind : Defect) (length : Nat)

def continuePiece : Nat → Nat → Nat → Nat → Nat → List UInt8 → Piece
  | 0, _, _, code, length, _ => .char (Char.ofNat code) length
  | _ + 1, _, _, _, length, [] => .defect .cutShort length
  | count + 1, low, high, code, length, byte :: rest =>
      if low ≤ byte.toNat && byte.toNat ≤ high then
        continuePiece count 0x80 0xBF (code * 64 + byte.toNat % 64) (length + 1) rest
      else .defect .badContinuation length

def firstPiece (byte : UInt8) (rest : List UInt8) : Piece :=
  match owedAfter byte.toNat with
  | none => .defect .badStart 1
  | some owed =>
      continuePiece owed.count owed.low owed.high (leadBits byte.toNat owed.count) 1 rest

def Piece.length : Piece → Nat
  | .char _ length => length
  | .defect _ length => length

/-- The characters of a byte sequence, with one replacement character for each defect. -/
def repairChars : List UInt8 → List Char
  | [] => []
  | byte :: rest =>
      let piece := firstPiece byte rest
      let c := match piece with
        | .char c _ => c
        | .defect _ _ => Char.ofNat 0xFFFD
      c :: repairChars (rest.drop (piece.length - 1))
  termination_by bytes => bytes.length
  decreasing_by simp only [List.length_drop, List.length_cons]; omega

def repair (bytes : List UInt8) : String :=
  String.ofList (repairChars bytes)

/-- The first defect of a byte sequence: where it starts, and which bytes it covers. -/
structure Undecodable where
  defect : Defect
  start : Nat
  bytes : List UInt8

def decodeChars (position : Nat) : List UInt8 → Except Undecodable (List Char)
  | [] => .ok []
  | byte :: rest =>
      match firstPiece byte rest with
      | .defect kind length => .error ⟨kind, position, (byte :: rest).take length⟩
      | .char c length =>
          (decodeChars (position + length) (rest.drop (length - 1))).map (c :: ·)
  termination_by bytes => bytes.length
  decreasing_by simp only [List.length_drop, List.length_cons]; omega

def decode (bytes : List UInt8) : Except Undecodable String :=
  (decodeChars 0 bytes).map String.ofList

def encode (text : String) : List UInt8 :=
  text.toUTF8.toList

/-- Lone surrogates that no bytes stand for: the first of them, where it stands, and how many
follow each other from there. -/
structure Unencodable where
  unit : Nat
  start : Nat
  count : Nat

def unencodableFrom? (standIns : StandIns) (position : Nat) : List Char → Option Unencodable
  | [] => none
  | c :: rest =>
      match standIns.unit? c with
      | some unit => some ⟨unit, position, (rest.takeWhile standIns.covers).length + 1⟩
      | none => unencodableFrom? standIns (position + 1) rest

/-- The bytes of a text in which some characters may stand for lone surrogates. -/
def encode? (standIns : StandIns) (text : String) : Except Unencodable (List UInt8) :=
  match unencodableFrom? standIns 0 text.toList with
  | some found => .error found
  | none => .ok (encode text)

/-- A carriage return, alone or before a line feed, is a line end like a line feed. -/
def unifyLineEnds : List Char → List Char
  | '\r' :: '\n' :: rest => '\n' :: unifyLineEnds rest
  | '\r' :: rest => '\n' :: unifyLineEnds rest
  | c :: rest => c :: unifyLineEnds rest
  | [] => []

def withLineFeeds (text : String) : String :=
  String.ofList (unifyLineEnds text.toList)

end TableScript.Text
