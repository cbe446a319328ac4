/-!
Texts as bytes.

A character takes one to four bytes. Bytes that encode no text are read as the replacement
character, one for each longest run that could have begun a character.
-/

namespace CodeAssist.Text

/-! ## 1. Encoding -/

def encode (s : String) : List UInt8 :=
  s.toUTF8.toList

def charsOfBytes (bytes : List UInt8) : List Char :=
  bytes.map fun b => Char.ofNat b.toNat

def bytesOfChars (cs : List Char) : List UInt8 :=
  cs.map fun c => UInt8.ofNat c.toNat

def bytewise (s : String) : String :=
  String.ofList (charsOfBytes (encode s))

/-! ## 2. Decoding -/

def replacement : Char := Char.ofNat 0xfffd

def isContinuation (b : UInt8) : Bool :=
  0x80 ≤ b && b ≤ 0xbf

/-- Whether a byte can be the second one of a character, by the first. Longer forms of shorter
characters, surrogates and numbers past the last character are left out. -/
def isSecond (first second : UInt8) : Bool :=
  if first == 0xe0 then 0xa0 ≤ second && second ≤ 0xbf
  else if first == 0xed then 0x80 ≤ second && second ≤ 0x9f
  else if first == 0xf0 then 0x90 ≤ second && second ≤ 0xbf
  else if first == 0xf4 then 0x80 ≤ second && second ≤ 0x8f
  else isContinuation second

/-- How many bytes a character has, by its first byte. -/
def lengthOf? (first : UInt8) : Option Nat :=
  if first < 0x80 then some 1
  else if 0xc2 ≤ first && first ≤ 0xdf then some 2
  else if 0xe0 ≤ first && first ≤ 0xef then some 3
  else if 0xf0 ≤ first && first ≤ 0xf4 then some 4
  else none

def payload (bits : Nat) (b : UInt8) : Nat :=
  b.toNat % Nat.pow 2 bits

/-- The character that bytes begin with, and how many bytes after the first belong to it. -/
def firstChar (a : UInt8) (rest : List UInt8) : Char × Nat :=
  match lengthOf? a with
  | none => (replacement, 0)
  | some 1 => (Char.ofNat a.toNat, 0)
  | some n =>
    match rest with
    | [] => (replacement, 0)
    | b :: rest =>
      if !isSecond a b then (replacement, 0)
      else if n == 2 then (Char.ofNat (payload 5 a * 0x40 + payload 6 b), 1)
      else
        match rest with
        | [] => (replacement, 1)
        | c :: rest =>
          if !isContinuation c then (replacement, 1)
          else if n == 3 then
            (Char.ofNat (payload 4 a * 0x1000 + payload 6 b * 0x40 + payload 6 c), 2)
          else
            match rest with
            | [] => (replacement, 2)
            | d :: _ =>
              if !isContinuation d then (replacement, 2)
              else
                (Char.ofNat (payload 3 a * 0x40000 + payload 6 b * 0x1000 + payload 6 c * 0x40 +
                  payload 6 d), 3)

def decodeFrom : Nat → List UInt8 → List Char
  | _, [] => []
  | skip + 1, _ :: rest => decodeFrom skip rest
  | 0, a :: rest =>
    let (c, more) := firstChar a rest
    c :: decodeFrom more rest

def decodeLossy (bytes : List UInt8) : List Char :=
  decodeFrom 0 bytes

end CodeAssist.Text
