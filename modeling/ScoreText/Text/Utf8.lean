import ScoreText.Text.Hex

/-!
Decoding UTF-8. A malformed sequence is reported with the bytes that were read before it went
wrong: an illegal first byte, a first byte whose continuation is illegal, or a sequence that the
data cuts short.
-/

namespace ScoreText.Text.Utf8

inductive Reason
  | invalidStart
  | invalidContinuation
  | unexpectedEnd
  deriving DecidableEq, Repr

def Reason.text : Reason → String
  | .invalidStart => "invalid start byte"
  | .invalidContinuation => "invalid continuation byte"
  | .unexpectedEnd => "unexpected end of data"

/-- A malformed sequence: where it starts, its first byte, how many bytes belong to it, and what
is wrong. -/
structure Fault where
  start : Nat
  byte : UInt8
  count : Nat
  reason : Reason
  deriving DecidableEq, Repr

def Fault.message (f : Fault) : String :=
  let place :=
    if f.count = 1 then
      "byte 0x" ++ hex 2 f.byte.toNat ++ " in position " ++ toString f.start
    else
      "bytes in position " ++ toString f.start ++ "-" ++ toString (f.start + f.count - 1)
  "'utf-8' codec can't decode " ++ place ++ ": " ++ f.reason.text

/-- How many continuation bytes a first byte asks for; none when it cannot start a sequence. -/
def tailLength? (b : UInt8) : Option Nat :=
  if b < 0x80 then some 0
  else if b < 0xC2 then none
  else if b < 0xE0 then some 1
  else if b < 0xF0 then some 2
  else if b < 0xF5 then some 3
  else none

def isTail (b : UInt8) : Bool := 0x80 ≤ b && b ≤ 0xBF

/-- Whether a second byte may follow the first one: overlong forms, surrogates and code points
beyond the last one are excluded here. -/
def fitsSecond (first second : UInt8) : Bool :=
  isTail second
    && !(first == 0xE0 && second < 0xA0) && !(first == 0xED && 0xA0 ≤ second)
    && !(first == 0xF0 && second < 0x90) && !(first == 0xF4 && 0x90 ≤ second)

/-- How many bytes of `rest` legally continue a sequence with the given first byte, up to the
number that is wanted. -/
def legalTails (first : UInt8) : Nat → List UInt8 → Nat
  | 0, _ => 0
  | _ + 1, [] => 0
  | n + 1, b :: rest =>
    if fitsSecond first b then 1 + ((rest.take n).takeWhile isTail).length else 0

def leadBits (first : UInt8) : Nat → Nat
  | 0 => first.toNat
  | 1 => first.toNat % 0x20
  | 2 => first.toNat % 0x10
  | _ => first.toNat % 0x08

def codePoint (first : UInt8) (tails : List UInt8) : Nat :=
  tails.foldl (fun code b => code * 0x40 + b.toNat % 0x40) (leadBits first tails.length)

def decodeFrom (start : Nat) : List UInt8 → Except Fault (List Char)
  | [] => .ok []
  | b :: rest =>
    match tailLength? b with
    | none => .error ⟨start, b, 1, .invalidStart⟩
    | some n =>
      let legal := legalTails b n rest
      if legal = n then
        (decodeFrom (start + n + 1) (rest.drop n)).map
          (Char.ofNat (codePoint b (rest.take n)) :: ·)
      else if legal < rest.length then .error ⟨start, b, legal + 1, .invalidContinuation⟩
      else .error ⟨start, b, legal + 1, .unexpectedEnd⟩
termination_by bytes => bytes.length
decreasing_by
  simp only [List.length_cons, List.length_drop]
  omega

def decode (bytes : List UInt8) : Except Fault (List Char) := decodeFrom 0 bytes

end ScoreText.Text.Utf8
