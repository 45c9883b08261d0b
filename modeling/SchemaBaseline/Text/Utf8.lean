/-!
# UTF-8

`Utf8.decode` reads bytes as UTF-8 text. The first offence is reported with its first byte, its
extent and its cause; the extent is the longest part of a well-formed sequence that the bytes
still agree with. `Utf8.encode` writes the bytes of a text.
-/

namespace SchemaBaseline.Text

/-- Why bytes are no text in an encoding. The last two arise only where every unit has a fixed
width. -/
inductive DecodeProblem
  | invalidStart
  | invalidContinuation
  | unexpectedEnd
  | truncated
  | outOfRange
deriving Repr, DecidableEq

/-- The first offence in a byte sequence: `size` bytes from `position` on, the first of them
`byte`. -/
structure DecodeError where
  encoding : String
  position : Nat
  size : Nat
  byte : UInt8
  problem : DecodeProblem
deriving Repr, DecidableEq

namespace Utf8

/-- Whether a byte continues a sequence. -/
def isContinuation (b : UInt8) : Bool :=
  0x80 ≤ b && b ≤ 0xbf

/-- The number of bytes of a sequence, and the range of its second byte, by its first byte. The
range is narrower where a shorter sequence would do, where the codes are surrogates, and beyond
the last code. -/
def shape (lead : UInt8) : Option (Nat × UInt8 × UInt8) :=
  if lead ≤ 0x7f then some (1, 0, 0)
  else if lead < 0xc2 then none
  else if lead ≤ 0xdf then some (2, 0x80, 0xbf)
  else if lead = 0xe0 then some (3, 0xa0, 0xbf)
  else if lead = 0xed then some (3, 0x80, 0x9f)
  else if lead ≤ 0xef then some (3, 0x80, 0xbf)
  else if lead = 0xf0 then some (4, 0x90, 0xbf)
  else if lead ≤ 0xf3 then some (4, 0x80, 0xbf)
  else if lead = 0xf4 then some (4, 0x80, 0x8f)
  else none

/-- Like `shape`, with the surrogate codes allowed. -/
def shapeWithSurrogates (lead : UInt8) : Option (Nat × UInt8 × UInt8) :=
  if lead = 0xed then some (3, 0x80, 0xbf) else shape lead

/-- The bits that a first byte contributes. -/
def leadBits (size : Nat) (lead : UInt8) : Nat :=
  match size with
  | 1 => lead.toNat
  | 2 => lead.toNat % 0x20
  | 3 => lead.toNat % 0x10
  | _ => lead.toNat % 0x08

/-- How many of the bytes after the first one fit, at most `size - 1`. -/
def fitting (size : Nat) (low high : UInt8) (rest : List UInt8) : Nat :=
  match rest with
  | [] => 0
  | b :: more =>
    if low ≤ b && b ≤ high then 1 + ((more.take (size - 2)).takeWhile isContinuation).length
    else 0

/-- One sequence from the front of the bytes: its code and its size, or the size and cause of the
offence. -/
def step (shapeOf : UInt8 → Option (Nat × UInt8 × UInt8)) (lead : UInt8) (rest : List UInt8) :
    Except (Nat × DecodeProblem) (Nat × Nat) :=
  match shapeOf lead with
  | none => .error (1, .invalidStart)
  | some (1, _, _) => .ok (lead.toNat, 1)
  | some (size, low, high) =>
    let fit := fitting size low high rest
    if fit + 1 = size then
      .ok ((rest.take fit).foldl (fun n b => 0x40 * n + b.toNat % 0x40)
        (leadBits size lead), size)
    else if fit = rest.length then .error (fit + 1, .unexpectedEnd)
    else .error (fit + 1, .invalidContinuation)

/-- The codes of a byte sequence; `fuel` is the number of sequences still expected at most. -/
def codes (shapeOf : UInt8 → Option (Nat × UInt8 × UInt8)) :
    Nat → Nat → List UInt8 → List Nat → Except DecodeError (List Nat)
  | _, _, [], acc => .ok acc.reverse
  | 0, _, _ :: _, acc => .ok acc.reverse
  | fuel + 1, position, lead :: rest, acc =>
    match step shapeOf lead rest with
    | .ok (code, size) =>
      codes shapeOf fuel (position + size) (rest.drop (size - 1)) (code :: acc)
    | .error (size, problem) => .error ⟨"utf-8", position, size, lead, problem⟩

/-- The codes of a byte sequence, surrogates included. -/
def decodeCodes (bytes : List UInt8) : Except DecodeError (List Nat) :=
  codes shapeWithSurrogates bytes.length 0 bytes []

def decode (bytes : List UInt8) : Except DecodeError String :=
  (codes shape bytes.length 0 bytes []).map fun cs => String.ofList (cs.map Char.ofNat)

def encode (s : String) : List UInt8 :=
  s.toUTF8.data.toList

end Utf8

/-- What is wrong with the bytes, in words. -/
def DecodeProblem.message : DecodeProblem → String
  | .invalidStart => "invalid start byte"
  | .invalidContinuation => "invalid continuation byte"
  | .unexpectedEnd => "unexpected end of data"
  | .truncated => "truncated data"
  | .outOfRange => "code point not in range(0x110000)"

/-- The message of an offence: a single byte is named, a longer extent is given by its first and
last position. -/
def DecodeError.message (e : DecodeError) : String :=
  let hex := Nat.toDigits 16 e.byte.toNat
  let digits := String.ofList (List.replicate (2 - hex.length) '0' ++ hex)
  let place :=
    if e.size = 1 then s!"byte 0x{digits} in position {e.position}"
    else s!"bytes in position {e.position}-{e.position + e.size - 1}"
  s!"'{e.encoding}' codec can't decode {place}: {e.problem.message}"

end SchemaBaseline.Text
