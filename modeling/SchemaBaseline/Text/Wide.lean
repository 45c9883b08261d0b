import SchemaBaseline.Text.Utf8

/-!
# Texts of unknown encoding

A body that should hold JSON may come in UTF-8, UTF-16 or UTF-32. A byte-order mark decides, and
without one the pattern of zero bytes among the first four, since JSON begins with an ASCII
character. `decodeBody` yields codes rather than characters, because surrogates that stand alone
are let through.
-/

namespace SchemaBaseline.Text

/-- An encoding of a body; `marked` says that a byte-order mark comes first and is dropped. -/
inductive Encoding
  | utf8 (marked : Bool)
  | utf16 (bigEndian marked : Bool)
  | utf32 (bigEndian marked : Bool)
deriving Repr, DecidableEq

/-- The encoding that the first bytes announce. -/
def Encoding.detect : List UInt8 → Encoding
  | 0x00 :: 0x00 :: 0xfe :: 0xff :: _ => .utf32 true true
  | 0xff :: 0xfe :: 0x00 :: 0x00 :: _ => .utf32 false true
  | 0xfe :: 0xff :: _ => .utf16 true true
  | 0xff :: 0xfe :: _ => .utf16 false true
  | 0xef :: 0xbb :: 0xbf :: _ => .utf8 true
  | a :: b :: c :: d :: _ =>
    if a = 0 then (if b = 0 then .utf32 true false else .utf16 true false)
    else if b = 0 then (if c = 0 && d = 0 then .utf32 false false else .utf16 false false)
    else .utf8 false
  | [a, b] =>
    if a = 0 then .utf16 true false else if b = 0 then .utf16 false false else .utf8 false
  | _ => .utf8 false

/-- The name of an encoding with units of a fixed width. -/
def wideName (bits : Nat) (bigEndian : Bool) : String :=
  s!"utf-{bits}-" ++ if bigEndian then "be" else "le"

/-- The two-byte units of a body whose first byte stands at `position`. -/
def units16 (bigEndian : Bool) : Nat → List UInt8 → Except DecodeError (List Nat)
  | _, [] => .ok []
  | position, [a] => .error ⟨wideName 16 bigEndian, position, 1, a, .truncated⟩
  | position, a :: b :: rest =>
    let unit := if bigEndian then 0x100 * a.toNat + b.toNat else 0x100 * b.toNat + a.toNat
    (units16 bigEndian (position + 2) rest).map (unit :: ·)

/-- The four-byte units of a body whose first byte stands at `position`. -/
def units32 (bigEndian : Bool) : Nat → List UInt8 → Except DecodeError (List Nat)
  | _, [] => .ok []
  | position, a :: b :: c :: d :: rest =>
    let value (w x y z : UInt8) :=
      ((w.toNat * 0x100 + x.toNat) * 0x100 + y.toNat) * 0x100 + z.toNat
    let unit := if bigEndian then value a b c d else value d c b a
    if unit < 0x110000 then (units32 bigEndian (position + 4) rest).map (unit :: ·)
    else .error ⟨wideName 32 bigEndian, position, 4, a, .outOfRange⟩
  | position, a :: rest =>
    .error ⟨wideName 32 bigEndian, position, rest.length + 1, a, .truncated⟩

/-- Whether a unit is the first half of a pair. -/
def isHighSurrogate (unit : Nat) : Bool :=
  0xd800 ≤ unit && unit < 0xdc00

/-- Whether a unit is the second half of a pair. -/
def isLowSurrogate (unit : Nat) : Bool :=
  0xdc00 ≤ unit && unit < 0xe000

/-- The code that a pair of surrogates stands for. -/
def joinSurrogates (high low : Nat) : Nat :=
  0x10000 + 0x400 * (high - 0xd800) + (low - 0xdc00)

/-- Joins pairs of surrogates; one that stands alone stays as it is. -/
def joinUnits : List Nat → List Nat
  | high :: low :: rest =>
    if isHighSurrogate high && isLowSurrogate low then joinSurrogates high low :: joinUnits rest
    else high :: joinUnits (low :: rest)
  | short => short

/-- The codes of a body in the encoding that its first bytes announce. -/
def decodeBody (bytes : List UInt8) : Except DecodeError (List Nat) :=
  match Encoding.detect bytes with
  | .utf8 marked => Utf8.decodeCodes (if marked then bytes.drop 3 else bytes)
  | .utf16 bigEndian marked =>
    (units16 bigEndian (if marked then 2 else 0)
      (if marked then bytes.drop 2 else bytes)).map joinUnits
  | .utf32 bigEndian marked =>
    units32 bigEndian (if marked then 4 else 0) (if marked then bytes.drop 4 else bytes)

end SchemaBaseline.Text
