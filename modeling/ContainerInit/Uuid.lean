/-!
# Random identifiers

- **Identifiers** (`Uuid`): 128 bits, as two words.
- **Version 4** (`Uuid.ofRandom`): random bits with the version and the variant set; the other 122
  bits are kept.
- **Text** (`Uuid.text`): 32 lower case hexadecimal digits in groups of 8, 4, 4, 4 and 12.
-/

namespace ContainerInit

/-- A 128-bit identifier. -/
structure Uuid where
  high : UInt64
  low : UInt64
  deriving DecidableEq

namespace Uuid

/-- The identifier of version 4 made from random bits. -/
def ofRandom (high low : UInt64) : Uuid where
  high := (high &&& 0xffffffffffff0fff) ||| 0x4000
  low := (low &&& 0x3fffffffffffffff) ||| 0x8000000000000000

/-- The version of an identifier. -/
def version (u : Uuid) : UInt64 :=
  (u.high >>> 12) &&& 0xf

/-- The last `n` hexadecimal digits of a number. -/
def hexDigits : Nat → Nat → List Char
  | 0, _ => []
  | n + 1, k => hexDigits n (k / 16) ++ [Nat.digitChar (k % 16)]

/-- The text of an identifier. -/
def text (u : Uuid) : String :=
  let high := u.high.toNat
  let low := u.low.toNat
  String.ofList (hexDigits 8 (high >>> 32) ++ '-' :: hexDigits 4 (high >>> 16) ++
    '-' :: hexDigits 4 high ++ '-' :: hexDigits 4 (low >>> 48) ++ '-' :: hexDigits 12 low)

end Uuid

end ContainerInit
