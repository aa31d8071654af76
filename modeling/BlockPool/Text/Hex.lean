/-!
# BlockPool — hexadecimal text

Bytes as pairs of hexadecimal digits, the higher one first, and words as digits of a fixed number.
-/

namespace BlockPool.Text

/-- A number in at least so many lower case hexadecimal digits. -/
def hexOf (width n : Nat) : String :=
  let digits := Nat.toDigits 16 n
  String.ofList (List.replicate (width - digits.length) '0' ++ digits)

/-- Bytes as text, two digits each. -/
def hex (bytes : Array UInt8) : String :=
  bytes.foldl (fun text byte => text ++ hexOf 2 byte.toNat) ""

/-- The value of a hexadecimal digit of either case. -/
def hexDigit? (c : Char) : Option Nat :=
  if '0' ≤ c ∧ c ≤ '9' then some (c.toNat - '0'.toNat)
  else if 'a' ≤ c ∧ c ≤ 'f' then some (c.toNat - 'a'.toNat + 10)
  else if 'A' ≤ c ∧ c ≤ 'F' then some (c.toNat - 'A'.toNat + 10)
  else none

/-- The bytes of a text, read after those in `bytes`. Reading stops where no two digits follow. -/
def ofHexFrom (bytes : Array UInt8) : List Char → Array UInt8
  | high :: low :: rest =>
    match hexDigit? high, hexDigit? low with
    | some h, some l => ofHexFrom (bytes.push (UInt8.ofNat (16 * h + l))) rest
    | _, _ => bytes
  | _ => bytes

/-- The bytes of a text. -/
def ofHex (text : String) : Array UInt8 := ofHexFrom #[] text.toList

end BlockPool.Text
