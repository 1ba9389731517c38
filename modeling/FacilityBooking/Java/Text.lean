import Mathlib.Algebra.Group.Nat.Defs
import Mathlib.Data.Bool.AllAny
import Mathlib.Data.List.DropRight
import Mathlib.Data.List.Infix

/-!
# Java texts

The operations of `String`, `Integer`, `UUID` and `DayOfWeek` that the server uses and that no platform varies. A Java string is
the list of its characters, and a `byte[]` the list of its bytes; the charset is UTF-8. `String.format` writes the digits `0` to
`9` (a locale that has other digits is not modelled).
-/

namespace FacilityBooking

/-- A Java string. -/
abbrev Text := List Char

/-- A Java `byte[]` or a C++ `std::vector<uint8_t>`. -/
abbrev Bytes := List UInt8

/-- `s.getBytes()`. -/
def getBytes (s : Text) : Bytes := s.flatMap String.utf8EncodeChar

/-- `s.split(",")`: the pieces between the commas, without the empty pieces at the end; a string without a comma is its only
piece. -/
def split (s : Text) : List Text :=
  if ',' ∈ s then (s.splitOn ',').rdropWhile List.isEmpty else [s]

/-- `s.trim()`: the string without the characters up to the space at both ends. -/
def trim (s : Text) : Text := (s.dropWhile (fun c => decide (c ≤ ' '))).rdropWhile (fun c => decide (c ≤ ' '))

/-- `s.startsWith(prefix)`. -/
def startsWith (s start : Text) : Bool := start.isPrefixOf s

/-- `s.contains(part)`. -/
def contains (s part : Text) : Bool := decide (part <:+: s)

theorem contains_iff (s part : Text) : contains s part = true ↔ part <:+: s := decide_eq_true_iff

/-- `"" + s`: the null reference reads `null`. -/
def orNull (s : Option Text) : Text := s.getD "null".toList

/-- `String.format("%d", n)`, and `"" + n`. -/
def decimal : Int → Text
  | .ofNat n => Nat.toDigits 10 n
  | .negSucc n => '-' :: Nat.toDigits 10 (n + 1)

/-- `String.format("%02d", n)`. -/
def format02d (n : Int) : Text := if (decimal n).length < 2 then '0' :: decimal n else decimal n

/-- `java.util.UUID`. -/
structure UUID where
  mostSigBits : BitVec 64
  leastSigBits : BitVec 64
  deriving DecidableEq

/-- The `n` low hexadecimal digits of a number. -/
def hexDigits (n x : Nat) : Text := (List.range n).reverse.map (fun i => Nat.digitChar (x / 16 ^ i % 16))

/-- `uuid.toString()`. -/
def UUID.toText (u : UUID) : Text :=
  hexDigits 8 (u.mostSigBits.toNat / 2 ^ 32) ++ '-' :: hexDigits 4 (u.mostSigBits.toNat / 2 ^ 16) ++
    '-' :: hexDigits 4 u.mostSigBits.toNat ++ '-' :: hexDigits 4 (u.leastSigBits.toNat / 2 ^ 48) ++
    '-' :: hexDigits 12 u.leastSigBits.toNat

/-- `java.time.DayOfWeek`. -/
inductive DayOfWeek where
  | MONDAY | TUESDAY | WEDNESDAY | THURSDAY | FRIDAY | SATURDAY | SUNDAY
  deriving DecidableEq, Repr

namespace DayOfWeek

/-- `DayOfWeek.values()`, in the order of `getValue()`. -/
def values : List DayOfWeek := [.MONDAY, .TUESDAY, .WEDNESDAY, .THURSDAY, .FRIDAY, .SATURDAY, .SUNDAY]

/-- `day.name()` and `day.toString()`. -/
def name : DayOfWeek → Text
  | .MONDAY => "MONDAY".toList
  | .TUESDAY => "TUESDAY".toList
  | .WEDNESDAY => "WEDNESDAY".toList
  | .THURSDAY => "THURSDAY".toList
  | .FRIDAY => "FRIDAY".toList
  | .SATURDAY => "SATURDAY".toList
  | .SUNDAY => "SUNDAY".toList

theorem mem_values (d : DayOfWeek) : d ∈ values := by cases d <;> decide

end DayOfWeek

end FacilityBooking
