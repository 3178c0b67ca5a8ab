/-
Whole numbers written in digits, and their bound to a machine word of 64 bits.
-/

namespace ProjectAccess.Text

/-- The low `count` hexadecimal digits of a number, the most significant first. -/
def hexDigits : (count : Nat) → Nat → List Char
  | 0, _ => []
  | count + 1, n => hexDigits count (n / 16) ++ [Nat.digitChar (n % 16)]

/-- The value of a digit; letters of either case continue after nine. -/
def digitValue? (c : Char) : Option Nat :=
  if '0' ≤ c ∧ c ≤ '9' then some (c.toNat - '0'.toNat)
  else if 'a' ≤ c ∧ c ≤ 'f' then some (c.toNat - 'a'.toNat + 10)
  else if 'A' ≤ c ∧ c ≤ 'F' then some (c.toNat - 'A'.toNat + 10)
  else none

/-- The value of a digit of the given radix, which is at most sixteen. -/
def digit? (radix : Nat) (c : Char) : Option Nat :=
  (digitValue? c).filter (· < radix)

/-- The number that digits spell after those already read. -/
def readDigits (radix : Nat) (soFar : Nat) : List Char → Option Nat
  | [] => some soFar
  | c :: cs => (digit? radix c).bind fun d => readDigits radix (soFar * radix + d) cs

/-- One or more digits, leading zeros included, and nothing else. -/
def natural? (radix : Nat) (cs : List Char) : Option Nat :=
  if cs.isEmpty then none else readDigits radix 0 cs

/-- A number that fits a word of 64 bits. -/
def word? (radix : Nat) (cs : List Char) : Option UInt64 :=
  (natural? radix cs).bind fun n => if n < UInt64.size then some n.toUInt64 else none

/-- A decimal word with an optional plus sign. -/
def decimalWord? : List Char → Option UInt64
  | '+' :: cs => word? 10 cs
  | cs => word? 10 cs

end ProjectAccess.Text
