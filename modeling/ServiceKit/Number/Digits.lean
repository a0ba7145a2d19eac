import ServiceKit.Text.Basic

/-!
Natural numbers and integers in decimal and hexadecimal digits.
-/

namespace ServiceKit.Number

def pow2 (k : Nat) : Nat := Nat.pow 2 k

def pow10 (k : Nat) : Nat := Nat.pow 10 k

/-- The digit of a number below sixteen. -/
def digit (n : Nat) : UInt8 := UInt8.ofNat (if n < 10 then 0x30 + n else 0x57 + n)

/-- The value of a hexadecimal digit in either case. -/
def hexValue? (b : UInt8) : Option Nat :=
  if 0x30 ≤ b && b ≤ 0x39 then some (b.toNat - 0x30)
  else if 0x61 ≤ b && b ≤ 0x66 then some (b.toNat - 0x57)
  else if 0x41 ≤ b && b ≤ 0x46 then some (b.toNat - 0x37)
  else none

/-- Digits in a base, at most as many as the first argument and one more. -/
def digitsUpTo (base : Nat) : Nat → Nat → Text
  | 0, n => [digit (n % base)]
  | fuel + 1, n =>
    if n < base then [digit n] else digitsUpTo base fuel (n / base) ++ [digit (n % base)]

/-- A natural number in decimal digits, without leading zeros. -/
def decimal (n : Nat) : Text := digitsUpTo 10 n n

/-- A natural number in hexadecimal digits, without leading zeros. -/
def hexadecimal (n : Nat) : Text := digitsUpTo 16 n n

/-- An integer in decimal digits, with a sign if it is negative. -/
def integer : Int → Text
  | .ofNat n => decimal n
  | .negSucc n => 0x2D :: decimal (n + 1)

/-- Digits with zeros in front up to a width. -/
def padded (width : Nat) (digits : Text) : Text :=
  List.replicate (width - digits.length) 0x30 ++ digits

/-- The value of a list of decimal digits; other bytes are not looked for. -/
def ofDigits (s : Text) : Nat := s.foldl (fun acc b => acc * 10 + (b.toNat - 0x30)) 0

/-- Digits without the zeros in front of them. -/
def significant (s : Text) : Text := s.dropWhile (· == 0x30)

/-- The value of the digits of an exponent, of which the first five significant ones count. -/
def ofExponentDigits (s : Text) : Nat := ofDigits ((significant s).take 5)

end ServiceKit.Number
