import ServiceKit.Text.Basic

/-!
Base64 with padding. Line breaks inside the text are passed over.
-/

namespace ServiceKit.Text

def sextet? (b : UInt8) : Option Nat :=
  if isUpperLetter b then some (b.toNat - 0x41)
  else if isLowerLetter b then some (b.toNat - 0x47)
  else if isDigit b then some (b.toNat + 4)
  else if b = 0x2B then some 62
  else if b = 0x2F then some 63
  else none

/-- Groups of four characters as three bytes each; the last group may be padded. -/
def base64Groups : Text → Option Text
  | [] => some []
  | [a, b, 0x3D, 0x3D] => do
    let n := (← sextet? a) * 64 + (← sextet? b)
    some [UInt8.ofNat (n / 16)]
  | [a, b, c, 0x3D] => do
    let n := ((← sextet? a) * 64 + (← sextet? b)) * 64 + (← sextet? c)
    some [UInt8.ofNat (n / 1024), UInt8.ofNat (n / 4 % 256)]
  | a :: b :: c :: d :: rest => do
    let n := (((← sextet? a) * 64 + (← sextet? b)) * 64 + (← sextet? c)) * 64 + (← sextet? d)
    let more ← base64Groups rest
    some (UInt8.ofNat (n / 65536) :: UInt8.ofNat (n / 256 % 256) :: UInt8.ofNat (n % 256) :: more)
  | _ => none

def base64? (s : Text) : Option Text := base64Groups (s.filter fun b => b != 0x0A && b != 0x0D)

end ServiceKit.Text
