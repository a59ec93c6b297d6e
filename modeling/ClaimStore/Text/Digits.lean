/-!
Digits and the numbers that they stand for.
-/
namespace ClaimStore.Text

def digitValue (char : Char) : Nat :=
  if char.isDigit then char.toNat - '0'.toNat
  else if char.isLower then char.toNat - 'a'.toNat + 10
  else char.toNat - 'A'.toNat + 10

def isDigitIn (base : Nat) (char : Char) : Bool := char.isAlphanum && digitValue char < base

def ofDigits (base : Nat) (digits : List Char) : Nat :=
  digits.foldl (fun number digit => number * base + digitValue digit) 0

def decimal (number : Nat) : List Char := Nat.toDigits 10 number

end ClaimStore.Text
