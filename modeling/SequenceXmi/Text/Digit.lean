/-! # Digits

Digits of the bases up to sixteen, and the numbers that they write. The letters of a hexadecimal
digit may be small or capital. -/

namespace SequenceXmi.Text

/-- The value of a digit in a base up to sixteen, if the character is one. -/
def digitValue? (base : Nat) (c : Char) : Option Nat :=
  let n :=
    if '0' ≤ c ∧ c ≤ '9' then c.toNat - '0'.toNat
    else if 'a' ≤ c ∧ c ≤ 'f' then c.toNat - 'a'.toNat + 10
    else if 'A' ≤ c ∧ c ≤ 'F' then c.toNat - 'A'.toNat + 10
    else base
  if n < base then some n else none

/-- The number that digits write, if there are any and nothing else. -/
def digits? (base : Nat) (text : List Char) : Option Nat :=
  if text.isEmpty then none
  else text.foldlM (fun n c => (digitValue? base c).map (base * n + ·)) 0

end SequenceXmi.Text
