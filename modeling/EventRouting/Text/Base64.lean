namespace EventRouting.Base64

/-- The character that stands for six bits. -/
def digit (n : Nat) : UInt8 :=
  if n < 26 then .ofNat (n + 0x41)
  else if n < 52 then .ofNat (n - 26 + 0x61)
  else if n < 62 then .ofNat (n - 52 + 0x30)
  else if n = 62 then 0x2B
  else 0x2F

def value? (b : UInt8) : Option Nat :=
  let n := b.toNat
  if 0x41 ≤ n ∧ n ≤ 0x5A then some (n - 0x41)
  else if 0x61 ≤ n ∧ n ≤ 0x7A then some (n - 0x61 + 26)
  else if 0x30 ≤ n ∧ n ≤ 0x39 then some (n - 0x30 + 52)
  else if n = 0x2B then some 62
  else if n = 0x2F then some 63
  else none

def pad : UInt8 := 0x3D

def encode : List UInt8 → List UInt8
  | a :: b :: c :: s =>
    digit (a.toNat / 4) :: digit (a.toNat % 4 * 16 + b.toNat / 16)
      :: digit (b.toNat % 16 * 4 + c.toNat / 64) :: digit (c.toNat % 64) :: encode s
  | [a, b] =>
    [digit (a.toNat / 4), digit (a.toNat % 4 * 16 + b.toNat / 16), digit (b.toNat % 16 * 4), pad]
  | [a] => [digit (a.toNat / 4), digit (a.toNat % 4 * 16), pad, pad]
  | [] => []

/-- The bytes that four characters stand for. Only the last group may be padded. -/
def decode? : List UInt8 → Option (List UInt8)
  | [] => some []
  | a :: b :: c :: d :: s => do
    let (x, y) := (← value? a, ← value? b)
    if c = pad then
      if d = pad ∧ s = [] ∧ y % 16 = 0 then some [.ofNat (x * 4 + y / 16)] else none
    else
      let z ← value? c
      if d = pad then
        if s = [] ∧ z % 4 = 0 then
          some [.ofNat (x * 4 + y / 16), .ofNat (y % 16 * 16 + z / 4)]
        else none
      else
        let w ← value? d
        let rest ← decode? s
        return .ofNat (x * 4 + y / 16) :: .ofNat (y % 16 * 16 + z / 4) :: .ofNat (z % 4 * 64 + w)
          :: rest
  | _ => none

end EventRouting.Base64
