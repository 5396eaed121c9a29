namespace EventRouting.Utf8

def encodeChar (c : Char) : List UInt8 :=
  let n := c.toNat
  if n < 0x80 then [.ofNat n]
  else if n < 0x800 then [.ofNat (0xC0 + n / 64), .ofNat (0x80 + n % 64)]
  else if n < 0x10000 then
    [.ofNat (0xE0 + n / 4096), .ofNat (0x80 + n / 64 % 64), .ofNat (0x80 + n % 64)]
  else
    [.ofNat (0xF0 + n / 262144), .ofNat (0x80 + n / 4096 % 64), .ofNat (0x80 + n / 64 % 64),
      .ofNat (0x80 + n % 64)]

def encode (s : List Char) : List UInt8 :=
  s.flatMap encodeChar

/-- The bytes of a string. -/
def bytes (s : String) : List UInt8 :=
  encode s.toList

/-- A character of which some bytes are read: how many are missing, the range of the next one,
and the number read so far. -/
structure Pending where
  missing : Nat
  low : Nat
  high : Nat
  value : Nat

/-- What a lead byte announces: a character of its own, a longer one, or nothing. -/
def lead (b : UInt8) : Option Char ⊕ Pending :=
  let n := b.toNat
  if n < 0x80 then .inl (some (.ofNat n))
  else if n < 0xC2 then .inl none
  else if n < 0xE0 then .inr ⟨1, 0x80, 0xBF, n - 0xC0⟩
  else if n = 0xE0 then .inr ⟨2, 0xA0, 0xBF, 0⟩
  else if n = 0xED then .inr ⟨2, 0x80, 0x9F, 0xD⟩
  else if n < 0xF0 then .inr ⟨2, 0x80, 0xBF, n - 0xE0⟩
  else if n = 0xF0 then .inr ⟨3, 0x90, 0xBF, 0⟩
  else if n < 0xF4 then .inr ⟨3, 0x80, 0xBF, n - 0xF0⟩
  else if n = 0xF4 then .inr ⟨3, 0x80, 0x8F, 4⟩
  else .inl none

/-- The characters that `s` spells, after the bytes remembered in `pending`; `none` stands for bytes
that start no character. -/
def read (pending : Option Pending) (s : List UInt8) : List (Option Char) :=
  match s, pending with
  | [], none => []
  | [], some _ => [none]
  | b :: s, none =>
    match lead b with
    | .inl c => c :: read none s
    | .inr p => read (some p) s
  | b :: s, some p =>
    if p.low ≤ b.toNat ∧ b.toNat ≤ p.high then
      let value := p.value * 64 + b.toNat % 64
      if p.missing = 1 then some (.ofNat value) :: read none s
      else read (some ⟨p.missing - 1, 0x80, 0xBF, value⟩) s
    else
      match lead b with
      | .inl c => none :: c :: read none s
      | .inr p => none :: read (some p) s

def characters (s : List UInt8) : List (Option Char) :=
  read none s

/-- The string that the bytes spell, if every byte belongs to a character. -/
def decode? (s : List UInt8) : Option String :=
  ((characters s).mapM id).map String.ofList

/-- The string that the bytes spell, with U+FFFD for what is no character. -/
def decodeLossy (s : List UInt8) : String :=
  .ofList ((characters s).map (·.getD '\uFFFD'))

end EventRouting.Utf8
