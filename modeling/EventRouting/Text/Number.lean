namespace EventRouting.Text

/-- Why a text gives no number. -/
inductive NumberError where
  | empty
  | invalidDigit
  | tooLarge
  | tooSmall
  deriving DecidableEq, Repr

def NumberError.message : NumberError → String
  | .empty => "cannot parse integer from empty string"
  | .invalidDigit => "invalid digit found in string"
  | .tooLarge => "number too large to fit in target type"
  | .tooSmall => "number too small to fit in target type"

/-- The number that digits continue from `n`, unless it exceeds the limit. -/
def digits (limit : Nat) (beyond : NumberError) (n : Nat) : List Char → Except NumberError Nat
  | [] => .ok n
  | c :: s =>
    if c.isDigit then
      let m := 10 * n + (c.toNat - '0'.toNat)
      if m ≤ limit then digits limit beyond m s else .error beyond
    else .error .invalidDigit

/-- At least one digit. -/
def digits1 (limit : Nat) (beyond : NumberError) : List Char → Except NumberError Nat
  | [] => .error .invalidDigit
  | s => digits limit beyond 0 s

/-- A number of at most `limit`, after an optional plus sign. -/
def unsigned (limit : Nat) (s : String) : Except NumberError Nat :=
  match s.toList with
  | [] => .error .empty
  | '+' :: s => digits1 limit .tooLarge s
  | s => digits1 limit .tooLarge s

/-- A number of `width` bits in two's complement. -/
def signed (width : Nat) (s : String) : Except NumberError Int :=
  let limit := 1 <<< (width - 1)
  match s.toList with
  | [] => .error .empty
  | '-' :: s => (fun n => -Int.ofNat n) <$> digits1 limit .tooSmall s
  | '+' :: s => Int.ofNat <$> digits1 (limit - 1) .tooLarge s
  | s => Int.ofNat <$> digits1 (limit - 1) .tooLarge s

end EventRouting.Text
