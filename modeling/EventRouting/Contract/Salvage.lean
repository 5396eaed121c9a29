import EventRouting.Contract.Codec
import EventRouting.Text.Character

namespace EventRouting

/-- What follows `word`, if the text starts with it. -/
def after? (word : List Char) (s : List (Option Char)) : Option (List (Option Char)) :=
  match word, s with
  | [], s => some s
  | _ :: _, [] => none
  | c :: word, d :: s => if d = some c then after? word s else none

def skipBlanks (s : List (Option Char)) : List (Option Char) :=
  s.dropWhile (·.any Text.isBlank)

/-- The digits of a generation member at the start of a text. -/
def generationDigits? (s : List (Option Char)) : Option (List Char) := do
  let s ← after? "\"generation\"".toList s
  let s ← after? [':'] (skipBlanks s)
  let digits := ((skipBlanks s).takeWhile (·.any Text.isDecimalDigit)).reduceOption
  if digits.isEmpty then none else some digits

def firstGenerationDigits? : List (Option Char) → Option (List Char)
  | [] => none
  | c :: s =>
    match generationDigits? (c :: s) with
    | some digits => some digits
    | none => firstGenerationDigits? s

/-- The number that ASCII digits spell, if it is a generation. -/
def generationOfDigits? (digits : List Char) : Option Generation :=
  if digits.all Char.isDigit then
    let n := digits.foldl (fun n c => 10 * n + (c.toNat - '0'.toNat)) 0
    if n < UInt64.size then some (.ofNat n) else none
  else none

/-- The generation that the first generation member in the bytes gives. -/
def salvageGeneration? (p : Payload) : Option Generation :=
  (firstGenerationDigits? (Utf8.characters p)).bind generationOfDigits?

end EventRouting
