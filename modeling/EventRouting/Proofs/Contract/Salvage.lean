import EventRouting.Contract.Salvage
import EventRouting.Proofs.Contract.RoundTrip
import Mathlib.Algebra.Group.Nat.Defs
import Mathlib.Data.List.Basic
import Mathlib.Data.List.Induction

namespace EventRouting

namespace Json

theorem ofDigits_append (l m : List Nat) :
    ofDigits (l ++ m) = ofDigits l * 10 ^ m.length + ofDigits m := by
  induction m using List.reverseRecOn with
  | nil => simp [ofDigits]
  | append_singleton m d ih =>
    have hs (l : List Nat) : ofDigits (l ++ [d]) = 10 * ofDigits l + d := by
      rw [ofDigits, List.foldl_append]
      rfl
    rw [← List.append_assoc, hs, hs, ih, List.length_append, List.length_singleton, Nat.pow_succ,
      Nat.mul_add, Nat.mul_left_comm, Nat.mul_comm 10 (10 ^ _), Nat.add_assoc]

theorem ofDigits_lt {l : List Nat} (h : ∀ d ∈ l, d < 10) : ofDigits l < 10 ^ l.length := by
  induction l with
  | nil => exact Nat.one_pos
  | cons d l ih =>
    have hl := ih fun e he => h e (.tail _ he)
    have hd : d ≤ 9 := Nat.le_of_lt_succ (h d (.head _))
    have hc : ofDigits (d :: l) = d * 10 ^ l.length + ofDigits l := by
      rw [← List.singleton_append, ofDigits_append]
      simp [ofDigits]
    have hm : d * 10 ^ l.length ≤ 9 * 10 ^ l.length := Nat.mul_le_mul_right _ hd
    rw [hc, List.length_cons, Nat.pow_succ]
    omega

theorem lt_of_mem_digits {n d : Nat} (h : d ∈ digits n) : d < 10 := by
  induction n using Nat.strongRecOn with
  | ind n ih =>
    rw [digits] at h
    split at h
    next hn => exact List.mem_singleton.mp h ▸ hn
    next hn =>
      rcases List.mem_append.mp h with h | h
      · exact ih (n / 10) (by omega) h
      · exact List.mem_singleton.mp h ▸ Nat.mod_lt n (by decide)

theorem ofDigits_take (n k : Nat) :
    ofDigits ((digits n).take k) = n / 10 ^ ((digits n).length - k) := by
  have hn : ofDigits ((digits n).take k) * 10 ^ ((digits n).length - k) +
      ofDigits ((digits n).drop k) = n := by
    rw [← List.length_drop, ← ofDigits_append, List.take_append_drop, ofDigits_digits]
  have hl : ofDigits ((digits n).drop k) < 10 ^ ((digits n).length - k) := by
    rw [← List.length_drop]
    exact ofDigits_lt fun d hd => lt_of_mem_digits (List.mem_of_mem_drop hd)
  refine (Nat.div_eq_of_lt_le ?_ ?_).symm
  · exact Nat.le.intro hn
  · rw [Nat.succ_mul]
    omega

/-- A number that loses some but not all of its digits falls by more than one. -/
theorem div_pow_succ_lt {n k : Nat} (hk : 0 < k) (hl : k < (digits n).length) :
    n / 10 ^ k + 1 < n := by
  have hn : 10 ≤ n := by
    by_contra hn
    rw [digits, if_pos (by omega), List.length_singleton] at hl
    omega
  have hp : 10 ^ 1 ≤ 10 ^ k := Nat.pow_le_pow_right (by decide) hk
  have hd : n / 10 ^ k ≤ n / 10 := Nat.div_le_div_left hp (by decide)
  omega

theorem digits_ne_nil (n : Nat) : digits n ≠ [] := by
  rw [digits]
  split
  · exact List.cons_ne_nil n []
  · exact List.append_ne_nil_of_right_ne_nil _ (List.cons_ne_nil _ _)

theorem decimal_eq_map (n : Nat) : decimal n = (digits n).map fun d => .ofNat (0x30 + d) := by
  induction n using Nat.strongRecOn with
  | ind n ih =>
    rw [decimal, digits]
    split
    next h => rfl
    next h => rw [ih (n / 10) (by omega), List.map_append, List.map_singleton]

theorem length_decimal (n : Nat) : (decimal n).length = (digits n).length := by
  rw [decimal_eq_map, List.length_map]

theorem encode_digitChar : ∀ d < 10, Utf8.encodeChar d.digitChar = [.ofNat (0x30 + d)] := by
  decide

theorem encode_map_digitChar {l : List Nat} (hl : ∀ d ∈ l, d < 10) :
    Utf8.encode (l.map Nat.digitChar) = l.map fun d => .ofNat (0x30 + d) := by
  induction l with
  | nil => rfl
  | cons d l ih =>
    have hi := ih fun e he => hl e (.tail _ he)
    rw [Utf8.encode] at hi
    rw [Utf8.encode, List.map_cons, List.flatMap_cons, encode_digitChar d (hl d (.head _)), hi]
    rfl

end Json

section Scanning

open Json Text

/-- What every payload of a contract begins with. -/
def openingText : List Char := "\x7b\"generation\":".toList

theorem isDecimalDigit_digitChar : ∀ d < 10, isDecimalDigit d.digitChar = true := by decide

theorem isDigit_digitChar : ∀ d < 10, d.digitChar.isDigit = true := by decide

theorem isBlank_digitChar : ∀ d < 10, Text.isBlank d.digitChar = false := by decide

theorem toNat_digitChar : ∀ d < 10, d.digitChar.toNat - '0'.toNat = d := by decide

variable {l : List Nat}

theorem generationOfDigits?_map (hl : ∀ d ∈ l, d < 10) (hs : ofDigits l < UInt64.size) :
    generationOfDigits? (l.map Nat.digitChar) = some (.ofNat (ofDigits l)) := by
  have ha : (l.map Nat.digitChar).all Char.isDigit = true := by
    rw [List.all_map, List.all_eq_true]
    exact fun d hd => isDigit_digitChar d (hl d hd)
  have hf : (l.map Nat.digitChar).foldl (fun n c => 10 * n + (c.toNat - '0'.toNat)) 0 =
      ofDigits l := by
    rw [List.foldl_map, ofDigits]
    apply List.foldl_ext
    intro n d hd
    rw [toNat_digitChar d (hl d hd)]
  rw [generationOfDigits?, if_pos ha, hf, if_pos hs]

theorem generationDigits?_name (s : List (Option Char)) :
    generationDigits? ("\"generation\":".toList.map some ++ s) =
      let digits := ((skipBlanks s).takeWhile (·.any isDecimalDigit)).reduceOption
      if digits.isEmpty then none else some digits := rfl

theorem firstGenerationDigits?_of_some {s : List (Option Char)} {digits : List Char}
    (h : generationDigits? s = some digits) : firstGenerationDigits? s = some digits := by
  cases s with
  | nil => cases h
  | cons c s => rw [firstGenerationDigits?, h]

/-- A member that has a generation gives its digits, up to the first character that is none. -/
theorem generationDigits?_member (hl : ∀ d ∈ l, d < 10) (hn : l ≠ []) {rest : List (Option Char)}
    (hr : ∀ c ∈ rest.head?, c.any isDecimalDigit = false) :
    generationDigits? ("\"generation\":".toList.map some ++
        ((l.map Nat.digitChar).map some ++ rest)) = some (l.map Nat.digitChar) := by
  have hblank : skipBlanks ((l.map Nat.digitChar).map some ++ rest) =
      (l.map Nat.digitChar).map some ++ rest := by
    obtain ⟨d, m, rfl⟩ := List.exists_cons_of_ne_nil hn
    refine List.dropWhile_cons_of_neg ?_
    rw [Option.any_some, isBlank_digitChar d (hl d (.head _))]
    exact Bool.false_ne_true
  have hdigits : ((l.map Nat.digitChar).map some ++ rest).takeWhile (·.any isDecimalDigit) =
      (l.map Nat.digitChar).map some := by
    rw [List.takeWhile_append_of_pos]
    · cases rest with
      | nil => rw [List.takeWhile_nil, List.append_nil]
      | cons c rest =>
        have hc : ¬c.any isDecimalDigit = true := Bool.eq_false_iff.mp (hr c rfl)
        rw [List.takeWhile_cons_of_neg hc, List.append_nil]
    · intro c hc
      simp only [List.map_map, List.mem_map, Function.comp_apply] at hc
      obtain ⟨d, hd, rfl⟩ := hc
      exact isDecimalDigit_digitChar d (hl d hd)
  have hsome : ((l.map Nat.digitChar).map some).reduceOption = l.map Nat.digitChar := by
    change ((l.map Nat.digitChar).map some).filterMap id = l.map Nat.digitChar
    rw [List.filterMap_map]
    exact List.filterMap_some
  rw [generationDigits?_name, hblank, hdigits, hsome]
  exact if_neg (by rwa [List.isEmpty_iff, List.map_eq_nil_iff])

/-- A text that begins like a contract gives the digits there, whatever else it holds. -/
theorem firstGenerationDigits?_opening (hl : ∀ d ∈ l, d < 10) (hn : l ≠ [])
    {rest : List (Option Char)} (hr : ∀ c ∈ rest.head?, c.any isDecimalDigit = false) :
    firstGenerationDigits? ((openingText ++ l.map Nat.digitChar).map some ++ rest) =
      some (l.map Nat.digitChar) := by
  have ho : openingText = '{' :: "\"generation\":".toList := rfl
  have hb (s : List (Option Char)) : generationDigits? (some '{' :: s) = none := rfl
  have hm := generationDigits?_member hl hn hr
  rw [List.map_append, List.append_assoc, ho, List.map_cons, List.cons_append,
    firstGenerationDigits?, hb]
  exact firstGenerationDigits?_of_some hm

end Scanning

namespace Contract

open Json

/-- The bytes before the generation of a contract. -/
def opening : Payload := Utf8.encode openingText

/-- How many bytes of the payload of a contract it takes to have all digits of its generation. -/
def legibleLength (c : Contract) : Nat := opening.length + (decimal c.generation.toNat).length

theorem encode_eq (c : Contract) :
    ∃ rest, c.encode = opening ++ decimal c.generation.toNat ++ 0x2C :: rest := by
  have hi : decimalInt (c.generation.toNat : Int) = decimal c.generation.toNat := by
    rw [decimalInt, if_neg (by omega), Int.natAbs_natCast]
  have ho : opening = 0x7B :: quote "generation" ++ [0x3A] := by decide
  refine ⟨quote "resources" ++ 0x3A :: (Value.array (c.resources.map Resource.toValue)).render ++
    [0x7D], ?_⟩
  change 0x7B :: quote "generation" ++ 0x3A :: decimalInt _ ++
    (0x2C :: quote "resources" ++ 0x3A :: _ ++ []) ++ [0x7D] = _
  rw [hi, ho]
  simp only [List.append_assoc, List.cons_append, List.nil_append, List.append_nil]

theorem length_opening_lt (c : Contract) : opening.length < c.legibleLength := by
  have hpos := List.length_pos_iff.mpr (digits_ne_nil c.generation.toNat)
  rw [legibleLength, length_decimal]
  omega

theorem legibleLength_lt (c : Contract) : c.legibleLength < c.encode.length := by
  obtain ⟨rest, he⟩ := c.encode_eq
  rw [he, List.length_append, List.length_append, List.length_cons, legibleLength]
  omega

theorem salvage_opening {l : List Nat} (hl : ∀ d ∈ l, d < 10) (hn : l ≠ [])
    (hs : ofDigits l < UInt64.size) {t : Payload} (ht : ∀ b ∈ t.head?, b = 0x2C) :
    salvageGeneration? (opening ++ Utf8.encode (l.map Nat.digitChar) ++ t) =
      some (.ofNat (ofDigits l)) := by
  have hr : ∀ c ∈ (Utf8.characters t).head?, c.any Text.isDecimalDigit = false := by
    cases t with
    | nil => exact nofun
    | cons b t =>
      obtain rfl := ht b rfl
      rintro _ ⟨⟩
      rfl
  have he : opening ++ Utf8.encode (l.map Nat.digitChar) =
      Utf8.encode (openingText ++ l.map Nat.digitChar) := (List.flatMap_append ..).symm
  rw [salvageGeneration?, he, Utf8.characters_append, firstGenerationDigits?_opening hl hn hr]
  exact generationOfDigits?_map hl hs

variable {c : Contract} {p : Payload}

theorem exists_of_prefix (hp : p <+: c.encode) (ho : opening.length < p.length) :
    ∃ t : Payload, (∀ b ∈ t.head?, b = 0x2C) ∧
      p = opening ++ (decimal c.generation.toNat).take (p.length - opening.length) ++ t := by
  obtain ⟨rest, he⟩ := c.encode_eq
  refine ⟨(0x2C :: rest).take (p.length - opening.length - (decimal c.generation.toNat).length),
    ?_, ?_⟩
  · intro b hb
    rw [List.head?_take] at hb
    split at hb
    · cases hb
    · exact (Option.some.inj hb).symm
  · conv_lhs => rw [List.prefix_iff_eq_take.mp hp, he, List.append_assoc]
    rw [List.take_append, List.take_append, List.take_of_length_le (Nat.le_of_lt ho),
      List.append_assoc]

theorem salvage_of_le (hp : p <+: c.encode) (ho : p.length ≤ opening.length) :
    salvageGeneration? p = none := by
  have hs : ∀ n ≤ opening.length, salvageGeneration? (opening.take n) = none := by decide +kernel
  obtain ⟨rest, he⟩ := c.encode_eq
  rw [List.prefix_iff_eq_take.mp hp, he, List.append_assoc, List.take_append_of_le_length ho]
  exact hs p.length ho

theorem salvage_part (hp : p <+: c.encode) (ho : opening.length < p.length) :
    salvageGeneration? p =
      some (.ofNat (c.generation.toNat / 10 ^ (c.legibleLength - p.length))) := by
  obtain ⟨t, ht, he⟩ := exists_of_prefix hp ho
  have hl : ∀ d ∈ (digits c.generation.toNat).take (p.length - opening.length), d < 10 :=
    fun d hd => lt_of_mem_digits (List.mem_of_mem_take hd)
  have hd : c.legibleLength - p.length =
      (digits c.generation.toNat).length - (p.length - opening.length) := by
    rw [legibleLength, length_decimal]
    omega
  have hs : ofDigits ((digits c.generation.toNat).take (p.length - opening.length)) <
      UInt64.size := by
    rw [ofDigits_take]
    exact Nat.lt_of_le_of_lt (Nat.div_le_self ..) c.generation.toNat_lt_size
  have hn : (digits c.generation.toNat).take (p.length - opening.length) ≠ [] := by
    have hpos := List.length_pos_iff.mpr (digits_ne_nil c.generation.toNat)
    rw [← List.length_pos_iff, List.length_take]
    omega
  calc salvageGeneration? p
    _ = salvageGeneration? (opening ++ Utf8.encode
          (((digits c.generation.toNat).take (p.length - opening.length)).map Nat.digitChar) ++
            t) := by
        rw [encode_map_digitChar hl, List.map_take, ← decimal_eq_map, ← he]
    _ = some (.ofNat (ofDigits
          ((digits c.generation.toNat).take (p.length - opening.length)))) :=
        salvage_opening hl hn hs ht
    _ = _ := by rw [ofDigits_take, hd]

/-- The bytes of a contract up to and including the comma after its generation. -/
def legibleHead (c : Contract) : Payload := c.encode.takeWhile (· ≠ 0x2C) ++ [0x2C]

theorem legibleHead_eq (c : Contract) :
    c.legibleHead = opening ++ decimal c.generation.toNat ++ [0x2C] := by
  have ho : ∀ b ∈ opening, b ≠ 0x2C := by decide +kernel
  have hd : ∀ b ∈ decimal c.generation.toNat, b ≠ 0x2C := by
    have hne : ∀ d < 10, UInt8.ofNat (0x30 + d) ≠ 0x2C := by decide
    intro b hb
    rw [decimal_eq_map] at hb
    obtain ⟨d, hm, rfl⟩ := List.mem_map.mp hb
    exact hne d (lt_of_mem_digits hm)
  obtain ⟨rest, he⟩ := c.encode_eq
  rw [legibleHead, he, List.takeWhile_append_of_pos, List.takeWhile_cons_of_neg, List.append_nil]
  · decide
  · intro b hb
    exact decide_eq_true ((List.mem_append.mp hb).elim (ho b) (hd b))

theorem legibleHead_encode (c : Contract) : c.legibleHead <+: c.encode := by
  obtain ⟨rest, he⟩ := c.encode_eq
  rw [legibleHead_eq, he]
  exact ⟨rest, by rw [List.append_assoc, List.singleton_append]⟩

/-- The generation is legible once the comma after it is there, whatever follows. -/
theorem salvage_legible (h : c.legibleHead <+: p) : salvageGeneration? p = some c.generation := by
  obtain ⟨t, rfl⟩ := h
  have hl : ∀ d ∈ digits c.generation.toNat, d < 10 := fun d hd => lt_of_mem_digits hd
  have hn := digits_ne_nil c.generation.toNat
  have hs : ofDigits (digits c.generation.toNat) < UInt64.size := by
    rw [ofDigits_digits]
    exact c.generation.toNat_lt_size
  have ho := salvage_opening (t := 0x2C :: t) hl hn hs fun b hb => (Option.some.inj hb).symm
  rw [encode_map_digitChar hl, ← decimal_eq_map, ofDigits_digits, UInt64.ofNat_toNat] at ho
  rw [legibleHead_eq, List.append_assoc]
  exact ho

theorem salvage_of_all_digits (hp : p <+: c.encode) (hl : c.legibleLength ≤ p.length) :
    salvageGeneration? p = some c.generation := by
  have ho : opening.length < p.length := Nat.lt_of_lt_of_le c.length_opening_lt hl
  rw [salvage_part hp ho, Nat.sub_eq_zero_of_le hl, Nat.pow_zero, Nat.div_one, UInt64.ofNat_toNat]

end Contract

end EventRouting
