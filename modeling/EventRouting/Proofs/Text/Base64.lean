import EventRouting.Text.Base64

namespace EventRouting.Base64

theorem value?_digit {n : Nat} (h : n < 64) : value? (digit n) = some n := by
  have hd : ∀ n < 64, value? (digit n) = some n := by decide
  exact hd n h

theorem digit_ne_pad {n : Nat} (h : n < 64) : digit n ≠ pad := by
  have hd : ∀ n < 64, digit n ≠ pad := by decide
  exact hd n h

theorem ofNat_toNat_of_eq {a : UInt8} {n : Nat} (h : n = a.toNat) : UInt8.ofNat n = a := by
  rw [h, UInt8.ofNat_toNat]

theorem decode?_group (a b c : UInt8) (s : List UInt8) :
    decode? (digit (a.toNat / 4) :: digit (a.toNat % 4 * 16 + b.toNat / 16)
      :: digit (b.toNat % 16 * 4 + c.toNat / 64) :: digit (c.toNat % 64) :: s) =
      (decode? s).map fun rest => a :: b :: c :: rest := by
  have ha := a.toNat_lt
  have hb := b.toNat_lt
  have hc := c.toNat_lt
  have hx : a.toNat / 4 < 64 := by omega
  have hy : a.toNat % 4 * 16 + b.toNat / 16 < 64 := by omega
  have hz : b.toNat % 16 * 4 + c.toNat / 64 < 64 := by omega
  have hw : c.toNat % 64 < 64 := by omega
  rw [decode?, value?_digit hx, value?_digit hy, value?_digit hz, value?_digit hw]
  simp only [Option.bind_eq_bind, Option.bind_some, if_neg (digit_ne_pad hz),
    if_neg (digit_ne_pad hw)]
  rw [ofNat_toNat_of_eq (a := a) (by omega), ofNat_toNat_of_eq (a := b) (by omega),
    ofNat_toNat_of_eq (a := c) (by omega)]
  cases decode? s <;> rfl

theorem decode?_two (a b : UInt8) : decode? (encode [a, b]) = some [a, b] := by
  have ha := a.toNat_lt
  have hb := b.toNat_lt
  have hx : a.toNat / 4 < 64 := by omega
  have hy : a.toNat % 4 * 16 + b.toNat / 16 < 64 := by omega
  have hz : b.toNat % 16 * 4 < 64 := by omega
  rw [encode, decode?, value?_digit hx, value?_digit hy, value?_digit hz]
  simp only [Option.bind_eq_bind, Option.bind_some, if_neg (digit_ne_pad hz), if_true]
  rw [if_pos ⟨trivial, by omega⟩, ofNat_toNat_of_eq (a := a) (by omega),
    ofNat_toNat_of_eq (a := b) (by omega)]

theorem decode?_one (a : UInt8) : decode? (encode [a]) = some [a] := by
  have ha := a.toNat_lt
  have hx : a.toNat / 4 < 64 := by omega
  have hy : a.toNat % 4 * 16 < 64 := by omega
  rw [encode, decode?, value?_digit hx, value?_digit hy]
  simp only [Option.bind_eq_bind, Option.bind_some, if_true]
  rw [if_pos ⟨trivial, trivial, by omega⟩, ofNat_toNat_of_eq (a := a) (by omega)]

@[simp] theorem decode?_encode (l : List UInt8) : decode? (encode l) = some l := by
  induction l using encode.induct with
  | case1 a b c s ih =>
    rw [encode, decode?_group, ih]
    rfl
  | case2 a b => exact decode?_two a b
  | case3 a => exact decode?_one a
  | case4 => rfl

theorem lt_of_mem_encode (l : List UInt8) : ∀ b ∈ encode l, b.toNat < 0x80 := by
  have hd : ∀ n < 64, (digit n).toNat < 0x80 := by decide
  have hp : pad.toNat < 0x80 := by decide
  induction l using encode.induct with
  | case1 a b c s ih =>
    have hc := c.toNat_lt
    intro x hx
    simp only [encode, List.mem_cons] at hx
    rcases hx with rfl | rfl | rfl | rfl | hx
    · exact hd _ (by have := a.toNat_lt; omega)
    · exact hd _ (by have := b.toNat_lt; omega)
    · exact hd _ (by omega)
    · exact hd _ (by omega)
    · exact ih x hx
  | case2 a b =>
    intro x hx
    simp only [encode, List.mem_cons, List.not_mem_nil, or_false] at hx
    rcases hx with rfl | rfl | rfl | rfl
    · exact hd _ (by have := a.toNat_lt; omega)
    · exact hd _ (by have := b.toNat_lt; omega)
    · exact hd _ (by omega)
    · exact hp
  | case3 a =>
    intro x hx
    simp only [encode, List.mem_cons, List.not_mem_nil, or_false] at hx
    rcases hx with rfl | rfl | rfl | rfl
    · exact hd _ (by have := a.toNat_lt; omega)
    · exact hd _ (by omega)
    · exact hp
    · exact hp
  | case4 => exact nofun

end EventRouting.Base64
