import EventRouting.Text.Utf8
import Mathlib.Tactic.SplitIfs

namespace EventRouting.Utf8

theorem toNat_ofNat_of_lt {n : Nat} (h : n < 256) : (UInt8.ofNat n).toNat = n := by
  rw [UInt8.toNat_ofNat']
  exact Nat.mod_eq_of_lt h

theorem toNat_range (c : Char) :
    c.toNat < 0xD800 ∨ 0xDFFF < c.toNat ∧ c.toNat < 0x110000 := by
  have h := c.valid
  simp only [UInt32.isValidChar, Nat.isValidChar] at h
  exact h

theorem read_one (c : Char) (s : List UInt8) (h : c.toNat < 0x80) :
    read none (encodeChar c ++ s) = some c :: read none s := by
  have hb : (UInt8.ofNat c.toNat).toNat = c.toNat := toNat_ofNat_of_lt (by omega)
  simp only [encodeChar, if_pos h, List.cons_append, List.nil_append, read, lead, hb,
    Char.ofNat_toNat]

theorem read_two (c : Char) (s : List UInt8) (hl : 0x80 ≤ c.toNat) (hu : c.toNat < 0x800) :
    read none (encodeChar c ++ s) = some c :: read none s := by
  have hn : ¬ c.toNat < 0x80 := by omega
  have ha : (UInt8.ofNat (0xC0 + c.toNat / 64)).toNat = 0xC0 + c.toNat / 64 :=
    toNat_ofNat_of_lt (by omega)
  have hb : (UInt8.ofNat (0x80 + c.toNat % 64)).toNat = 0x80 + c.toNat % 64 :=
    toNat_ofNat_of_lt (by omega)
  have hlead : lead (UInt8.ofNat (0xC0 + c.toNat / 64)) = .inr ⟨1, 0x80, 0xBF, c.toNat / 64⟩ := by
    simp only [lead, ha]
    rw [if_neg (by omega), if_neg (by omega), if_pos (by omega), Nat.add_sub_cancel_left]
  have hv : c.toNat / 64 * 64 + (0x80 + c.toNat % 64) % 64 = c.toNat := by omega
  simp only [encodeChar, if_neg hn, if_pos hu, List.cons_append, List.nil_append, read, hlead, hb,
    hv, Char.ofNat_toNat]
  rw [if_pos (by omega)]
  rfl

theorem lead_three {n : Nat} (hl : 0x800 ≤ n) (hu : n < 0x10000) (hs : n < 0xD800 ∨ 0xDFFF < n) :
    ∃ low high, lead (.ofNat (0xE0 + n / 4096)) = .inr ⟨2, low, high, n / 4096⟩ ∧
      low ≤ 0x80 + n / 64 % 64 ∧ 0x80 + n / 64 % 64 ≤ high := by
  have ha : (UInt8.ofNat (0xE0 + n / 4096)).toNat = 0xE0 + n / 4096 :=
    toNat_ofNat_of_lt (by omega)
  have h1 : ¬ 0xE0 + n / 4096 < 0x80 := by omega
  have h2 : ¬ 0xE0 + n / 4096 < 0xC2 := by omega
  have h3 : ¬ 0xE0 + n / 4096 < 0xE0 := by omega
  simp only [lead, ha, if_neg h1, if_neg h2, if_neg h3]
  by_cases he : 0xE0 + n / 4096 = 0xE0
  · have hz : n / 4096 = 0 := by omega
    rw [if_pos he, hz]
    exact ⟨_, _, rfl, by omega, by omega⟩
  · rw [if_neg he]
    by_cases hd : 0xE0 + n / 4096 = 0xED
    · have hz : n / 4096 = 0xD := by omega
      rw [if_pos hd, hz]
      exact ⟨_, _, rfl, by omega, by omega⟩
    · rw [if_neg hd, if_pos (by omega), Nat.add_sub_cancel_left]
      exact ⟨_, _, rfl, by omega, by omega⟩

theorem read_three (c : Char) (s : List UInt8) (hl : 0x800 ≤ c.toNat) (hu : c.toNat < 0x10000) :
    read none (encodeChar c ++ s) = some c :: read none s := by
  have h1 : ¬ c.toNat < 0x80 := by omega
  have h2 : ¬ c.toNat < 0x800 := by omega
  have hr := toNat_range c
  obtain ⟨low, high, hlead, hlow, hhigh⟩ := lead_three hl hu (by omega)
  have hb : (UInt8.ofNat (0x80 + c.toNat / 64 % 64)).toNat = 0x80 + c.toNat / 64 % 64 :=
    toNat_ofNat_of_lt (by omega)
  have hc : (UInt8.ofNat (0x80 + c.toNat % 64)).toNat = 0x80 + c.toNat % 64 :=
    toNat_ofNat_of_lt (by omega)
  have hv : (c.toNat / 4096 * 64 + (0x80 + c.toNat / 64 % 64) % 64) * 64 +
      (0x80 + c.toNat % 64) % 64 = c.toNat := by omega
  have hm : 0x80 ≤ 0x80 + c.toNat % 64 ∧ 0x80 + c.toNat % 64 ≤ 0xBF := by omega
  simp only [encodeChar, if_neg h1, if_neg h2, if_pos hu, List.cons_append, List.nil_append, read,
    hlead, hb, hc, if_pos (And.intro hlow hhigh), hm, hv, Char.ofNat_toNat]
  rfl

theorem lead_four {n : Nat} (hl : 0x10000 ≤ n) (hu : n < 0x110000) :
    ∃ low high, lead (.ofNat (0xF0 + n / 262144)) = .inr ⟨3, low, high, n / 262144⟩ ∧
      low ≤ 0x80 + n / 4096 % 64 ∧ 0x80 + n / 4096 % 64 ≤ high := by
  have ha : (UInt8.ofNat (0xF0 + n / 262144)).toNat = 0xF0 + n / 262144 :=
    toNat_ofNat_of_lt (by omega)
  have h1 : ¬ 0xF0 + n / 262144 < 0x80 := by omega
  have h2 : ¬ 0xF0 + n / 262144 < 0xC2 := by omega
  have h3 : ¬ 0xF0 + n / 262144 < 0xE0 := by omega
  have h4 : ¬ 0xF0 + n / 262144 = 0xE0 := by omega
  have h5 : ¬ 0xF0 + n / 262144 = 0xED := by omega
  have h6 : ¬ 0xF0 + n / 262144 < 0xF0 := by omega
  simp only [lead, ha, if_neg h1, if_neg h2, if_neg h3, if_neg h4, if_neg h5, if_neg h6]
  by_cases he : 0xF0 + n / 262144 = 0xF0
  · have hz : n / 262144 = 0 := by omega
    rw [if_pos he, hz]
    exact ⟨_, _, rfl, by omega, by omega⟩
  · rw [if_neg he]
    by_cases hf : 0xF0 + n / 262144 < 0xF4
    · rw [if_pos hf, Nat.add_sub_cancel_left]
      exact ⟨_, _, rfl, by omega, by omega⟩
    · have hz : n / 262144 = 4 := by omega
      rw [if_neg hf, if_pos (by omega), hz]
      exact ⟨_, _, rfl, by omega, by omega⟩

theorem read_four (c : Char) (s : List UInt8) (hl : 0x10000 ≤ c.toNat) :
    read none (encodeChar c ++ s) = some c :: read none s := by
  have h1 : ¬ c.toNat < 0x80 := by omega
  have h2 : ¬ c.toNat < 0x800 := by omega
  have h3 : ¬ c.toNat < 0x10000 := by omega
  have hr := toNat_range c
  obtain ⟨low, high, hlead, hlow, hhigh⟩ := lead_four hl (by omega)
  have hb : (UInt8.ofNat (0x80 + c.toNat / 4096 % 64)).toNat = 0x80 + c.toNat / 4096 % 64 :=
    toNat_ofNat_of_lt (by omega)
  have hc : (UInt8.ofNat (0x80 + c.toNat / 64 % 64)).toNat = 0x80 + c.toNat / 64 % 64 :=
    toNat_ofNat_of_lt (by omega)
  have hd : (UInt8.ofNat (0x80 + c.toNat % 64)).toNat = 0x80 + c.toNat % 64 :=
    toNat_ofNat_of_lt (by omega)
  have hv : ((c.toNat / 262144 * 64 + (0x80 + c.toNat / 4096 % 64) % 64) * 64 +
      (0x80 + c.toNat / 64 % 64) % 64) * 64 + (0x80 + c.toNat % 64) % 64 = c.toNat := by omega
  have hm (n : Nat) : 0x80 ≤ 0x80 + n % 64 ∧ 0x80 + n % 64 ≤ 0xBF := by omega
  simp only [encodeChar, if_neg h1, if_neg h2, if_neg h3, List.cons_append, List.nil_append, read,
    hlead, hb, hc, hd, if_pos (And.intro hlow hhigh), hm, hv, Char.ofNat_toNat]
  rfl

theorem read_encodeChar (c : Char) (s : List UInt8) :
    read none (encodeChar c ++ s) = some c :: read none s := by
  rcases Nat.lt_or_ge c.toNat 0x80 with h | h
  · exact read_one c s h
  · rcases Nat.lt_or_ge c.toNat 0x800 with h' | h'
    · exact read_two c s h h'
    · rcases Nat.lt_or_ge c.toNat 0x10000 with h'' | h''
      · exact read_three c s h' h''
      · exact read_four c s h''

theorem characters_append (s : List Char) (t : List UInt8) :
    characters (encode s ++ t) = s.map some ++ characters t := by
  induction s with
  | nil => rfl
  | cons c s ih =>
    rw [characters, encode, List.flatMap_cons, List.append_assoc, read_encodeChar]
    exact congrArg _ ih

theorem characters_encode (s : List Char) : characters (encode s) = s.map some := by
  have hs := characters_append s []
  rw [List.append_nil] at hs
  exact hs.trans (List.append_nil _)

theorem decode?_bytes (s : String) : decode? (bytes s) = some s := by
  have hm (l : List Char) : (l.map some).mapM id = some l := by
    induction l with
    | nil => rfl
    | cons c l ih => simp only [List.map_cons, List.mapM_cons, ih, id_eq, Option.bind_eq_bind,
        Option.bind_some, Option.pure_def]
  rw [decode?, bytes, characters_encode, hm, Option.map_some, String.ofList_toList]

theorem lead_ascii {b : UInt8} (h : b.toNat < 0x80) : lead b = .inl (some (.ofNat b.toNat)) := by
  rw [lead, if_pos h]

theorem low_of_lead {b : UInt8} {p : Pending} (h : lead b = .inr p) : 0x80 ≤ p.low := by
  rw [lead] at h
  split_ifs at h <;> cases h <;> exact Nat.le_of_ble_eq_true rfl

/-- Such a byte ends what was read before it, whatever that was, and reading begins anew. -/
theorem read_append_ascii {b : UInt8} (h : b.toNat < 0x80) (s t : List UInt8)
    (pending : Option Pending) (hp : ∀ p ∈ pending, 0x80 ≤ p.low) :
    read pending (s ++ b :: t) = read pending s ++ some (.ofNat b.toNat) :: read none t := by
  induction s generalizing pending with
  | nil =>
    cases pending with
    | none =>
      simp only [List.nil_append, read, lead_ascii h]
    | some p =>
      have hb : ¬ (p.low ≤ b.toNat ∧ b.toNat ≤ p.high) :=
        fun hr => Nat.not_le_of_lt h (Nat.le_trans (hp p rfl) hr.1)
      simp only [List.nil_append, read, if_neg hb, lead_ascii h, List.cons_append]
  | cons c s ih =>
    have anew := ih none nofun
    cases pending with
    | none =>
      rw [List.cons_append, read, read]
      cases hc : lead c with
      | inl x => exact congrArg (x :: ·) anew
      | inr q => exact ih (some q) fun p hp => Option.some.inj hp ▸ low_of_lead hc
    | some p =>
      rw [List.cons_append, read, read]
      by_cases hr : p.low ≤ c.toNat ∧ c.toNat ≤ p.high
      · rw [if_pos hr, if_pos hr]
        by_cases hm : p.missing = 1
        · simp only [if_pos hm, anew, List.cons_append]
        · simp only [if_neg hm]
          exact ih _ fun q hq => Option.some.inj hq ▸ Nat.le_refl _
      · rw [if_neg hr, if_neg hr]
        cases hc : lead c with
        | inl x => exact congrArg (none :: x :: ·) anew
        | inr q =>
          exact congrArg (none :: ·) (ih (some q) fun p hp => Option.some.inj hp ▸ low_of_lead hc)

theorem characters_append_ascii {b : UInt8} (h : b.toNat < 0x80) (s t : List UInt8) :
    characters (s ++ b :: t) = characters s ++ some (.ofNat b.toNat) :: characters t :=
  read_append_ascii h s t none nofun

end EventRouting.Utf8
