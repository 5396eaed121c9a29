import EventRouting.Settings
import Mathlib.Algebra.Order.Ring.Nat

namespace EventRouting

variable {base cap : Span} {steps failures failures' : Nat}

/-- Spans saturate above every cap, so that is never seen. -/
theorem doublingDelay_eq (h : cap ≤ Span.longest) :
    doublingDelay base cap steps failures = min (base * 2 ^ min (failures - 1) steps) cap := by
  rw [doublingDelay, Nat.shiftLeft_eq, Nat.min_assoc, Nat.min_eq_right h]

theorem doublingDelay_mono (h : cap ≤ Span.longest) (hf : failures ≤ failures') :
    doublingDelay base cap steps failures ≤ doublingDelay base cap steps failures' := by
  have he : min (failures - 1) steps ≤ min (failures' - 1) steps := by omega
  have hb := Nat.mul_le_mul_left base (Nat.pow_le_pow_right Nat.two_pos he)
  rw [doublingDelay_eq h, doublingDelay_eq h]
  exact min_le_min_right cap hb

theorem min_eq_min_iff_of_lt {a b : Nat} (h : a < b) : min a cap = min b cap ↔ cap ≤ a := by
  constructor
  · intro he
    apply Nat.le_of_not_lt
    intro hc
    rw [Nat.min_eq_left (Nat.le_of_lt hc)] at he
    exact absurd he (Nat.ne_of_lt (Nat.lt_min.mpr ⟨h, hc⟩))
  · intro hc
    rw [Nat.min_eq_right hc, Nat.min_eq_right (Nat.le_trans hc (Nat.le_of_lt h))]

/-- To stop doubling makes a difference to all delays but those that the cap is no longer than. -/
theorem doublingDelay_eq_doubled_iff (h : cap ≤ Span.longest) :
    doublingDelay base cap steps failures = min (base * 2 ^ (failures - 1)) cap ↔
      failures ≤ steps + 1 ∨ base = 0 ∨ cap ≤ base * 2 ^ steps := by
  rw [doublingDelay_eq h]
  rcases Nat.lt_or_ge (steps + 1) failures with hf | hf
  · have hs : steps < failures - 1 := by omega
    rw [Nat.min_eq_right (Nat.le_of_lt hs), or_iff_right (Nat.not_le_of_lt hf)]
    rcases Nat.eq_zero_or_pos base with rfl | hb
    · rw [Nat.zero_mul, Nat.zero_mul]
      exact iff_of_true rfl (.inl rfl)
    · have hlt := Nat.mul_lt_mul_of_pos_left (Nat.pow_lt_pow_right Nat.one_lt_two hs) hb
      rw [or_iff_right (Nat.ne_of_gt hb)]
      exact min_eq_min_iff_of_lt hlt
  · rw [Nat.min_eq_left (Nat.sub_le_of_le_add hf)]
    exact iff_of_true rfl (.inl hf)

/-- The delay is the base, doubled with every failure after the first but no more than twenty times,
or the cap if that is shorter. -/
theorem ProbeSettings.backoff_eq_iff (s : ProbeSettings) (h : s.backoffMax ≤ Span.longest) :
    (∀ failures, s.backoff failures =
      min (s.backoffBase * 2 ^ min (failures - 1) 20) s.backoffMax) ∧
    (∀ failures failures', failures ≤ failures' → s.backoff failures ≤ s.backoff failures') ∧
    ∀ failures, s.backoff failures = min (s.backoffBase * 2 ^ (failures - 1)) s.backoffMax ↔
      failures ≤ 21 ∨ s.backoffBase = 0 ∨ s.backoffMax ≤ s.backoffBase * 2 ^ 20 := by
  constructor
  · intro failures
    exact doublingDelay_eq h
  · constructor
    · intro failures failures' hf
      exact doublingDelay_mono h hf
    · intro failures
      exact doublingDelay_eq_doubled_iff h

theorem ProbeSettings.backoff_eq_iff_of_defaults :
    let s : ProbeSettings := {}
    s.backoffMax ≤ Span.longest ∧ s.backoff 7 = .ofSeconds 30 ∧
      ∀ failures, s.backoff failures = min (s.backoffBase * 2 ^ (failures - 1)) s.backoffMax := by
  intro s
  have h : s.backoffMax ≤ Span.longest := by decide
  obtain ⟨hd, -, hi⟩ := s.backoff_eq_iff h
  have hc : s.backoffMax ≤ s.backoffBase * 2 ^ 20 := by decide
  constructor
  · exact h
  · constructor
    · rw [hd]
      decide
    · intro failures
      exact (hi failures).mpr (.inr (.inr hc))

/-- A prober that begins with a millisecond and may wait for an hour waits for 1048 seconds after 22
failures. -/
theorem ProbeSettings.backoff_stops_short :
    let s : ProbeSettings := { backoffBase := .ofMillis 1, backoffMax := .ofSeconds 3600 }
    s.backoff 22 = .ofMillis 1048576 ∧
      min (s.backoffBase * 2 ^ (22 - 1)) s.backoffMax = .ofMillis 2097152 ∧
      s.backoff 22 ≠ min (s.backoffBase * 2 ^ (22 - 1)) s.backoffMax ∧
      s.backoff 4294967295 = .ofMillis 1048576 := by
  decide

end EventRouting
