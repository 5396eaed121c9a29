import EventRouting.Proofs.Contract.RoundTrip
import EventRouting.Proofs.Routing.Synchronizer

namespace EventRouting

/-- An entry with a payload gives this contract, or nothing legible in place of an empty one. An
entry without a payload stands for the contract before all others. -/
def Contract.ShownBy (c : Contract) : Option Payload → Prop
  | some p =>
    match Contract.decode p with
    | .ok d => d = c
    | .error _ => c.resources = []
  | none => c = {}

theorem Contract.shownBy_encode (c : Contract) : c.ShownBy (some c.encode) := by
  rw [ShownBy, decode_encode]

namespace Synchronizer

/-- Nothing newer than the contract was published. -/
def Leads (s : Synchronizer) : Prop :=
  ∀ g, s.publisher.last? = some g → g ≤ s.current.generation

/-- What the synchronizer knows of the entry: nothing newer than its contract was published, and
unless it is behind, the entry shows this contract. -/
structure Tracks (s : Synchronizer) (payload? : Option Payload) : Prop where
  last_le : ∀ g, s.publisher.last? = some g → g ≤ s.current.generation
  shown : s.isBehind = false → s.current.ShownBy payload?

variable {s : Synchronizer} {payload? : Option Payload}

theorem isBehind_iff : s.isBehind = true ↔
    s.publisher.last?.elim 0 id < s.current.generation := by
  rw [isBehind]
  cases s.publisher.last? <;> exact decide_eq_true_iff

theorem Tracks.leads (h : s.Tracks payload?) : s.Leads := h.last_le

/-- A synchronizer that is behind claims nothing about the entry. -/
theorem Leads.tracks_of_behind (h : s.Leads) (hb : s.isBehind = true)
    (payload? : Option Payload) : s.Tracks payload? :=
  ⟨h, fun hn => absurd (hn.symm.trans hb) Bool.false_ne_true⟩

theorem seed_tracks (payload? : Option Payload) : (seed payload?).Tracks payload? := by
  cases payload? with
  | none => exact ⟨nofun, fun _ => rfl⟩
  | some p =>
    rw [seed]
    cases hd : Contract.decode p with
    | ok c =>
      refine ⟨fun g hg => Option.some.inj hg ▸ UInt64.le_refl _, fun _ => ?_⟩
      rw [Contract.ShownBy, hd]
      rfl
    | error e =>
      have hs {c : Contract} (hc : c.resources = []) : c.ShownBy (some p) := by
        rw [Contract.ShownBy, hd]
        exact hc
      cases salvageGeneration? p with
      | none => exact ⟨nofun, fun _ => hs rfl⟩
      | some g => exact ⟨fun f hf => Option.some.inj hf ▸ g.le_next, fun _ => hs rfl⟩

theorem Tracks.of_fragments (h : s.Tracks payload?) (fragments : Table String Fragment) :
    Tracks { s with fragments } payload? :=
  ⟨h.last_le, h.shown⟩

theorem Tracks.reset (h : s.Tracks payload?) :
    Tracks { s with publisher := s.publisher.reset } payload? := by
  refine ⟨nofun, fun hb => h.shown ?_⟩
  have hz : ¬(0 : Generation) < s.current.generation := by
    intro hl
    exact Bool.false_ne_true (hb.symm.trans (isBehind_iff.mpr hl))
  rw [← Bool.not_eq_true, isBehind_iff]
  exact fun hl => hz (UInt64.lt_of_le_of_lt (UInt64.le_iff_toNat_le.mpr (Nat.zero_le _)) hl)

theorem Leads.current_of_not_behind (h : s.Leads) {r : Readiness}
    (hb : (s.accept (s.build r)).isBehind = false) :
    (s.accept (s.build r)).current = s.current ∧ s.isBehind = false := by
  have hle : s.publisher.last?.elim 0 id ≤ s.current.generation := by
    cases hl : s.publisher.last? with
    | none => exact UInt64.le_iff_toNat_le.mpr (Nat.zero_le _)
    | some g => exact h g hl
  rw [← Bool.not_eq_true, isBehind_iff, accept_publisher] at hb
  rcases accept_current s r with hc | hc
  · rw [hc] at hb
    refine ⟨hc, ?_⟩
    rw [← Bool.not_eq_true, isBehind_iff]
    exact hb
  · exact absurd (UInt64.lt_of_le_of_lt hle hc) hb

theorem accept_generation (s : Synchronizer) (r : Readiness) :
    s.current.generation ≤ (s.accept (s.build r)).current.generation := by
  rcases accept_current s r with hc | hc
  · rw [hc]
    exact UInt64.le_refl _
  · exact UInt64.le_of_lt hc

theorem Leads.accept (h : s.Leads) (r : Readiness) : (s.accept (s.build r)).Leads := by
  intro g hg
  rw [accept_publisher] at hg
  exact UInt64.le_trans (h g hg) (accept_generation s r)

theorem Tracks.accept_of_not_behind (h : s.Tracks payload?) {r : Readiness}
    (hb : (s.accept (s.build r)).isBehind = false) :
    (s.accept (s.build r)).Tracks payload? := by
  obtain ⟨hc, hs⟩ := h.leads.current_of_not_behind hb
  exact ⟨h.leads.accept r, fun _ => hc ▸ h.shown hs⟩

theorem caughtUp_not_behind (s : Synchronizer) : s.caughtUp.isBehind = false := by
  rw [← Bool.not_eq_true, isBehind_iff]
  exact UInt64.lt_irrefl s.current.generation

theorem caughtUp_tracks (s : Synchronizer) : s.caughtUp.Tracks (some s.current.encode) :=
  ⟨fun _ hg => Option.some.inj hg ▸ UInt64.le_refl _, fun _ => Contract.shownBy_encode s.current⟩

theorem lt_drain_generation (h : s.current.generation < .greatest) :
    s.current.generation < s.drain.generation := by
  have hn : s.current.generation < s.drainGeneration := by
    have hm : s.current.generation ≤ max s.current.generation (s.publisher.last?.getD 0) := by
      rw [UInt64.max_def]
      split
      next hl => exact hl
      next => exact UInt64.le_refl _
    by_cases hg : max s.current.generation (s.publisher.last?.getD 0) < Generation.greatest
    · exact UInt64.lt_of_le_of_lt hm (Generation.lt_next hg)
    · exact UInt64.lt_of_lt_of_le h (UInt64.le_trans (UInt64.not_lt.mp hg) (Generation.le_next _))
  rw [drain, Contract.drain, Publisher.drainGeneration]
  split
  next last _ =>
    rw [UInt64.max_def]
    split
    next hl => exact UInt64.lt_of_lt_of_le hn hl
    next => exact hn
  next => exact hn

theorem shut_current_eq_drain (h : s.current.generation < .greatest) :
    s.shut.current = s.drain := by
  have hl : s.store.current.generation < s.drain.generation := lt_drain_generation h
  have ha : s.shut.store = (s.store.tryAdvance s.drain).2 := rfl
  rw [current, ha, Store.tryAdvance_of_lt hl]

theorem leads_reset (s : Synchronizer) :
    Leads { s with publisher := s.publisher.reset } := by
  intro g hg
  cases hg

theorem shut_leads (s : Synchronizer) : s.shut.Leads := by
  intro g hg
  obtain rfl : s.drain.generation = g := Option.some.inj hg
  have ha : s.shut.current = (s.store.tryAdvance s.drain).2.current := rfl
  rw [ha]
  by_cases hl : s.store.current.generation < s.drain.generation
  · rw [Store.tryAdvance_of_lt hl]
    exact UInt64.le_refl _
  · rw [Store.tryAdvance_of_le (UInt64.not_lt.mp hl)]
    exact UInt64.not_lt.mp hl

theorem shut_tracks (h : s.current.generation < .greatest) :
    s.shut.Tracks (some s.drain.encode) := by
  have hc := shut_current_eq_drain h
  exact ⟨s.shut_leads, fun _ => hc ▸ Contract.shownBy_encode _⟩

end Synchronizer

end EventRouting
