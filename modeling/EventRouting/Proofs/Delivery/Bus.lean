import EventRouting.Delivery.Bus
import EventRouting.Delivery.Routes

namespace EventRouting

theorem Generation.lt_of_all {last? : Option Generation} {g h : Generation}
    (ha : last?.all (· < h) = true) (hl : last? = some g) : g < h := by
  rw [hl] at ha
  exact of_decide_eq_true ha

/-- An open bus that sent these contracts, in this order. -/
structure Bus.Sent (b : Bus) (published : List Contract) : Prop where
  closed : b.closed = false
  last : b.last? = published.getLast?.map (·.generation)
  ascending : published.Pairwise (·.generation < ·.generation)

namespace Bus.Sent

variable {b : Bus} {published : List Contract} {c : Contract}

theorem lt_of_mem (h : b.Sent published) (hc : b.last?.all (· < c.generation) = true)
    {d : Contract} (hd : d ∈ published) : d.generation < c.generation := by
  rcases List.eq_nil_or_concat published with rfl | ⟨init, last, rfl⟩
  · cases hd
  · rw [List.concat_eq_append] at h hd
    have hl : last.generation < c.generation := by
      refine Generation.lt_of_all hc ?_
      rw [h.last, List.getLast?_concat]
      rfl
    rcases List.mem_append.mp hd with hd | hd
    · obtain ⟨-, -, hlt⟩ := List.pairwise_append.mp h.ascending
      exact UInt64.lt_trans (hlt d hd last List.mem_cons_self) hl
    · obtain rfl := List.mem_singleton.mp hd
      exact hl

theorem publish_eq (h : b.Sent published) (hc : b.last?.all (· < c.generation) = true) :
    (b.publish c).2 = { b with
      last? := some c.generation
      subscriptions := b.subscriptions.map (·.send c) } := by
  have ha : b.accepts c = true := by
    rw [accepts, h.closed, hc]
    rfl
  rw [publish, if_pos ha]

theorem publish (h : b.Sent published) (hc : b.last?.all (· < c.generation) = true) :
    (b.publish c).2.Sent (published ++ [c]) := by
  rw [h.publish_eq hc]
  constructor
  · exact h.closed
  · rw [List.getLast?_concat]
    rfl
  · apply List.pairwise_append.mpr
    refine ⟨h.ascending, List.pairwise_singleton _ _, ?_⟩
    intro d hd e he
    obtain rfl := List.mem_singleton.mp he
    exact h.lt_of_mem hc hd

end Bus.Sent

/-- What a component keeps after the contracts that it applied. -/
def Routes.after {β : Type} (tableOf : Contract → Table String β) (applied : List Contract) :
    Routes β :=
  match applied.getLast? with
  | some c => ⟨tableOf c, some c.generation⟩
  | none => {}

/-- A component has applied the first of the published contracts, and the others are queued. -/
structure Feed {β : Type} (tableOf : Contract → Table String β) (published applied : List Contract)
    (s : Subscription) (routes : Routes β) : Prop where
  attached : s.attached = true
  held : s.held = true
  queued : published = applied ++ s.queue
  kept : routes = .after tableOf applied

namespace Feed

variable {β : Type} {tableOf : Contract → Table String β} {published applied queue : List Contract}
  {s : Subscription} {routes : Routes β} {c : Contract}

theorem send (h : Feed tableOf published applied s routes) (c : Contract) :
    Feed tableOf (published ++ [c]) applied (s.send c) routes := by
  have hs : s.send c = { s with queue := s.queue ++ [c] } := by
    rw [Subscription.send, h.attached, h.held]
    rfl
  rw [hs]
  constructor
  · exact h.attached
  · exact h.held
  · rw [h.queued, List.append_assoc]
  · exact h.kept

theorem receive (h : Feed tableOf published applied s routes) (hq : s.queue = c :: queue) :
    Feed tableOf published (applied ++ [c]) { s with queue } ⟨tableOf c, some c.generation⟩ := by
  constructor
  · exact h.attached
  · exact h.held
  · rw [h.queued, hq, List.append_cons]
  · rw [Routes.after, List.getLast?_concat]

theorem applied_eq (h : Feed tableOf published applied s routes) (hq : s.queue = []) :
    applied = published := by
  rw [h.queued, hq, List.append_nil]

end Feed

end EventRouting
