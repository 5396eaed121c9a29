import EventRouting.Proofs.Delivery.Bus
import EventRouting.Proofs.Routing.Synchronizer

namespace EventRouting

/-- One operation on a bus. A subscription is told by its number. -/
inductive BusMove where
  | subscribe
  | publish (c : Contract)
  | close
  | receive (i : Nat)
  | drop (i : Nat)
  deriving DecidableEq, Repr

inductive BusEvent where
  | subscribed (i : Nat)
  | published (c : Contract) (accepted : Bool)
  | closed (now : Bool)
  | received (i : Nat) (r : Receipt)
  | dropped (i : Nat)
  deriving DecidableEq, Repr

/-- Whether an operation is not one of another subscriber than `i`. -/
def BusMove.concerns (i : Nat) : BusMove → Bool
  | .receive j | .drop j => j = i
  | .subscribe | .publish _ | .close => true

def BusEvent.accepted? : BusEvent → Option Contract
  | .published c true => some c
  | .published _ false | .subscribed _ | .closed _ | .received _ _ | .dropped _ => none

def BusEvent.receipt? (i : Nat) : BusEvent → Option Receipt
  | .received j r => if j = i then some r else none
  | .subscribed _ | .published _ _ | .closed _ | .dropped _ => none

def Receipt.contract? : Receipt → Option Contract
  | .contract c => some c
  | .nothingYet | .ended => none

namespace Bus

def step (b : Bus) : BusMove → BusEvent × Bus
  | .subscribe => (.subscribed b.subscriptions.length, b.subscribe)
  | .publish c => (.published c (b.publish c).1, (b.publish c).2)
  | .close => (.closed b.close.1, b.close.2)
  | .receive i => (.received i (b.receive i).1, (b.receive i).2)
  | .drop i => (.dropped i, b.drop i)

def run (b : Bus) : List BusMove → List BusEvent × Bus
  | [] => ([], b)
  | m :: moves => ((b.step m).1 :: ((b.step m).2.run moves).1, ((b.step m).2.run moves).2)

def accepted (events : List BusEvent) : List Contract := events.filterMap BusEvent.accepted?

/-- What happened after a subscription was made. -/
def since (i : Nat) : List BusEvent → List BusEvent
  | [] => []
  | e :: events => if e = .subscribed i then events else since i events

def receipts (i : Nat) (events : List BusEvent) : List Receipt :=
  events.filterMap (BusEvent.receipt? i)

def received (i : Nat) (events : List BusEvent) : List Contract :=
  (receipts i events).filterMap Receipt.contract?

/-- The drain after all that went out. -/
def drainAfter (events : List BusEvent) : Contract :=
  .drain (((accepted events).getLast?.map (·.generation + 1)).getD 0)

/-- What a subscriber is to receive: what went out since it subscribed, and the drain if the bus was
closed since. -/
def owed (i : Nat) (events : List BusEvent) : List Contract :=
  accepted (since i events) ++ if .closed true ∈ since i events then [drainAfter events] else []

/-- What a subscription is to give next. -/
def due (i : Nat) (events : List BusEvent) : Receipt :=
  match (owed i events)[(received i events).length]? with
  | some c => .contract c
  | none => if .closed true ∈ events then .ended else .nothingYet

theorem receive_cases (b : Bus) (i : Nat) :
    (b.subscriptions[i]? = none ∧ b.receive i = (.ended, b)) ∨
      ∃ s, b.subscriptions[i]? = some s ∧ b.receive i = (s.receive.1,
        { b with subscriptions := b.subscriptions.set i s.receive.2 }) := by
  rw [Bus.receive]
  cases b.subscriptions[i]? with
  | none => exact .inl ⟨rfl, rfl⟩
  | some s => exact .inr ⟨s, rfl, rfl⟩

section Events

variable {i : Nat} {e : BusEvent} {events later : List BusEvent}

theorem since_append (h : .subscribed i ∈ events) :
    since i (events ++ later) = since i events ++ later := by
  induction events with
  | nil => cases h
  | cons e events ih =>
    rw [List.cons_append, since, since]
    by_cases he : e = .subscribed i
    · rw [if_pos he, if_pos he]
    · rw [if_neg he, if_neg he]
      rcases List.mem_cons.mp h with h | h
      · exact absurd h.symm he
      · exact ih h

theorem since_append_of_not_mem (h : .subscribed i ∉ events) :
    since i (events ++ later) = since i later := by
  induction events with
  | nil => rfl
  | cons e events ih =>
    rw [List.mem_cons, not_or] at h
    rw [List.cons_append, since, if_neg (Ne.symm h.1)]
    exact ih h.2

theorem since_suffix (i : Nat) (events : List BusEvent) : since i events <:+ events := by
  induction events with
  | nil => exact List.suffix_rfl
  | cons e events ih =>
    rw [since]
    split
    · exact List.suffix_cons e events
    · exact ih.trans (List.suffix_cons e events)

theorem accepted_append (events later : List BusEvent) :
    accepted (events ++ later) = accepted events ++ accepted later :=
  List.filterMap_append

theorem accepted_concat_of_none (h : e.accepted? = none) :
    accepted (events ++ [e]) = accepted events := by
  rw [accepted_append, accepted, accepted, List.filterMap_cons_none h]
  exact List.append_nil _

theorem receipt?_of_ne {j : Nat} (h : j ≠ i) (r : Receipt) :
    (BusEvent.received j r).receipt? i = none := if_neg h

theorem receipt?_self (i : Nat) (r : Receipt) : (BusEvent.received i r).receipt? i = some r :=
  if_pos rfl

theorem received_concat (i : Nat) (events : List BusEvent) (e : BusEvent) :
    received i (events ++ [e]) =
      received i events ++ ((e.receipt? i).bind Receipt.contract?).toList := by
  rw [received, receipts, List.filterMap_append, List.filterMap_append]
  congr 1
  cases h : e.receipt? i with
  | none =>
    rw [List.filterMap_cons_none h]
    rfl
  | some r =>
    rw [List.filterMap_cons_some h]
    cases r <;> rfl

theorem received_concat_of_none (h : (e.receipt? i).bind Receipt.contract? = none) :
    received i (events ++ [e]) = received i events := by
  rw [received_concat, h]
  exact List.append_nil _

theorem not_dropped (h : .dropped i ∉ events ++ later) : .dropped i ∉ events :=
  fun hm => h (List.mem_append_left later hm)

theorem owed_concat (h : .subscribed i ∈ events) (ha : e.accepted? = none)
    (hc : e ≠ .closed true) : owed i (events ++ [e]) = owed i events := by
  have hd : drainAfter (events ++ [e]) = drainAfter events := by
    rw [drainAfter, accepted_concat_of_none ha, drainAfter]
  have hm : .closed true ∈ since i events ++ [e] ↔ .closed true ∈ since i events := by
    rw [List.mem_append, List.mem_singleton]
    exact or_iff_left (Ne.symm hc)
  rw [owed, since_append h, accepted_concat_of_none ha, hd, owed]
  simp only [hm]

end Events

/-- A subscriber that reads finds in its queue what it did not receive yet. -/
structure Serves (i : Nat) (closed : Bool) (events : List BusEvent) (s : Subscription) : Prop where
  held : s.held = true
  attached : s.attached = !closed
  queued : owed i events = received i events ++ s.queue

theorem Serves.concat_of_none {i : Nat} {closed : Bool} {events : List BusEvent} {e : BusEvent}
    {s : Subscription} (h : Serves i closed events s) (hi : .subscribed i ∈ events)
    (ha : e.accepted? = none) (hc : e ≠ .closed true)
    (hr : (e.receipt? i).bind Receipt.contract? = none) : Serves i closed (events ++ [e]) s := by
  refine ⟨h.held, h.attached, ?_⟩
  rw [owed_concat hi ha hc, received_concat_of_none hr]
  exact h.queued

theorem Serves.receive {i : Nat} {closed : Bool} {events : List BusEvent} {s : Subscription}
    (h : Serves i closed events s) (hi : .subscribed i ∈ events) :
    Serves i closed (events ++ [.received i s.receive.1]) s.receive.2 := by
  have ho : owed i (events ++ [.received i s.receive.1]) = owed i events :=
    owed_concat hi rfl (by simp)
  cases hq : s.queue with
  | nil =>
    have hs : s.receive = (if s.attached then .nothingYet else .ended, s) := by
      rw [Subscription.receive, hq]
    rw [hs] at ho ⊢
    refine ⟨h.held, h.attached, ?_⟩
    rw [ho, received_concat_of_none ?_, h.queued]
    rw [receipt?_self]
    split <;> rfl
  | cons c queue =>
    have hs : s.receive = (.contract c, { s with queue }) := by
      rw [Subscription.receive, hq]
    rw [hs] at ho ⊢
    refine ⟨h.held, h.attached, ?_⟩
    rw [ho, h.queued, hq, received_concat, receipt?_self, List.append_assoc]
    rfl

/-- How a bus stands after what happened on it. -/
structure Recorded (b : Bus) (events : List BusEvent) : Prop where
  closed : b.closed = true ↔ .closed true ∈ events
  last : b.closed = false → b.last? = (accepted events).getLast?.map (·.generation)
  ascending : (accepted events).Pairwise (·.generation < ·.generation)
  numbered : ∀ i, .subscribed i ∈ events ↔ i < b.subscriptions.length
  unread : ∀ i, b.subscriptions.length ≤ i → received i events = []
  serves : ∀ i s, b.subscriptions[i]? = some s → .dropped i ∉ events →
    Serves i b.closed events s

namespace Recorded

variable {b : Bus} {events : List BusEvent}

theorem sent (h : b.Recorded events) (hc : b.closed = false) : b.Sent (accepted events) :=
  ⟨hc, h.last hc, h.ascending⟩

theorem not_closed (h : b.Recorded events) (hc : b.closed = false) : .closed true ∉ events := by
  intro hm
  exact absurd (h.closed.mpr hm) (Bool.eq_false_iff.mp hc)

theorem subscribed (h : b.Recorded events) {i : Nat} {s : Subscription}
    (hs : b.subscriptions[i]? = some s) : .subscribed i ∈ events :=
  (h.numbered i).mpr (List.getElem?_eq_some_iff.mp hs).1

theorem empty (address : String) : Recorded { address } [] := by
  constructor
  · simp
  · intro _
    rfl
  · exact .nil
  · intro i
    exact iff_of_false List.not_mem_nil (Nat.not_lt_zero i)
  · intro _ _
    rfl
  · intro i s hs
    cases hs

theorem quiet (h : b.Recorded events) (b' : Bus) {e : BusEvent} (ha : e.accepted? = none)
    (he : e ≠ .closed true) (hc : b'.closed = b.closed) (hl : b'.last? = b.last?)
    (hn : ∀ i, .subscribed i ∈ events ++ [e] ↔ i < b'.subscriptions.length)
    (hu : ∀ i, b'.subscriptions.length ≤ i → received i (events ++ [e]) = [])
    (hs : ∀ i s, b'.subscriptions[i]? = some s → .dropped i ∉ events ++ [e] →
      Serves i b.closed (events ++ [e]) s) :
    b'.Recorded (events ++ [e]) := by
  constructor
  · rw [hc, h.closed, List.mem_append, List.mem_singleton]
    exact (or_iff_left (Ne.symm he)).symm
  · rw [hc, hl, accepted_concat_of_none ha]
    exact h.last
  · rw [accepted_concat_of_none ha]
    exact h.ascending
  · exact hn
  · exact hu
  · rw [hc]
    exact hs

theorem numbered_concat (h : b.Recorded events) {b' : Bus} {e : BusEvent}
    (he : ∀ i, e ≠ .subscribed i) (hl : b'.subscriptions.length = b.subscriptions.length)
    (i : Nat) :
    .subscribed i ∈ events ++ [e] ↔ i < b'.subscriptions.length := by
  rw [hl, ← h.numbered, List.mem_append, List.mem_singleton]
  exact or_iff_left (Ne.symm (he i))

theorem subscribe (h : b.Recorded events) :
    b.subscribe.Recorded (events ++ [.subscribed b.subscriptions.length]) := by
  have hr (i : Nat) : received i (events ++ [.subscribed b.subscriptions.length]) =
      received i events := received_concat_of_none rfl
  apply h.quiet b.subscribe rfl (by simp) rfl rfl
  · intro i
    rw [Bus.subscribe, List.length_append, List.mem_append, List.mem_singleton, h.numbered,
      BusEvent.subscribed.injEq, List.length_singleton, Nat.lt_succ_iff_lt_or_eq]
  · intro i hi
    rw [hr]
    rw [Bus.subscribe, List.length_append] at hi
    exact h.unread i (Nat.le_of_succ_le hi)
  · intro i s hs hd
    rw [Bus.subscribe, List.getElem?_append] at hs
    split at hs
    next hi =>
      exact (h.serves i s hs (not_dropped hd)).concat_of_none (h.subscribed hs) rfl (by simp) rfl
    next hi =>
      obtain ⟨hl, hs⟩ := List.getElem?_eq_some_iff.mp hs
      rw [List.length_singleton] at hl
      have hn : i = b.subscriptions.length := by omega
      rw [List.getElem_singleton] at hs
      subst hs hn
      have hm : .subscribed b.subscriptions.length ∉ events :=
        fun hm => absurd ((h.numbered _).mp hm) (Nat.lt_irrefl _)
      refine ⟨rfl, rfl, ?_⟩
      rw [hr, h.unread _ (Nat.le_refl _), owed, since_append_of_not_mem hm, since, if_pos rfl]
      rfl

theorem unchanged (h : b.Recorded events) {e : BusEvent} (ha : e.accepted? = none)
    (he : e ≠ .closed true) (hn : ∀ i, e ≠ .subscribed i)
    (hr : ∀ i, (e.receipt? i).bind Receipt.contract? = none) : b.Recorded (events ++ [e]) := by
  apply h.quiet b ha he rfl rfl
  · exact h.numbered_concat hn rfl
  · intro i hi
    rw [received_concat_of_none (hr i)]
    exact h.unread i hi
  · intro i s hs hd
    exact (h.serves i s hs (not_dropped hd)).concat_of_none (h.subscribed hs) ha he (hr i)

theorem queue_send {s : Subscription} (hh : s.held = true) (ha : s.attached = true)
    (c : Contract) : s.send c = { s with queue := s.queue ++ [c] } := by
  rw [Subscription.send, ha, hh]
  rfl

theorem publish (h : b.Recorded events) {c : Contract} (hc : b.accepts c = true) :
    (b.publish c).2.Recorded (events ++ [.published c true]) := by
  have ho : b.closed = false := by
    rw [accepts, Bool.and_eq_true, Bool.not_eq_true'] at hc
    exact hc.1
  have hl : b.last?.all (· < c.generation) = true := by
    rw [accepts, Bool.and_eq_true] at hc
    exact hc.2
  have hs := (h.sent ho).publish hl
  have ha : accepted (events ++ [.published c true]) = accepted events ++ [c] :=
    accepted_append _ _
  have hr (i : Nat) : received i (events ++ [.published c true]) = received i events :=
    received_concat_of_none rfl
  rw [(h.sent ho).publish_eq hl] at hs ⊢
  constructor
  · rw [h.closed, List.mem_append, List.mem_singleton]
    exact (or_iff_left (by simp)).symm
  · intro _
    rw [ha]
    exact hs.last
  · rw [ha]
    exact hs.ascending
  · exact h.numbered_concat (by simp) (List.length_map _)
  · intro i hi
    rw [List.length_map] at hi
    rw [hr]
    exact h.unread i hi
  · intro i s hm hd
    rw [List.getElem?_map] at hm
    obtain ⟨t, ht, rfl⟩ := Option.map_eq_some_iff.mp hm
    obtain ⟨hh, hat, hq⟩ := h.serves i t ht (not_dropped hd)
    -- On an open bus only what went out is owed, so one contract more is owed than before.
    have hn : .closed true ∉ since i events :=
      fun hm => h.not_closed ho ((since_suffix i events).mem hm)
    rw [ho] at hat
    rw [queue_send hh hat]
    refine ⟨hh, ?_, ?_⟩
    · rw [hat, ho]
    · rw [owed, if_neg hn, List.append_nil] at hq
      rw [hr, owed, since_append (h.subscribed ht), if_neg (by simp [hn]), accepted_append, hq,
        List.append_nil, List.append_assoc]
      rfl

theorem drain_eq (h : b.Recorded events) (hc : b.closed = false) :
    Contract.drain b.drainGeneration = drainAfter events := by
  rw [drainGeneration, h.last hc, drainAfter, Option.map_map]
  rfl

theorem close (h : b.Recorded events) (hc : b.closed = false) :
    b.close.2.Recorded (events ++ [.closed true]) := by
  have ha : accepted (events ++ [.closed true]) = accepted events := accepted_concat_of_none rfl
  have hr (i : Nat) : received i (events ++ [.closed true]) = received i events :=
    received_concat_of_none rfl
  rw [Bus.close, if_neg (Bool.eq_false_iff.mp hc)]
  constructor
  · exact iff_of_true rfl (List.mem_append_right _ List.mem_cons_self)
  · intro hn
    cases hn
  · rw [ha]
    exact h.ascending
  · exact h.numbered_concat (by simp) (List.length_map _)
  · intro i hi
    rw [List.length_map] at hi
    rw [hr]
    exact h.unread i hi
  · intro i s hm hd
    rw [List.getElem?_map] at hm
    obtain ⟨t, ht, rfl⟩ := Option.map_eq_some_iff.mp hm
    obtain ⟨hh, hat, hq⟩ := h.serves i t ht (not_dropped hd)
    have hn : .closed true ∉ since i events :=
      fun hm => h.not_closed hc ((since_suffix i events).mem hm)
    rw [hc] at hat
    rw [queue_send hh hat]
    -- The drain is in the queue before the subscription is detached.
    refine ⟨hh, rfl, ?_⟩
    have hd : drainAfter (events ++ [.closed true]) = drainAfter events := by
      rw [drainAfter, ha, drainAfter]
    rw [owed, if_neg hn, List.append_nil] at hq
    rw [hr, owed, since_append (h.subscribed ht), if_pos (by simp), hd,
      accepted_concat_of_none rfl, hq, Subscription.detach, h.drain_eq hc, List.append_assoc]

theorem receive (h : b.Recorded events) (j : Nat) :
    (b.receive j).2.Recorded (events ++ [.received j (b.receive j).1]) := by
  rcases receive_cases b j with ⟨hj, hr⟩ | ⟨s, hj, hr⟩
  · rw [hr]
    apply h.unchanged rfl (by simp) (by simp)
    intro i
    by_cases hi : j = i
    · rw [hi, receipt?_self]
      rfl
    · rw [receipt?_of_ne hi]
      rfl
  · rw [hr]
    apply h.quiet { b with subscriptions := b.subscriptions.set j s.receive.2 } rfl (by simp)
      rfl rfl
    · exact h.numbered_concat (by simp) List.length_set
    · intro i hi
      rw [List.length_set] at hi
      have hn : j ≠ i := by
        intro hn
        have hl := (List.getElem?_eq_some_iff.mp hj).1
        omega
      rw [received_concat_of_none (by rw [receipt?_of_ne hn]; rfl)]
      exact h.unread i hi
    · intro i t ht hd
      rw [List.getElem?_set] at ht
      split at ht
      next hi =>
        subst hi
        rw [if_pos (List.getElem?_eq_some_iff.mp hj).1] at ht
        cases ht
        exact (h.serves j s hj (not_dropped hd)).receive (h.subscribed hj)
      next hi =>
        apply (h.serves i t ht (not_dropped hd)).concat_of_none (h.subscribed ht) rfl (by simp)
        rw [receipt?_of_ne hi]
        rfl

theorem drop (h : b.Recorded events) (j : Nat) :
    (b.drop j).Recorded (events ++ [.dropped j]) := by
  apply h.quiet (b.drop j) rfl (by simp) rfl rfl
  · exact h.numbered_concat (by simp) (List.length_modify ..)
  · intro i hi
    rw [Bus.drop, List.length_modify] at hi
    rw [received_concat_of_none rfl]
    exact h.unread i hi
  · intro i t ht hd
    have hn : j ≠ i := by
      rintro rfl
      exact hd (List.mem_append_right _ List.mem_cons_self)
    rw [Bus.drop, List.getElem?_modify_ne _ _ hn] at ht
    exact (h.serves i t ht (not_dropped hd)).concat_of_none (h.subscribed ht) rfl (by simp) rfl

theorem step (h : b.Recorded events) (m : BusMove) :
    (b.step m).2.Recorded (events ++ [(b.step m).1]) := by
  cases m with
  | subscribe => exact h.subscribe
  | publish c =>
    by_cases hc : b.accepts c = true
    · have hp : (b.publish c).1 = true := by
        rw [Bus.publish, if_pos hc]
      rw [Bus.step, hp]
      exact h.publish hc
    · rw [Bus.step, Bus.publish, if_neg hc]
      exact h.unchanged rfl (by simp) (by simp) (fun _ => rfl)
  | close =>
    cases hc : b.closed with
    | false =>
      have hp : b.close.1 = true := by
        rw [Bus.close, if_neg (Bool.eq_false_iff.mp hc)]
      rw [Bus.step, hp]
      exact h.close hc
    | true =>
      rw [Bus.step, Bus.close, if_pos hc]
      exact h.unchanged rfl (by simp) (by simp) (fun _ => rfl)
  | receive j => exact h.receive j
  | drop j => exact h.drop j

theorem run (h : b.Recorded events) (moves : List BusMove) :
    (b.run moves).2.Recorded (events ++ (b.run moves).1) := by
  induction moves generalizing b events with
  | nil =>
    rw [Bus.run, List.append_nil]
    exact h
  | cons m moves ih =>
    rw [Bus.run, List.append_cons]
    exact ih (h.step m)

theorem publish_iff (h : b.Recorded events) (c : Contract) :
    (b.publish c).1 = true ↔
      .closed true ∉ events ∧ ∀ d ∈ accepted events, d.generation < c.generation := by
  have ha : (b.publish c).1 = b.accepts c := by
    rw [Bus.publish]
    split
    next hc => exact hc.symm
    next hc => exact (Bool.eq_false_iff.mpr hc).symm
  rw [ha, accepts, Bool.and_eq_true, Bool.not_eq_true', ← h.closed, Bool.not_eq_true]
  apply and_congr_right
  intro hc
  constructor
  · intro hl d hd
    exact (h.sent hc).lt_of_mem hl hd
  · intro hl
    rw [h.last hc]
    cases hg : (accepted events).getLast? with
    | none => rfl
    | some d => exact decide_eq_true (hl d (List.mem_of_getLast? hg))

theorem lt_drain (h : b.Recorded events) (hg : ∀ d ∈ accepted events, d.generation < .greatest)
    {d : Contract} (hd : d ∈ accepted events) :
    d.generation < (drainAfter events).generation := by
  rcases List.eq_nil_or_concat (accepted events) with hn | ⟨init, last, hl⟩
  · rw [hn] at hd
    cases hd
  · rw [List.concat_eq_append] at hl
    have hw := h.ascending
    have hlast : last.generation < .greatest := by
      apply hg
      rw [hl]
      exact List.mem_append_right _ List.mem_cons_self
    have hlt := Generation.lt_add_one hlast
    rw [drainAfter, hl, List.getLast?_concat]
    rw [hl] at hd hw
    rcases List.mem_append.mp hd with hd | hd
    · obtain ⟨-, -, hi⟩ := List.pairwise_append.mp hw
      exact UInt64.lt_trans (hi d hd last List.mem_cons_self) hlt
    · obtain rfl := List.mem_singleton.mp hd
      exact hlt

theorem accepted_since_sublist (i : Nat) (events : List BusEvent) :
    (accepted (since i events)).Sublist (accepted events) :=
  (since_suffix i events).sublist.filterMap _

theorem owed_ascending (h : b.Recorded events)
    (hg : ∀ d ∈ accepted events, d.generation < .greatest) (i : Nat) :
    (owed i events).Pairwise (·.generation < ·.generation) := by
  have hs := accepted_since_sublist i events
  apply List.pairwise_append.mpr
  refine ⟨h.ascending.sublist hs, ?_, ?_⟩
  · split
    · exact List.pairwise_singleton _ _
    · exact .nil
  · intro d hd e he
    split at he
    · obtain rfl := List.mem_singleton.mp he
      exact h.lt_drain hg (hs.mem hd)
    · cases he

theorem serves_of_subscribed (h : b.Recorded events) {i : Nat} (hi : .subscribed i ∈ events)
    (hd : .dropped i ∉ events) :
    ∃ s, b.subscriptions[i]? = some s ∧ Serves i b.closed events s := by
  have hs := List.getElem?_eq_getElem ((h.numbered i).mp hi)
  exact ⟨_, hs, h.serves i _ hs hd⟩

theorem receive_eq (h : b.Recorded events) {i : Nat} (hi : .subscribed i ∈ events)
    (hd : .dropped i ∉ events) : (b.receive i).1 = due i events := by
  obtain ⟨s, hs, _, ha, hq⟩ := h.serves_of_subscribed hi hd
  have hr : (b.receive i).1 = s.receive.1 := by
    rw [Bus.receive, hs]
  rw [hr, Subscription.receive, due, hq, List.getElem?_append_right (Nat.le_refl _), Nat.sub_self]
  cases s.queue with
  | cons c queue => rfl
  | nil =>
    rw [List.getElem?_nil, ha]
    simp only [← h.closed]
    cases b.closed <;> rfl

end Recorded

/-- Two buses are the same to a subscriber. -/
structure Alike (i : Nat) (b b' : Bus) : Prop where
  last : b.last? = b'.last?
  closed : b.closed = b'.closed
  length : b.subscriptions.length = b'.subscriptions.length
  subscription : b.subscriptions[i]? = b'.subscriptions[i]?

namespace Alike

variable {i : Nat} {b b' : Bus} {m : BusMove}

theorem refl (i : Nat) (b : Bus) : Alike i b b := ⟨rfl, rfl, rfl, rfl⟩

theorem map (h : Alike i b b') (last? : Option Generation) (closed : Bool)
    (f : Subscription → Subscription) :
    Alike i { b with last?, closed, subscriptions := b.subscriptions.map f }
      { b' with last?, closed, subscriptions := b'.subscriptions.map f } := by
  refine ⟨rfl, rfl, ?_, ?_⟩
  · rw [List.length_map, List.length_map, h.length]
  · rw [List.getElem?_map, List.getElem?_map, h.subscription]

theorem subscribe (h : Alike i b b') : Alike i b.subscribe b'.subscribe := by
  refine ⟨h.last, h.closed, ?_, ?_⟩
  · rw [Bus.subscribe, Bus.subscribe, List.length_append, List.length_append, h.length]
    rfl
  · rw [Bus.subscribe, Bus.subscribe, List.getElem?_append, List.getElem?_append, h.length,
      h.subscription, h.closed]

theorem publish (h : Alike i b b') (c : Contract) :
    (b.publish c).1 = (b'.publish c).1 ∧ Alike i (b.publish c).2 (b'.publish c).2 := by
  have ha : b.accepts c = b'.accepts c := by
    rw [accepts, accepts, h.last, h.closed]
  rw [Bus.publish, Bus.publish, ha]
  split
  · rw [h.closed]
    exact ⟨rfl, h.map _ _ _⟩
  · exact ⟨rfl, h⟩

theorem close (h : Alike i b b') :
    b.close.1 = b'.close.1 ∧ Alike i b.close.2 b'.close.2 := by
  have hd : b.drainGeneration = b'.drainGeneration := by
    rw [drainGeneration, drainGeneration, h.last]
  rw [Bus.close, Bus.close, h.closed, hd]
  split
  · exact ⟨rfl, h⟩
  · exact ⟨rfl, h.map _ _ _⟩

theorem receive (h : Alike i b b') :
    (b.receive i).1 = (b'.receive i).1 ∧ Alike i (b.receive i).2 (b'.receive i).2 := by
  have hs := h.subscription
  rw [Bus.receive, Bus.receive, ← hs]
  cases hb : b.subscriptions[i]? with
  | none => exact ⟨rfl, h⟩
  | some s =>
    refine ⟨rfl, h.last, h.closed, ?_, ?_⟩
    · rw [List.length_set, List.length_set, h.length]
    · rw [List.getElem?_set_self', List.getElem?_set_self', ← hs]

theorem drop (h : Alike i b b') : Alike i (b.drop i) (b'.drop i) := by
  refine ⟨h.last, h.closed, ?_, ?_⟩
  · rw [Bus.drop, Bus.drop, List.length_modify, List.length_modify, h.length]
  · rw [Bus.drop, Bus.drop, List.getElem?_modify_eq, List.getElem?_modify_eq, h.subscription]

/-- An operation that concerns the subscriber answers the same on both, and keeps them the same. -/
theorem step (h : Alike i b b') (hm : m.concerns i = true) :
    (b.step m).1.receipt? i = (b'.step m).1.receipt? i ∧
      Alike i (b.step m).2 (b'.step m).2 := by
  cases m with
  | subscribe => exact ⟨rfl, h.subscribe⟩
  | publish c => exact ⟨rfl, (h.publish c).2⟩
  | close => exact ⟨rfl, h.close.2⟩
  | receive j =>
    obtain rfl := of_decide_eq_true hm
    obtain ⟨hr, ha⟩ := h.receive
    refine ⟨?_, ha⟩
    rw [Bus.step, Bus.step, receipt?_self, receipt?_self, hr]
  | drop j =>
    obtain rfl := of_decide_eq_true hm
    exact ⟨rfl, h.drop⟩

theorem step_of_other (h : Alike i b b') (hm : m.concerns i = false) :
    (b.step m).1.receipt? i = none ∧ Alike i (b.step m).2 b' := by
  cases m with
  | subscribe | publish c | close => cases hm
  | receive j =>
    have hj : j ≠ i := of_decide_eq_false hm
    refine ⟨receipt?_of_ne hj _, ?_⟩
    rcases receive_cases b j with ⟨-, hr⟩ | ⟨s, -, hr⟩
    · rw [Bus.step, hr]
      exact h
    · rw [Bus.step, hr]
      refine ⟨h.last, h.closed, ?_, ?_⟩
      · rw [List.length_set, h.length]
      · rw [List.getElem?_set_ne hj, h.subscription]
  | drop j =>
    have hj : j ≠ i := of_decide_eq_false hm
    refine ⟨rfl, h.last, h.closed, ?_, ?_⟩
    · rw [Bus.step, Bus.drop, List.length_modify, h.length]
    · rw [Bus.step, Bus.drop, List.getElem?_modify_ne _ _ hj, h.subscription]

theorem receipts_eq (h : Alike i b b') (moves : List BusMove) :
    receipts i (b.run moves).1 = receipts i (b'.run (moves.filter (·.concerns i))).1 := by
  induction moves generalizing b b' with
  | nil => rfl
  | cons m moves ih =>
    cases hm : m.concerns i with
    | true =>
      obtain ⟨hr, ha⟩ := h.step hm
      rw [List.filter_cons_of_pos hm, Bus.run, Bus.run, receipts, receipts, List.filterMap_cons,
        List.filterMap_cons, hr]
      have hi := ih ha
      rw [receipts, receipts] at hi
      rw [hi]
    | false =>
      obtain ⟨hr, ha⟩ := h.step_of_other hm
      rw [List.filter_cons_of_neg (by simp [hm]), Bus.run, receipts, List.filterMap_cons_none hr]
      exact ih ha

end Alike

theorem publish_of_accepted {b : Bus} {moves : List BusMove} {c : Contract}
    (h : c ∈ accepted (b.run moves).1) : .publish c ∈ moves := by
  induction moves generalizing b with
  | nil => cases h
  | cons m moves ih =>
    obtain ⟨e, he, hc⟩ := List.mem_filterMap.mp h
    rcases List.mem_cons.mp he with rfl | he
    · cases m with
      | publish d =>
        cases hp : (b.publish d).1 with
        | true =>
          rw [step, hp] at hc
          cases hc
          exact List.mem_cons_self
        | false =>
          rw [step, hp] at hc
          cases hc
      | subscribe | close | receive j | drop j => cases hc
    · exact List.mem_cons_of_mem m (ih (List.mem_filterMap.mpr ⟨e, he, hc⟩))

theorem drop_of_dropped {b : Bus} {moves : List BusMove} {i : Nat}
    (h : .dropped i ∈ (b.run moves).1) : .drop i ∈ moves := by
  induction moves generalizing b with
  | nil => cases h
  | cons m moves ih =>
    rcases List.mem_cons.mp h with h | h
    · cases m with
      | drop j =>
        cases h
        exact List.mem_cons_self
      | subscribe | publish c | close | receive j => cases h
    · exact List.mem_cons_of_mem m (ih h)

/-- A subscriber that stays receives what went out since it subscribed, in ascending generations,
then the drain, then the end, whatever other subscribers do. -/
theorem delivers_to_subscribers (address : String) {moves : List BusMove}
    (hg : ∀ c, .publish c ∈ moves → c.generation < .greatest) :
    let events := (Bus.run { address } moves).1
    let b := (Bus.run { address } moves).2
    (∀ c, (b.publish c).1 = true ↔
      .closed true ∉ events ∧ ∀ d ∈ accepted events, d.generation < c.generation) ∧
    (drainAfter events).resources = [] ∧
    (∀ d ∈ accepted events, d.generation < (drainAfter events).generation) ∧
    ∀ i, .subscribed i ∈ events → .drop i ∉ moves →
      received i events <+: owed i events ∧
      (b.receive i).1 = due i events ∧
      (owed i events).Pairwise (·.generation < ·.generation) ∧
      receipts i events =
        receipts i (Bus.run { address } (moves.filter (·.concerns i))).1 := by
  intro events b
  have h : b.Recorded events := (Recorded.empty address).run moves
  have ha : ∀ d ∈ accepted events, d.generation < .greatest :=
    fun d hd => hg d (publish_of_accepted hd)
  refine ⟨h.publish_iff, rfl, fun d hd => h.lt_drain ha hd, ?_⟩
  intro i hi hd
  have hn : .dropped i ∉ events := fun hm => hd (drop_of_dropped hm)
  obtain ⟨s, -, hs⟩ := h.serves_of_subscribed hi hn
  exact ⟨⟨s.queue, hs.queued.symm⟩, h.receive_eq hi hn, h.owed_ascending ha i,
    (Alike.refl i _).receipts_eq moves⟩

theorem delivers_to_subscribers_up_to_drain :
    let moves : List BusMove := [.subscribe, .publish ⟨3, []⟩, .subscribe, .publish ⟨2, []⟩,
      .publish ⟨5, []⟩, .receive 0, .drop 0, .receive 1, .publish ⟨7, []⟩, .close, .receive 1,
      .receive 1, .publish ⟨9, []⟩]
    let events := (Bus.run {} moves).1
    received 1 events = [⟨5, []⟩, ⟨7, []⟩, ⟨8, []⟩] ∧
      ((Bus.run {} moves).2.receive 1).1 = .ended ∧
      (owed 1 events).Pairwise (·.generation < ·.generation) ∧
      receipts 1 events = receipts 1 (Bus.run {} (moves.filter (·.concerns 1))).1 := by
  intro moves events
  have hm : moves.all (fun
      | .publish c => decide (c.generation < .greatest)
      | _ => true) = true := by
    decide +kernel
  have hg : ∀ c, .publish c ∈ moves → c.generation < .greatest :=
    fun c hc => of_decide_eq_true (List.all_eq_true.mp hm _ hc)
  obtain ⟨-, -, -, hd⟩ := delivers_to_subscribers ({} : Bus).address hg
  obtain ⟨-, hr, hp, hn⟩ := hd 1 (by decide +kernel) (by decide +kernel)
  have hdue : due 1 events = .ended := by decide +kernel
  exact ⟨by decide +kernel, hr.trans hdue, hp, hn⟩

end Bus

end EventRouting
