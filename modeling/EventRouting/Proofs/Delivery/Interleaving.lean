import EventRouting.Delivery.Replica

namespace EventRouting

def ReplicaEvent.routed? : ReplicaEvent → Option Generation
  | .routes g _ => some g
  | .unreadable | .missing | .handled _ | .consumers _ _ => none

def ReplicaEvent.consumed? : ReplicaEvent → Option Generation
  | .consumers g _ => some g
  | .unreadable | .missing | .handled _ | .routes _ _ => none

namespace Replica

/-- The loop takes a step by itself. -/
def stepLoop (r : Replica) : Replica :=
  let handled := match r.watcher.loop? with
    | some (.applying (.finished o)) => [.handled o]
    | _ => []
  { r with watcher := r.watcher.stepLoop, events := r.events ++ handled }

/-- The receiver takes a contract from its queue and applies it. -/
def route (r : Replica) : Replica :=
  match r.components? with
  | some (i, _) =>
    match r.watcher.bus.receive i with
    | (.contract c, bus) => { r with watcher := { r.watcher with bus } }.routeBy c
    | _ => r
  | none => r

/-- The dispatcher takes a contract from its queue and applies it. -/
def dispatch (r : Replica) : Replica :=
  match r.components? with
  | some (_, j) =>
    match r.watcher.bus.receive j with
    | (.contract c, bus) => { r with watcher := { r.watcher with bus } }.dispatchBy c
    | _ => r
  | none => r

end Replica

/-- A replica that somebody starts, and the payloads that were written to its entry so far. -/
structure Replication where
  replica : Replica
  start : Start := .enter
  written : List Payload := []

inductive ReplicationMove where
  | write (p : Payload)
  /-- The call that starts the watcher goes on. -/
  | start
  | loop
  /-- A read ends. -/
  | read
  /-- The waiting loop notices a change. -/
  | notice
  | route
  | dispatch

namespace Replication

def step (s : Replication) : ReplicationMove → Replication
  | .write p => { s with replica := s.replica.set p, written := s.written ++ [p] }
  | .start =>
    let (start, watcher) := Start.step s.start (.ok ()) s.replica.watcher
    let changes := match s.start with
      | .subscribe => { subscribed := true }
      | _ => s.replica.changes
    { s with start, replica := { s.replica with watcher, changes } }
  | .loop => { s with replica := s.replica.stepLoop }
  | .read => { s with replica := s.replica.read }
  | .notice => { s with replica := s.replica.deliver }
  | .route => { s with replica := s.replica.route }
  | .dispatch => { s with replica := s.replica.dispatch }

def run (s : Replication) (moves : List ReplicationMove) : Replication := moves.foldl step s

/-- A receiver and a dispatcher have subscribed, and the watcher is to be started on an empty
entry. -/
def initial : Replication where
  replica := {
    watcher := { bus := ({} : Bus).subscribe.subscribe }
    components? := some (0, 1) }

/-- The contracts of the payloads that decode, in the order of their writing. -/
def contracts (s : Replication) : List Contract :=
  s.written.filterMap fun p => (Contract.decode p).toOption

/-- The generations that the receiver applied. -/
def routed (s : Replication) : List Generation := s.replica.events.filterMap ReplicaEvent.routed?

/-- The generations that the dispatcher applied. -/
def consumed (s : Replication) : List Generation :=
  s.replica.events.filterMap ReplicaEvent.consumed?

/-- The loop waits, it has noticed every change, and the components have received everything. -/
structure Idle (s : Replication) : Prop where
  waiting : s.replica.watcher.loop? = some .waiting
  noticed : s.replica.changes.pending = 0
  received : ∀ subscription ∈ s.replica.watcher.bus.subscriptions, subscription.queue = []

end Replication

namespace Replication

theorem run_append (s : Replication) (moves later : List ReplicationMove) :
    s.run (moves ++ later) = (s.run moves).run later :=
  List.foldl_append

/-- The replica comes to be as given by moves of its own. -/
def Reaches (s : Replication) (r : Replica) : Prop :=
  ∃ moves, s.run moves = { s with replica := r }

theorem Reaches.trans {s : Replication} {r r' : Replica} (h : s.Reaches r)
    (h' : Reaches { s with replica := r } r') : s.Reaches r' := by
  obtain ⟨moves, hm⟩ := h
  obtain ⟨later, hl⟩ := h'
  exact ⟨moves ++ later, by rw [run_append, hm, hl]⟩

theorem reaches_move (s : Replication) : s.Reaches s.replica.move := by
  cases hl : s.replica.watcher.loop? with
  | none =>
    have hm : s.replica.move = s.replica := by simp only [Replica.move, hl]
    rw [hm]
    exact ⟨[], rfl⟩
  | some l =>
    by_cases hb : l.isBlocked s.replica.watcher = true
    · by_cases hh : s.replica.holding = true
      · have hm : s.replica.move = s.replica.deliver := by
          simp only [Replica.move, hl, hb, hh, Bool.not_true, Bool.false_eq_true, if_false, if_true]
        rw [hm]
        exact ⟨[.notice], rfl⟩
      · have hm : s.replica.move = s.replica.read.deliver := by
          simp only [Replica.move, hl, hb, hh, Bool.not_true, Bool.false_eq_true, if_false]
        rw [hm]
        exact ⟨[.read, .notice], rfl⟩
    · have hm : s.replica.move = s.replica.stepLoop := by
        have hn : (!l.isBlocked s.replica.watcher) = true := by
          rw [Bool.not_eq_true', Bool.eq_false_iff]
          exact hb
        simp only [Replica.move, Replica.stepLoop, hl, if_pos hn]
        cases l with
        | applying a => cases a <;> rfl
        | beginRead | reading | endRead | waiting | leaving | exited => rfl
      rw [hm]
      exact ⟨[.loop], rfl⟩

theorem reaches_moves (s : Replication) (n : Nat) :
    s.Reaches ((List.range n).foldl (fun r _ => r.move) s.replica) := by
  generalize List.range n = l
  induction l generalizing s with
  | nil => exact ⟨[], rfl⟩
  | cons k l ih => exact s.reaches_move.trans (ih { s with replica := s.replica.move })

theorem reaches_routed (queue : List Contract) {s : Replication} {a b : Subscription}
    (hc : s.replica.components? = some (0, 1))
    (hs : s.replica.watcher.bus.subscriptions = [{ a with queue }, b]) :
    s.Reaches (queue.foldl Replica.routeBy { s.replica with watcher := { s.replica.watcher with
      bus := { s.replica.watcher.bus with subscriptions := [{ a with queue := [] }, b] } } }) := by
  induction queue generalizing s with
  | nil =>
    refine ⟨[], ?_⟩
    rw [← hs]
    rfl
  | cons c queue ih =>
    have hr : s.replica.route = { s.replica with watcher := { s.replica.watcher with
        bus := { s.replica.watcher.bus with
          subscriptions := [{ a with queue }, b] } } }.routeBy c := by
      simp only [Replica.route, hc, Bus.receive, hs, List.getElem?_cons_zero, Subscription.receive]
      rfl
    have hstep : s.Reaches s.replica.route := ⟨[.route], rfl⟩
    apply hstep.trans
    rw [hr]
    exact ih hc rfl

theorem reaches_consumed (queue : List Contract) {s : Replication} {a b : Subscription}
    (hc : s.replica.components? = some (0, 1))
    (hs : s.replica.watcher.bus.subscriptions = [a, { b with queue }]) :
    s.Reaches (queue.foldl Replica.dispatchBy { s.replica with watcher := { s.replica.watcher with
      bus := { s.replica.watcher.bus with subscriptions := [a, { b with queue := [] }] } } }) := by
  induction queue generalizing s with
  | nil =>
    refine ⟨[], ?_⟩
    rw [← hs]
    rfl
  | cons c queue ih =>
    have hr : s.replica.dispatch = { s.replica with watcher := { s.replica.watcher with
        bus := { s.replica.watcher.bus with
          subscriptions := [a, { b with queue }] } } }.dispatchBy c := by
      simp only [Replica.dispatch, hc, Bus.receive, hs, List.getElem?_cons_succ,
        List.getElem?_cons_zero, Subscription.receive]
      rfl
    have hstep : s.Reaches s.replica.dispatch := ⟨[.dispatch], rfl⟩
    apply hstep.trans
    rw [hr]
    exact ih hc rfl

theorem foldl_routeBy (queue : List Contract) (r : Replica) (watcher : Watcher) :
    queue.foldl Replica.routeBy { r with watcher } =
      { queue.foldl Replica.routeBy r with watcher } := by
  induction queue generalizing r with
  | nil => rfl
  | cons c queue ih => exact ih (r.routeBy c)

theorem components?_foldl_routeBy (queue : List Contract) (r : Replica) :
    (queue.foldl Replica.routeBy r).components? = r.components? := by
  induction queue generalizing r with
  | nil => rfl
  | cons c queue ih => exact ih (r.routeBy c)

theorem reaches_drainComponents {s : Replication} {a b : Subscription}
    (hc : s.replica.components? = some (0, 1))
    (hs : s.replica.watcher.bus.subscriptions = [a, b]) :
    s.Reaches s.replica.drainComponents := by
  have hr : s.replica.drainComponents = b.queue.foldl Replica.dispatchBy
      (a.queue.foldl Replica.routeBy { s.replica with watcher := { s.replica.watcher with
        bus := { s.replica.watcher.bus with
          subscriptions := [{ a with queue := [] }, { b with queue := [] }] } } }) := by
    simp only [Replica.drainComponents, hc, Bus.takeAll, hs]
    rfl
  let taken : Replica := { a.queue.foldl Replica.routeBy s.replica with
    watcher := { s.replica.watcher with
      bus := { s.replica.watcher.bus with subscriptions := [{ a with queue := [] }, b] } } }
  have hrouted : s.Reaches taken := by
    have h := reaches_routed a.queue hc hs
    rw [foldl_routeBy] at h
    exact h
  have hcomponents : taken.components? = some (0, 1) :=
    (components?_foldl_routeBy a.queue s.replica).trans hc
  apply hrouted.trans
  rw [hr, foldl_routeBy]
  exact reaches_consumed (s := { s with replica := taken }) (a := { a with queue := [] }) (b := b)
    b.queue hcomponents rfl

theorem run_start {s : Replication} (hs : s.start = .enter)
    (hc : s.replica.watcher.closed = false) (ht : s.replica.watcher.started = false)
    (hf : s.replica.failingSubscriptions = 0) :
    s.run (.replicate 6 .start) =
      { s with start := .finished (.ok ()), replica := s.replica.start.2 } := by
  obtain ⟨⟨_, _, _, _, _, _, ⟨_, _, _, _, _, _, _, _, _⟩, _, _, _, _⟩, _, _⟩ := s
  cases hs
  cases hc
  cases ht
  cases hf
  rfl

end Replication

namespace Replica

variable {r : Replica}

/-- Nobody stops the replica, and nothing fails. -/
structure Steady (r : Replica) : Prop where
  coalesces : r.coalesces = true
  failing : r.failingReads = 0
  ended : r.changes.ended = false
  closed : r.watcher.closed = false
  cancelled : r.watcher.cancelled = false

theorem Steady.set_eq (h : r.Steady) (p : Payload) : r.set p = { r with
    payload? := some p
    changes := if r.changes.subscribed = true then { r.changes with pending := 1 }
      else r.changes } := by
  rw [Replica.set]
  simp only [h.coalesces, if_true, Replica.signal, h.ended, Bool.false_eq_true, not_false_eq_true,
    and_true]
  split <;> rfl

theorem Steady.read_cases (h : r.Steady) : r.read = r ∨ r.watcher.loop? = some .reading ∧
    ((∃ p, r.payload? = some p ∧ r.read = { r with
        watcher := { r.watcher with loop? := some (.applying (.enter p)) }
        events := r.events ++ [] }) ∨
      r.payload? = none ∧ r.read = { r with
        watcher := { r.watcher with loop? := some .endRead }
        events := r.events ++ [.missing] }) := by
  cases hl : r.watcher.loop? with
  | none =>
    refine .inl ?_
    simp only [read, hl]
  | some l =>
    cases l with
    | reading =>
      refine .inr ⟨rfl, ?_⟩
      cases hp : r.payload? with
      | none =>
        refine .inr ⟨rfl, ?_⟩
        simp only [read, hl, h.failing, hp]
        rfl
      | some p =>
        refine .inl ⟨p, rfl, ?_⟩
        simp only [read, hl, h.failing, hp]
        rfl
    | beginRead | applying a | endRead | waiting | leaving | exited =>
      refine .inl ?_
      simp only [read, hl]

theorem Steady.deliver_cases (h : r.Steady) : r.deliver = r ∨ r.watcher.loop? = some .waiting ∧
    r.deliver = { r with
      changes := { r.changes with pending := r.changes.pending - 1 }
      watcher := { r.watcher with loop? := some .beginRead } } := by
  cases hl : r.watcher.loop? with
  | none =>
    refine .inl ?_
    simp only [deliver, hl]
  | some l =>
    cases l with
    | waiting =>
      by_cases hp : r.changes.pending > 0
      · refine .inr ⟨rfl, ?_⟩
        simp only [deliver, hl, if_pos hp]
      · refine .inl ?_
        simp only [deliver, hl, if_neg hp, h.ended, Bool.false_eq_true, if_false]
    | beginRead | reading | applying a | endRead | leaving | exited =>
      refine .inl ?_
      simp only [deliver, hl]

theorem stepLoop_cases (r : Replica) : ∃ told,
    told.filterMap ReplicaEvent.routed? = [] ∧ told.filterMap ReplicaEvent.consumed? = [] ∧
      ((r.watcher.loop? = none ∧ r.stepLoop = { r with events := r.events ++ told }) ∨
        ∃ l l' w, r.watcher.loop? = some l ∧ l.step r.watcher = (l', w) ∧ r.stepLoop = { r with
          watcher := { w with loop? := some l' }
          events := r.events ++ told }) := by
  cases hl : r.watcher.loop? with
  | none =>
    refine ⟨[], rfl, rfl, .inl ⟨rfl, ?_⟩⟩
    simp only [stepLoop, Watcher.stepLoop, hl]
  | some l =>
    rcases hw : l.step r.watcher with ⟨l', w⟩
    have hs : r.watcher.stepLoop = { w with loop? := some l' } := by
      simp only [Watcher.stepLoop, hl, hw]
    by_cases hf : ∃ o, l = .applying (.finished o)
    · obtain ⟨o, rfl⟩ := hf
      refine ⟨[.handled o], rfl, rfl, .inr ⟨_, l', w, rfl, hw, ?_⟩⟩
      simp only [stepLoop, hl, hs]
    · refine ⟨[], rfl, rfl, .inr ⟨l, l', w, rfl, hw, ?_⟩⟩
      simp only [stepLoop, hs]
      split
      next o ho =>
        cases hl.symm.trans ho
        exact absurd ⟨o, rfl⟩ hf
      next => rfl

/-- A step that publishes nothing and lets no component receive anything. -/
structure Quiet (r r' : Replica) : Prop where
  components : r'.components? = r.components?
  receiver : r'.receiver = r.receiver
  dispatcher : r'.dispatcher = r.dispatcher
  bus : r'.watcher.bus = r.watcher.bus
  last : r'.watcher.last? = r.watcher.last?
  routed : r'.events.filterMap ReplicaEvent.routed? = r.events.filterMap ReplicaEvent.routed?
  consumed : r'.events.filterMap ReplicaEvent.consumed? =
    r.events.filterMap ReplicaEvent.consumed?

theorem Quiet.refl (r : Replica) : r.Quiet r := ⟨rfl, rfl, rfl, rfl, rfl, rfl, rfl⟩

theorem filterMap_told {β : Type} {f : ReplicaEvent → Option β} {events told : List ReplicaEvent}
    (h : told.filterMap f = []) : (events ++ told).filterMap f = events.filterMap f := by
  rw [List.filterMap_append, h, List.append_nil]

theorem Steady.quiet_set (h : r.Steady) (p : Payload) : r.Quiet (r.set p) := by
  rw [h.set_eq]
  exact ⟨rfl, rfl, rfl, rfl, rfl, rfl, rfl⟩

theorem Steady.quiet_read (h : r.Steady) : r.Quiet r.read := by
  rcases h.read_cases with hr | ⟨-, ⟨p, -, hr⟩ | ⟨-, hr⟩⟩
  · rw [hr]
    exact .refl r
  · rw [hr]
    exact ⟨rfl, rfl, rfl, rfl, rfl, filterMap_told rfl, filterMap_told rfl⟩
  · rw [hr]
    exact ⟨rfl, rfl, rfl, rfl, rfl, filterMap_told rfl, filterMap_told rfl⟩

theorem Steady.quiet_deliver (h : r.Steady) : r.Quiet r.deliver := by
  rcases h.deliver_cases with hr | ⟨-, hr⟩
  · rw [hr]
    exact .refl r
  · rw [hr]
    exact ⟨rfl, rfl, rfl, rfl, rfl, rfl, rfl⟩

end Replica

end EventRouting
