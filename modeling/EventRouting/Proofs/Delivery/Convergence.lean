import EventRouting.Proofs.Delivery.Bus
import EventRouting.Proofs.Delivery.Interleaving
import EventRouting.Proofs.Delivery.Watcher
import EventRouting.Proofs.Routing.Order

namespace EventRouting

/-- What the components of a replica have applied and told of what was published. -/
structure Replica.Fed (r : Replica) (published routed consumed : List Contract) : Prop where
  components : r.components? = some (0, 1)
  sent : r.watcher.bus.Sent published
  feeds : ∃ s t, r.watcher.bus.subscriptions = [s, t] ∧
    Feed Receiver.tableOf published routed s r.receiver ∧
    Feed Dispatcher.tableOf published consumed t r.dispatcher
  routed : r.events.filterMap ReplicaEvent.routed? = routed.map (·.generation)
  consumed : r.events.filterMap ReplicaEvent.consumed? = consumed.map (·.generation)

namespace Replica.Fed

variable {r r' : Replica} {published routed consumed : List Contract} {c : Contract}

theorem of_quiet (h : r.Fed published routed consumed) (hq : r.Quiet r') :
    r'.Fed published routed consumed := by
  constructor
  · rw [hq.components]
    exact h.components
  · rw [hq.bus]
    exact h.sent
  · rw [hq.bus, hq.receiver, hq.dispatcher]
    exact h.feeds
  · rw [hq.routed]
    exact h.routed
  · rw [hq.consumed]
    exact h.consumed

theorem publish (h : r.Fed published routed consumed) {told : List ReplicaEvent} {w : Watcher}
    (hc : r.watcher.bus.last?.all (· < c.generation) = true)
    (hb : w.bus = (r.watcher.bus.publish c).2) (ht : told.filterMap ReplicaEvent.routed? = [])
    (hu : told.filterMap ReplicaEvent.consumed? = []) :
    Fed { r with watcher := w, events := r.events ++ told } (published ++ [c]) routed consumed := by
  obtain ⟨s, t, hs, hf, hg⟩ := h.feeds
  constructor
  · exact h.components
  · change w.bus.Sent _
    rw [hb]
    exact h.sent.publish hc
  · refine ⟨s.send c, t.send c, ?_, hf.send c, hg.send c⟩
    change w.bus.subscriptions = _
    rw [hb, h.sent.publish_eq hc, hs]
    rfl
  · rw [filterMap_told ht]
    exact h.routed
  · rw [filterMap_told hu]
    exact h.consumed

theorem route (h : r.Fed published routed consumed) :
    ∃ routed bus receiver events,
      r.route = { r with watcher := { r.watcher with bus }, receiver, events } ∧
        bus.last? = r.watcher.bus.last? ∧ r.route.Fed published routed consumed := by
  obtain ⟨s, t, hs, hf, hg⟩ := h.feeds
  cases hq : s.queue with
  | nil =>
    have hr : r.route = r := by
      simp only [Replica.route, h.components, Bus.receive, hs, List.getElem?_cons_zero,
        Subscription.receive, hq]
      split
      next he =>
        split at he <;> cases he
      next => rfl
    rw [hr]
    exact ⟨routed, r.watcher.bus, r.receiver, r.events, rfl, rfl, h⟩
  | cons c queue =>
    have hr : r.route = { r with
        watcher := { r.watcher with
          bus := { r.watcher.bus with subscriptions := [{ s with queue }, t] } }
        receiver := ⟨Receiver.tableOf c, some c.generation⟩
        events := r.events ++ [.routes c.generation (Receiver.apply r.receiver c).1] } := by
      simp only [Replica.route, h.components, Bus.receive, hs, List.getElem?_cons_zero,
        Subscription.receive, hq]
      rfl
    rw [hr]
    refine ⟨routed ++ [c], _, _, _, rfl, rfl, h.components,
      ⟨h.sent.closed, h.sent.last, h.sent.ascending⟩, ⟨_, _, rfl, hf.receive hq, hg⟩, ?_, ?_⟩
    · rw [List.filterMap_append, h.routed, List.map_append]
      rfl
    · rw [List.filterMap_append, h.consumed]
      exact List.append_nil _

theorem dispatch (h : r.Fed published routed consumed) :
    ∃ consumed bus dispatcher events,
      r.dispatch = { r with watcher := { r.watcher with bus }, dispatcher, events } ∧
        bus.last? = r.watcher.bus.last? ∧ r.dispatch.Fed published routed consumed := by
  obtain ⟨s, t, hs, hf, hg⟩ := h.feeds
  cases hq : t.queue with
  | nil =>
    have hr : r.dispatch = r := by
      simp only [Replica.dispatch, h.components, Bus.receive, hs, List.getElem?_cons_succ,
        List.getElem?_cons_zero, Subscription.receive, hq]
      split
      next he =>
        split at he <;> cases he
      next => rfl
    rw [hr]
    exact ⟨consumed, r.watcher.bus, r.dispatcher, r.events, rfl, rfl, h⟩
  | cons c queue =>
    have hr : r.dispatch = { r with
        watcher := { r.watcher with
          bus := { r.watcher.bus with subscriptions := [s, { t with queue }] } }
        dispatcher := ⟨Dispatcher.tableOf c, some c.generation⟩
        events := r.events ++ [.consumers c.generation (Dispatcher.apply r.dispatcher c).1] } := by
      simp only [Replica.dispatch, h.components, Bus.receive, hs, List.getElem?_cons_succ,
        List.getElem?_cons_zero, Subscription.receive, hq]
      rfl
    rw [hr]
    refine ⟨consumed ++ [c], _, _, _, rfl, rfl, h.components,
      ⟨h.sent.closed, h.sent.last, h.sent.ascending⟩, ⟨_, _, rfl, hf, hg.receive hq⟩, ?_, ?_⟩
    · rw [List.filterMap_append, h.routed]
      exact List.append_nil _
    · rw [List.filterMap_append, h.consumed, List.map_append]
      rfl

end Replica.Fed

/-- How far a call that starts the watcher got: the changes are subscribed to before there is a
loop. -/
def Start.Fits (r : Replica) : Start → Prop
  | .enter | .checkStarted | .subscribe => r.watcher.loop? = none
  | .claim | .spawn => r.changes.subscribed = true
  | .keepHandle | .finished _ => True

theorem Start.Fits.of_loop {a : Start} {r r' : Replica} {l : WatchLoop} (h : a.Fits r)
    (hl : r.watcher.loop? = some l) (hs : r'.changes.subscribed = r.changes.subscribed) :
    a.Fits r' := by
  cases a with
  | enter | checkStarted | subscribe => cases hl.symm.trans h
  | claim | spawn => exact hs.trans h
  | keepHandle | finished result => trivial

/-- The loop knows what is stored. -/
structure Replication.Attentive (s : Replication) : Prop where
  steady : s.replica.Steady
  payload : s.replica.payload? = s.written.getLast?
  start : s.start.Fits s.replica
  subscribed : ∀ l, s.replica.watcher.loop? = some l → s.replica.changes.subscribed = true
  loop : ∀ l, s.replica.watcher.loop? = some l →
    l.Fits s.written s.replica.watcher.last? (s.replica.changes.pending = 0)

/-- What holds in every interleaving. -/
structure Replication.Sound (s : Replication) (published routed consumed : List Contract) :
    Prop where
  attentive : s.Attentive
  fed : s.replica.Fed published routed consumed
  last : s.replica.watcher.last? = s.replica.watcher.bus.last?
  written : ∀ c ∈ published, Written s.written c

namespace Replication

variable {s : Replication} {published routed consumed : List Contract}

theorem sound_initial : initial.Sound [] [] [] := by
  constructor
  · refine ⟨⟨rfl, rfl, rfl, rfl, rfl⟩, rfl, rfl, ?_, ?_⟩
    · intro l hl
      cases hl
    · intro l hl
      cases hl
  · refine ⟨rfl, ⟨rfl, rfl, .nil⟩, ⟨_, _, rfl, ?_, ?_⟩, rfl, rfl⟩
    · exact ⟨rfl, rfl, rfl, rfl⟩
    · exact ⟨rfl, rfl, rfl, rfl⟩
  · rfl
  · intro c hc
    cases hc

theorem Attentive.of_components (h : s.Attentive) (bus : Bus) (receiver : Receiver)
    (dispatcher : Dispatcher) (events : List ReplicaEvent) :
    Attentive { s with replica := { s.replica with
      watcher := { s.replica.watcher with bus }, receiver, dispatcher, events } } := by
  obtain ⟨hc, hf, he, hcl, hca⟩ := h.steady
  exact ⟨⟨hc, hf, he, hcl, hca⟩, h.payload, h.start, h.subscribed, h.loop⟩

theorem Attentive.write (h : s.Attentive) (p : Payload) : (s.step (.write p)).Attentive := by
  have hw : some p = (s.written ++ [p]).getLast? := (List.getLast?_concat ..).symm
  obtain ⟨hc, hf, he, hcl, hca⟩ := h.steady
  rw [step, h.steady.set_eq]
  by_cases hs : s.replica.changes.subscribed = true
  · rw [if_pos hs]
    refine ⟨⟨hc, hf, he, hcl, hca⟩, hw, h.start, h.subscribed, ?_⟩
    intro l hl
    exact (h.loop l hl).write p Nat.one_ne_zero
  · rw [if_neg hs]
    refine ⟨⟨hc, hf, he, hcl, hca⟩, hw, h.start, h.subscribed, ?_⟩
    intro l hl
    exact absurd (h.subscribed l hl) hs

theorem Attentive.begin (h : s.Attentive) : (s.step .start).Attentive := by
  obtain ⟨r, start, written⟩ := s
  obtain ⟨hc, hf, he, hcl, hca⟩ := h.steady
  have hopen : ¬ r.watcher.closed = true := Bool.eq_false_iff.mp hcl
  have hs := h.start
  cases start with
  | enter =>
    simp only [step, Start.step, if_neg hopen]
    exact ⟨⟨hc, hf, he, hcl, hca⟩, h.payload, hs, h.subscribed, h.loop⟩
  | checkStarted =>
    simp only [step, Start.step]
    refine ⟨⟨hc, hf, he, hcl, hca⟩, h.payload, ?_, h.subscribed, h.loop⟩
    split
    · trivial
    · exact hs
  | subscribe =>
    simp only [step, Start.step]
    refine ⟨⟨hc, hf, rfl, hcl, hca⟩, h.payload, rfl, fun _ _ => rfl, ?_⟩
    intro l hl
    cases hs.symm.trans hl
  | claim =>
    simp only [step, Start.step]
    split
    · exact ⟨⟨hc, hf, he, hcl, hca⟩, h.payload, trivial, h.subscribed, h.loop⟩
    · exact ⟨⟨hc, hf, he, hcl, hca⟩, h.payload, hs, h.subscribed, h.loop⟩
  | spawn =>
    simp only [step, Start.step]
    refine ⟨⟨hc, hf, he, hcl, hca⟩, h.payload, trivial, fun _ _ => hs, ?_⟩
    intro l hl
    cases hl
    trivial
  | keepHandle =>
    simp only [step, Start.step]
    exact ⟨⟨hc, hf, he, hcl, hca⟩, h.payload, trivial, h.subscribed, h.loop⟩
  | finished result =>
    simp only [step, Start.step]
    exact ⟨⟨hc, hf, he, hcl, hca⟩, h.payload, trivial, h.subscribed, h.loop⟩

theorem Attentive.read (h : s.Attentive) : (s.step .read).Attentive := by
  obtain ⟨hc, hf, he, hcl, hca⟩ := h.steady
  rw [step]
  rcases h.steady.read_cases with hr | ⟨hl, ⟨p, hp, hr⟩ | ⟨hp, hr⟩⟩
  · rw [hr]
    exact h
  · rw [hr]
    refine ⟨⟨hc, hf, he, hcl, hca⟩, h.payload, h.start.of_loop hl rfl,
      fun _ _ => h.subscribed _ hl, ?_⟩
    intro l hm
    cases hm
    have hw : s.written.getLast? = some p := h.payload.symm.trans hp
    exact ⟨List.mem_of_getLast? hw, fun _ => hw⟩
  · rw [hr]
    refine ⟨⟨hc, hf, he, hcl, hca⟩, h.payload, h.start.of_loop hl rfl,
      fun _ _ => h.subscribed _ hl, ?_⟩
    intro l hm
    cases hm
    rintro - c ⟨p, hw, -⟩
    cases hp.symm.trans (h.payload.trans hw)

theorem Attentive.notice (h : s.Attentive) : (s.step .notice).Attentive := by
  obtain ⟨hc, hf, he, hcl, hca⟩ := h.steady
  rw [step]
  rcases h.steady.deliver_cases with hr | ⟨hl, hr⟩
  · rw [hr]
    exact h
  · rw [hr]
    refine ⟨⟨hc, hf, he, hcl, hca⟩, h.payload, h.start.of_loop hl rfl,
      fun _ _ => h.subscribed _ hl, ?_⟩
    intro l hm
    cases hm
    trivial

theorem Sound.of_quiet (h : s.Sound published routed consumed) {t : Replication}
    (ha : t.Attentive) (hq : s.replica.Quiet t.replica) (hw : s.written <+: t.written) :
    t.Sound published routed consumed := by
  refine ⟨ha, h.fed.of_quiet hq, ?_, ?_⟩
  · rw [hq.last, hq.bus]
    exact h.last
  · obtain ⟨later, hw⟩ := hw
    intro c hm
    rw [← hw]
    exact (h.written c hm).append later

theorem quiet_begin (s : Replication) : s.replica.Quiet (s.step .start).replica := by
  obtain ⟨r, start, written⟩ := s
  have hs : (Start.step start (.ok ()) r.watcher).2.bus = r.watcher.bus ∧
      (Start.step start (.ok ()) r.watcher).2.last? = r.watcher.last? := by
    cases start with
    | claim =>
      rw [Start.step]
      split <;> exact ⟨rfl, rfl⟩
    | enter | checkStarted | subscribe | spawn | keepHandle | finished _ => exact ⟨rfl, rfl⟩
  exact ⟨rfl, rfl, rfl, hs.1, hs.2, rfl, rfl⟩

theorem Sound.loop (h : s.Sound published routed consumed) :
    ∃ published, (s.step .loop).Sound published routed consumed := by
  obtain ⟨hc, hf, he, hcl, hca⟩ := h.attentive.steady
  obtain ⟨told, ht, hu, ⟨hl, hs⟩ | ⟨l, l', w, hl, hw, hs⟩⟩ := s.replica.stepLoop_cases
  · refine ⟨published, h.of_quiet ?_ ?_ List.prefix_rfl⟩
    · rw [step, hs]
      exact h.attentive.of_components _ _ _ _
    · rw [step, hs]
      exact ⟨rfl, rfl, rfl, rfl, rfl, Replica.filterMap_told ht, Replica.filterMap_told hu⟩
  · obtain ⟨hl', hcl', hca', hb⟩ := (h.attentive.loop l hl).step hcl hca hw
    have ha : (s.step .loop).Attentive := by
      rw [step, hs]
      refine ⟨⟨hc, hf, he, hcl'.trans hcl, hca'.trans hca⟩, h.attentive.payload,
        h.attentive.start.of_loop hl rfl, fun _ _ => h.attentive.subscribed l hl, ?_⟩
      intro m hm
      cases hm
      exact hl'
    rcases hb with ⟨hb, hlast⟩ | ⟨c, hwritten, hlt, hb, hlast⟩
    · refine ⟨published, h.of_quiet ha ?_ List.prefix_rfl⟩
      rw [step, hs]
      exact ⟨rfl, rfl, rfl, hb, hlast, Replica.filterMap_told ht, Replica.filterMap_told hu⟩
    · rw [h.last] at hlt
      refine ⟨published ++ [c], ha, ?_, ?_, ?_⟩
      · rw [step, hs]
        exact h.fed.publish hlt hb ht hu
      · rw [step, hs]
        change w.last? = w.bus.last?
        rw [hlast, hb, h.fed.sent.publish_eq hlt]
      · intro d hd
        rcases List.mem_append.mp hd with hd | hd
        · exact h.written d hd
        · obtain rfl := List.mem_singleton.mp hd
          exact hwritten

theorem Sound.route (h : s.Sound published routed consumed) :
    ∃ routed, (s.step .route).Sound published routed consumed := by
  obtain ⟨routed, bus, receiver, events, hr, hb, hfed⟩ := h.fed.route
  refine ⟨routed, ?_, hfed, ?_, h.written⟩
  · rw [step, hr]
    exact h.attentive.of_components bus receiver s.replica.dispatcher events
  · rw [step, hr]
    exact h.last.trans hb.symm

theorem Sound.dispatch (h : s.Sound published routed consumed) :
    ∃ consumed, (s.step .dispatch).Sound published routed consumed := by
  obtain ⟨consumed, bus, dispatcher, events, hr, hb, hfed⟩ := h.fed.dispatch
  refine ⟨consumed, ?_, hfed, ?_, h.written⟩
  · rw [step, hr]
    exact h.attentive.of_components bus s.replica.receiver dispatcher events
  · rw [step, hr]
    exact h.last.trans hb.symm

theorem Sound.step (h : s.Sound published routed consumed) (m : ReplicationMove) :
    ∃ published routed consumed, (s.step m).Sound published routed consumed := by
  have ha := h.attentive
  cases m with
  | write p =>
    refine ⟨published, routed, consumed, h.of_quiet (ha.write p) ?_ ?_⟩
    · exact ha.steady.quiet_set p
    · exact List.prefix_append _ _
  | start =>
    exact ⟨published, routed, consumed, h.of_quiet ha.begin s.quiet_begin List.prefix_rfl⟩
  | loop =>
    obtain ⟨published, hs⟩ := h.loop
    exact ⟨published, routed, consumed, hs⟩
  | read =>
    exact ⟨published, routed, consumed, h.of_quiet ha.read ha.steady.quiet_read List.prefix_rfl⟩
  | notice =>
    exact ⟨published, routed, consumed,
      h.of_quiet ha.notice ha.steady.quiet_deliver List.prefix_rfl⟩
  | route =>
    obtain ⟨routed, hs⟩ := h.route
    exact ⟨published, routed, consumed, hs⟩
  | dispatch =>
    obtain ⟨consumed, hs⟩ := h.dispatch
    exact ⟨published, routed, consumed, hs⟩

theorem Sound.run (h : s.Sound published routed consumed) (moves : List ReplicationMove) :
    ∃ published routed consumed, (s.run moves).Sound published routed consumed := by
  induction moves generalizing s published routed consumed with
  | nil => exact ⟨published, routed, consumed, h⟩
  | cons m moves ih =>
    obtain ⟨published, routed, consumed, hs⟩ := h.step m
    exact ih hs

/-- A replica that runs by itself until nothing is left to do takes these steps as well. -/
theorem Sound.reaches_settle (h : s.Sound published routed consumed) :
    s.Reaches s.replica.settle := by
  obtain ⟨moves, hm⟩ := s.reaches_moves (Replica.movesPerRead * (s.replica.changes.pending + 2))
  obtain ⟨published, routed, consumed, hs⟩ := h.run moves
  rw [hm] at hs
  obtain ⟨a, b, hab, -, -⟩ := hs.fed.feeds
  have hmoves : s.Reaches _ := ⟨moves, hm⟩
  exact hmoves.trans (reaches_drainComponents hs.fed.components hab)

theorem mem_contracts {c : Contract} : c ∈ s.contracts ↔ Written s.written c := by
  rw [contracts, List.mem_filterMap]
  apply exists_congr
  intro p
  apply and_congr_right'
  cases Contract.decode p with
  | ok d =>
    constructor
    · intro h
      cases h
      rfl
    · intro h
      cases h
      rfl
  | error e =>
    constructor
    · intro h
      cases h
    · intro h
      cases h

theorem precedes_of_stored {c d : Contract} (h : s.contracts.Pairwise Contract.Precedes)
    (hc : Stored s.written c) (hd : Written s.written d) : d.Precedes c := by
  obtain ⟨p, hp, hc⟩ := hc
  obtain ⟨init, hi⟩ := List.getLast?_eq_some_iff.mp hp
  have hs : s.contracts = init.filterMap (fun p => (Contract.decode p).toOption) ++ [c] := by
    rw [contracts, hi, List.filterMap_append]
    congr 1
    rw [List.filterMap_cons, hc]
    rfl
  have hd := mem_contracts.mpr hd
  rw [hs] at h hd
  rcases List.mem_append.mp hd with hd | hd
  · obtain ⟨-, -, hlast⟩ := List.pairwise_append.mp h
    exact hlast d hd c List.mem_cons_self
  · obtain rfl := List.mem_singleton.mp hd
    exact .refl d

/-- An idle replica published the stored contract last. -/
theorem Sound.last_published (h : s.Sound published routed consumed)
    (hw : s.contracts.Pairwise Contract.Precedes) (hi : s.Idle) {c : Contract}
    (hc : Stored s.written c) : published.getLast? = some c := by
  obtain ⟨g, hg, hle⟩ := h.attentive.loop _ hi.waiting hi.noticed c hc
  rw [h.last, h.fed.sent.last] at hg
  obtain ⟨d, hd, rfl⟩ := Option.map_eq_some_iff.mp hg
  obtain ⟨hle', heq⟩ := precedes_of_stored hw hc (h.written d (List.mem_of_getLast? hd))
  have hgen : d.generation = c.generation := UInt64.le_antisymm hle' hle
  have hdc : d = c := by
    cases d
    cases c
    cases hgen
    cases heq rfl
    rfl
  rw [hd, hdc]

/-- A component tells of ascending generations, each of a contract that was written. -/
theorem Sound.ascending (h : s.Sound published routed consumed) {applied : List Contract}
    (ha : applied <+: published) {told : List Generation} (ht : told = applied.map (·.generation)) :
    told.Pairwise (· < ·) ∧ ∀ g ∈ told, ∃ c ∈ s.contracts, c.generation = g := by
  rw [ht]
  constructor
  · apply List.pairwise_map.mpr
    exact h.fed.sent.ascending.sublist ha.sublist
  · intro g hg
    obtain ⟨c, hc, rfl⟩ := List.mem_map.mp hg
    exact ⟨c, mem_contracts.mpr (h.written c (ha.subset hc)), rfl⟩

/-- In every interleaving, the components apply ascending generations, and an idle replica routes as
if it had applied just the stored contract. -/
theorem replica_converges (moves : List ReplicationMove) :
    let s := initial.run moves
    (s.routed.Pairwise (· < ·) ∧ ∀ g ∈ s.routed, ∃ c ∈ s.contracts, c.generation = g) ∧
    (s.consumed.Pairwise (· < ·) ∧ ∀ g ∈ s.consumed, ∃ c ∈ s.contracts, c.generation = g) ∧
    (s.contracts.Pairwise Contract.Precedes → s.Idle →
      ∀ p c, s.replica.payload? = some p → Contract.decode p = .ok c →
        s.replica.receiver = (Receiver.apply {} c).2 ∧
          s.replica.dispatcher = (Dispatcher.apply {} c).2) := by
  intro s
  obtain ⟨published, routed, consumed, h⟩ := sound_initial.run moves
  obtain ⟨t, u, hs, hf, hg⟩ := h.fed.feeds
  refine ⟨h.ascending ⟨t.queue, hf.queued.symm⟩ h.fed.routed,
    h.ascending ⟨u.queue, hg.queued.symm⟩ h.fed.consumed, ?_⟩
  intro hw hi p c hp hc
  have hl : published.getLast? = some c :=
    h.last_published hw hi ⟨p, h.attentive.payload.symm.trans hp, hc⟩
  have hreceived := hi.received
  rw [hs] at hreceived
  have ht := hf.applied_eq (hreceived t List.mem_cons_self)
  have hu := hg.applied_eq (hreceived u (List.mem_cons_of_mem t List.mem_cons_self))
  constructor
  · rw [hf.kept, ht, Routes.after, hl]
    rfl
  · rw [hg.kept, hu, Routes.after, hl]
    rfl

/-- A contract with one ingress. -/
def pathContract (g : Generation) (path : String) : Contract :=
  ⟨g, [{ uid := "b", topics := ["t"], ingress? := some { path } }]⟩

theorem replica_converges_after_burst :
    let c := pathContract 3 "/new"
    let moves : List ReplicationMove := [.write (pathContract 1 "/old").encode] ++
      .replicate 6 .start ++ [.loop, .read, .write [0], .write c.encode] ++ .replicate 9 .loop ++
      [.notice, .route, .loop, .read] ++ .replicate 9 .loop ++ [.dispatch, .route, .dispatch]
    let s := initial.run moves
    s.contracts.Pairwise Contract.Precedes ∧ s.Idle ∧ s.routed = [1, 3] ∧
      s.replica.receiver = (Receiver.apply {} c).2 ∧
      s.replica.dispatcher = (Dispatcher.apply {} c).2 := by
  intro c moves s
  have ⟨hcontracts, hpayload, hrouted, hwaiting, hnoticed, hreceived⟩ :
      s.contracts = [pathContract 1 "/old", c] ∧ s.replica.payload? = some c.encode ∧
      s.routed = [1, 3] ∧ s.replica.watcher.loop? = some .waiting ∧
      s.replica.changes.pending = 0 ∧
      ∀ subscription ∈ s.replica.watcher.bus.subscriptions, subscription.queue = [] := by
    decide +kernel
  have hordered : s.contracts.Pairwise Contract.Precedes := by
    rw [hcontracts]
    exact List.pairwise_pair.mpr (.of_lt (by decide))
  have hidle : s.Idle := ⟨hwaiting, hnoticed, hreceived⟩
  obtain ⟨-, -, converges⟩ := replica_converges moves
  exact ⟨hordered, hidle, hrouted,
    converges hordered hidle c.encode c hpayload (Contract.decode_encode c)⟩

end Replication

end EventRouting
