import EventRouting.Proofs.Delivery.Interleaving
import EventRouting.Proofs.Delivery.Watching

namespace EventRouting

deriving instance DecidableEq for Start

/-- Where the main program of a process stands. -/
inductive Stage where
  | starting (t : Start)
  | serving
  /-- Closing the watcher. -/
  | closing (c : Close)
  /-- The bus is to be closed. -/
  | draining
  /-- Waiting for the receiver and the dispatcher. -/
  | joining
  | stopped
  | failed (e : StartError)
  deriving DecidableEq

def Stage.ofStart : Start → Stage
  | .finished (.ok ()) => .serving
  | .finished (.error e) => .failed e
  | t => .starting t

def Stage.ofClose : Close → Stage
  | .finished _ => .draining
  | c => .closing c

theorem Stage.ofStart_ne_stopped (t : Start) : ofStart t ≠ .stopped := by
  cases t with
  | finished r => cases r <;> nofun
  | enter | checkStarted | subscribe | claim | spawn | keepHandle => nofun

theorem Stage.ofClose_ne_stopped (c : Close) : ofClose c ≠ .stopped := by
  cases c with
  | finished b => nofun
  | enter | barrier | cancel | takeHandle | join => nofun

structure Service where
  replica : Replica
  stage : Stage := .starting .enter
  /-- The receiver runs. -/
  routing : Bool := true
  /-- The dispatcher runs. -/
  dispatching : Bool := true

inductive ServiceMove where
  /-- The main program goes on. The source answers to a subscription. -/
  | proceed (changes : Except ContractError Unit)
  /-- The process is told to end. -/
  | signal
  /-- The loop goes on by itself. -/
  | loop
  /-- A read of the loop ends. -/
  | read (r : Readout)
  | notify
  | endChanges
  /-- The receiver takes what its subscription gives. -/
  | route
  /-- The dispatcher takes what its subscription gives. -/
  | dispatch

def Replica.mapLoop (r : Replica) (f : WatchLoop → WatchLoop) : Replica :=
  { r with watcher := r.watcher.mapLoop f }

def ReplicaEvent.applied? : ReplicaEvent → Option Generation
  | .handled (.applied g) => some g
  | .handled (.unchanged _) | .handled .rejected | .handled .closed | .unreadable | .missing
  | .routes _ _ | .consumers _ _ => none

namespace Service

/-- A receiver and a dispatcher have subscribed to a new bus. -/
def on (address : String) : Service where
  replica := {
    watcher := { bus := ({ address } : Bus).subscribe.subscribe }
    components? := some (0, 1) }

/-- The main program goes on, unless it has to wait. -/
def proceed (s : Service) (changes : Except ContractError Unit) : Service :=
  let w := s.replica.watcher
  match s.stage with
  | .starting t => { s with
      replica := { s.replica with watcher := (t.step changes w).2 }
      stage := .ofStart (t.step changes w).1 }
  | .closing c => { s with
      replica := { s.replica with watcher := (c.step w).2 }
      stage := .ofClose (c.step w).1 }
  | .draining => { s with
      replica := { s.replica with watcher := { w with bus := w.bus.close.2 } }
      stage := .joining }
  | .joining => if s.routing || s.dispatching then s else { s with stage := .stopped }
  | .serving | .stopped | .failed _ => s

def step (s : Service) : ServiceMove → Service
  | .proceed changes => s.proceed changes
  | .signal =>
    match s.stage with
    | .serving => { s with stage := .closing .enter }
    | _ => s
  | .loop => { s with replica := s.replica.stepLoop }
  | .read r => { s with replica := s.replica.mapLoop (·.receive r) }
  | .notify => { s with replica := s.replica.mapLoop (·.notify) }
  | .endChanges => { s with replica := s.replica.mapLoop (·.endChanges) }
  | .route =>
    if s.routing then { s with
      replica := s.replica.route
      routing := (s.replica.watcher.bus.receive 0).1 ≠ .ended }
    else s
  | .dispatch =>
    if s.dispatching then { s with
      replica := s.replica.dispatch
      dispatching := (s.replica.watcher.bus.receive 1).1 ≠ .ended }
    else s

def run (s : Service) (moves : List ServiceMove) : Service := moves.foldl step s

/-- The generations that the watcher told to have applied. -/
def applied (s : Service) : List Generation := s.replica.events.filterMap ReplicaEvent.applied?

end Service

/-- A component keeps what it received last. When it has ended, it has received all there is. -/
structure Follows {β : Type} (tableOf : Contract → Table String β) (i : Nat) (b : Bus)
    (events : List BusEvent) (running : Bool) (routes : Routes β) : Prop where
  kept : routes = .after tableOf (Bus.received i events)
  done : running = false → b.closed = true ∧ Bus.received i events = Bus.owed i events

namespace Follows

variable {β : Type} {tableOf : Contract → Table String β} {i : Nat} {b b' : Bus}
  {events : List BusEvent} {running : Bool} {routes : Routes β} {e : BusEvent}

theorem running_of_open (h : Follows tableOf i b events running routes) (hb : b.closed = false) :
    running = true := by
  cases hr : running with
  | true => rfl
  | false =>
    have hc := (h.done hr).1
    rw [hb] at hc
    cases hc

theorem concat_of_open (h : Follows tableOf i b events running routes) (hb : b.closed = false)
    (hr : e.receipt? i = none) : Follows tableOf i b' (events ++ [e]) running routes := by
  have hrunning := h.running_of_open hb
  constructor
  · rw [Bus.received_concat_of_none (by rw [hr]; rfl)]
    exact h.kept
  · intro hn
    cases hrunning.symm.trans hn

theorem concat_of_other (h : Follows tableOf i b events running routes)
    (hi : .subscribed i ∈ events) (hb : b'.closed = b.closed) {j : Nat} (hj : j ≠ i) (r : Receipt) :
    Follows tableOf i b' (events ++ [.received j r]) running routes := by
  have hr : Bus.received i (events ++ [.received j r]) = Bus.received i events :=
    Bus.received_concat_of_none (by rw [Bus.receipt?_of_ne hj]; rfl)
  constructor
  · rw [hr]
    exact h.kept
  · intro hn
    rw [hb, hr, Bus.owed_concat hi rfl (by simp)]
    exact h.done hn

theorem receive (tableOf : Contract → Table String β) (i : Nat) (b : Bus) (events : List BusEvent)
    (c : Contract) : Follows tableOf i b (events ++ [.received i (.contract c)]) true
      ⟨tableOf c, some c.generation⟩ := by
  have hr : Bus.received i (events ++ [.received i (.contract c)]) =
      Bus.received i events ++ [c] := by
    rw [Bus.received_concat, Bus.receipt?_self]
    rfl
  constructor
  · rw [hr, Routes.after, List.getLast?_concat]
  · intro hn
    cases hn

/-- A component that has ended has applied the drain last. -/
theorem after_drain (h : Follows tableOf i b events running routes) (hr : running = false)
    (ho : Bus.owed i events = Bus.accepted events ++ [Bus.drainAfter events]) :
    routes = ⟨tableOf (Bus.drainAfter events), some (Bus.drainAfter events).generation⟩ := by
  rw [h.kept, (h.done hr).2, ho, Routes.after, List.getLast?_concat]

end Follows

theorem Bus.closed_receive (b : Bus) (i : Nat) : (b.receive i).2.closed = b.closed := by
  rcases b.receive_cases i with ⟨-, hb⟩ | ⟨_, -, hb⟩ <;> rw [hb]

theorem Bus.Recorded.receive_ended {b : Bus} {events : List BusEvent} (h : b.Recorded events)
    {i : Nat} (hi : .subscribed i ∈ events) (hd : .dropped i ∉ events)
    (he : (b.receive i).1 = .ended) :
    b.closed = true ∧ received i events = owed i events := by
  obtain ⟨s, hs, -, ha, hq⟩ := h.serves_of_subscribed hi hd
  have hr : s.receive.1 = .ended := by
    rw [Bus.receive, hs] at he
    exact he
  cases hqueue : s.queue with
  | cons c queue =>
    rw [Subscription.receive, hqueue] at hr
    cases hr
  | nil =>
    rw [Subscription.receive, hqueue, ha] at hr
    cases hb : b.closed with
    | true =>
      rw [hq, hqueue, List.append_nil]
      exact ⟨rfl, rfl⟩
    | false =>
      rw [hb] at hr
      cases hr

/-- Two subscribers were there before anything was published, and they have stayed. -/
structure Bus.Attended (events : List BusEvent) : Prop where
  subscribed : ∃ later, events = .subscribed 0 :: .subscribed 1 :: later
  held : ∀ i, .dropped i ∉ events

namespace Bus.Attended

variable {events : List BusEvent}

theorem concat (h : Attended events) {e : BusEvent} (he : ∀ i, e ≠ .dropped i) :
    Attended (events ++ [e]) := by
  obtain ⟨⟨later, rfl⟩, hheld⟩ := h
  refine ⟨⟨later ++ [e], rfl⟩, ?_⟩
  intro i hi
  rcases List.mem_append.mp hi with hi | hi
  · exact hheld i hi
  · exact he i (List.mem_singleton.mp hi).symm

theorem mem_subscribed (h : Attended events) : .subscribed 0 ∈ events ∧ .subscribed 1 ∈ events := by
  obtain ⟨later, rfl⟩ := h.subscribed
  exact ⟨List.mem_cons_self, List.mem_cons_of_mem _ List.mem_cons_self⟩

/-- When the bus is closed, both are owed all that was published, and the drain. -/
theorem owed_eq (h : Attended events) (hc : .closed true ∈ events) :
    owed 0 events = accepted events ++ [drainAfter events] ∧
      owed 1 events = accepted events ++ [drainAfter events] := by
  obtain ⟨later, rfl⟩ := h.subscribed
  have hl : .closed true ∈ later := by simpa using hc
  constructor
  · rw [owed, since, if_pos rfl, if_pos (List.mem_cons_of_mem _ hl)]
    rfl
  · rw [owed, since, if_neg (by simp), since, if_pos rfl, if_pos hl]
    rfl

end Bus.Attended

/-- The generation that was published for a payload and is not told of. -/
def Apply.untold? : Apply → Option Generation
  | .restorePhase g _ => some g
  | .finished o => (ReplicaEvent.handled o).applied?
  | .enter _ | .decode _ | .acquire _ | .locked _ | .compare _ | .publish _ _ => none

def WatchLoop.untold? : WatchLoop → Option Generation
  | .applying a => a.untold?
  | .beginRead | .reading | .endRead | .waiting | .leaving | .exited => none

def Watcher.untold? (w : Watcher) : Option Generation := w.loop?.bind WatchLoop.untold?

/-- What the loop is about to publish is newer than the last generation. -/
def Watcher.Due (w : Watcher) : Prop :=
  ∀ c before, w.loop? = some (.applying (.publish c before)) →
    w.last?.all (· < c.generation) = true

theorem Watcher.untold?_of_applying {w : Watcher} {a : Apply}
    (h : w.loop? = some (.applying a)) : w.untold? = a.untold? := by
  rw [untold?, h]
  rfl

theorem Watcher.untold?_eq_none {w : Watcher} (h : ∀ a, w.loop? ≠ some (.applying a)) :
    w.untold? = none := by
  rw [untold?]
  cases hl : w.loop? with
  | none => rfl
  | some l =>
    cases l with
    | applying a => exact absurd hl (h a)
    | beginRead | reading | endRead | waiting | leaving | exited => rfl

/-- Handling a payload ends with its publication, or publishes nothing. -/
theorem Apply.step_untold (a : Apply) (w : Watcher) :
    (∃ c before, a = .publish c before) ∨
      ((a.step w).2.bus = w.bus ∧ (a.step w).2.last? = w.last? ∧
        (a.step w).1.untold? = a.untold? ∧
        ∀ c before, (a.step w).1 = .publish c before → w.last?.all (· < c.generation) = true) := by
  cases a with
  | publish c before => exact .inl ⟨c, before, rfl⟩
  | enter p =>
    rw [step]
    split <;> exact .inr ⟨rfl, rfl, rfl, fun _ _ h => Apply.noConfusion h⟩
  | decode p =>
    rw [step]
    cases Contract.decode p <;> exact .inr ⟨rfl, rfl, rfl, fun _ _ h => Apply.noConfusion h⟩
  | acquire c | locked c =>
    rw [step]
    split <;> exact .inr ⟨rfl, rfl, rfl, fun _ _ h => Apply.noConfusion h⟩
  | compare c =>
    rw [step]
    split
    next hl =>
      refine .inr ⟨rfl, rfl, rfl, ?_⟩
      intro d before hd
      cases hd
      exact hl
    next => exact .inr ⟨rfl, rfl, rfl, fun _ _ h => Apply.noConfusion h⟩
  | restorePhase g before => exact .inr ⟨rfl, rfl, rfl, fun _ _ h => Apply.noConfusion h⟩
  | finished o => exact .inr ⟨rfl, rfl, rfl, fun _ _ h => Apply.noConfusion h⟩

namespace Replica

/-- The generations that the watcher has published, told of or not. -/
def published (r : Replica) : List Generation :=
  r.events.filterMap ReplicaEvent.applied? ++ r.watcher.untold?.toList

/-- A step that publishes nothing and lets no component receive anything. -/
structure Calm (r r' : Replica) : Prop where
  components : r'.components? = r.components?
  receiver : r'.receiver = r.receiver
  dispatcher : r'.dispatcher = r.dispatcher
  bus : r'.watcher.bus = r.watcher.bus
  last : r'.watcher.last? = r.watcher.last?
  published : r'.published = r.published
  due : r.watcher.Due → r'.watcher.Due

theorem Calm.refl (r : Replica) : r.Calm r := ⟨rfl, rfl, rfl, rfl, rfl, rfl, id⟩

theorem Calm.of_alongside {r : Replica} {w : Watcher} (h : r.watcher.Alongside w)
    (hu : w.untold? = r.watcher.untold?) : r.Calm { r with watcher := w } := by
  refine ⟨rfl, rfl, rfl, h.bus, h.last, ?_, ?_⟩
  · exact congrArg (fun g => r.events.filterMap ReplicaEvent.applied? ++ g.toList) hu
  · intro hdue c before hl
    rw [h.last]
    rcases h.loop _ hl with hl | ⟨p, hp⟩
    · exact hdue c before hl
    · cases hp

theorem route_of_contract {r : Replica} {i j : Nat} {c : Contract} {bus : Bus}
    (hc : r.components? = some (i, j)) (hb : r.watcher.bus.receive i = (.contract c, bus)) :
    r.route = { r with watcher := { r.watcher with bus } }.routeBy c := by
  simp only [route, hc, hb]

theorem route_of_none {r : Replica} {i j : Nat} (hc : r.components? = some (i, j))
    (hb : ∀ c, (r.watcher.bus.receive i).1 ≠ .contract c) : r.route = r := by
  simp only [route, hc]
  split
  next c bus hcontract => exact absurd (congrArg Prod.fst hcontract) (hb c)
  next => rfl

theorem dispatch_of_contract {r : Replica} {i j : Nat} {c : Contract} {bus : Bus}
    (hc : r.components? = some (i, j)) (hb : r.watcher.bus.receive j = (.contract c, bus)) :
    r.dispatch = { r with watcher := { r.watcher with bus } }.dispatchBy c := by
  simp only [dispatch, hc, hb]

theorem dispatch_of_none {r : Replica} {i j : Nat} (hc : r.components? = some (i, j))
    (hb : ∀ c, (r.watcher.bus.receive j).1 ≠ .contract c) : r.dispatch = r := by
  simp only [dispatch, hc]
  split
  next c bus hcontract => exact absurd (congrArg Prod.fst hcontract) (hb c)
  next => rfl

theorem events_stepLoop (r : Replica) : r.stepLoop.events = r.events ++
    match r.watcher.loop? with
    | some (.applying (.finished o)) => [.handled o]
    | _ => [] := rfl

theorem published_of_turns {r : Replica} (h : r.watcher.Turns r.watcher.stepLoop) :
    r.stepLoop.published = r.published := by
  have hn : r.stepLoop.watcher.untold? = none := Watcher.untold?_eq_none h.after
  rw [published, hn, events_stepLoop, List.filterMap_append, published]
  split
  next o ho =>
    rw [Watcher.untold?_of_applying ho, Apply.untold?]
    cases o <;> simp [ReplicaEvent.applied?]
  next hl =>
    have hm : r.watcher.untold? = none := by
      apply Watcher.untold?_eq_none
      intro a ha
      obtain ⟨o, rfl⟩ := h.before a ha
      exact hl o ha
    rw [hm]
    simp

theorem published_of_applying {r : Replica} {a : Apply} (ha : ∀ o, a ≠ .finished o)
    (hl : r.watcher.loop? = some (.applying a)) :
    r.stepLoop.published = r.events.filterMap ReplicaEvent.applied? ++
      r.watcher.stepLoop.untold?.toList := by
  rw [published, events_stepLoop, hl]
  split
  next o ho =>
    cases ho
    exact absurd rfl (ha o)
  next =>
    rw [List.append_nil]
    rfl

end Replica

/-- What the main program has brought about, and what it relies on. -/
def Stage.Fits (w : Watcher) : Stage → Prop
  | .starting .enter | .starting .checkStarted | .starting .subscribe | .starting .claim
  | .starting .spawn => w.bus.closed = false ∧ w.closed = false ∧ w.loop? = none
  | .starting .keepHandle => w.bus.closed = false ∧ w.closed = false
  | .starting (.finished _) => False
  | .serving | .closing .enter => w.bus.closed = false ∧ w.closed = false ∧ w.hasHandle = true
  | .closing .barrier | .closing .cancel | .closing .takeHandle =>
    w.bus.closed = false ∧ w.hasHandle = true
  | .closing .join | .failed _ => w.bus.closed = false
  | .closing (.finished _) => False
  | .draining => w.bus.closed = false ∧ w.loop? = some .exited
  | .joining | .stopped => w.bus.closed = true ∧ w.loop? = some .exited

/-- What others do to the watcher, as the main program sees it. -/
structure Watcher.Onward (w w' : Watcher) : Prop where
  bus : w'.bus.closed = w.bus.closed
  closed : w'.closed = w.closed
  handle : w'.hasHandle = w.hasHandle
  absent : w.loop? = none → w'.loop? = none
  exited : w.loop? = some .exited → w'.loop? = some .exited

namespace Stage.Fits

variable {st : Stage} {w w' : Watcher}

theorem onward (h : st.Fits w) (ho : w.Onward w') : st.Fits w' := by
  obtain ⟨hb, hc, hh, hn, he⟩ := ho
  cases st with
  | starting t =>
    cases t with
    | enter | checkStarted | subscribe | claim | spawn =>
      exact ⟨hb.trans h.1, hc.trans h.2.1, hn h.2.2⟩
    | keepHandle => exact ⟨hb.trans h.1, hc.trans h.2⟩
    | finished r => cases h
  | serving => exact ⟨hb.trans h.1, hc.trans h.2.1, hh.trans h.2.2⟩
  | closing c =>
    cases c with
    | enter => exact ⟨hb.trans h.1, hc.trans h.2.1, hh.trans h.2.2⟩
    | barrier | cancel | takeHandle => exact ⟨hb.trans h.1, hh.trans h.2⟩
    | join => exact hb.trans h
    | finished b => cases h
  | draining | joining | stopped => exact ⟨hb.trans h.1, he h.2⟩
  | failed e => exact hb.trans h

theorem bus_open (h : st.Fits w) (hl : w.loop? ≠ some .exited) : w.bus.closed = false := by
  cases st with
  | starting t =>
    cases t with
    | enter | checkStarted | subscribe | claim | spawn | keepHandle => exact h.1
    | finished r => cases h
  | closing c =>
    cases c with
    | enter | barrier | cancel | takeHandle => exact h.1
    | join => exact h
    | finished b => cases h
  | serving | draining => exact h.1
  | joining | stopped => exact absurd h.2 hl
  | failed e => exact h

theorem start {t : Start} (h : (Stage.starting t).Fits w) (changes : Except ContractError Unit) :
    (Stage.ofStart (t.step changes w).1).Fits (t.step changes w).2 ∧
      (t.step changes w).2.untold? = w.untold? := by
  cases t with
  | enter =>
    rw [Start.step, if_neg (Bool.eq_false_iff.mp h.2.1)]
    exact ⟨h, rfl⟩
  | checkStarted =>
    rw [Start.step]
    split
    · exact ⟨h.1, rfl⟩
    · exact ⟨h, rfl⟩
  | subscribe =>
    cases changes with
    | ok u => exact ⟨h, rfl⟩
    | error e => exact ⟨h.1, rfl⟩
  | claim =>
    rw [Start.step]
    split
    · exact ⟨h.1, rfl⟩
    · exact ⟨h, rfl⟩
  | spawn =>
    refine ⟨⟨h.1, h.2.1⟩, ?_⟩
    have hn : w.untold? = none := by
      rw [Watcher.untold?, h.2.2]
      rfl
    exact hn.symm
  | keepHandle => exact ⟨⟨h.1, h.2, rfl⟩, rfl⟩
  | finished r => cases h

theorem close {c : Close} (h : (Stage.closing c).Fits w) :
    (Stage.ofClose (c.step w).1).Fits (c.step w).2 ∧ (c.step w).2.untold? = w.untold? := by
  cases c with
  | enter =>
    rw [Close.step, if_neg (Bool.eq_false_iff.mp h.2.1)]
    exact ⟨⟨h.1, h.2.2⟩, rfl⟩
  | barrier =>
    rw [Close.step]
    split <;> exact ⟨h, rfl⟩
  | cancel => exact ⟨h, rfl⟩
  | takeHandle =>
    rw [Close.step, if_pos h.2]
    exact ⟨h.1, rfl⟩
  | join =>
    rw [Close.step]
    split
    next hl => exact ⟨⟨h, hl⟩, rfl⟩
    next => exact ⟨h, rfl⟩
  | finished b => cases h

end Stage.Fits

theorem Watcher.onward_stepLoop (w : Watcher) (hb : w.stepLoop.bus.closed = w.bus.closed) :
    w.Onward w.stepLoop := by
  refine ⟨hb, w.stepLoop_frame.closed, w.stepLoop_frame.handle, ?_, ?_⟩
  · intro hl
    rw [stepLoop_of_none hl, hl]
  · intro hl
    rw [stepLoop_of_some hl]
    rfl

theorem Watcher.onward_mapLoop (w : Watcher) {f : WatchLoop → WatchLoop}
    (he : f .exited = .exited) :
    w.Onward (w.mapLoop f) := by
  refine ⟨rfl, rfl, rfl, ?_, ?_⟩
  · intro hl
    rw [mapLoop, hl]
    rfl
  · intro hl
    rw [mapLoop, hl]
    exact congrArg some he

namespace Service

/-- What holds at each time, after what happened on the bus. -/
structure Sound (s : Service) (events : List BusEvent) : Prop where
  components : s.replica.components? = some (0, 1)
  recorded : s.replica.watcher.bus.Recorded events
  attended : Bus.Attended events
  receiver : Follows Receiver.tableOf 0 s.replica.watcher.bus events s.routing s.replica.receiver
  dispatcher : Follows Dispatcher.tableOf 1 s.replica.watcher.bus events s.dispatching
    s.replica.dispatcher
  last : s.replica.watcher.last? = (Bus.accepted events).getLast?.map (·.generation)
  published : s.replica.published = (Bus.accepted events).map (·.generation)
  due : s.replica.watcher.Due
  stage : s.stage.Fits s.replica.watcher
  joined : s.stage = .stopped → s.routing = false ∧ s.dispatching = false

variable {s : Service} {events : List BusEvent}

theorem Sound.calm (h : s.Sound events) {r : Replica} {st : Stage} (hr : s.replica.Calm r)
    (hs : st.Fits r.watcher) (hj : st = .stopped → s.routing = false ∧ s.dispatching = false) :
    Sound { s with replica := r, stage := st } events := by
  refine ⟨hr.components.trans h.components, ?_, h.attended, ?_, ?_, ?_, ?_, hr.due h.due, hs, hj⟩
  · rw [hr.bus]
    exact h.recorded
  · rw [hr.bus, hr.receiver]
    exact h.receiver
  · rw [hr.bus, hr.dispatcher]
    exact h.dispatcher
  · exact hr.last.trans h.last
  · exact hr.published.trans h.published

theorem Sound.onward (h : s.Sound events) {r : Replica} (hr : s.replica.Calm r)
    (ho : s.replica.watcher.Onward r.watcher) : Sound { s with replica := r } events :=
  h.calm hr (h.stage.onward ho) h.joined

theorem Sound.publish (h : s.Sound events) {c : Contract} {before : WatchPhase}
    (hl : s.replica.watcher.loop? = some (.applying (.publish c before))) :
    Sound { s with replica := s.replica.stepLoop } (events ++ [.published c true]) := by
  have hopen : s.replica.watcher.bus.closed = false := by
    apply h.stage.bus_open
    rw [hl]
    exact fun hf => by cases hf
  -- Nothing else publishes, so the bus and the watcher agree on the last generation, and the bus
  -- accepts what the watcher found newer.
  have hnewer : s.replica.watcher.bus.last?.all (· < c.generation) = true := by
    rw [h.recorded.last hopen, ← h.last]
    exact h.due c before hl
  have haccepts : s.replica.watcher.bus.accepts c = true := by
    rw [Bus.accepts, hopen, hnewer]
    rfl
  have hstep : s.replica.watcher.stepLoop = { s.replica.watcher with
      last? := some c.generation
      bus := (s.replica.watcher.bus.publish c).2
      loop? := some (.applying (.restorePhase c.generation before)) } :=
    Watcher.stepLoop_of_some hl
  have hbus : s.replica.stepLoop.watcher.bus = (s.replica.watcher.bus.publish c).2 := by
    rw [Replica.stepLoop, hstep]
  have haccepted : Bus.accepted (events ++ [.published c true]) = Bus.accepted events ++ [c] :=
    Bus.accepted_append _ _
  have hunfinished : ∀ o, Apply.publish c before ≠ .finished o := by
    intro o ho
    cases ho
  refine ⟨h.components, ?_, h.attended.concat fun _ hd => BusEvent.noConfusion hd,
    h.receiver.concat_of_open hopen rfl,
    h.dispatcher.concat_of_open hopen rfl, ?_, ?_, ?_, ?_, h.joined⟩
  · rw [hbus]
    exact h.recorded.publish haccepts
  · rw [haccepted, List.getLast?_concat, Replica.stepLoop, hstep]
    rfl
  · have hpublished := h.published
    rw [Replica.published, Watcher.untold?_of_applying hl, Apply.untold?] at hpublished
    rw [haccepted, List.map_append, ← hpublished,
      Replica.published_of_applying hunfinished hl, hstep]
    exact congrArg (· ++ _) (List.append_nil _).symm
  · intro d b hd
    rw [Replica.stepLoop, hstep] at hd
    cases hd
  · apply h.stage.onward
    apply s.replica.watcher.onward_stepLoop
    rw [hstep, Bus.publish, if_pos haccepts]

theorem Sound.loop (h : s.Sound events) :
    ∃ events, Sound { s with replica := s.replica.stepLoop } events := by
  rcases s.replica.watcher.stepLoop_cases with ht | ⟨a, ha, hl, hw⟩
  · refine ⟨events, h.onward ⟨rfl, rfl, rfl, ht.bus, ht.last, ?_, ?_⟩ ?_⟩
    · exact Replica.published_of_turns ht
    · intro _ c before hl
      exact absurd hl (ht.after _)
    · exact s.replica.watcher.onward_stepLoop (congrArg Bus.closed ht.bus)
  · rcases a.step_untold s.replica.watcher with ⟨c, before, rfl⟩ | ⟨hb, hlast, hu, hd⟩
    · exact ⟨_, h.publish hl⟩
    · refine ⟨events, h.onward ⟨rfl, rfl, rfl, ?_, ?_, ?_, ?_⟩ ?_⟩
      · rw [Replica.stepLoop, hw]
        exact hb
      · rw [Replica.stepLoop, hw]
        exact hlast
      · rw [Replica.published_of_applying ha hl, hw, Replica.published,
          Watcher.untold?_of_applying hl, ← hu]
        rfl
      · intro _ c before hp
        rw [Replica.stepLoop, hw] at hp ⊢
        rw [hlast]
        exact hd c before (WatchLoop.applying.inj (Option.some.inj hp))
      · apply s.replica.watcher.onward_stepLoop
        rw [hw]
        exact congrArg Bus.closed hb

theorem Sound.mapLoop (h : s.Sound events) {f : WatchLoop → WatchLoop} (he : f .exited = .exited)
    (hf : ∀ l a, f l = .applying a → l = .applying a ∨ ∃ p, a = .enter p)
    (hu : ∀ l, (f l).untold? = l.untold?) :
    Sound { s with replica := s.replica.mapLoop f } events := by
  have hw : (s.replica.watcher.mapLoop f).untold? = s.replica.watcher.untold? := by
    rw [Watcher.untold?, Watcher.untold?, Watcher.mapLoop, Option.bind_map]
    exact congrArg _ (funext hu)
  exact h.onward (.of_alongside (s.replica.watcher.mapLoop_alongside hf) hw)
    (s.replica.watcher.onward_mapLoop he)

theorem Sound.closeBus (h : s.Sound events) (hopen : s.replica.watcher.bus.closed = false)
    (hl : s.replica.watcher.loop? = some .exited) :
    Sound { s with
      replica := { s.replica with watcher := { s.replica.watcher with
        bus := s.replica.watcher.bus.close.2 } }
      stage := .joining } (events ++ [.closed true]) := by
  have haccepted : Bus.accepted (events ++ [.closed true]) = Bus.accepted events :=
    Bus.accepted_concat_of_none rfl
  refine ⟨h.components, h.recorded.close hopen, h.attended.concat nofun,
    h.receiver.concat_of_open hopen rfl, h.dispatcher.concat_of_open hopen rfl, ?_, ?_, h.due,
    ⟨?_, hl⟩, nofun⟩
  · rw [haccepted]
    exact h.last
  · rw [haccepted]
    exact h.published
  · rw [Bus.close, if_neg (Bool.eq_false_iff.mp hopen)]

theorem Sound.proceed (h : s.Sound events) (changes : Except ContractError Unit) :
    ∃ events, (s.proceed changes).Sound events := by
  have hstage := h.stage
  rw [Service.proceed]
  split
  next t hs =>
    rw [hs] at hstage
    obtain ⟨hfits, hu⟩ := hstage.start changes
    refine ⟨events, h.calm (.of_alongside (t.step_alongside changes _).1 hu) hfits ?_⟩
    intro hj
    exact absurd hj (Stage.ofStart_ne_stopped _)
  next c hs =>
    rw [hs] at hstage
    obtain ⟨hfits, hu⟩ := hstage.close
    refine ⟨events, h.calm (.of_alongside (c.step_alongside _).1 hu) hfits ?_⟩
    intro hj
    exact absurd hj (Stage.ofClose_ne_stopped _)
  next hs =>
    rw [hs] at hstage
    exact ⟨_, h.closeBus hstage.1 hstage.2⟩
  next hs =>
    split
    next => exact ⟨events, h⟩
    next hj =>
      rw [hs] at hstage
      rw [Bool.or_eq_true, not_or, Bool.not_eq_true, Bool.not_eq_true] at hj
      exact ⟨events, h.calm (.refl s.replica) hstage fun _ => hj⟩
  next => exact ⟨events, h⟩
  next => exact ⟨events, h⟩
  next => exact ⟨events, h⟩

theorem Sound.receive (h : s.Sound events) {i : Nat} {x : Receipt} {bus : Bus}
    (hb : s.replica.watcher.bus.receive i = (x, bus)) (told : List ReplicaEvent)
    (ht : told.filterMap ReplicaEvent.applied? = []) {receiver : Receiver} {dispatcher : Dispatcher}
    (hr : Follows Receiver.tableOf 0 bus (events ++ [.received i x]) s.routing receiver)
    (hd : Follows Dispatcher.tableOf 1 bus (events ++ [.received i x]) s.dispatching dispatcher) :
    Sound { s with replica := { s.replica with
      watcher := { s.replica.watcher with bus }
      receiver, dispatcher, events := s.replica.events ++ told } } (events ++ [.received i x]) := by
  have haccepted : Bus.accepted (events ++ [.received i x]) = Bus.accepted events :=
    Bus.accepted_concat_of_none rfl
  have hrecorded := h.recorded.receive i
  have hclosed := s.replica.watcher.bus.closed_receive i
  rw [hb] at hrecorded hclosed
  refine ⟨h.components, hrecorded, h.attended.concat nofun, hr, hd, ?_, ?_, h.due,
    h.stage.onward ⟨hclosed, rfl, rfl, id, id⟩, h.joined⟩
  · rw [haccepted]
    exact h.last
  · rw [haccepted, ← h.published]
    exact congrArg (· ++ _) (Replica.filterMap_told ht)

theorem Sound.tasks (h : s.Sound events) {routing dispatching : Bool}
    (hr : routing = s.routing ∨
      s.replica.watcher.bus.closed = true ∧ Bus.received 0 events = Bus.owed 0 events)
    (hd : dispatching = s.dispatching ∨
      s.replica.watcher.bus.closed = true ∧ Bus.received 1 events = Bus.owed 1 events)
    (hn : s.stage ≠ .stopped) : Sound { s with routing, dispatching } events := by
  refine ⟨h.components, h.recorded, h.attended, ⟨h.receiver.kept, ?_⟩,
    ⟨h.dispatcher.kept, ?_⟩, h.last, h.published, h.due, h.stage, fun hs => absurd hs hn⟩
  · intro hf
    rcases hr with hr | hr
    · exact h.receiver.done (hr.symm.trans hf)
    · exact hr
  · intro hf
    rcases hd with hd | hd
    · exact h.dispatcher.done (hd.symm.trans hf)
    · exact hd

theorem Sound.route (h : s.Sound events) : ∃ events, (s.step .route).Sound events := by
  obtain ⟨hi, hj⟩ := h.attended.mem_subscribed
  rw [step]
  split
  next hrun =>
    have hstage : s.stage ≠ .stopped := fun hs => by cases hrun.symm.trans (h.joined hs).1
    have hnone := Replica.route_of_none h.components
    have hended := h.recorded.receive_ended hi (h.attended.held 0)
    rcases hb : s.replica.watcher.bus.receive 0 with ⟨x, bus⟩
    rw [hb] at hnone hended
    cases x with
    | contract c =>
      have hclosed := s.replica.watcher.bus.closed_receive 0
      rw [hb] at hclosed
      have hreceiver := Follows.receive Receiver.tableOf 0 bus events c
      rw [← hrun] at hreceiver
      have hdispatcher := h.dispatcher.concat_of_other hj hclosed Nat.zero_ne_one (.contract c)
      have hsound := h.receive hb [.routes c.generation (Receiver.apply s.replica.receiver c).1] rfl
        hreceiver hdispatcher
      rw [Replica.route_of_contract h.components hb]
      rw [hrun] at hsound
      exact ⟨_, hsound⟩
    | nothingYet =>
      rw [hnone nofun]
      exact ⟨events, h.tasks (.inl hrun.symm) (.inl rfl) hstage⟩
    | ended =>
      rw [hnone nofun]
      exact ⟨events, h.tasks (.inr (hended rfl)) (.inl rfl) hstage⟩
  next => exact ⟨events, h⟩

theorem Sound.dispatch (h : s.Sound events) : ∃ events, (s.step .dispatch).Sound events := by
  obtain ⟨hi, hj⟩ := h.attended.mem_subscribed
  rw [step]
  split
  next hrun =>
    have hstage : s.stage ≠ .stopped := fun hs => by cases hrun.symm.trans (h.joined hs).2
    have hnone := Replica.dispatch_of_none h.components
    have hended := h.recorded.receive_ended hj (h.attended.held 1)
    rcases hb : s.replica.watcher.bus.receive 1 with ⟨x, bus⟩
    rw [hb] at hnone hended
    cases x with
    | contract c =>
      have hclosed := s.replica.watcher.bus.closed_receive 1
      rw [hb] at hclosed
      have hreceiver := h.receiver.concat_of_other hi hclosed Nat.one_ne_zero (.contract c)
      have hdispatcher := Follows.receive Dispatcher.tableOf 1 bus events c
      rw [← hrun] at hdispatcher
      have hsound := h.receive hb
        [.consumers c.generation (Dispatcher.apply s.replica.dispatcher c).1]
        rfl hreceiver hdispatcher
      rw [Replica.dispatch_of_contract h.components hb]
      rw [hrun] at hsound
      exact ⟨_, hsound⟩
    | nothingYet =>
      rw [hnone nofun]
      exact ⟨events, h.tasks (.inl rfl) (.inl hrun.symm) hstage⟩
    | ended =>
      rw [hnone nofun]
      exact ⟨events, h.tasks (.inl rfl) (.inr (hended rfl)) hstage⟩
  next => exact ⟨events, h⟩

theorem Sound.step (h : s.Sound events) (m : ServiceMove) :
    ∃ events, (s.step m).Sound events := by
  cases m with
  | proceed changes => exact h.proceed changes
  | signal =>
    rw [Service.step]
    split
    next hs =>
      have hstage := h.stage
      rw [hs] at hstage
      exact ⟨events, h.calm (.refl s.replica) hstage nofun⟩
    next => exact ⟨events, h⟩
  | loop => exact h.loop
  | read r =>
    refine ⟨events, h.mapLoop rfl (fun _ _ => WatchLoop.applying_of_receive) ?_⟩
    intro l
    cases l with
    | reading => cases r <;> rfl
    | beginRead | applying a | endRead | waiting | leaving | exited => rfl
  | notify =>
    refine ⟨events, h.mapLoop rfl (fun _ _ hl => .inl (WatchLoop.applying_of_notify hl)) ?_⟩
    intro l
    cases l <;> rfl
  | endChanges =>
    refine ⟨events, h.mapLoop rfl (fun _ _ hl => .inl (WatchLoop.applying_of_endChanges hl)) ?_⟩
    intro l
    cases l <;> rfl
  | route => exact h.route
  | dispatch => exact h.dispatch

theorem Sound.run (h : s.Sound events) (moves : List ServiceMove) :
    ∃ events, (s.run moves).Sound events := by
  induction moves generalizing s events with
  | nil => exact ⟨events, h⟩
  | cons m moves ih =>
    obtain ⟨events, hs⟩ := h.step m
    exact ih hs

theorem sound_on (address : String) : (on address).Sound [.subscribed 0, .subscribed 1] := by
  have hrecorded := (Bus.Recorded.empty address).subscribe.subscribe
  have hattended : Bus.Attended [.subscribed 0, .subscribed 1] := by
    refine ⟨⟨[], rfl⟩, ?_⟩
    intro i hi
    simp at hi
  exact ⟨rfl, hrecorded, hattended, ⟨rfl, nofun⟩, ⟨rfl, nofun⟩, rfl, rfl, nofun, ⟨rfl, rfl, rfl⟩,
    nofun⟩

theorem Sound.applied_eq (h : s.Sound events) (hl : s.replica.watcher.loop? = some .exited) :
    s.applied = (Bus.accepted events).map (·.generation) := by
  have hn : s.replica.watcher.untold? = none := by
    rw [Watcher.untold?, hl]
    rfl
  rw [← h.published, Replica.published, hn]
  exact (List.append_nil _).symm

/-- When a process has stopped, its components have applied the drain last: their tables are empty,
and they report the generation after the last one, or 0. -/
theorem stopped_drained (address : String) (moves : List ServiceMove) :
    let s := (on address).run moves
    s.stage = .stopped → (∀ g, s.applied.getLast? = some g → g < .greatest) →
      s.replica.receiver.table = [] ∧ s.replica.dispatcher.table = [] ∧
      ∃ g, s.replica.receiver.generation? = some g ∧ s.replica.dispatcher.generation? = some g ∧
        g.toNat = (s.applied.getLast?.map (·.toNat + 1)).getD 0 := by
  intro s hs hg
  obtain ⟨events, h⟩ := (sound_on address).run moves
  have hstage : s.stage.Fits s.replica.watcher := h.stage
  rw [hs] at hstage
  obtain ⟨hr, hd⟩ := h.joined hs
  obtain ⟨hreceiver, hdispatcher⟩ := h.attended.owed_eq (h.recorded.closed.mp hstage.1)
  have hroutes := h.receiver.after_drain hr hreceiver
  have hconsumers := h.dispatcher.after_drain hd hdispatcher
  have happlied := h.applied_eq hstage.2
  refine ⟨congrArg Routes.table hroutes, congrArg Routes.table hconsumers,
    (Bus.drainAfter events).generation, congrArg Routes.generation? hroutes,
    congrArg Routes.generation? hconsumers, ?_⟩
  rw [happlied, List.getLast?_map] at hg ⊢
  rw [Bus.drainAfter]
  cases hl : (Bus.accepted events).getLast? with
  | none => rfl
  | some c =>
    rw [hl] at hg
    exact Generation.toNat_add_one (hg c.generation rfl)

theorem stopped_drained_amid_payload :
    let first : Contract :=
      ⟨3, [{ uid := "a", topics := ["t"], ingress? := some { path := "/a" } }]⟩
    let second : Contract :=
      ⟨7, [{ uid := "b", topics := ["t"], ingress? := some { path := "/b" } }]⟩
    let main : ServiceMove := .proceed (.ok ())
    let moves : List ServiceMove := .replicate 6 main ++
      [.loop, .read (.payload first.encode)] ++ .replicate 9 .loop ++
      [.route, .notify, .loop, .read .missing, .loop, .notify, .loop, .read .failed, .loop, .notify,
        .loop, .read (.payload second.encode), .loop, .loop, .loop, .loop, .signal, main, main,
        .loop, .loop, .loop, main, main, main, .loop, .loop, .loop, .loop, main, .route, main,
        .dispatch, .dispatch, .dispatch, .dispatch, .route, .route, main]
    let s := (on "contract.updates").run moves
    s.stage = .stopped ∧ s.applied = [3, 7] ∧ s.replica.receiver.table = [] ∧
      s.replica.dispatcher.table = [] ∧ ∃ g, s.replica.receiver.generation? = some g ∧
        s.replica.dispatcher.generation? = some g ∧ g.toNat = 8 := by
  intro first second main moves
  have happlied : ((on "contract.updates").run moves).applied = [3, 7] := by decide +kernel
  have hstage : ((on "contract.updates").run moves).stage = .stopped := by decide +kernel
  have hg : ∀ g, ((on "contract.updates").run moves).applied.getLast? = some g → g < .greatest := by
    rw [happlied]
    intro g hg
    cases hg
    decide
  obtain ⟨hr, hd, g, hrouted, hconsumed, hnext⟩ :=
    stopped_drained "contract.updates" moves hstage hg
  rw [happlied] at hnext
  exact ⟨hstage, happlied, hr, hd, g, hrouted, hconsumed, hnext⟩

end Service

end EventRouting
