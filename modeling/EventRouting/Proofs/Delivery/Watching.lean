import EventRouting.Delivery.Watcher
import EventRouting.Proofs.Delivery.Traffic

namespace EventRouting

/-- Whether somebody who handles a payload has the lock on the last generation. -/
def Apply.holdsLock : Apply → Bool
  | .locked _ | .compare _ | .publish _ _ | .restorePhase _ _ => true
  | .enter _ | .decode _ | .acquire _ | .finished _ => false

/-- Whether it is past the last look at whether the watcher is closed, and yet to publish. -/
def Apply.isCleared : Apply → Bool
  | .compare _ | .publish _ _ => true
  | .enter _ | .decode _ | .acquire _ | .locked _ | .restorePhase _ _ | .finished _ => false

/-- Whether a call to start is the one that starts the loop. -/
def Start.hasClaimed : Start → Bool
  | .spawn | .keepHandle | .finished (.ok ()) => true
  | .enter | .checkStarted | .subscribe | .claim | .finished (.error _) => false

theorem Apply.holdsLock_of_isCleared {a : Apply} (h : a.isCleared = true) :
    a.holdsLock = true := by
  cases a with
  | compare c | publish c before => rfl
  | enter p | decode p | acquire c | locked c | restorePhase g before | finished o => cases h

/-- What the loop and the handling of payloads leave as it is. -/
structure Watcher.Frame (w w' : Watcher) : Prop where
  closed : w'.closed = w.closed
  started : w'.started = w.started
  handle : w'.hasHandle = w.hasHandle

namespace Apply

theorem step_frame (a : Apply) (w : Watcher) :
    w.Frame (a.step w).2 ∧ (a.step w).2.loop? = w.loop? := by
  cases a with
  | enter p => exact ⟨⟨rfl, rfl, rfl⟩, rfl⟩
  | decode p =>
    rw [step]
    cases Contract.decode p <;> exact ⟨⟨rfl, rfl, rfl⟩, rfl⟩
  | acquire c | locked c | compare c =>
    rw [step]
    split <;> exact ⟨⟨rfl, rfl, rfl⟩, rfl⟩
  | publish c before => exact ⟨⟨rfl, rfl, rfl⟩, rfl⟩
  | restorePhase g before => exact ⟨⟨rfl, rfl, rfl⟩, rfl⟩
  | finished o => exact ⟨⟨rfl, rfl, rfl⟩, rfl⟩

/-- The lock is taken when it is free, and only the one who has it gives it back. -/
theorem step_lock (a : Apply) (w : Watcher) :
    (((a.step w).1.holdsLock = true → a.holdsLock = true) ∧ (a.step w).2.locked = w.locked) ∨
      (w.locked = false ∧ (a.step w).2.locked = true) ∨
      (a.holdsLock = true ∧ ¬ (a.step w).1.holdsLock = true) := by
  cases a with
  | enter p =>
    rw [step]
    split <;> exact .inl ⟨id, rfl⟩
  | decode p =>
    rw [step]
    cases Contract.decode p <;> exact .inl ⟨id, rfl⟩
  | acquire c =>
    rw [step]
    split
    next => exact .inl ⟨id, rfl⟩
    next h => exact .inr (.inl ⟨Bool.eq_false_iff.mpr h, rfl⟩)
  | locked c =>
    rw [step]
    split
    · exact .inr (.inr ⟨rfl, Bool.false_ne_true⟩)
    · exact .inl ⟨id, rfl⟩
  | compare c =>
    rw [step]
    split
    · exact .inl ⟨id, rfl⟩
    · exact .inr (.inr ⟨rfl, Bool.false_ne_true⟩)
  | publish c before => exact .inl ⟨id, rfl⟩
  | restorePhase g before => exact .inr (.inr ⟨rfl, Bool.false_ne_true⟩)
  | finished o => exact .inl ⟨id, rfl⟩

/-- On a closed watcher nobody gets so far as to publish who was not there already. -/
theorem step_of_closed {a : Apply} {w : Watcher} (hc : w.closed = true)
    (ha : a.isCleared = false) :
    (a.step w).1.isCleared = false ∧ (a.step w).2.bus = w.bus ∧ (a.step w).2.last? = w.last? := by
  cases a with
  | enter p =>
    rw [step, if_pos hc]
    exact ⟨rfl, rfl, rfl⟩
  | decode p =>
    rw [step]
    cases Contract.decode p <;> exact ⟨rfl, rfl, rfl⟩
  | acquire c =>
    rw [step]
    split <;> exact ⟨rfl, rfl, rfl⟩
  | locked c =>
    rw [step, if_pos hc]
    exact ⟨rfl, rfl, rfl⟩
  | compare c | publish c before => cases ha
  | restorePhase g before | finished o => exact ⟨rfl, rfl, rfl⟩

end Apply

/-- A step beside those who handle payloads. The loop may have read a payload to begin with. -/
structure Watcher.Alongside (w w' : Watcher) : Prop where
  bus : w'.bus = w.bus
  last : w'.last? = w.last?
  locked : w'.locked = w.locked
  loop : ∀ a, w'.loop? = some (.applying a) → w.loop? = some (.applying a) ∨ ∃ p, a = .enter p

theorem Watcher.Alongside.refl (w : Watcher) : w.Alongside w := ⟨rfl, rfl, rfl, fun _ => .inl⟩

theorem Start.step_alongside (t : Start) (changes : Except ContractError Unit) (w : Watcher) :
    w.Alongside (t.step changes w).2 ∧ (t.step changes w).2.closed = w.closed := by
  cases t with
  | enter | checkStarted => exact ⟨.refl w, rfl⟩
  | subscribe => cases changes <;> exact ⟨.refl w, rfl⟩
  | claim =>
    rw [step]
    split
    · exact ⟨.refl w, rfl⟩
    · exact ⟨⟨rfl, rfl, rfl, fun _ => .inl⟩, rfl⟩
  | spawn => exact ⟨⟨rfl, rfl, rfl, nofun⟩, rfl⟩
  | keepHandle => exact ⟨⟨rfl, rfl, rfl, fun _ => .inl⟩, rfl⟩
  | finished r => exact ⟨.refl w, rfl⟩

/-- A start is claimed when none was claimed before, and never given back. -/
theorem Start.step_claim (t : Start) (changes : Except ContractError Unit) (w : Watcher) :
    (((t.step changes w).1.hasClaimed = true → t.hasClaimed = true) ∧
        (t.step changes w).2.started = w.started) ∨
      (w.started = false ∧ (t.step changes w).2.started = true) := by
  cases t with
  | enter | checkStarted =>
    rw [step]
    split <;> exact .inl ⟨id, rfl⟩
  | subscribe => cases changes <;> exact .inl ⟨id, rfl⟩
  | claim =>
    rw [step]
    split
    next => exact .inl ⟨id, rfl⟩
    next h => exact .inr ⟨Bool.eq_false_iff.mpr h, rfl⟩
  | spawn | keepHandle => exact .inl ⟨fun _ => rfl, rfl⟩
  | finished r => exact .inl ⟨id, rfl⟩

theorem Close.step_alongside (c : Close) (w : Watcher) :
    w.Alongside (c.step w).2 ∧ (c.step w).2.started = w.started ∧
      (w.closed = true → (c.step w).2.closed = true) := by
  cases c with
  | enter =>
    rw [step]
    split
    · exact ⟨.refl w, rfl, id⟩
    · exact ⟨⟨rfl, rfl, rfl, fun _ => .inl⟩, rfl, fun _ => rfl⟩
  | barrier | join | finished b => exact ⟨.refl w, rfl, id⟩
  | cancel | takeHandle => exact ⟨⟨rfl, rfl, rfl, fun _ => .inl⟩, rfl, id⟩

/-- A watcher and the calls on it so far, each where it stands. -/
structure Watching where
  watcher : Watcher
  applies : List Apply := []
  starts : List Start := []
  closes : List Close := []

inductive WatchingMove where
  /-- A call with a payload, which is to be handled. -/
  | submit (p : Payload)
  | start
  | close
  /-- A call with a payload goes on. -/
  | handle (k : Nat)
  /-- A call to start goes on. The source answers to a subscription. -/
  | proceed (k : Nat) (changes : Except ContractError Unit)
  /-- A call to close goes on. -/
  | shut (k : Nat)
  /-- The loop goes on by itself. -/
  | loop
  /-- A read of the loop ends. -/
  | read (r : Readout)
  | notify
  | endChanges
  /-- Somebody else uses the bus. -/
  | bus (m : BusMove)

def WatchingMove.bus? : WatchingMove → Option BusMove
  | .bus m => some m
  | .submit _ | .start | .close | .handle _ | .proceed _ _ | .shut _ | .loop | .read _ | .notify
  | .endChanges => none

def Watcher.mapLoop (w : Watcher) (f : WatchLoop → WatchLoop) : Watcher :=
  { w with loop? := w.loop?.map f }

namespace Watching

def on (bus : Bus) : Watching where
  watcher := { bus }

def step (s : Watching) : WatchingMove → Watching
  | .submit p => { s with applies := s.applies ++ [.enter p] }
  | .start => { s with starts := s.starts ++ [.enter] }
  | .close => { s with closes := s.closes ++ [.enter] }
  | .handle k =>
    match s.applies[k]? with
    | some a => { s with
        watcher := (a.step s.watcher).2
        applies := s.applies.set k (a.step s.watcher).1 }
    | none => s
  | .proceed k changes =>
    match s.starts[k]? with
    | some t => { s with
        watcher := (t.step changes s.watcher).2
        starts := s.starts.set k (t.step changes s.watcher).1 }
    | none => s
  | .shut k =>
    match s.closes[k]? with
    | some c => { s with
        watcher := (c.step s.watcher).2
        closes := s.closes.set k (c.step s.watcher).1 }
    | none => s
  | .loop => { s with watcher := s.watcher.stepLoop }
  | .read r => { s with watcher := s.watcher.mapLoop (·.receive r) }
  | .notify => { s with watcher := s.watcher.mapLoop (·.notify) }
  | .endChanges => { s with watcher := s.watcher.mapLoop (·.endChanges) }
  | .bus m => { s with watcher := { s.watcher with bus := (s.watcher.bus.step m).2 } }

def run (s : Watching) (moves : List WatchingMove) : Watching := moves.foldl step s

/-- The handling of a payload in one of the calls, or in the loop. -/
def handling (s : Watching) : Option Nat → Option Apply
  | some k => s.applies[k]?
  | none =>
    match s.watcher.loop? with
    | some (.applying a) => some a
    | _ => none

/-- Somebody who handles a payload takes a step. -/
structure Handles (x : Option Nat) (a : Apply) (s s' : Watching) : Prop where
  before : s.handling x = some a
  after : s'.handling x = some (a.step s.watcher).1
  others : ∀ y, y ≠ x → s'.handling y = s.handling y
  bus : s'.watcher.bus = (a.step s.watcher).2.bus
  last : s'.watcher.last? = (a.step s.watcher).2.last?
  locked : s'.watcher.locked = (a.step s.watcher).2.locked

/-- Nobody who handles a payload takes a step. Somebody may begin to, and others may use the bus. -/
structure Spares (m? : Option BusMove) (s s' : Watching) : Prop where
  hands : ∀ x a, s'.handling x = some a → s.handling x = some a ∨ ∃ p, a = .enter p
  bus : s'.watcher.bus = (s.watcher.bus.run m?.toList).2
  last : s'.watcher.last? = s.watcher.last?
  locked : s'.watcher.locked = s.watcher.locked

theorem Spares.refl (s : Watching) : s.Spares none s := ⟨fun _ _ h => .inl h, rfl, rfl, rfl⟩

theorem Spares.alongside {s s' : Watching} (h : s.watcher.Alongside s'.watcher)
    (ha : s'.applies = s.applies) : s.Spares none s' := by
  refine ⟨?_, h.bus, h.last, h.locked⟩
  intro x a hx
  cases x with
  | some k =>
    rw [handling, ha] at hx
    exact .inl hx
  | none =>
    rw [handling] at hx
    split at hx
    next b hb =>
      cases hx
      rcases h.loop a hb with hl | hp
      · left
        rw [handling, hl]
      · exact .inr hp
    next => cases hx

end Watching

theorem Watcher.mapLoop_alongside (w : Watcher) {f : WatchLoop → WatchLoop}
    (hf : ∀ l a, f l = .applying a → l = .applying a ∨ ∃ p, a = .enter p) :
    w.Alongside (w.mapLoop f) := by
  refine ⟨rfl, rfl, rfl, ?_⟩
  intro a ha
  obtain ⟨l, hl, hfl⟩ := Option.map_eq_some_iff.mp ha
  rcases hf l a hfl with rfl | hp
  · exact .inl hl
  · exact .inr hp

namespace WatchLoop

variable {l : WatchLoop} {a : Apply}

theorem applying_of_receive {r : Readout} (h : l.receive r = .applying a) :
    l = .applying a ∨ ∃ p, a = .enter p := by
  cases l with
  | reading =>
    cases r with
    | payload p =>
      cases h
      exact .inr ⟨p, rfl⟩
    | missing | failed => cases h
  | beginRead | applying b | endRead | waiting | leaving | exited => exact .inl h

theorem applying_of_notify (h : l.notify = .applying a) : l = .applying a := by
  cases l with
  | waiting => cases h
  | beginRead | reading | applying b | endRead | leaving | exited => exact h

theorem applying_of_endChanges (h : l.endChanges = .applying a) : l = .applying a := by
  cases l with
  | waiting => cases h
  | beginRead | reading | applying b | endRead | leaving | exited => exact h

end WatchLoop

/-- The loop takes a step of its own. If it was handling a payload, that is over. -/
structure Watcher.Turns (w w' : Watcher) : Prop where
  frame : w.Frame w'
  bus : w'.bus = w.bus
  last : w'.last? = w.last?
  locked : w'.locked = w.locked
  before : ∀ a, w.loop? = some (.applying a) → ∃ o, a = .finished o
  after : ∀ a, w'.loop? ≠ some (.applying a)

theorem Watcher.Turns.alongside {w w' : Watcher} (h : w.Turns w') : w.Alongside w' :=
  ⟨h.bus, h.last, h.locked, fun a ha => absurd ha (h.after a)⟩

theorem Watcher.stepLoop_of_none {w : Watcher} (h : w.loop? = none) : w.stepLoop = w := by
  rw [stepLoop, h]

theorem Watcher.stepLoop_of_some {w : Watcher} {l : WatchLoop} (h : w.loop? = some l) :
    w.stepLoop = { (l.step w).2 with loop? := some (l.step w).1 } := by
  rw [stepLoop, h]

theorem Watcher.stepLoop_cases (w : Watcher) :
    w.Turns w.stepLoop ∨ ∃ a, (∀ o, a ≠ .finished o) ∧ w.loop? = some (.applying a) ∧
      w.stepLoop = { (a.step w).2 with loop? := some (.applying (a.step w).1) } := by
  cases hl : w.loop? with
  | none =>
    rw [stepLoop_of_none hl]
    refine .inl ⟨⟨rfl, rfl, rfl⟩, rfl, rfl, rfl, ?_, ?_⟩
    · intro a ha
      cases hl.symm.trans ha
    · intro a ha
      cases hl.symm.trans ha
  | some l =>
    rw [stepLoop_of_some hl]
    cases l with
    | applying a =>
      cases a with
      | finished o =>
        refine .inl ⟨⟨rfl, rfl, rfl⟩, rfl, rfl, rfl, ?_, nofun⟩
        intro a ha
        cases hl.symm.trans ha
        exact ⟨o, rfl⟩
      | enter _ | decode _ | acquire _ | locked _ | compare _ | publish _ _ | restorePhase _ _ =>
        refine .inr ⟨_, ?_, rfl, rfl⟩
        intro o ho
        cases ho
    | reading | waiting =>
      refine .inl ⟨⟨rfl, rfl, rfl⟩, rfl, rfl, rfl, ?_, ?_⟩
      · intro a ha
        cases hl.symm.trans ha
      · intro a ha
        cases hc : w.cancelled <;> simp [WatchLoop.step, hc] at ha
    | beginRead | endRead | leaving | exited =>
      refine .inl ⟨⟨rfl, rfl, rfl⟩, rfl, rfl, rfl, ?_, nofun⟩
      intro a ha
      cases hl.symm.trans ha

theorem Watcher.stepLoop_frame (w : Watcher) : w.Frame w.stepLoop := by
  rcases w.stepLoop_cases with hw | ⟨a, -, -, hw⟩
  · exact hw.frame
  · obtain ⟨hc, hs, hh⟩ := (a.step_frame w).1
    rw [hw]
    exact ⟨hc, hs, hh⟩

theorem getElem?_concat_cases {α : Type} {l : List α} {x y : α} {k : Nat}
    (h : (l ++ [x])[k]? = some y) : l[k]? = some y ∨ y = x := by
  rw [List.getElem?_append] at h
  split at h
  next => exact .inl h
  next => exact .inr (List.mem_singleton.mp (List.mem_of_getElem? h))

namespace Watching

variable {s : Watching}

theorem handles_call {k : Nat} {a : Apply} (hk : s.applies[k]? = some a) :
    s.Handles (some k) a { s with
      watcher := (a.step s.watcher).2
      applies := s.applies.set k (a.step s.watcher).1 } := by
  refine ⟨hk, ?_, ?_, rfl, rfl, rfl⟩
  · exact List.getElem?_set_self (List.getElem?_eq_some_iff.mp hk).1
  · intro y hy
    cases y with
    | some j =>
      have hj : k ≠ j := fun hj => hy (congrArg some hj.symm)
      exact List.getElem?_set_ne hj
    | none => simp only [handling, (a.step_frame s.watcher).2]

theorem handles_loop {a : Apply} (hl : s.watcher.loop? = some (.applying a)) :
    s.Handles none a { s with
      watcher := { (a.step s.watcher).2
        with loop? := some (.applying (a.step s.watcher).1) } } := by
  refine ⟨?_, rfl, ?_, rfl, rfl, rfl⟩
  · rw [handling, hl]
  · intro y hy
    cases y with
    | some j => rfl
    | none => exact absurd rfl hy

theorem step_cases (s : Watching) (m : WatchingMove) :
    (m.bus? = none ∧ ∃ x a, s.Handles x a (s.step m)) ∨ s.Spares m.bus? (s.step m) := by
  cases m with
  | submit p =>
    refine .inr ⟨?_, rfl, rfl, rfl⟩
    intro x a hx
    cases x with
    | none => exact .inl hx
    | some k =>
      rcases getElem?_concat_cases hx with hx | rfl
      · exact .inl hx
      · exact .inr ⟨p, rfl⟩
  | handle k =>
    rw [step]
    cases hk : s.applies[k]? with
    | none => exact .inr (.refl s)
    | some a => exact .inl ⟨rfl, some k, a, handles_call hk⟩
  | proceed k changes =>
    rw [step]
    cases s.starts[k]? with
    | none => exact .inr (.refl s)
    | some t => exact .inr (.alongside (t.step_alongside changes s.watcher).1 rfl)
  | shut k =>
    rw [step]
    cases s.closes[k]? with
    | none => exact .inr (.refl s)
    | some c => exact .inr (.alongside (c.step_alongside s.watcher).1 rfl)
  | loop =>
    rcases s.watcher.stepLoop_cases with hw | ⟨a, -, hl, hw⟩
    · exact .inr (.alongside hw.alongside rfl)
    · rw [step, hw]
      exact .inl ⟨rfl, none, a, handles_loop hl⟩
  | read r =>
    have hw := s.watcher.mapLoop_alongside fun _ _ => WatchLoop.applying_of_receive (r := r)
    exact .inr (.alongside hw rfl)
  | notify =>
    have hw := s.watcher.mapLoop_alongside fun _ _ h => .inl (WatchLoop.applying_of_notify h)
    exact .inr (.alongside hw rfl)
  | endChanges =>
    have hw := s.watcher.mapLoop_alongside fun _ _ h => .inl (WatchLoop.applying_of_endChanges h)
    exact .inr (.alongside hw rfl)
  | start | close => exact .inr (.alongside (.refl s.watcher) rfl)
  | bus m => exact .inr ⟨fun _ _ => .inl, rfl, rfl, rfl⟩

end Watching

end EventRouting
