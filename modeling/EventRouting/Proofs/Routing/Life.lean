import EventRouting.Proofs.Routing.Tracking

namespace EventRouting

/-- What becomes of a write. -/
inductive Fate where
  | taken
  | refused (e : ContractError)
  /-- The payload is in place, though the answer is an error. -/
  | unacknowledged (e : ContractError)
  deriving DecidableEq, Repr

/-- What the synchronizer meets with during one operation. -/
structure Conditions where
  readiness : Readiness := ⟨fun _ => false, fun _ => 0⟩
  /-- Why the storage entry cannot be obtained. -/
  fault? : Option ContractError := none
  fate : Fate := .taken

/-- Answers a program. The payloads that storage accepted are kept, the latest last; it is what the
entry holds. -/
def Conditions.answer (c : Conditions) (call : SyncCall) : StateM (List Payload) call.Answer :=
  fun accepted =>
    match call with
    | .storage .obtain =>
      match c.fault? with
      | none => (.ok accepted.getLast?, accepted)
      | some e => (.error e, accepted)
    | .storage (.write p) =>
      match c.fate with
      | .taken => (.ok (), accepted ++ [p])
      | .refused e => (.error e, accepted)
      | .unacknowledged e => (.error e, accepted ++ [p])
    | .readiness _ => (c.readiness, accepted)
    | .retain _ => ((), accepted)

/-- A synchronization that was carried out. -/
structure Round where
  before : Synchronizer
  readiness : Readiness
  result : Except Failure SyncReport
  after : Synchronizer
  /-- What the storage entry held afterwards. -/
  payload? : Option Payload

/-- A running control plane. -/
structure Process where
  sync : Synchronizer
  /-- The contract that it went on from. -/
  seeded : Contract
  /-- The synchronizations since it started, the latest first. -/
  rounds : List Round := []

structure Life where
  accepted : List Payload := []
  /-- Missing before the first start and after one that failed. -/
  process? : Option Process := none

/-- One operation. The two halves of a recovery are operations of their own: it reopens the entry
and synchronizes. -/
inductive Move where
  | start (c : Conditions)
  | upsert (key : String) (f : Fragment)
  | remove (key : String)
  | sync (c : Conditions)
  | reopen (c : Conditions)
  | close (c : Conditions)

namespace Process

/-- Runs a program of the synchronizer over the payloads accepted so far. -/
def run {α : Type} (p : Process) (program : Synchronizer.Program α) (c : Conditions)
    (accepted : List Payload) : (Except Failure α × Synchronizer) × List Payload :=
  (Dialogue.under c.answer program p.sync).run accepted

theorem run_recover (p : Process) (c : Conditions) (accepted : List Payload) :
    p.run Synchronizer.recover c accepted =
      match p.run Synchronizer.reopen c accepted with
      | ((.ok _, sync), accepted) => { p with sync }.run Synchronizer.sync c accepted
      | ((.error e, sync), accepted) => ((.error e, sync), accepted) := by
  rw [run, Synchronizer.under_recover, StateT.run_bind]
  rcases hr : p.run Synchronizer.reopen c accepted with ⟨⟨result, sync⟩, accepted'⟩
  rw [run] at hr
  rw [hr]
  cases result <;> rfl

/-- The process after a program that makes no round. -/
def perform {α : Type} (p : Process) (program : Synchronizer.Program α) (c : Conditions)
    (accepted : List Payload) : Life :=
  let ((_, sync), accepted) := p.run program c accepted
  { accepted, process? := some { p with sync } }

/-- The process after a synchronization, which makes a round. -/
def synchronize (p : Process) (c : Conditions) (accepted : List Payload) : Life :=
  let ((result, sync), accepted) := p.run Synchronizer.sync c accepted
  let round : Round := ⟨p.sync, c.readiness, result, sync, accepted.getLast?⟩
  { accepted, process? := some { p with sync, rounds := round :: p.rounds } }

end Process

namespace Conditions

variable {c : Conditions} {s : Synchronizer} {accepted : List Payload}

theorem write_run (c : Conditions) (p : Payload) (accepted : List Payload) :
    (c.answer (.storage (.write p))).run accepted =
      match c.fate with
      | .taken => (.ok (), accepted ++ [p])
      | .refused e => (.error e, accepted)
      | .unacknowledged e => (.error e, accepted ++ [p]) := rfl

theorem obtain_run (c : Conditions) (accepted : List Payload) :
    (c.answer (.storage .obtain)).run accepted =
      match c.fault? with
      | none => (.ok accepted.getLast?, accepted)
      | some e => (.error e, accepted) := rfl

/-- A synchronization that leaves nothing to publish ends well. Otherwise the current contract is
written. -/
theorem sync_cases {result : Except Failure SyncReport} {after : Synchronizer}
    {accepted' : List Payload}
    (h : (Dialogue.under c.answer Synchronizer.sync s).run accepted =
      ((result, after), accepted')) :
    let t := s.accept (s.build c.readiness)
    (t.isBehind = false ∧ result = .ok (t.report (s.build c.readiness) false) ∧ after = t ∧
        accepted' = accepted) ∨
      (t.isBehind = true ∧ result = .ok (t.report (s.build c.readiness) true) ∧
        after = t.caughtUp ∧ accepted' = accepted ++ [t.current.encode]) ∨
      (t.isBehind = true ∧ (∃ e, result = .error e) ∧ after = t ∧
        (accepted' = accepted ∨ accepted' = accepted ++ [t.current.encode])) := by
  intro t
  rw [Synchronizer.under_sync] at h
  change StateT.run (if t.isBehind = true then if t.publisher.closed = true then pure _ else _
    else pure _) accepted = _ at h
  by_cases hb : t.isBehind = true
  · refine .inr ?_
    rw [if_pos hb] at h
    by_cases hc : t.publisher.closed = true
    · rw [if_pos hc] at h
      cases h
      exact .inr ⟨hb, ⟨_, rfl⟩, rfl, .inl rfl⟩
    · rw [if_neg hc, StateT.run_bind, write_run] at h
      cases hf : c.fate with
      | taken =>
        rw [hf] at h
        cases h
        exact .inl ⟨hb, rfl, rfl, rfl⟩
      | refused e =>
        rw [hf] at h
        cases h
        exact .inr ⟨hb, ⟨_, rfl⟩, rfl, .inl rfl⟩
      | unacknowledged e =>
        rw [hf] at h
        cases h
        exact .inr ⟨hb, ⟨_, rfl⟩, rfl, .inr rfl⟩
  · rw [if_neg hb] at h
    cases h
    exact .inl ⟨Bool.eq_false_iff.mpr hb, rfl, rfl, rfl⟩

theorem sync_takes {result : Except Failure SyncReport} {after : Synchronizer}
    {accepted' : List Payload}
    (h : (Dialogue.under c.answer Synchronizer.sync s).run accepted =
      ((result, after), accepted')) :
    after.current = (s.accept (s.build c.readiness)).current ∧
      after.admitted = (s.accept (s.build c.readiness)).admitted ∧
      after.fragments = s.fragments := by
  have hf := s.accept_fragments (s.build c.readiness)
  rcases sync_cases h with ⟨_, _, rfl, _⟩ | ⟨_, _, rfl, _⟩ | ⟨_, _, rfl, _⟩
  · exact ⟨rfl, rfl, hf⟩
  · exact ⟨rfl, rfl, hf⟩
  · exact ⟨rfl, rfl, hf⟩

theorem reopen_run (c : Conditions) (s : Synchronizer) (accepted : List Payload) :
    (Dialogue.under c.answer Synchronizer.reopen s).run accepted =
      match c.fault? with
      | none => ((.ok (), { s with publisher := s.publisher.reset }), accepted)
      | some e => ((.error (.contract e), s), accepted) := by
  rw [Synchronizer.under_reopen, StateT.run_bind, obtain_run]
  cases c.fault? <;> rfl

theorem reopen_cases {result : Except Failure Unit} {after : Synchronizer}
    {accepted' : List Payload}
    (h : (Dialogue.under c.answer Synchronizer.reopen s).run accepted =
      ((result, after), accepted')) :
    accepted' = accepted ∧ (after = s ∨ after = { s with publisher := s.publisher.reset }) := by
  rw [reopen_run] at h
  cases hf : c.fault? with
  | none =>
    rw [hf] at h
    cases h
    exact ⟨rfl, .inr rfl⟩
  | some e =>
    rw [hf] at h
    cases h
    exact ⟨rfl, .inl rfl⟩

theorem close_run (c : Conditions) (s : Synchronizer) (accepted : List Payload) :
    (Dialogue.under c.answer Synchronizer.close s).run accepted =
      if s.publisher.closed then ((.ok false, s), accepted)
      else match c.fate with
        | .taken => ((.ok true, s.shut), accepted ++ [s.drain.encode])
        | .refused e => ((.error (.contract e), s), accepted)
        | .unacknowledged e => ((.error (.contract e), s), accepted ++ [s.drain.encode]) := by
  rw [Synchronizer.under_close]
  by_cases hc : s.publisher.closed = true
  · rw [if_pos hc, if_pos hc]
    rfl
  · rw [if_neg hc, if_neg hc, StateT.run_bind, write_run]
    cases c.fate <;> rfl

theorem close_cases {result : Except Failure Bool} {after : Synchronizer}
    {accepted' : List Payload}
    (h : (Dialogue.under c.answer Synchronizer.close s).run accepted =
      ((result, after), accepted')) :
    (after = s.shut ∧ accepted' = accepted ++ [s.drain.encode]) ∨
      (after = s ∧ (accepted' = accepted ∨ ∃ e, c.fate = .unacknowledged e)) := by
  rw [close_run] at h
  by_cases hc : s.publisher.closed = true
  · rw [if_pos hc] at h
    cases h
    exact .inr ⟨rfl, .inl rfl⟩
  · rw [if_neg hc] at h
    cases hf : c.fate with
    | taken =>
      rw [hf] at h
      cases h
      exact .inl ⟨rfl, rfl⟩
    | refused e =>
      rw [hf] at h
      cases h
      exact .inr ⟨rfl, .inl rfl⟩
    | unacknowledged e =>
      rw [hf] at h
      cases h
      exact .inr ⟨rfl, .inr ⟨e, rfl⟩⟩

theorem start_run (c : Conditions) (accepted : List Payload) :
    (Synchronizer.start.foldM fun call => c.answer (.storage call)).run accepted =
      match c.fault? with
      | none => (.ok (Synchronizer.seed accepted.getLast?), accepted)
      | some e => (.error (.contract e), accepted) := by
  rw [Synchronizer.start, Dialogue.foldM_bind, obtainEntry, Dialogue.foldM_put, StateT.run_bind,
    obtain_run]
  cases c.fault? <;> rfl

end Conditions

namespace Life

/-- Nothing runs yet, and the storage entry is missing or holds a payload. -/
def ofEntry (payload? : Option Payload) : Life := { accepted := payload?.toList }

/-- A process takes the place of the former one and goes on from the storage entry. -/
def start (l : Life) (c : Conditions) : Life :=
  match (Synchronizer.start.foldM fun call => c.answer (.storage call)).run l.accepted with
  | (.ok sync, accepted) => { accepted, process? := some { sync, seeded := sync.current } }
  | (.error _, accepted) => { accepted }

/-- One operation. Where nothing runs, only a start does something. -/
def step (l : Life) (m : Move) : Life :=
  match m, l.process? with
  | .start c, _ => l.start c
  | _, none => l
  | .upsert key f, some p => { l with process? := some { p with sync := p.sync.upsert key f } }
  | .remove key, some p => { l with process? := some { p with sync := p.sync.remove key } }
  | .sync c, some p => p.synchronize c l.accepted
  | .reopen c, some p => p.perform Synchronizer.reopen c l.accepted
  | .close c, some p => p.perform Synchronizer.close c l.accepted

theorem start_cases (l : Life) (c : Conditions) :
    l.start c = { accepted := l.accepted } ∨
      l.start c = { accepted := l.accepted, process? := some {
        sync := Synchronizer.seed l.accepted.getLast?
        seeded := (Synchronizer.seed l.accepted.getLast?).current } } := by
  rw [start, Conditions.start_run]
  cases c.fault? with
  | none => exact .inr rfl
  | some e => exact .inl rfl

def run (l : Life) (moves : List Move) : Life := moves.foldl step l

/-- Writes of drains are not taken unacknowledged, and there is a newer generation for each
drain. -/
def DrainsCleanly (l : Life) : Move → Prop
  | .close c => (∀ e, c.fate ≠ .unacknowledged e) ∧
      ∀ p ∈ l.process?, p.sync.current.generation < .greatest
  | _ => True

/-- There is a newer generation for each contract that a synchronization mints. -/
def MintsInRange (l : Life) : Move → Prop
  | .sync c => ∀ p ∈ l.process?, ¬p.sync.Overflows c.readiness
  | _ => True

instance (l : Life) (m : Move) : Decidable (l.MintsInRange m) :=
  match m with
  | .sync c => inferInstanceAs (Decidable (∀ p ∈ l.process?, ¬p.sync.Overflows c.readiness))
  | .start _ | .upsert _ _ | .remove _ | .reopen _ | .close _ => isTrue trivial

/-- A condition on moves holds for each of them where it is made. -/
def Along (allowed : Life → Move → Prop) : Life → List Move → Prop
  | _, [] => True
  | l, m :: moves => allowed l m ∧ Along allowed (l.step m) moves

instance decidableAlong {allowed : Life → Move → Prop} [∀ l m, Decidable (allowed l m)] :
    ∀ l moves, Decidable (Along allowed l moves)
  | _, [] => isTrue trivial
  | l, m :: moves =>
    @instDecidableAnd _ _ _ (decidableAlong (l.step m) moves)

theorem Along.and {allowed allowed' : Life → Move → Prop} {l : Life} {moves : List Move}
    (h : Along allowed l moves) (h' : Along allowed' l moves) :
    Along (fun l m => allowed l m ∧ allowed' l m) l moves := by
  induction moves generalizing l with
  | nil => trivial
  | cons m moves ih => exact ⟨⟨h.1, h'.1⟩, ih h.2 h'.2⟩

/-- What every allowed move preserves holds after every run of them. -/
theorem run_invariant {allowed : Life → Move → Prop} {holds : Life → Prop}
    (hs : ∀ l m, holds l → allowed l m → holds (l.step m)) {l : Life} (h : holds l)
    {moves : List Move} (hm : Along allowed l moves) : holds (l.run moves) := by
  induction moves generalizing l with
  | nil => exact h
  | cons m moves ih => exact ih (hs l m h hm.1) hm.2

end Life

end EventRouting
