import EventRouting.ConsumerGroup.Basic
import EventRouting.Proofs.Dialogue
import EventRouting.Proofs.Table

namespace EventRouting

namespace ConsumerGroup

variable {σ α β : Type} (answer : (call : GroupCall) → StateM σ call.Answer)

/-- Runs a program under those who answer its calls from a state. -/
def under (p : Program α) (w : σ) : Except Failure α × σ := (p.run.foldM answer).run w

@[simp] theorem under_pure (a : α) (w : σ) : under answer (pure a) w = (.ok a, w) := rfl

theorem under_bind (p : Program α) (f : α → Program β) (w : σ) : under answer (p >>= f) w =
    match under answer p w with
    | (.ok a, v) => under answer (f a) v
    | (.error e, v) => (.error e, v) := by
  rw [under, ExceptT.run_bind, Dialogue.foldM_bind, StateT.run_bind, under]
  rcases (p.run.foldM answer).run w with ⟨r, v⟩
  cases r with
  | ok a => rfl
  | error e => rfl

end ConsumerGroup

/-- An administration of groups in memory. Every call is kept with the groups that it found. -/
structure GroupAdmin where
  groups : GroupTable := []
  /-- Why the calls to come are refused, in their order. A call without a reason is carried out. -/
  faults : List (Option Failure) := []
  calls : List (GroupCall × GroupTable) := []

namespace GroupAdmin

def answer (call : GroupCall) : StateM GroupAdmin call.Answer := fun w =>
  let called := { w with faults := w.faults.tail, calls := w.calls ++ [(call, w.groups)] }
  match w.faults.head?.join with
  | some f => (call.refuse f, called)
  | none =>
    let (a, groups) := (GroupTable.answer call).run w.groups
    (a, { called with groups })

def run {α : Type} (w : GroupAdmin) (p : ConsumerGroup.Program α) : Except Failure α × GroupAdmin :=
  (p.run.foldM answer).run w

variable {α β : Type} {w v : GroupAdmin} {b c : GroupBinding} {owner : TriggerRef}

@[simp] theorem run_pure (w : GroupAdmin) (a : α) : w.run (pure a) = (.ok a, w) := rfl

theorem run_bind (w : GroupAdmin) (p : ConsumerGroup.Program α) (f : α → ConsumerGroup.Program β) :
    w.run (p >>= f) =
      match w.run p with
      | (.ok a, v) => v.run (f a)
      | (.error e, v) => (.error e, v) := by
  rcases hp : w.run p with ⟨r, v⟩
  have hu : ConsumerGroup.under answer p w = (r, v) := hp
  refine (ConsumerGroup.under_bind answer p f w).trans ?_
  rw [hu]
  cases r with
  | ok a => rfl
  | error e => rfl

theorem bind_cases {p : ConsumerGroup.Program α} {f : α → ConsumerGroup.Program β}
    {r : Except Failure β} (h : w.run (p >>= f) = (r, v)) :
    (∃ a u, w.run p = (.ok a, u) ∧ u.run (f a) = (r, v)) ∨
      ∃ e, w.run p = (.error e, v) ∧ r = .error e := by
  rw [run_bind] at h
  rcases hp : w.run p with ⟨s, u⟩
  rw [hp] at h
  cases s with
  | ok a => exact .inl ⟨a, u, rfl, h⟩
  | error e =>
    obtain ⟨hr, hv⟩ := Prod.mk.inj h
    subst hv
    exact .inr ⟨e, rfl, hr.symm⟩

theorem map_cases {p : ConsumerGroup.Program α} {f : α → β} {r : Except Failure β}
    (h : w.run (do return f (← p)) = (r, v)) : ∃ s, w.run p = (s, v) ∧ r = s.map f := by
  rcases bind_cases h with ⟨a, u, hp, hv⟩ | ⟨e, he, rfl⟩
  · cases hv
    exact ⟨.ok a, hp, rfl⟩
  · exact ⟨.error e, he, rfl⟩

/-- A call is refused without effect, or the groups answer it. -/
theorem answer_cases (call : GroupCall) {a : call.Answer} (h : (answer call).run w = (a, v)) :
    v.calls = w.calls ++ [(call, w.groups)] ∧
      ((v.groups = w.groups ∧ ∃ f, a = call.refuse f) ∨
        (a, v.groups) = (GroupTable.answer call).run w.groups) := by
  change (match w.faults.head?.join with | some f => _ | none => _) = _ at h
  cases hf : w.faults.head?.join with
  | some f =>
    rw [hf] at h
    cases h
    exact ⟨rfl, .inl ⟨rfl, f, rfl⟩⟩
  | none =>
    rw [hf] at h
    cases h
    exact ⟨rfl, .inr rfl⟩

theorem binding_cases {r : Except Failure (Option GroupBinding)}
    (h : w.run (ConsumerGroup.binding owner) = (r, v)) :
    v.calls = w.calls ++ [(.binding owner, w.groups)] ∧ v.groups = w.groups ∧
      ∀ held, r = .ok held → held = w.groups.get? owner.uid := by
  obtain ⟨hc, ⟨hg, f, rfl⟩ | ha⟩ := answer_cases (.binding owner) h
  · exact ⟨hc, hg, fun held hr => nomatch hr⟩
  · obtain ⟨rfl, hg⟩ := Prod.mk.inj ha
    exact ⟨hc, hg, fun held hr => (Except.ok.inj hr).symm⟩

theorem apply_cases {r : Except Failure Unit} (h : w.run (ConsumerGroup.apply b) = (r, v)) :
    v.calls = w.calls ++ [(.apply b, w.groups)] ∧
      (((∃ f, r = .error f) ∧ v.groups = w.groups) ∨
        r = .ok () ∧ v.groups = w.groups.insert b.owner.uid b) := by
  obtain ⟨hc, ⟨hg, hf⟩ | ha⟩ := answer_cases (.apply b) h
  · exact ⟨hc, .inl ⟨hf, hg⟩⟩
  · exact ⟨hc, .inr (Prod.mk.inj ha)⟩

theorem delete_cases {r : Except Failure Unit} (h : w.run (ConsumerGroup.delete b) = (r, v)) :
    v.calls = w.calls ++ [(.delete b, w.groups)] ∧
      (((∃ f, r = .error f) ∧ v.groups = w.groups) ∨
        r = .ok () ∧ v.groups = w.groups.erase b.owner.uid) := by
  obtain ⟨hc, ⟨hg, hf⟩ | ha⟩ := answer_cases (.delete b) h
  · exact ⟨hc, .inl ⟨hf, hg⟩⟩
  · exact ⟨hc, .inr (Prod.mk.inj ha)⟩

end GroupAdmin

end EventRouting
