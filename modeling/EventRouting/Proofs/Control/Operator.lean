import EventRouting.Control.Operator
import EventRouting.Proofs.Routing.Tracking
import EventRouting.Proofs.Storage.ConfigMap

namespace EventRouting

theorem ControlProgram.groups_bind {α β : Type} (p : ConsumerGroup.Program α)
    (f : α → ConsumerGroup.Program β) :
    groups (p >>= f) = groups p >>= fun a => groups (f a) := by
  refine ExceptT.ext (StateT.ext fun s => ?_)
  let answer (call : GroupCall) : ControlDialogue call.Answer := call.inCluster.interpret toApi
  have hg {γ : Type} (q : ConsumerGroup.Program γ) :
      (groups q).run.run s = q.run.foldM answer >>= fun r => pure (r, s) := rfl
  rw [ExceptT.run_bind, StateT.run_bind, hg, hg, ExceptT.run_bind, Dialogue.foldM_bind, bind_assoc,
    bind_assoc]
  refine bind_congr fun r => ?_
  cases r <;> rfl

namespace Operator

variable {α β : Type}

theorem answer_state (call : ControlCall) (w : Operator) (state : ControlState) :
    (answer call).run { w with state } =
      (((answer call).run w).1, { ((answer call).run w).2 with state }) := by
  cases call <;> rfl

theorem foldM_answer_state (d : ControlDialogue α) (w : Operator) (state : ControlState) :
    (d.foldM answer).run { w with state } =
      (((d.foldM answer).run w).1, { ((d.foldM answer).run w).2 with state }) := by
  induction d generalizing w with
  | done a => rfl
  | ask call next ih =>
    rw [Dialogue.foldM, StateT.run_bind, StateT.run_bind, answer_state]
    exact ih _ _

@[simp] theorem run_pure (a : α) (w : Operator) : w.run (pure a) = (.ok a, w) := rfl

theorem run_eq (p : ControlProgram α) (w : Operator) : w.run p =
    (((Dialogue.under answer p w.state).run w).1.1,
      { ((Dialogue.under answer p w.state).run w).2 with
        state := ((Dialogue.under answer p w.state).run w).1.2 }) := rfl

theorem run_bind (p : ControlProgram α) (f : α → ControlProgram β) (w : Operator) :
    w.run (p >>= f) =
      match w.run p with
      | (.ok a, w) => w.run (f a)
      | (.error e, w) => (.error e, w) := by
  rw [run_eq (p >>= f), Dialogue.under_bind, StateT.run_bind, run_eq p]
  rcases (Dialogue.under answer p w.state).run w with ⟨⟨r, state⟩, w'⟩
  cases r with
  | error e => rfl
  | ok a =>
    have hf := foldM_answer_state ((f a).run.run state) w' state
    change _ = Operator.run (f a) { w' with state }
    rw [run_eq (f a), Dialogue.under, hf]
    rfl

theorem ok_of_run_bind {p : ControlProgram α} {f : α → ControlProgram β} {w v : Operator} {b : β}
    (h : w.run (p >>= f) = (.ok b, v)) :
    ∃ a w', w.run p = (.ok a, w') ∧ w'.run (f a) = (.ok b, v) := by
  rw [run_bind] at h
  rcases hp : w.run p with ⟨r, w'⟩
  rw [hp] at h
  cases r with
  | ok a => exact ⟨a, w', rfl, h⟩
  | error e => cases h

@[simp] theorem run_get (w : Operator) : w.run get = (.ok w.state, w) := rfl

@[simp] theorem run_set (w : Operator) (state : ControlState) :
    w.run (set state) = (.ok ⟨⟩, { w with state }) := rfl

theorem run_ask (w : Operator) (call : ControlCall) :
    w.run (ControlProgram.ask call) = (.ok ((answer call).run w).1, ((answer call).run w).2) := by
  cases call <;> rfl

theorem foldM_toApi (d : ClusterProgram α) (w : Operator) :
    ((d.interpret ControlProgram.toApi).foldM answer).run w =
      ((w.server.serve d).1, { w with server := (w.server.serve d).2 }) := by
  rw [Dialogue.foldM_interpret]
  induction d generalizing w with
  | done a => rfl
  | ask r next ih => exact ih _ _

theorem run_groups (p : ConsumerGroup.Program α) (w : Operator) :
    w.run (ControlProgram.groups p) =
      ((w.server.serve (p.run.interpret GroupCall.inCluster)).1,
        { w with server := (w.server.serve (p.run.interpret GroupCall.inCluster)).2 }) := by
  have hi : (p.run.interpret fun call => call.inCluster.interpret ControlProgram.toApi) =
      (p.run.interpret GroupCall.inCluster).interpret ControlProgram.toApi :=
    (Dialogue.foldM_interpret _ _ _).symm
  have hg : Dialogue.under answer (ControlProgram.groups p) w.state = Dialogue.foldM answer
      ((p.run.interpret fun call => call.inCluster.interpret ControlProgram.toApi) >>= fun r =>
        pure (r, w.state)) := rfl
  rw [run_eq, hg, Dialogue.foldM_bind, StateT.run_bind, hi, foldM_toApi]
  rfl

/-- How a call of the synchronizer is answered. -/
def answerSync (ctx : ControlContext) (call : SyncCall) : StateM Operator call.Answer :=
  (ControlProgram.answerSync ctx call).foldM answer

theorem run_sync (ctx : ControlContext) (p : Synchronizer.Program α) (w : Operator) :
    w.run (ControlProgram.sync ctx p) =
      let ((r, sync), v) := (Dialogue.under (answerSync ctx) p w.state.sync).run w
      (r, { v with state := { w.state with sync } }) := by
  have hs : Dialogue.under answer (ControlProgram.sync ctx p) w.state = Dialogue.foldM answer
      ((p.run.run w.state.sync).interpret (ControlProgram.answerSync ctx) >>= fun x =>
        pure (x.1, { w.state with sync := x.2 })) := rfl
  rw [run_eq, hs, Dialogue.foldM_bind, StateT.run_bind, Dialogue.foldM_interpret]
  rfl

theorem answerSync_storage (ctx : ControlContext) (call : StorageCall) (w : Operator) :
    (answerSync ctx (.storage call)).run w =
      ((w.server.serve (call.inCluster ctx.storage)).1,
        { w with server := (w.server.serve (call.inCluster ctx.storage)).2 }) :=
  foldM_toApi (call.inCluster ctx.storage) w

end Operator

end EventRouting
