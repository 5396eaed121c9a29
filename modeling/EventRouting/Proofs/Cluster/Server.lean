import EventRouting.Cluster.Server
import EventRouting.Proofs.Dialogue
import EventRouting.Proofs.Json.Patch
import EventRouting.Proofs.Table

namespace EventRouting

open Json

/-- The object that a request is about. -/
def ApiRequest.target : ApiRequest → ObjectRef
  | .get o | .create o _ | .delete o | .apply o _ | .merge o _ | .mergeStatus o _ | .patch o _ => o

theorem isReleased_congr {v w : Value}
    (hd : v.at? ["metadata", "deletionTimestamp"] = w.at? ["metadata", "deletionTimestamp"])
    (hf : v.at? ["metadata", "finalizers"] = w.at? ["metadata", "finalizers"]) :
    isReleased v = isReleased w := by
  simp only [isReleased, hd, hf]

theorem isReleased_sorted (v : Value) : isReleased v.sorted = isReleased v := by
  simp only [isReleased, Value.at?_sorted]
  refine congrArg₂ (fun a b => a && !b) ?_ ?_
  · cases v.at? ["metadata", "deletionTimestamp"] with
    | none => rfl
    | some d =>
      cases d with
      | array items => cases items <;> rfl
      | _ => rfl
  · cases v.at? ["metadata", "finalizers"] with
    | none => rfl
    | some f =>
      cases f with
      | array items => cases items <;> rfl
      | _ => rfl

theorem isReleased_merge {v body : Value} {changes : List (String × Value)}
    (h : (v.merge body).get? "metadata" =
      some (((v.get? "metadata").getD .null).merge (.object changes)))
    (hd : "deletionTimestamp" ∉ changes.map Prod.fst) (hf : "finalizers" ∉ changes.map Prod.fst) :
    isReleased (v.merge body) = isReleased v :=
  isReleased_congr (Value.at?_merge h hd) (Value.at?_merge h hf)

namespace ApiServer

variable {s : ApiServer} {o : ObjectRef}

/-- No object is kept that is to be deleted and that nothing keeps. -/
def Keeps (s : ApiServer) (o : ObjectRef) : Prop :=
  ∀ v, s.objects.get? o = some v → isReleased v = false

theorem patched_frame {t : ObjectRef} (h : t ≠ o) (v : Value) :
    (s.patched t v).2.objects.get? o = s.objects.get? o := by
  rw [patched]
  split
  next => exact (Table.get?_erase _ _ _).trans (if_neg h)
  next => exact (Table.get?_insert _ _ _ _).trans (if_neg h)

theorem patch_frame {t : ObjectRef} (h : t ≠ o) (f : Value → Option Value) :
    (s.patch t f).2.objects.get? o = s.objects.get? o := by
  rw [patch]
  split
  next => rfl
  next =>
    split
    next => exact patched_frame h _
    next => rfl

theorem reply_frame {r : ApiRequest} (h : r.target ≠ o) :
    (s.reply r).2.objects.get? o = s.objects.get? o := by
  cases r with
  | get t =>
    rw [reply]
    split <;> rfl
  | create t body =>
    rw [reply]
    split
    next => rfl
    next => exact (Table.get?_insert _ _ _ _).trans (if_neg h)
  | delete t =>
    rw [reply]
    split
    next => exact (Table.get?_erase _ _ _).trans (if_neg h)
    next => rfl
  | apply t body =>
    rw [reply]
    split
    next => exact patched_frame h _
    next => exact (Table.get?_insert _ _ _ _).trans (if_neg h)
  | merge t body => exact patch_frame h _
  | mergeStatus t body => exact patch_frame h _
  | patch t operations => exact patch_frame h _

theorem patched_log (s : ApiServer) (o : ObjectRef) (v : Value) :
    (s.patched o v).2.log = s.log := by
  rw [patched]
  split <;> rfl

theorem patch_log (s : ApiServer) (o : ObjectRef) (f : Value → Option Value) :
    (s.patch o f).2.log = s.log := by
  rw [patch]
  split
  next => rfl
  next =>
    split
    next => exact patched_log s o _
    next => rfl

theorem reply_log (s : ApiServer) (r : ApiRequest) : (s.reply r).2.log = s.log := by
  cases r with
  | get o =>
    rw [reply]
    split <;> rfl
  | create o body =>
    rw [reply]
    split <;> rfl
  | delete o =>
    rw [reply]
    split <;> rfl
  | apply o body =>
    rw [reply]
    split
    next => exact patched_log s o _
    next => rfl
  | merge o body => exact patch_log s o _
  | mergeStatus o body => exact patch_log s o _
  | patch o operations => exact patch_log s o _

theorem handle_log (s : ApiServer) (r : ApiRequest) :
    (s.handle r).2.log = s.log ++ [(r, (s.handle r).1.code)] := by
  rw [handle]
  cases RefusalOrder.refusal? r.method r.path s.failures with
  | none => exact congrArg (· ++ _) (s.reply_log r)
  | some refusal => rfl

/-- A request is refused and changes no object, or it is replied to. -/
theorem handle_cases (s : ApiServer) (r : ApiRequest) :
    ((∃ code, (s.handle r).1 = ⟨code, .error "Refused"⟩) ∧ (s.handle r).2.objects = s.objects) ∨
      (s.handle r).1 = (s.reply r).1 ∧ (s.handle r).2.objects = (s.reply r).2.objects := by
  rw [handle]
  cases RefusalOrder.refusal? r.method r.path s.failures with
  | none => exact .inr ⟨rfl, rfl⟩
  | some refusal => exact .inl ⟨⟨refusal.1, rfl⟩, rfl⟩

theorem handle_frame {r : ApiRequest} (h : r.target ≠ o) :
    (s.handle r).2.objects.get? o = s.objects.get? o := by
  rcases s.handle_cases r with ⟨_, ho⟩ | ⟨_, ho⟩
  · rw [ho]
  · rw [ho]
    exact reply_frame h

/-- Handles the requests of a program one after the other. -/
def serve {α : Type} (d : ClusterProgram α) (s : ApiServer) : α × ApiServer :=
  (d.foldM fun r s => s.handle r : StateM ApiServer α).run s

variable {α β : Type}

@[simp] theorem serve_send (r : ApiRequest) (s : ApiServer) : serve r.send s = s.handle r := rfl

@[simp] theorem serve_bind (d : ClusterProgram α) (f : α → ClusterProgram β) (s : ApiServer) :
    serve (d >>= f) s = serve (f (serve d s).1) (serve d s).2 := by
  rw [serve, Dialogue.foldM_bind]
  rfl

theorem serve_frame {d : ClusterProgram α} (h : d.Asks fun r => r.target ≠ o) (s : ApiServer) :
    (serve d s).2.objects.get? o = s.objects.get? o := by
  induction d generalizing s with
  | done a => rfl
  | ask r next ih => exact (ih (s.handle r).1 (h.2 _) (s.handle r).2).trans (handle_frame h.1)

end ApiServer

end EventRouting
