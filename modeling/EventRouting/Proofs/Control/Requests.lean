import EventRouting.Proofs.Control.Tracking

namespace EventRouting

open Json

namespace Dialogue

variable {Q R : Type} {A : Q → Type} {B : R → Type} {α : Type} {allowed : Q → Prop}
  {wanted : R → Prop}

/-- A question may be asked: some answers lead to it. -/
def Raises (q : Q) : Dialogue Q A α → Prop
  | .done _ => False
  | .ask p next => p = q ∨ ∃ a, (next a).Raises q

theorem Asks.of_raises {d : Dialogue Q A α} {q : Q} (h : d.Asks allowed) (hr : d.Raises q) :
    allowed q := by
  induction d with
  | done a => exact hr.elim
  | ask p next ih =>
    rcases hr with rfl | ⟨a, hr⟩
    · exact h.1
    · exact ih a (h.2 a) hr

theorem Asks.mono {allowed' : Q → Prop} {d : Dialogue Q A α} (h : d.Asks allowed)
    (hm : ∀ q, allowed q → allowed' q) : d.Asks allowed' := by
  induction d with
  | done a => exact trivial
  | ask q next ih => exact ⟨hm q h.1, fun a => ih a (h.2 a)⟩

theorem Asks.interpret {inner : (q : Q) → Dialogue R B (A q)} {d : Dialogue Q A α}
    (h : d.Asks allowed) (hi : ∀ q, allowed q → (inner q).Asks wanted) :
    (d.interpret inner).Asks wanted := by
  induction d with
  | done a => exact trivial
  | ask q next ih => exact asks_bind (hi q h.1) fun a => ih a (h.2 a)

end Dialogue

theorem StorageCall.asks_inCluster (o : ObjectRef) (call : StorageCall) :
    (call.inCluster o).Asks fun r => r.target = o := by
  cases call with
  | obtain =>
    refine Dialogue.asks_bind (Dialogue.asks_put rfl) fun existing => ?_
    split
    next => exact trivial
    next =>
      split
      next => exact trivial
      next =>
        refine Dialogue.asks_bind (Dialogue.asks_put rfl) fun created => ?_
        split
        next => exact trivial
        next =>
          split
          next => exact Dialogue.asks_bind (Dialogue.asks_put rfl) fun _ => trivial
          next => exact trivial
  | write p =>
    refine Dialogue.asks_bind (Dialogue.asks_put rfl) fun reply => ?_
    split <;> exact trivial

namespace ControlProgram

variable {α β : Type} {allowed : ControlCall → Prop}

/-- Whatever the controllers know and whatever the answers are, all calls are of a kind. -/
def Asks (allowed : ControlCall → Prop) (p : ControlProgram α) : Prop :=
  ∀ s, Dialogue.Asks allowed (p.run.run s)

/-- A call may be made: something that the controllers know and some answers lead to it. -/
def Raises (call : ControlCall) (p : ControlProgram α) : Prop :=
  ∃ s, Dialogue.Raises call (p.run.run s)

theorem Asks.of_raises {p : ControlProgram α} {call : ControlCall} (h : p.Asks allowed)
    (hr : p.Raises call) : allowed call := by
  obtain ⟨s, hr⟩ := hr
  exact (h s).of_raises hr

theorem asks_pure (a : α) : (pure a : ControlProgram α).Asks allowed :=
  fun _ => trivial

theorem asks_throw (e : Failure) : (throw e : ControlProgram α).Asks allowed :=
  fun _ => trivial

theorem asks_bind {p : ControlProgram α} {f : α → ControlProgram β} (hp : p.Asks allowed)
    (hf : ∀ a, (f a).Asks allowed) : (p >>= f).Asks allowed := by
  intro s
  rw [ExceptT.run_bind, StateT.run_bind]
  refine Dialogue.asks_bind (hp s) fun (r, t) => ?_
  cases r with
  | ok a => exact hf a t
  | error e => exact trivial

theorem asks_ask {call : ControlCall} (h : allowed call) : (ask call).Asks allowed :=
  fun _ => ⟨h, fun _ => trivial⟩

theorem asks_get : (get : ControlProgram ControlState).Asks allowed :=
  fun _ => trivial

theorem asks_set (s : ControlState) : (set s : ControlProgram PUnit).Asks allowed :=
  fun _ => trivial

theorem asks_modify (f : ControlState → ControlState) :
    (modify f : ControlProgram PUnit).Asks allowed :=
  fun _ => trivial

theorem asks_send {r : ApiRequest} (h : allowed (.api r)) : (send r).Asks allowed := by
  refine asks_bind (asks_ask h) fun reply => ?_
  split
  next => exact asks_pure _
  next => exact asks_throw _

/-- All requests are for other objects, or of a kind. -/
def About (o : ObjectRef) (wanted : ApiRequest → Prop) : ControlCall → Prop
  | .api r => r.target = o → wanted r
  | .readiness _ | .retain _ | .clock => True

variable {o : ObjectRef} {wanted : ApiRequest → Prop} {ctx : ControlContext}

theorem asks_toApi {d : ClusterProgram α} (h : d.Asks fun r => r.target ≠ o) :
    (d.interpret toApi).Asks (About o wanted) :=
  h.interpret fun _ hr => Dialogue.asks_put fun he => absurd he hr

theorem asks_groups (h : o.kind ≠ .consumerGroup) (p : ConsumerGroup.Program α) :
    (groups p).Asks (About o wanted) := by
  intro s
  exact Dialogue.asks_bind (Dialogue.asks_interpret
    (fun call => asks_toApi (Operator.asks_inCluster h call)) _) fun _ => trivial

theorem asks_sync (h : ctx.storage ≠ o) (p : Synchronizer.Program α) :
    (sync ctx p).Asks (About o wanted) := by
  intro s
  refine Dialogue.asks_bind (Dialogue.asks_interpret (fun call => ?_) _) fun _ => trivial
  cases call with
  | storage call =>
    exact asks_toApi ((call.asks_inCluster ctx.storage).mono fun r hr he => h (hr ▸ he))
  | readiness consulted => exact Dialogue.asks_put trivial
  | retain referenced => exact Dialogue.asks_put trivial

theorem asks_withdraw (h : ctx.storage ≠ o) (key : String) :
    (withdraw ctx key).Asks (About o wanted) := by
  refine asks_bind asks_get fun s => ?_
  split
  next => exact asks_bind (asks_set _) fun _ => asks_bind (asks_sync h _) fun _ => asks_pure _
  next => exact asks_pure _

theorem asks_contribute (h : ctx.storage ≠ o) (m : RoutingManifest) (f : Fragment) :
    (contribute ctx m f).Asks (About o wanted) :=
  asks_bind (asks_modify _) fun _ => asks_bind (asks_sync h _) fun _ => asks_pure _

theorem asks_fragmentOf (m : RoutingManifest) : (fragmentOf ctx m).Asks allowed := by
  rw [fragmentOf]
  split
  next => exact asks_pure _
  next => exact asks_throw _

theorem asks_updateStatus {m : RoutingManifest} {next : RoutingStatus}
    (h : allowed (.api (.mergeStatus m.objectRef (.object [("status", next.toValue)])))) :
    (updateStatus m next).Asks allowed := by
  rw [updateStatus]
  split
  next => exact asks_bind (asks_send h) fun _ => asks_pure _
  next => exact asks_pure _

/-- A request about a trigger: a status, or a change of its finalizers after they were read. -/
inductive TriggerRequest (t : Manifest TriggerSpec) : ApiRequest → Prop where
  | status (v : Value) :
    TriggerRequest t (.mergeStatus (RoutingManifest.trigger t).objectRef (.object [("status", v)]))
  | addFinalizer (h : triggerFinalizer ∉ t.metadata.finalizers) :
    TriggerRequest t
      (.merge (RoutingManifest.trigger t).objectRef (triggerFinalizerPatch t.metadata true))
  | removeFinalizer (h : triggerFinalizer ∈ t.metadata.finalizers) :
    TriggerRequest t
      (.merge (RoutingManifest.trigger t).objectRef (triggerFinalizerPatch t.metadata false))

section Triggers

variable {t : Manifest TriggerSpec} (h : ctx.storage ≠ (RoutingManifest.trigger t).objectRef)

include h

theorem asks_refuse (message : String) : (refuse ctx (.trigger t) message).Asks
    (About (RoutingManifest.trigger t).objectRef (TriggerRequest t)) :=
  asks_bind (asks_withdraw h _) fun _ => asks_bind (asks_ask trivial) fun _ =>
    asks_bind (asks_updateStatus fun _ => .status _) fun _ => asks_throw _

theorem asks_reportTrigger (desired : GroupBinding) (action : GroupAction) :
    (reportTrigger ctx (.trigger t) desired action).Asks
      (About (RoutingManifest.trigger t).objectRef (TriggerRequest t)) := by
  refine asks_bind (asks_fragmentOf _) fun f => ?_
  refine asks_bind (asks_contribute h _ f) fun (report, state) => ?_
  refine asks_bind (asks_bind (asks_ask trivial) fun _ => asks_pure _) fun status => ?_
  exact asks_bind (asks_ask trivial) fun _ =>
    asks_bind (asks_updateStatus fun _ => .status _) fun _ => asks_pure _

omit h in
theorem asks_setTriggerFinalizer {present : Bool}
    (hr : TriggerRequest t (.merge (RoutingManifest.trigger t).objectRef
      (triggerFinalizerPatch t.metadata present))) :
    (setTriggerFinalizer (.trigger t) present).Asks
      (About (RoutingManifest.trigger t).objectRef (TriggerRequest t)) :=
  asks_bind (asks_send fun _ => hr) fun _ => asks_pure _

omit h in
theorem asks_brokerOf : (brokerOf t).Asks
    (About (RoutingManifest.trigger t).objectRef (TriggerRequest t)) := by
  refine asks_bind (asks_ask fun he => by cases he) fun reply => ?_
  split
  next =>
    split
    next => exact asks_pure _
    next => exact asks_throw _
  next =>
    split
    next => exact asks_pure _
    next => exact asks_throw _

/-- The finalizer is added only where it was not read, and removed only where it was. -/
theorem asks_settleTrigger {broker? : Option (Manifest BrokerSpec)} {view : TriggerView}
    (hf : view.hasFinalizer = t.metadata.finalizers.contains triggerFinalizer) :
    (Operator.settleTrigger ctx t broker? view).Asks
      (About (RoutingManifest.trigger t).objectRef (TriggerRequest t)) := by
  have hk : (RoutingManifest.trigger t).objectRef.kind ≠ .consumerGroup := ObjectKind.noConfusion
  rw [Operator.settleTrigger]
  dsimp only
  split
  next => exact asks_refuse h _
  next =>
    rw [ConsumerGroup.advance]
    split
    next hn =>
      have hn : triggerFinalizer ∉ t.metadata.finalizers := fun hm =>
        Bool.noConfusion (hn.symm.trans (hf.trans (List.contains_iff_mem.mpr hm)))
      cases view.relevant with
      | true => exact asks_setTriggerFinalizer (.addFinalizer hn)
      | false => exact asks_pure _
    next => cases view.relevant <;> exact asks_pure _
    next =>
      rw [groups_bind, bind_assoc]
      exact asks_bind (asks_groups hk _) fun action => asks_reportTrigger h _ action
    next hn =>
      have hn : triggerFinalizer ∈ t.metadata.finalizers :=
        List.contains_iff_mem.mp (hf.symm.trans hn)
      rw [groups_bind, bind_assoc]
      exact asks_bind (asks_groups hk _) fun _ => asks_setTriggerFinalizer (.removeFinalizer hn)

theorem asks_reconcileTrigger : (reconcileTrigger ctx t).Asks
    (About (RoutingManifest.trigger t).objectRef (TriggerRequest t)) := by
  rw [Operator.reconcileTrigger_eq]
  refine asks_bind asks_brokerOf fun broker? => ?_
  cases hu : t.metadata.uid? with
  | none =>
    rw [Manifest.triggerView, hu]
    exact asks_throw _
  | some uid =>
    rw [Manifest.triggerView, hu]
    dsimp only
    split
    next => exact asks_bind (asks_withdraw h _) fun _ => asks_settleTrigger h rfl
    next => exact asks_settleTrigger h rfl

theorem asks_reconcile : (reconcile ctx (.trigger t)).Asks
    (About (RoutingManifest.trigger t).objectRef (TriggerRequest t)) := by
  rw [Operator.reconcile_eq]
  exact asks_bind (asks_reconcileTrigger h) fun action =>
    asks_bind (asks_modify _) fun _ => asks_pure action

end Triggers

end ControlProgram

end EventRouting
