import EventRouting.Proofs.Control.Release

namespace EventRouting

open Dialogue (Always always_bind always_get always_lift always_modify always_pure always_set
  always_throw)

/-- With which message a spec was refused. -/
def refusal? {α : Type} : Except Failure α → Option String
  | .error (.validation message) => some message
  | _ => none

abbrev Unrefused {α : Type} (r : Except Failure α) : Prop := refusal? r = none

theorem Unrefused.of_error {α β : Type} {e : Failure}
    (h : Unrefused (.error e : Except Failure α)) :
    Unrefused (.error e : Except Failure β) := by
  cases e with
  | validation message => cases h
  | _ => rfl

namespace Publisher

theorem always_publish {possible : (call : StorageCall) → call.Answer → Prop} (c : Contract)
    (p : Publisher) : Always possible (publish c) p fun r _ => Unrefused r := by
  rw [publish]
  refine always_bind (always_get ?_)
  dsimp only
  split
  next => exact always_bind (always_throw rfl)
  next =>
    split
    next => exact always_pure rfl
    next =>
      refine always_bind (always_bind (always_lift fun a _ => ?_))
      cases a with
      | ok _ => exact always_pure (always_bind (always_set (always_pure rfl)))
      | error e => exact always_throw rfl

end Publisher

namespace Synchronizer

variable {possible : (call : SyncCall) → call.Answer → Prop}

theorem always_publish (c : Contract) (s : Synchronizer) :
    Always possible (publisherProgram (Publisher.publish c)) s fun r t =>
      t.fragments = s.fragments ∧ Unrefused r := by
  intro r t hr
  obtain ⟨⟨r', publisher⟩, hp, he⟩ := Dialogue.ends_bind hr
  cases he
  exact ⟨rfl, Publisher.always_publish c s.publisher r publisher (Dialogue.ends_interpret hp)⟩

theorem always_sync (s : Synchronizer) :
    Always possible sync s fun r t => t.fragments = s.fragments ∧ Unrefused r := by
  rw [sync]
  refine always_bind (always_get ?_)
  refine always_bind (always_lift fun readiness _ => ?_)
  refine always_bind (always_lift fun _ _ => ?_)
  refine always_bind (always_modify (always_bind (always_get ?_)))
  dsimp only
  have hf := accept_fragments s (s.build readiness)
  split
  next =>
    refine always_bind ((always_publish _ _).mono fun r t h => ?_)
    obtain ⟨ht, hr⟩ := h
    cases r with
    | ok _ => exact always_pure ⟨ht.trans hf, rfl⟩
    | error e => exact ⟨ht.trans hf, hr.of_error⟩
  next => exact always_bind (always_pure (always_pure ⟨hf, rfl⟩))

end Synchronizer

namespace ControlProgram

variable {α β : Type} {p : ControlProgram α} {s : ControlState} {fragments : Table String Fragment}

/-- Whatever the answers are, a program leaves certain fragments, and it refuses no spec. -/
def Leaves (p : ControlProgram α) (s : ControlState) (fragments : Table String Fragment) : Prop :=
  Always (fun _ _ => True) p s fun r t => t.sync.fragments = fragments ∧ Unrefused r

/-- The fragments stay as they are. -/
def Neutral (p : ControlProgram α) : Prop :=
  ∀ s, Leaves p s s.sync.fragments

theorem neutral_pure (a : α) : Neutral (pure a) :=
  fun _ => always_pure ⟨rfl, rfl⟩

theorem neutral_throw {e : Failure} (h : Unrefused (.error e : Except Failure α)) :
    Neutral (throw e : ControlProgram α) :=
  fun _ => always_throw ⟨rfl, h⟩

theorem Leaves.bind {f : α → ControlProgram β} (h : Leaves p s fragments)
    (hf : ∀ a, Neutral (f a)) : Leaves (p >>= f) s fragments := by
  refine always_bind (h.mono fun r t ht => ?_)
  obtain ⟨ht, hr⟩ := ht
  cases r with
  | ok a => exact ht ▸ hf a t
  | error e => exact ⟨ht, hr.of_error⟩

theorem neutral_bind {f : α → ControlProgram β} (hp : Neutral p) (hf : ∀ a, Neutral (f a)) :
    Neutral (p >>= f) :=
  fun s => (hp s).bind hf

theorem neutral_ask (call : ControlCall) : Neutral (ask call) :=
  fun _ => always_lift fun _ _ => ⟨rfl, rfl⟩

theorem neutral_send (r : ApiRequest) : Neutral (send r) := by
  refine neutral_bind (neutral_ask _) fun reply => ?_
  cases reply.content with
  | ok v => exact neutral_pure v
  | error reason => exact neutral_throw rfl

theorem neutral_updateStatus (m : RoutingManifest) (next : RoutingStatus) :
    Neutral (updateStatus m next) := by
  rw [updateStatus]
  split
  next => exact neutral_bind (neutral_send _) fun _ => neutral_pure ()
  next => exact neutral_pure ()

theorem neutral_statusOf (ctx : ControlContext) (m : RoutingManifest) (report : SyncReport)
    (state : RouteState) (address? : Option String) :
    Neutral (statusOf ctx m report state address?) :=
  neutral_bind (neutral_ask _) fun _ => neutral_pure _

theorem neutral_changeFinalizer (r : ApiRequest) (doing : String) :
    Neutral (changeFinalizer r doing) := by
  refine neutral_bind (neutral_ask _) fun reply => ?_
  cases reply.content with
  | ok v => exact neutral_pure ()
  | error reason => exact neutral_throw rfl

theorem neutral_brokerOf (t : Manifest TriggerSpec) : Neutral (brokerOf t) := by
  refine neutral_bind (neutral_ask _) fun reply => ?_
  cases reply.content with
  | ok v =>
    dsimp only
    split
    next => exact neutral_pure _
    next => exact neutral_throw rfl
  | error reason =>
    dsimp only
    split
    next => exact neutral_pure none
    next => exact neutral_throw rfl

theorem neutral_setTriggerFinalizer (m : RoutingManifest) (present : Bool) :
    Neutral (setTriggerFinalizer m present) :=
  neutral_bind (neutral_send _) fun _ => neutral_pure _

theorem neutral_sync (ctx : ControlContext) : Neutral (sync ctx Synchronizer.sync) := by
  intro s r t hr
  obtain ⟨⟨r', after⟩, hs, he⟩ := Dialogue.ends_bind hr
  cases he
  exact Synchronizer.always_sync s.sync r after (Dialogue.ends_interpret hs)

theorem unrefused_binding {possible : (r : ApiRequest) → Reply → Prop} {owner : TriggerRef}
    {a : Except Failure (Option GroupBinding)}
    (h : (GroupCall.binding owner).inCluster.Ends possible a) : Unrefused a := by
  obtain ⟨reply, _, h⟩ := Dialogue.ends_bind h
  cases hc : reply.content with
  | ok v =>
    rw [hc] at h
    dsimp only at h
    cases hv : GroupBinding.ofResource? owner v <;> rw [hv] at h <;> cases h <;> exact rfl
  | error reason =>
    rw [hc] at h
    cases h
    split <;> exact rfl

theorem unrefused_apply {possible : (r : ApiRequest) → Reply → Prop} {b : GroupBinding}
    {a : Except Failure Unit} (h : (GroupCall.apply b).inCluster.Ends possible a) :
    Unrefused a := by
  obtain ⟨reply, _, h⟩ := Dialogue.ends_bind h
  cases hc : reply.content <;> rw [hc] at h <;> cases h <;> exact rfl

theorem unrefused_delete {possible : (r : ApiRequest) → Reply → Prop} {b : GroupBinding}
    {a : Except Failure Unit} (h : (GroupCall.delete b).inCluster.Ends possible a) :
    Unrefused a := by
  obtain ⟨reply, _, h⟩ := Dialogue.ends_bind h
  cases hc : reply.content with
  | ok v =>
    rw [hc] at h
    cases h
    exact rfl
  | error reason =>
    rw [hc] at h
    cases h
    split <;> exact rfl

theorem neutral_groups {p : ConsumerGroup.Program α}
    (h : ∀ r, p.run.Ends (fun call a => call.inCluster.Ends (fun _ _ => True) a) r → Unrefused r) :
    Neutral (groups p) := by
  intro s r t hr
  obtain ⟨r', hp, he⟩ := Dialogue.ends_bind hr
  cases he
  refine ⟨rfl, h r ((Dialogue.ends_interpret hp).mono fun call a ha => ?_)⟩
  exact (Dialogue.ends_interpret ha).mono fun _ _ _ => trivial

theorem neutral_binding (owner : TriggerRef) : Neutral (groups (ConsumerGroup.binding owner)) :=
  neutral_groups fun _ hr => unrefused_binding (Dialogue.ends_put hr)

theorem neutral_apply (b : GroupBinding) : Neutral (groups (ConsumerGroup.apply b)) :=
  neutral_groups fun _ hr => unrefused_apply (Dialogue.ends_put hr)

theorem neutral_delete (b : GroupBinding) : Neutral (groups (ConsumerGroup.delete b)) :=
  neutral_groups fun _ hr => unrefused_delete (Dialogue.ends_put hr)

theorem neutral_reconcileGroup (desired : GroupBinding) :
    Neutral (groups (ConsumerGroup.reconcile desired)) := by
  rw [ConsumerGroup.reconcile, groups_bind]
  refine neutral_bind (neutral_binding _) fun current? => ?_
  cases current? with
  | none =>
    rw [groups_bind]
    exact neutral_bind (neutral_apply _) fun _ => neutral_pure _
  | some current =>
    dsimp only
    split
    next => exact neutral_pure _
    next =>
      split
      next =>
        rw [groups_bind]
        exact neutral_bind (neutral_apply _) fun _ => neutral_pure _
      next =>
        rw [groups_bind]
        refine neutral_bind (neutral_delete _) fun _ => ?_
        rw [groups_bind]
        exact neutral_bind (neutral_apply _) fun _ => neutral_pure _

theorem neutral_finalizeGroup (owner : TriggerRef) :
    Neutral (groups (ConsumerGroup.finalize owner)) := by
  rw [ConsumerGroup.finalize, groups_bind]
  refine neutral_bind (neutral_binding _) fun current? => ?_
  cases current? with
  | none => exact neutral_pure _
  | some current =>
    rw [groups_bind]
    exact neutral_bind (neutral_delete _) fun _ => neutral_pure _

/-- Only a trigger that stays, and that its finalizer keeps, goes on to be routed. -/
theorem always_advance (view : TriggerView) (desired : GroupBinding) (s : ControlState) :
    Always (fun _ _ => True) (groups (ConsumerGroup.advance view desired)) s fun r t =>
      (t.sync.fragments = s.sync.fragments ∧ Unrefused r) ∧
        ∀ action, r = .ok (.reconciled action) →
          view.deleting = false ∧ view.hasFinalizer = true := by
  rw [ConsumerGroup.advance]
  cases hd : view.deleting <;> cases hf : view.hasFinalizer <;> dsimp only
  case false.false =>
    refine always_pure ⟨⟨rfl, rfl⟩, fun action h => ?_⟩
    split at h <;> cases h
  case true.false =>
    refine always_pure ⟨⟨rfl, rfl⟩, fun action h => ?_⟩
    split at h <;> cases h
  case false.true =>
    rw [groups_bind]
    refine (neutral_bind (neutral_reconcileGroup desired) fun _ => neutral_pure _) s |>.mono ?_
    exact fun r t h => ⟨h, fun _ _ => ⟨rfl, rfl⟩⟩
  case true.true =>
    rw [groups_bind]
    refine always_bind ((neutral_finalizeGroup view.owner s).mono fun r t h => ?_)
    obtain ⟨ht, hr⟩ := h
    cases r with
    | ok action =>
      refine always_pure ⟨⟨ht, rfl⟩, fun action h => ?_⟩
      cases h
    | error e =>
      refine ⟨⟨ht, hr.of_error⟩, fun action h => ?_⟩
      cases h

theorem leaves_withdraw (ctx : ControlContext) (key : String) (s : ControlState) :
    Leaves (withdraw ctx key) s (s.sync.fragments.erase key) := by
  rw [withdraw]
  refine always_bind (always_get ?_)
  dsimp only
  split
  next =>
    refine always_bind (always_set ?_)
    exact (neutral_bind (neutral_sync ctx) fun _ => neutral_pure ()) _
  next hc =>
    exact always_pure ⟨(Table.erase_of_not_contains (Bool.eq_false_iff.mpr hc)).symm, rfl⟩

theorem leaves_contribute (ctx : ControlContext) (m : RoutingManifest) (f : Fragment)
    (s : ControlState) : Leaves (contribute ctx m f) s (s.sync.fragments.insert m.key f) := by
  rw [contribute]
  refine always_bind (always_modify ?_)
  exact (neutral_bind (neutral_sync ctx) fun _ => neutral_pure _) _

/-- A spec that is refused leaves no fragment, whether or not the contract could be published and
the status written. -/
theorem always_refuse (ctx : ControlContext) (m : RoutingManifest) (message : String)
    (s : ControlState) : Always (fun _ _ => True) (refuse ctx m message) s fun _ t =>
      t.sync.fragments = s.sync.fragments.erase m.key := by
  rw [refuse]
  refine always_bind ((leaves_withdraw ctx m.key s).mono fun r t h => ?_)
  obtain ⟨ht, -⟩ := h
  cases r with
  | error e => exact ht
  | ok _ =>
    refine always_bind ((neutral_ask .clock t).mono fun r u h => ?_)
    obtain ⟨hu, -⟩ := h
    cases r with
    | error e => exact hu.trans ht
    | ok now =>
      refine always_bind ((neutral_updateStatus m _ u).mono fun r v h => ?_)
      obtain ⟨hv, -⟩ := h
      cases r with
      | error e => exact (hv.trans hu).trans ht
      | ok _ => exact always_throw ((hv.trans hu).trans ht)

end ControlProgram

/-- The object is to be deleted, and reconciling it with this result took it out of the contract: a
trigger once that ended well, other objects as soon as their finalizer asked for it. -/
def RoutingManifest.IsCleanedUp (m : RoutingManifest) (r : Except Failure Action) : Prop :=
  m.metadata.isDeleting = true ∧ match m with
    | .trigger _ => r.isOk = true
    | m => m.metadata.finalizers.contains routingFinalizer = true

/-- An object has no place in the contract any more: its spec was refused, or it was cleaned up. -/
def RoutingManifest.IsOut (m : RoutingManifest) (r : Except Failure Action) : Prop :=
  ¬Unrefused r ∨ m.IsCleanedUp r

theorem RoutingManifest.not_isOut {m : RoutingManifest} (hd : m.metadata.isDeleting = false)
    {r : Except Failure Action} (hr : Unrefused r) : ¬m.IsOut r
  | .inl h => h hr
  | .inr h => Bool.false_ne_true (hd.symm.trans h.1)

/-- What reconciling an object does to the fragments. -/
inductive Turn (ctx : ControlContext) (m : RoutingManifest) (before : Table String Fragment) :
    Except Failure Action → Table String Fragment → Prop where
  | kept {r : Except Failure Action} : ¬m.IsOut r → Turn ctx m before r before
  | contributed {r : Except Failure Action} {f : Fragment} : m.violations = [] →
      m.metadata.isDeleting = false → m.fragment ctx.fragments = .ok f → Unrefused r →
      Turn ctx m before r (before.insert m.key f)
  | withdrawn {r : Except Failure Action} : Turn ctx m before r (before.erase m.key)

namespace Turn

variable {ctx : ControlContext} {m : RoutingManifest} {before after : Table String Fragment}
  {r : Except Failure Action}

theorem erases (h : Turn ctx m before r after) (ho : m.IsOut r) : after = before.erase m.key := by
  cases h with
  | kept hn => exact absurd ho hn
  | contributed _ hd _ hr => exact absurd ho (RoutingManifest.not_isOut hd hr)
  | withdrawn => rfl

/-- A fragment that is new comes from an object that stays and whose spec obeys the rules. -/
theorem mem (h : Turn ctx m before r after) {key : String} {f : Fragment}
    (hf : (key, f) ∈ after) : (key, f) ∈ before ∨ m.key = key ∧ m.violations = [] ∧
      m.metadata.isDeleting = false ∧ m.fragment ctx.fragments = .ok f := by
  cases h with
  | kept _ => exact .inl hf
  | contributed hv hd hm _ =>
    rcases Table.mem_insert hf with he | hf
    · cases he
      exact .inr ⟨rfl, hv, hd, hm⟩
    · exact .inl hf
  | withdrawn => exact .inl (List.mem_of_mem_filter hf)

theorem get?_of_ne (h : Turn ctx m before r after) {key : String} (hk : m.key ≠ key) :
    after.get? key = before.get? key := by
  cases h with
  | kept _ => rfl
  | contributed _ _ _ _ => rw [Table.get?_insert, if_neg hk]
  | withdrawn => rw [Table.get?_erase, if_neg hk]

end Turn

namespace ControlProgram

variable {α : Type} {ctx : ControlContext} {m : RoutingManifest} {s : ControlState}

/-- Whatever the answers are, a program of an object does one of the things to the fragments that
reconciling may do. -/
def TakesTurn (ctx : ControlContext) (m : RoutingManifest) (p : ControlProgram Action)
    (s : ControlState) : Prop :=
  Always (fun _ _ => True) p s fun r t => Turn ctx m s.sync.fragments r t.sync.fragments

theorem Neutral.takesTurn {p : ControlProgram Action} (h : Neutral p)
    (hd : m.metadata.isDeleting = false) : TakesTurn ctx m p s := by
  refine (h s).mono fun r t ht => ?_
  obtain ⟨ht, hr⟩ := ht
  rw [ht]
  exact .kept (RoutingManifest.not_isOut hd hr)

theorem Leaves.takesTurn {p : ControlProgram Action}
    (h : Leaves p s (s.sync.fragments.erase m.key)) : TakesTurn ctx m p s := by
  refine h.mono fun r t ht => ?_
  obtain ⟨ht, -⟩ := ht
  rw [ht]
  exact .withdrawn

theorem takesTurn_refuse (message : String) : TakesTurn ctx m (refuse ctx m message) s := by
  refine (always_refuse ctx m message s).mono fun r t ht => ?_
  rw [ht]
  exact .withdrawn

theorem takesTurn_route {f : Fragment → SyncReport × RouteState → ControlProgram Action}
    (hv : m.violations = []) (hd : m.metadata.isDeleting = false) (hf : ∀ a b, Neutral (f a b)) :
    TakesTurn ctx m (fragmentOf ctx m >>= fun a => contribute ctx m a >>= f a) s := by
  rw [fragmentOf]
  split
  next a ha =>
    refine always_bind (always_pure ?_)
    refine ((leaves_contribute ctx m a s).bind (hf a)).mono fun r t h => ?_
    obtain ⟨ht, hr⟩ := h
    rw [ht]
    exact .contributed hv hd ha hr
  next =>
    refine always_bind (always_throw (.kept (RoutingManifest.not_isOut hd rfl)))

theorem takesTurn_applyRouting (hd : m.metadata.isDeleting = false) :
    TakesTurn ctx m (applyRouting ctx m) s := by
  rw [applyRouting]
  split
  next => exact takesTurn_refuse _
  next hv =>
    have hv' : m.violations = [] := by simpa using hv
    refine takesTurn_route hv' hd fun f r => ?_
    obtain ⟨report, state⟩ := r
    exact neutral_bind (neutral_statusOf ctx m report state _) fun status =>
      neutral_bind (neutral_updateStatus m status) fun _ => neutral_pure _

theorem takesTurn_reportTrigger {desired : GroupBinding} {action : GroupAction}
    (hv : m.violations = []) (hd : m.metadata.isDeleting = false) :
    TakesTurn ctx m (reportTrigger ctx m desired action) s := by
  refine takesTurn_route hv hd fun f r => ?_
  obtain ⟨report, state⟩ := r
  exact neutral_bind (neutral_statusOf ctx m report state none) fun status =>
    neutral_bind (neutral_ask _) fun _ =>
      neutral_bind (neutral_updateStatus m _) fun _ => neutral_pure _

theorem takesTurn_reconcileRouting
    (hm : ∀ r, m.IsCleanedUp r ↔
      m.metadata.isDeleting = true ∧ m.metadata.finalizers.contains routingFinalizer = true) :
    TakesTurn ctx m (reconcileRouting ctx m) s := by
  rw [reconcileRouting, withFinalizer, Metadata.finalizerStep]
  cases hi : m.metadata.finalizers.idxOf? routingFinalizer <;>
    cases hd : m.metadata.isDeleting <;> dsimp only
  case none.false =>
    exact (neutral_bind (neutral_changeFinalizer _ _) fun _ => neutral_pure _).takesTurn hd
  case some.false => exact takesTurn_applyRouting hd
  case some.true position =>
    refine Leaves.takesTurn (Leaves.bind ?_ fun action =>
      neutral_bind (neutral_changeFinalizer _ _) fun _ => neutral_pure action)
    exact (leaves_withdraw ctx m.key s).bind fun _ => neutral_pure _
  case none.true =>
    refine always_pure (.kept ?_)
    rintro (h | h)
    · exact h rfl
    · exact List.idxOf?_eq_none_iff.mp hi (List.contains_iff_mem.mp ((hm _).mp h).2)

/-- A trigger that stays is refused, routed, or left alone as long as its group is not ready. -/
theorem takesTurn_settleTrigger {t : Manifest TriggerSpec} {broker? : Option (Manifest BrokerSpec)}
    {view : TriggerView} (hd : (RoutingManifest.trigger t).metadata.isDeleting = false)
    (hv : view.deleting = false) :
    TakesTurn ctx (.trigger t) (Operator.settleTrigger ctx t broker? view) s := by
  rw [Operator.settleTrigger, hv]
  dsimp only
  split
  next => exact takesTurn_refuse _
  next hc =>
    refine always_bind ((always_advance _ _ s).mono fun r u h => ?_)
    obtain ⟨⟨hu, hr⟩, ha⟩ := h
    cases r with
    | error e =>
      dsimp only
      rw [hu]
      exact .kept (RoutingManifest.not_isOut hd hr.of_error)
    | ok transition =>
      have neutral {p : ControlProgram Action} (h : Neutral p) :
          Always (fun _ _ => True) p u fun r v =>
            Turn ctx (.trigger t) s.sync.fragments r v.sync.fragments :=
        hu ▸ h.takesTurn hd
      cases transition with
      | ignored => exact neutral (neutral_pure _)
      | released => exact neutral (neutral_pure _)
      | addFinalizer => exact neutral (neutral_setTriggerFinalizer _ _)
      | removeFinalizer action => exact neutral (neutral_setTriggerFinalizer _ _)
      | reconciled action =>
        obtain ⟨-, hf⟩ := ha action rfl
        rw [hf] at hc
        have hv' : (RoutingManifest.trigger t).violations = [] := by simpa using hc
        exact hu ▸ takesTurn_reportTrigger hv' hd

theorem neutral_settleTrigger {t : Manifest TriggerSpec} {broker? : Option (Manifest BrokerSpec)}
    {view : TriggerView} (hv : view.deleting = true) :
    Neutral (Operator.settleTrigger ctx t broker? view) := by
  intro s
  rw [Operator.settleTrigger, hv]
  refine always_bind ((always_advance _ _ s).mono fun r u h => ?_)
  obtain ⟨⟨hu, hr⟩, ha⟩ := h
  cases r with
  | error e => exact ⟨hu, hr.of_error⟩
  | ok transition =>
    cases transition with
    | ignored => exact hu ▸ neutral_pure _ u
    | released => exact hu ▸ neutral_pure _ u
    | addFinalizer => exact hu ▸ neutral_setTriggerFinalizer _ _ u
    | removeFinalizer action => exact hu ▸ neutral_setTriggerFinalizer _ _ u
    | reconciled action => exact Bool.noConfusion (hv.symm.trans (ha action rfl).1)

theorem takesTurn_reconcileTrigger (t : Manifest TriggerSpec) :
    TakesTurn ctx (.trigger t) (reconcileTrigger ctx t) s := by
  rw [Operator.reconcileTrigger_eq]
  have failed {e : Failure} (h : Unrefused (.error e : Except Failure Action)) :
      ¬(RoutingManifest.trigger t).IsOut (.error e)
    | .inl hn => hn h
    | .inr hc => Bool.noConfusion hc.2
  refine always_bind ((neutral_brokerOf t s).mono fun r u h => ?_)
  obtain ⟨hu, hr⟩ := h
  cases r with
  | error e =>
    dsimp only
    rw [hu]
    exact .kept (failed hr.of_error)
  | ok broker? =>
    dsimp only
    rw [← hu]
    cases hi : t.metadata.uid? with
    | none =>
      rw [Manifest.triggerView, hi]
      exact always_throw (.kept (failed rfl))
    | some uid =>
      rw [Manifest.triggerView, hi]
      dsimp only
      split
      next hd =>
        exact Leaves.takesTurn ((leaves_withdraw ctx _ u).bind fun _ => neutral_settleTrigger hd)
      next hd =>
        exact takesTurn_settleTrigger (Bool.eq_false_iff.mpr hd) (Bool.eq_false_iff.mpr hd)

theorem takesTurn_reconcile (ctx : ControlContext) (m : RoutingManifest) (s : ControlState) :
    TakesTurn ctx m (reconcile ctx m) s := by
  rw [Operator.reconcile_eq]
  have conclude {p : ControlProgram Action} (h : TakesTurn ctx m p s) :
      TakesTurn ctx m (p >>= fun action =>
        modify (fun s => { s with errorCounts := s.errorCounts.erase m.key }) >>= fun _ =>
          pure action) s := by
    refine always_bind (h.mono fun r t ht => ?_)
    cases r with
    | ok action => exact always_bind (always_modify (always_pure ht))
    | error e => exact ht
  cases m with
  | trigger t => exact conclude (takesTurn_reconcileTrigger t)
  | broker b => exact conclude (takesTurn_reconcileRouting fun _ => .rfl)
  | channel c => exact conclude (takesTurn_reconcileRouting fun _ => .rfl)
  | sink k => exact conclude (takesTurn_reconcileRouting fun _ => .rfl)

end ControlProgram

/-- Reconciling an object may come to a result and leave a state. Its questions are answered in any
way: every request may fail at any time. -/
def ControlState.Reconciles (ctx : ControlContext) (s : ControlState) (m : RoutingManifest)
    (r : Except Failure Action) (t : ControlState) : Prop :=
  ((ControlProgram.reconcile ctx m).run.run s).Ends (fun _ _ => True) (r, t)

/-- The states that the controllers get to, with all versions of objects that they reconciled. -/
inductive ControlState.Reachable (ctx : ControlContext) :
    List RoutingManifest → ControlState → Prop where
  /-- No fragments are known at first. -/
  | start {s : ControlState} : s.sync.fragments = [] → Reachable ctx [] s
  | reconcile {past : List RoutingManifest} {s t : ControlState} {m : RoutingManifest}
      {r : Except Failure Action} : Reachable ctx past s → s.Reconciles ctx m r t →
      Reachable ctx (past ++ [m]) t
  /-- Other components leave the fragments alone. -/
  | elsewhere {past : List RoutingManifest} {s t : ControlState} : Reachable ctx past s →
      t.sync.fragments = s.sync.fragments → Reachable ctx past t

/-- The fragment is one of an object that was reconciled while its spec obeyed the rules and it was
not to be deleted. -/
def Fragment.IsAdmitted (ctx : ControlContext) (past : List RoutingManifest) (key : String)
    (f : Fragment) : Prop :=
  ∃ m ∈ past, m.key = key ∧ m.violations = [] ∧ m.metadata.isDeleting = false ∧
    m.fragment ctx.fragments = .ok f

namespace ControlState

variable {ctx : ControlContext} {past : List RoutingManifest} {s t : ControlState}
  {m : RoutingManifest} {r : Except Failure Action}

theorem Reconciles.turn (h : s.Reconciles ctx m r t) :
    Turn ctx m s.sync.fragments r t.sync.fragments :=
  ControlProgram.takesTurn_reconcile ctx m s r t h

/-- The run: every fragment that is there belongs to a version of an object that was reconciled. -/
theorem Reachable.admitted (h : Reachable ctx past s) {key : String} {f : Fragment}
    (hf : (key, f) ∈ s.sync.fragments) : f.IsAdmitted ctx past key := by
  induction h with
  | start hs =>
    rw [hs] at hf
    cases hf
  | @reconcile past s t m r _ hr ih =>
    rcases hr.turn.mem hf with hf | ha
    · obtain ⟨n, hn, ha⟩ := ih hf
      exact ⟨n, List.mem_append_left _ hn, ha⟩
    · exact ⟨m, List.mem_append_right _ (.head _), ha⟩
  | elsewhere _ he ih =>
    rw [he] at hf
    exact ih hf

/-- Only objects that obey the rules and stay are routed, whichever requests fail on the way. -/
theorem Reachable.routes_admitted (h : Reachable ctx past s) :
    (∀ key f, (key, f) ∈ s.sync.fragments → f.IsAdmitted ctx past key) ∧
      ∀ m r t, s.Reconciles ctx m r t → m.IsOut r →
        t.sync.fragments.get? m.key = none ∧
          ∀ key, key ≠ m.key → t.sync.fragments.get? key = s.sync.fragments.get? key := by
  refine ⟨fun _ _ => h.admitted, fun m r t ht ho => ⟨?_, fun key hk => ?_⟩⟩
  · rw [ht.turn.erases ho, Table.get?_erase, if_pos rfl]
  · exact ht.turn.get?_of_ne hk.symm

end ControlState

namespace Operator

/-- Reconciling an object on a cluster in memory. -/
def look (w : Operator) (m : RoutingManifest) : Except Failure Action × Operator :=
  w.run (ControlProgram.reconcile starting.context m)

theorem look_reconciles (w : Operator) (m : RoutingManifest) :
    w.state.Reconciles starting.context m (w.look m).1 (w.look m).2.state :=
  Dialogue.ends_foldM answer _ w

/-- A version of the trigger whose broker has no name. -/
def namelessTrigger : RoutingManifest :=
  .trigger {
    metadata := (keptTrigger none).metadata
    spec := { broker := "", subscriber := "http://s" }
    status? := none }

theorem routes_admitted_of_trigger :
    let w := (starting.start.2.look (keptTrigger none)).2
    (∃ f, w.state.sync.fragments.get? (keptTrigger none).key = some f ∧
        f.IsAdmitted starting.context [keptTrigger none] (keptTrigger none).key) ∧
      (w.look namelessTrigger).2.state.sync.fragments.get? namelessTrigger.key = none ∧
      (w.look (keptTrigger (some ⟨0, 0⟩))).2.state.sync.fragments.get?
        (keptTrigger (some ⟨0, 0⟩)).key = none := by
  intro w
  have ⟨hs, hf, hn, hd⟩ : starting.start.2.state.sync.fragments = [] ∧
      (w.state.sync.fragments.get? (keptTrigger none).key).isSome = true ∧
      ¬Unrefused (w.look namelessTrigger).1 ∧
      (w.look (keptTrigger (some ⟨0, 0⟩))).1.isOk = true := by decide +kernel
  have hw : ControlState.Reachable starting.context [keptTrigger none] w.state :=
    .reconcile (.start hs) (look_reconciles _ _)
  clear_value w
  obtain ⟨f, hf⟩ := Option.isSome_iff_exists.mp hf
  obtain ⟨ha, ho⟩ := hw.routes_admitted
  refine ⟨⟨f, hf, ha _ f (Table.mem_of_get? hf)⟩, ?_, ?_⟩
  · exact (ho _ _ _ (w.look_reconciles namelessTrigger) (.inl hn)).1
  · exact (ho _ _ _ (w.look_reconciles (keptTrigger _)) (.inr ⟨rfl, hd⟩)).1

end Operator

end EventRouting
