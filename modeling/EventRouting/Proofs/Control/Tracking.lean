import EventRouting.Proofs.Control.Operator

namespace EventRouting

namespace Operator

/-- The payload of the storage entry. -/
def stored? (w : Operator) : Option Payload := w.server.payload? w.context.storage

/-- The storage entry is a config map that stays, and the synchronizer keeps track of it. -/
structure Tracked (w : Operator) : Prop where
  kind : w.context.storage.kind = .configMap
  keeps : w.server.Keeps w.context.storage
  tracks : w.state.sync.Tracks w.stored?

/-- Between two moments, the context, the synchronizer and the storage entry stay as they are. -/
structure Spared (w v : Operator) : Prop where
  context : v.context = w.context
  sync : v.state.sync = w.state.sync
  entry : v.server.objects.get? w.context.storage = w.server.objects.get? w.context.storage

variable {w u v : Operator}

theorem Spared.refl (w : Operator) : Spared w w :=
  ⟨rfl, rfl, rfl⟩

theorem Spared.trans (h : Spared w u) (h' : Spared u v) : Spared w v := by
  obtain ⟨hc, hs, ho⟩ := h'
  rw [h.context] at ho
  exact ⟨hc.trans h.context, hs.trans h.sync, ho.trans h.entry⟩

theorem Spared.stored? (h : Spared w v) : v.stored? = w.stored? := by
  rw [Operator.stored?, h.context]
  exact ApiServer.payload?_congr h.entry

theorem Tracked.of_spared (h : w.Tracked) (hs : Spared w v) : v.Tracked := by
  refine ⟨hs.context ▸ h.kind, ?_, ?_⟩
  · rw [hs.context]
    exact h.keeps.congr hs.entry
  · rw [hs.stored?, hs.sync]
    exact h.tracks

theorem answerSync_readiness (ctx : ControlContext) (consulted : List Address) (w : Operator) :
    ∃ readiness timeline, (answerSync ctx (.readiness consulted)).run w =
      pure (readiness, { w with timeline }) :=
  ⟨_, _, rfl⟩

theorem answerSync_retain (ctx : ControlContext) (referenced : List Address) (w : Operator) :
    ∃ timeline, (answerSync ctx (.retain referenced)).run w = pure ((), { w with timeline }) :=
  ⟨_, rfl⟩

/-- A synchronization that leaves nothing to publish leaves the entry alone. Otherwise it writes the
current contract, or it ends with an error. -/
theorem synchronize_cases {ctx : ControlContext} {s after : Synchronizer}
    {result : Except Failure SyncReport} (hk : w.server.Keeps ctx.storage)
    (h : (Dialogue.under (answerSync ctx) Synchronizer.sync s).run w = ((result, after), v)) :
    v.context = w.context ∧ v.server.Keeps ctx.storage ∧ ∃ readiness,
      let t := s.accept (s.build readiness)
      (t.isBehind = false ∧ after = t ∧
          v.server.payload? ctx.storage = w.server.payload? ctx.storage) ∨
        (t.isBehind = true ∧ after = t.caughtUp ∧
          v.server.payload? ctx.storage = some t.current.encode) ∨
        (t.isBehind = true ∧ after = t ∧ ∃ e, result = .error e) := by
  rw [Synchronizer.under_sync] at h
  obtain ⟨readiness, t₁, hr⟩ := answerSync_readiness ctx s.consulted w
  obtain ⟨t₂, ht⟩ := answerSync_retain ctx (s.build readiness).referenced { w with timeline := t₁ }
  rw [StateT.run_bind, hr, pure_bind, StateT.run_bind, ht, pure_bind] at h
  dsimp only at h
  by_cases hb : (s.accept (s.build readiness)).isBehind = true
  · rw [if_pos hb] at h
    by_cases hc : (s.accept (s.build readiness)).publisher.closed = true
    · rw [if_pos hc] at h
      cases h
      exact ⟨rfl, hk, readiness, .inr (.inr ⟨hb, rfl, _, rfl⟩)⟩
    · rw [if_neg hc, StateT.run_bind, answerSync_storage] at h
      obtain ⟨hs, ⟨hw, hp⟩ | ⟨⟨e, hw⟩, _⟩⟩ :=
        ApiServer.serve_write hk (s.accept (s.build readiness)).current.encode
      · simp only [StorageCall.inCluster, hw] at h
        cases h
        exact ⟨rfl, hs, readiness, .inr (.inl ⟨hb, rfl, hp⟩)⟩
      · simp only [StorageCall.inCluster, hw] at h
        cases h
        exact ⟨rfl, hs, readiness, .inr (.inr ⟨hb, rfl, _, rfl⟩)⟩
  · rw [if_neg hb] at h
    cases h
    exact ⟨rfl, hk, readiness, .inl ⟨Bool.eq_false_iff.mpr hb, rfl, rfl⟩⟩

theorem run_synchronize {r : Except Failure SyncReport} (h : w.Tracked)
    (hr : w.run (ControlProgram.sync w.context Synchronizer.sync) = (r, v)) :
    v.context = w.context ∧ v.Tracked ∧
      (∃ readiness, v.state.sync.current =
        (w.state.sync.accept (w.state.sync.build readiness)).current) ∧
      ∀ report, r = .ok report → v.state.sync.isBehind = false := by
  rw [run_sync] at hr
  rcases hu : (Dialogue.under (answerSync w.context) Synchronizer.sync w.state.sync).run w with
    ⟨⟨result, after⟩, u⟩
  obtain ⟨hc, hk, readiness, hs⟩ := synchronize_cases h.keeps hu
  rw [hu] at hr
  cases hr
  have tracked (ht : after.Tracks (u.server.payload? w.context.storage)) :
      Tracked { u with state := { w.state with sync := after } } := by
    rw [← hc] at hk ht
    exact ⟨hc ▸ h.kind, hk, ht⟩
  rcases hs with ⟨hb, rfl, hp⟩ | ⟨hb, rfl, hp⟩ | ⟨hb, rfl, e, rfl⟩
  · refine ⟨hc, tracked ?_, ⟨readiness, rfl⟩, fun _ _ => hb⟩
    rw [hp]
    exact h.tracks.accept_of_not_behind hb
  · refine ⟨hc, tracked ?_, ⟨readiness, rfl⟩, fun _ _ => Synchronizer.caughtUp_not_behind _⟩
    rw [hp]
    exact Synchronizer.caughtUp_tracks _
  · exact ⟨hc, tracked ((h.tracks.leads.accept _).tracks_of_behind hb _), ⟨readiness, rfl⟩, nofun⟩

variable {α β : Type}

/-- Whatever comes of a program, the synchronizer and the storage entry stay as they are. -/
def Spares (p : ControlProgram α) : Prop :=
  ∀ w : Operator, w.context.storage.kind = .configMap → Spared w (w.run p).2

/-- The storage entry is the only config map, so other kinds of objects are not it. -/
def SparesEntry : ControlCall → Prop
  | .api r => r.target.kind ≠ .configMap
  | .readiness _ | .retain _ | .clock => True

theorem Spares.spared {p : ControlProgram α} {r : Except Failure α} (h : Spares p)
    (hw : w.context.storage.kind = .configMap) (hr : w.run p = (r, v)) : Spared w v := by
  have hs := h w hw
  rw [hr] at hs
  exact hs

theorem spares_pure (a : α) : Spares (pure a) :=
  fun w _ => .refl w

theorem spares_throw (e : Failure) : Spares (throw e : ControlProgram α) :=
  fun w _ => .refl w

theorem spares_bind {p : ControlProgram α} {f : α → ControlProgram β} (hp : Spares p)
    (hf : ∀ a, Spares (f a)) : Spares (p >>= f) := by
  intro w hw
  rw [run_bind]
  rcases hr : w.run p with ⟨r, u⟩
  have h := hp.spared hw hr
  cases r with
  | error e => exact h
  | ok a => exact h.trans (hf a u (h.context ▸ hw))

theorem spares_ask {call : ControlCall} (h : SparesEntry call) :
    Spares (ControlProgram.ask call) := by
  intro w hw
  rw [run_ask]
  cases call with
  | api r =>
    have hr : r.target ≠ w.context.storage := fun he => h (he ▸ hw)
    exact ⟨rfl, rfl, ApiServer.handle_frame hr⟩
  | readiness consulted => exact ⟨rfl, rfl, rfl⟩
  | retain referenced => exact ⟨rfl, rfl, rfl⟩
  | clock => exact ⟨rfl, rfl, rfl⟩

theorem spares_modify {f : ControlState → ControlState} (h : ∀ s, (f s).sync = s.sync) :
    Spares (modify f) :=
  fun w _ => ⟨rfl, h w.state, rfl⟩

theorem spares_send {r : ApiRequest} (h : r.target.kind ≠ .configMap) :
    Spares (ControlProgram.send r) := by
  refine spares_bind (spares_ask h) fun reply => ?_
  cases reply.content with
  | ok v => exact spares_pure v
  | error reason => exact spares_throw _

theorem asks_inCluster {o : ObjectRef} (h : o.kind ≠ .consumerGroup) (call : GroupCall) :
    call.inCluster.Asks fun r => r.target ≠ o := by
  have ne {owner : TriggerRef} : owner.groupObject ≠ o := fun he => h (he ▸ rfl)
  cases call with
  | binding owner =>
    refine Dialogue.asks_bind (Dialogue.asks_put ne) fun reply => ?_
    split
    next v _ => cases GroupBinding.ofResource? owner v <;> exact trivial
    next => exact trivial
  | apply b =>
    refine Dialogue.asks_bind (Dialogue.asks_put ne) fun reply => ?_
    split <;> exact trivial
  | delete b =>
    refine Dialogue.asks_bind (Dialogue.asks_put ne) fun reply => ?_
    split <;> exact trivial

theorem spares_groups (p : ConsumerGroup.Program α) : Spares (ControlProgram.groups p) := by
  intro w hw
  have hk : w.context.storage.kind ≠ .consumerGroup := by
    rw [hw]
    exact ObjectKind.noConfusion
  rw [run_groups]
  exact ⟨rfl, rfl, ApiServer.serve_frame (Dialogue.asks_interpret (asks_inCluster hk) p.run) _⟩

theorem spares_updateStatus (m : RoutingManifest) (next : RoutingStatus) :
    Spares (ControlProgram.updateStatus m next) := by
  rw [ControlProgram.updateStatus]
  split
  next => exact spares_bind (spares_send ObjectKind.noConfusion) fun _ => spares_pure ()
  next => exact spares_pure ()

theorem spares_fragmentOf (ctx : ControlContext) (m : RoutingManifest) :
    Spares (ControlProgram.fragmentOf ctx m) := by
  rw [ControlProgram.fragmentOf]
  split
  next => exact spares_pure _
  next => exact spares_throw _

theorem spares_statusOf (ctx : ControlContext) (m : RoutingManifest) (report : SyncReport)
    (state : RouteState) (address? : Option String) :
    Spares (ControlProgram.statusOf ctx m report state address?) :=
  spares_bind (spares_ask trivial) fun _ => spares_pure _

theorem spares_changeFinalizer {r : ApiRequest} (h : r.target.kind ≠ .configMap)
    (doing : String) : Spares (ControlProgram.changeFinalizer r doing) := by
  refine spares_bind (spares_ask h) fun reply => ?_
  cases reply.content with
  | ok v => exact spares_pure ()
  | error reason => exact spares_throw _

theorem spares_brokerOf (m : Manifest TriggerSpec) : Spares (ControlProgram.brokerOf m) := by
  refine spares_bind (spares_ask ObjectKind.noConfusion) fun reply => ?_
  cases reply.content with
  | ok v =>
    dsimp only
    split
    next => exact spares_pure _
    next => exact spares_throw _
  | error reason =>
    dsimp only
    split
    next => exact spares_pure none
    next => exact spares_throw _

theorem spares_setTriggerFinalizer (m : RoutingManifest) (present : Bool) :
    Spares (ControlProgram.setTriggerFinalizer m present) :=
  spares_bind (spares_send ObjectKind.noConfusion) fun _ => spares_pure _

/-- Whatever comes of a program, the context stays and the synchronizer keeps track. -/
def Tracking (ctx : ControlContext) (p : ControlProgram α) : Prop :=
  ∀ w : Operator, w.context = ctx → w.Tracked → (w.run p).2.context = ctx ∧ (w.run p).2.Tracked

variable {ctx : ControlContext}

theorem Tracking.tracked {p : ControlProgram α} {r : Except Failure α} (h : Tracking w.context p)
    (hw : w.Tracked) (hr : w.run p = (r, v)) : v.context = w.context ∧ v.Tracked := by
  have ht := h w rfl hw
  rw [hr] at ht
  exact ht

theorem tracking_of_spares {p : ControlProgram α} (h : Spares p) : Tracking ctx p := by
  intro w hw ht
  have hs := h w ht.kind
  exact ⟨hs.context.trans hw, ht.of_spared hs⟩

theorem tracking_bind {p : ControlProgram α} {f : α → ControlProgram β} (hp : Tracking ctx p)
    (hf : ∀ a, Tracking ctx (f a)) : Tracking ctx (p >>= f) := by
  rintro w rfl ht
  rw [run_bind]
  rcases hr : w.run p with ⟨r, u⟩
  have h := hp.tracked ht hr
  cases r with
  | error e => exact h
  | ok a => exact hf a u h.1 h.2

theorem tracking_modify {f : ControlState → ControlState}
    (h : ∀ s payload?, s.sync.Tracks payload? → (f s).sync.Tracks payload?) :
    Tracking ctx (modify f) :=
  fun w hw ht => ⟨hw, ht.kind, ht.keeps, h w.state _ ht.tracks⟩

theorem tracking_synchronize : Tracking ctx (ControlProgram.sync ctx Synchronizer.sync) := by
  rintro w rfl ht
  obtain ⟨hc, hv, _⟩ := run_synchronize ht rfl
  exact ⟨hc, hv⟩

theorem tracking_contribute (m : RoutingManifest) (f : Fragment) :
    Tracking ctx (ControlProgram.contribute ctx m f) :=
  tracking_bind (tracking_modify fun _ _ ht => ht.of_fragments _) fun _ =>
    tracking_bind tracking_synchronize fun _ => tracking_of_spares (spares_pure _)

/-- The operator without the fragment of a key. -/
def without (w : Operator) (key : String) : Operator :=
  { w with state := { w.state with sync := w.state.sync.remove key } }

theorem run_withdraw (ctx : ControlContext) (key : String) (w : Operator) :
    w.run (ControlProgram.withdraw ctx key) =
      if w.state.sync.fragments.contains key then
        (w.without key).run (ControlProgram.sync ctx Synchronizer.sync >>= fun _ => pure ())
      else (.ok (), w) := by
  rw [ControlProgram.withdraw, run_bind, run_get]
  by_cases hf : w.state.sync.fragments.contains key = true
  · simp only [if_pos hf]
    rw [run_bind, run_set]
    rfl
  · simp only [if_neg hf, run_pure]

theorem Tracked.without (h : w.Tracked) (key : String) : (w.without key).Tracked :=
  ⟨h.kind, h.keeps, h.tracks.of_fragments _⟩

theorem tracking_withdraw (key : String) : Tracking ctx (ControlProgram.withdraw ctx key) := by
  intro w hw ht
  rw [run_withdraw]
  split
  next =>
    have hs : Tracking ctx (ControlProgram.sync ctx Synchronizer.sync >>= fun _ => pure ()) :=
      tracking_bind tracking_synchronize fun _ => tracking_of_spares (spares_pure ())
    exact hs (w.without key) hw (ht.without key)
  next => exact ⟨hw, ht⟩

theorem tracking_refuse (m : RoutingManifest) (message : String) :
    Tracking ctx (ControlProgram.refuse ctx m message) :=
  tracking_bind (tracking_withdraw m.key) fun _ => tracking_of_spares <|
    spares_bind (spares_ask trivial) fun _ =>
      spares_bind (spares_updateStatus m _) fun _ => spares_throw _

theorem tracking_applyRouting (m : RoutingManifest) :
    Tracking ctx (ControlProgram.applyRouting ctx m) := by
  rw [ControlProgram.applyRouting]
  split
  next => exact tracking_refuse m _
  next =>
    refine tracking_bind (tracking_of_spares (spares_fragmentOf ctx m)) fun f => ?_
    refine tracking_bind (tracking_contribute m f) fun (report, state) => tracking_of_spares ?_
    exact spares_bind (spares_statusOf ctx m report state _) fun status =>
      spares_bind (spares_updateStatus m status) fun _ => spares_pure _

theorem tracking_cleanupRouting (m : RoutingManifest) :
    Tracking ctx (ControlProgram.cleanupRouting ctx m) :=
  tracking_bind (tracking_withdraw m.key) fun _ => tracking_of_spares (spares_pure _)

theorem tracking_reconcileRouting (m : RoutingManifest) :
    Tracking ctx (ControlProgram.reconcileRouting ctx m) := by
  have change {operations : List Json.PatchOperation} (doing : String) :
      Tracking ctx (ControlProgram.changeFinalizer (.patch m.objectRef operations) doing) :=
    tracking_of_spares (spares_changeFinalizer ObjectKind.noConfusion doing)
  rw [ControlProgram.reconcileRouting, ControlProgram.withFinalizer]
  split
  next => exact tracking_bind (change _) fun _ => tracking_of_spares (spares_pure _)
  next => exact tracking_applyRouting m
  next =>
    exact tracking_bind (tracking_cleanupRouting m) fun _ =>
      tracking_bind (change _) fun _ => tracking_of_spares (spares_pure _)
  next => exact tracking_of_spares (spares_pure _)

theorem tracking_reportTrigger (m : RoutingManifest) (desired : GroupBinding)
    (action : GroupAction) : Tracking ctx (ControlProgram.reportTrigger ctx m desired action) := by
  refine tracking_bind (tracking_of_spares (spares_fragmentOf ctx m)) fun f => ?_
  refine tracking_bind (tracking_contribute m f) fun (report, state) => tracking_of_spares ?_
  exact spares_bind (spares_statusOf ctx m report state none) fun status =>
    spares_bind (spares_ask trivial) fun _ =>
      spares_bind (spares_updateStatus m _) fun _ => spares_pure _

/-- What is left of reconciling a trigger, once a trigger that goes has left the contract. -/
def settleTrigger (ctx : ControlContext) (t : Manifest TriggerSpec)
    (broker? : Option (Manifest BrokerSpec)) (view : TriggerView) : ControlProgram Action := do
  let m := RoutingManifest.trigger t
  if !view.deleting && (view.relevant || view.hasFinalizer) && !m.violations.isEmpty then
    ControlProgram.refuse ctx m (violationMessage m.violations)
  else
    let desired := t.desiredBinding view.owner broker? ctx.fragments
    match ← ControlProgram.groups (ConsumerGroup.advance view desired) with
    | .ignored | .released => return .awaitChange
    | .addFinalizer => ControlProgram.setTriggerFinalizer m true
    | .removeFinalizer _ => ControlProgram.setTriggerFinalizer m false
    | .reconciled action => ControlProgram.reportTrigger ctx m desired action

theorem reconcileTrigger_eq (ctx : ControlContext) (t : Manifest TriggerSpec) :
    ControlProgram.reconcileTrigger ctx t = (ControlProgram.brokerOf t >>= fun broker? =>
      match t.triggerView broker?.isSome with
      | .error f => throw f
      | .ok view =>
        if view.deleting then
          ControlProgram.withdraw ctx (RoutingManifest.trigger t).key >>= fun _ =>
            settleTrigger ctx t broker? view
        else settleTrigger ctx t broker? view) := by
  rw [ControlProgram.reconcileTrigger]
  refine bind_congr fun broker? => ?_
  cases t.triggerView broker?.isSome with
  | error f => rfl
  | ok view => rfl

theorem tracking_settleTrigger (t : Manifest TriggerSpec) (broker? : Option (Manifest BrokerSpec))
    (view : TriggerView) : Tracking ctx (settleTrigger ctx t broker? view) := by
  rw [settleTrigger]
  dsimp only
  split
  next => exact tracking_refuse _ _
  next =>
    refine tracking_bind (tracking_of_spares (spares_groups _)) fun transition => ?_
    cases transition with
    | ignored => exact tracking_of_spares (spares_pure _)
    | released => exact tracking_of_spares (spares_pure _)
    | addFinalizer => exact tracking_of_spares (spares_setTriggerFinalizer _ _)
    | removeFinalizer action => exact tracking_of_spares (spares_setTriggerFinalizer _ _)
    | reconciled action => exact tracking_reportTrigger _ _ action

theorem tracking_reconcileTrigger (t : Manifest TriggerSpec) :
    Tracking ctx (ControlProgram.reconcileTrigger ctx t) := by
  rw [reconcileTrigger_eq]
  refine tracking_bind (tracking_of_spares (spares_brokerOf t)) fun broker? => ?_
  cases t.triggerView broker?.isSome with
  | error f => exact tracking_of_spares (spares_throw f)
  | ok view =>
    dsimp only
    split
    next => exact tracking_bind (tracking_withdraw _) fun _ => tracking_settleTrigger t broker? view
    next => exact tracking_settleTrigger t broker? view

/-- Success ends a row of failures, which has nothing to do with the contract. -/
theorem spares_conclude (m : RoutingManifest) (action : Action) :
    Spares (modify (fun s => { s with errorCounts := s.errorCounts.erase m.key }) >>= fun _ =>
      pure action) :=
  spares_bind (spares_modify fun _ => rfl) fun _ => spares_pure action

theorem reconcile_eq (ctx : ControlContext) (m : RoutingManifest) :
    ControlProgram.reconcile ctx m = ((match m with
      | .trigger t => ControlProgram.reconcileTrigger ctx t
      | m => ControlProgram.reconcileRouting ctx m) >>= fun action =>
        modify (fun s => { s with errorCounts := s.errorCounts.erase m.key }) >>= fun _ =>
          pure action) := by
  cases m <;> rfl

theorem tracking_reconcile (m : RoutingManifest) :
    Tracking ctx (ControlProgram.reconcile ctx m) := by
  rw [reconcile_eq]
  refine tracking_bind ?_ fun action => tracking_of_spares (spares_conclude m action)
  cases m with
  | trigger t => exact tracking_reconcileTrigger t
  | broker b => exact tracking_reconcileRouting _
  | channel c => exact tracking_reconcileRouting _
  | sink s => exact tracking_reconcileRouting _

end Operator

end EventRouting
