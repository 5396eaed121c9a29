import EventRouting.Proofs.Control.Tracking

namespace EventRouting

/-- The finalizer that keeps an object until it has left the contract. -/
def RoutingManifest.finalizer : RoutingManifest → String
  | .trigger _ => triggerFinalizer
  | _ => routingFinalizer

/-- The object is to be deleted, and the finalizer keeps it. -/
def RoutingManifest.awaitsRelease (m : RoutingManifest) : Bool :=
  m.metadata.isDeleting && m.metadata.finalizers.contains m.finalizer

/-- The request that removes the finalizer. -/
def RoutingManifest.release (m : RoutingManifest) : ApiRequest :=
  match m with
  | .trigger t => .merge m.objectRef (ControlProgram.triggerFinalizerPatch t.metadata false)
  | m => .patch m.objectRef
    (Metadata.removal ((m.metadata.finalizers.idxOf? routingFinalizer).getD 0))

theorem Contract.routes_of_empty {c : Contract} (h : c.resources = []) (uid : String) :
    c.routes uid = false := by
  rw [routes, resource?, h]
  rfl

namespace Operator

/-- Whether reconciling came to an end without a failure. -/
def Reconciled.isDone : Reconciled → Bool
  | .done _ => true
  | .failed .. => false

/-- Whether the storage entry holds a contract that routes a uid. -/
def stores (w : Operator) (uid : String) : Bool :=
  match w.stored? with
  | none => false
  | some p => match Contract.decode p with
    | .ok c => c.routes uid
    | .error _ => false

/-- Reconciling an object removes the finalizer that kept it. -/
def Releases (w : Operator) (m : RoutingManifest) : Prop :=
  m.awaitsRelease = true ∧ (w.reconcile m).1.isDone = true

variable {w u v : Operator} {m : RoutingManifest}

theorem Spared.stores (h : Spared w v) (uid : String) : v.stores uid = w.stores uid := by
  rw [Operator.stores, h.stored?, Operator.stores]

theorem Tracked.stores (h : w.Tracked) (hb : w.state.sync.isBehind = false) (uid : String) :
    w.stores uid = w.state.sync.current.routes uid := by
  have hs := h.tracks.shown hb
  rw [Operator.stores]
  cases hp : w.stored? with
  | none =>
    rw [hp] at hs
    have he : w.state.sync.current = {} := hs
    rw [he]
    rfl
  | some p =>
    rw [hp, Contract.ShownBy] at hs
    dsimp only
    cases hd : Contract.decode p with
    | ok c =>
      rw [hd] at hs
      exact congrArg (Contract.routes · uid) hs
    | error e =>
      rw [hd] at hs
      exact (Contract.routes_of_empty hs uid).symm

/-- After a build the contract holds what fragments brought in, unless there are no newer
generations. -/
theorem accept_routes {s : Synchronizer} {r : Readiness} {uid : String}
    (h : (s.accept (s.build r)).current.routes uid = true) :
    (∃ f ∈ s.fragmentList, f.Carries uid) ∨ s.current.generation = .greatest := by
  by_cases ho : s.Overflows r
  · exact .inr ho.2
  · rw [(Synchronizer.accept_of_not_overflows ho).1] at h
    exact .inl (build_carries h)

/-- What is stored after a fragment was taken out. -/
theorem withdraw_stores (h : w.Tracked) {key : String}
    (hr : w.run (ControlProgram.withdraw w.context key) = (.ok (), v)) (uid : String) :
    v.stores uid = (if w.state.sync.fragments.contains key then v.state.sync.current.routes uid
        else w.stores uid) ∧
      (w.state.sync.fragments.contains key = true → v.state.sync.current.routes uid = true →
        (∃ f ∈ (w.state.sync.remove key).fragmentList, f.Carries uid) ∨
          w.state.sync.current.generation = .greatest) := by
  rw [run_withdraw] at hr
  by_cases hf : w.state.sync.fragments.contains key = true
  · rw [if_pos hf] at hr
    obtain ⟨report, u, hu, hv⟩ := ok_of_run_bind hr
    obtain ⟨_, ht, ⟨readiness, hc⟩, hb⟩ := run_synchronize (h.without key) hu
    cases hv
    refine ⟨?_, fun _ hs => ?_⟩
    · rw [if_pos hf]
      exact ht.stores (hb report rfl) uid
    · rw [hc] at hs
      exact accept_routes hs
  · rw [if_neg hf] at hr
    cases hr
    rw [if_neg hf]
    exact ⟨rfl, fun hn => absurd hn hf⟩

/-- A request was accepted, and nothing else happened. -/
structure Sent (r : ApiRequest) (w v : Operator) : Prop where
  accepted : ∃ value, (w.server.handle r).1.content = .ok value
  server : v.server = (w.server.handle r).2
  context : v.context = w.context
  sync : v.state.sync = w.state.sync

theorem Sent.spared {r : ApiRequest} (h : Sent r w v) (hr : r.target ≠ w.context.storage) :
    Spared w v := by
  refine ⟨h.context, h.sync, ?_⟩
  rw [h.server]
  exact ApiServer.handle_frame hr

theorem run_api (r : ApiRequest) (w : Operator) : w.run (ControlProgram.ask (.api r)) =
    (.ok (w.server.handle r).1, { w with server := (w.server.handle r).2 }) :=
  run_ask w (.api r)

theorem sent_of_ok {α : Type} {r : ApiRequest} {f : Json.Value → α} {g : Reply → String → Failure}
    {a : α} (h : w.run (ControlProgram.ask (.api r) >>= fun reply =>
      match reply.content with
      | .ok value => pure (f value)
      | .error reason => throw (g reply reason)) = (.ok a, v)) : Sent r w v := by
  rw [run_bind, run_api] at h
  dsimp only at h
  cases hc : (w.server.handle r).1.content with
  | ok value =>
    rw [hc] at h
    cases h
    exact ⟨⟨value, hc⟩, rfl, rfl, rfl⟩
  | error e =>
    rw [hc] at h
    cases h

theorem send_ok {r : ApiRequest} {value : Json.Value}
    (h : w.run (ControlProgram.send r) = (.ok value, v)) : Sent r w v :=
  sent_of_ok (f := id) (g := fun reply _ => .api reply.code) h

theorem changeFinalizer_ok {r : ApiRequest} {doing : String}
    (h : w.run (ControlProgram.changeFinalizer r doing) = (.ok (), v)) : Sent r w v :=
  sent_of_ok (f := fun _ => ())
    (g := fun _ reason => .finalizer s!"failed to {doing} finalizer: {reason}") h

theorem reconcileRouting_ok {a : Action} (hd : m.metadata.isDeleting = true)
    (hf : m.metadata.finalizers.contains routingFinalizer = true)
    (h : w.run (ControlProgram.reconcileRouting w.context m) = (.ok a, v)) :
    ∃ u, w.run (ControlProgram.withdraw w.context m.key) = (.ok (), u) ∧
      Sent (.patch m.objectRef
        (Metadata.removal ((m.metadata.finalizers.idxOf? routingFinalizer).getD 0))) u v := by
  cases hi : m.metadata.finalizers.idxOf? routingFinalizer with
  | none => exact absurd (List.contains_iff_mem.mp hf) (List.idxOf?_eq_none_iff.mp hi)
  | some position =>
    have hs : m.metadata.finalizerStep = .cleanup position := by
      rw [Metadata.finalizerStep, hi, hd]
    rw [ControlProgram.reconcileRouting, ControlProgram.withFinalizer, hs] at h
    obtain ⟨action, u, hu, h⟩ := ok_of_run_bind h
    obtain ⟨_, t, ht, h⟩ := ok_of_run_bind h
    obtain ⟨_, s, hw, hu⟩ := ok_of_run_bind hu
    cases h
    cases hu
    exact ⟨_, hw, changeFinalizer_ok ht⟩

theorem groups_advance_ok {view : TriggerView} {desired : GroupBinding} {transition : Transition}
    (hd : view.deleting = true) (hf : view.hasFinalizer = true)
    (h : w.run (ControlProgram.groups (ConsumerGroup.advance view desired)) = (.ok transition, v)) :
    ∃ action, transition = .removeFinalizer action := by
  rw [ConsumerGroup.advance, hd, hf] at h
  dsimp only at h
  rw [ControlProgram.groups_bind] at h
  obtain ⟨action, u, _, h⟩ := ok_of_run_bind h
  rw [run_groups] at h
  cases h
  exact ⟨action, rfl⟩

theorem settleTrigger_ok {t : Manifest TriggerSpec} {broker? : Option (Manifest BrokerSpec)}
    {view : TriggerView} {ctx : ControlContext} {a : Action}
    (hk : w.context.storage.kind = .configMap)
    (hd : view.deleting = true) (hf : view.hasFinalizer = true)
    (h : w.run (settleTrigger ctx t broker? view) = (.ok a, v)) :
    ∃ u, Spared w u ∧ Sent (RoutingManifest.trigger t).release u v := by
  rw [settleTrigger, hd] at h
  obtain ⟨transition, u, hu, h⟩ := ok_of_run_bind h
  obtain ⟨action, rfl⟩ := groups_advance_ok hd hf hu
  obtain ⟨value, t, ht, h⟩ := ok_of_run_bind h
  cases h
  exact ⟨u, (spares_groups _).spared hk hu, send_ok ht⟩

theorem reconcileTrigger_ok {t : Manifest TriggerSpec} {a : Action} (ht : w.Tracked)
    (hd : t.metadata.isDeleting = true)
    (hf : t.metadata.finalizers.contains triggerFinalizer = true)
    (h : w.run (ControlProgram.reconcileTrigger w.context t) = (.ok a, v)) :
    ∃ x y z, Spared w x ∧
      x.run (ControlProgram.withdraw x.context (RoutingManifest.trigger t).key) = (.ok (), y) ∧
      Spared y z ∧ Sent (RoutingManifest.trigger t).release z v := by
  rw [reconcileTrigger_eq] at h
  obtain ⟨broker?, x, hx, h⟩ := ok_of_run_bind h
  have hs := (spares_brokerOf t).spared ht.kind hx
  rw [← hs.context] at h
  cases hu : t.metadata.uid? with
  | none =>
    rw [Manifest.triggerView, hu] at h
    cases h
  | some uid =>
    rw [Manifest.triggerView, hu] at h
    dsimp only at h
    rw [if_pos hd] at h
    obtain ⟨_, y, hy, h⟩ := ok_of_run_bind h
    obtain ⟨_, hty⟩ := (tracking_withdraw _).tracked (ht.of_spared hs) hy
    obtain ⟨z, hz, hv⟩ := settleTrigger_ok hty.kind hd hf h
    exact ⟨x, y, z, hs, hy, hz, hv⟩

/-- An object that is released was withdrawn before. The last request removes the finalizer, and
the contract is left alone besides. -/
theorem Releases.withdrawn (ht : w.Tracked) (h : w.Releases m) :
    ∃ x y z, Spared w x ∧ x.run (ControlProgram.withdraw x.context m.key) = (.ok (), y) ∧
      Spared y z ∧ Sent m.release z (w.reconcile m).2 := by
  obtain ⟨ha, hr⟩ := h
  obtain ⟨hd, hf⟩ := Bool.and_eq_true_iff.mp ha
  rw [Operator.reconcile] at hr ⊢
  rcases hv : w.run (ControlProgram.reconcile w.context m) with ⟨r, v⟩
  rw [hv] at hr
  cases r with
  | error f => cases hr
  | ok a =>
    dsimp only
    rw [reconcile_eq] at hv
    obtain ⟨action, u, hu, hc⟩ := ok_of_run_bind hv
    cases hc
    have conclude {z : Operator} (hs : Sent m.release z u) : Sent m.release z { u with state :=
        { u.state with errorCounts := u.state.errorCounts.erase m.key } } :=
      ⟨hs.accepted, hs.server, hs.context, hs.sync⟩
    cases m with
    | trigger t =>
      obtain ⟨x, y, z, hx, hy, hz, hs⟩ := reconcileTrigger_ok ht hd hf hu
      exact ⟨x, y, z, hx, hy, hz, conclude hs⟩
    | broker b =>
      obtain ⟨y, hy, hs⟩ := reconcileRouting_ok hd hf hu
      exact ⟨w, y, y, .refl w, hy, .refl y, conclude hs⟩
    | channel c =>
      obtain ⟨y, hy, hs⟩ := reconcileRouting_ok hd hf hu
      exact ⟨w, y, y, .refl w, hy, .refl y, conclude hs⟩
    | sink s =>
      obtain ⟨y, hy, hs⟩ := reconcileRouting_ok hd hf hu
      exact ⟨w, y, y, .refl w, hy, .refl y, conclude hs⟩

theorem Releases.spared (ht : w.Tracked) (h : w.Releases m) :
    ∃ x y, Spared w x ∧ x.run (ControlProgram.withdraw x.context m.key) = (.ok (), y) ∧
      Spared y (w.reconcile m).2 := by
  obtain ⟨x, y, z, hx, hy, hz, hs⟩ := h.withdrawn ht
  obtain ⟨_, hty⟩ := (tracking_withdraw _).tracked (ht.of_spared hx) hy
  have hk := (hty.of_spared hz).kind
  refine ⟨x, y, hx, hy, hz.trans (hs.spared fun he => ?_)⟩
  rw [← he] at hk
  cases m <;> cases hk

/-- The states that the controllers get to. Others may do what they like between two reconciles, as
long as the storage entry is left alone; requests may be refused at any time. -/
inductive Reachable : Operator → Prop where
  /-- A process starts, or starts again, whatever the storage entry holds. -/
  | start {w : Operator} : w.context.storage.kind = .configMap →
      w.server.Keeps w.context.storage → { w with state := {} }.start.1.isOk = true →
      Reachable { w with state := {} }.start.2
  | reconcile {w : Operator} (m : RoutingManifest) : Reachable w → Reachable (w.reconcile m).2
  | elsewhere {w v : Operator} : Reachable w → Spared w v → Reachable v

theorem start_eq (w : Operator) : w.start =
    match w.server.serve (obtainConfigMap w.context.storage) with
    | (.ok payload?, server) =>
      (.ok (), { w with server, state := { w.state with sync := .seed payload? } })
    | (.error e, server) => (.error (.contract e), { w with server }) := by
  have hs : w.server.serve (Synchronizer.start.interpret fun call =>
      call.inCluster w.context.storage) =
      match w.server.serve (obtainConfigMap w.context.storage) with
      | (.ok payload?, server) => (.ok (Synchronizer.seed payload?), server)
      | (.error e, server) => (.error (.contract e), server) := by
    rw [Synchronizer.start, Dialogue.interpret, Dialogue.foldM_bind, obtainEntry,
      Dialogue.foldM_put, ApiServer.serve_bind, StorageCall.inCluster]
    rcases w.server.serve (obtainConfigMap w.context.storage) with ⟨r, server⟩
    cases r <;> rfl
  rw [ApiServer.serve] at hs
  rw [start]
  dsimp only
  rw [hs]
  rcases w.server.serve (obtainConfigMap w.context.storage) with ⟨r, server⟩
  cases r <;> rfl

theorem start_tracked (hk : w.context.storage.kind = .configMap)
    (hs : w.server.Keeps w.context.storage) (ho : w.start.1.isOk = true) : w.start.2.Tracked := by
  obtain ⟨ho', hp, hr⟩ := ApiServer.serve_obtain hs
  rw [start_eq] at ho ⊢
  rcases hv : w.server.serve (obtainConfigMap w.context.storage) with ⟨r, server⟩
  rw [hv] at ho ho' hp hr
  cases r with
  | error e => cases ho
  | ok payload? =>
    refine ⟨hk, ho', ?_⟩
    have ht := Synchronizer.seed_tracks payload?
    rw [(hr payload? rfl).trans hp.symm] at ht ⊢
    exact ht

theorem Tracked.reconcile (h : w.Tracked) (m : RoutingManifest) : (w.reconcile m).2.Tracked := by
  rw [Operator.reconcile]
  rcases hv : w.run (ControlProgram.reconcile w.context m) with ⟨r, v⟩
  obtain ⟨_, ht⟩ := (tracking_reconcile m).tracked h hv
  cases r with
  | ok a => exact ht
  | error f => exact ht.of_spared ⟨rfl, rfl, rfl⟩

theorem Reachable.tracked (h : w.Reachable) : w.Tracked := by
  induction h with
  | start hk hs ho => exact start_tracked hk hs ho
  | reconcile m _ ih => exact ih.reconcile m
  | elsewhere _ hs ih => exact ih.of_spared hs

/-- A released object is gone from the storage entry if its fragment was there to be taken out, and
otherwise the entry stays as it was. -/
theorem released_stores (h : w.Reachable) (hr : w.Releases m) (uid : String) :
    (w.reconcile m).2.stores uid = (if w.state.sync.fragments.contains m.key then
        (w.reconcile m).2.state.sync.current.routes uid else w.stores uid) ∧
      (w.state.sync.fragments.contains m.key = true →
        (w.reconcile m).2.stores uid = true →
          (∃ f ∈ (w.state.sync.remove m.key).fragmentList, f.Carries uid) ∨
            w.state.sync.current.generation = .greatest) := by
  obtain ⟨x, y, hx, hy, hv⟩ := hr.spared h.tracked
  obtain ⟨hs, hc⟩ := withdraw_stores (h.tracked.of_spared hx) hy uid
  rw [hx.sync] at hs hc
  rw [hx.stores] at hs
  rw [hv.stores, hv.sync]
  refine ⟨hs, fun hf hu => hc hf ?_⟩
  rw [hs, if_pos hf] at hu
  exact hu

/-- A trigger that its finalizer keeps. -/
def keptTrigger (deletionTime? : Option Instant) : RoutingManifest :=
  .trigger {
    metadata := {
      name? := some "t"
      ns? := some "ns"
      uid? := some "t"
      deletionTime?
      finalizers := [triggerFinalizer] }
    spec := { broker := "b", subscriber := "http://s" }
    status? := none }

def entryObject : ObjectRef := ⟨.configMap, "ns", "contract"⟩

/-- A process is about to start, and a contract that routes the trigger was published before. -/
def starting : Operator where
  context := {
    fragments := { bootstrapServers := "kafka:9092" }
    storage := entryObject
    warnAfter := 3 }
  timeline := { probing := { prober := { settings := {}, roots := ⟨[]⟩ } } }
  server := {
    objects := [
      (entryObject, entryObject.configMap (some (Contract.encode ⟨1, [{ uid := "t" }]⟩))),
      ((keptTrigger none).objectRef, .object [])] }
  now := "2024-01-01T00:00:00Z"

theorem starting_keeps : starting.server.Keeps starting.context.storage := by
  intro v hv
  have hg : starting.server.objects.get? starting.context.storage =
      some (entryObject.configMap (some (Contract.encode ⟨1, [{ uid := "t" }]⟩))) :=
    (Table.get?_cons _ _ _ _).trans (if_pos rfl)
  obtain rfl := Option.some.inj (hg.symm.trans hv)
  rfl

theorem released_stores_of_contribution :
    let w := (starting.start.2.reconcile (keptTrigger none)).2
    w.Releases (keptTrigger (some ⟨0, 0⟩)) ∧
      (w.reconcile (keptTrigger (some ⟨0, 0⟩))).2.stores "t" = false := by
  intro w
  have ⟨hs, hd, hf, hl, hg⟩ : starting.start.1.isOk = true ∧
      (w.reconcile (keptTrigger (some ⟨0, 0⟩))).1.isDone = true ∧
      w.state.sync.fragments.contains (keptTrigger (some ⟨0, 0⟩)).key = true ∧
      (w.state.sync.remove (keptTrigger (some ⟨0, 0⟩)).key).fragmentList.isEmpty = true ∧
      w.state.sync.current.generation ≠ .greatest := by decide +kernel
  have hw : w.Reachable := .reconcile _ (.start rfl starting_keeps hs)
  have hr : w.Releases (keptTrigger (some ⟨0, 0⟩)) := ⟨rfl, hd⟩
  refine ⟨hr, Bool.eq_false_iff.mpr fun hu => ?_⟩
  rcases (released_stores hw hr "t").2 hf hu with ⟨f, hm, _⟩ | hg'
  · rw [List.isEmpty_iff.mp hl] at hm
    cases hm
  · exact hg hg'

/-- A trigger that was not looked at since the process started anew is released while the entry
still holds it. -/
theorem restarted_release_stores :
    ∃ w, Reachable w ∧ w.Releases (keptTrigger (some ⟨0, 0⟩)) ∧
      (w.reconcile (keptTrigger (some ⟨0, 0⟩))).2.stores "t" = true := by
  have ⟨hs, hd, hu⟩ : starting.start.1.isOk = true ∧
      (starting.start.2.reconcile (keptTrigger (some ⟨0, 0⟩))).1.isDone = true ∧
      (starting.start.2.reconcile (keptTrigger (some ⟨0, 0⟩))).2.stores "t" = true := by
    decide +kernel
  exact ⟨starting.start.2, .start rfl starting_keeps hs, ⟨rfl, hd⟩, hu⟩

end Operator

end EventRouting
