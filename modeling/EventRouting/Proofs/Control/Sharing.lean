import EventRouting.Proofs.Cluster.Versions
import EventRouting.Proofs.ConsumerGroup.Safety
import EventRouting.Proofs.Control.Requests

namespace EventRouting

open Json ControlProgram

/-- The finalizers besides that of the operator. -/
def foreignOf (v : Value) : Except DecodeError (List String) :=
  (finalizersOf v).map (List.filter (· ≠ triggerFinalizer))

/-- How a request that is accepted changes the finalizers of a trigger. -/
inductive FinalizerChange :
    ApiRequest → Except DecodeError (List String) → Except DecodeError (List String) → Prop where
  | kept {o : ObjectRef} {body : Value} {l : Except DecodeError (List String)} :
    FinalizerChange (.mergeStatus o body) l l
  | added {o : ObjectRef} {body : Value} {l : List String} (h : triggerFinalizer ∉ l) :
    FinalizerChange (.merge o body) (.ok l) (.ok (l ++ [triggerFinalizer]))
  | removed {o : ObjectRef} {body : Value} {l : List String} (h : triggerFinalizer ∈ l) :
    FinalizerChange (.merge o body) (.ok l) (.ok (l.filter (· ≠ triggerFinalizer)))

theorem FinalizerChange.foreignOf {r : ApiRequest} {v u : Value}
    (h : FinalizerChange r (finalizersOf v) (finalizersOf u)) : foreignOf u = foreignOf v := by
  rw [EventRouting.foreignOf, EventRouting.foreignOf]
  generalize finalizersOf v = l at h
  generalize finalizersOf u = l' at h
  cases h with
  | kept => rfl
  | added h => simp [Except.map]
  | removed h => simp [Except.map]

theorem finalizersOf_status (v status : Value) :
    finalizersOf (v.merge (.object [("status", status)])) = finalizersOf v := by
  have hn : "metadata" ∉ ["status"] := by decide
  have hg : (v.merge (.object [("status", status)])).get? "metadata" = v.get? "metadata" :=
    Value.get?_merge hn v
  rw [finalizersOf, Value.at?, hg, finalizersOf, Value.at?]

theorem versionOf?_triggerFinalizerPatch (m : Metadata) (present : Bool) :
    versionOf? (triggerFinalizerPatch m present) = m.resourceVersion? := by
  rw [triggerFinalizerPatch]
  cases m.resourceVersion? <;> rfl

theorem finalizersOf_triggerFinalizerPatch (v : Value) (t : Manifest TriggerSpec) (present : Bool) :
    finalizersOf (v.merge (triggerFinalizerPatch t.metadata present)) =
      .ok (t.withTriggerFinalizer present).metadata.finalizers := by
  have hm : (v.merge (triggerFinalizerPatch t.metadata present)).get? "metadata" =
      some (((v.get? "metadata").getD .null).merge (.object (
        [] ++ ("finalizers", .strings (t.withTriggerFinalizer present).metadata.finalizers) ::
          [("resourceVersion", (t.metadata.resourceVersion?.map Value.string).getD .null)]))) :=
    Value.get?_merge_of_mem [] [] List.not_mem_nil List.not_mem_nil Value.noConfusion v
  have hn : "finalizers" ∉ ["resourceVersion"] := by decide
  rw [finalizersOf, Value.at?_merge_of_mem [] _ hm List.not_mem_nil hn Value.noConfusion]
  exact congrArg (fun l => (some <$> l) >>= _) (mapM_reader (f := .string) (fun _ => rfl) _)

/-- An object on a server, with what is remembered of it. -/
structure SharedObject where
  server : ApiServer
  /-- All versions of the object so far. -/
  versions : List Value := []
  /-- The object as others than the operator wrote it last. -/
  written? : Option Value := none

namespace SharedObject

/-- No version of the object bears this one. -/
def Fresh (w : SharedObject) (version : String) : Prop :=
  ∀ v ∈ w.versions, versionOf? v ≠ some version

/-- Somebody else makes the object, or writes it anew. -/
def write (w : SharedObject) (o : ObjectRef) (v : Value) : SharedObject where
  server := w.server.put o v
  versions := v.sorted :: w.versions
  written? := some v.sorted

/-- The operator sends a request. -/
def request (w : SharedObject) (o : ObjectRef) (version : String) (r : ApiRequest) :
    SharedObject where
  server := (w.server.handleAt version r).2
  versions := ((w.server.handleAt version r).2.objects.get? o).toList ++ w.versions
  written? := w.written?

/-- The operator may send this request for the object, after it saw any version of it. -/
structure Sends (ctx : ControlContext) (o : ObjectRef) (w : SharedObject) (r : ApiRequest) :
    Prop where
  target : r.target = o
  seen : ∃ v ∈ w.versions, ∃ t, TriggerManifest.ofValue v = .ok t ∧
    (RoutingManifest.trigger t).objectRef = o ∧ (reconcile ctx (.trigger t)).Raises (.api r)

/-- What becomes of an object that is not there at first. Others and the operator take turns in any
order, and each change leaves another version. -/
inductive Reachable (ctx : ControlContext) (o : ObjectRef) : SharedObject → Prop where
  | start {s : ApiServer} : s.objects.get? o = none → Reachable ctx o { server := s }
  | write {w : SharedObject} {v : Value} {version : String} : Reachable ctx o w →
      versionOf? v = some version → w.Fresh version → Reachable ctx o (w.write o v)
  | delete {w : SharedObject} : Reachable ctx o w →
      Reachable ctx o { w with server := w.server.delete o }
  | elsewhere {w : SharedObject} {s : ApiServer} : Reachable ctx o w →
      s.objects.get? o = w.server.objects.get? o → Reachable ctx o { w with server := s }
  | request {w : SharedObject} {r : ApiRequest} {version : String} : Reachable ctx o w →
      Sends ctx o w r → w.Fresh version → Reachable ctx o (w.request o version r)

/-- The object is the last of its versions, and its foreign finalizers are those that others
wrote. -/
structure Sound (o : ObjectRef) (w : SharedObject) : Prop where
  distinct : DistinctVersions w.versions
  current : ∀ v, w.server.objects.get? o = some v → v ∈ w.versions
  foreign : ∀ v, w.server.objects.get? o = some v →
    ∃ u, w.written? = some u ∧ foreignOf v = foreignOf u

variable {ctx : ControlContext} {o : ObjectRef} {w : SharedObject} {r : ApiRequest}

/-- A request is rejected and changes no object, or it changes the finalizers of the current
version. -/
theorem Sound.request_cases (h : w.Sound o) (hk : ctx.storage.kind = .configMap)
    (hr : Sends ctx o w r) (version : String) :
    ((∃ e, (w.server.handleAt version r).1.content = .error e) ∧
        (w.server.handleAt version r).2.objects = w.server.objects) ∨
      (∃ a, (w.server.handleAt version r).1.content = .ok a) ∧
        ∃ v u, w.server.objects.get? o = some v ∧
          FinalizerChange r (finalizersOf v) (finalizersOf u) ∧
          Becomes v u version ((w.server.handleAt version r).2.objects.get? o) := by
  obtain ⟨ht, v, hv, t, hm, rfl, hraised⟩ := hr
  have hne : ctx.storage ≠ (RoutingManifest.trigger t).objectRef := by
    intro he
    rw [he] at hk
    cases hk
  obtain ⟨seen, hseen⟩ := h.distinct.bear v hv
  obtain ⟨hfinalizers, hversion⟩ := manifest_metadata (h.distinct.sorted v hv) hseen hm
  -- A patch that is accepted was computed from the current version.
  have current {present : Bool} {u : Value}
      (hu : w.server.objects.get? (RoutingManifest.trigger t).objectRef = some u)
      (hw : ∀ wanted, versionOf? (triggerFinalizerPatch t.metadata present) = some wanted →
        versionOf? u = some wanted) : u = v := by
    refine h.distinct.unique u (h.current u hu) v hv ((hw seen ?_).trans hseen.symm)
    exact (versionOf?_triggerFinalizerPatch _ _).trans hversion
  cases (asks_reconcile hne).of_raises hraised ht with
  | status s =>
    rcases ApiServer.handleAt_cases (.inr rfl) version with hf | ⟨u, hu, -, hc, hb⟩
    · exact .inl hf
    · exact .inr ⟨⟨_, hc⟩, u, _, hu, (finalizersOf_status u s).symm ▸ .kept, hb⟩
  | addFinalizer hn =>
    rcases ApiServer.handleAt_cases (.inl rfl) version with hf | ⟨u, hu, hw, hc, hb⟩
    · exact .inl hf
    · obtain rfl := current hu hw
      refine .inr ⟨⟨_, hc⟩, u, _, hu, ?_, hb⟩
      have ho : t.metadata.finalizers.filter (· ≠ triggerFinalizer) = t.metadata.finalizers :=
        List.filter_eq_self.mpr fun f hf => decide_eq_true fun he => hn (he ▸ hf)
      rw [finalizersOf_triggerFinalizerPatch, hfinalizers, Manifest.withTriggerFinalizer]
      dsimp only
      rw [if_pos rfl, ho]
      exact .added hn
  | removeFinalizer hmem =>
    rcases ApiServer.handleAt_cases (.inl rfl) version with hf | ⟨u, hu, hw, hc, hb⟩
    · exact .inl hf
    · obtain rfl := current hu hw
      refine .inr ⟨⟨_, hc⟩, u, _, hu, ?_, hb⟩
      rw [finalizersOf_triggerFinalizerPatch, hfinalizers]
      exact .removed hmem

theorem Sound.becomes (h : w.Sound o) {v u : Value} (hv : w.server.objects.get? o = some v)
    (hc : FinalizerChange r (finalizersOf v) (finalizersOf u)) {version : String}
    (hf : w.Fresh version) {u? : Option Value} (hb : Becomes v u version u?) :
    DistinctVersions (u?.toList ++ w.versions) ∧
      ∀ x, u? = some x → ∃ y, w.written? = some y ∧ foreignOf x = foreignOf y := by
  obtain ⟨y, hy, hfor⟩ := h.foreign v hv
  constructor
  · cases hb with
    | gone => exact h.distinct
    | same => exact h.distinct.cons_of_mem (h.current v hv)
    | renewed => exact h.distinct.cons (versionOf?_versionPatch _ version) hf
  · rintro x rfl
    refine ⟨y, hy, Eq.trans ?_ (hc.foreignOf.trans hfor)⟩
    rw [foreignOf, hb.finalizers, foreignOf]

theorem Sound.request (h : w.Sound o) (hk : ctx.storage.kind = .configMap)
    (hr : Sends ctx o w r) {version : String} (hf : w.Fresh version) :
    (w.request o version r).Sound o := by
  rw [SharedObject.request]
  rcases h.request_cases hk hr version with ⟨_, ho⟩ | ⟨_, v, u, hv, hc, hb⟩
  · rw [ho]
    refine ⟨?_, fun v hv => ?_, fun v hv => h.foreign v (ho ▸ hv)⟩
    · cases hv : w.server.objects.get? o with
      | none => exact h.distinct
      | some v => exact h.distinct.cons_of_mem (h.current v hv)
    · exact List.mem_append_right _ (h.current v (ho ▸ hv))
  · obtain ⟨hd, hw⟩ := h.becomes hv hc hf hb
    exact ⟨hd, fun x hx => List.mem_append_left _ (Option.mem_toList.mpr hx), hw⟩

theorem sound_of_none (hd : DistinctVersions w.versions) (h : w.server.objects.get? o = none) :
    w.Sound o := by
  refine ⟨hd, fun v hv => ?_, fun v hv => ?_⟩
  · cases h.symm.trans hv
  · cases h.symm.trans hv

theorem Sound.write (h : w.Sound o) {v : Value} {version : String}
    (hv : versionOf? v = some version) (hf : w.Fresh version) : (w.write o v).Sound o := by
  have hg : (w.server.put o v).objects.get? o = some v.sorted :=
    (Table.get?_insert _ _ _ _).trans (if_pos rfl)
  refine ⟨h.distinct.cons hv hf, fun u hu => ?_, fun u hu => ?_⟩
  · obtain rfl := Option.some.inj (hg.symm.trans hu)
    exact .head _
  · obtain rfl := Option.some.inj (hg.symm.trans hu)
    exact ⟨_, rfl, rfl⟩

theorem Reachable.sound (h : w.Reachable ctx o) (hk : ctx.storage.kind = .configMap) :
    w.Sound o := by
  induction h with
  | start hs => exact sound_of_none ⟨nofun, nofun, nofun⟩ hs
  | write _ hv hf ih => exact ih.write hv hf
  | delete _ ih =>
    exact sound_of_none ih.distinct ((Table.get?_erase _ _ _).trans (if_pos rfl))
  | elsewhere _ he ih =>
    exact ⟨ih.distinct, fun v hv => ih.current v (he.symm.trans hv),
      fun v hv => ih.foreign v (he.symm.trans hv)⟩
  | request _ hr hf ih => exact ih.request hk hr hf

/-- Of a trigger that is shared, the foreign finalizers are always those that others wrote last,
whichever version of it the operator has seen. -/
theorem requests_keep_foreign_finalizers (hk : ctx.storage.kind = .configMap)
    (hw : w.Reachable ctx o) (hr : Sends ctx o w r) (version : String) :
    let reply := (w.server.handleAt version r).1
    let s := (w.server.handleAt version r).2
    (∀ v, w.server.objects.get? o = some v →
      ∃ u, w.written? = some u ∧ foreignOf v = foreignOf u) ∧
    ((∃ e, reply.content = .error e) ∧ s.objects = w.server.objects ∨
      (∃ a, reply.content = .ok a) ∧ ∃ v l, w.server.objects.get? o = some v ∧
        FinalizerChange r (finalizersOf v) l ∧
        match s.objects.get? o with
        | some u => finalizersOf u = l ∧ foreignOf u = foreignOf v
        | none => l = .ok []) := by
  have hs := hw.sound hk
  refine ⟨hs.foreign, ?_⟩
  rcases hs.request_cases hk hr version with hf | ⟨hc, v, u, hv, hch, hb⟩
  · exact .inl hf
  · refine .inr ⟨hc, v, finalizersOf u, hv, hch, ?_⟩
    generalize (w.server.handleAt version r).2.objects.get? o = u? at hb
    cases u? with
    | none => exact hb.released
    | some x =>
      refine ⟨hb.finalizers, Eq.trans ?_ hch.foreignOf⟩
      rw [foreignOf, hb.finalizers, foreignOf]

def sharedRef : ObjectRef := ⟨.routing .trigger, "ns", "t"⟩

/-- A trigger that is to be deleted, in some version. -/
def sharedTrigger (finalizers : List String) (version : String) : Value :=
  .object [
    ("metadata", .object [
      ("deletionTimestamp", .string "2024-01-01T00:00:00Z"),
      ("finalizers", .strings finalizers),
      ("name", .string "t"), ("namespace", .string "ns"),
      ("resourceVersion", .string version), ("uid", .string "u")]),
    ("spec", .object [("broker", .string "b"), ("subscriber", .string "http://s")])]

/-- Another finalizer was added after the operator saw the trigger first. -/
def editedTrigger : SharedObject :=
  let seen := (SharedObject.mk {} [] none).write sharedRef
    (sharedTrigger ["other", triggerFinalizer] "1")
  seen.write sharedRef (sharedTrigger ["other", triggerFinalizer, "more"] "2")

/-- The request to leave these finalizers, sent by who saw a version. -/
def sharedRequest (finalizers : List String) (version : String) : ApiRequest :=
  .merge sharedRef (.object [("metadata", .object [
    ("finalizers", .strings finalizers), ("resourceVersion", .string version)])])

def sharedContext : ControlContext where
  fragments := { bootstrapServers := "kafka:9092" }
  storage := ⟨.configMap, "ns", "contract"⟩
  warnAfter := 3

theorem editedTrigger_reachable : editedTrigger.Reachable sharedContext sharedRef := by
  have hs : SharedObject.Reachable sharedContext sharedRef ⟨{}, [], none⟩ := .start rfl
  have h1 : versionOf? (sharedTrigger ["other", triggerFinalizer] "1") = some "1" := rfl
  have h2 : versionOf? (sharedTrigger ["other", triggerFinalizer, "more"] "2") = some "2" := rfl
  refine (hs.write h1 nofun).write h2 (List.forall_mem_cons.mpr ⟨?_, nofun⟩)
  decide

theorem editedTrigger_sends :
    Sends sharedContext sharedRef editedTrigger (sharedRequest ["other", "more"] "2") := by
  refine ⟨rfl, _, .head _, _, rfl, rfl, {}, ?_⟩
  exact .inr ⟨⟨404, .error Reply.notFound⟩, .inr ⟨⟨404, .error Reply.notFound⟩, .inl rfl⟩⟩

/-- What the operator saw first is rejected, and what it saw last is accepted. -/
theorem requests_keep_foreign_finalizers_of_edit :
    (∃ e, (editedTrigger.server.handleAt "3" (sharedRequest ["other"] "1")).1.content = .error e) ∧
      ∃ u, (editedTrigger.server.handleAt "3"
          (sharedRequest ["other", "more"] "2")).2.objects.get? sharedRef = some u ∧
        finalizersOf u = .ok ["other", "more"] := by
  have hf : finalizersOf (sharedTrigger ["other", triggerFinalizer, "more"] "2").sorted =
    .ok ["other", triggerFinalizer, "more"] := rfl
  refine ⟨⟨_, rfl⟩, ?_⟩
  obtain ⟨-, ⟨⟨e, he⟩, -⟩ | ⟨-, v, l, hv, hc, hm⟩⟩ := requests_keep_foreign_finalizers rfl
    editedTrigger_reachable editedTrigger_sends "3"
  · cases he
  · cases hv
    rw [hf] at hc
    cases hc with
    | added h => exact absurd (by decide) h
    | removed h =>
      generalize (editedTrigger.server.handleAt "3"
        (sharedRequest ["other", "more"] "2")).2.objects.get? sharedRef = u? at hm
      cases u? with
      | none => cases hm
      | some u => exact ⟨u, rfl, hm.1⟩

end SharedObject

end EventRouting
