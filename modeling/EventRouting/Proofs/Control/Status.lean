import EventRouting.Proofs.Control.Release
import EventRouting.Proofs.Manifest.Codec

namespace EventRouting

open Json

/-- What a reconcile came to, as far as a status tells it. -/
inductive Verdict where
  /-- The spec was refused. -/
  | refused (message : String)
  | placed (state : RouteState) (generation : Generation) (address? : Option String)
    (warnAfter : Nat)
  /-- A trigger was placed and has its consumer group. -/
  | served (state : RouteState) (generation : Generation) (warnAfter : Nat) (desired : GroupBinding)
      (action : GroupAction)

namespace Verdict

/-- The status that reports a verdict. The time is asked for once more for the group. -/
def status (v : Verdict) (now now' : String) (objectGeneration? : Option Int)
    (previous? : Option RoutingStatus) : RoutingStatus :=
  match v with
  | .refused message => .failed now objectGeneration? message
  | .placed state generation address? warnAfter =>
    .ofState now objectGeneration? previous? state generation address? warnAfter
  | .served state generation warnAfter desired action =>
    let s : RoutingStatus :=
      .ofState now objectGeneration? previous? state generation none warnAfter
    { s with
      consumerGroup? := some desired.groupId
      conditions := s.conditions ++ [desired.condition now' action] }

def report (v : Verdict) (now now' : String) (m : RoutingManifest) : ControlProgram Unit :=
  ControlProgram.updateStatus m (v.status now now' m.metadata.generation? m.status?)

variable {v : Verdict} {now now' later later' : String} {objectGeneration? : Option Int}
  {previous? : Option RoutingStatus} {t : RoutingStatus}

theorem status_observedGeneration (v : Verdict) (now now' : String) (objectGeneration? : Option Int)
    (previous? : Option RoutingStatus) :
    (v.status now now' objectGeneration? previous?).observedGeneration =
      objectGeneration?.getD 0 := by
  cases v <;> rfl

theorem status_content (h : t.observedContractGeneration =
    (v.status now now' objectGeneration? previous?).observedContractGeneration) :
    (v.status later later' objectGeneration? (some t)).content =
      (v.status now now' objectGeneration? previous?).content := by
  cases v with
  | refused message => rfl
  | placed state generation address? warnAfter =>
    by_cases hs : state = .routed
    · subst hs
      rfl
    · have ho : t.observedContractGeneration =
        (previous?.map (·.observedContractGeneration)).getD 0 := h.trans (if_neg hs)
      simp [status, RoutingStatus.ofState, RoutingStatus.content, Condition.at, hs, ho]
  | served state generation warnAfter desired action =>
    by_cases hs : state = .routed
    · subst hs
      rfl
    · have ho : t.observedContractGeneration =
        (previous?.map (·.observedContractGeneration)).getD 0 := h.trans (if_neg hs)
      simp [status, RoutingStatus.ofState, RoutingStatus.content, Condition.at,
        GroupBinding.condition, hs, ho]

end Verdict

namespace ControlProgram

variable (ctx : ControlContext) (m : RoutingManifest)

theorem refuse_eq (message : String) : refuse ctx m message = (do
    withdraw ctx m.key
    let now ← ask .clock
    (Verdict.refused message).report now now m
    throw (.validation message)) := rfl

theorem applyRouting_eq (h : m.violations.isEmpty = true) : applyRouting ctx m = (do
    let f ← fragmentOf ctx m
    let (report, state) ← contribute ctx m f
    let now ← ask .clock
    (Verdict.placed state report.generation (f.address?.map Address.url) ctx.warnAfter).report
      now now m
    return .ofState state) := by
  rw [applyRouting, h]
  simp only [statusOf, bind_assoc, pure_bind]
  rfl

theorem reportTrigger_eq (desired : GroupBinding) (action : GroupAction) :
    reportTrigger ctx m desired action = (do
      let (report, state) ← contribute ctx m (← fragmentOf ctx m)
      let now ← ask .clock
      let now' ← ask .clock
      (Verdict.served state report.generation ctx.warnAfter desired action).report now now' m
      return .ofState state) := by
  rw [reportTrigger]
  simp only [statusOf, bind_assoc, pure_bind]
  rfl

end ControlProgram

namespace RoutingStatus

variable {s t : RoutingStatus} {previous? : Option RoutingStatus}

/-- The status keeps no member of the previous one that it leaves out. -/
def Replaces (s : RoutingStatus) (previous? : Option RoutingStatus) : Prop :=
  (s.address? = none → previous?.bind (·.address?) = none) ∧
    (s.consumerGroup? = none → previous?.bind (·.consumerGroup?) = none)

theorem or_eq_self_iff {α : Type} (a? b? : Option α) :
    a?.or b? = a? ↔ (a? = none → b? = none) := by
  cases a? with
  | none => exact ⟨fun h _ => h, fun h => h rfl⟩
  | some a => exact ⟨fun _ hn => absurd hn (Option.some_ne_none a), fun _ => rfl⟩

theorem onto_content (s : RoutingStatus) (previous? : Option RoutingStatus) :
    (s.onto previous?).content = s.content ↔ s.Replaces previous? := by
  rw [Replaces, ← or_eq_self_iff, ← or_eq_self_iff]
  simp [onto, content]

/-- A status that says nothing new takes the place of the previous one, but for its times. -/
theorem replaces_of_content {p : RoutingStatus} (h : p.content = s.content) :
    s.Replaces (some p) := by
  have ha : p.content.address? = s.content.address? := congrArg address? h
  have hk : p.content.consumerGroup? = s.content.consumerGroup? := congrArg consumerGroup? h
  exact ⟨fun hs => ha.trans hs, fun hs => hk.trans hs⟩

theorem exists_of_not_news (h : s.isNews previous? = false) :
    ∃ p, previous? = some p ∧ p.content = (s.onto previous?).content := by
  cases previous? with
  | none => cases h
  | some p =>
    have hc : p.content = s.content := by simpa [isNews] using h
    exact ⟨p, rfl, hc.trans ((onto_content s (some p)).mpr (replaces_of_content hc)).symm⟩

theorem isNews_iff : s.isNews (some t) = true ↔ t.content ≠ s.content := by
  rw [isNews]
  simp

end RoutingStatus

theorem Verdict.isNews_onto {v : Verdict} {now now' : String} {objectGeneration? : Option Int}
    {previous? : Option RoutingStatus} {t : RoutingStatus}
    (ht : t.content = ((v.status now now' objectGeneration? previous?).onto previous?).content)
    (later later' : String) :
    (v.status later later' objectGeneration? (some t)).isNews (some t) = false ↔
      (v.status now now' objectGeneration? previous?).Replaces previous? := by
  have hc := congrArg RoutingStatus.observedContractGeneration ht
  have hg : t.observedContractGeneration =
    (v.status now now' objectGeneration? previous?).observedContractGeneration := hc
  rw [← Bool.not_eq_true, RoutingStatus.isNews_iff, status_content hg, ht, not_not,
    RoutingStatus.onto_content]

theorem ApiServer.handle_mergeStatus {s : ApiServer} {o : ObjectRef} {v status : Value}
    (hk : s.Keeps o) (ho : s.objects.get? o = some v)
    (ha : ∃ value,
      (s.handle (.mergeStatus o (.object [("status", status)]))).1.content = .ok value) :
    (s.handle (.mergeStatus o (.object [("status", status)]))).2.objects.get? o =
      some (v.merge (.object [("status", status)])).sorted := by
  have hg : (v.merge (.object [("status", status)])).get? "metadata" = v.get? "metadata" :=
    Value.get?_merge (by simp) v
  have hr : isReleased (v.merge (.object [("status", status)])) = false := by
    rw [← hk v ho]
    apply isReleased_congr
    · rw [Value.at?, Value.at?, hg]
    · rw [Value.at?, Value.at?, hg]
  rcases s.handle_cases (.mergeStatus o (.object [("status", status)])) with
    ⟨⟨code, hc⟩, _⟩ | ⟨_, hh⟩
  · obtain ⟨value, he⟩ := ha
    rw [hc] at he
    cases he
  · rw [hh, reply, patch, ho]
    dsimp only
    rw [patched, hr]
    exact get?_put s o _

section Merged

variable {kind : RoutingKind} {members : List (String × Value)} {m : RoutingManifest}

theorem exists_status (hi : Value.sorted (.object members) = .object members)
    (hm : RoutingManifest.ofValue kind (.object members) = .ok m) :
    ((members.lookup "status").getD .null).readOption RoutingStatus.record.ofValue = .ok m.status? ∧
      Alphabetical ((members.lookup "status").getD .null).members := by
  have hs : Value.sortedMembers members = members := Value.object.inj hi
  have hl := Value.lookup_sortedMembers members "status"
  rw [hs] at hl
  have hn := Value.nodup_of_sorted hi
  obtain ⟨_, hst⟩ := RoutingManifest.ofValue_ok hn hm
  rw [readMember] at hst
  cases hv : members.lookup "status" with
  | none =>
    rw [hv] at hst
    exact ⟨hst, .nil⟩
  | some v =>
    rw [hv] at hst hl
    have hvs : v = v.sorted := Option.some.inj hl
    refine ⟨hst, ?_⟩
    rw [Option.getD_some, hvs]
    cases v with
    | object members => exact Value.sortedMembers_inOrder members
    | _ => exact .nil

/-- An object into which a status was merged reads as the same object with the merged status. -/
theorem ofValue_merge_status {s : RoutingStatus}
    (hi : Value.sorted (.object members) = .object members)
    (ha : ∀ items, members.lookup "status" ≠ some (.array items))
    (hm : RoutingManifest.ofValue kind (.object members) = .ok m)
    (hg : (Value.int s.observedGeneration).readInt64 = .ok s.observedGeneration) :
    RoutingManifest.ofValue kind
        (Value.merge (.object members) (.object [("status", s.toValue)])).sorted =
      .ok (m.reporting (s.onto m.status?)) := by
  have hs : Value.sortedMembers members = members := Value.object.inj hi
  have hn := Value.nodup_of_sorted hi
  obtain ⟨hp, ho⟩ := exists_status hi hm
  have ha' : ∀ items, (members.lookup "status").getD .null ≠ .array items := by
    intro items he
    cases hv : members.lookup "status" with
    | none =>
      rw [hv] at he
      cases he
    | some v =>
      rw [hv] at he
      exact ha items (hv.trans (congrArg some he))
  have hr := RoutingStatus.ofValue_merge s ho ha' hp hg
  refine RoutingManifest.ofValue_reporting hn (Value.sortedMembers_inOrder _).nodup hm ?_ ?_
  · intro name hne
    rw [Value.lookup_sortedMembers, Value.lookup_mergeMembers (by simpa using hne),
      ← Value.lookup_sortedMembers]
    exact congrArg (List.lookup name) hs
  · rw [readMember, Value.lookup_sortedMembers, Value.lookup_mergeMembers_of_nodup (by simp)]
    · exact congrArg (some <$> ·) hr
    · intro c hc
      rw [List.mem_singleton.mp hc]
      exact fun hn => Value.noConfusion hn

end Merged

namespace Operator

variable {w u : Operator} {m : RoutingManifest}

theorem run_updateStatus_of_not_news {s : RoutingStatus} (h : s.isNews m.status? = false)
    (w : Operator) : w.run (ControlProgram.updateStatus m s) = (.ok (), w) := by
  rw [ControlProgram.updateStatus, h]
  rfl

theorem updateStatus_ok {s : RoutingStatus} (h : s.isNews m.status? = true)
    (hr : w.run (ControlProgram.updateStatus m s) = (.ok (), u)) :
    Sent (.mergeStatus m.objectRef (.object [("status", s.toValue)])) w u := by
  rw [ControlProgram.updateStatus, if_pos h] at hr
  obtain ⟨_, _, hs, hu⟩ := ok_of_run_bind hr
  cases hu
  exact send_ok hs

theorem run_updateStatus_ne {s : RoutingStatus} (h : s.isNews m.status? = true) (w : Operator) :
    w.run (ControlProgram.updateStatus m s) ≠ (.ok (), w) := by
  intro hr
  have hl := congrArg (·.log.length) (updateStatus_ok h hr).server
  rw [ApiServer.handle_log, List.length_append] at hl
  exact absurd hl (Nat.ne_of_lt (Nat.lt_succ_self _))

variable {v : Verdict} {now now' : String}

theorem run_report_iff {t : RoutingStatus} (ht : t.content =
      ((v.status now now' m.metadata.generation? m.status?).onto m.status?).content)
    (x : Operator) (later later' : String) :
    x.run (v.report later later' (m.reporting t)) = (.ok (), x) ↔
      (v.status now now' m.metadata.generation? m.status?).Replaces m.status? := by
  refine Iff.trans ?_ (Verdict.isNews_onto ht later later')
  rw [Verdict.report, RoutingManifest.reporting_metadata, RoutingManifest.reporting_status]
  constructor
  · intro hx
    by_contra hn
    rw [Bool.not_eq_false] at hn
    refine run_updateStatus_ne ?_ x hx
    rw [RoutingManifest.reporting_status]
    exact hn
  · intro hn
    apply run_updateStatus_of_not_news
    rw [RoutingManifest.reporting_status]
    exact hn

/-- A status that is written over the previous one settles exactly if it has an address and a
consumer group wherever the previous one had them. -/
theorem reported_status_settles {kind : RoutingKind} {members : List (String × Value)}
    (hk : w.server.Keeps m.objectRef)
    (ho : w.server.objects.get? m.objectRef = some (.object members))
    (hi : Value.sorted (.object members) = .object members)
    (ha : ∀ items, members.lookup "status" ≠ some (.array items))
    (hm : RoutingManifest.ofValue kind (.object members) = .ok m)
    (hr : w.run (v.report now now' m) = (.ok (), u)) :
    ∃ stored t, u.server.objects.get? m.objectRef = some stored ∧
      RoutingManifest.ofValue kind stored = .ok (m.reporting t) ∧
      t.content =
        ((v.status now now' m.metadata.generation? m.status?).onto m.status?).content ∧
      (t.content = (v.status now now' m.metadata.generation? m.status?).content ↔
        (v.status now now' m.metadata.generation? m.status?).Replaces m.status?) ∧
      ∀ (x : Operator) (later later' : String),
        x.run (v.report later later' (m.reporting t)) = (.ok (), x) ↔
          (v.status now now' m.metadata.generation? m.status?).Replaces m.status? := by
  have hn := Value.nodup_of_sorted hi
  have hg := (RoutingManifest.ofValue_ok hn hm).1
  rw [Metadata.Ranged, ← v.status_observedGeneration now now' _ m.status?] at hg
  cases hs : (v.status now now' m.metadata.generation? m.status?).isNews m.status? with
  | true =>
    have hsent := updateStatus_ok hs hr
    have hstored := ApiServer.handle_mergeStatus hk ho hsent.accepted
    rw [← hsent.server] at hstored
    exact ⟨_, _, hstored, ofValue_merge_status hi ha hm hg, rfl, RoutingStatus.onto_content _ _,
      run_report_iff rfl⟩
  | false =>
    -- Nothing was sent, as the stored status says the same already.
    rw [Verdict.report, run_updateStatus_of_not_news hs] at hr
    cases hr
    obtain ⟨p, hp, hc⟩ := RoutingStatus.exists_of_not_news hs
    have hp' : RoutingManifest.ofValue kind (.object members) = .ok (m.reporting p) := by
      rw [RoutingManifest.reporting_self hp]
      exact hm
    have hover := RoutingStatus.onto_content (v.status now now' m.metadata.generation? m.status?)
      m.status?
    exact ⟨_, p, ho, hp', hc, hc ▸ hover, run_report_iff hc⟩

/-- A broker that was placed before, as the cluster keeps it. -/
def placedBroker : List (String × Value) :=
  [("metadata", .object [("generation", .int 2), ("name", .string "b"),
    ("namespace", .string "ns")]),
    ("spec", .object [("topic", .string "t")]),
    ("status", .object [("address", .string "http://h:80/ns/b"), ("phase", .string "Ready")])]

def placedBrokerManifest : RoutingManifest :=
  .broker {
    metadata := { name? := some "b", ns? := some "ns", generation? := some 2 }
    spec := { topic? := some "t" }
    status? := some { phase := "Ready", address? := some "http://h:80/ns/b" } }

def brokerCluster : Operator :=
  { starting with
    server := { objects := [(placedBrokerManifest.objectRef, .object placedBroker)] } }

theorem brokerCluster_get? : brokerCluster.server.objects.get? placedBrokerManifest.objectRef =
    some (.object placedBroker) :=
  (Table.get?_cons _ _ _ _).trans (if_pos rfl)

theorem brokerCluster_keeps : brokerCluster.server.Keeps placedBrokerManifest.objectRef := by
  intro v hv
  obtain rfl := Option.some.inj (brokerCluster_get?.symm.trans hv)
  rfl

theorem placedBroker_sorted : Value.sorted (.object placedBroker) = .object placedBroker := by
  decide +kernel

theorem ofValue_placedBroker :
    RoutingManifest.ofValue .broker (.object placedBroker) = .ok placedBrokerManifest := rfl

theorem placedBroker_status (items : List Value) :
    placedBroker.lookup "status" ≠ some (.array items) := by
  have hs : placedBroker.lookup "status" =
    some (.object [("address", .string "http://h:80/ns/b"), ("phase", .string "Ready")]) := rfl
  rw [hs]
  intro hn
  cases hn

theorem reported_status_settles_of_address :
    let v : Verdict := .placed .routed 7 (some "http://h:80/ns/b") 3
    ∃ u stored m, brokerCluster.run (v.report "t" "t" placedBrokerManifest) = (.ok (), u) ∧
      u.server.objects.get? placedBrokerManifest.objectRef = some stored ∧
      RoutingManifest.ofValue .broker stored = .ok m ∧
      ∀ (x : Operator) (later : String), x.run (v.report later later m) = (.ok (), x) := by
  intro v
  have hr : brokerCluster.run (v.report "t" "t" placedBrokerManifest) = (.ok (), _) :=
    Prod.ext rfl rfl
  obtain ⟨stored, t, ho, hm, _, _, hi⟩ :=
    reported_status_settles brokerCluster_keeps brokerCluster_get?
    placedBroker_sorted placedBroker_status ofValue_placedBroker hr
  exact ⟨_, stored, _, hr, ho, hm, fun x later => (hi x later later).mpr
    ⟨fun hn => absurd hn (Option.some_ne_none _), fun _ => rfl⟩⟩

/-- The status of a spec that is refused has no address, and it is written again over the one that
was there before. -/
theorem refused_status_written_again :
    let v : Verdict := .refused "topic"
    ∃ u stored m, brokerCluster.run (v.report "t" "t" placedBrokerManifest) = (.ok (), u) ∧
      u.server.objects.get? placedBrokerManifest.objectRef = some stored ∧
      RoutingManifest.ofValue .broker stored = .ok m ∧
      ∀ (x : Operator) (later : String), x.run (v.report later later m) ≠ (.ok (), x) := by
  intro v
  have hr : brokerCluster.run (v.report "t" "t" placedBrokerManifest) = (.ok (), _) :=
    Prod.ext rfl rfl
  have hs := updateStatus_ok (by rfl) hr
  have ho := ApiServer.handle_mergeStatus brokerCluster_keeps brokerCluster_get? hs.accepted
  have hm := ofValue_merge_status placedBroker_sorted placedBroker_status ofValue_placedBroker
    (s := v.status "t" "t" (some 2) placedBrokerManifest.status?) rfl
  rw [← hs.server] at ho
  refine ⟨_, _, _, hr, ho, hm, fun x later hx => ?_⟩
  have hk := ((run_report_iff rfl x later later).mp hx).1 rfl
  cases hk

end Operator

end EventRouting
