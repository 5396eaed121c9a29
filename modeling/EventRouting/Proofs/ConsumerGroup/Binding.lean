import EventRouting.Proofs.Delivery.Tables
import EventRouting.Proofs.Naming

namespace EventRouting

/-- The group consumes what is written to the resource, and is that of the subscriber. -/
structure GroupBinding.Serves (b : GroupBinding) (r : Resource) (e : Egress) : Prop where
  topics : b.topics = r.topics
  bootstrapServers : b.bootstrapServers = r.bootstrapServers
  groupId : b.groupId = e.consumerGroup
  subscriber : b.subscriber = e.destination

/-- The owner is at the place of the trigger. -/
def TriggerRef.IsOf (owner : TriggerRef) (t : Manifest TriggerSpec) : Prop :=
  owner.ns = t.metadata.namespaceName ∧ owner.name = t.metadata.name

namespace Manifest

/-- The trigger names the broker, which is in its namespace. -/
def Names (t : Manifest TriggerSpec) (b : Manifest BrokerSpec) : Prop :=
  b.metadata.namespaceName = t.metadata.namespaceName ∧ b.metadata.name = t.spec.broker

/-- What the subscriber of a trigger attaches to. -/
def parent (t : Manifest TriggerSpec) : ParentRef :=
  ⟨RoutingKind.broker.name, t.metadata.namespaceName, t.spec.broker⟩

def egress (t : Manifest TriggerSpec) (uid : String) : Egress :=
  FragmentContext.triggerEgress uid t.metadata.namespaceName t.metadata.name t.spec

def resource (b : Manifest BrokerSpec) (ctx : FragmentContext) (uid : String) : Resource :=
  ctx.brokerResource uid b.metadata.namespaceName b.metadata.name b.spec

variable {t : Manifest TriggerSpec} {b : Manifest BrokerSpec} {owner : TriggerRef}

theorem parent_matches_iff {ctx : FragmentContext} {uid : String} :
    t.parent.matches (b.resource ctx uid).reference = true ↔ t.Names b := by
  have hk : Build.refKey (b.resource ctx uid) =
      (t.parent.kind, b.metadata.namespaceName, b.metadata.name) := rfl
  rw [Build.matches_iff, hk, Prod.mk.injEq, Prod.mk.injEq]
  exact and_iff_right rfl

/-- The topic that a trigger reads from where it knows no other is the default one of its broker. -/
theorem Names.desiredBinding_topics (h : t.Names b) (ho : owner.IsOf t)
    (broker? : Option (Manifest BrokerSpec)) (ctx : FragmentContext) :
    (t.desiredBinding owner broker? ctx).topics =
      [(broker?.bind (·.spec.topic?)).getD
        (brokerTopic b.metadata.namespaceName b.metadata.name)] := by
  rw [desiredBinding, ho.1, h.1, h.2]

/-- The group and the subscriber of a trigger follow the broker that the trigger names. -/
theorem Names.serves (h : t.Names b) (ho : owner.IsOf t) (ctx : FragmentContext)
    (uid uid' : String) :
    (t.desiredBinding owner (some b) ctx).Serves (b.resource ctx uid') (t.egress uid) where
  topics := h.desiredBinding_topics ho (some b) ctx
  bootstrapServers := rfl
  groupId := congrArg₂ triggerConsumerGroup ho.1 ho.2
  subscriber := rfl

theorem Names.sameIdentity_iff (h : t.Names b) (ho : owner.IsOf t) (ctx : FragmentContext)
    (uid : String) :
    (t.desiredBinding owner (some b) ctx).sameIdentity (t.desiredBinding owner none ctx) = true ↔
      (b.resource ctx uid).topics = [brokerTopic b.metadata.namespaceName b.metadata.name] ∧
        (b.resource ctx uid).bootstrapServers = ctx.bootstrapServers := by
  have hs := h.serves ho ctx uid uid
  rw [EventRouting.sameIdentity_iff, hs.topics, hs.bootstrapServers,
    h.desiredBinding_topics ho none ctx]
  exact and_iff_right rfl

theorem exists_triggerView {uid : String} (h : t.metadata.uid? = some uid) (relevant : Bool) :
    ∃ view, t.triggerView relevant = .ok view ∧ view.owner.IsOf t ∧ view.owner.uid = uid := by
  rw [triggerView, h]
  exact ⟨_, rfl, ⟨rfl, rfl⟩, rfl⟩

end Manifest

/-- The group that a trigger should have serves the resource of the broker that its subscriber
attaches to. Without the broker it is the same one exactly if the topic and the servers are the
default ones. -/
theorem binding_agrees {t : Manifest TriggerSpec} {b : Manifest BrokerSpec} {uid uid' : String}
    (ht : t.metadata.uid? = some uid) (hb : b.metadata.uid? = some uid') (ctx : FragmentContext)
    (relevant : Bool) :
    ∃ view f p e g r a,
      t.triggerView relevant = .ok view ∧
      (RoutingManifest.trigger t).fragment ctx = .ok f ∧ f.contribution = .egress p e ∧
      (RoutingManifest.broker b).fragment ctx = .ok g ∧ g.contribution = .resource r a ∧
      (p.matches r.reference = true →
        let bound := t.desiredBinding view.owner (some b) ctx
        bound.Serves r e ∧
        (bound.sameIdentity (t.desiredBinding view.owner none ctx) = true ↔
          r.topics = [brokerTopic b.metadata.namespaceName b.metadata.name] ∧
            r.bootstrapServers = ctx.bootstrapServers)) := by
  obtain ⟨view, hv, ho, -⟩ := Manifest.exists_triggerView ht relevant
  obtain ⟨f, hf, hfc⟩ := RoutingManifest.exists_fragment (m := .trigger t) ht ctx
  obtain ⟨g, hg, hgc⟩ := RoutingManifest.exists_fragment (m := .broker b) hb ctx
  refine ⟨view, f, t.parent, t.egress uid, g, b.resource ctx uid', _, hv, hf, hfc, hg, hgc, ?_⟩
  intro hm
  have hn := Manifest.parent_matches_iff.mp hm
  exact ⟨hn.serves ho ctx uid uid', hn.sameIdentity_iff ho ctx uid'⟩

theorem binding_agrees_of_own_topic :
    let t : Manifest TriggerSpec := ⟨{ name? := some "t", uid? := some "u" },
      { broker := "b", subscriber := "http://s" }, none⟩
    let b : Manifest BrokerSpec := ⟨{ name? := some "b", ns? := some "default", uid? := some "v" },
      { topic? := some "orders", bootstrapServers? := some "kafka:9092" }, none⟩
    let ctx : FragmentContext := { bootstrapServers := "kafka:9092" }
    ∃ view, t.triggerView true = .ok view ∧
      (t.desiredBinding view.owner (some b) ctx).topics = ["orders"] ∧
      (t.desiredBinding view.owner (some b) ctx).groupId = "knative-trigger-default-t" ∧
      (t.desiredBinding view.owner (some b) ctx).sameIdentity
        (t.desiredBinding view.owner none ctx) = false := by
  intro t b ctx
  obtain ⟨view, f, p, e, g, r, a, hv, hf, hfc, hg, hgc, h⟩ :=
    binding_agrees (t := t) (b := b) rfl rfl ctx true
  cases hf
  cases hfc
  cases hg
  cases hgc
  obtain ⟨hs, hi⟩ := h (by decide)
  refine ⟨view, hv, hs.topics, hs.groupId.trans (by decide), ?_⟩
  rw [Bool.eq_false_iff]
  exact fun hd => absurd (hi.mp hd).1 (by decide)

section Contract

variable {ctx : FragmentContext} {ms : List RoutingManifest} {fs : List Fragment}

theorem FragmentsOf.fragment_of_object (h : FragmentsOf ctx ms fs) {m : RoutingManifest}
    (hm : m ∈ ms) : ∃ f ∈ fs, m.fragment ctx = .ok f := by
  obtain ⟨i, hi, rfl⟩ := List.mem_iff_getElem.mp hm
  have hj : i < fs.length := h.length_eq ▸ hi
  exact ⟨fs[i], List.getElem_mem hj, h.get hi hj⟩

theorem FragmentsOf.object_of_fragment (h : FragmentsOf ctx ms fs) {f : Fragment} (hf : f ∈ fs) :
    ∃ m ∈ ms, m.fragment ctx = .ok f := by
  obtain ⟨i, hi, rfl⟩ := List.mem_iff_getElem.mp hf
  have hj : i < ms.length := h.length_eq ▸ hi
  exact ⟨ms[i], List.getElem_mem hj, h.get hj hi⟩

theorem RoutingManifest.broker_of_parent {m : RoutingManifest} {uid : String} {r : Resource}
    {a : Address} {t : Manifest TriggerSpec} (hr : m.contribution ctx uid = .resource r a)
    (hp : t.parent.matches r.reference = true) :
    ∃ b, m = .broker b ∧ r = b.resource ctx uid ∧ t.Names b := by
  have hk : r.reference.kind = RoutingKind.broker.name :=
    congrArg Prod.fst (Build.matches_iff.mp hp)
  cases m with
  | broker b =>
    cases hr
    exact ⟨b, rfl, rfl, Manifest.parent_matches_iff.mp hp⟩
  | channel m =>
    cases hr
    have hne : RoutingKind.channel.name ≠ RoutingKind.broker.name := by decide
    exact absurd hk hne
  | sink m =>
    cases hr
    have hne : RoutingKind.sink.name ≠ RoutingKind.broker.name := by decide
    exact absurd hk hne
  | trigger m => cases hr

/-- Every contract that is built of the objects of a cluster has the subscriber of a trigger at the
broker that it names, and its group serves them. -/
theorem binding_serves_contract (h : FragmentsOf ctx ms fs) (hm : ToldApart ms)
    {t : Manifest TriggerSpec} (ht : .trigger t ∈ ms) (relevant : Bool) (readiness : Readiness)
    (current : Contract) (admitted : Table String Address) :
    ∃ view, t.triggerView relevant = .ok view ∧
      ∀ s ∈ (build readiness fs current admitted).contract.resources,
        t.parent.matches s.reference = true →
        t.egress view.owner.uid ∈ s.egresses ∧
        ∃ b, .broker b ∈ ms ∧ t.Names b ∧
          (t.desiredBinding view.owner (some b) ctx).Serves s (t.egress view.owner.uid) := by
  obtain ⟨f, hf, htf⟩ := h.fragment_of_object ht
  obtain ⟨hu, hc⟩ := RoutingManifest.fragment_eq htf
  obtain ⟨view, hv, ho, hvu⟩ := Manifest.exists_triggerView hu relevant
  refine ⟨view, hv, fun s hs hp => ?_⟩
  have hd := h.distinct hm
  obtain ⟨⟨r, a⟩, hra, rfl⟩ :=
    List.mem_map.mp ((hd.contract_perm readiness current admitted).mem_iff.mp hs)
  have hr := List.mem_of_mem_filter hra
  rw [hd.winners_eq] at hr
  obtain ⟨g, hg, hgc⟩ := Build.mem_resources.mp hr
  obtain ⟨m, hmm, hmg⟩ := h.object_of_fragment hg
  rw [(RoutingManifest.fragment_eq hmg).2] at hgc
  obtain ⟨b, rfl, rfl, hn⟩ := RoutingManifest.broker_of_parent hgc hp
  have hserves := hn.serves ho ctx view.owner.uid g.uid
  refine ⟨?_, b, hmm, hn, hserves.topics, hserves.bootstrapServers, hserves.groupId,
    hserves.subscriber⟩
  have he : (t.parent, t.egress view.owner.uid) ∈ Build.egresses fs :=
    Build.mem_egresses.mpr ⟨f, hf, hvu ▸ hc⟩
  refine (Build.sortByUid_perm _ _).mem_iff.mpr (List.mem_append_right _ ?_)
  exact List.mem_map.mpr ⟨_, List.mem_filter.mpr ⟨he, hp⟩, rfl⟩

end Contract

end EventRouting
