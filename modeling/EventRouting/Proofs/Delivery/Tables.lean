import EventRouting.Delivery.Routes
import EventRouting.Manifest.Validation
import EventRouting.Proofs.Routing.Rearrangement
import Mathlib.Data.List.Flatten

namespace EventRouting

namespace RoutingManifest

/-- The path at which an object is to be served. -/
def path (m : RoutingManifest) : String :=
  ingressPath m.metadata.namespaceName m.metadata.name

/-- The uids of the subscribers that an object brings along. -/
def subscriberUids : RoutingManifest → List String
  | .broker _ | .sink _ => []
  | .channel m => m.spec.subscribers.map (·.uid)
  | .trigger m => m.metadata.uid?.toList

end RoutingManifest

/-- The fragments of these objects. -/
def FragmentsOf (ctx : FragmentContext) : List RoutingManifest → List Fragment → Prop :=
  List.Forall₂ fun m f => m.fragment ctx = .ok f

/-- No two objects have one uid, or one kind, namespace and name. -/
structure ToldApart (ms : List RoutingManifest) : Prop where
  uids : (ms.map (·.metadata.uid?)).Nodup
  names : (ms.map fun m => (m.kind.name, m.metadata.namespaceName, m.metadata.name)).Nodup

namespace FragmentsOf

variable {ctx : FragmentContext} {ms : List RoutingManifest} {fs : List Fragment}

theorem coherent (h : FragmentsOf ctx ms fs) : ∀ f ∈ fs, f.Coherent := by
  intro f hf
  induction h with
  | nil => cases hf
  | cons hm _ ih =>
    rcases List.mem_cons.mp hf with rfl | hf
    · exact RoutingManifest.fragment_coherent hm
    · exact ih hf

theorem uids_eq (h : FragmentsOf ctx ms fs) :
    ms.map (·.metadata.uid?) = fs.map fun f => some f.uid := by
  induction h with
  | nil => rfl
  | cons hm _ ih => rw [List.map_cons, List.map_cons, (RoutingManifest.fragment_eq hm).1, ih]

theorem refKeys_sublist (h : FragmentsOf ctx ms fs) :
    ((Build.resources fs).map fun (r, _) => Build.refKey r).Sublist
      (ms.map fun m => (m.kind.name, m.metadata.namespaceName, m.metadata.name)) := by
  induction h with
  | nil => exact .slnil
  | @cons m f ms fs hm _ ih =>
    have hc := (RoutingManifest.fragment_eq hm).2
    cases m with
    | broker m | channel m | sink m =>
      rw [Build.resources_cons_resource hc]
      exact ih.cons_cons _
    | trigger m =>
      rw [Build.resources_cons_egress hc]
      exact ih.cons _

theorem distinct (h : FragmentsOf ctx ms fs) (hm : ToldApart ms) : Build.Distinct fs := by
  have hu : (fs.map (·.uid)).Nodup := by
    apply List.Nodup.of_map some
    rw [List.map_map]
    exact h.uids_eq ▸ hm.uids
  have hw := Build.winners_eq hu
  constructor
  · exact hu
  · have hr := Build.resources_nodup h.coherent
    rw [hw] at hr
    exact hr
  · have he := Build.egresses_nodup h.coherent
    rw [hw] at he
    exact he
  · exact h.refKeys_sublist.nodup hm.names

theorem subscribers_perm (h : FragmentsOf ctx ms fs) :
    (((Build.resources fs).flatMap fun ra => ra.1.egresses.map (·.uid)) ++
        (Build.egresses fs).map fun pe => pe.2.uid).Perm
      (ms.flatMap RoutingManifest.subscriberUids) := by
  induction h with
  | nil => exact .nil
  | @cons m f ms fs hm _ ih =>
    obtain ⟨hu, hc⟩ := RoutingManifest.fragment_eq hm
    cases m with
    | broker m | sink m =>
      rw [Build.resources_cons_resource hc, Build.egresses_cons_resource hc]
      exact ih
    | channel m =>
      rw [Build.resources_cons_resource hc, Build.egresses_cons_resource hc, List.flatMap_cons,
        List.flatMap_cons, List.append_assoc]
      apply List.Perm.append _ ih
      have hs := List.mergeSort_perm (m.spec.subscribers.map
        (FragmentContext.subscriberEgress m.metadata.namespaceName m.metadata.name))
        fun a b => decide (a.uid ≤ b.uid)
      have hs := hs.map (·.uid)
      rw [List.map_map] at hs
      exact hs
    | trigger m =>
      have hs : (RoutingManifest.trigger m).subscriberUids = [f.uid] := congrArg Option.toList hu
      rw [Build.resources_cons_egress hc, Build.egresses_cons_egress hc, List.flatMap_cons, hs]
      exact List.perm_middle.trans (ih.cons f.uid)

end FragmentsOf

theorem Build.Distinct.contract_perm {fs : List Fragment} (h : Build.Distinct fs)
    (readiness : Readiness) (current : Contract) (admitted : Table String Address) :
    (build readiness fs current admitted).contract.resources.Perm
      ((Build.routed readiness fs current admitted).map fun ra =>
        Build.gather (Build.egresses fs) ra.1) := by
  rw [build_resources, h.routed_eq, Build.content_eq (h.filter_references _), h.winners_eq]
  exact Build.sortByUid_perm _ _

/-- The path that receivers serve for a resource, if there is one. -/
def Resource.path? (r : Resource) : Option String := r.ingress?.map (·.path)

namespace Receiver

def routeOf (r : Resource) : IngressRoute := ⟨r.uid, r.topics, r.bootstrapServers⟩

theorem tableOf_eq (c : Contract) : tableOf c =
    .ofList (c.resources.filterMap fun r => r.path?.map fun p => (p, routeOf r)) := by
  rw [tableOf]
  congr 1
  apply List.filterMap_congr
  intro r _
  cases hi : r.ingress? with
  | none => rw [Resource.path?, hi]; rfl
  | some i => rw [Resource.path?, hi]; rfl

theorem exists_greatest {rs : List Resource} (hs : rs.Pairwise fun r s => r.uid < s.uid)
    {r : Resource} (hr : r ∈ rs) {p : String} (hp : r.path? = some p) :
    ∃ m ∈ rs, m.path? = some p ∧ (∀ s ∈ rs, s.path? = some p → s.uid ≤ m.uid) ∧
      (Table.ofList (rs.filterMap fun r => r.path?.map fun p => (p, routeOf r))).get? p =
        some (routeOf m) := by
  induction rs using List.reverseRecOn with
  | nil => cases hr
  | append_singleton rs last ih =>
    obtain ⟨hs, -, hlast⟩ := List.pairwise_append.mp hs
    rw [List.filterMap_append]
    by_cases hl : last.path? = some p
    · refine ⟨last, List.mem_append_right _ List.mem_cons_self, hl, ?_, ?_⟩
      · intro s hm _
        rcases List.mem_append.mp hm with hm | hm
        · exact String.not_lt.mp (String.lt_asymm (hlast s hm last List.mem_cons_self))
        · obtain rfl := List.mem_singleton.mp hm
          exact String.le_refl _
      · rw [List.filterMap_cons, hl]
        exact (congrArg (Table.get? · p) (Table.ofList_concat _ p (routeOf last))).trans
          ((Table.get?_insert ..).trans (if_pos rfl))
    · have hm : r ∈ rs := by
        rcases List.mem_append.mp hr with hm | hm
        · exact hm
        · obtain rfl := List.mem_singleton.mp hm
          exact absurd hp hl
      obtain ⟨m, hm, hmp, hmax, hget⟩ := ih hs hm
      refine ⟨m, List.mem_append_left _ hm, hmp, ?_, ?_⟩
      · intro s hm hsp
        rcases List.mem_append.mp hm with hm | hm
        · exact hmax s hm hsp
        · obtain rfl := List.mem_singleton.mp hm
          exact absurd hsp hl
      · rw [← hget, List.filterMap_cons, List.filterMap_nil]
        cases hq : last.path? with
        | none => rw [Option.map_none, List.append_nil]
        | some q =>
          have hne : q ≠ p := fun he => hl (hq.trans (congrArg some he))
          rw [Option.map_some, Table.ofList_concat, Table.get?_insert, if_neg hne]

/-- A resource has its path if no resource of a greater uid has it, too. -/
theorem route_iff {c : Contract} (hc : c.resources.Pairwise fun r s => r.uid < s.uid)
    {r : Resource} (hr : r ∈ c.resources) {p : String} (hp : r.path? = some p) :
    (tableOf c).get? p = some (routeOf r) ↔
      ∀ s ∈ c.resources, s.path? = some p → s.uid ≤ r.uid := by
  obtain ⟨m, hm, hmp, hmax, hget⟩ := exists_greatest hc hr hp
  rw [tableOf_eq, hget]
  constructor
  · intro he s hs hsp
    have hu : m.uid = r.uid := congrArg IngressRoute.resourceUid (Option.some.inj he)
    exact hu ▸ hmax s hs hsp
  · intro h
    have hu : m.uid = r.uid := String.le_antisymm (h m hm hmp) (hmax r hr hp)
    rw [List.inj_on_of_nodup_map (Build.nodup_of_ascending hc) hm hr hu]

end Receiver

section Objects

variable {ctx : FragmentContext} {ms : List RoutingManifest} {fs : List Fragment}

theorem FragmentsOf.resource_of_object (h : FragmentsOf ctx ms fs) {m : RoutingManifest}
    (hm : m ∈ ms) (hk : m.kind ≠ .trigger) :
    ∃ ra ∈ Build.resources fs, m.metadata.uid? = some ra.1.uid ∧ ra.1.path? = some m.path := by
  induction h with
  | nil => cases hm
  | @cons n f ms fs hn _ ih =>
    obtain ⟨hu, hc⟩ := RoutingManifest.fragment_eq hn
    rcases List.mem_cons.mp hm with rfl | hm
    · cases m with
      | broker m | channel m | sink m =>
        rw [Build.resources_cons_resource hc]
        exact ⟨_, List.mem_cons_self, hu, rfl⟩
      | trigger m => exact absurd rfl hk
    · obtain ⟨ra, hra, hr⟩ := ih hm
      have hs : (Build.resources fs).Sublist (Build.resources (f :: fs)) :=
        (List.sublist_cons_self f fs).filterMap _
      exact ⟨ra, hs.subset hra, hr⟩

theorem FragmentsOf.object_of_resource (h : FragmentsOf ctx ms fs) {ra : Resource × Address}
    (hr : ra ∈ Build.resources fs) :
    ∃ m ∈ ms, m.kind ≠ .trigger ∧ m.metadata.uid? = some ra.1.uid ∧ ra.1.path? = some m.path := by
  induction h with
  | nil => cases hr
  | @cons n f ms fs hn _ ih =>
    obtain ⟨hu, hc⟩ := RoutingManifest.fragment_eq hn
    have later (hr : ra ∈ Build.resources fs) : ∃ m ∈ n :: ms, m.kind ≠ .trigger ∧
        m.metadata.uid? = some ra.1.uid ∧ ra.1.path? = some m.path := by
      obtain ⟨m, hm, h⟩ := ih hr
      exact ⟨m, List.mem_cons_of_mem n hm, h⟩
    cases n with
    | broker n | channel n | sink n =>
      rw [Build.resources_cons_resource hc] at hr
      rcases List.mem_cons.mp hr with rfl | hr
      · exact ⟨_, List.mem_cons_self, nofun, hu, rfl⟩
      · exact later hr
    | trigger n =>
      rw [Build.resources_cons_egress hc] at hr
      exact later hr

/-- A build that finds everything ready routes the resources of all objects. -/
theorem Build.Distinct.mem_contract_iff (h : Build.Distinct fs) {readiness : Readiness}
    (hr : ∀ f ∈ fs, ∀ a ∈ f.address?, readiness.ready a = true) {current : Contract}
    {admitted : Table String Address} {s : Resource} :
    s ∈ (build readiness fs current admitted).contract.resources ↔
      ∃ ra ∈ Build.resources fs, s = Build.gather (Build.egresses fs) ra.1 := by
  have hall : Build.routed readiness fs current admitted = Build.resources fs := by
    rw [h.routed_eq, List.filter_eq_self]
    rintro ⟨r, a⟩ hra
    obtain ⟨f, hf, hc⟩ := Build.mem_resources.mp hra
    have ha : f.address? = some a := by rw [Fragment.address?, hc]
    dsimp only
    rw [hr f hf a ha, Bool.or_true]
  rw [(h.contract_perm readiness current admitted).mem_iff, hall, List.mem_map]
  exact exists_congr fun ra => and_congr_right fun _ => eq_comm

theorem FragmentsOf.exists_routed (h : FragmentsOf ctx ms fs) (hd : Build.Distinct fs)
    {readiness : Readiness} (hr : ∀ f ∈ fs, ∀ a ∈ f.address?, readiness.ready a = true)
    {current : Contract} {admitted : Table String Address} {m : RoutingManifest} (hm : m ∈ ms)
    (hk : m.kind ≠ .trigger) :
    ∃ r ∈ (build readiness fs current admitted).contract.resources,
      m.metadata.uid? = some r.uid ∧ r.path? = some m.path := by
  obtain ⟨ra, hra, hu, hp⟩ := h.resource_of_object hm hk
  exact ⟨_, (hd.mem_contract_iff hr).mpr ⟨ra, hra, rfl⟩, hu, hp⟩

theorem FragmentsOf.exists_object (h : FragmentsOf ctx ms fs) (hd : Build.Distinct fs)
    {readiness : Readiness} (hr : ∀ f ∈ fs, ∀ a ∈ f.address?, readiness.ready a = true)
    {current : Contract} {admitted : Table String Address} {r : Resource}
    (hc : r ∈ (build readiness fs current admitted).contract.resources) :
    ∃ m ∈ ms, m.kind ≠ .trigger ∧ m.metadata.uid? = some r.uid ∧ r.path? = some m.path := by
  obtain ⟨ra, hra, rfl⟩ := (hd.mem_contract_iff hr).mp hc
  exact h.object_of_resource hra

/-- Every object that is no trigger is routed once it is ready, and a path leads to the one of the
greatest uid. -/
theorem route_of_greatest_uid {ctx : FragmentContext} {ms : List RoutingManifest}
    {fs : List Fragment} (hf : FragmentsOf ctx ms fs) (hm : ToldApart ms) (readiness : Readiness)
    (hr : ∀ f ∈ fs, ∀ a ∈ f.address?, readiness.ready a = true) (current : Contract)
    (admitted : Table String Address) (receiver : Receiver) :
    let c := (build readiness fs current admitted).contract
    let t := (receiver.apply c).2.table
    (∀ m ∈ ms, m.kind ≠ .trigger → ∃ r ∈ c.resources,
      m.metadata.uid? = some r.uid ∧ r.path? = some m.path) ∧
    ∀ r ∈ c.resources, ∃ i, r.ingress? = some i ∧
      (t.get? i.path = some ⟨r.uid, r.topics, r.bootstrapServers⟩ ↔
        ∀ m ∈ ms, m.kind ≠ .trigger → m.path = i.path →
          ∀ uid ∈ m.metadata.uid?, uid ≤ r.uid) := by
  intro c t
  have hd := hf.distinct hm
  constructor
  · intro m hobj hk
    exact hf.exists_routed hd hr hobj hk
  · intro r hrc
    obtain ⟨m, -, -, -, hp⟩ := hf.exists_object hd hr hrc
    obtain ⟨i, hi, hip⟩ := Option.map_eq_some_iff.mp hp
    rw [← hip] at hp
    refine ⟨i, hi, (Receiver.route_iff (Build.contract_ascending hf.coherent) hrc hp).trans ?_⟩
    constructor
    · intro h n hn hk hnp uid hu
      obtain ⟨s, hs, hus, hps⟩ := hf.exists_routed hd hr hn hk
      cases hu.symm.trans hus
      exact h s hs (hps.trans (congrArg some hnp))
    · intro h s hs hsp
      obtain ⟨n, hn, hk, hus, hps⟩ := hf.exists_object hd hr hs
      exact h n hn hk (Option.some.inj (hps.symm.trans hsp)) s.uid hus

theorem route_of_greatest_uid_sink :
    let broker : RoutingManifest :=
      .broker { metadata := { name? := some "x", ns? := some "ns", uid? := some "b" }, spec := {} }
    let sink : RoutingManifest := .sink {
      metadata := { name? := some "x", ns? := some "ns", uid? := some "s" }
      spec := { topic := "t" } }
    ∃ fs, FragmentsOf { bootstrapServers := "k:9092" } [broker, sink] fs ∧
      let c := (build ⟨fun _ => true, fun _ => 0⟩ fs {} []).contract
      ∃ r ∈ c.resources, r.uid = "s" ∧ (Receiver.apply {} c).2.table.get? "/ns/x" =
        some ⟨r.uid, r.topics, r.bootstrapServers⟩ := by
  intro broker sink
  have hf : FragmentsOf { bootstrapServers := "k:9092" } [broker, sink] _ :=
    .cons rfl (.cons rfl .nil)
  have hm : ToldApart [broker, sink] := ⟨by decide, by decide⟩
  obtain ⟨objects, routes⟩ := route_of_greatest_uid hf hm ⟨fun _ => true, fun _ => 0⟩
    (fun _ _ _ _ => rfl) {} [] {}
  obtain ⟨r, hr, hu, hp⟩ := objects sink (.tail _ (.head _)) nofun
  obtain ⟨i, hi, served⟩ := routes r hr
  have hi : i.path = "/ns/x" := by
    rw [Resource.path?, hi] at hp
    exact Option.some.inj hp
  have hu : r.uid = "s" := (Option.some.inj hu).symm
  have hmax : ∀ m ∈ [broker, sink], ∀ uid ∈ m.metadata.uid?, uid ≤ "s" := by decide
  refine ⟨_, hf, r, hr, hu, ?_⟩
  rw [← hi, served]
  intro m hm _ _ uid huid
  rw [hu]
  exact hmax m hm uid huid

/-- The broker of the same name is routed, and yet no receiver has a route to it. -/
theorem broker_hidden_by_sink :
    let broker : RoutingManifest :=
      .broker { metadata := { name? := some "x", ns? := some "ns", uid? := some "b" }, spec := {} }
    let sink : RoutingManifest := .sink {
      metadata := { name? := some "x", ns? := some "ns", uid? := some "s" }
      spec := { topic := "t" } }
    ToldApart [broker, sink] ∧ (∀ m ∈ [broker, sink], m.violations = []) ∧
      ∃ fs, FragmentsOf { bootstrapServers := "k:9092" } [broker, sink] fs ∧
        let c := (build ⟨fun _ => true, fun _ => 0⟩ fs {} []).contract
        ∃ r ∈ c.resources, ∃ i, r.ingress? = some i ∧ ∀ receiver : Receiver,
          (receiver.apply c).2.table.get? i.path ≠
            some ⟨r.uid, r.topics, r.bootstrapServers⟩ := by
  intro broker sink
  have hf : FragmentsOf { bootstrapServers := "k:9092" } [broker, sink] _ :=
    .cons rfl (.cons rfl .nil)
  have hm : ToldApart [broker, sink] := ⟨by decide, by decide⟩
  have hd := hf.distinct hm
  refine ⟨hm, by decide +kernel, _, hf, ?_⟩
  intro c
  obtain ⟨r, hr, hu, hp⟩ : ∃ r ∈ c.resources, _ := hf.exists_routed hd (fun _ _ _ _ => rfl)
    (.head _) nofun
  obtain ⟨s, hs, hus, hps⟩ : ∃ s ∈ c.resources, _ := hf.exists_routed hd (fun _ _ _ _ => rfl)
    (.tail _ (.head _)) nofun
  obtain ⟨i, hi, hip⟩ := Option.map_eq_some_iff.mp hp
  have hps : s.path? = some i.path := hps.trans (congrArg some hip.symm)
  rw [← hip] at hp
  refine ⟨r, hr, i, hi, ?_⟩
  intro receiver h
  have hle := (Receiver.route_iff (Build.contract_ascending hf.coherent) hr hp).mp h s hs hps
  rw [← Option.some.inj hu, ← Option.some.inj hus] at hle
  exact absurd hle (by decide)

end Objects

/-- The subscribers of all resources, in the order of the contract. -/
def Contract.egresses (c : Contract) : List Egress := c.resources.flatMap (·.egresses)

namespace Dispatcher

variable {c : Contract}

theorem tableOf_eq (c : Contract) :
    tableOf c = .ofList (c.egresses.map fun e => (e.uid, e)) := by
  rw [tableOf, Contract.egresses, List.map_flatMap]

theorem length_tableOf (c : Contract) :
    (tableOf c).length = (c.egresses.map (·.uid)).dedup.length := by
  rw [tableOf_eq, Table.length_ofList, List.map_map]
  rfl

theorem get?_tableOf (c : Contract) (uid : String) :
    (tableOf c).get? uid = c.egresses.reverse.find? (·.uid = uid) := by
  rw [tableOf_eq, Table.get?_ofList, ← List.map_reverse, List.find?_map, Option.map_map]
  exact Option.map_id'

theorem get?_of_nodup (h : (c.egresses.map (·.uid)).Nodup) {e : Egress} (he : e ∈ c.egresses) :
    (tableOf c).get? e.uid = some e := by
  have hk : ((c.egresses.map fun e => (e.uid, e)).map Prod.fst).Nodup := by
    rw [List.map_map]
    exact h
  rw [tableOf_eq, Table.ofList_eq hk]
  exact Table.get?_of_mem hk (List.mem_map_of_mem he)

end Dispatcher

section Subscribers

variable {ctx : FragmentContext} {ms : List RoutingManifest} {fs : List Fragment}

theorem Build.gather_uids_perm (es : List (ParentRef × Egress)) (r : Resource) :
    ((gather es r).egresses.map (·.uid)).Perm (r.egresses.map (·.uid) ++
      (es.filter fun pe => pe.1.matches r.reference).map fun pe => pe.2.uid) := by
  have hp := (sortByUid_perm (·.uid)
    (r.egresses ++ (es.filter fun pe => pe.1.matches r.reference).map Prod.snd)).map (·.uid)
  rw [List.map_append, List.map_map] at hp
  exact hp

theorem Build.mem_gather_uids {es : List (ParentRef × Egress)} {r : Resource} {uid : String} :
    uid ∈ (gather es r).egresses.map (·.uid) ↔ uid ∈ r.egresses.map (·.uid) ∨
      ∃ pe ∈ es, pe.1.matches r.reference = true ∧ pe.2.uid = uid := by
  rw [(gather_uids_perm es r).mem_iff, List.mem_append]
  simp only [List.mem_map, List.mem_filter, and_assoc]

theorem Build.gather_uids_nodup {es : List (ParentRef × Egress)} {r : Resource}
    (hr : (r.egresses.map (·.uid)).Nodup) (he : (es.map fun pe => pe.2.uid).Nodup)
    (ha : ∀ uid ∈ r.egresses.map (·.uid), ∀ pe ∈ es, uid ≠ pe.2.uid) :
    ((gather es r).egresses.map (·.uid)).Nodup := by
  apply (gather_uids_perm es r).nodup_iff.mpr
  apply List.nodup_append.mpr
  refine ⟨hr, (List.filter_sublist.map _).nodup he, ?_⟩
  intro uid hu other ho
  obtain ⟨pe, hpe, rfl⟩ := List.mem_map.mp ho
  exact ha uid hu pe (List.mem_of_mem_filter hpe)

/-- Where subscribers are told apart by their uids, no two resources gather one of the same uid. -/
theorem Build.Distinct.gathered_nodup (h : Build.Distinct fs)
    (hs : (((Build.resources fs).flatMap fun ra => ra.1.egresses.map (·.uid)) ++
      (Build.egresses fs).map fun pe => pe.2.uid).Nodup) :
    ((Build.resources fs).flatMap fun ra =>
      (Build.gather (Build.egresses fs) ra.1).egresses.map (·.uid)).Nodup := by
  obtain ⟨hown, hattached, hapart⟩ := List.nodup_append.mp hs
  obtain ⟨hown, hdisjoint⟩ := List.nodup_flatMap.mp hown
  have apart {ra : Resource × Address} (hra : ra ∈ Build.resources fs) :
      ∀ uid ∈ ra.1.egresses.map (·.uid), ∀ pe ∈ Build.egresses fs, uid ≠ pe.2.uid := by
    intro uid hu pe hpe
    exact hapart uid (List.mem_flatMap.mpr ⟨ra, hra, hu⟩) _ (List.mem_map.mpr ⟨pe, hpe, rfl⟩)
  apply List.nodup_flatMap.mpr
  constructor
  · intro ra hra
    exact Build.gather_uids_nodup (hown ra hra) hattached (apart hra)
  · apply (hdisjoint.and (List.pairwise_map.mp h.references)).imp_of_mem
    rintro ra rb hra hrb ⟨hab, hne⟩ uid ha hb
    rcases Build.mem_gather_uids.mp ha with ha | ⟨pe, hpe, hpm, rfl⟩
    · rcases Build.mem_gather_uids.mp hb with hb | ⟨qe, hqe, -, rfl⟩
      · exact hab ha hb
      · exact apart hra _ ha qe hqe rfl
    · rcases Build.mem_gather_uids.mp hb with hb | ⟨qe, hqe, hqm, hu⟩
      · exact apart hrb _ hb pe hpe rfl
      · obtain rfl : qe = pe := List.inj_on_of_nodup_map hattached hqe hpe hu
        exact hne ((Build.matches_iff.mp hpm).trans (Build.matches_iff.mp hqm).symm)

theorem FragmentsOf.egress_uids_nodup (h : FragmentsOf ctx ms fs) (hm : ToldApart ms)
    (hs : (ms.flatMap RoutingManifest.subscriberUids).Nodup) (readiness : Readiness)
    (current : Contract) (admitted : Table String Address) :
    ((build readiness fs current admitted).contract.egresses.map (·.uid)).Nodup := by
  have hd := h.distinct hm
  have hn := hd.gathered_nodup (h.subscribers_perm.nodup_iff.mpr hs)
  have hr : (Build.routed readiness fs current admitted).Sublist (Build.resources fs) := by
    rw [hd.routed_eq]
    exact List.filter_sublist
  have hp := (hd.contract_perm readiness current admitted).flatMap_right
    fun r => r.egresses.map (·.uid)
  rw [List.flatMap_map] at hp
  rw [Contract.egresses, List.map_flatMap, hp.nodup_iff]
  exact (hr.flatMap _).nodup hn

end Subscribers

/-- There is one consumer for each uid of a subscriber, which serves the last one of this uid. -/
theorem consumer_of_each_uid {ctx : FragmentContext} {ms : List RoutingManifest}
    {fs : List Fragment} (hf : FragmentsOf ctx ms fs) (hm : ToldApart ms) (readiness : Readiness)
    (current : Contract) (admitted : Table String Address) (dispatcher : Dispatcher) :
    let c := (build readiness fs current admitted).contract
    let t := (dispatcher.apply c).2.table
    t.length = (c.egresses.map (·.uid)).dedup.length ∧
    (∀ uid, t.get? uid = c.egresses.reverse.find? (·.uid = uid)) ∧
    ((ms.flatMap RoutingManifest.subscriberUids).Nodup → t.length = c.egressCount ∧
      ∀ r ∈ c.resources, ∀ e ∈ r.egresses, t.get? e.uid = some e) := by
  intro c t
  refine ⟨Dispatcher.length_tableOf c, Dispatcher.get?_tableOf c, ?_⟩
  intro hs
  have hn : (c.egresses.map (·.uid)).Nodup :=
    hf.egress_uids_nodup hm hs readiness current admitted
  constructor
  · have hl : t.length = (c.egresses.map (·.uid)).dedup.length := Dispatcher.length_tableOf c
    rw [hl, hn.dedup, List.length_map]
    rfl
  · intro r hr e he
    exact Dispatcher.get?_of_nodup hn (List.mem_flatMap.mpr ⟨r, hr, he⟩)

theorem consumer_of_each_uid_trigger :
    let broker : RoutingManifest :=
      .broker { metadata := { name? := some "b", ns? := some "ns", uid? := some "b" }, spec := {} }
    let trigger : RoutingManifest := .trigger {
      metadata := { name? := some "t", ns? := some "ns", uid? := some "t" }
      spec := { broker := "b", subscriber := "http://t" } }
    ∃ fs, FragmentsOf { bootstrapServers := "k:9092" } [broker, trigger] fs ∧
      let c := (build ⟨fun _ => true, fun _ => 0⟩ fs {} []).contract
      let t := (Dispatcher.apply {} c).2.table
      c.egressCount = 1 ∧ t.length = c.egressCount ∧
        ∀ r ∈ c.resources, ∀ e ∈ r.egresses, t.get? e.uid = some e := by
  intro broker trigger
  have hf : FragmentsOf { bootstrapServers := "k:9092" } [broker, trigger] _ :=
    .cons rfl (.cons rfl .nil)
  have hm : ToldApart [broker, trigger] := ⟨by decide, by decide⟩
  obtain ⟨-, -, served⟩ := consumer_of_each_uid hf hm ⟨fun _ => true, fun _ => 0⟩ {} [] {}
  exact ⟨_, hf, by decide +kernel, served (by decide)⟩

/-- Two subscribers of a channel with one uid share a consumer. -/
theorem subscribers_share_consumer :
    let channel : RoutingManifest := .channel {
      metadata := { name? := some "c", ns? := some "ns", uid? := some "c" }
      spec := {
        subscribers := [{ uid := "s", uri := "http://a" }, { uid := "s", uri := "http://b" }] } }
    ToldApart [channel] ∧ (∀ m ∈ [channel], m.violations = []) ∧
      ∃ fs, FragmentsOf { bootstrapServers := "k:9092" } [channel] fs ∧
        let c := (build ⟨fun _ => true, fun _ => 0⟩ fs {} []).contract
        ∀ dispatcher : Dispatcher, let t := (dispatcher.apply c).2.table
          t.length = 1 ∧ c.egressCount = 2 ∧
            ∃ r ∈ c.resources, ∃ e ∈ r.egresses, t.get? e.uid ≠ some e := by
  intro channel
  have hf : FragmentsOf { bootstrapServers := "k:9092" } [channel] _ := .cons rfl .nil
  have hm : ToldApart [channel] := ⟨by decide, by decide⟩
  refine ⟨hm, by decide +kernel, _, hf, ?_⟩
  intro c dispatcher t
  let egress (uri : String) : Egress :=
    FragmentContext.subscriberEgress "ns" "c" { uid := "s", uri }
  have hp : c.egresses.Perm [egress "http://a", egress "http://b"] := by
    have hp := ((hf.distinct hm).contract_perm ⟨fun _ => true, fun _ => 0⟩ {} []).flatMap_right
      (·.egresses)
    refine hp.trans ?_
    change (Build.sortByUid Egress.uid (List.mergeSort _ _ ++ []) ++ []).Perm _
    rw [List.append_nil, List.append_nil]
    exact (Build.sortByUid_perm _ _).trans (List.mergeSort_perm _ _)
  have hlength : t.length = 1 := by
    have hl : t.length = (c.egresses.map (·.uid)).dedup.length := Dispatcher.length_tableOf c
    rw [hl, ((hp.map _).dedup).length_eq]
    decide
  have hserved : ∃ e ∈ c.egresses, t.get? e.uid ≠ some e := by
    by_contra hn
    have hall : ∀ e ∈ c.egresses, t.get? e.uid = some e := by
      intro e he
      by_contra hne
      exact hn ⟨e, he, hne⟩
    have ha := hall (egress "http://a") (hp.mem_iff.mpr (.head _))
    have hb := hall (egress "http://b") (hp.mem_iff.mpr (.tail _ (.head _)))
    have hsame := congrArg Egress.destination (Option.some.inj (ha.symm.trans hb))
    exact absurd hsame (by decide)
  obtain ⟨e, he, hne⟩ := hserved
  obtain ⟨r, hr, her⟩ := List.mem_flatMap.mp he
  exact ⟨hlength, hp.length_eq, r, hr, e, her, hne⟩

end EventRouting
