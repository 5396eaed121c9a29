import EventRouting.ConsumerGroup.Basic
import EventRouting.Manifest.Validation
import EventRouting.Proofs.Routing.Build
import Mathlib.Data.List.Basic

namespace EventRouting

/-- Labels of RFC 1123, as names of objects have to be. -/
def AreLabels (ns name : String) : Prop := checkName ns = none ∧ checkName name = none

instance (ns name : String) : Decidable (AreLabels ns name) :=
  inferInstanceAs (Decidable (_ ∧ _))

/-- The second namespace goes on after the first one with a hyphen and a part of the first name. -/
def Straddles (ns name ns' name' : String) : Prop :=
  ∃ part, ns' = ns ++ "-" ++ part ∧ name = part ++ "-" ++ name'

/-- With a hyphen between the namespace and the name, the two places read alike. -/
def ReadAlike (ns name ns' name' : String) : Prop :=
  (ns = ns' ∧ name = name') ∨ Straddles ns name ns' name' ∨ Straddles ns' name' ns name

/-- A broker or a channel that does not choose its topic. -/
def RoutingManifest.LeavesTopic : RoutingManifest → Prop
  | .broker m => m.spec.topic? = none
  | .channel m => m.spec.topic? = none
  | .trigger _ | .sink _ => False

def RoutingManifest.IsAt (m : RoutingManifest) (ns name : String) : Prop :=
  m.metadata.namespaceName = ns ∧ m.metadata.name = name

theorem append_separator_eq_iff {α : Type} {sep : α} {l r l' r' : List α} :
    l ++ sep :: r = l' ++ sep :: r' ↔
      (l = l' ∧ r = r') ∨ (∃ part, l' = l ++ sep :: part ∧ r = part ++ sep :: r') ∨
        ∃ part, l = l' ++ sep :: part ∧ r' = part ++ sep :: r := by
  constructor
  · intro h
    rcases List.append_eq_append_iff.mp h with ⟨part, hl, hr⟩ | ⟨part, hl, hr⟩
    · cases part with
      | nil =>
        rw [List.append_nil] at hl
        exact .inl ⟨hl.symm, (List.cons.inj hr).2⟩
      | cons c part =>
        obtain ⟨rfl, hp⟩ := List.cons.inj hr
        exact .inr (.inl ⟨part, hl, hp⟩)
    · cases part with
      | nil =>
        rw [List.append_nil] at hl
        exact .inl ⟨hl, (List.cons.inj hr).2.symm⟩
      | cons c part =>
        obtain ⟨rfl, hp⟩ := List.cons.inj hr
        exact .inr (.inr ⟨part, hl, hp⟩)
  · rintro (⟨rfl, rfl⟩ | ⟨part, rfl, rfl⟩ | ⟨part, rfl, rfl⟩)
    · rfl
    · rw [List.append_assoc, List.cons_append]
    · rw [List.append_assoc, List.cons_append]

variable {ns name ns' name' : String}

theorem toList_hyphen (s t : String) : (s ++ "-" ++ t).toList = s.toList ++ '-' :: t.toList := by
  rw [String.toList_append, String.toList_append, List.append_assoc]
  rfl

theorem straddles_iff : Straddles ns name ns' name' ↔
    ∃ part, ns'.toList = ns.toList ++ '-' :: part ∧ name.toList = part ++ '-' :: name'.toList := by
  constructor
  · rintro ⟨part, rfl, rfl⟩
    exact ⟨part.toList, toList_hyphen ns part, toList_hyphen part name'⟩
  · rintro ⟨part, hns, hname⟩
    rw [← String.toList_ofList (l := part), ← toList_hyphen, String.toList_inj] at hns hname
    exact ⟨.ofList part, hns, hname⟩

theorem readAlike_iff : ReadAlike ns name ns' name' ↔
    ns.toList ++ '-' :: name.toList = ns'.toList ++ '-' :: name'.toList := by
  rw [append_separator_eq_iff, ReadAlike, straddles_iff, straddles_iff, String.toList_inj,
    String.toList_inj]

theorem dot_not_mem_of_label {s : String} (h : checkName s = none) : '.' ∉ s.toList := by
  rw [checkName] at h
  split at h
  next => cases h
  next =>
    split at h
    next hl =>
      rw [isLabel, Bool.and_eq_true, Bool.and_eq_true, List.all_eq_true] at hl
      intro hm
      exact absurd (hl.1.1 '.' hm) (by decide)
    next => cases h

theorem brokerTopic_toList (ns name : String) : (brokerTopic ns name).toList =
    "knative-broker-".toList ++ (ns.toList ++ '-' :: name.toList) := by
  have ht : brokerTopic ns name = "knative-broker-" ++ ns ++ "-" ++ name := rfl
  rw [ht, toList_hyphen, String.toList_append, List.append_assoc]

theorem triggerConsumerGroup_toList (ns name : String) : (triggerConsumerGroup ns name).toList =
    "knative-trigger-".toList ++ (ns.toList ++ '-' :: name.toList) := by
  have ht : triggerConsumerGroup ns name = "knative-trigger-" ++ ns ++ "-" ++ name := rfl
  rw [ht, toList_hyphen, String.toList_append, List.append_assoc]

theorem channelTopic_toList (ns name : String) : (channelTopic ns name).toList =
    "knative-messaging-kafka.".toList ++ (ns.toList ++ '.' :: name.toList) := by
  have ht : channelTopic ns name = "knative-messaging-kafka." ++ ns ++ "." ++ name := rfl
  rw [ht, String.toList_append, String.toList_append, String.toList_append, List.append_assoc,
    List.append_assoc]
  rfl

theorem brokerTopic_eq_iff :
    brokerTopic ns name = brokerTopic ns' name' ↔ ReadAlike ns name ns' name' := by
  rw [← String.toList_inj, brokerTopic_toList, brokerTopic_toList, List.append_cancel_left_eq,
    readAlike_iff]

theorem triggerConsumerGroup_eq_iff :
    triggerConsumerGroup ns name = triggerConsumerGroup ns' name' ↔
      ReadAlike ns name ns' name' := by
  rw [← String.toList_inj, triggerConsumerGroup_toList, triggerConsumerGroup_toList,
    List.append_cancel_left_eq, readAlike_iff]

theorem channelTopic_eq_iff (h : checkName ns = none) (h' : checkName ns' = none) :
    channelTopic ns name = channelTopic ns' name' ↔ ns = ns' ∧ name = name' := by
  rw [← String.toList_inj, channelTopic_toList, channelTopic_toList, List.append_cancel_left_eq,
    append_separator_eq_iff, String.toList_inj, String.toList_inj]
  constructor
  · rintro (he | ⟨part, hn, -⟩ | ⟨part, hn, -⟩)
    · exact he
    · have hd := dot_not_mem_of_label h'
      rw [hn] at hd
      exact absurd (List.mem_append_right _ List.mem_cons_self) hd
    · have hd := dot_not_mem_of_label h
      rw [hn] at hd
      exact absurd (List.mem_append_right _ List.mem_cons_self) hd
  · exact .inl

theorem brokerTopic_ne_channelTopic : brokerTopic ns name ≠ channelTopic ns' name' := by
  intro h
  have hc := congrArg (fun s => s.toList[8]?) h
  simp only [brokerTopic_toList, channelTopic_toList] at hc
  cases hc

namespace RoutingManifest

variable {m m' : RoutingManifest} {ctx ctx' : FragmentContext} {uid uid' : String}
  {r r' : Resource} {a a' : Address}

theorem topics_of_leavesTopic (h : m.LeavesTopic) (hm : m.IsAt ns name)
    (hc : m.contribution ctx uid = .resource r a) :
    (m.kind = .broker ∧ r.topics = [brokerTopic ns name]) ∨
      (m.kind = .channel ∧ r.topics = [channelTopic ns name]) := by
  obtain ⟨rfl, rfl⟩ := hm
  cases m with
  | broker m =>
    have ht : m.spec.topic? = none := h
    cases hc
    refine .inl ⟨rfl, ?_⟩
    rw [FragmentContext.brokerResource, ht]
    rfl
  | channel m =>
    have ht : m.spec.topic? = none := h
    cases hc
    refine .inr ⟨rfl, ?_⟩
    rw [FragmentContext.channelResource, ht]
    rfl
  | trigger m => exact h.elim
  | sink m => exact h.elim

theorem topics_eq_iff (hns : checkName ns = none) (hns' : checkName ns' = none)
    (h : m.LeavesTopic) (hm : m.IsAt ns name) (hc : m.contribution ctx uid = .resource r a)
    (h' : m'.LeavesTopic) (hm' : m'.IsAt ns' name')
    (hc' : m'.contribution ctx' uid' = .resource r' a') :
    r.topics = r'.topics ↔
      (m.kind = .broker ∧ m'.kind = .broker ∧ ReadAlike ns name ns' name') ∨
        (m.kind = .channel ∧ m'.kind = .channel ∧ ns = ns' ∧ name = name') := by
  have hone (s t : String) : [s] = [t] ↔ s = t := by simp
  rcases topics_of_leavesTopic h hm hc with ⟨hk, ht⟩ | ⟨hk, ht⟩
  · rcases topics_of_leavesTopic h' hm' hc' with ⟨hk', ht'⟩ | ⟨hk', ht'⟩
    · rw [ht, ht', hone, brokerTopic_eq_iff, hk, hk']
      simp
    · rw [ht, ht', hone, hk, hk']
      simp [brokerTopic_ne_channelTopic]
  · rcases topics_of_leavesTopic h' hm' hc' with ⟨hk', ht'⟩ | ⟨hk', ht'⟩
    · rw [ht, ht', hone, hk, hk']
      simp [brokerTopic_ne_channelTopic.symm]
    · rw [ht, ht', hone, channelTopic_eq_iff hns hns', hk, hk']
      simp

end RoutingManifest

theorem sameIdentity_iff {b c : GroupBinding} : b.sameIdentity c = true ↔
    b.groupId = c.groupId ∧ b.topics = c.topics ∧ b.bootstrapServers = c.bootstrapServers := by
  rw [GroupBinding.sameIdentity, Bool.and_eq_true, Bool.and_eq_true, beq_iff_eq, beq_iff_eq,
    beq_iff_eq, and_assoc]

/-- Two places share the names of their brokers and triggers exactly if they read alike, and those
of their channels only if they are one place. -/
theorem shared_names_iff (h : AreLabels ns name) (h' : AreLabels ns' name') :
    (channelTopic ns name = channelTopic ns' name' ↔ ns = ns' ∧ name = name') ∧
    (brokerTopic ns name = brokerTopic ns' name' ↔ ReadAlike ns name ns' name') ∧
    (triggerConsumerGroup ns name = triggerConsumerGroup ns' name' ↔
      ReadAlike ns name ns' name') ∧
    (∀ m m' : RoutingManifest, m.LeavesTopic → m.IsAt ns name → m'.LeavesTopic →
      m'.IsAt ns' name' → ∀ ctx ctx' uid uid' r r' a a',
      m.contribution ctx uid = .resource r a → m'.contribution ctx' uid' = .resource r' a' →
        (r.topics = r'.topics ↔
          (m.kind = .broker ∧ m'.kind = .broker ∧ ReadAlike ns name ns' name') ∨
            (m.kind = .channel ∧ m'.kind = .channel ∧ ns = ns' ∧ name = name'))) ∧
    ∀ (t t' : Manifest TriggerSpec) (uid uid' : String)
      (broker? broker?' : Option (Manifest BrokerSpec)) (ctx ctx' : FragmentContext),
      let b := t.desiredBinding ⟨ns, name, uid⟩ broker? ctx
      let b' := t'.desiredBinding ⟨ns', name', uid'⟩ broker?' ctx'
      (b.sameIdentity b' = true ↔ ReadAlike ns name ns' name' ∧ b.topics = b'.topics ∧
        b.bootstrapServers = b'.bootstrapServers) := by
  refine ⟨channelTopic_eq_iff h.1 h'.1, brokerTopic_eq_iff, triggerConsumerGroup_eq_iff, ?_, ?_⟩
  · intro m m' hl hm hl' hm' ctx ctx' uid uid' r r' a a' hc hc'
    exact RoutingManifest.topics_eq_iff h.1 h'.1 hl hm hc hl' hm' hc'
  · intro t t' uid uid' broker? broker?' ctx ctx' b b'
    rw [sameIdentity_iff]
    exact and_congr_left' triggerConsumerGroup_eq_iff

theorem shared_names_iff_of_hyphen :
    AreLabels "a" "b-c" ∧ AreLabels "a-b" "d" ∧
      brokerTopic "a" "b-c" ≠ brokerTopic "a-b" "d" ∧
      triggerConsumerGroup "a" "b-c" ≠ triggerConsumerGroup "a-b" "d" := by
  have h : AreLabels "a" "b-c" := by decide +kernel
  have h' : AreLabels "a-b" "d" := by decide +kernel
  have hr : ¬ReadAlike "a" "b-c" "a-b" "d" := by
    rw [readAlike_iff]
    decide
  obtain ⟨-, hb, ht, -⟩ := shared_names_iff h h'
  exact ⟨h, h', mt hb.mp hr, mt ht.mp hr⟩

/-- The brokers at `a/b-c` and at `a-b/c` share a topic, and their triggers of the same names share
a consumer group. -/
theorem hyphen_shares_names :
    let metadata (ns name : String) : Metadata := { name? := some name, ns? := some ns }
    let broker (ns name : String) : Manifest BrokerSpec := ⟨metadata ns name, {}, none⟩
    let trigger (ns name : String) : Manifest TriggerSpec :=
      ⟨metadata ns name, { broker := name, subscriber := "http://s" }, none⟩
    let ctx : FragmentContext := { bootstrapServers := "kafka:9092" }
    let topics (ns name uid : String) : List String :=
      match (RoutingManifest.broker (broker ns name)).contribution ctx uid with
      | .resource r _ => r.topics
      | .egress _ _ => []
    let binding (ns name uid : String) : GroupBinding :=
      (trigger ns name).desiredBinding ⟨ns, name, uid⟩ (some (broker ns name)) ctx
    AreLabels "a" "b-c" ∧ AreLabels "a-b" "c" ∧ ("a", "b-c") ≠ ("a-b", "c") ∧
      brokerTopic "a" "b-c" = brokerTopic "a-b" "c" ∧
      triggerConsumerGroup "a" "b-c" = triggerConsumerGroup "a-b" "c" ∧
      topics "a" "b-c" "u" = topics "a-b" "c" "v" ∧ topics "a" "b-c" "u" ≠ [] ∧
      (binding "a" "b-c" "u").sameIdentity (binding "a-b" "c" "v") = true := by
  decide +kernel

/-- The second name is the first one with the suffix of services, and too long for another
suffix. -/
def Shadows (name name' : String) : Prop :=
  name' = name ++ channelServiceSuffix ∧
    maxNameLength < byteLength name' + byteLength channelServiceSuffix

/-- Channels of these names have one service in a namespace. -/
def SharesService (name name' : String) : Prop :=
  name = name' ∨ Shadows name name' ∨ Shadows name' name

instance (name name' : String) : Decidable (SharesService name name') :=
  inferInstanceAs (Decidable (_ ∨ (_ ∧ _) ∨ (_ ∧ _)))

/-- The host by which receivers are to tell a resource from others. -/
def Fragment.host? (f : Fragment) : Option String :=
  match f.contribution with
  | .resource r _ => r.ingress?.bind (·.host?)
  | .egress _ _ => none

theorem byteLength_append (s t : String) : byteLength (s ++ t) = byteLength s + byteLength t := by
  rw [byteLength, Utf8.bytes, String.toList_append, Utf8.encode, List.flatMap_append,
    List.length_append]
  rfl

theorem byteLength_of_label {s : String} (h : checkName s = none) :
    byteLength s ≤ maxNameLength := by
  rw [checkName] at h
  split at h
  next => cases h
  next hl => exact Nat.le_of_not_lt hl

theorem channelServiceName_cases (name : String) :
    (byteLength name + byteLength channelServiceSuffix ≤ maxNameLength ∧
        channelServiceName name = name ++ channelServiceSuffix) ∨
      (maxNameLength < byteLength name + byteLength channelServiceSuffix ∧
        channelServiceName name = name) := by
  by_cases h : byteLength name + byteLength channelServiceSuffix ≤ maxNameLength
  · exact .inl ⟨h, if_pos h⟩
  · exact .inr ⟨Nat.lt_of_not_le h, if_neg h⟩

theorem byteLength_channelServiceName (h : byteLength name ≤ maxNameLength) :
    byteLength (channelServiceName name) ≤ maxNameLength := by
  rcases channelServiceName_cases name with ⟨hf, he⟩ | ⟨-, he⟩
  · rw [he, byteLength_append]
    exact hf
  · rw [he]
    exact h

theorem not_shadows_of_fits
    (h : byteLength name' + byteLength channelServiceSuffix ≤ maxNameLength) :
    ¬Shadows name name' :=
  fun hs => Nat.not_lt_of_le h hs.2

theorem channelServiceName_eq_iff (h : byteLength name ≤ maxNameLength)
    (h' : byteLength name' ≤ maxNameLength) :
    channelServiceName name = channelServiceName name' ↔ SharesService name name' := by
  rw [SharesService]
  rcases channelServiceName_cases name with ⟨hf, he⟩ | ⟨hf, he⟩
  · rcases channelServiceName_cases name' with ⟨hf', he'⟩ | ⟨hf', he'⟩
    · rw [he, he', String.append_left_inj]
      exact ⟨.inl, fun hs => hs.resolve_right fun hs =>
        hs.elim (not_shadows_of_fits hf') (not_shadows_of_fits hf)⟩
    · rw [he, he']
      constructor
      · rintro rfl
        exact .inr (.inl ⟨rfl, hf'⟩)
      · rintro (rfl | hs | hs)
        · exact absurd hf (Nat.not_le_of_lt hf')
        · exact hs.1.symm
        · exact absurd hs (not_shadows_of_fits hf)
  · rcases channelServiceName_cases name' with ⟨hf', he'⟩ | ⟨hf', he'⟩
    · rw [he, he']
      constructor
      · rintro rfl
        exact .inr (.inr ⟨rfl, hf⟩)
      · rintro (rfl | hs | hs)
        · exact absurd hf' (Nat.not_le_of_lt hf)
        · exact absurd hs (not_shadows_of_fits hf')
        · exact hs.1
    · -- Neither has the suffix, so one that ends in the other and the suffix is too long.
      rw [he, he']
      refine ⟨.inl, fun hs => hs.resolve_right ?_⟩
      rintro (⟨rfl, -⟩ | ⟨rfl, -⟩)
      · rw [byteLength_append] at h'
        exact Nat.not_le_of_lt hf h'
      · rw [byteLength_append] at h
        exact Nat.not_le_of_lt hf' h

theorem dot_not_mem_channelServiceName (h : checkName name = none) :
    '.' ∉ (channelServiceName name).toList := by
  rcases channelServiceName_cases name with ⟨-, he⟩ | ⟨-, he⟩
  · rw [he, String.toList_append, List.mem_append]
    rintro (hm | hm)
    · exact dot_not_mem_of_label h hm
    · exact absurd hm (by decide)
  · rw [he]
    exact dot_not_mem_of_label h

theorem serviceHostname_toList (service ns domain : String) :
    (serviceHostname service ns domain).toList =
      service.toList ++ '.' :: (ns.toList ++ '.' :: ("svc.".toList ++ domain.toList)) := by
  have hs : serviceHostname service ns domain = service ++ "." ++ ns ++ ".svc." ++ domain := rfl
  simp only [hs, String.toList_append, List.append_assoc]
  rfl

theorem append_separator_inj {α : Type} {sep : α} {l r l' r' : List α} (h : sep ∉ l)
    (h' : sep ∉ l') (he : l ++ sep :: r = l' ++ sep :: r') : l = l' ∧ r = r' := by
  rcases append_separator_eq_iff.mp he with he | ⟨part, rfl, -⟩ | ⟨part, rfl, -⟩
  · exact he
  · exact absurd (List.mem_append_right _ List.mem_cons_self) h'
  · exact absurd (List.mem_append_right _ List.mem_cons_self) h

theorem serviceHostname_eq_iff {service service' domain : String}
    (hs : '.' ∉ service.toList) (hs' : '.' ∉ service'.toList)
    (hns : ns = ns' ∨ checkName ns = none ∧ checkName ns' = none) :
    serviceHostname service ns domain = serviceHostname service' ns' domain ↔
      ns = ns' ∧ service = service' := by
  constructor
  · intro he
    rw [← String.toList_inj, serviceHostname_toList, serviceHostname_toList] at he
    obtain ⟨hservice, hrest⟩ := append_separator_inj hs hs' he
    refine ⟨?_, String.toList_inj.mp hservice⟩
    rcases hns with hns | ⟨hn, hn'⟩
    · exact hns
    · exact String.toList_inj.mp
        (append_separator_inj (dot_not_mem_of_label hn) (dot_not_mem_of_label hn') hrest).1
  · rintro ⟨rfl, rfl⟩
    rfl

theorem RoutingManifest.host_of_channel {m : Manifest ChannelSpec} {ctx : FragmentContext}
    {f : Fragment} (hm : (RoutingManifest.channel m).IsAt ns name)
    (hf : (RoutingManifest.channel m).fragment ctx = .ok f) :
    f.host? = some (serviceHostname (channelServiceName name) ns ctx.ingress.clusterDomain) := by
  obtain ⟨rfl, rfl⟩ := hm
  rw [Fragment.host?, (RoutingManifest.fragment_eq hf).2]
  rfl

/-- Two channels have one service exactly if they have one name, or one name is the other with the
suffix and leaves no room for another suffix. -/
theorem shared_hosts_iff (h : checkName name = none) (h' : checkName name' = none) :
    byteLength (channelServiceName name) ≤ maxNameLength ∧
    byteLength (channelServiceName name') ≤ maxNameLength ∧
    (channelServiceName name = channelServiceName name' ↔ SharesService name name') ∧
    ∀ ns ns' : String, (ns = ns' ∨ checkName ns = none ∧ checkName ns' = none) →
      ∀ m m' : Manifest ChannelSpec, (RoutingManifest.channel m).IsAt ns name →
        (RoutingManifest.channel m').IsAt ns' name' → ∀ ctx f f',
        (RoutingManifest.channel m).fragment ctx = .ok f →
        (RoutingManifest.channel m').fragment ctx = .ok f' →
        ∃ host host', f.host? = some host ∧ f'.host? = some host' ∧
          (host = host' ↔ ns = ns' ∧ SharesService name name') := by
  have hl := byteLength_of_label h
  have hl' := byteLength_of_label h'
  have hs := channelServiceName_eq_iff hl hl'
  refine ⟨byteLength_channelServiceName hl, byteLength_channelServiceName hl', hs, ?_⟩
  intro ns ns' hns m m' hm hm' ctx f f' hf hf'
  refine ⟨_, _, RoutingManifest.host_of_channel hm hf, RoutingManifest.host_of_channel hm' hf', ?_⟩
  rw [serviceHostname_eq_iff (dot_not_mem_channelServiceName h) (dot_not_mem_channelServiceName h')
    hns, hs]

/-- A name of letters. -/
def letters (n : Nat) : String := .ofList (List.replicate n 'c')

def lettersChannel (n : Nat) (suffix : String) : Manifest ChannelSpec :=
  ⟨{ name? := some (letters n ++ suffix), ns? := some "ns", uid? := some (letters n ++ suffix) },
    {},
    none⟩

theorem shared_hosts_iff_of_room :
    let long := lettersChannel 41 channelServiceSuffix
    let ctx : FragmentContext := { bootstrapServers := "kafka:9092" }
    ∃ f f' host host',
      (RoutingManifest.channel (lettersChannel 41 "")).fragment ctx = .ok f ∧
      (RoutingManifest.channel long).fragment ctx = .ok f' ∧
      f.host? = some host ∧ f'.host? = some host' ∧ host ≠ host' := by
  intro long ctx
  have h : checkName (letters 41 ++ "") = none := by decide +kernel
  have h' : checkName (letters 41 ++ channelServiceSuffix) = none := by decide +kernel
  have hn : ¬SharesService (letters 41 ++ "") (letters 41 ++ channelServiceSuffix) := by
    decide +kernel
  obtain ⟨host, host', hh, hh', hi⟩ := (shared_hosts_iff h h').2.2.2 "ns" "ns" (.inl rfl)
    (lettersChannel 41 "") long ⟨rfl, rfl⟩ ⟨rfl, rfl⟩ ctx _ _ rfl rfl
  exact ⟨_, _, host, host', rfl, rfl, hh, hh', fun he => hn (hi.mp he).2⟩

/-- The channel of 42 letters has the suffix, the one that is named like this goes without another
one, and both have one host. -/
theorem suffix_shares_hosts :
    let host? (suffix : String) : Option String :=
      ((RoutingManifest.channel (lettersChannel 42 suffix)).fragment
        { bootstrapServers := "kafka:9092" }).toOption.bind Fragment.host?
    checkName (letters 42) = none ∧ checkName (letters 42 ++ channelServiceSuffix) = none ∧
      letters 42 ≠ letters 42 ++ channelServiceSuffix ∧
      channelServiceName (letters 42) = channelServiceName (letters 42 ++ channelServiceSuffix) ∧
      (host? "").isSome = true ∧ host? "" = host? channelServiceSuffix := by
  decide +kernel

end EventRouting
