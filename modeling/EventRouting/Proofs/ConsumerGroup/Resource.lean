import EventRouting.ConsumerGroup.Resource
import EventRouting.Proofs.Cluster.Server
import EventRouting.Proofs.Manifest.Metadata

namespace EventRouting

open Json

namespace ConsumerGroupSpec

def fields : List (RecordField Draft) :=
  [⟨"groupId", Value.readString, (·.groupId?)⟩,
    ⟨"topics", Value.readList Value.readString, (·.topics?)⟩,
    ⟨"bootstrapServers", Value.readString, (·.bootstrapServers?)⟩,
    ⟨"subscriber", Value.readString, (·.subscriber?)⟩]

theorem slotted : Slotted fields Draft.put where
  fills {d d' name v} h := by
    simp only [fields, List.forall_mem_cons]
    unfold Draft.put at h
    split at h
    case h_5 hg ht hb hs =>
      cases h
      simp [RecordField.Fills, if_neg hg, if_neg ht, if_neg hb, if_neg hs]
    all_goals
      obtain ⟨slot, hf, hd⟩ := ok_of_bind h
      obtain ⟨he, a, ha, rfl⟩ := fill_ok hf
      cases hd
      simp [RecordField.Fills, he, ha]
  total {d name v} h := by
    simp only [fields, List.forall_mem_cons] at h
    unfold Draft.put
    split
    case h_5 => exact ⟨_, rfl⟩
    all_goals
      simp at h
      obtain ⟨he, a, ha⟩ := h
      rw [he, ha]
      exact ⟨_, rfl⟩

theorem ofValue_of_members {members : List (String × Value)} (hn : (members.map Prod.fst).Nodup)
    {s : ConsumerGroupSpec} (hg : members.lookup "groupId" = some (.string s.groupId))
    (ht : members.lookup "topics" = some (.strings s.topics))
    (hb : members.lookup "bootstrapServers" = some (.string s.bootstrapServers))
    (hs : members.lookup "subscriber" = some (.string s.subscriber)) :
    record.ofValue (.object members) = .ok s := by
  have htopics : (Value.strings s.topics).readList Value.readString = .ok s.topics :=
    mapM_reader (f := .string) (fun _ => rfl) s.topics
  obtain ⟨d, hd⟩ := slotted.exists_putMembers hn (d := {}) (by
    simp only [fields, List.forall_mem_cons]
    refine ⟨?_, ?_, ?_, ?_, fun _ hm => absurd hm List.not_mem_nil⟩
    · rw [hg]
      rintro _ ⟨⟩
      exact ⟨trivial, _, rfl⟩
    · rw [ht]
      rintro _ ⟨⟩
      exact ⟨trivial, _, htopics⟩
    · rw [hb]
      rintro _ ⟨⟩
      exact ⟨trivial, _, rfl⟩
    · rw [hs]
      rintro _ ⟨⟩
      exact ⟨trivial, _, rfl⟩)
  have hf := slotted.putMembers_fills hn hd
  simp only [fields, List.forall_mem_cons] at hf
  obtain ⟨fg, ft, fb, fs, -⟩ := hf
  rw [hg] at fg
  rw [ht] at ft
  rw [hb] at fb
  rw [hs] at fs
  have sg : d.groupId? = some s.groupId := fg.slot_of_reader rfl
  have st : d.topics? = some s.topics := ft.slot_of_reader htopics
  have sb : d.bootstrapServers? = some s.bootstrapServers := fb.slot_of_reader rfl
  have ss : d.subscriber? = some s.subscriber := fs.slot_of_reader rfl
  have hfin : record.finish d = .ok s := by
    change (require d.groupId? "groupId" >>= fun _ => _) = _
    rw [sg, st, sb, ss]
    rfl
  exact (congrArg (· >>= record.finish) hd).trans hfin

theorem ofValue_merge (v : Value) (s : ConsumerGroupSpec) :
    record.ofValue (v.merge s.toValue).sorted = .ok s := by
  have hn : (s.toValue.members.map Prod.fst).Nodup := by
    change ["groupId", "topics", "bootstrapServers", "subscriber"].Nodup
    decide
  have hc : ∀ c ∈ s.toValue.members, c.2 ≠ .null := by
    simp [toValue, Value.members, Value.strings]
  have hg := Value.get?_merge_sorted hn hc v
  refine ofValue_of_members (Value.sortedMembers_inOrder _).nodup (hg "groupId") ?_
    (hg "bootstrapServers") (hg "subscriber")
  refine (hg "topics").trans (congrArg some ?_)
  change Value.array (Value.sortedItems (s.topics.map .string)) = _
  rw [sortedItems_map]
  rfl

end ConsumerGroupSpec

namespace GroupBinding

variable {v : Value} {owner : TriggerRef}

/-- What an object says about a group: the uid of the trigger that it belongs to, if it bears one,
and the group itself. -/
def Told (v : Value) (uid? : Option String) (spec : ConsumerGroupSpec) : Prop :=
  (∃ m, Metadata.ofValue ((v.get? "metadata").getD .null) = .ok m ∧
    m.labels.lookup triggerUidLabel = uid?) ∧
  ConsumerGroupSpec.record.ofValue ((v.get? "spec").getD .null) = .ok spec

/-- The binding of an owner to a group. -/
def ofSpec (owner : TriggerRef) (spec : ConsumerGroupSpec) : GroupBinding :=
  ⟨owner, spec.groupId, spec.topics, spec.bootstrapServers, spec.subscriber⟩

theorem ofResource?_of_told {uid? : Option String} {spec : ConsumerGroupSpec}
    (h : Told v uid? spec) (owner : TriggerRef) :
    ofResource? owner v = .ok
      (if uid? = some owner.uid then some (ofSpec owner spec) else none) := by
  obtain ⟨⟨m, hm, rfl⟩, hs⟩ := h
  rw [ofResource?]
  dsimp only
  rw [hm, hs]
  by_cases hu : m.labels.lookup triggerUidLabel = some owner.uid
  · rw [if_pos hu]
    exact if_neg (not_not_intro hu)
  · rw [if_neg hu]
    exact if_pos hu

theorem told_of_ofResource? {b? : Option GroupBinding} (h : ofResource? owner v = .ok b?) :
    ∃ uid? spec, Told v uid? spec := by
  obtain ⟨m, hm, h⟩ := ok_of_bind h
  obtain ⟨spec, hs, _⟩ := ok_of_bind h
  exact ⟨_, spec, ⟨m, hm, rfl⟩, hs⟩

def labels (b : GroupBinding) : List (String × String) :=
  [(managedByLabel, fieldManager), (triggerUidLabel, b.owner.uid)]

def ownerEntry (b : GroupBinding) : Value :=
  .object [
    ("apiVersion", .string apiVersion),
    ("blockOwnerDeletion", .bool true),
    ("controller", .bool true),
    ("kind", .string RoutingKind.trigger.name),
    ("name", .string b.owner.name),
    ("uid", .string b.owner.uid)]

def metadata (b : GroupBinding) : List (String × Value) :=
  [("labels", .object (b.labels.map fun l => (l.1, .string l.2))),
    ("name", .string b.owner.name), ("namespace", .string b.owner.ns),
    ("ownerReferences", .array [b.ownerEntry])]

def members (b : GroupBinding) : List (String × Value) :=
  [("apiVersion", .string apiVersion), ("kind", .string ObjectKind.consumerGroup.name),
    ("metadata", .object b.metadata), ("spec", b.spec.toValue)]

variable {b : GroupBinding}

theorem labels_nodup (b : GroupBinding) : (b.labels.map Prod.fst).Nodup := by
  change [managedByLabel, triggerUidLabel].Nodup
  decide

theorem metadata_nodup (b : GroupBinding) : (b.metadata.map Prod.fst).Nodup := by
  change ["labels", "name", "namespace", "ownerReferences"].Nodup
  decide

theorem members_nodup (b : GroupBinding) : (b.members.map Prod.fst).Nodup := by
  change ["apiVersion", "kind", "metadata", "spec"].Nodup
  decide

/-- An object that a binding can be merged into: its members are in order, and if it has metadata,
this can be read. -/
structure Open (v : Value) : Prop where
  sorted : v.sorted = v
  metadata : ∀ w, v.get? "metadata" = some w → ∃ m, Metadata.ofValue w = .ok m

theorem Open.admits (h : Open v) {w : Value} (hw : v.get? "metadata" = some w) (k : String)
    (x : Value) (hx : w.get? k = some x) : Metadata.Admits k x := by
  obtain ⟨m, hm⟩ := h.metadata w hw
  obtain ⟨members, rfl, ha⟩ := Metadata.admits_of_ofValue hm
  exact ha _ (mem_of_lookup hx)

theorem exists_ofValue_metadata (hs : v.sorted = v)
    (ha : ∀ k w, v.get? k = some w → Metadata.Admits k w) (b : GroupBinding) :
    ∃ m, Metadata.ofValue (v.merge (.object b.metadata)).sorted = .ok m ∧
      m.labels.lookup triggerUidLabel = some b.owner.uid := by
  obtain ⟨labels, hl⟩ :
      ∃ labels, Metadata.readLabels ((v.get? "labels").getD .null) = .ok labels := by
    cases hv : v.get? "labels" with
    | none => exact ⟨[], rfl⟩
    | some w => exact Metadata.admits_labels_iff.mp (ha _ _ hv)
  obtain ⟨merged, hm, hk⟩ := Metadata.readLabels_merge hl b.labels_nodup
  have hc : ∀ c ∈ b.metadata, c.2 ≠ .null ∧
      Metadata.Admits c.1 (((v.get? c.1).getD .null).merge c.2).sorted := by
    simp only [GroupBinding.metadata, List.forall_mem_cons]
    refine ⟨⟨Value.noConfusion, Metadata.admits_labels_iff.mpr ⟨merged, hm⟩⟩,
      ⟨Value.noConfusion, {}, _, rfl⟩, ⟨Value.noConfusion, {}, _, rfl⟩,
      ⟨Value.noConfusion, {}, _, rfl⟩, fun _ hm => absurd hm List.not_mem_nil⟩
  obtain ⟨m, ho⟩ := Metadata.exists_ofValue_merge hs ha b.metadata_nodup hc
  refine ⟨m, ho, ?_⟩
  have hg : (Value.sortedMembers (Value.mergeMembers v.members b.metadata)).lookup "labels" = some
      (((v.get? "labels").getD .null).merge
        (.object (b.labels.map fun l => (l.1, .string l.2)))).sorted :=
    Value.get?_merge_sorted b.metadata_nodup (fun c h => (hc c h).1) v "labels"
  have hr := Metadata.readMember_labels (Value.sortedMembers_inOrder _).nodup ho
  rw [readMember, hg] at hr
  obtain rfl : m.labels = merged := Except.ok.inj (hr.symm.trans hm)
  exact hk _ _ rfl

/-- A binding that is merged into an open object is what the object says from then on. -/
theorem told_merge (h : Open v) (b : GroupBinding) :
    Told (v.merge b.toResource).sorted (some b.owner.uid) b.spec := by
  have hn : ∀ c ∈ b.members, c.2 ≠ .null := by
    simp [GroupBinding.members, ConsumerGroupSpec.toValue]
  have hg (k : String) := Value.get?_merge_sorted b.members_nodup hn v k
  have hmeta : (v.merge b.toResource).sorted.get? "metadata" =
      some (((v.get? "metadata").getD .null).merge (.object b.metadata)).sorted := hg "metadata"
  have hspec : (v.merge b.toResource).sorted.get? "spec" =
      some (((v.get? "spec").getD .null).merge b.spec.toValue).sorted := hg "spec"
  rw [Told, hmeta, hspec]
  refine ⟨?_, ConsumerGroupSpec.ofValue_merge _ b.spec⟩
  cases hv : v.get? "metadata" with
  | none =>
    refine exists_ofValue_metadata rfl (fun k w hw => ?_) b
    cases hw
  | some w => exact exists_ofValue_metadata (Value.sorted_of_get? h.sorted hv) (h.admits hv) b

theorem isReleased_merged (v : Value) (b : GroupBinding) :
    isReleased (v.merge b.toResource) = isReleased v := by
  have hb : "metadata" ∉ ["apiVersion", "kind"] := by decide
  have ha : "metadata" ∉ ["spec"] := by decide
  have hd : "deletionTimestamp" ∉ ["labels", "name", "namespace", "ownerReferences"] := by decide
  have hf : "finalizers" ∉ ["labels", "name", "namespace", "ownerReferences"] := by decide
  have hm := Value.get?_merge_of_mem (w := .object b.metadata)
    [("apiVersion", .string apiVersion), ("kind", .string ObjectKind.consumerGroup.name)]
    [("spec", b.spec.toValue)] hb ha Value.noConfusion v
  exact isReleased_merge hm hd hf

end GroupBinding

end EventRouting
