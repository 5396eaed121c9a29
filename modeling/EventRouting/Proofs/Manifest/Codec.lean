import EventRouting.Manifest.Codec
import EventRouting.Proofs.Json.Record

namespace EventRouting

open Json

theorem readUInt64_toNat (n : UInt64) : (Value.ofNat n.toNat).readUInt64 = .ok n := by
  have hn : (0 : Int) ≤ n.toNat ∧ (n.toNat : Int) ≤ 18446744073709551615 := by
    have hs : n.toNat < 18446744073709551616 := n.toNat_lt_size
    omega
  rw [Value.readUInt64, Value.ofNat, Value.readInt, if_pos hn]
  exact congrArg Except.ok UInt64.ofNat_toNat

theorem readOptionString_sorted (v : Value) :
    v.sorted.readOption Value.readString = v.readOption Value.readString := by
  cases v <;> rfl

theorem sortedItems_map {α : Type} (f : α → Value) (l : List α) :
    Value.sortedItems (l.map f) = l.map fun a => (f a).sorted := by
  induction l with
  | nil => rfl
  | cons a l ih => rw [List.map_cons, Value.sortedItems, ih, List.map_cons]

theorem mapM_reader {α : Type} {reader : Reader Value α} {f : α → Value}
    (h : ∀ a, reader (f a) = .ok a) (l : List α) : (l.map f).mapM reader = .ok l := by
  induction l with
  | nil => rfl
  | cons a l ih =>
    rw [List.map_cons, List.mapM_cons, h, ih]
    rfl

theorem Condition.read_sorted (c : Condition) :
    Condition.record.ofValue c.toValue.sorted = .ok c := by
  have hs : c.toValue.sorted = .object [("lastTransitionTime", .string c.lastTransitionTime),
      ("message", .string c.message), ("reason", .string c.reason), ("status", .string c.status),
      ("type", .string c.type)] := by
    rfl
  rw [hs]
  rfl

theorem readConditions_sorted (l : List Condition) :
    (Value.array (l.map Condition.toValue)).sorted.readList Condition.record.ofValue = .ok l := by
  rw [Value.sorted, sortedItems_map, Value.readList]
  exact mapM_reader Condition.read_sorted l

namespace RoutingStatus

def fields : List (RecordField Draft) :=
  [⟨"phase", Value.readString, (·.phase?)⟩, ⟨"message", Value.readString, (·.message?)⟩,
    ⟨"address", Value.readOption Value.readString, (·.address?)⟩,
    ⟨"observedGeneration", Value.readInt64, (·.observedGeneration?)⟩,
    ⟨"observedContractGeneration", Value.readUInt64, (·.observedContractGeneration?)⟩,
    ⟨"consumerGroup", Value.readOption Value.readString, (·.consumerGroup?)⟩,
    ⟨"conditions", Value.readList Condition.record.ofValue, (·.conditions?)⟩,
    ⟨"lastSyncTime", Value.readOption Value.readString, (·.lastSyncTime?)⟩]

theorem slotted : Slotted fields Draft.put where
  fills {d d' name v} h := by
    simp only [fields, List.forall_mem_cons]
    unfold Draft.put at h
    split at h
    case h_9 hp hm ha hg hc hk hl ht =>
      cases h
      simp [RecordField.Fills, if_neg hp, if_neg hm, if_neg ha, if_neg hg, if_neg hc, if_neg hk,
        if_neg hl, if_neg ht]
    all_goals
      obtain ⟨slot, hf, hd⟩ := ok_of_bind h
      obtain ⟨he, a, ha, rfl⟩ := fill_ok hf
      cases hd
      simp [RecordField.Fills, he, ha]
  total {d name v} h := by
    simp only [fields, List.forall_mem_cons] at h
    unfold Draft.put
    split
    case h_9 => exact ⟨_, rfl⟩
    all_goals
      simp at h
      obtain ⟨he, a, ha⟩ := h
      rw [he, ha]
      exact ⟨_, rfl⟩

variable {members : List (String × Value)} {s : RoutingStatus}

theorem slot_empty : ∀ f ∈ fields, f.slot {} = none := by
  simp [fields]

theorem ofValue_object (h : (members.map Prod.fst).Nodup) (s : RoutingStatus) :
    record.ofValue (.object members) = .ok s ↔
      readMember members "phase" Value.readString "" = .ok s.phase ∧
      readMember members "message" Value.readString "" = .ok s.message ∧
      readMember members "address" (Value.readOption Value.readString) none = .ok s.address? ∧
      readMember members "observedGeneration" Value.readInt64 0 = .ok s.observedGeneration ∧
      readMember members "observedContractGeneration" Value.readUInt64 0 =
        .ok s.observedContractGeneration ∧
      readMember members "consumerGroup" (Value.readOption Value.readString) none =
        .ok s.consumerGroup? ∧
      readMember members "conditions" (Value.readList Condition.record.ofValue) [] =
        .ok s.conditions ∧
      readMember members "lastSyncTime" (Value.readOption Value.readString) none =
        .ok s.lastSyncTime? := by
  have hr {d : Draft} (hd : putMembers Draft.put members {} = .ok d) :=
    fun f hf => (slotted.putMembers_fills h hd f hf).readMember (slot_empty f hf)
  rw [Record.ofValue_object]
  constructor
  · intro hs
    obtain ⟨d, hd, hf⟩ := ok_of_bind hs
    cases hf
    have hr := hr hd
    simp only [fields, List.forall_mem_cons] at hr
    obtain ⟨hp, hm, ha, hg, hc, hk, hl, ht, -⟩ := hr
    exact ⟨hp _, hm _, ha _, hg _, hc _, hk _, hl _, ht _⟩
  · rintro ⟨hp, hm, ha, hg, hc, hk, hl, ht⟩
    obtain ⟨d, hd⟩ := slotted.exists_putMembers h (d := {}) (by
      intro f hf v hv
      refine ⟨slot_empty f hf, ?_⟩
      revert v
      revert f
      simp only [fields, List.forall_mem_cons]
      exact ⟨fun v => exists_of_readMember hp, fun v => exists_of_readMember hm,
        fun v => exists_of_readMember ha, fun v => exists_of_readMember hg,
        fun v => exists_of_readMember hc, fun v => exists_of_readMember hk,
        fun v => exists_of_readMember hl, fun v => exists_of_readMember ht,
        fun _ hm => absurd hm List.not_mem_nil⟩)
    have hr := hr hd
    simp only [fields, List.forall_mem_cons] at hr
    obtain ⟨rp, rm, ra, rg, rc, rk, rl, rt, -⟩ := hr
    obtain ⟨phase, message, address?, observedGeneration, observedContractGeneration,
      consumerGroup?, conditions, lastSyncTime?⟩ := s
    cases (rp "").symm.trans hp
    cases (rm "").symm.trans hm
    cases (ra none).symm.trans ha
    cases (rg 0).symm.trans hg
    cases (rc 0).symm.trans hc
    cases (rk none).symm.trans hk
    cases (rl []).symm.trans hl
    cases (rt none).symm.trans ht
    exact (congrArg (· >>= record.finish) hd).trans rfl

/-- A status as it stands after it was merged into the previous one. Members that it leaves out
stay. -/
def onto (s : RoutingStatus) (previous? : Option RoutingStatus) : RoutingStatus :=
  { s with
    address? := s.address?.or (previous?.bind (·.address?))
    consumerGroup? := s.consumerGroup?.or (previous?.bind (·.consumerGroup?))
    lastSyncTime? := s.lastSyncTime?.or (previous?.bind (·.lastSyncTime?)) }

theorem read_previous {v : Value} {previous? : Option RoutingStatus}
    (ho : Alphabetical v.members) (ha : ∀ items, v ≠ .array items)
    (h : v.readOption record.ofValue = .ok previous?) :
    readMember v.members "address" (Value.readOption Value.readString) none =
        .ok (previous?.bind (·.address?)) ∧
      readMember v.members "consumerGroup" (Value.readOption Value.readString) none =
        .ok (previous?.bind (·.consumerGroup?)) ∧
      readMember v.members "lastSyncTime" (Value.readOption Value.readString) none =
        .ok (previous?.bind (·.lastSyncTime?)) := by
  cases v with
  | null =>
    cases h
    exact ⟨rfl, rfl, rfl⟩
  | object members =>
    cases hp : record.ofValue (.object members) with
    | error e =>
      rw [Value.readOption, hp] at h
      · cases h
      · intro hn
        cases hn
    | ok p =>
      rw [Value.readOption, hp] at h
      · cases h
        obtain ⟨_, _, ha, _, _, hk, _, ht⟩ := (ofValue_object ho.nodup p).mp hp
        exact ⟨ha, hk, ht⟩
      · intro hn
        cases hn
  | array items => exact absurd rfl (ha items)
  | _ => cases h

def entries (s : RoutingStatus) : List (String × Option Value) :=
  [("phase", some (.string s.phase)), ("message", some (.string s.message)),
    ("address", s.address?.map .string), ("observedGeneration", some (.int s.observedGeneration)),
    ("observedContractGeneration", some (.ofNat s.observedContractGeneration.toNat)),
    ("consumerGroup", s.consumerGroup?.map .string),
    ("conditions", some (.array (s.conditions.map Condition.toValue))),
    ("lastSyncTime", s.lastSyncTime?.map .string)]

theorem entries_nodup (s : RoutingStatus) : (s.entries.map Prod.fst).Nodup := by
  change List.Nodup ["phase", "message", "address", "observedGeneration",
    "observedContractGeneration", "consumerGroup", "conditions", "lastSyncTime"]
  decide

theorem entries_ne_null (s : RoutingStatus) :
    ∀ m ∈ (Value.record s.entries).members, m.2 ≠ .null := by
  have hs (s? : Option String) : ∀ v, s?.map Value.string = some v → v ≠ .null := by
    intro v hv
    obtain ⟨_, _, rfl⟩ := Option.map_eq_some_iff.mp hv
    exact Value.noConfusion
  refine Value.forall_mem_record (p := (· ≠ .null)) ?_
  simp only [entries, List.forall_mem_cons, Option.some.injEq, forall_eq']
  exact ⟨Value.noConfusion, Value.noConfusion, hs _, Value.noConfusion, Value.noConfusion, hs _,
    Value.noConfusion, hs _, fun _ hm => absurd hm List.not_mem_nil⟩

def merged (v : Value) (s : RoutingStatus) : List (String × Value) :=
  Value.sortedMembers (Value.mergeMembers v.members (Value.record s.entries).members)

theorem merge_sorted (v : Value) (s : RoutingStatus) :
    (v.merge s.toValue).sorted = .object (merged v s) := rfl

theorem lookup_merged (v : Value) (s : RoutingStatus) (k : String) :
    (merged v s).lookup k =
      (match (s.entries.lookup k).join with
        | none => v.members.lookup k
        | some w => some (((v.members.lookup k).getD .null).merge w)).map Value.sorted := by
  have hm := Value.lookup_mergeMembers_of_nodup (Value.record_nodup s.entries_nodup)
    s.entries_ne_null v.members k
  rw [← Value.get?_eq, Value.get?_record s.entries_nodup] at hm
  exact (Value.lookup_sortedMembers _ k).trans (congrArg (Option.map Value.sorted) hm)

theorem readMember_merged {v : Value} {s : RoutingStatus} {name : String} {s? t? : Option String}
    (hs : s.entries.lookup name = some (s?.map .string))
    (ht : readMember v.members name (Value.readOption Value.readString) none = .ok t?) :
    readMember (merged v s) name (Value.readOption Value.readString) none = .ok (s?.or t?) := by
  rw [readMember, lookup_merged, hs]
  cases s? with
  | some text => rfl
  | none =>
    rw [readMember] at ht
    cases hl : v.members.lookup name with
    | none =>
      rw [hl] at ht
      exact ht
    | some w =>
      rw [hl] at ht
      exact (readOptionString_sorted w).trans ht

/-- The status that stands after a merge. -/
theorem ofValue_merge {v : Value} {previous? : Option RoutingStatus} (s : RoutingStatus)
    (ho : Alphabetical v.members) (ha : ∀ items, v ≠ .array items)
    (h : v.readOption record.ofValue = .ok previous?)
    (hg : (Value.int s.observedGeneration).readInt64 = .ok s.observedGeneration) :
    record.ofValue (v.merge s.toValue).sorted = .ok (s.onto previous?) := by
  have hn : ((merged v s).map Prod.fst).Nodup := (Value.sortedMembers_inOrder _).nodup
  obtain ⟨hra, hrk, hrt⟩ := read_previous ho ha h
  rw [merge_sorted, ofValue_object hn]
  refine ⟨?_, ?_, readMember_merged rfl hra, ?_, ?_, readMember_merged rfl hrk, ?_,
    readMember_merged rfl hrt⟩
  · rw [readMember, lookup_merged]
    rfl
  · rw [readMember, lookup_merged]
    rfl
  · rw [readMember, lookup_merged]
    exact hg
  · rw [readMember, lookup_merged]
    exact readUInt64_toNat _
  · rw [readMember, lookup_merged]
    exact readConditions_sorted _

end RoutingStatus

/-- The generation of an object is an integer of 64 bits. -/
def Metadata.Ranged (m : Metadata) : Prop :=
  (Value.int (m.generation?.getD 0)).readInt64 = .ok (m.generation?.getD 0)

theorem readInt64_range {v : Value} {i : Int} (h : v.readInt64 = .ok i) :
    (Value.int i).readInt64 = .ok i := by
  cases v with
  | int j =>
    have hj : Value.readInt64 (.int j) = .ok i := h
    rw [Value.readInt64, Value.readInt] at hj
    split at hj
    next => exact Except.ok.inj hj ▸ h
    next => cases hj
  | _ => cases h

theorem Metadata.Ranged.put {m m' : Metadata} {name : String} {v : Value} (hm : m.Ranged)
    (h : m.put name v = .ok m') : m'.Ranged := by
  unfold Metadata.put at h
  split at h
  case h_5 =>
    obtain ⟨g, hg, hr⟩ := ok_of_bind h
    cases hr
    cases v with
    | null =>
      cases hg
      rfl
    | int i =>
      obtain ⟨j, hj, hi⟩ := ok_of_bind (f := fun j => .ok (some j)) hg
      cases hi
      exact readInt64_range hj
    | _ => cases hg
  case h_16 =>
    cases h
    exact hm
  all_goals
    obtain ⟨a, _, hr⟩ := ok_of_bind h
    cases hr
    exact hm

theorem Metadata.ofValue_ranged {m : Metadata} {v : Value} (h : Metadata.ofValue v = .ok m) :
    m.Ranged := by
  cases v with
  | object members =>
    have hp : putMembers Metadata.put members {} = .ok m := h
    have he : Metadata.Ranged {} := rfl
    exact putMembers_invariant Metadata.Ranged.put he hp
  | _ => cases h

namespace Manifest

variable {σ : Type} {members : List (String × Value)}

def fields (spec : Reader Value σ) : List (RecordField (Draft σ)) :=
  [⟨"metadata", Metadata.ofValue, (·.metadata?)⟩, ⟨"spec", spec, (·.spec?)⟩,
    ⟨"status", Value.readOption RoutingStatus.record.ofValue, (·.status?)⟩]

theorem slotted (kind : String) (spec : Reader Value σ) :
    Slotted (fields spec) (record kind spec).put where
  fills {d d' name v} h := by
    simp only [fields, List.forall_mem_cons]
    unfold record at h
    dsimp only at h
    split at h
    case h_4 hm hp hs =>
      cases h
      simp [RecordField.Fills, if_neg hm, if_neg hp, if_neg hs]
    all_goals
      obtain ⟨slot, hf, hd⟩ := ok_of_bind h
      obtain ⟨he, a, ha, rfl⟩ := fill_ok hf
      cases hd
      simp [RecordField.Fills, he, ha]
  total {d name v} h := by
    simp only [fields, List.forall_mem_cons] at h
    unfold record
    dsimp only
    split
    case h_4 => exact ⟨_, rfl⟩
    all_goals
      simp at h
      obtain ⟨he, a, ha⟩ := h
      rw [he, ha]
      exact ⟨_, rfl⟩

theorem ofValue_object (h : (members.map Prod.fst).Nodup) (kind : String) (spec : Reader Value σ)
    (m : Manifest σ) :
    (record kind spec).ofValue (.object members) = .ok m ↔
      (∃ v, members.lookup "metadata" = some v ∧ Metadata.ofValue v = .ok m.metadata) ∧
      (∃ v, members.lookup "spec" = some v ∧ spec v = .ok m.spec) ∧
      readMember members "status" (Value.readOption RoutingStatus.record.ofValue) none =
        .ok m.status? := by
  have hf {d : Draft σ} (hd : putMembers (record kind spec).put members {} = .ok d) :=
    (slotted kind spec).putMembers_fills h hd
  simp only [fields, List.forall_mem_cons] at hf
  rw [Record.ofValue_object]
  constructor
  · intro ho
    obtain ⟨d, hd, hm⟩ := ok_of_bind ho
    obtain ⟨hfm, hfs, hft, -⟩ := hf hd
    obtain ⟨metadata, hmd, hm⟩ := ok_of_bind hm
    obtain ⟨spec, hsp, hm⟩ := ok_of_bind hm
    cases hm
    exact ⟨hfm.exists_of_slot rfl (require_ok hmd), hfs.exists_of_slot rfl (require_ok hsp),
      hft.readMember rfl none⟩
  · rintro ⟨⟨v, hv, hm⟩, ⟨w, hw, hs⟩, ht⟩
    obtain ⟨d, hd⟩ := (slotted kind spec).exists_putMembers h (d := {}) (by
      simp only [fields, List.forall_mem_cons]
      refine ⟨fun u hu => ⟨trivial, ?_⟩, fun u hu => ⟨trivial, ?_⟩,
        fun u hu => ⟨trivial, exists_of_readMember ht hu⟩,
        fun _ hm => absurd hm List.not_mem_nil⟩
      · cases hv.symm.trans hu
        exact ⟨_, hm⟩
      · cases hw.symm.trans hu
        exact ⟨_, hs⟩)
    obtain ⟨hfm, hfs, hft, -⟩ := hf hd
    have hst : m.status? = d.status?.getD none :=
      Except.ok.inj (ht.symm.trans (hft.readMember rfl none))
    rw [hv] at hfm
    rw [hw] at hfs
    have hmd : d.metadata? = some m.metadata := hfm.slot_of_reader hm
    have hsp : d.spec? = some m.spec := hfs.slot_of_reader hs
    have hfin : (record kind spec).finish d = .ok m := by
      change (require d.metadata? "metadata" >>= fun metadata =>
        require d.spec? "spec" >>= fun spec => pure (Manifest.mk metadata spec _)) = _
      rw [hmd, hsp, ← hst]
      rfl
    exact (congrArg (· >>= (record kind spec).finish) hd).trans hfin

theorem ofValue_status {members' : List (String × Value)} {kind : String} {spec : Reader Value σ}
    {m : Manifest σ} {t : RoutingStatus} (hn : (members.map Prod.fst).Nodup)
    (hn' : (members'.map Prod.fst).Nodup)
    (h : (record kind spec).ofValue (.object members) = .ok m)
    (hk : ∀ name, name ≠ "status" → members'.lookup name = members.lookup name)
    (ht : readMember members' "status" (Value.readOption RoutingStatus.record.ofValue) none =
      .ok (some t)) :
    (record kind spec).ofValue (.object members') = .ok { m with status? := some t } := by
  obtain ⟨⟨v, hv, hm⟩, ⟨w, hw, hs⟩, _⟩ := (ofValue_object hn kind spec m).mp h
  rw [ofValue_object hn']
  exact ⟨⟨v, (hk _ (by decide)).trans hv, hm⟩, ⟨w, (hk _ (by decide)).trans hw, hs⟩, ht⟩

end Manifest

namespace RoutingManifest

/-- The object with another status. -/
def reporting (m : RoutingManifest) (t : RoutingStatus) : RoutingManifest :=
  match m with
  | .broker m => .broker { m with status? := some t }
  | .trigger m => .trigger { m with status? := some t }
  | .channel m => .channel { m with status? := some t }
  | .sink m => .sink { m with status? := some t }

@[simp] theorem reporting_metadata (m : RoutingManifest) (t : RoutingStatus) :
    (m.reporting t).metadata = m.metadata := by
  cases m <;> rfl

@[simp] theorem reporting_status (m : RoutingManifest) (t : RoutingStatus) :
    (m.reporting t).status? = some t := by
  cases m <;> rfl

theorem reporting_self {m : RoutingManifest} {t : RoutingStatus} (h : m.status? = some t) :
    m.reporting t = m := by
  cases m with
  | _ m =>
    obtain ⟨metadata, spec, status?⟩ := m
    obtain rfl : status? = some t := h
    rfl

variable {members : List (String × Value)} {kind : RoutingKind} {m : RoutingManifest}

theorem ofValue_ok (hn : (members.map Prod.fst).Nodup)
    (h : ofValue kind (.object members) = .ok m) :
    m.metadata.Ranged ∧
      readMember members "status" (Value.readOption RoutingStatus.record.ofValue) none =
        .ok m.status? := by
  have hr {σ : Type} {kind : String} {spec : Reader Value σ} {m : Manifest σ}
      (h : (Manifest.record kind spec).ofValue (.object members) = .ok m) :
      m.metadata.Ranged ∧
        readMember members "status" (Value.readOption RoutingStatus.record.ofValue) none =
          .ok m.status? := by
    obtain ⟨⟨v, _, hm⟩, _, hs⟩ := (Manifest.ofValue_object hn kind spec m).mp h
    exact ⟨Metadata.ofValue_ranged hm, hs⟩
  cases kind with
  | broker =>
    obtain ⟨m, hm, rfl⟩ := ok_of_map h
    exact hr hm
  | trigger =>
    obtain ⟨m, hm, rfl⟩ := ok_of_map h
    exact hr hm
  | channel =>
    obtain ⟨m, hm, rfl⟩ := ok_of_map h
    exact hr hm
  | sink =>
    obtain ⟨m, hm, rfl⟩ := ok_of_map h
    exact hr hm

theorem ofValue_reporting {members' : List (String × Value)} {t : RoutingStatus}
    (hn : (members.map Prod.fst).Nodup) (hn' : (members'.map Prod.fst).Nodup)
    (h : ofValue kind (.object members) = .ok m)
    (hk : ∀ name, name ≠ "status" → members'.lookup name = members.lookup name)
    (ht : readMember members' "status" (Value.readOption RoutingStatus.record.ofValue) none =
      .ok (some t)) :
    ofValue kind (.object members') = .ok (m.reporting t) := by
  cases kind with
  | broker =>
    obtain ⟨m, hm, rfl⟩ := ok_of_map h
    exact congrArg (broker <$> ·) (Manifest.ofValue_status hn hn' hm hk ht)
  | trigger =>
    obtain ⟨m, hm, rfl⟩ := ok_of_map h
    exact congrArg (trigger <$> ·) (Manifest.ofValue_status hn hn' hm hk ht)
  | channel =>
    obtain ⟨m, hm, rfl⟩ := ok_of_map h
    exact congrArg (channel <$> ·) (Manifest.ofValue_status hn hn' hm hk ht)
  | sink =>
    obtain ⟨m, hm, rfl⟩ := ok_of_map h
    exact congrArg (sink <$> ·) (Manifest.ofValue_status hn hn' hm hk ht)

end RoutingManifest

end EventRouting
