import EventRouting.Proofs.Manifest.Codec

namespace EventRouting

open Json

namespace Metadata

variable {m m' : Metadata} {name : String} {v : Value} {members : List (String × Value)}

/-- Metadata can have this member. -/
def Admits (name : String) (v : Value) : Prop := ∃ m m' : Metadata, m.put name v = .ok m'

/-- Whether a member can be read does not depend on those before it. -/
theorem Admits.put (h : Admits name v) (m : Metadata) : ∃ m', m.put name v = .ok m' := by
  obtain ⟨n, n', h⟩ := h
  unfold Metadata.put at h ⊢
  split at h
  case h_16 => exact ⟨m, rfl⟩
  all_goals
    obtain ⟨a, ha, _⟩ := ok_of_bind h
    exact ⟨_, congrArg (· >>= _) ha⟩

theorem admits_of_ofValue (h : ofValue v = .ok m) :
    ∃ members, v = .object members ∧ ∀ member ∈ members, Admits member.1 member.2 := by
  cases v with
  | object members =>
    have hp : putMembers Metadata.put members {} = .ok m := h
    exact ⟨members, rfl, exists_put hp⟩
  | _ => cases h

theorem exists_ofValue (h : ∀ member ∈ members, Admits member.1 member.2) :
    ∃ m, ofValue (.object members) = .ok m :=
  show ∃ m, putMembers Metadata.put members {} = .ok m from
    exists_putMembers (fun member hm d => (h member hm).put d) {}

def readLabels : Reader Value (List (String × String)) := fun v => do
  return (← v.readOption (Value.readMap Value.readString)).getD []

def readFinalizers : Reader Value (List String) := fun v => do
  return (← v.readOption (Value.readList Value.readString)).getD []

theorem put_of_ne (h : m.put name v = .ok m') :
    (name ≠ "labels" → m'.labels = m.labels) ∧
      (name ≠ "finalizers" → m'.finalizers = m.finalizers) ∧
      (name ≠ "resourceVersion" → m'.resourceVersion? = m.resourceVersion?) := by
  unfold Metadata.put at h
  split at h
  case h_6 | h_9 | h_11 =>
    obtain ⟨a, _, hr⟩ := ok_of_bind h
    cases hr
    simp
  case h_16 =>
    cases h
    exact ⟨fun _ => rfl, fun _ => rfl, fun _ => rfl⟩
  all_goals
    obtain ⟨a, _, hr⟩ := ok_of_bind h
    cases hr
    exact ⟨fun _ => rfl, fun _ => rfl, fun _ => rfl⟩

variable (hn : (members.map Prod.fst).Nodup) (h : ofValue (.object members) = .ok m)

include hn h

theorem readMember_labels : readMember members "labels" readLabels [] = .ok m.labels := by
  refine readMember_of_putMembers Metadata.put labels ?_
    (fun hk hv => (put_of_ne hv).1 hk) hn h
  intro d d' v hv
  obtain ⟨l, hl, hr⟩ := ok_of_bind hv
  cases hr
  exact congrArg (· >>= _) hl

theorem readMember_finalizers :
    readMember members "finalizers" readFinalizers [] = .ok m.finalizers := by
  refine readMember_of_putMembers Metadata.put finalizers ?_
    (fun hk hv => (put_of_ne hv).2.1 hk) hn h
  intro d d' v hv
  obtain ⟨l, hl, hr⟩ := ok_of_bind hv
  cases hr
  exact congrArg (· >>= _) hl

theorem readMember_resourceVersion :
    readMember members "resourceVersion" (Value.readOption Value.readString) none =
      .ok m.resourceVersion? := by
  refine readMember_of_putMembers Metadata.put resourceVersion? ?_
    (fun hk hv => (put_of_ne hv).2.2 hk) hn h
  intro d d' v hv
  obtain ⟨l, hl, hr⟩ := ok_of_bind hv
  cases hr
  exact hl

omit hn h

/-- Metadata can be read after a merge if each member that the patch names can be read. -/
theorem exists_ofValue_merge {changes : List (String × Value)} (hs : v.sorted = v)
    (ha : ∀ k w, v.get? k = some w → Admits k w) (hn : (changes.map Prod.fst).Nodup)
    (hc : ∀ c ∈ changes, c.2 ≠ .null ∧ Admits c.1 (((v.get? c.1).getD .null).merge c.2).sorted) :
    ∃ m, ofValue (v.merge (.object changes)).sorted = .ok m := by
  apply exists_ofValue
  intro (k, w) hm
  have hl := Value.get?_merge_sorted hn (fun c hm => (hc c hm).1) v k
  rw [Value.get?_eq] at hl
  have hw := (lookup_of_mem (Value.sortedMembers_inOrder _).nodup hm).symm.trans hl
  cases hk : changes.lookup k with
  | none =>
    rw [hk] at hw
    obtain ⟨x, hx, rfl⟩ := Option.map_eq_some_iff.mp hw.symm
    exact (Value.sorted_of_get? hs hx).symm ▸ ha k x hx
  | some x =>
    rw [hk] at hw
    exact Option.some.inj hw ▸ (hc _ (mem_of_lookup hk)).2

theorem admits_labels_iff : Admits "labels" v ↔ ∃ labels, readLabels v = .ok labels := by
  constructor
  · rintro ⟨m, m', h⟩
    obtain ⟨l, hl, _⟩ := ok_of_bind h
    exact ⟨_, congrArg (· >>= _) hl⟩
  · rintro ⟨labels, h⟩
    obtain ⟨l, hl, _⟩ := ok_of_bind h
    exact ⟨{}, _, congrArg (· >>= _) hl⟩

theorem readMap_ok_iff {labels : List (String × String)} :
    Value.readMap Value.readString (.object members) = .ok labels ↔
      members = labels.map fun l => (l.1, .string l.2) := by
  rw [Value.readMap]
  induction members generalizing labels with
  | nil => cases labels <;> simp [pure, Except.pure]
  | cons member members ih =>
    obtain ⟨name, v⟩ := member
    rw [List.mapM_cons]
    constructor
    · intro h
      obtain ⟨label, hv, h⟩ := ok_of_bind h
      obtain ⟨s, hs, hv⟩ := ok_of_bind hv
      obtain ⟨labels', hl, h⟩ := ok_of_bind h
      cases hv
      cases h
      obtain rfl : v = .string s := by
        cases v with
        | string t => cases hs; rfl
        | _ => cases hs
      rw [ih.mp hl, List.map_cons]
    · intro h
      cases labels with
      | nil => cases h
      | cons label labels =>
        obtain ⟨hv, hm⟩ := List.cons.inj h
        cases hv
        rw [ih.mpr hm]
        rfl

theorem string_of_readLabels {labels : List (String × String)} (h : readLabels v = .ok labels)
    {k : String} {w : Value} (hw : v.get? k = some w) : ∃ s, w = .string s := by
  cases v with
  | object members =>
    obtain ⟨l, hl, _⟩ := ok_of_bind h
    obtain ⟨l, hl, _⟩ := ok_of_map hl
    obtain rfl := readMap_ok_iff.mp hl
    obtain ⟨label, _, he⟩ := List.mem_map.mp (mem_of_lookup hw)
    exact ⟨label.2, (congrArg Prod.snd he).symm⟩
  | _ => cases hw

theorem exists_readLabels (hs : ∀ member ∈ members, ∃ s, member.2 = .string s) :
    ∃ labels, readLabels (.object members) = .ok labels ∧
      members = labels.map fun l => (l.1, .string l.2) := by
  have hm : members = (members.map fun m => (m.1, m.2.string?.getD "")).map
      fun l => (l.1, .string l.2) := by
    rw [List.map_map]
    refine (List.map_id members).symm.trans (List.map_congr_left fun m hm => ?_)
    obtain ⟨name, v⟩ := m
    obtain ⟨s, hv⟩ := hs _ hm
    obtain rfl : v = .string s := hv
    rfl
  exact ⟨_, congrArg (fun l => (some <$> l) >>= _) (readMap_ok_iff.mpr hm), hm⟩

theorem readLabels_merge {labels changes : List (String × String)} (h : readLabels v = .ok labels)
    (hn : (changes.map Prod.fst).Nodup) :
    ∃ merged, readLabels (v.merge (.object (changes.map fun c => (c.1, .string c.2)))).sorted =
        .ok merged ∧ ∀ k s, changes.lookup k = some s → merged.lookup k = some s := by
  have hc : ∀ c ∈ changes.map fun c => (c.1, Value.string c.2), c.2 ≠ .null := by
    intro c hc
    obtain ⟨_, _, rfl⟩ := List.mem_map.mp hc
    exact Value.noConfusion
  have hg := Value.get?_merge_sorted (by rwa [List.map_map]) hc v
  simp only [lookup_map_snd] at hg
  rw [Value.merge, Value.sorted] at hg ⊢
  have hs : ∀ member ∈ Value.sortedMembers
      (Value.mergeMembers v.members (changes.map fun c => (c.1, .string c.2))),
      ∃ s, member.2 = .string s := by
    rintro ⟨k, w⟩ hm
    have hw := lookup_of_mem (Value.sortedMembers_inOrder _).nodup hm
    have hk := hw.symm.trans (hg k)
    cases hl : changes.lookup k with
    | none =>
      rw [hl] at hk
      obtain ⟨x, hx, rfl⟩ := Option.map_eq_some_iff.mp hk.symm
      obtain ⟨t, rfl⟩ := string_of_readLabels h hx
      exact ⟨t, rfl⟩
    | some t =>
      rw [hl] at hk
      exact ⟨t, Option.some.inj hk⟩
  obtain ⟨merged, hm, he⟩ := exists_readLabels hs
  refine ⟨merged, hm, fun k s hk => ?_⟩
  have hl := hg k
  rw [hk, Value.get?, he, lookup_map_snd] at hl
  obtain ⟨t, ht, hv⟩ := Option.map_eq_some_iff.mp hl
  cases hv
  exact ht

end Metadata

end EventRouting
