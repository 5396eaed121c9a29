import EventRouting.Proofs.Routing.Life

namespace EventRouting

/-- An object that is listed, and what the synchronization after it meets with. -/
structure Listed where
  key : String
  fragment : Fragment
  conditions : Conditions := {}

def relisting (listed : List Listed) : List Move :=
  listed.flatMap fun x => [.upsert x.key x.fragment, .sync x.conditions]

/-- The resource was the first object to be listed, or its address was ready in a synchronization
since it was listed. -/
def Retained (listed : List Listed) (r : Resource) (a : Address) : Prop :=
  ∃ earlier x later, listed = earlier ++ x :: later ∧ x.fragment.contribution = .resource r a ∧
    (earlier = [] ∨ ∃ y ∈ x :: later, y.conditions.readiness.ready a = true)

/-- The contract holds the retained resources with their own subscribers, and those of the listed
subscribers that one of these resources is the parent of. -/
structure Contract.Retains (c : Contract) (listed : List Listed) : Prop where
  resource : ∀ uid, c.HasResource uid ↔ ∃ r a, Retained listed r a ∧ r.uid = uid
  egress : ∀ e, c.HasEgress e ↔ ∃ r a, Retained listed r a ∧ (e ∈ r.egresses ∨
    ∃ p, (∃ x ∈ listed, x.fragment.contribution = .egress p e) ∧ p.matches r.reference = true)

/-- The stored contract is what the objects make up, all of them routed. -/
structure Rebuilds (listing : List Listed) (stored : Contract) : Prop where
  keys : (listing.map (·.key)).Nodup
  uids : (listing.map (·.fragment.uid)).Nodup
  coherent : ∀ x ∈ listing, x.fragment.Coherent
  built : ∃ readiness fs current admitted, fs.Perm (listing.map (·.fragment)) ∧
    (build readiness fs current admitted).contract = stored ∧
    (build readiness fs current admitted).pending = [] ∧
    (build readiness fs current admitted).detached = []

theorem exists_listed {listed : List Listed} {c : Contribution} :
    (∃ f ∈ listed.map (·.fragment), f.contribution = c) ↔
      ∃ x ∈ listed, x.fragment.contribution = c := by
  simp only [List.mem_map, exists_exists_and_eq_and]

theorem Retained.concat {listed : List Listed} {r : Resource} {a : Address}
    (h : Retained listed r a) (x : Listed) : Retained (listed ++ [x]) r a := by
  obtain ⟨earlier, y, later, rfl, hy, hr⟩ := h
  refine ⟨earlier, y, later ++ [x], List.append_assoc _ _ _, hy, hr.imp_right ?_⟩
  rintro ⟨z, hz, ha⟩
  exact ⟨z, List.mem_append_left [x] hz, ha⟩

theorem retained_concat {listed : List Listed} {x : Listed} {r : Resource} {a : Address} :
    Retained (listed ++ [x]) r a ↔
      (∃ y ∈ listed ++ [x], y.fragment.contribution = .resource r a) ∧
        (listed = [] ∨ Retained listed r a ∨ x.conditions.readiness.ready a = true) := by
  constructor
  · rintro ⟨earlier, y, later, he, hy, hr⟩
    refine ⟨⟨y, he ▸ List.mem_append_right earlier List.mem_cons_self, hy⟩, ?_⟩
    rcases List.eq_nil_or_concat later with rfl | ⟨later, z, rfl⟩
    · obtain ⟨rfl, hx⟩ := List.append_inj' he rfl
      obtain rfl := List.singleton_inj.mp hx
      rcases hr with hr | ⟨z, hz, ha⟩
      · exact .inl hr
      · exact .inr (.inr (List.mem_singleton.mp hz ▸ ha))
    · rw [List.concat_eq_append] at he hr
      rw [← List.cons_append, ← List.append_assoc] at he
      obtain ⟨rfl, hx⟩ := List.append_inj' he rfl
      obtain rfl := List.singleton_inj.mp hx
      rcases hr with hr | ⟨t, ht, ha⟩
      · exact .inr (.inl ⟨earlier, y, later, rfl, hy, .inl hr⟩)
      · rw [← List.cons_append] at ht
        rcases List.mem_append.mp ht with ht | ht
        · exact .inr (.inl ⟨earlier, y, later, rfl, hy, .inr ⟨t, ht, ha⟩⟩)
        · exact .inr (.inr (List.mem_singleton.mp ht ▸ ha))
  · rintro ⟨⟨y, hm, hy⟩, rfl | hr | ha⟩
    · obtain rfl := List.mem_singleton.mp hm
      exact ⟨[], y, [], rfl, hy, .inl rfl⟩
    · exact hr.concat x
    · obtain ⟨earlier, later, he⟩ := List.append_of_mem hm
      refine ⟨earlier, y, later, he, hy, .inr ⟨x, ?_, ha⟩⟩
      have hl : (y :: later).getLast? = some x := by
        have hg := congrArg List.getLast? he
        rw [List.getLast?_concat, List.getLast?_append_cons] at hg
        exact hg.symm
      exact List.mem_of_getLast? hl

namespace Rebuilds

variable {listing : List Listed} {stored : Contract}

theorem coherent_of_prefix (h : Rebuilds listing stored) {listed : List Listed}
    (hp : listed <+: listing) : ∀ f ∈ listed.map (·.fragment), f.Coherent := by
  intro f hf
  obtain ⟨x, hx, rfl⟩ := List.mem_map.mp hf
  exact h.coherent x (hp.subset hx)

theorem winners_eq (h : Rebuilds listing stored) {listed : List Listed}
    (hp : listed <+: listing) :
    Build.winners (listed.map (·.fragment)) = listed.map (·.fragment) := by
  refine Build.winners_eq ?_
  rw [List.map_map]
  exact (hp.sublist.map _).nodup h.uids

theorem resource_inj (h : Rebuilds listing stored) {x y : Listed} (hx : x ∈ listing)
    (hy : y ∈ listing) {r s : Resource} {a b : Address}
    (hr : x.fragment.contribution = .resource r a) (hs : y.fragment.contribution = .resource s b)
    (hu : r.uid = s.uid) : r = s ∧ a = b := by
  have hcx := (h.coherent x hx).resource_uid hr
  have hcy := (h.coherent y hy).resource_uid hs
  obtain rfl := List.inj_on_of_nodup_map h.uids hx hy (hcx.symm.trans (hu.trans hcy))
  exact Contribution.resource.inj (hr.symm.trans hs)

theorem isCarried (h : Rebuilds listing stored) {x : Listed} (hx : x ∈ listing) {r : Resource}
    {a : Address} (hr : x.fragment.contribution = .resource r a) :
    Build.isCarried stored [] r a = true := by
  obtain ⟨readiness, fs, current, admitted, hp, rfl, hn, _⟩ := h.built
  have hw : Build.winners fs = fs := by
    refine Build.winners_eq ((hp.map _).nodup_iff.mpr ?_)
    rw [List.map_map]
    exact h.uids
  have hc : ∀ f ∈ fs, f.Coherent := by
    intro f hf
    obtain ⟨y, hy, rfl⟩ := List.mem_map.mp (hp.mem_iff.mp hf)
    exact h.coherent y hy
  have hm : (r, a) ∈ Build.routed readiness fs current admitted := by
    refine mem_routed_of_pending_nil hn ?_
    rw [hw]
    exact Build.mem_resources.mpr ⟨x.fragment, hp.mem_iff.mpr (List.mem_map_of_mem hx), hr⟩
  have hb := (isCarried_build (Build.resources_nodup hc)).mpr ⟨r, hm, rfl, rfl⟩
  exact Bool.and_eq_true_iff.mpr ⟨(Bool.and_eq_true_iff.mp hb).1, rfl⟩

end Rebuilds

/-- What the synchronizer knows after some objects of the listing: their fragments, and which of
the resources it carries over. Before the first object these are all of them. -/
structure Synchronizer.Relisted (s : Synchronizer) (stored : Contract)
    (listing listed : List Listed) : Prop where
  fragments : s.fragments = listed.map fun x => (x.key, x.fragment)
  generation : s.current.generation.toNat ≤ stored.generation.toNat + listed.length
  carried : ∀ x ∈ listing, ∀ r a, x.fragment.contribution = .resource r a →
    (Build.isCarried s.current s.admitted r a = true ↔ listed = [] ∨ Retained listed r a)

namespace Synchronizer

variable {stored : Contract} {listing listed : List Listed} {x : Listed} {s t : Synchronizer}

theorem Relisted.congr (h : s.Relisted stored listing listed) (hf : t.fragments = s.fragments)
    (hc : t.current = s.current) (ha : t.admitted = s.admitted) :
    t.Relisted stored listing listed where
  fragments := hf.trans h.fragments
  generation := hc ▸ h.generation
  carried := by
    rw [hc, ha]
    exact h.carried

theorem seed_relisted (hl : Rebuilds listing stored) :
    (seed (some stored.encode)).Relisted stored listing [] := by
  have hs : seed (some stored.encode) =
      { store := { current := stored }, publisher := { last? := some stored.generation } } := by
    simp only [seed, Contract.decode_encode]
  rw [hs]
  refine ⟨rfl, Nat.le_refl _, ?_⟩
  intro x hx r a hr
  have hc := hl.isCarried hx hr
  exact iff_of_true hc (.inl rfl)

theorem Relisted.upsert_fragments (h : s.Relisted stored listing listed)
    (hl : Rebuilds listing stored) (hp : listed ++ [x] <+: listing) :
    (s.upsert x.key x.fragment).fragments =
      (listed ++ [x]).map fun x => (x.key, x.fragment) := by
  have hk := (hp.sublist.map (·.key)).nodup hl.keys
  have hx : x.key ∉ s.fragments.keys := by
    have hf : s.fragments.keys = listed.map (·.key) := by
      rw [h.fragments, Table.keys, List.map_map]
      rfl
    rw [List.map_append] at hk
    rw [hf]
    exact fun hm => (List.nodup_append.mp hk).2.2 _ hm _ List.mem_cons_self rfl
  rw [List.map_append, ← h.fragments]
  exact Table.insert_of_not_mem hx x.fragment

/-- A synchronization with one more object routes what is retained. -/
theorem Relisted.mem_routed (h : s.Relisted stored listing listed) (hl : Rebuilds listing stored)
    (hp : listed ++ [x] <+: listing) {r : Resource} {a : Address} :
    (r, a) ∈ Build.routed x.conditions.readiness ((listed ++ [x]).map (·.fragment)) s.current
        s.admitted ↔ Retained (listed ++ [x]) r a := by
  rw [Build.routed, hl.winners_eq hp, List.mem_filter, Build.mem_resources, exists_listed,
    Bool.or_eq_true, retained_concat]
  refine and_congr_right ?_
  rintro ⟨y, hy, hr⟩
  rw [h.carried y (hp.subset hy) r a hr, or_assoc]

theorem accept_generation_le (s : Synchronizer) (r : Readiness) :
    (s.accept (s.build r)).current.generation.toNat ≤ s.current.generation.toNat + 1 := by
  by_cases ho : s.Overflows r
  · rw [accept_of_overflows ho]
    exact Nat.le_succ _
  · rw [(accept_of_not_overflows ho).1]
    by_cases hc : (s.build r).changed = true
    · rw [build_generation hc, UInt64.toNat_add]
      exact Nat.mod_le _ _
    · rw [build_contract_of_unchanged hc]
      exact Nat.le_succ _

theorem Relisted.build_eq (h : s.Relisted stored listing listed) (hl : Rebuilds listing stored)
    (hp : listed ++ [x] <+: listing) (r : Readiness) :
    (s.upsert x.key x.fragment).build r =
      EventRouting.build r ((listed ++ [x]).map (·.fragment)) s.current s.admitted := by
  have hf : (s.upsert x.key x.fragment).fragmentList = (listed ++ [x]).map (·.fragment) := by
    rw [fragmentList, h.upsert_fragments hl hp, List.map_map]
    rfl
  rw [build, hf]
  rfl

theorem Relisted.not_overflows (h : s.Relisted stored listing listed)
    (hp : listed ++ [x] <+: listing)
    (hg : stored.generation.toNat + listing.length < UInt64.size) (r : Readiness) :
    ¬(s.upsert x.key x.fragment).Overflows r := by
  rintro ⟨_, ho⟩
  have hs : s.current.generation.toNat = UInt64.size - 1 := congrArg UInt64.toNat ho
  have hn := hp.length_le
  rw [List.length_append, List.length_singleton] at hn
  have hle := h.generation
  omega

theorem Relisted.next (h : s.Relisted stored listing listed) (hl : Rebuilds listing stored)
    (hp : listed ++ [x] <+: listing)
    (hg : stored.generation.toNat + listing.length < UInt64.size)
    (ht : t = (s.upsert x.key x.fragment).accept
      ((s.upsert x.key x.fragment).build x.conditions.readiness)) :
    t.Relisted stored listing (listed ++ [x]) ∧ t.current.Retains (listed ++ [x]) := by
  have hgen := accept_generation_le (s.upsert x.key x.fragment) x.conditions.readiness
  obtain ⟨hcur, hadm⟩ :=
    accept_of_not_overflows (h.not_overflows hp hg x.conditions.readiness)
  rw [← ht] at hcur hadm hgen
  rw [h.build_eq hl hp] at hcur hadm
  refine ⟨⟨?_, ?_, fun y hy r a hr => ?_⟩, ⟨fun uid => ?_, fun e => ?_⟩⟩
  · rw [ht, accept_fragments, h.upsert_fragments hl hp]
  · rw [List.length_append, List.length_singleton]
    exact Nat.le_trans hgen (Nat.succ_le_succ h.generation)
  · -- What is carried over has a uid of the listing, and so it is the resource itself.
    rw [hcur, hadm, isCarried_build (Build.resources_nodup (hl.coherent_of_prefix hp)),
      or_iff_right (List.concat_ne_nil x listed)]
    constructor
    · rintro ⟨q, hq, hu, _⟩
      have hq := (h.mem_routed hl hp).mp hq
      obtain ⟨z, hm, hz⟩ := (retained_concat.mp hq).1
      obtain ⟨rfl, _⟩ := hl.resource_inj (hp.subset hm) hy hz hr hu
      exact hq
    · intro hq
      exact ⟨r, (h.mem_routed hl hp).mpr hq, rfl, rfl⟩
  · rw [hcur, build_hasResource]
    simp only [h.mem_routed hl hp]
  · rw [hcur, build_hasEgress]
    simp only [h.mem_routed hl hp, hl.winners_eq hp, Build.mem_egresses, exists_listed]

end Synchronizer

namespace Life

/-- The payload is what is retained once some of the objects are listed. -/
def RetainedBy (listed : List Listed) (payload : Payload) : Prop :=
  ∃ first, first ≠ [] ∧ first <+: listed ∧ ∃ c : Contract, payload = c.encode ∧ c.Retains first

theorem RetainedBy.mono {listed later : List Listed} {payload : Payload}
    (h : RetainedBy listed payload) (hp : listed <+: later) : RetainedBy later payload := by
  obtain ⟨first, hf, hfl, hc⟩ := h
  exact ⟨first, hf, hfl.trans hp, hc⟩

/-- A process to which some objects of the listing were listed, and the payloads that storage
accepted meanwhile. -/
structure Relists (l : Life) (stored : Contract) (listing listed : List Listed) : Prop where
  running : ∃ p, l.process? = some p ∧ p.sync.Relisted stored listing listed ∧
    (listed ≠ [] → p.sync.current.Retains listed)
  accepted : ∃ written, l.accepted = stored.encode :: written ∧
    ∀ payload ∈ written, RetainedBy listed payload

variable {l : Life} {stored : Contract} {listing listed : List Listed} {x : Listed}

theorem start_relists (hl : Rebuilds listing stored) {c : Conditions} (hc : c.fault? = none) :
    ((ofEntry (some stored.encode)).start c).Relists stored listing [] := by
  rw [start, Conditions.start_run, hc]
  refine ⟨⟨_, rfl, Synchronizer.seed_relisted hl, ?_⟩, [], rfl, ?_⟩
  · exact fun hn => absurd rfl hn
  · exact fun _ hm => absurd hm List.not_mem_nil

theorem Relists.next (h : l.Relists stored listing listed) (hl : Rebuilds listing stored)
    (hp : listed ++ [x] <+: listing)
    (hg : stored.generation.toNat + listing.length < UInt64.size) :
    (l.run (relisting [x])).Relists stored listing (listed ++ [x]) := by
  obtain ⟨accepted, process?⟩ := l
  obtain ⟨⟨p, rfl, hs, _⟩, written, rfl, hw⟩ := h
  obtain ⟨hn, hr⟩ := hs.next hl hp hg rfl
  change (Process.synchronize { p with sync := p.sync.upsert x.key x.fragment } x.conditions
    (stored.encode :: written)).Relists stored listing (listed ++ [x])
  rcases hv : Process.run { p with sync := p.sync.upsert x.key x.fragment } Synchronizer.sync
    x.conditions (stored.encode :: written) with ⟨⟨result, after⟩, accepted'⟩
  rw [Process.synchronize, hv]
  have former : ∀ payload ∈ written, RetainedBy (listed ++ [x]) payload := by
    intro payload hm
    exact (hw payload hm).mono (List.prefix_append listed [x])
  have latest {c : Contract} (hc : c.Retains (listed ++ [x])) :
      ∀ payload ∈ written ++ [c.encode], RetainedBy (listed ++ [x]) payload := by
    intro payload hm
    rcases List.mem_append.mp hm with hm | hm
    · exact former payload hm
    · exact ⟨_, List.concat_ne_nil x listed, List.prefix_rfl, c, List.mem_singleton.mp hm, hc⟩
  rcases Conditions.sync_cases hv with
    ⟨_, _, rfl, rfl⟩ | ⟨_, _, rfl, rfl⟩ | ⟨_, _, rfl, rfl | rfl⟩
  · exact ⟨⟨_, rfl, hn, fun _ => hr⟩, written, rfl, former⟩
  · exact ⟨⟨_, rfl, hn.congr rfl rfl rfl, fun _ => hr⟩, written ++ [_], rfl, latest hr⟩
  · exact ⟨⟨_, rfl, hn, fun _ => hr⟩, written, rfl, former⟩
  · exact ⟨⟨_, rfl, hn, fun _ => hr⟩, written ++ [_], rfl, latest hr⟩

theorem Relists.run (h : l.Relists stored listing listed) (hl : Rebuilds listing stored)
    (hg : stored.generation.toNat + listing.length < UInt64.size) {rest : List Listed}
    (hp : listed ++ rest <+: listing) :
    (l.run (relisting rest)).Relists stored listing (listed ++ rest) := by
  induction rest generalizing l listed with
  | nil =>
    rw [List.append_nil]
    exact h
  | cons x rest ih =>
    have he : listed ++ x :: rest = (listed ++ [x]) ++ rest := by
      rw [List.append_assoc, List.singleton_append]
    rw [he] at hp ⊢
    have hx := h.next hl ((List.prefix_append _ rest).trans hp) hg
    exact ih hx hp

/-- A contract that is written while the objects are listed anew holds the first of them and the
resources that were found ready since they were listed. -/
theorem relisting_retains (hl : Rebuilds listing stored)
    (hg : stored.generation.toNat + listing.length < UInt64.size) {c : Conditions}
    (hc : c.fault? = none) (hp : listed <+: listing) :
    let l := (ofEntry (some stored.encode)).run (.start c :: relisting listed)
    (∃ p ∈ l.process?, listed ≠ [] → p.sync.current.Retains listed) ∧
      ∃ written, l.accepted = stored.encode :: written ∧ ∀ payload ∈ written,
        ∃ first, first ≠ [] ∧ first <+: listed ∧
          ∃ c, Contract.decode payload = .ok c ∧ c.Retains first := by
  intro l
  obtain ⟨⟨p, hr, _, hs⟩, written, ha, hw⟩ := (start_relists hl hc).run hl hg hp
  refine ⟨⟨p, hr, hs⟩, written, ha, ?_⟩
  intro payload hm
  obtain ⟨first, hf, hfl, d, rfl, hd⟩ := hw payload hm
  exact ⟨first, hf, hfl, d, Contract.decode_encode d, hd⟩

/-- A broker that is listed while no address is ready. -/
def listedBroker (uid : String) : Listed where
  key := uid
  fragment := ⟨uid, ⟨0, 0⟩,
    .resource { uid, ingress? := some { path := uid } } ⟨"h", 80, uid, false⟩⟩

def storedBrokers : Contract :=
  ⟨5, [{ uid := "a", ingress? := some { path := "a" } },
    { uid := "b", ingress? := some { path := "b" } }]⟩

theorem brokers_rebuild : Rebuilds [listedBroker "a", listedBroker "b"] storedBrokers where
  keys := by decide
  uids := by decide
  coherent x hx := by
    rcases List.mem_pair.mp hx with rfl | rfl
    · rfl
    · rfl
  built := by
    have hc : Build.content (Build.routed ⟨fun _ => true, fun _ => 0⟩
        [(listedBroker "a").fragment, (listedBroker "b").fragment] storedBrokers [])
        [(listedBroker "a").fragment, (listedBroker "b").fragment] = storedBrokers.resources := by
      apply (Build.content_of_sorted ?_).trans
      · decide +kernel
      · decide +kernel
    refine ⟨⟨fun _ => true, fun _ => 0⟩, _, storedBrokers, [], .refl _, if_neg ?_, ?_, ?_⟩
    · exact fun h => bne_iff_ne.mp h hc
    · decide +kernel
    · decide +kernel

theorem relisting_retains_first :
    let l := (ofEntry (some storedBrokers.encode)).run
      (.start {} :: relisting [listedBroker "a", listedBroker "b"])
    ∃ written, l.accepted = storedBrokers.encode :: written ∧ ∀ payload ∈ written,
      ∃ c, Contract.decode payload = .ok c ∧ c.HasResource "a" := by
  intro l
  obtain ⟨_, written, ha, hw⟩ := relisting_retains brokers_rebuild (by decide)
    (c := {}) rfl List.prefix_rfl
  refine ⟨written, ha, ?_⟩
  intro payload hm
  obtain ⟨first, hf, hfl, c, hd, hr⟩ := hw payload hm
  refine ⟨c, hd, (hr.resource "a").mpr ?_⟩
  cases first with
  | nil => exact absurd rfl hf
  | cons x later =>
    obtain ⟨rfl, _⟩ := List.cons_prefix_cons.mp hfl
    exact ⟨_, _, ⟨[], listedBroker "a", later, rfl, rfl, .inl rfl⟩, rfl⟩

/-- The broker that is listed second is dropped by the first write. -/
theorem relisting_drops :
    let l := (ofEntry (some storedBrokers.encode)).run
      (.start {} :: relisting [listedBroker "a", listedBroker "b"])
    Rebuilds [listedBroker "a", listedBroker "b"] storedBrokers ∧
      ∃ payload ∈ l.accepted, ∃ c, Contract.decode payload = .ok c ∧
        ∃ r ∈ storedBrokers.resources, ¬c.HasResource r.uid := by
  intro l
  have hw : (Contract.encode ⟨6, [{ uid := "a", ingress? := some { path := "a" } }]⟩) ∈
      l.accepted := by decide +kernel
  refine ⟨brokers_rebuild, _, hw, _, Contract.decode_encode _,
    { uid := "b", ingress? := some { path := "b" } }, .tail _ (.head _), ?_⟩
  rintro ⟨r, hr, hu⟩
  obtain rfl := List.mem_singleton.mp hr
  exact absurd hu (by decide)

end Life

end EventRouting
