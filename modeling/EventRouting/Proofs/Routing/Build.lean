import EventRouting.Proofs.Table
import EventRouting.Routing.Build

namespace EventRouting

/-- A fragment goes by the uid of what it contributes. -/
def Fragment.Coherent (f : Fragment) : Prop :=
  match f.contribution with
  | .resource r _ => r.uid = f.uid
  | .egress _ e => e.uid = f.uid

namespace Fragment.Coherent

variable {f : Fragment}

theorem resource_uid (h : f.Coherent) {r : Resource} {a : Address}
    (hr : f.contribution = .resource r a) : r.uid = f.uid := by
  rw [Coherent, hr] at h
  exact h

theorem egress_uid (h : f.Coherent) {p : ParentRef} {e : Egress}
    (he : f.contribution = .egress p e) : e.uid = f.uid := by
  rw [Coherent, he] at h
  exact h

end Fragment.Coherent

/-- A fragment brings a resource or a subscriber of a uid into the contract. -/
def Fragment.Carries (f : Fragment) (uid : String) : Prop :=
  match f.contribution with
  | .resource r _ => r.uid = uid ∨ ∃ e ∈ r.egresses, e.uid = uid
  | .egress _ e => e.uid = uid

namespace Contract

def HasResource (c : Contract) (uid : String) : Prop := ∃ r ∈ c.resources, r.uid = uid

def HasEgress (c : Contract) (e : Egress) : Prop := ∃ r ∈ c.resources, e ∈ r.egresses

theorem mem_of_resource? {c : Contract} {uid : String} {r : Resource}
    (h : c.resource? uid = some r) : r ∈ c.resources ∧ r.uid = uid :=
  ⟨List.mem_of_find?_eq_some h, beq_iff_eq.mp (List.find?_eq_some_iff_append.mp h).1⟩

theorem routes_iff {c : Contract} {uid : String} :
    c.routes uid = true ↔ c.HasResource uid ∨ ∃ e, c.HasEgress e ∧ e.uid = uid := by
  rw [routes, Bool.or_eq_true, resource?, List.find?_isSome, List.any_eq_true]
  refine or_congr (exists_congr fun r => and_congr_right fun _ => beq_iff_eq) ⟨?_, ?_⟩
  · rintro ⟨r, hr, hu⟩
    obtain ⟨e, he, hu⟩ := List.any_eq_true.mp hu
    exact ⟨e, ⟨r, hr, he⟩, eq_of_beq hu⟩
  · rintro ⟨e, ⟨r, hr, he⟩, hu⟩
    exact ⟨r, hr, List.any_eq_true.mpr ⟨e, he, beq_iff_eq.mpr hu⟩⟩

end Contract

namespace RoutingManifest

variable {m : RoutingManifest} {ctx : FragmentContext} {f : Fragment}

theorem fragment_eq (h : m.fragment ctx = .ok f) :
    m.metadata.uid? = some f.uid ∧ f.contribution = m.contribution ctx f.uid := by
  rw [fragment, uid] at h
  cases hu : m.metadata.uid? with
  | none =>
    rw [hu] at h
    cases h
  | some uid =>
    rw [hu] at h
    cases h
    exact ⟨rfl, rfl⟩

theorem exists_fragment {uid : String} (h : m.metadata.uid? = some uid) (ctx : FragmentContext) :
    ∃ f, m.fragment ctx = .ok f ∧ f.contribution = m.contribution ctx uid := by
  rw [fragment, RoutingManifest.uid, h]
  exact ⟨_, rfl, rfl⟩

theorem fragment_coherent (h : m.fragment ctx = .ok f) : f.Coherent := by
  rw [Fragment.Coherent, (fragment_eq h).2]
  cases m <;> rfl

end RoutingManifest

namespace Build

/-- A table of fragments from `fs` under their uids. -/
structure Merged (fs : List Fragment) (t : Table String Fragment) : Prop where
  nodup : t.keys.Nodup
  keyed : ∀ entry ∈ t, entry.2.uid = entry.1
  given : ∀ entry ∈ t, entry.2 ∈ fs

theorem Merged.insert {fs : List Fragment} {t : Table String Fragment} (h : Merged fs t)
    {f : Fragment} (hf : f ∈ fs) : Merged fs (t.insert f.uid f) where
  nodup := Table.keys_insert_nodup h.nodup f.uid f
  keyed entry he := by
    rcases Table.mem_insert he with rfl | he
    · rfl
    · exact h.keyed entry he
  given entry he := by
    rcases Table.mem_insert he with rfl | he
    · exact hf
    · exact h.given entry he

theorem Merged.supersede {fs : List Fragment} {t : Table String Fragment} (h : Merged fs t)
    {f : Fragment} (hf : f ∈ fs) : Merged fs (supersede t f) := by
  rw [Build.supersede]
  split
  · split
    · exact h.insert hf
    · exact h
  · exact h.insert hf

theorem merged (fs : List Fragment) : Merged fs (fs.foldl supersede []) := by
  suffices hs : ∀ (gs : List Fragment) (t : Table String Fragment), (∀ g ∈ gs, g ∈ fs) →
      Merged fs t → Merged fs (gs.foldl supersede t) from
    hs fs [] (fun _ h => h) ⟨List.nodup_nil, (fun _ he => nomatch he), fun _ he => nomatch he⟩
  intro gs
  induction gs with
  | nil => exact fun t _ h => h
  | cons g gs ih =>
    intro t hg h
    exact ih _ (fun g hm => hg g (.tail _ hm)) (h.supersede (hg g (.head gs)))

theorem mem_of_mem_winners {fs : List Fragment} {f : Fragment} (h : f ∈ winners fs) : f ∈ fs := by
  obtain ⟨entry, he, rfl⟩ := List.mem_map.mp h
  exact (merged fs).given entry he

theorem winners_nodup (fs : List Fragment) : ((winners fs).map (·.uid)).Nodup := by
  have hk : (winners fs).map (·.uid) = (fs.foldl supersede []).keys := by
    rw [winners, List.map_map]
    exact List.map_congr_left (merged fs).keyed
  exact hk ▸ (merged fs).nodup

theorem winners_eq {fs : List Fragment} (h : (fs.map (·.uid)).Nodup) : winners fs = fs := by
  suffices hs : ∀ (gs : List Fragment) (t : Table String Fragment),
      (t.keys ++ gs.map (·.uid)).Nodup →
      gs.foldl supersede t = t ++ gs.map fun f => (f.uid, f) by
    rw [winners, hs fs [] h, List.nil_append, List.map_map]
    exact List.map_id fs
  intro gs
  induction gs with
  | nil => exact fun t _ => (List.append_nil t).symm
  | cons g gs ih =>
    intro t ht
    rw [List.map_cons] at ht
    have hg : g.uid ∉ t.keys := fun hm =>
      (List.nodup_append.mp ht).2.2 g.uid hm g.uid List.mem_cons_self rfl
    have hi : supersede t g = t ++ [(g.uid, g)] := by
      rw [supersede, Table.get?_eq_none_iff.mpr hg]
      exact Table.insert_of_not_mem hg g
    have hk : (t ++ [(g.uid, g)] : Table String Fragment).keys = t.keys ++ [g.uid] :=
      List.map_append
    rw [List.foldl_cons, hi, ih, List.append_assoc]
    · rfl
    · rw [hk, List.append_assoc]
      exact ht

/-- The address of the resource that wins for a uid. -/
def address? (fs : List Fragment) (uid : String) : Option Address :=
  ((winners fs).find? (·.uid == uid)).bind Fragment.address?

theorem find?_uid {α : Type} {uid : α → String} {l : List α} (h : (l.map uid).Nodup) {a : α}
    (ha : a ∈ l) : l.find? (uid · == uid a) = some a := by
  induction l with
  | nil => cases ha
  | cons b l ih =>
    obtain ⟨hb, hn⟩ := List.nodup_cons.mp h
    cases ha with
    | head => exact List.find?_cons_of_pos (beq_self_eq_true (uid a))
    | tail _ ha =>
      have hne : uid b ≠ uid a := fun he => hb (List.mem_map.mpr ⟨a, ha, he.symm⟩)
      rw [List.find?_cons_of_neg (by rw [beq_iff_eq]; exact hne)]
      exact ih hn ha

theorem find?_winner {fs : List Fragment} {f : Fragment} (h : f ∈ winners fs) :
    (winners fs).find? (·.uid == f.uid) = some f :=
  find?_uid (winners_nodup fs) h

section Cons

variable {f : Fragment} {r : Resource} {a : Address} {p : ParentRef} {e : Egress}

theorem resources_cons_resource (h : f.contribution = .resource r a) (fs : List Fragment) :
    resources (f :: fs) = (r, a) :: resources fs := by
  rw [resources, List.filterMap_cons, h]
  rfl

theorem resources_cons_egress (h : f.contribution = .egress p e) (fs : List Fragment) :
    resources (f :: fs) = resources fs := by
  rw [resources, List.filterMap_cons, h]
  rfl

theorem egresses_cons_resource (h : f.contribution = .resource r a) (fs : List Fragment) :
    egresses (f :: fs) = egresses fs := by
  rw [egresses, List.filterMap_cons, h]
  rfl

theorem egresses_cons_egress (h : f.contribution = .egress p e) (fs : List Fragment) :
    egresses (f :: fs) = (p, e) :: egresses fs := by
  rw [egresses, List.filterMap_cons, h]
  rfl

end Cons

theorem mem_resources {fs : List Fragment} {r : Resource} {a : Address} :
    (r, a) ∈ resources fs ↔ ∃ f ∈ fs, f.contribution = .resource r a := by
  rw [resources, List.mem_filterMap]
  refine exists_congr fun f => and_congr_right fun _ => ?_
  cases f.contribution with
  | resource s b => simp only [Option.some.injEq, Prod.mk.injEq, Contribution.resource.injEq]
  | egress p e => simp only [reduceCtorEq]

theorem mem_egresses {fs : List Fragment} {p : ParentRef} {e : Egress} :
    (p, e) ∈ egresses fs ↔ ∃ f ∈ fs, f.contribution = .egress p e := by
  rw [egresses, List.mem_filterMap]
  refine exists_congr fun f => and_congr_right fun _ => ?_
  cases f.contribution with
  | resource s b => simp only [reduceCtorEq]
  | egress q d => simp only [Option.some.injEq, Prod.mk.injEq, Contribution.egress.injEq]

theorem address?_of_mem {fs : List Fragment} (hc : ∀ f ∈ fs, f.Coherent) {r : Resource}
    {a : Address} (h : (r, a) ∈ resources (winners fs)) : address? fs r.uid = some a := by
  obtain ⟨f, hf, hr⟩ := mem_resources.mp h
  have hu := (hc f (mem_of_mem_winners hf)).resource_uid hr
  rw [address?, hu, find?_winner hf, Option.bind_some, Fragment.address?, hr]

theorem resources_winners_pairwise {fs : List Fragment}
    {R : Resource × Address → Resource × Address → Prop}
    (h : ∀ f ∈ winners fs, ∀ g ∈ winners fs, ∀ r a s b, f.contribution = .resource r a →
      g.contribution = .resource s b → f.uid ≠ g.uid → R (r, a) (s, b)) :
    (resources (winners fs)).Pairwise R := by
  rw [resources, List.pairwise_filterMap]
  apply (List.pairwise_map.mp (winners_nodup fs)).imp_of_mem
  intro f g hf hg hu ra hra sb hsb
  split at hra
  next r a hr =>
    split at hsb
    next s b hs =>
      cases hra
      cases hsb
      exact h f hf g hg r a s b hr hs hu
    next => cases hsb
  next => cases hra

theorem egresses_winners_pairwise {fs : List Fragment}
    {R : ParentRef × Egress → ParentRef × Egress → Prop}
    (h : ∀ f ∈ winners fs, ∀ g ∈ winners fs, ∀ p d q e, f.contribution = .egress p d →
      g.contribution = .egress q e → f.uid ≠ g.uid → R (p, d) (q, e)) :
    (egresses (winners fs)).Pairwise R := by
  rw [egresses, List.pairwise_filterMap]
  apply (List.pairwise_map.mp (winners_nodup fs)).imp_of_mem
  intro f g hf hg hu pd hpd qe hqe
  split at hpd
  next => cases hpd
  next p d hd =>
    split at hqe
    next => cases hqe
    next q e he =>
      cases hpd
      cases hqe
      exact h f hf g hg p d q e hd he hu

theorem resources_nodup {fs : List Fragment} (hc : ∀ f ∈ fs, f.Coherent) :
    ((resources (winners fs)).map fun (r, _) => r.uid).Nodup := by
  apply List.pairwise_map.mpr (resources_winners_pairwise _)
  intro f hf g hg r a s b hr hs hu hrs
  have hru : r.uid = f.uid := (hc f (mem_of_mem_winners hf)).resource_uid hr
  have hsu : s.uid = g.uid := (hc g (mem_of_mem_winners hg)).resource_uid hs
  exact hu (hru.symm.trans (hrs.trans hsu))

theorem egresses_nodup {fs : List Fragment} (hc : ∀ f ∈ fs, f.Coherent) :
    ((egresses (winners fs)).map fun (_, e) => e.uid).Nodup := by
  apply List.pairwise_map.mpr (egresses_winners_pairwise _)
  intro f hf g hg p d q e hd he hu hde
  have hdu : d.uid = f.uid := (hc f (mem_of_mem_winners hf)).egress_uid hd
  have heu : e.uid = g.uid := (hc g (mem_of_mem_winners hg)).egress_uid he
  exact hu (hdu.symm.trans (hde.trans heu))

/-- The resources that a build routes, with their addresses. -/
def routed (readiness : Readiness) (fs : List Fragment) (current : Contract)
    (admitted : Table String Address) : List (Resource × Address) :=
  (resources (winners fs)).filter fun (r, a) =>
    isCarried current admitted r a || readiness.ready a

/-- What a contract that routes these resources holds. -/
def content (routes : List (Resource × Address)) (fs : List Fragment) : List Resource :=
  sortByUid (·.uid) (attach (routes.map Prod.fst) (egresses (winners fs)))

theorem sortByUid_perm {α : Type} (uid : α → String) (l : List α) : (sortByUid uid l).Perm l :=
  List.mergeSort_perm l _

theorem sortByUid_of_sorted {α : Type} {uid : α → String} {l : List α}
    (h : l.Pairwise fun a b => uid a ≤ uid b) : sortByUid uid l = l :=
  List.mergeSort_of_pairwise (h.imp decide_eq_true)

theorem content_of_sorted {routes : List (Resource × Address)} {fs : List Fragment}
    (h : (attach (routes.map Prod.fst) (egresses (winners fs))).Pairwise fun a b => a.uid ≤ b.uid) :
    content routes fs = attach (routes.map Prod.fst) (egresses (winners fs)) :=
  sortByUid_of_sorted h

theorem attach_map {β : Type} (f : Resource → β)
    (hf : ∀ (r : Resource) (es : List Egress), f { r with egresses := es } = f r)
    (rs : List Resource) (es : List (ParentRef × Egress)) : (attach rs es).map f = rs.map f := by
  rw [attach, List.map_map]
  conv_rhs => rw [← List.zipIdx_map_fst 0 rs, List.map_map]
  exact List.map_congr_left fun (r, i) _ => hf r _

/-- Sorting and attaching subscribers keeps everything of the resources but their subscribers. -/
theorem content_map {β : Type} (f : Resource → β)
    (hf : ∀ (r : Resource) (es : List Egress), f { r with egresses := es } = f r)
    (routes : List (Resource × Address)) (fs : List Fragment) :
    ((content routes fs).map f).Perm (routes.map fun (r, _) => f r) := by
  refine ((sortByUid_perm _ _).map f).trans ?_
  rw [attach_map f hf, List.map_map]
  exact .rfl

theorem mem_content {routes : List (Resource × Address)} {fs : List Fragment} {r : Resource}
    (h : r ∈ content routes fs) :
    ∃ s a, (s, a) ∈ routes ∧ s.uid = r.uid ∧ s.ingress? = r.ingress? := by
  have hp := content_map (fun r => (r.uid, r.ingress?)) (fun _ _ => rfl) routes fs
  obtain ⟨⟨s, a⟩, hs, he⟩ := List.mem_map.mp (hp.mem_iff.mp (List.mem_map_of_mem h))
  exact ⟨s, a, hs, congrArg Prod.fst he, congrArg Prod.snd he⟩

/-- A subscriber comes into the contract with its resource, or with one that its parent reference
matches. -/
theorem exists_mem_attach {rs : List Resource} {es : List (ParentRef × Egress)} {e : Egress} :
    (∃ r ∈ attach rs es, e ∈ r.egresses) ↔
      ∃ r ∈ rs, e ∈ r.egresses ∨ ∃ p, (p, e) ∈ es ∧ p.matches r.reference = true := by
  constructor
  · rintro ⟨_, h, he⟩
    obtain ⟨⟨r, i⟩, hr, rfl⟩ := List.mem_map.mp h
    have hi := List.mk_mem_zipIdx_iff_getElem?.mp hr
    refine ⟨r, List.mem_of_getElem? hi, ?_⟩
    rcases List.mem_append.mp ((sortByUid_perm _ _).mem_iff.mp he) with he | he
    · exact .inl he
    · obtain ⟨⟨p, e⟩, hp, rfl⟩ := List.mem_map.mp he
      obtain ⟨hp, hf⟩ := List.mem_filter.mp hp
      obtain ⟨hl, hm, _⟩ := List.findIdx?_eq_some_iff_getElem.mp (eq_of_beq hf)
      obtain rfl := Option.some.inj ((List.getElem?_eq_getElem hl).symm.trans hi)
      exact .inr ⟨p, hp, hm⟩
  · rintro ⟨r, hr, he⟩
    have attached {s : Resource} {i : Nat} (hs : rs[i]? = some s)
        (he : e ∈ s.egresses ++ (es.filter fun pe =>
          rs.findIdx? (pe.1.matches ·.reference) == some i).map Prod.snd) :
        ∃ r ∈ attach rs es, e ∈ r.egresses :=
      ⟨_, List.mem_map.mpr ⟨(s, i), List.mk_mem_zipIdx_iff_getElem?.mpr hs, rfl⟩,
        (sortByUid_perm _ _).mem_iff.mpr he⟩
    rcases he with he | ⟨p, hp, hm⟩
    · obtain ⟨i, hi⟩ := List.mem_iff_getElem?.mp hr
      exact attached hi (List.mem_append_left _ he)
    · have hs : (rs.findIdx? (p.matches ·.reference)).isSome = true := by
        rw [List.findIdx?_isSome]
        exact List.any_eq_true.mpr ⟨r, hr, hm⟩
      obtain ⟨i, hi⟩ := Option.isSome_iff_exists.mp hs
      obtain ⟨hl, _⟩ := List.findIdx?_eq_some_iff_getElem.mp hi
      refine attached (List.getElem?_eq_getElem hl) (List.mem_append_right _ ?_)
      exact List.mem_map.mpr ⟨(p, e), List.mem_filter.mpr ⟨hp, beq_iff_eq.mpr hi⟩, rfl⟩

end Build

section Outcome

open Build

variable (readiness : Readiness) (fs : List Fragment) (current : Contract)
  (admitted : Table String Address)

theorem build_contract : (build readiness fs current admitted).contract =
    if (build readiness fs current admitted).changed then
      ⟨current.generation + 1, content (routed readiness fs current admitted) fs⟩
    else current := rfl

theorem build_changed : (build readiness fs current admitted).changed =
    (content (routed readiness fs current admitted) fs != current.resources) := rfl

theorem build_admitted : (build readiness fs current admitted).admitted =
    .ofList ((routed readiness fs current admitted).map fun (r, a) => (r.uid, a)) := rfl

theorem build_resources : (build readiness fs current admitted).contract.resources =
    content (routed readiness fs current admitted) fs := by
  rw [build_contract]
  split
  next => rfl
  next h => exact (bne_eq_false_iff_eq.mp (Bool.eq_false_iff.mpr h)).symm

variable {readiness fs current admitted}

theorem build_hasResource {uid : String} :
    (build readiness fs current admitted).contract.HasResource uid ↔
      ∃ r a, (r, a) ∈ routed readiness fs current admitted ∧ r.uid = uid := by
  have hp := content_map (·.uid) (fun _ _ => rfl) (routed readiness fs current admitted) fs
  rw [Contract.HasResource, build_resources, ← List.mem_map, hp.mem_iff, List.mem_map]
  exact Prod.exists

theorem build_hasEgress {e : Egress} :
    (build readiness fs current admitted).contract.HasEgress e ↔
      ∃ r a, (r, a) ∈ routed readiness fs current admitted ∧
        (e ∈ r.egresses ∨ ∃ p, (p, e) ∈ egresses (winners fs) ∧ p.matches r.reference = true) := by
  have hp : ∀ r, r ∈ content (routed readiness fs current admitted) fs ↔ r ∈ attach _ _ :=
    fun r => (sortByUid_perm _ _).mem_iff
  simp only [Contract.HasEgress, build_resources, hp, exists_mem_attach, List.mem_map,
    Prod.exists, exists_and_right, exists_eq_right]

theorem mem_routed_of_pending_nil (h : (build readiness fs current admitted).pending = [])
    {r : Resource} {a : Address} (hr : (r, a) ∈ resources (winners fs)) :
    (r, a) ∈ routed readiness fs current admitted := by
  have hw : (resources (winners fs)).filter (fun (r, a) =>
      !(isCarried current admitted r a || readiness.ready a)) = [] := by
    have hp := sortByUid_perm Pending.uid (((resources (winners fs)).filter fun (r, a) =>
      !(isCarried current admitted r a || readiness.ready a)).map fun (r, a) =>
        ⟨r.uid, a, readiness.failures a⟩)
    exact List.map_eq_nil_iff.mp (List.perm_nil.mp (hp.symm.trans (.of_eq h)))
  have hn := List.filter_eq_nil_iff.mp hw (r, a) hr
  exact List.mem_filter.mpr ⟨hr, by simpa only [Bool.not_eq_true', Bool.not_eq_false] using hn⟩

theorem exists_of_isCarried {r : Resource} {a : Address}
    (h : isCarried current admitted r a = true) :
    (∃ s ∈ current.resources, s.uid = r.uid ∧ s.ingress? = r.ingress?) ∧
      ∀ b, admitted.get? r.uid = some b → b = a := by
  obtain ⟨hr, ha⟩ := Bool.and_eq_true_iff.mp h
  constructor
  · cases hs : current.resource? r.uid with
    | none =>
      rw [hs] at hr
      cases hr
    | some s =>
      rw [hs] at hr
      obtain ⟨hm, hu⟩ := Contract.mem_of_resource? hs
      exact ⟨s, hm, hu, eq_of_beq hr⟩
  · intro b hb
    rw [hb] at ha
    exact eq_of_beq ha

section Uids

variable (hn : ((resources (winners fs)).map fun (r, _) => r.uid).Nodup)

include hn

theorem build_admitted_eq :
    (build readiness fs current admitted).admitted =
      (routed readiness fs current admitted).map fun (r, a) => (r.uid, a) := by
  rw [build_admitted]
  refine Table.ofList_eq ?_
  rw [List.map_map]
  exact (List.filter_sublist.map _).nodup hn

theorem build_admitted_keys :
    (build readiness fs current admitted).admitted.keys.Perm
      ((build readiness fs current admitted).contract.resources.map (·.uid)) := by
  rw [build_admitted_eq hn, Table.keys, List.map_map, build_resources]
  exact (content_map (·.uid) (fun _ _ => rfl) _ fs).symm

theorem build_admitted_get? {r : Resource} {a : Address}
    (h : (r, a) ∈ routed readiness fs current admitted) :
    (build readiness fs current admitted).admitted.get? r.uid = some a := by
  have hk : (build readiness fs current admitted).admitted.keys.Nodup := by
    rw [build_admitted_eq hn, Table.keys, List.map_map]
    exact (List.filter_sublist.map _).nodup hn
  refine Table.get?_of_mem hk ?_
  rw [build_admitted_eq hn]
  exact List.mem_map.mpr ⟨(r, a), h, rfl⟩

/-- The next build carries over what this one routes. -/
theorem isCarried_build {r : Resource} {a : Address} :
    isCarried (build readiness fs current admitted).contract
        (build readiness fs current admitted).admitted r a = true ↔
      ∃ s, (s, a) ∈ routed readiness fs current admitted ∧ s.uid = r.uid ∧
        s.ingress? = r.ingress? := by
  constructor
  · intro h
    obtain ⟨⟨t, ht, hu, hi⟩, ha⟩ := exists_of_isCarried h
    rw [build_resources] at ht
    obtain ⟨s, b, hs, hsu, hsi⟩ := mem_content ht
    have hb := build_admitted_get? hn hs
    rw [hsu, hu] at hb
    obtain rfl := ha b hb
    exact ⟨s, hs, hsu.trans hu, hsi.trans hi⟩
  · rintro ⟨s, hs, hu, hi⟩
    have hm : r.uid ∈ (build readiness fs current admitted).contract.resources.map (·.uid) := by
      refine (build_admitted_keys hn).mem_iff.mp (Table.mem_keys.mpr ⟨a, ?_⟩)
      exact hu ▸ build_admitted_get? hn hs
    cases ht : (build readiness fs current admitted).contract.resource? r.uid with
    | none =>
      obtain ⟨t, ht', htu⟩ := List.mem_map.mp hm
      exact absurd (beq_iff_eq.mpr htu) (List.find?_eq_none.mp ht t ht')
    | some t =>
      obtain ⟨htm, htu⟩ := Contract.mem_of_resource? ht
      rw [build_resources] at htm
      obtain ⟨s', b, hs', hsu', hsi'⟩ := mem_content htm
      have he : (s', b) = (s, a) :=
        List.inj_on_of_nodup_map hn (List.mem_of_mem_filter hs')
          (List.mem_of_mem_filter hs) (hsu'.trans (htu.trans hu.symm))
      cases he
      rw [isCarried, ht, ← hu, build_admitted_get? hn hs, Option.any_some, Option.all_some,
        ← hsi', hi, beq_self_eq_true, beq_self_eq_true]
      rfl

end Uids

theorem build_address? (hc : ∀ f ∈ fs, f.Coherent) {uid : String} {a : Address}
    (h : (build readiness fs current admitted).admitted.get? uid = some a) :
    address? fs uid = some a := by
  rw [build_admitted_eq (resources_nodup hc)] at h
  obtain ⟨⟨r, b⟩, hr, he⟩ := List.mem_map.mp (Table.mem_of_get? h)
  cases he
  exact address?_of_mem hc (List.mem_of_mem_filter hr)

/-- A resource is routed because it was carried over, or because its address was asked for and
answered ready. -/
theorem mem_routed_cases {r : Resource} {a : Address}
    (h : (r, a) ∈ routed readiness fs current admitted) :
    isCarried current admitted r a = true ∨
      a ∈ consulted fs current admitted ∧ readiness.ready a = true := by
  obtain ⟨hm, ha⟩ := List.mem_filter.mp h
  cases hc : isCarried current admitted r a with
  | true => exact .inl rfl
  | false =>
    refine .inr ⟨List.mem_map.mpr ⟨(r, a), List.mem_filter.mpr ⟨hm, ?_⟩, rfl⟩, ?_⟩
    · exact congrArg not hc
    · exact (Bool.or_eq_true_iff.mp ha).resolve_left (by rw [hc]; exact Bool.false_ne_true)

theorem build_carries {uid : String}
    (h : (build readiness fs current admitted).contract.routes uid = true) :
    ∃ f ∈ fs, f.Carries uid := by
  have brought {r : Resource} {a : Address} (hr : (r, a) ∈ routed readiness fs current admitted)
      (hu : r.uid = uid ∨ ∃ e ∈ r.egresses, e.uid = uid) : ∃ f ∈ fs, f.Carries uid := by
    obtain ⟨f, hf, hfr⟩ := mem_resources.mp (List.mem_of_mem_filter hr)
    refine ⟨f, mem_of_mem_winners hf, ?_⟩
    rw [Fragment.Carries, hfr]
    exact hu
  rcases Contract.routes_iff.mp h with h | ⟨e, h, hu⟩
  · obtain ⟨r, a, hr, hu⟩ := build_hasResource.mp h
    exact brought hr (.inl hu)
  · obtain ⟨r, a, hr, he | ⟨p, hp, _⟩⟩ := build_hasEgress.mp h
    · exact brought hr (.inr ⟨e, he, hu⟩)
    · obtain ⟨f, hf, hfe⟩ := mem_egresses.mp hp
      refine ⟨f, mem_of_mem_winners hf, ?_⟩
      rw [Fragment.Carries, hfe]
      exact hu

end Outcome

end EventRouting
