import EventRouting.Proofs.Routing.Build
import Mathlib.Data.List.Induction

namespace EventRouting

namespace Instant

variable {a b c : Instant}

theorem le_iff :
    a.le b = true ↔ a.seconds < b.seconds ∨ a.seconds = b.seconds ∧ a.nanos ≤ b.nanos := by
  simp only [le, Bool.or_eq_true, Bool.and_eq_true, decide_eq_true_iff, beq_iff_eq]

theorem le_trans (hab : a.le b = true) (hbc : b.le c = true) : a.le c = true := by
  rw [le_iff] at hab hbc ⊢
  omega

theorem le_of_not_le (h : a.le b = false) : b.le a = true := by
  rw [← Bool.not_eq_true, le_iff] at h
  rw [le_iff]
  omega

end Instant

/-- The last one of the fragments that were observed latest, among those of its uid. -/
def Fragment.Wins (f : Fragment) (fs : List Fragment) : Prop :=
  ∃ earlier later, fs = earlier ++ f :: later ∧
    (∀ g ∈ earlier, g.uid = f.uid → g.observedAt.le f.observedAt = true) ∧
    ∀ g ∈ later, g.uid = f.uid → f.observedAt.le g.observedAt = false

namespace Fragment.Wins

variable {f g : Fragment} {fs : List Fragment}

theorem mem (h : f.Wins fs) : f ∈ fs := by
  obtain ⟨earlier, later, rfl, _⟩ := h
  exact List.mem_append_right _ (.head _)

theorem observed (h : f.Wins fs) (hg : g ∈ fs) (hu : g.uid = f.uid) :
    g.observedAt.le f.observedAt = true := by
  obtain ⟨earlier, later, rfl, he, hl⟩ := h
  rcases List.mem_append.mp hg with hg | hg
  · exact he g hg hu
  · rcases List.mem_cons.mp hg with rfl | hg
    · exact Instant.le_iff.mpr (.inr ⟨rfl, Nat.le_refl _⟩)
    · exact Instant.le_of_not_le (hl g hg hu)

theorem concat : f.Wins (fs ++ [g]) ↔
    f = g ∧ (∀ h ∈ fs, h.uid = g.uid → h.observedAt.le g.observedAt = true) ∨
      f.Wins fs ∧ (g.uid = f.uid → f.observedAt.le g.observedAt = false) := by
  constructor
  · rintro ⟨earlier, later, hs, he, hl⟩
    rcases List.eq_nil_or_concat later with rfl | ⟨later, h, rfl⟩
    · obtain ⟨rfl, hg⟩ := List.append_inj' hs rfl
      obtain rfl := List.singleton_inj.mp hg
      exact .inl ⟨rfl, he⟩
    · rw [List.concat_eq_append] at hs hl
      rw [← List.cons_append, ← List.append_assoc] at hs
      obtain ⟨rfl, hg⟩ := List.append_inj' hs rfl
      obtain rfl := List.singleton_inj.mp hg
      refine .inr ⟨⟨earlier, later, rfl, he, fun h hm => hl h (List.mem_append_left _ hm)⟩, ?_⟩
      exact hl g (List.mem_append_right _ (.head _))
  · rintro (⟨rfl, hg⟩ | ⟨⟨earlier, later, rfl, he, hl⟩, hg⟩)
    · exact ⟨fs, [], rfl, hg, fun _ hm => absurd hm List.not_mem_nil⟩
    · refine ⟨earlier, later ++ [g], by simp, he, ?_⟩
      intro h hm
      rcases List.mem_append.mp hm with hm | hm
      · exact hl h hm
      · rw [List.mem_singleton.mp hm]
        exact hg

theorem unique (hf : f.Wins fs) (hg : g.Wins fs) (hu : f.uid = g.uid) : f = g := by
  induction fs using List.reverseRecOn with
  | nil => cases hf.mem
  | append_singleton fs h ih =>
    rcases concat.mp hf with ⟨rfl, hfl⟩ | ⟨hfw, hfl⟩
    · rcases concat.mp hg with ⟨rfl, _⟩ | ⟨hgw, hgl⟩
      · rfl
      · cases (hgl hu).symm.trans (hfl g hgw.mem hu.symm)
    · rcases concat.mp hg with ⟨rfl, hgl⟩ | ⟨hgw, _⟩
      · cases (hfl hu.symm).symm.trans (hgl f hfw.mem hu)
      · exact ih hfw hgw

variable {e : Fragment}

theorem concat_of_new (hn : ∀ h ∈ fs, h.uid ≠ g.uid) :
    f.Wins (fs ++ [g]) ∧ f.uid = g.uid ↔ g = f := by
  rw [concat]
  constructor
  · rintro ⟨⟨rfl, _⟩ | ⟨hw, _⟩, hu⟩
    · rfl
    · exact absurd hu (hn f hw.mem)
  · rintro rfl
    exact ⟨.inl ⟨rfl, fun h hm hu => absurd hu (hn h hm)⟩, rfl⟩

theorem concat_of_le (he : e.Wins fs) (hu : e.uid = g.uid)
    (hl : e.observedAt.le g.observedAt = true) :
    f.Wins (fs ++ [g]) ∧ f.uid = g.uid ↔ g = f := by
  have hg {h : Fragment} (hm : h ∈ fs) (hhu : h.uid = g.uid) :
      h.observedAt.le g.observedAt = true :=
    Instant.le_trans (he.observed hm (hhu.trans hu.symm)) hl
  rw [concat]
  constructor
  · rintro ⟨⟨rfl, _⟩ | ⟨hw, hf⟩, hfu⟩
    · rfl
    · cases (hf hfu.symm).symm.trans (hg hw.mem hfu)
  · rintro rfl
    exact ⟨.inl ⟨rfl, fun h hm hu => hg hm hu⟩, rfl⟩

theorem concat_of_not_le (he : e.Wins fs) (hu : e.uid = g.uid)
    (hl : e.observedAt.le g.observedAt = false) :
    f.Wins (fs ++ [g]) ∧ f.uid = g.uid ↔ e = f := by
  rw [concat]
  constructor
  · rintro ⟨⟨rfl, hg⟩ | ⟨hw, _⟩, hfu⟩
    · cases hl.symm.trans (hg e he.mem hu)
    · exact he.unique hw (hu.trans hfu.symm)
  · rintro rfl
    exact ⟨.inr ⟨he, fun _ => hl⟩, hu⟩

theorem concat_of_other (hu : g.uid ≠ f.uid) : f.Wins (fs ++ [g]) ↔ f.Wins fs := by
  rw [concat]
  constructor
  · rintro (⟨rfl, _⟩ | ⟨hw, _⟩)
    · exact absurd rfl hu
    · exact hw
  · intro hw
    exact .inr ⟨hw, fun he => absurd he hu⟩

end Fragment.Wins

namespace Build

theorem get?_supersede (t : Table String Fragment) (g : Fragment) (uid : String) :
    (supersede t g).get? uid =
      if g.uid = uid then
        match t.get? uid with
        | some e => if e.observedAt.le g.observedAt then some g else some e
        | none => some g
      else t.get? uid := by
  rw [supersede]
  by_cases hu : g.uid = uid
  · subst hu
    rw [if_pos rfl]
    cases ht : t.get? g.uid with
    | none => exact (Table.get?_insert _ _ _ _).trans (if_pos rfl)
    | some e =>
      dsimp only
      split
      · exact (Table.get?_insert _ _ _ _).trans (if_pos rfl)
      · exact ht
  · have hi : (t.insert g.uid g).get? uid = t.get? uid :=
      (Table.get?_insert _ _ _ _).trans (if_neg hu)
    rw [if_neg hu]
    split
    · split
      · exact hi
      · rfl
    · exact hi

theorem get?_foldl_supersede (fs : List Fragment) (uid : String) :
    (∀ f, (fs.foldl supersede []).get? uid = some f ↔ f.Wins fs ∧ f.uid = uid) ∧
      ((fs.foldl supersede []).get? uid = none → ∀ f ∈ fs, f.uid ≠ uid) := by
  -- From the end of the list: the last fragment is the one that may supersede.
  induction fs using List.reverseRecOn with
  | nil =>
    refine ⟨fun f => ⟨fun hf => absurd hf.symm (Option.some_ne_none f), ?_⟩,
      fun _ f hm => absurd hm List.not_mem_nil⟩
    rintro ⟨hw, _⟩
    cases hw.mem
  | append_singleton fs g ih =>
    obtain ⟨hs, hn⟩ := ih
    rw [List.foldl_concat, get?_supersede]
    by_cases hu : g.uid = uid
    · subst hu
      rw [if_pos rfl]
      have hsome (h : Fragment) (hh : some h = none) : ∀ f ∈ fs ++ [g], f.uid ≠ g.uid :=
        absurd hh (Option.some_ne_none h)
      cases ht : (fs.foldl supersede []).get? g.uid with
      | none =>
        exact ⟨fun f => Option.some_inj.trans (Fragment.Wins.concat_of_new (hn ht)).symm,
          hsome g⟩
      | some e =>
        obtain ⟨he, heu⟩ := (hs e).mp ht
        dsimp only
        cases hl : e.observedAt.le g.observedAt with
        | true => exact ⟨fun f => Option.some_inj.trans (he.concat_of_le heu hl).symm, hsome g⟩
        | false => exact ⟨fun f => Option.some_inj.trans (he.concat_of_not_le heu hl).symm, hsome e⟩
    · rw [if_neg hu]
      refine ⟨fun f => (hs f).trans (and_congr_left ?_), fun ht f hf => ?_⟩
      · rintro rfl
        exact (Fragment.Wins.concat_of_other hu).symm
      · rcases List.mem_append.mp hf with hf | hf
        · exact hn ht f hf
        · rw [List.mem_singleton.mp hf]
          exact hu

theorem mem_winners {fs : List Fragment} {f : Fragment} : f ∈ winners fs ↔ f.Wins fs := by
  rw [winners, List.mem_map]
  constructor
  · rintro ⟨⟨uid, g⟩, hg, rfl⟩
    exact (((get?_foldl_supersede fs uid).1 g).mp (Table.get?_of_mem (merged fs).nodup hg)).1
  · intro hw
    exact ⟨_, Table.mem_of_get? (((get?_foldl_supersede fs f.uid).1 f).mpr ⟨hw, rfl⟩), rfl⟩

section Order

variable {α : Type} {uid : α → String} {l : List α}

theorem uid_le_trans (uid : α → String) (a b c : α) (hab : decide (uid a ≤ uid b) = true)
    (hbc : decide (uid b ≤ uid c) = true) : decide (uid a ≤ uid c) = true :=
  decide_eq_true (String.le_trans (of_decide_eq_true hab) (of_decide_eq_true hbc))

theorem uid_le_total (uid : α → String) (a b : α) :
    (decide (uid a ≤ uid b) || decide (uid b ≤ uid a)) = true := by
  rw [Bool.or_eq_true, decide_eq_true_iff, decide_eq_true_iff]
  exact String.le_total _ _

theorem sortByUid_sorted (uid : α → String) (l : List α) :
    (sortByUid uid l).Pairwise fun a b => uid a ≤ uid b :=
  (List.pairwise_mergeSort (uid_le_trans uid) (uid_le_total uid) l).imp of_decide_eq_true

theorem sortByUid_ascending (h : (l.map uid).Nodup) :
    (sortByUid uid l).Pairwise fun a b => uid a < uid b := by
  have hn : (sortByUid uid l).Pairwise fun a b => uid a ≠ uid b :=
    List.pairwise_map.mp (((sortByUid_perm uid l).map uid).nodup_iff.mpr h)
  refine (hn.and (sortByUid_sorted uid l)).imp ?_
  rintro a b ⟨hne, hle⟩
  rw [← String.not_le]
  exact fun hge => hne (String.le_antisymm hle hge)

theorem nodup_of_ascending (h : l.Pairwise fun a b => uid a < uid b) : (l.map uid).Nodup := by
  rw [List.Nodup, List.pairwise_map]
  refine h.imp ?_
  intro a b hlt he
  rw [he] at hlt
  exact String.lt_irrefl _ hlt

end Order

/-- What parent references name a resource by. -/
def refKey (r : Resource) : String × String × String :=
  (r.reference.kind, r.reference.ns, r.reference.name)

theorem matches_iff {p : ParentRef} {r : Resource} :
    p.matches r.reference = true ↔ refKey r = (p.kind, p.ns, p.name) := by
  simp [ParentRef.matches, refKey, and_assoc]

theorem findIdx?_eq_some_iff {rs : List Resource} (hn : (rs.map refKey).Nodup) {r : Resource}
    {i : Nat} (hr : rs[i]? = some r) (p : ParentRef) :
    rs.findIdx? (p.matches ·.reference) = some i ↔ p.matches r.reference = true := by
  obtain ⟨hi, rfl⟩ := List.getElem?_eq_some_iff.mp hr
  rw [List.findIdx?_eq_some_iff_getElem]
  constructor
  · rintro ⟨_, hm, _⟩
    exact hm
  · intro hm
    refine ⟨hi, hm, fun j hj hmj => ?_⟩
    have hne : refKey rs[j] ≠ refKey rs[i] :=
      List.pairwise_iff_getElem.mp (List.pairwise_map.mp hn) j i (Nat.lt_trans hj hi) hi hj
    exact hne ((matches_iff.mp hmj).trans (matches_iff.mp hm).symm)

/-- A resource that brings its own subscribers and those whose parent it is. -/
structure Gathers (fs : List Fragment) (r s : Resource) : Prop where
  eq : s = { r with egresses := s.egresses }
  sorted : s.egresses.Pairwise fun d e => d.uid ≤ e.uid
  egresses : ∃ attached, s.egresses.Perm (r.egresses ++ attached) ∧
    (attached.map (·.uid)).Nodup ∧
    ∀ e, e ∈ attached ↔
      ∃ (f : Fragment) (p : ParentRef), f.Wins fs ∧ f.contribution = .egress p e ∧
        p.matches r.reference = true

theorem Gathers.uid {fs : List Fragment} {r s : Resource} (h : Gathers fs r s) : s.uid = r.uid := by
  rw [h.eq]

theorem Gathers.reference {fs : List Fragment} {r s : Resource} (h : Gathers fs r s) :
    s.reference = r.reference := by
  rw [h.eq]

theorem exists_gathers {fs : List Fragment} (hc : ∀ f ∈ fs, f.Coherent)
    {routes : List (Resource × Address)} (hn : (routes.map fun (r, _) => refKey r).Nodup)
    {s : Resource} (h : s ∈ content routes fs) : ∃ r a, (r, a) ∈ routes ∧ Gathers fs r s := by
  obtain ⟨⟨r, i⟩, hi, rfl⟩ := List.mem_map.mp ((sortByUid_perm _ _).mem_iff.mp h)
  have hr := List.mk_mem_zipIdx_iff_getElem?.mp hi
  have hm := List.mem_of_getElem? hr
  obtain ⟨⟨r, a⟩, hra, rfl⟩ := List.mem_map.mp hm
  have hk : ((routes.map Prod.fst).map refKey).Nodup := by
    rw [List.map_map]
    exact hn
  refine ⟨r, a, hra, rfl, sortByUid_sorted _ _, _, sortByUid_perm _ _, ?_, ?_⟩
  · rw [List.map_map]
    exact (List.filter_sublist.map _).nodup (egresses_nodup hc)
  · intro e
    rw [List.mem_map]
    constructor
    · rintro ⟨⟨p, e⟩, hpe, rfl⟩
      obtain ⟨hpe, hf⟩ := List.mem_filter.mp hpe
      obtain ⟨f, hf', he⟩ := mem_egresses.mp hpe
      have hm := (findIdx?_eq_some_iff hk hr p).mp (eq_of_beq hf)
      exact ⟨f, p, mem_winners.mp hf', he, hm⟩
    · rintro ⟨f, p, hf, he, hm⟩
      refine ⟨(p, e), List.mem_filter.mpr ⟨?_, ?_⟩, rfl⟩
      · exact mem_egresses.mpr ⟨f, mem_winners.mpr hf, he⟩
      · exact beq_iff_eq.mpr ((findIdx?_eq_some_iff hk hr p).mpr hm)

end Build

namespace Outcome

variable {o : Outcome} {uid : String}

theorem state_of_pending (hn : (o.pending.map (·.uid)).Nodup) {w : Pending} (hw : w ∈ o.pending) :
    o.state w.uid = .pending w.failures := by
  rw [state, pending?, Build.find?_uid hn hw]

theorem pending?_eq_none (hp : uid ∉ o.pending.map (·.uid)) : o.pending? uid = none := by
  rw [pending?, List.find?_eq_none]
  intro w hw hu
  exact hp (List.mem_map.mpr ⟨w, hw, eq_of_beq hu⟩)

theorem state_of_detached (hp : uid ∉ o.pending.map (·.uid)) (hd : uid ∈ o.detached.map (·.uid)) :
    o.state uid = .detached := by
  obtain ⟨d, hm, hu⟩ := List.mem_map.mp hd
  have hs : (o.detached? uid).isSome = true := by
    rw [detached?, List.find?_isSome]
    exact ⟨d, hm, beq_iff_eq.mpr hu⟩
  rw [state, pending?_eq_none hp, if_pos hs]

theorem state_of_routes (hp : uid ∉ o.pending.map (·.uid)) (hd : uid ∉ o.detached.map (·.uid))
    (hr : o.contract.routes uid = true) : o.state uid = .routed := by
  have hs : ¬(o.detached? uid).isSome = true := by
    rw [detached?, List.find?_isSome]
    rintro ⟨d, hm, hu⟩
    exact hd (List.mem_map.mpr ⟨d, hm, eq_of_beq hu⟩)
  rw [state, pending?_eq_none hp]
  exact (if_neg hs).trans (if_pos hr)

end Outcome

namespace Build

section Places

variable {readiness : Readiness} {fs : List Fragment} {current : Contract}
  {admitted : Table String Address}

/-- References tell the resources that win apart. -/
def Told (fs : List Fragment) : Prop :=
  ∀ (f g : Fragment) r a s b, f.Wins fs → g.Wins fs → f.contribution = .resource r a →
    g.contribution = .resource s b → refKey r = refKey s → f = g

theorem refKeys_nodup (ht : Told fs) :
    ((resources (winners fs)).map fun (r, _) => refKey r).Nodup := by
  apply List.pairwise_map.mpr (resources_winners_pairwise _)
  intro f hf g hg r a s b hr hs hu hk
  have hfg := ht f g r a s b (mem_winners.mp hf) (mem_winners.mp hg) hr hs hk
  exact hu (congrArg Fragment.uid hfg)

theorem build_pending : (build readiness fs current admitted).pending =
    sortByUid (·.uid) (((resources (winners fs)).filter fun (r, a) =>
      !(isCarried current admitted r a || readiness.ready a)).map fun (r, a) =>
        ⟨r.uid, a, readiness.failures a⟩) := rfl

theorem build_detached : (build readiness fs current admitted).detached =
    sortByUid (·.uid) (((egresses (winners fs)).filter fun (p, _) =>
      isDetached ((routed readiness fs current admitted).map Prod.fst) p).map fun (p, e) =>
        ⟨e.uid, p⟩) := rfl

theorem mem_pending {w : Pending} : w ∈ (build readiness fs current admitted).pending ↔
    ∃ r a, (r, a) ∈ resources (winners fs) ∧
      (isCarried current admitted r a || readiness.ready a) = false ∧
      w = ⟨r.uid, a, readiness.failures a⟩ := by
  rw [build_pending, (sortByUid_perm _ _).mem_iff, List.mem_map]
  constructor
  · rintro ⟨⟨r, a⟩, hra, rfl⟩
    obtain ⟨hm, hn⟩ := List.mem_filter.mp hra
    exact ⟨r, a, hm, (Bool.not_eq_true' _).mp hn, rfl⟩
  · rintro ⟨r, a, hm, hn, rfl⟩
    exact ⟨(r, a), List.mem_filter.mpr ⟨hm, (Bool.not_eq_true' _).mpr hn⟩, rfl⟩

theorem mem_detached {d : Detached} : d ∈ (build readiness fs current admitted).detached ↔
    ∃ p e, (p, e) ∈ egresses (winners fs) ∧
      (∀ r a, (r, a) ∈ routed readiness fs current admitted → p.matches r.reference = false) ∧
      d = ⟨e.uid, p⟩ := by
  have hd (p : ParentRef) :
      isDetached ((routed readiness fs current admitted).map Prod.fst) p = true ↔
        ∀ r a, (r, a) ∈ routed readiness fs current admitted → p.matches r.reference = false := by
    rw [isDetached, Bool.not_eq_true', List.any_eq_false]
    simp only [List.mem_map, Prod.exists, exists_and_right, exists_eq_right, forall_exists_index,
      Bool.not_eq_true]
  rw [build_detached, (sortByUid_perm _ _).mem_iff, List.mem_map]
  constructor
  · rintro ⟨⟨p, e⟩, hpe, rfl⟩
    obtain ⟨hm, hn⟩ := List.mem_filter.mp hpe
    exact ⟨p, e, hm, (hd p).mp hn, rfl⟩
  · rintro ⟨p, e, hm, hn, rfl⟩
    exact ⟨(p, e), List.mem_filter.mpr ⟨hm, (hd p).mpr hn⟩, rfl⟩

theorem contract_ascending (hc : ∀ f ∈ fs, f.Coherent) :
    (build readiness fs current admitted).contract.resources.Pairwise
      fun r s => r.uid < s.uid := by
  rw [build_resources]
  apply sortByUid_ascending
  rw [attach_map (·.uid) fun _ _ => rfl, List.map_map]
  exact (List.filter_sublist.map _).nodup (resources_nodup hc)

theorem pending_ascending (hc : ∀ f ∈ fs, f.Coherent) :
    (build readiness fs current admitted).pending.Pairwise fun w v => w.uid < v.uid := by
  rw [build_pending]
  apply sortByUid_ascending
  rw [List.map_map]
  exact (List.filter_sublist.map _).nodup (resources_nodup hc)

theorem detached_ascending (hc : ∀ f ∈ fs, f.Coherent) :
    (build readiness fs current admitted).detached.Pairwise fun d c => d.uid < c.uid := by
  rw [build_detached]
  apply sortByUid_ascending
  rw [List.map_map]
  exact (List.filter_sublist.map _).nodup (egresses_nodup hc)

/-- What holds of the places that fragments end up in. -/
structure Partition (readiness : Readiness) (fs : List Fragment) (current : Contract)
    (admitted : Table String Address) (o : Outcome) : Prop where
  resources_ascending : o.contract.resources.Pairwise fun r s => r.uid < s.uid
  pending_ascending : o.pending.Pairwise fun w v => w.uid < v.uid
  detached_ascending : o.detached.Pairwise fun d c => d.uid < c.uid
  of_contract : ∀ s ∈ o.contract.resources, ∃ (f : Fragment) (r : Resource) (a : Address),
    f.Wins fs ∧ f.contribution = .resource r a ∧ Gathers fs r s
  of_pending : ∀ w ∈ o.pending, ∃ (f : Fragment) (r : Resource) (a : Address),
    f.Wins fs ∧ f.contribution = .resource r a ∧ w = ⟨f.uid, a, readiness.failures a⟩
  of_detached : ∀ d ∈ o.detached, ∃ (f : Fragment) (p : ParentRef) (e : Egress),
    f.Wins fs ∧ f.contribution = .egress p e ∧ d = ⟨f.uid, p⟩
  resource : ∀ (f : Fragment) (r : Resource) (a : Address), f.Wins fs →
    f.contribution = .resource r a →
      if isCarried current admitted r a || readiness.ready a then
        o.contract.HasResource f.uid ∧ f.uid ∉ o.pending.map (·.uid) ∧ o.state f.uid = .routed
      else
        ¬o.contract.HasResource f.uid ∧ f.uid ∈ o.pending.map (·.uid) ∧
          o.state f.uid = .pending (readiness.failures a)
  egress : ∀ (f : Fragment) (p : ParentRef) (e : Egress), f.Wins fs →
    f.contribution = .egress p e →
      (∃ s ∈ o.contract.resources, (∀ t ∈ o.contract.resources,
          p.matches t.reference = true ↔ t = s) ∧ e ∈ s.egresses) ∧
        f.uid ∉ o.detached.map (·.uid) ∧ o.state f.uid = .routed ∨
      (∀ s ∈ o.contract.resources, p.matches s.reference = false) ∧
        f.uid ∈ o.detached.map (·.uid) ∧ o.state f.uid = .detached

theorem exists_of_mem_pending (hc : ∀ f ∈ fs, f.Coherent) {w : Pending}
    (hw : w ∈ (build readiness fs current admitted).pending) :
    ∃ (f : Fragment) (r : Resource) (a : Address), f.Wins fs ∧ f.contribution = .resource r a ∧
      (isCarried current admitted r a || readiness.ready a) = false ∧
      w = ⟨f.uid, a, readiness.failures a⟩ := by
  obtain ⟨r, a, hm, hn, rfl⟩ := mem_pending.mp hw
  obtain ⟨f, hf, hr⟩ := mem_resources.mp hm
  have hu := (hc f (mem_of_mem_winners hf)).resource_uid hr
  exact ⟨f, r, a, mem_winners.mp hf, hr, hn, hu ▸ rfl⟩

theorem exists_of_mem_detached (hc : ∀ f ∈ fs, f.Coherent) {d : Detached}
    (hd : d ∈ (build readiness fs current admitted).detached) :
    ∃ (f : Fragment) (p : ParentRef) (e : Egress), f.Wins fs ∧ f.contribution = .egress p e ∧
      (∀ r a, (r, a) ∈ routed readiness fs current admitted → p.matches r.reference = false) ∧
      d = ⟨f.uid, p⟩ := by
  obtain ⟨p, e, hm, hn, rfl⟩ := mem_detached.mp hd
  obtain ⟨f, hf, he⟩ := mem_egresses.mp hm
  have hu := (hc f (mem_of_mem_winners hf)).egress_uid he
  exact ⟨f, p, e, mem_winners.mp hf, he, hn, hu ▸ rfl⟩

theorem exists_routed (hc : ∀ f ∈ fs, f.Coherent) (ht : Told fs) {s : Resource}
    (hs : s ∈ (build readiness fs current admitted).contract.resources) :
    ∃ r a, (r, a) ∈ routed readiness fs current admitted ∧ Gathers fs r s := by
  rw [build_resources] at hs
  exact exists_gathers hc ((List.filter_sublist.map _).nodup (refKeys_nodup ht)) hs

theorem exists_resource_of_routed {r : Resource} {a : Address}
    (h : (r, a) ∈ routed readiness fs current admitted) :
    ∃ s ∈ (build readiness fs current admitted).contract.resources, s.reference = r.reference := by
  have hp := content_map (·.reference) (fun _ _ => rfl) (routed readiness fs current admitted) fs
  rw [build_resources]
  exact List.mem_map.mp (hp.mem_iff.mpr (List.mem_map_of_mem h))

section Resources

variable {f : Fragment} {r : Resource} {a : Address}

theorem resource_not_detached (hc : ∀ f ∈ fs, f.Coherent) (hf : f.Wins fs)
    (hr : f.contribution = .resource r a) :
    f.uid ∉ (build readiness fs current admitted).detached.map (·.uid) := by
  intro hd
  obtain ⟨d, hd, hdu⟩ := List.mem_map.mp hd
  obtain ⟨g, p, e, hg, he, _, rfl⟩ := exists_of_mem_detached hc hd
  obtain rfl := hg.unique hf hdu
  cases hr.symm.trans he

theorem resource_pending_iff (hc : ∀ f ∈ fs, f.Coherent) (hf : f.Wins fs)
    (hr : f.contribution = .resource r a) :
    f.uid ∈ (build readiness fs current admitted).pending.map (·.uid) ↔
      (isCarried current admitted r a || readiness.ready a) = false := by
  constructor
  · intro hp
    obtain ⟨w, hw, hwu⟩ := List.mem_map.mp hp
    obtain ⟨g, q, b, hg, hgr, hn, rfl⟩ := exists_of_mem_pending hc hw
    obtain rfl := hg.unique hf hwu
    cases hr.symm.trans hgr
    exact hn
  · intro hn
    have hm := mem_resources.mpr ⟨f, mem_winners.mpr hf, hr⟩
    exact List.mem_map.mpr ⟨_, mem_pending.mpr ⟨r, a, hm, hn, rfl⟩, (hc f hf.mem).resource_uid hr⟩

theorem resource_contract_iff (hc : ∀ f ∈ fs, f.Coherent) (hf : f.Wins fs)
    (hr : f.contribution = .resource r a) :
    (build readiness fs current admitted).contract.HasResource f.uid ↔
      (isCarried current admitted r a || readiness.ready a) = true := by
  have hm := mem_resources.mpr ⟨f, mem_winners.mpr hf, hr⟩
  have hu := (hc f hf.mem).resource_uid hr
  rw [build_hasResource]
  constructor
  · rintro ⟨s, b, hs, hsu⟩
    obtain ⟨hsm, hb⟩ := List.mem_filter.mp hs
    have he : (s, b) = (r, a) :=
      List.inj_on_of_nodup_map (resources_nodup hc) hsm hm (hsu.trans hu.symm)
    cases he
    exact hb
  · intro ha
    exact ⟨r, a, List.mem_filter.mpr ⟨hm, ha⟩, hu⟩

/-- A resource that wins is routed if it is carried over or ready, and pending otherwise. -/
theorem resource_place (hc : ∀ f ∈ fs, f.Coherent) (hf : f.Wins fs)
    (hr : f.contribution = .resource r a) :
    if isCarried current admitted r a || readiness.ready a then
      (build readiness fs current admitted).contract.HasResource f.uid ∧
        f.uid ∉ (build readiness fs current admitted).pending.map (·.uid) ∧
        (build readiness fs current admitted).state f.uid = .routed
    else
      ¬(build readiness fs current admitted).contract.HasResource f.uid ∧
        f.uid ∈ (build readiness fs current admitted).pending.map (·.uid) ∧
        (build readiness fs current admitted).state f.uid = .pending (readiness.failures a) := by
  have hcontract : (build readiness fs current admitted).contract.HasResource f.uid ↔ _ :=
    resource_contract_iff hc hf hr
  have hpending : f.uid ∈ (build readiness fs current admitted).pending.map (·.uid) ↔ _ :=
    resource_pending_iff hc hf hr
  split
  next ha =>
    have hs := hcontract.mpr ha
    have hp := mt hpending.mp (ne_of_eq_of_ne ha Bool.noConfusion)
    exact ⟨hs, hp, Outcome.state_of_routes hp (resource_not_detached hc hf hr)
      (Contract.routes_iff.mpr (.inl hs))⟩
  next ha =>
    have hn := (Bool.not_eq_true _).mp ha
    have hp := hpending.mpr hn
    have hs := mt hcontract.mp ha
    obtain ⟨w, hw, hwu⟩ := List.mem_map.mp hp
    obtain ⟨g, q, b, hg, hgr, _, rfl⟩ := exists_of_mem_pending hc hw
    obtain rfl := hg.unique hf hwu
    cases hr.symm.trans hgr
    exact ⟨hs, hp, Outcome.state_of_pending (nodup_of_ascending (pending_ascending hc)) hw⟩

end Resources

section Egresses

variable {f : Fragment} {p : ParentRef} {e : Egress} {s t : Resource}

theorem egress_not_pending (hc : ∀ f ∈ fs, f.Coherent) (hf : f.Wins fs)
    (he : f.contribution = .egress p e) :
    f.uid ∉ (build readiness fs current admitted).pending.map (·.uid) := by
  intro hp
  obtain ⟨w, hw, hwu⟩ := List.mem_map.mp hp
  obtain ⟨g, s, b, hg, hs, _, rfl⟩ := exists_of_mem_pending hc hw
  obtain rfl := hg.unique hf hwu
  cases he.symm.trans hs

theorem parent_unique (hc : ∀ f ∈ fs, f.Coherent) (ht : Told fs)
    (hs : s ∈ (build readiness fs current admitted).contract.resources)
    (hms : p.matches s.reference = true)
    (hts : t ∈ (build readiness fs current admitted).contract.resources)
    (hmt : p.matches t.reference = true) : t = s := by
  obtain ⟨r, a, hra, hg⟩ := exists_routed hc ht hs
  obtain ⟨q, b, hqb, hgt⟩ := exists_routed hc ht hts
  have hk : refKey q = refKey r :=
    (matches_iff.mp (hgt.reference ▸ hmt)).trans (matches_iff.mp (hg.reference ▸ hms)).symm
  have hqr : (q, b) = (r, a) :=
    List.inj_on_of_nodup_map (refKeys_nodup ht) (List.mem_of_mem_filter hqb)
      (List.mem_of_mem_filter hra) hk
  cases hqr
  exact List.inj_on_of_nodup_map (nodup_of_ascending (contract_ascending hc)) hts hs
    (hgt.uid.trans hg.uid.symm)

theorem egress_attached (hc : ∀ f ∈ fs, f.Coherent) (ht : Told fs) (hf : f.Wins fs)
    (he : f.contribution = .egress p e)
    (hs : s ∈ (build readiness fs current admitted).contract.resources)
    (hms : p.matches s.reference = true) : e ∈ s.egresses := by
  obtain ⟨r, a, _, hg⟩ := exists_routed hc ht hs
  obtain ⟨attached, hperm, _, hat⟩ := hg.egresses
  have ha : e ∈ attached := (hat e).mpr ⟨f, p, hf, he, hg.reference ▸ hms⟩
  exact hperm.mem_iff.mpr (List.mem_append_right _ ha)

theorem egress_detached_iff (hc : ∀ f ∈ fs, f.Coherent) (ht : Told fs) (hf : f.Wins fs)
    (he : f.contribution = .egress p e) :
    f.uid ∈ (build readiness fs current admitted).detached.map (·.uid) ↔
      ∀ s ∈ (build readiness fs current admitted).contract.resources,
        p.matches s.reference = false := by
  constructor
  · intro hd s hs
    obtain ⟨d, hd, hdu⟩ := List.mem_map.mp hd
    obtain ⟨g, q, d, hgw, hge, hn, rfl⟩ := exists_of_mem_detached hc hd
    obtain rfl := hgw.unique hf hdu
    cases he.symm.trans hge
    obtain ⟨r, a, hra, hg⟩ := exists_routed hc ht hs
    rw [hg.reference]
    exact hn r a hra
  · intro hn
    have hm := mem_egresses.mpr ⟨f, mem_winners.mpr hf, he⟩
    refine List.mem_map.mpr ⟨_, mem_detached.mpr ⟨p, e, hm, ?_, rfl⟩, (hc f hf.mem).egress_uid he⟩
    intro r a hra
    obtain ⟨s, hs, hsr⟩ := exists_resource_of_routed hra
    exact hsr ▸ hn s hs

/-- A subscriber that wins is with its parent if this one is routed, and detached otherwise. -/
theorem egress_place (hc : ∀ f ∈ fs, f.Coherent) (ht : Told fs) (hf : f.Wins fs)
    (he : f.contribution = .egress p e) :
    (∃ s ∈ (build readiness fs current admitted).contract.resources,
        (∀ t ∈ (build readiness fs current admitted).contract.resources,
          p.matches t.reference = true ↔ t = s) ∧ e ∈ s.egresses) ∧
      f.uid ∉ (build readiness fs current admitted).detached.map (·.uid) ∧
      (build readiness fs current admitted).state f.uid = .routed ∨
    (∀ s ∈ (build readiness fs current admitted).contract.resources,
        p.matches s.reference = false) ∧
      f.uid ∈ (build readiness fs current admitted).detached.map (·.uid) ∧
      (build readiness fs current admitted).state f.uid = .detached := by
  have hp : f.uid ∉ (build readiness fs current admitted).pending.map (·.uid) :=
    egress_not_pending hc hf he
  by_cases hd : f.uid ∈ (build readiness fs current admitted).detached.map (·.uid)
  · exact .inr ⟨(egress_detached_iff hc ht hf he).mp hd, hd, Outcome.state_of_detached hp hd⟩
  · have hn := mt (egress_detached_iff hc ht hf he).mpr hd
    push Not at hn
    obtain ⟨s, hs, hns⟩ := hn
    have hms := Bool.ne_false_iff.mp hns
    have hes := egress_attached hc ht hf he hs hms
    refine .inl ⟨⟨s, hs, fun t hts => ⟨parent_unique hc ht hs hms hts, ?_⟩, hes⟩, hd,
      Outcome.state_of_routes hp hd (Contract.routes_iff.mpr
        (.inr ⟨e, ⟨s, hs, hes⟩, (hc f hf.mem).egress_uid he⟩))⟩
    rintro rfl
    exact hms

end Egresses

/-- Every build partitions the fragments that win. -/
theorem build_partitions (hc : ∀ f ∈ fs, f.Coherent) (ht : Told fs) :
    Partition readiness fs current admitted (build readiness fs current admitted) where
  resources_ascending := contract_ascending hc
  pending_ascending := pending_ascending hc
  detached_ascending := detached_ascending hc
  of_contract s hs := by
    obtain ⟨r, a, hra, hg⟩ := exists_routed hc ht hs
    obtain ⟨f, hf, hr⟩ := mem_resources.mp (List.mem_of_mem_filter hra)
    exact ⟨f, r, a, mem_winners.mp hf, hr, hg⟩
  of_pending w hw := by
    obtain ⟨f, r, a, hf, hr, _, he⟩ := exists_of_mem_pending hc hw
    exact ⟨f, r, a, hf, hr, he⟩
  of_detached d hd := by
    obtain ⟨f, p, e, hf, he, _, hd⟩ := exists_of_mem_detached hc hd
    exact ⟨f, p, e, hf, he, hd⟩
  resource f r a hf hr := resource_place hc hf hr
  egress f p e hf he := egress_place hc ht hf he

end Places

def sightedBroker : Fragment where
  uid := "b"
  observedAt := ⟨1, 0⟩
  contribution := .resource
    { uid := "b", reference := { kind := "KafkaBroker", ns := "ns", name := "b" } }
    ⟨"h", 80, "/b", false⟩

def sightedTrigger : Fragment where
  uid := "t"
  observedAt := ⟨1, 0⟩
  contribution := .egress ⟨"KafkaBroker", "ns", "b"⟩
    { uid := "t", consumerGroup := "g", destination := "http://s" }

def sightedSink (t : Instant) : Fragment where
  uid := "s"
  observedAt := t
  contribution := .resource
    { uid := "s", reference := { kind := "KafkaSink", ns := "ns", name := "s" } }
    ⟨"h", 80, "/s", false⟩

def sighted : List Fragment :=
  [sightedSink ⟨2, 0⟩, sightedTrigger, sightedBroker, sightedSink ⟨1, 0⟩]

theorem winners_sighted :
    winners sighted = [sightedSink ⟨2, 0⟩, sightedTrigger, sightedBroker] := by
  decide +kernel

theorem sighted_coherent : ∀ f ∈ sighted, f.Coherent := by
  simp only [sighted, List.forall_mem_cons]
  exact ⟨rfl, rfl, rfl, rfl, fun _ hm => absurd hm List.not_mem_nil⟩

theorem sighted_told : Told sighted := by
  have hk {f : Fragment} {r : Resource} {a : Address} (hf : f.Wins sighted)
      (hr : f.contribution = .resource r a) :
      f = sightedSink ⟨2, 0⟩ ∧ (refKey r).1 = "KafkaSink" ∨
        f = sightedBroker ∧ (refKey r).1 = "KafkaBroker" := by
    have hm := mem_winners.mpr hf
    rw [winners_sighted] at hm
    rcases List.mem_cons.mp hm with rfl | hm
    · cases hr
      exact .inl ⟨rfl, rfl⟩
    · rcases List.mem_cons.mp hm with rfl | hm
      · cases hr
      · rw [List.mem_singleton.mp hm] at hr ⊢
        cases hr
        exact .inr ⟨rfl, rfl⟩
  intro f g r a s b hf hg hr hs he
  rcases hk hf hr with ⟨rfl, hfr⟩ | ⟨rfl, hfr⟩
  · rcases hk hg hs with ⟨rfl, _⟩ | ⟨rfl, hgs⟩
    · rfl
    · rw [he, hgs] at hfr
      exact absurd hfr (by decide)
  · rcases hk hg hs with ⟨rfl, hgs⟩ | ⟨rfl, _⟩
    · rw [he, hgs] at hfr
      exact absurd hfr (by decide)
    · rfl

theorem build_partitions_sighted :
    let o := build ⟨fun a => a.path == "/b", fun _ => 2⟩ sighted {} []
    o.contract.HasResource "b" ∧ o.state "b" = .routed ∧ o.state "t" = .routed ∧
      o.state "s" = .pending 2 := by
  intro o
  have hw (f : Fragment) (hf : f ∈ winners sighted) : f.Wins sighted := mem_winners.mp hf
  rw [winners_sighted] at hw
  have ho : Partition ⟨fun a => a.path == "/b", fun _ => 2⟩ sighted {} [] o :=
    build_partitions sighted_coherent sighted_told
  have hbw : sightedBroker.Wins sighted := hw _ (by simp)
  have hb := ho.resource sightedBroker _ _ hbw rfl
  have hs := ho.resource (sightedSink ⟨2, 0⟩) _ _ (hw _ (by simp)) rfl
  refine ⟨hb.1, hb.2.2, ?_, hs.2.2⟩
  rcases ho.egress sightedTrigger _ _ (hw _ (by simp)) rfl with ⟨_, _, ht⟩ | ⟨hn, _⟩
  · exact ht
  · -- the broker is there, so the trigger has its parent
    obtain ⟨s, hsm, hsu⟩ := hb.1
    obtain ⟨f, r, a, hf, hr, hg⟩ := ho.of_contract s hsm
    have hu := (sighted_coherent f hf.mem).resource_uid hr
    obtain rfl := hf.unique hbw (hu.symm.trans (hg.uid.symm.trans hsu))
    cases hr
    have hns := hn s hsm
    rw [hg.reference] at hns
    exact absurd hns (by decide)

end Build

end EventRouting
