import EventRouting.Proofs.Routing.Rearrangement

namespace EventRouting

/-- Resources and subscribers are sorted by their uids, apart from each other. -/
def Contribution.key : Contribution → String ⊕ String
  | .resource r _ => .inl r.uid
  | .egress _ e => .inr e.uid

/-- What parent references name the contribution by. -/
def Contribution.refKey? : Contribution → Option (String × String × String)
  | .resource r _ => some (Build.refKey r)
  | .egress _ _ => none

theorem Fragment.Coherent.key_cases {f : Fragment} (h : f.Coherent) :
    f.contribution.key = .inl f.uid ∨ f.contribution.key = .inr f.uid := by
  cases hc : f.contribution with
  | resource r a => exact .inl (congrArg Sum.inl (h.resource_uid hc))
  | egress p e => exact .inr (congrArg Sum.inr (h.egress_uid hc))

theorem Instant.le_antisymm {a b : Instant} (hab : a.le b = true) (hba : b.le a = true) :
    a = b := by
  rw [le_iff] at hab hba
  obtain ⟨as, an⟩ := a
  obtain ⟨bs, bn⟩ := b
  rw [Instant.mk.injEq]
  dsimp only at hab hba
  omega

/-- Outcomes that say the same. The addresses are a set, and what was admitted is a map. -/
structure Outcome.Agrees (o o' : Outcome) : Prop where
  contract : o.contract = o'.contract
  changed : o.changed = o'.changed
  pending : o.pending = o'.pending
  detached : o.detached = o'.detached
  referenced : ∀ a, a ∈ o.referenced ↔ a ∈ o'.referenced
  admitted : ∀ uid, o.admitted.get? uid = o'.admitted.get? uid

namespace Build

/-- What a build may return, as it meets the winners in whatever order. -/
def Returns (readiness : Readiness) (fs : List Fragment) (current : Contract)
    (admitted : Table String Address) (o : Outcome) : Prop :=
  ∃ ws, (winners fs).Perm ws ∧ o = outcome readiness ws current admitted

theorem returns_build (readiness : Readiness) (fs : List Fragment) (current : Contract)
    (admitted : Table String Address) :
    Returns readiness fs current admitted (build readiness fs current admitted) :=
  ⟨winners fs, .rfl, rfl⟩

/-- Fragments of one uid were observed at different times. Those of different uids contribute under
different keys, and no parent reference names the resources of two of them. -/
structure Apart (fs : List Fragment) : Prop where
  observed : fs.Pairwise fun f g => f.uid = g.uid → f.observedAt ≠ g.observedAt
  uids : ∀ f ∈ fs, ∀ g ∈ fs, f.contribution.key = g.contribution.key → f.uid = g.uid
  references : ∀ f ∈ fs, ∀ g ∈ fs, f.contribution.refKey?.isSome →
    f.contribution.refKey? = g.contribution.refKey? → f.uid = g.uid

variable {fs gs : List Fragment}

theorem uids_apart_of_coherent (hc : ∀ f ∈ fs, f.Coherent) :
    ∀ f ∈ fs, ∀ g ∈ fs, f.contribution.key = g.contribution.key → f.uid = g.uid := by
  intro f hf g hg hu
  rcases (hc f hf).key_cases with hk | hk <;> rcases (hc g hg).key_cases with hl | hl
  · exact Sum.inl.inj (hk.symm.trans (hu.trans hl))
  · cases hk.symm.trans (hu.trans hl)
  · cases hk.symm.trans (hu.trans hl)
  · exact Sum.inr.inj (hk.symm.trans (hu.trans hl))

namespace Apart

theorem of_perm (h : Apart fs) (hp : fs.Perm gs) : Apart gs where
  observed := by
    apply hp.pairwise h.observed
    intro f g hfg hu ho
    exact hfg hu.symm ho.symm
  uids f hf g hg := h.uids f (hp.mem_iff.mpr hf) g (hp.mem_iff.mpr hg)
  references f hf g hg := h.references f (hp.mem_iff.mpr hf) g (hp.mem_iff.mpr hg)

/-- Without ties, what wins is told by the times alone. -/
theorem wins_iff (h : Apart fs) {f : Fragment} :
    f.Wins fs ↔ f ∈ fs ∧ ∀ g ∈ fs, g.uid = f.uid → g.observedAt.le f.observedAt = true := by
  constructor
  · intro hw
    exact ⟨hw.mem, fun g hg hu => hw.observed hg hu⟩
  · rintro ⟨hf, hl⟩
    obtain ⟨earlier, later, rfl⟩ := List.append_of_mem hf
    refine ⟨earlier, later, rfl, fun g hg => hl g (List.mem_append_left _ hg), ?_⟩
    intro g hg hu
    have hm : g ∈ earlier ++ f :: later :=
      List.mem_append_right _ (List.mem_cons_of_mem f hg)
    have hne : f.observedAt ≠ g.observedAt :=
      List.rel_of_pairwise_cons (List.pairwise_append.mp h.observed).2.1 hg hu.symm
    rw [← Bool.not_eq_true]
    intro hfg
    exact hne (Instant.le_antisymm hfg (hl g hm hu))

theorem wins_perm (h : Apart fs) (hp : fs.Perm gs) {f : Fragment} : f.Wins fs ↔ f.Wins gs := by
  rw [h.wins_iff, (h.of_perm hp).wins_iff, hp.mem_iff]
  exact and_congr_right fun _ => forall_congr' fun g => by rw [hp.mem_iff]

theorem winners_perm (h : Apart fs) (hp : fs.Perm gs) : (winners fs).Perm (winners gs) := by
  rw [List.perm_ext_iff_of_nodup (winners_nodup fs).of_map (winners_nodup gs).of_map]
  intro f
  rw [mem_winners, mem_winners, h.wins_perm hp]

theorem distinct_winners (h : Apart fs) : Distinct (winners fs) where
  uids := winners_nodup fs
  resourceUids := by
    apply List.pairwise_map.mpr (resources_winners_pairwise _)
    intro f hf g hg r a s b hr hs hu hrs
    apply hu (h.uids f (mem_of_mem_winners hf) g (mem_of_mem_winners hg) _)
    rw [hr, hs]
    exact congrArg Sum.inl hrs
  egressUids := by
    apply List.pairwise_map.mpr (egresses_winners_pairwise _)
    intro f hf g hg p d q e hd he hu hde
    apply hu (h.uids f (mem_of_mem_winners hf) g (mem_of_mem_winners hg) _)
    rw [hd, he]
    exact congrArg Sum.inr hde
  references := by
    apply List.pairwise_map.mpr (resources_winners_pairwise _)
    intro f hf g hg r a s b hr hs hu hrs
    apply hu (h.references f (mem_of_mem_winners hf) g (mem_of_mem_winners hg) _ _)
    · rw [hr]
      rfl
    · rw [hr, hs]
      exact congrArg some hrs

end Apart

section Winners

variable {ws vs : List Fragment} {readiness : Readiness} {current : Contract}
  {admitted : Table String Address}

theorem mem_referenced {a : Address} :
    a ∈ (build readiness ws current admitted).referenced ↔
      a ∈ (resources (winners ws)).map Prod.snd :=
  List.mem_eraseDups

theorem isDetached_perm {rs rs' : List Resource} (hp : rs.Perm rs') (p : ParentRef) :
    isDetached rs p = isDetached rs' p := by
  rw [isDetached, hp.any_eq, isDetached]

namespace Distinct

theorem outcome_eq (h : Distinct ws) :
    outcome readiness ws current admitted = build readiness ws current admitted := by
  rw [build, h.winners_eq]

theorem pending_perm (h : Distinct ws) (hp : ws.Perm vs) :
    (build readiness ws current admitted).pending =
      (build readiness vs current admitted).pending := by
  rw [build_pending, build_pending, h.winners_eq, (h.of_perm hp).winners_eq]
  apply sortByUid_of_perm (((hp.filterMap _).filter _).map _)
  rw [List.map_map]
  exact (List.filter_sublist.map _).nodup h.resourceUids

theorem detached_perm (h : Distinct ws) (hp : ws.Perm vs) :
    (build readiness ws current admitted).detached =
      (build readiness vs current admitted).detached := by
  have hroutes := (h.routed_perm hp readiness current admitted).map Prod.fst
  have hparents : isDetached ((routed readiness ws current admitted).map Prod.fst) =
      isDetached ((routed readiness vs current admitted).map Prod.fst) :=
    funext (isDetached_perm hroutes)
  rw [build_detached, build_detached, h.winners_eq, (h.of_perm hp).winners_eq, hparents]
  apply sortByUid_of_perm (((hp.filterMap _).filter _).map _)
  rw [List.map_map]
  exact (List.filter_sublist.map _).nodup h.egressUids

theorem mem_referenced_perm (h : Distinct ws) (hp : ws.Perm vs) (a : Address) :
    a ∈ (build readiness ws current admitted).referenced ↔
      a ∈ (build readiness vs current admitted).referenced := by
  rw [mem_referenced, mem_referenced, h.winners_eq, (h.of_perm hp).winners_eq]
  exact ((hp.filterMap _).map Prod.snd).mem_iff

theorem admitted_perm (h : Distinct ws) (hp : ws.Perm vs) (uid : String) :
    (build readiness ws current admitted).admitted.get? uid =
      (build readiness vs current admitted).admitted.get? uid := by
  rw [build_admitted_eq (h.winners_eq.symm ▸ h.resourceUids),
    build_admitted_eq ((h.of_perm hp).winners_eq.symm ▸ (h.of_perm hp).resourceUids)]
  apply Table.get?_of_perm _ ((h.routed_perm hp readiness current admitted).map _)
  rw [h.routed_eq, Table.keys, List.map_map]
  exact (List.filter_sublist.map _).nodup h.resourceUids

/-- Nothing of an outcome depends on the order in which distinct winners are met. -/
theorem agrees (h : Distinct ws) (hp : ws.Perm vs) :
    (outcome readiness ws current admitted).Agrees (outcome readiness vs current admitted) := by
  rw [h.outcome_eq, (h.of_perm hp).outcome_eq]
  exact {
    contract := h.build_contract_perm hp readiness current admitted
    changed := h.build_changed_perm hp readiness current admitted
    pending := h.pending_perm hp
    detached := h.detached_perm hp
    referenced := h.mem_referenced_perm hp
    admitted := h.admitted_perm hp }

end Distinct

/-- Builds of the same fragments agree, in whatever order they come and the winners are met. -/
theorem build_agrees (h : Apart fs) (hp : fs.Perm gs) {o o' : Outcome}
    (ho : Returns readiness fs current admitted o)
    (ho' : Returns readiness gs current admitted o') : o.Agrees o' := by
  obtain ⟨ws, hw, rfl⟩ := ho
  obtain ⟨vs, hv, rfl⟩ := ho'
  have hwinners : ws.Perm vs := (hw.symm.trans (h.winners_perm hp)).trans hv
  exact (h.distinct_winners.of_perm hw).agrees hwinners

theorem build_agrees_of_reversed :
    let orphan : Fragment := ⟨"o", ⟨1, 0⟩, .egress ⟨"KafkaBroker", "ns", "x"⟩
      { uid := "o", consumerGroup := "g", destination := "http://s" }⟩
    let fs := orphan :: sighted
    let r : Readiness := ⟨fun a => a.path == "/b", fun _ => 2⟩
    let o := outcome r (winners fs).reverse {} []
    o.Agrees (build r fs.reverse {} []) ∧ o.changed = true ∧ o.detached.map (·.uid) = ["o"] ∧
      winners fs ≠ winners fs.reverse := by
  intro orphan fs r o
  have hc : ∀ f ∈ fs, f.Coherent := List.forall_mem_cons.mpr ⟨rfl, sighted_coherent⟩
  have hfs : Apart fs :=
    { observed := by decide +kernel
      uids := uids_apart_of_coherent hc
      references := by decide +kernel }
  have ho : Returns r fs {} [] o := ⟨_, (List.reverse_perm _).symm, rfl⟩
  have ha : o.Agrees (build r fs.reverse {} []) :=
    build_agrees hfs (List.reverse_perm fs).symm ho (returns_build r fs.reverse {} [])
  exact ⟨ha, by decide +kernel⟩

/-- Two resources of one uid stand in the contract in the order in which their fragments were
met. -/
theorem shared_uid_disagrees :
    let named (name : String) : Fragment :=
      ⟨name, ⟨0, 0⟩, .resource { uid := "r", reference := { name } } ⟨"h", 80, "/" ++ name, false⟩⟩
    let fs := [named "f", named "g"]
    let r : Readiness := ⟨fun _ => true, fun _ => 0⟩
    (fs.map (·.uid)).Nodup ∧ ((resources fs).map fun (r, _) => refKey r).Nodup ∧
      ∃ o o', Returns r fs {} [] o ∧ Returns r fs.reverse {} [] o' ∧ ¬o.Agrees o' := by
  intro named fs r
  have hf := (build_resources r fs {} []).trans (content_of_sorted (by decide +kernel))
  have hg := (build_resources r fs.reverse {} []).trans (content_of_sorted (by decide +kernel))
  refine ⟨by decide +kernel, by decide +kernel, _, _, returns_build r fs {} [],
    returns_build r fs.reverse {} [], fun h => ?_⟩
  rw [h.contract, hg] at hf
  exact absurd hf (by decide +kernel)

end Winners

end Build

end EventRouting
