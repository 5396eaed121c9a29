import EventRouting.Proofs.Routing.Partition

namespace EventRouting

namespace Build

section Sorting

variable {α : Type} {uid : α → String} {l m : List α}

theorem filter_sortByUid (uid : α → String) (l : List α) (k : String) :
    (sortByUid uid l).filter (uid · == k) = l.filter (uid · == k) := by
  have hequal : (l.filter (uid · == k)).Pairwise fun a b => decide (uid a ≤ uid b) = true := by
    apply List.pairwise_of_forall_mem_list
    intro a ha b hb
    have hak := eq_of_beq (List.mem_filter.mp ha).2
    have hbk := eq_of_beq (List.mem_filter.mp hb).2
    rw [hak, hbk]
    exact decide_eq_true (String.le_refl k)
  have hsub : (l.filter (uid · == k)).Sublist (sortByUid uid l) :=
    List.sublist_mergeSort (uid_le_trans uid) (uid_le_total uid) hequal List.filter_sublist
  have hfilter := hsub.filter (uid · == k)
  simp only [List.filter_filter, Bool.and_self] at hfilter
  have hlength := ((sortByUid_perm uid l).filter (uid · == k)).length_eq
  exact (hfilter.eq_of_length hlength.symm).symm

theorem filter_uid_cons (a : α) (l : List α) :
    (a :: l).filter (uid · == uid a) = a :: l.filter (uid · == uid a) := by
  have ha : (uid a == uid a) = true := beq_self_eq_true (uid a)
  exact List.filter_cons_of_pos (p := (uid · == uid a)) ha

/-- The head of a sorted list stands in every list with the same entries of each uid. -/
theorem le_head {a b : α} (hm : (b :: m).Pairwise fun a b => uid a ≤ uid b)
    (h : (a :: l).filter (uid · == uid a) = (b :: m).filter (uid · == uid a)) :
    uid b ≤ uid a := by
  have ha : a ∈ (b :: m).filter (uid · == uid a) := by
    rw [← h, filter_uid_cons]
    exact List.mem_cons_self
  rcases List.mem_cons.mp (List.mem_filter.mp ha).1 with rfl | ha
  · exact String.le_refl _
  · exact List.rel_of_pairwise_cons hm ha

theorem eq_of_filter_eq (hl : l.Pairwise fun a b => uid a ≤ uid b)
    (hm : m.Pairwise fun a b => uid a ≤ uid b)
    (h : ∀ k, l.filter (uid · == k) = m.filter (uid · == k)) : l = m := by
  induction l generalizing m with
  | nil =>
    cases m with
    | nil => rfl
    | cons b m =>
      have hb := h (uid b)
      rw [filter_uid_cons] at hb
      cases hb
  | cons a l ih =>
    cases m with
    | nil =>
      have ha := h (uid a)
      rw [filter_uid_cons] at ha
      cases ha
    | cons b m =>
      have hle : uid a ≤ uid b := le_head hl (h (uid b)).symm
      have hge : uid b ≤ uid a := le_head hm (h (uid a))
      have hab : uid b = uid a := String.le_antisymm hge hle
      have hhead := h (uid a)
      rw [filter_uid_cons, ← hab, filter_uid_cons] at hhead
      obtain rfl : a = b := (List.cons.inj hhead).1
      rw [ih (List.pairwise_cons.mp hl).2 (List.pairwise_cons.mp hm).2]
      intro k
      have hk := h k
      rw [List.filter_cons, List.filter_cons] at hk
      split at hk
      · exact (List.cons.inj hk).2
      · exact hk

theorem sortByUid_congr (h : ∀ k, l.filter (uid · == k) = m.filter (uid · == k)) :
    sortByUid uid l = sortByUid uid m := by
  apply eq_of_filter_eq (sortByUid_sorted uid l) (sortByUid_sorted uid m)
  intro k
  rw [filter_sortByUid, filter_sortByUid, h k]

theorem filter_uid_of_perm (h : l.Perm m) (hn : (l.map uid).Nodup) (k : String) :
    l.filter (uid · == k) = m.filter (uid · == k) := by
  have hp := h.filter (uid · == k)
  cases hl : l.filter (uid · == k) with
  | nil =>
    rw [hl] at hp
    exact (List.nil_perm.mp hp).symm
  | cons a t =>
    cases t with
    | nil =>
      rw [hl] at hp
      exact List.singleton_perm.mp hp
    | cons b t =>
      have hab : (l.filter (uid · == k)).Pairwise fun a b => uid a ≠ uid b :=
        (List.pairwise_map.mp hn).sublist List.filter_sublist
      have hk : ∀ c ∈ l.filter (uid · == k), uid c = k := by
        intro c hc
        exact eq_of_beq (List.mem_filter.mp hc).2
      rw [hl] at hab hk
      have ha := hk a List.mem_cons_self
      have hb := hk b (List.mem_cons_of_mem a List.mem_cons_self)
      exact absurd (ha.trans hb.symm) (List.rel_of_pairwise_cons hab List.mem_cons_self)

theorem sortByUid_of_perm (h : l.Perm m) (hn : (l.map uid).Nodup) :
    sortByUid uid l = sortByUid uid m :=
  sortByUid_congr (filter_uid_of_perm h hn)

end Sorting

/-- Uids tell the fragments apart, and likewise their resources and subscribers, and references
tell the resources apart. -/
structure Distinct (fs : List Fragment) : Prop where
  uids : (fs.map (·.uid)).Nodup
  resourceUids : ((resources fs).map fun (r, _) => r.uid).Nodup
  egressUids : ((egresses fs).map fun (_, e) => e.uid).Nodup
  references : ((resources fs).map fun (r, _) => refKey r).Nodup

variable {fs gs : List Fragment} {routes routes' : List (Resource × Address)}

theorem Distinct.of_perm (h : Distinct fs) (hp : fs.Perm gs) : Distinct gs where
  uids := (hp.map _).nodup_iff.mp h.uids
  resourceUids := ((hp.filterMap _).map _).nodup_iff.mp h.resourceUids
  egressUids := ((hp.filterMap _).map _).nodup_iff.mp h.egressUids
  references := ((hp.filterMap _).map _).nodup_iff.mp h.references

theorem Distinct.winners_eq (h : Distinct fs) : winners fs = fs := Build.winners_eq h.uids

theorem Distinct.filter_references (h : Distinct fs) (q : Resource × Address → Bool) :
    (((resources fs).filter q).map fun (r, _) => refKey r).Nodup :=
  (List.filter_sublist.map _).nodup h.references

/-- A resource with those of the subscribers that name it as their parent. -/
def gather (es : List (ParentRef × Egress)) (r : Resource) : Resource :=
  let own := es.filter fun (p, _) => p.matches r.reference
  { r with egresses := sortByUid (·.uid) (r.egresses ++ own.map Prod.snd) }

/-- Where references tell resources apart, each of them gathers its subscribers by itself. -/
theorem attach_eq_map {rs : List Resource} (hn : (rs.map refKey).Nodup)
    (es : List (ParentRef × Egress)) : attach rs es = rs.map (gather es) := by
  rw [attach]
  conv_rhs => rw [← List.zipIdx_map_fst 0 rs, List.map_map]
  apply List.map_congr_left
  rintro ⟨r, i⟩ hr
  have hi := List.mk_mem_zipIdx_iff_getElem?.mp hr
  have hown : (es.filter fun (p, _) => rs.findIdx? (p.matches ·.reference) == some i) =
      es.filter fun (p, _) => p.matches r.reference := by
    apply List.filter_congr
    rintro ⟨p, e⟩ -
    rw [Bool.eq_iff_iff, beq_iff_eq]
    exact findIdx?_eq_some_iff hn hi p
  dsimp only [Function.comp_apply, gather]
  rw [hown]

theorem gather_perm {es es' : List (ParentRef × Egress)} (h : es.Perm es')
    (hn : (es.map fun (_, e) => e.uid).Nodup) (r : Resource) : gather es r = gather es' r := by
  have hsorted : sortByUid (·.uid)
        (r.egresses ++ (es.filter fun (p, _) => p.matches r.reference).map Prod.snd) =
      sortByUid (·.uid)
        (r.egresses ++ (es'.filter fun (p, _) => p.matches r.reference).map Prod.snd) := by
    apply sortByUid_congr
    intro k
    rw [List.filter_append, List.filter_append]
    congr 1
    apply filter_uid_of_perm ((h.filter _).map _)
    rw [List.map_map]
    exact (List.filter_sublist.map _).nodup hn
  rw [gather, hsorted, gather]

theorem content_eq (hn : (routes.map fun (r, _) => refKey r).Nodup) (fs : List Fragment) :
    content routes fs =
      sortByUid (·.uid) (routes.map fun (r, _) => gather (egresses (winners fs)) r) := by
  have hk : ((routes.map Prod.fst).map refKey).Nodup := by
    rw [List.map_map]
    exact hn
  rw [content, attach_eq_map hk, List.map_map]
  rfl

theorem mem_content_iff (hn : (routes.map fun (r, _) => refKey r).Nodup) {s : Resource} :
    s ∈ content routes fs ↔ ∃ ra ∈ routes, s = gather (egresses (winners fs)) ra.1 := by
  rw [content_eq hn, (sortByUid_perm _ _).mem_iff, List.mem_map]
  exact exists_congr fun ra => and_congr_right fun _ => eq_comm

theorem Distinct.content_perm (h : Distinct fs) (hp : fs.Perm gs) (q : Resource × Address → Bool) :
    content ((resources fs).filter q) fs = content ((resources gs).filter q) gs := by
  have hg := h.of_perm hp
  have hgather : gather (egresses fs) = gather (egresses gs) :=
    funext (gather_perm (hp.filterMap _) h.egressUids)
  rw [content_eq (h.filter_references q), content_eq (hg.filter_references q), h.winners_eq,
    hg.winners_eq, hgather]
  apply sortByUid_of_perm (((hp.filterMap _).filter q).map _)
  rw [List.map_map]
  exact (List.filter_sublist.map _).nodup h.resourceUids

theorem Distinct.routed_eq (h : Distinct fs) (readiness : Readiness) (current : Contract)
    (admitted : Table String Address) : routed readiness fs current admitted =
      (resources fs).filter fun (r, a) => isCarried current admitted r a || readiness.ready a := by
  rw [routed, h.winners_eq]

theorem Distinct.routed_perm (h : Distinct fs) (hp : fs.Perm gs) (readiness : Readiness)
    (current : Contract) (admitted : Table String Address) :
    (routed readiness fs current admitted).Perm (routed readiness gs current admitted) := by
  rw [h.routed_eq, (h.of_perm hp).routed_eq]
  exact (hp.filterMap _).filter _

theorem Distinct.build_content_perm (h : Distinct fs) (hp : fs.Perm gs) (readiness : Readiness)
    (current : Contract) (admitted : Table String Address) :
    content (routed readiness fs current admitted) fs =
      content (routed readiness gs current admitted) gs := by
  rw [h.routed_eq, (h.of_perm hp).routed_eq]
  exact h.content_perm hp _

theorem Distinct.build_changed_perm (h : Distinct fs) (hp : fs.Perm gs) (readiness : Readiness)
    (current : Contract) (admitted : Table String Address) :
    (build readiness fs current admitted).changed =
      (build readiness gs current admitted).changed := by
  rw [build_changed, build_changed, h.build_content_perm hp]

theorem Distinct.build_contract_perm (h : Distinct fs) (hp : fs.Perm gs) (readiness : Readiness)
    (current : Contract) (admitted : Table String Address) :
    (build readiness fs current admitted).contract =
      (build readiness gs current admitted).contract := by
  rw [build_contract, build_contract, h.build_changed_perm hp, h.build_content_perm hp]

end Build

end EventRouting
