import EventRouting.Control.Reconcile
import EventRouting.Proofs.ConsumerGroup.Administration

namespace EventRouting

namespace GroupAdmin

variable {w v : GroupAdmin} {desired c : GroupBinding} {owner : TriggerRef}

/-- The group that is entered under a uid is a group of its owner. -/
def Owned (uid : String) (groups : GroupTable) : Prop :=
  ∀ c, groups.get? uid = some c → c.owner.uid = uid

/-- Only this binding was applied, and only where its owner had no group of another identity. -/
def Careful (desired : GroupBinding) (calls : List (GroupCall × GroupTable)) : Prop :=
  ∀ b groups, (GroupCall.apply b, groups) ∈ calls →
    b = desired ∧ ∀ c, groups.get? desired.owner.uid = some c → c.sameIdentity desired = true

/-- What holds between the calls that are made for a trigger. -/
structure Tended (desired : GroupBinding) (w : GroupAdmin) : Prop where
  owned : Owned desired.owner.uid w.groups
  careful : Careful desired w.calls

theorem Careful.append {calls : List (GroupCall × GroupTable)} {call : GroupCall}
    {groups : GroupTable} (h : Careful desired calls)
    (hc : ∀ b, call = .apply b → b = desired ∧
      ∀ c, groups.get? desired.owner.uid = some c → c.sameIdentity desired = true) :
    Careful desired (calls ++ [(call, groups)]) := by
  intro b t hm
  rcases List.mem_append.mp hm with hm | hm
  · exact h b t hm
  · obtain ⟨rfl, rfl⟩ := Prod.mk.inj (List.mem_singleton.mp hm)
    exact hc b rfl

theorem Tended.binding (h : w.Tended desired) {r : Except Failure (Option GroupBinding)}
    (hr : w.run (ConsumerGroup.binding owner) = (r, v)) :
    v.Tended desired ∧ v.groups = w.groups ∧
      ∀ held, r = .ok held → held = w.groups.get? owner.uid := by
  obtain ⟨hc, hg, hh⟩ := binding_cases hr
  refine ⟨⟨?_, ?_⟩, hg, hh⟩
  · rw [hg]
    exact h.owned
  · rw [hc]
    exact h.careful.append fun b hb => nomatch hb

theorem Tended.apply (h : w.Tended desired) {r : Except Failure Unit}
    (hi : ∀ c, w.groups.get? desired.owner.uid = some c → c.sameIdentity desired = true)
    (hr : w.run (ConsumerGroup.apply desired) = (r, v)) :
    v.Tended desired ∧ ∀ a, r = .ok a → v.groups.get? desired.owner.uid = some desired := by
  obtain ⟨hc, hg⟩ := apply_cases hr
  have hcareful : Careful desired v.calls := by
    rw [hc]
    refine h.careful.append fun b hb => ?_
    cases hb
    exact ⟨rfl, hi⟩
  rcases hg with ⟨⟨f, rfl⟩, hg⟩ | ⟨rfl, hg⟩
  · refine ⟨⟨?_, hcareful⟩, fun a ha => nomatch ha⟩
    rw [hg]
    exact h.owned
  · have hd : v.groups.get? desired.owner.uid = some desired := by
      rw [hg, Table.get?_insert, if_pos rfl]
    refine ⟨⟨fun c hc => ?_, hcareful⟩, fun a _ => hd⟩
    rw [← Option.some.inj (hd.symm.trans hc)]

theorem Tended.delete (h : w.Tended desired) {r : Except Failure Unit}
    (ho : c.owner.uid = desired.owner.uid) (hr : w.run (ConsumerGroup.delete c) = (r, v)) :
    v.Tended desired ∧ ∀ a, r = .ok a → v.groups.get? desired.owner.uid = none := by
  obtain ⟨hc, hg⟩ := delete_cases hr
  have hcareful : Careful desired v.calls := by
    rw [hc]
    exact h.careful.append fun b hb => nomatch hb
  rcases hg with ⟨⟨f, rfl⟩, hg⟩ | ⟨rfl, hg⟩
  · refine ⟨⟨?_, hcareful⟩, fun a ha => nomatch ha⟩
    rw [hg]
    exact h.owned
  · have hn : v.groups.get? desired.owner.uid = none := by
      rw [hg, ho, Table.get?_erase, if_pos rfl]
    refine ⟨⟨fun c hc => ?_, hcareful⟩, fun a _ => hn⟩
    rw [hn] at hc
    cases hc

theorem Tended.make (h : w.Tended desired) {action : GroupAction} {r : Except Failure GroupAction}
    (hi : ∀ c, w.groups.get? desired.owner.uid = some c → c.sameIdentity desired = true)
    (hr : w.run (do ConsumerGroup.apply desired; return action) = (r, v)) :
    v.Tended desired ∧ ∀ a, r = .ok a → v.groups.get? desired.owner.uid = some desired := by
  obtain ⟨s, hs, rfl⟩ := map_cases hr
  obtain ⟨ht, hd⟩ := h.apply hi hs
  refine ⟨ht, fun a ha => ?_⟩
  cases s with
  | ok a => exact hd a rfl
  | error e => cases ha

/-- A group that is not as desired is updated in place, or deleted before another one is made. -/
theorem Tended.reconcile (h : w.Tended desired) {r : Except Failure GroupAction}
    (hr : w.run (ConsumerGroup.reconcile desired) = (r, v)) :
    v.Tended desired ∧ ∀ a, r = .ok a → v.groups.get? desired.owner.uid = some desired := by
  rcases bind_cases hr with ⟨held, u, hu, hv⟩ | ⟨e, he, rfl⟩
  · obtain ⟨ht, hg, hh⟩ := h.binding hu
    have hh : held = u.groups.get? desired.owner.uid := hg ▸ hh held rfl
    cases held with
    | none =>
      apply ht.make _ hv
      intro c hc
      cases hh.trans hc
    | some current =>
      by_cases he : current = desired
      · simp only [if_pos he, run_pure] at hv
        cases hv
        subst he
        exact ⟨ht, fun _ _ => hh.symm⟩
      · simp only [if_neg he] at hv
        by_cases hi : current.sameIdentity desired = true
        · simp only [if_pos hi] at hv
          apply ht.make _ hv
          intro c hc
          cases hh.trans hc
          exact hi
        · simp only [if_neg hi] at hv
          have ho : current.owner.uid = desired.owner.uid := ht.owned current hh.symm
          rcases bind_cases hv with ⟨a, t, ha, hv⟩ | ⟨e, he, rfl⟩
          · -- The former group is gone before the other one is made.
            obtain ⟨ht, hn⟩ := ht.delete ho ha
            apply ht.make _ hv
            intro c hc
            cases (hn a rfl).symm.trans hc
          · obtain ⟨ht, -⟩ := ht.delete ho he
            exact ⟨ht, fun a ha => nomatch ha⟩
  · obtain ⟨ht, -⟩ := h.binding he
    exact ⟨ht, fun a ha => nomatch ha⟩

theorem Tended.finalize (h : w.Tended desired) {r : Except Failure GroupAction}
    (hr : w.run (ConsumerGroup.finalize desired.owner) = (r, v)) :
    v.Tended desired ∧ ∀ a, r = .ok a → v.groups.get? desired.owner.uid = none := by
  rcases bind_cases hr with ⟨held, u, hu, hv⟩ | ⟨e, he, rfl⟩
  · obtain ⟨ht, hg, hh⟩ := h.binding hu
    have hh : held = u.groups.get? desired.owner.uid := hg ▸ hh held rfl
    cases held with
    | none =>
      cases hv
      exact ⟨ht, fun _ _ => hh.symm⟩
    | some current =>
      have ho : current.owner.uid = desired.owner.uid := ht.owned current hh.symm
      obtain ⟨s, hs, rfl⟩ := map_cases hv
      obtain ⟨ht, hn⟩ := ht.delete ho hs
      refine ⟨ht, fun a ha => ?_⟩
      cases s with
      | ok a => exact hn a rfl
      | error e => cases ha
  · obtain ⟨ht, -⟩ := h.binding he
    exact ⟨ht, fun a ha => nomatch ha⟩

/-- What a step of a trigger does: without the finalizer it makes no call, with it it makes the
group right or deletes it. -/
theorem advance_cases {view : TriggerView} {r : Except Failure Transition}
    (h : w.run (ConsumerGroup.advance view desired) = (r, v)) :
    (view.hasFinalizer = false ∧ v = w ∧
        (r = .ok .ignored ∨ r = .ok .addFinalizer ∨ r = .ok .released)) ∨
      (view.hasFinalizer = true ∧ view.deleting = false ∧
        ∃ s, w.run (ConsumerGroup.reconcile desired) = (s, v) ∧ r = s.map .reconciled) ∨
      (view.hasFinalizer = true ∧ view.deleting = true ∧
        ∃ s, w.run (ConsumerGroup.finalize view.owner) = (s, v) ∧ r = s.map .removeFinalizer) := by
  rw [ConsumerGroup.advance] at h
  cases hf : view.hasFinalizer with
  | false =>
    cases hd : view.deleting with
    | false =>
      rw [hd, hf] at h
      cases h
      refine .inl ⟨rfl, rfl, ?_⟩
      cases view.relevant with
      | false => exact .inl rfl
      | true => exact .inr (.inl rfl)
    | true =>
      rw [hd, hf] at h
      cases h
      refine .inl ⟨rfl, rfl, ?_⟩
      cases view.relevant with
      | false => exact .inl rfl
      | true => exact .inr (.inr rfl)
  | true =>
    cases hd : view.deleting with
    | false =>
      rw [hd, hf] at h
      exact .inr (.inl ⟨rfl, rfl, map_cases h⟩)
    | true =>
      rw [hd, hf] at h
      exact .inr (.inr ⟨rfl, rfl, map_cases h⟩)

/-- What a step of a trigger comes to. -/
structure Advanced (view : TriggerView) (desired : GroupBinding) (w : GroupAdmin)
    (r : Except Failure Transition) (v : GroupAdmin) : Prop where
  tended : v.Tended desired
  untouched : view.hasFinalizer = false → v = w
  adding : r = .ok .addFinalizer → view.hasFinalizer = false
  removing : ∀ action, r = .ok (.removeFinalizer action) →
    v.groups.get? desired.owner.uid = none
  settled : ∀ action, r = .ok (.reconciled action) →
    v.groups.get? desired.owner.uid = some desired

theorem Tended.advance (h : w.Tended desired) {view : TriggerView}
    (ho : desired.owner = view.owner) {r : Except Failure Transition}
    (hr : w.run (ConsumerGroup.advance view desired) = (r, v)) :
    Advanced view desired w r v := by
  rcases advance_cases hr with ⟨hf, rfl, he⟩ | ⟨hf, -, s, hs, rfl⟩ | ⟨hf, -, s, hs, rfl⟩
  · constructor
    · exact h
    · exact fun _ => rfl
    · exact fun _ => hf
    · intro action ha
      rcases he with rfl | rfl | rfl <;> cases ha
    · intro action ha
      rcases he with rfl | rfl | rfl <;> cases ha
  · obtain ⟨ht, hd⟩ := h.reconcile hs
    constructor
    · exact ht
    · intro hn
      cases hf.symm.trans hn
    · cases s <;> exact fun ha => nomatch ha
    · cases s <;> exact fun _ ha => nomatch ha
    · cases s with
      | ok a => exact fun _ _ => hd a rfl
      | error e => exact fun _ ha => nomatch ha
  · rw [← ho] at hs
    obtain ⟨ht, hn⟩ := h.finalize hs
    constructor
    · exact ht
    · intro hn
      cases hf.symm.trans hn
    · cases s <;> exact fun ha => nomatch ha
    · cases s with
      | ok a => exact fun _ _ => hn a rfl
      | error e => exact fun _ ha => nomatch ha
    · cases s <;> exact fun _ ha => nomatch ha

end GroupAdmin

end EventRouting
