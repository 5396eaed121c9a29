import EventRouting.Proofs.ConsumerGroup.Lifecycle

namespace EventRouting

def Manifest.BelongsTo (m : Manifest TriggerSpec) (owner : TriggerRef) : Prop :=
  m.metadata.uid? = some owner.uid ∧ m.metadata.namespaceName = owner.ns ∧
    m.metadata.name = owner.name

theorem Manifest.BelongsTo.triggerView {m : Manifest TriggerSpec} {owner : TriggerRef}
    (h : m.BelongsTo owner) (relevant : Bool) :
    m.triggerView relevant = .ok
      ⟨owner, m.metadata.isDeleting, m.metadata.finalizers.contains triggerFinalizer,
        relevant⟩ := by
  obtain ⟨hu, hns, hn⟩ := h
  rw [Manifest.triggerView, hu]
  simp only [hns, hn]

/-- The trigger after its finalizer is added or removed. -/
def Manifest.withTriggerFinalizer (m : Manifest TriggerSpec) (present : Bool) :
    Manifest TriggerSpec :=
  let others := m.metadata.finalizers.filter (· ≠ triggerFinalizer)
  { m with metadata := { m.metadata with
    finalizers := if present then others ++ [triggerFinalizer] else others } }

theorem Manifest.triggerFinalizerPatch_eq (m : Manifest TriggerSpec) (present : Bool) :
    ControlProgram.triggerFinalizerPatch m.metadata present = .object [("metadata", .object [
      ("finalizers", .strings (m.withTriggerFinalizer present).metadata.finalizers),
      ("resourceVersion", (m.metadata.resourceVersion?.map Json.Value.string).getD .null)])] :=
  rfl

/-- The trigger once a step is written to it. -/
def Manifest.afterStep (m : Manifest TriggerSpec) :
    Except Failure Transition → Manifest TriggerSpec
  | .ok .addFinalizer => m.withTriggerFinalizer true
  | .ok (.removeFinalizer _) => m.withTriggerFinalizer false
  | _ => m

/-- A trigger, as long as it exists, and all groups. -/
structure TriggerLife where
  object? : Option (Manifest TriggerSpec)
  groups : GroupTable

namespace TriggerLife

/-- What can come of a trigger. Somebody who edits it leaves the finalizer of the groups alone. The
change that a step asks for may not be written: it is refused if the trigger was changed since the
step looked at it, so changes meanwhile are as if they were made afterwards. -/
inductive Reachable (owner : TriggerRef) : TriggerLife → Prop
  | appear {m : Manifest TriggerSpec} {groups : GroupTable} (hm : m.BelongsTo owner)
      (hf : triggerFinalizer ∉ m.metadata.finalizers) (hg : groups.get? owner.uid = none) :
      Reachable owner ⟨some m, groups⟩
  | edit {m n : Manifest TriggerSpec} {groups : GroupTable}
      (h : Reachable owner ⟨some m, groups⟩) (hn : n.BelongsTo owner)
      (hd : n.metadata.isDeleting = m.metadata.isDeleting)
      (hf : triggerFinalizer ∈ n.metadata.finalizers ↔ triggerFinalizer ∈ m.metadata.finalizers) :
      Reachable owner ⟨some n, groups⟩
  | delete {m : Manifest TriggerSpec} {groups : GroupTable}
      (h : Reachable owner ⟨some m, groups⟩) (now : Instant) :
      Reachable owner
        ⟨some { m with metadata := { m.metadata with deletionTime? := some now } }, groups⟩
  | vanish {m : Manifest TriggerSpec} {groups : GroupTable}
      (h : Reachable owner ⟨some m, groups⟩) (hd : m.metadata.isDeleting = true)
      (hf : m.metadata.finalizers = []) : Reachable owner ⟨none, groups⟩
  | advance {m : Manifest TriggerSpec} {groups : GroupTable} {view : TriggerView}
      {r : Except Failure Transition} {v : GroupAdmin} (written relevant : Bool)
      (desired : GroupBinding) (faults : List (Option Failure))
      (h : Reachable owner ⟨some m, groups⟩) (hv : m.triggerView relevant = .ok view)
      (ho : desired.owner = owner)
      (hr : GroupAdmin.run { groups, faults } (ConsumerGroup.advance view desired) = (r, v)) :
      Reachable owner ⟨some (if written then m.afterStep r else m), v.groups⟩
  /-- Somebody else changes the groups of other triggers. -/
  | others {object? : Option (Manifest TriggerSpec)} {groups others : GroupTable}
      (h : Reachable owner ⟨object?, groups⟩) (hg : others.get? owner.uid = groups.get? owner.uid) :
      Reachable owner ⟨object?, others⟩

variable {owner : TriggerRef} {w : TriggerLife} {m : Manifest TriggerSpec} {view : TriggerView}
  {groups : GroupTable} {relevant : Bool} {desired : GroupBinding}
  {faults : List (Option Failure)} {r : Except Failure Transition} {v : GroupAdmin}

/-- What holds at any time in the life of a trigger. -/
structure Kept (owner : TriggerRef) (w : TriggerLife) : Prop where
  belongs : ∀ m, w.object? = some m → m.BelongsTo owner
  owned : GroupAdmin.Owned owner.uid w.groups
  held : ∀ c, w.groups.get? owner.uid = some c →
    ∃ m, w.object? = some m ∧ triggerFinalizer ∈ m.metadata.finalizers

theorem mem_withTriggerFinalizer (m : Manifest TriggerSpec) :
    triggerFinalizer ∈ (m.withTriggerFinalizer true).metadata.finalizers := by
  simp [Manifest.withTriggerFinalizer]

theorem afterStep_belongs (h : m.BelongsTo owner) (r : Except Failure Transition) :
    (m.afterStep r).BelongsTo owner := by
  cases r with
  | error f => exact h
  | ok t => cases t <;> exact h

theorem Kept.advanced (h : Kept owner ⟨some m, groups⟩) (hv : m.triggerView relevant = .ok view)
    (ho : desired.owner = owner)
    (hr : GroupAdmin.run { groups, faults } (ConsumerGroup.advance view desired) = (r, v)) :
    view.hasFinalizer = m.metadata.finalizers.contains triggerFinalizer ∧
      GroupAdmin.Advanced view desired { groups, faults } r v := by
  have hb := (h.belongs m rfl).triggerView relevant
  obtain rfl := Except.ok.inj (hv.symm.trans hb)
  refine ⟨rfl, GroupAdmin.Tended.advance ⟨?_, ?_⟩ ho hr⟩
  · rw [ho]
    exact h.owned
  · intro b t hm
    cases hm

theorem Kept.advance (h : Kept owner ⟨some m, groups⟩) (written : Bool)
    (hv : m.triggerView relevant = .ok view) (ho : desired.owner = owner)
    (hr : GroupAdmin.run { groups, faults } (ConsumerGroup.advance view desired) = (r, v)) :
    Kept owner ⟨some (if written then m.afterStep r else m), v.groups⟩ := by
  obtain ⟨hf, ha⟩ := h.advanced hv ho hr
  constructor
  · intro n hn
    cases hn
    have hb := h.belongs m rfl
    cases written with
    | false => exact hb
    | true => exact afterStep_belongs hb r
  · rw [← ho]
    exact ha.tended.owned
  · intro c hc
    -- Without the finalizer there was no group, and the step made none.
    have hm : triggerFinalizer ∈ m.metadata.finalizers := by
      cases hn : view.hasFinalizer with
      | true => exact List.contains_iff_mem.mp (hf.symm.trans hn)
      | false =>
        rw [ha.untouched hn] at hc
        obtain ⟨n, hn, hmem⟩ := h.held c hc
        cases hn
        exact hmem
    refine ⟨_, rfl, ?_⟩
    cases written with
    | false => exact hm
    | true =>
      cases r with
      | error f => exact hm
      | ok t =>
        cases t with
        | removeFinalizer action =>
          rw [← ho] at hc
          cases (ha.removing action rfl).symm.trans hc
        | addFinalizer => exact mem_withTriggerFinalizer m
        | ignored | reconciled action | released => exact hm

theorem Reachable.kept (h : Reachable owner w) : Kept owner w := by
  induction h with
  | appear hm hf hg =>
    constructor
    · intro m hm'
      cases hm'
      exact hm
    · intro c hc
      cases hg.symm.trans hc
    · intro c hc
      cases hg.symm.trans hc
  | edit h hm hd hf ih =>
    constructor
    · intro m hm'
      cases hm'
      exact hm
    · exact ih.owned
    · intro c hc
      obtain ⟨m, hm, hmem⟩ := ih.held c hc
      cases hm
      exact ⟨_, rfl, hf.mpr hmem⟩
  | delete h now ih =>
    constructor
    · intro m hm
      cases hm
      have hb := ih.belongs _ rfl
      exact hb
    · exact ih.owned
    · intro c hc
      obtain ⟨m, hm, hmem⟩ := ih.held c hc
      cases hm
      exact ⟨_, rfl, hmem⟩
  | vanish h hd hf ih =>
    constructor
    · intro m hm
      cases hm
    · exact ih.owned
    · intro c hc
      -- The finalizer of a group would have kept the trigger.
      obtain ⟨m, hm, hmem⟩ := ih.held c hc
      cases hm
      rw [hf] at hmem
      cases hmem
  | advance written relevant desired faults h hv ho hr ih => exact ih.advance written hv ho hr
  | others h hg ih =>
    constructor
    · exact ih.belongs
    · intro c hc
      exact ih.owned c (hg.symm.trans hc)
    · intro c hc
      exact ih.held c (hg.symm.trans hc)

/-- A trigger has a group only while its finalizer keeps it, and settles only with the desired group
in place. -/
theorem lifecycle_safe (h : Reachable owner w) :
    (∀ c, w.groups.get? owner.uid = some c →
      ∃ m, w.object? = some m ∧ triggerFinalizer ∈ m.metadata.finalizers) ∧
    ∀ m relevant view desired faults r v, w.object? = some m →
      m.triggerView relevant = .ok view → desired.owner = owner →
      GroupAdmin.run { groups := w.groups, faults } (ConsumerGroup.advance view desired) = (r, v) →
      (triggerFinalizer ∉ m.metadata.finalizers → v.groups = w.groups ∧ v.calls = []) ∧
      (∀ b groups, (GroupCall.apply b, groups) ∈ v.calls →
        b = desired ∧ ∀ c, groups.get? owner.uid = some c → c.sameIdentity desired = true) ∧
      (∀ action, r = .ok (.removeFinalizer action) → v.groups.get? owner.uid = none) ∧
      ∀ action, r = .ok (.reconciled action) → v.groups.get? owner.uid = some desired := by
  have hk := h.kept
  refine ⟨hk.held, ?_⟩
  intro m relevant view desired faults r v hm hv ho hr
  obtain ⟨object?, groups⟩ := w
  cases hm
  obtain ⟨hf, ha⟩ := hk.advanced hv ho hr
  subst ho
  refine ⟨fun hn => ?_, ha.tended.careful, ha.removing, ha.settled⟩
  have hc : view.hasFinalizer = false := by
    rw [hf, Bool.eq_false_iff]
    exact fun hc => hn (List.contains_iff_mem.mp hc)
  rw [ha.untouched hc]
  exact ⟨rfl, rfl⟩

def otherOwner : TriggerRef := ⟨"ns", "t", "t"⟩

def otherTrigger (deletionTime? : Option Instant) (finalizers : List String) :
    Manifest TriggerSpec where
  metadata := { name? := some "t", ns? := some "ns", uid? := some "t", deletionTime?, finalizers }
  spec := { broker := "b", subscriber := "http://s" }

def topicBinding (topic : String) : GroupBinding :=
  ⟨otherOwner, "ns-t", [topic], "kafka:9092", "http://s"⟩

/-- The group was replaced in two attempts, and its deletion is refused once. -/
theorem lifecycle_safe_of_refused_delete :
    let w : TriggerLife :=
      ⟨some (otherTrigger (some ⟨0, 0⟩) ["other", triggerFinalizer]), [("t", topicBinding "y")]⟩
    Reachable otherOwner w ∧ (∃ m, w.object? = some m ∧ triggerFinalizer ∈ m.metadata.finalizers) ∧
      ∃ v, GroupAdmin.run { groups := w.groups }
          (ConsumerGroup.advance ⟨otherOwner, true, true, false⟩ (topicBinding "z")) =
        (.ok (.removeFinalizer .deleted), v) ∧ v.groups.get? "t" = none := by
  intro w
  have added : Reachable otherOwner ⟨some (otherTrigger none ["other", triggerFinalizer]), []⟩ :=
    .advance true true (topicBinding "x") []
      (.appear (m := otherTrigger none ["other"]) ⟨rfl, rfl, rfl⟩ (by decide) rfl) rfl rfl rfl
  have made : Reachable otherOwner
      ⟨some (otherTrigger none ["other", triggerFinalizer]), [("t", topicBinding "x")]⟩ :=
    .advance true true (topicBinding "x") [] added rfl rfl rfl
  have deleted : Reachable otherOwner
      ⟨some (otherTrigger none ["other", triggerFinalizer]), []⟩ :=
    .advance true true (topicBinding "y") [none, none, some (.consumerGroup "refused")]
      made rfl rfl rfl
  have replaced : Reachable otherOwner
      ⟨some (otherTrigger none ["other", triggerFinalizer]), [("t", topicBinding "y")]⟩ :=
    .advance true true (topicBinding "y") [] deleted rfl rfl rfl
  have reached : Reachable otherOwner w :=
    .advance true false (topicBinding "z") [none, some (.consumerGroup "refused")]
      (.delete replaced ⟨0, 0⟩) rfl rfl rfl
  obtain ⟨held, safe⟩ := lifecycle_safe reached
  refine ⟨reached, held _ rfl, _, rfl, ?_⟩
  obtain ⟨-, -, removing, -⟩ := safe _ false _ (topicBinding "z") [] _ _ rfl rfl rfl rfl
  exact removing .deleted rfl

end TriggerLife

end EventRouting
