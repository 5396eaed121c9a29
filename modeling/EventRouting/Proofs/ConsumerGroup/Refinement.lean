import EventRouting.Proofs.ConsumerGroup.Administration
import EventRouting.Proofs.ConsumerGroup.Resource
import EventRouting.Proofs.Control.Operator
import Mathlib.Data.Set.Function

namespace EventRouting

open Json

/-- A change of the group of a trigger. -/
inductive GroupTask where
  | reconcile (desired : GroupBinding)
  | finalize (owner : TriggerRef)

namespace GroupTask

def owner : GroupTask → TriggerRef
  | .reconcile desired => desired.owner
  | .finalize owner => owner

def program : GroupTask → ConsumerGroup.Program GroupAction
  | .reconcile desired => ConsumerGroup.reconcile desired
  | .finalize owner => ConsumerGroup.finalize owner

/-- What a task amounts to, given the group that its owner has. -/
def action : GroupTask → Option GroupBinding → GroupAction
  | .reconcile _, none => .created
  | .reconcile desired, some current =>
    if current = desired then .unchanged
    else if current.sameIdentity desired then .updated
    else .recreated
  | .finalize _, none => .absent
  | .finalize _, some _ => .deleted

/-- The group that a task leaves its owner with. -/
def left? : GroupTask → Option GroupBinding
  | .reconcile desired => some desired
  | .finalize _ => none

/-- The triggers that were not finalized since they were last reconciled. -/
def tenants (live : List TriggerRef) : GroupTask → List TriggerRef
  | .reconcile desired => desired.owner :: live
  | .finalize owner => live.filter (· ≠ owner)

/-- No other trigger of the same name is to be finalized before. -/
def FindsRoom (live : List TriggerRef) : GroupTask → Prop
  | .reconcile desired =>
    ∀ o ∈ live, o.groupObject = desired.owner.groupObject → o = desired.owner
  | .finalize _ => True

/-- Every task finds room where it is carried out. -/
def Orderly (live : List TriggerRef) : List GroupTask → Prop
  | [] => True
  | task :: tasks => task.FindsRoom live ∧ Orderly (task.tenants live) tasks

instance (live : List TriggerRef) (task : GroupTask) : Decidable (task.FindsRoom live) :=
  match task with
  | .reconcile desired => inferInstanceAs (Decidable
      (∀ o ∈ live, o.groupObject = desired.owner.groupObject → o = desired.owner))
  | .finalize _ => inferInstanceAs (Decidable True)

instance decidableOrderly : (live : List TriggerRef) → (tasks : List GroupTask) →
    Decidable (Orderly live tasks)
  | _, [] => inferInstanceAs (Decidable True)
  | live, task :: tasks =>
    @instDecidableAnd _ _ inferInstance (decidableOrderly (task.tenants live) tasks)

theorem orderly_append {live : List TriggerRef} {before after : List GroupTask} :
    Orderly live (before ++ after) ↔
      Orderly live before ∧ Orderly (before.foldl tenants live) after := by
  induction before generalizing live with
  | nil => exact (iff_of_eq (true_and _)).symm
  | cons task before ih => exact (and_congr_right fun _ => ih).trans and_assoc.symm

end GroupTask

/-- Carries tasks out one after the other. -/
def tend {σ : Type} (answer : (call : GroupCall) → StateM σ call.Answer) (tasks : List GroupTask)
    (w : σ) : σ :=
  tasks.foldl (fun w task => (ConsumerGroup.under answer task.program w).2) w

theorem tend_cons {σ : Type} (answer : (call : GroupCall) → StateM σ call.Answer)
    (task : GroupTask) (tasks : List GroupTask) (w : σ) :
    tend answer (task :: tasks) w =
      tend answer tasks (ConsumerGroup.under answer task.program w).2 := rfl

/-- Out of the groups of some triggers, only that of one owner has changed. -/
structure Leaves {σ : Type} (triggers : Set TriggerRef)
    (held? : σ → TriggerRef → Option GroupBinding) (Sound : σ → Prop) (w : σ) (owner : TriggerRef)
    (b? : Option GroupBinding) (v : σ) : Prop where
  sound : Sound v
  held : ∀ o ∈ triggers, held? v o = if o = owner then b? else held? w o

/-- Nobody else among some triggers has a group under the name of the owner. -/
def Vacant {σ : Type} (triggers : Set TriggerRef) (held? : σ → TriggerRef → Option GroupBinding)
    (w : σ) (owner : TriggerRef) : Prop :=
  ∀ o ∈ triggers, o.groupObject = owner.groupObject → o ≠ owner → held? w o = none

/-- Whoever carries out every call for the groups of some triggers. -/
structure Administration (triggers : Set TriggerRef) (σ : Type) where
  answer : (call : GroupCall) → StateM σ call.Answer
  /-- The group that a trigger has. -/
  held? : σ → TriggerRef → Option GroupBinding
  Sound : σ → Prop
  owner_eq : ∀ {w o b}, Sound w → o ∈ triggers → held? w o = some b → b.owner = o
  binding : ∀ {w o}, Sound w → o ∈ triggers →
    ∃ v, (answer (.binding o)).run w = (.ok (held? w o), v) ∧
      Leaves triggers held? Sound w o (held? w o) v
  apply : ∀ {w b}, Sound w → b.owner ∈ triggers → Vacant triggers held? w b.owner →
    ∃ v, (answer (.apply b)).run w = (.ok (), v) ∧
      Leaves triggers held? Sound w b.owner (some b) v
  delete : ∀ {w b}, Sound w → b.owner ∈ triggers → held? w b.owner = some b →
    ∃ v, (answer (.delete b)).run w = (.ok (), v) ∧ Leaves triggers held? Sound w b.owner none v

section Leaves

variable {σ : Type} {triggers : Set TriggerRef} {held? : σ → TriggerRef → Option GroupBinding}
  {Sound : σ → Prop} {w v u : σ} {owner : TriggerRef} {b? c? : Option GroupBinding}

theorem Leaves.trans (h : Leaves triggers held? Sound w owner b? v)
    (h' : Leaves triggers held? Sound v owner c? u) : Leaves triggers held? Sound w owner c? u := by
  refine ⟨h'.sound, fun o ho => ?_⟩
  rw [h'.held o ho]
  split
  next => rfl
  next hn => rw [h.held o ho, if_neg hn]

theorem Leaves.vacant (h : Leaves triggers held? Sound w owner b? v)
    (hv : Vacant triggers held? w owner) : Vacant triggers held? v owner := by
  intro o ho hp hn
  rw [h.held o ho, if_neg hn]
  exact hv o ho hp hn

end Leaves

namespace Administration

open ConsumerGroup (under under_bind)

variable {triggers : Set TriggerRef} {σ τ : Type} (A : Administration triggers σ)
  (B : Administration triggers τ) {w : σ} {w' : τ}

theorem run_binding {owner : TriggerRef} (hs : A.Sound w) (ho : owner ∈ triggers) :
    ∃ v, under A.answer (ConsumerGroup.binding owner) w = (.ok (A.held? w owner), v) ∧
      Leaves triggers A.held? A.Sound w owner (A.held? w owner) v :=
  A.binding hs ho

theorem binding_eq {owner : TriggerRef} (hs : A.Sound w) (ho : owner ∈ triggers) :
    (under A.answer (ConsumerGroup.binding owner) w).1 = .ok (A.held? w owner) := by
  obtain ⟨v, hv, _⟩ := A.run_binding hs ho
  rw [hv]

theorem run_apply {b : GroupBinding} (hs : A.Sound w) (ho : b.owner ∈ triggers)
    (hv : Vacant triggers A.held? w b.owner) :
    ∃ v, under A.answer (ConsumerGroup.apply b) w = (.ok (), v) ∧
      Leaves triggers A.held? A.Sound w b.owner (some b) v :=
  A.apply hs ho hv

theorem run_make (action : GroupAction) {desired : GroupBinding} (hs : A.Sound w)
    (ho : desired.owner ∈ triggers) (hv : Vacant triggers A.held? w desired.owner) :
    ∃ v, under A.answer (do ConsumerGroup.apply desired; return action) w = (.ok action, v) ∧
      Leaves triggers A.held? A.Sound w desired.owner (some desired) v := by
  obtain ⟨v, ha, hl⟩ := A.run_apply hs ho hv
  refine ⟨v, ?_, hl⟩
  rw [under_bind, ha]
  rfl

theorem run_reconcile {desired : GroupBinding} (hs : A.Sound w) (ho : desired.owner ∈ triggers)
    (hv : Vacant triggers A.held? w desired.owner) :
    ∃ v, under A.answer (ConsumerGroup.reconcile desired) w =
        (.ok ((GroupTask.reconcile desired).action (A.held? w desired.owner)), v) ∧
      Leaves triggers A.held? A.Sound w desired.owner (some desired) v := by
  obtain ⟨u, hb, hl⟩ := A.run_binding hs ho
  have hu := (hl.held _ ho).trans (if_pos rfl)
  rw [ConsumerGroup.reconcile, under_bind, hb]
  cases hc : A.held? w desired.owner with
  | none =>
    obtain ⟨v, ha, hl'⟩ := A.run_make .created hl.sound ho (hl.vacant hv)
    exact ⟨v, ha, hl.trans hl'⟩
  | some current =>
    rw [hc] at hl hu
    dsimp only [GroupTask.action]
    by_cases he : current = desired
    · rw [if_pos he, if_pos he]
      exact ⟨u, rfl, he ▸ hl⟩
    · rw [if_neg he, if_neg he]
      by_cases hi : current.sameIdentity desired = true
      · rw [if_pos hi, if_pos hi]
        obtain ⟨v, ha, hl'⟩ := A.run_make .updated hl.sound ho (hl.vacant hv)
        exact ⟨v, ha, hl.trans hl'⟩
      · rw [if_neg hi, if_neg hi]
        have hw : current.owner = desired.owner := A.owner_eq hs ho hc
        obtain ⟨t, hd, ht⟩ := A.delete (b := current) hl.sound (hw ▸ ho) (hw ▸ hu)
        have hd : under A.answer (ConsumerGroup.delete current) u = (.ok (), t) := hd
        rw [hw] at ht
        obtain ⟨v, ha, hl'⟩ :=
          A.run_make .recreated ht.sound ho (ht.vacant (hl.vacant hv))
        rw [under_bind, hd]
        exact ⟨v, ha, (hl.trans ht).trans hl'⟩

theorem run_finalize {owner : TriggerRef} (hs : A.Sound w) (ho : owner ∈ triggers) :
    ∃ v, under A.answer (ConsumerGroup.finalize owner) w =
        (.ok ((GroupTask.finalize owner).action (A.held? w owner)), v) ∧
      Leaves triggers A.held? A.Sound w owner none v := by
  obtain ⟨u, hb, hl⟩ := A.run_binding hs ho
  have hu := (hl.held _ ho).trans (if_pos rfl)
  rw [ConsumerGroup.finalize, under_bind, hb]
  cases hc : A.held? w owner with
  | none => exact ⟨u, rfl, hc ▸ hl⟩
  | some current =>
    rw [hc] at hl hu
    obtain rfl := A.owner_eq hs ho hc
    obtain ⟨v, hd, hl'⟩ := A.delete hl.sound ho hu
    have hd : under A.answer (ConsumerGroup.delete current) u = (.ok (), v) := hd
    dsimp only
    rw [under_bind, hd]
    exact ⟨v, rfl, hl.trans hl'⟩

/-- All groups are those of live triggers. -/
def Let (live : List TriggerRef) (w : σ) : Prop :=
  ∀ o ∈ triggers, ∀ b, A.held? w o = some b → o ∈ live

variable {live : List TriggerRef} {task : GroupTask}

theorem run_task (hs : A.Sound w) (hl : A.Let live w) (ho : task.owner ∈ triggers)
    (hr : task.FindsRoom live) :
    ∃ v, under A.answer task.program w = (.ok (task.action (A.held? w task.owner)), v) ∧
      Leaves triggers A.held? A.Sound w task.owner task.left? v := by
  cases task with
  | reconcile desired =>
    refine A.run_reconcile hs ho fun o hm hp hn => ?_
    cases hc : A.held? w o with
    | none => rfl
    | some b => exact absurd (hr o (hl o hm b hc) hp) hn
  | finalize owner => exact A.run_finalize hs ho

variable {A} in
theorem Let.leaves {v : σ} (hl : A.Let live w)
    (h : Leaves triggers A.held? A.Sound w task.owner task.left? v) :
    A.Let (task.tenants live) v := by
  intro o hm b hb
  rw [h.held o hm] at hb
  cases task with
  | reconcile desired =>
    by_cases he : o = desired.owner
    · exact he ▸ List.mem_cons_self
    · exact .tail _ (hl o hm b ((if_neg he).symm.trans hb))
  | finalize owner =>
    by_cases he : o = owner
    · cases (if_pos he).symm.trans hb
    · exact List.mem_filter.mpr ⟨hl o hm b ((if_neg he).symm.trans hb), decide_eq_true he⟩

/-- Two administrations that know the same groups, all of them of live triggers. -/
structure Alike (live : List TriggerRef) (w : σ) (w' : τ) : Prop where
  sound : A.Sound w
  sound' : B.Sound w'
  held : ∀ o ∈ triggers, A.held? w o = B.held? w' o
  tenants : A.Let live w

variable {A B}

/-- A task amounts to the same for both, and they know the same groups afterwards. -/
theorem Alike.step (h : Alike A B live w w') (ho : task.owner ∈ triggers)
    (hr : task.FindsRoom live) :
    ∃ action v v', under A.answer task.program w = (.ok action, v) ∧
      under B.answer task.program w' = (.ok action, v') ∧
      Leaves triggers A.held? A.Sound w task.owner task.left? v ∧
      Alike A B (task.tenants live) v v' := by
  have hl : B.Let live w' := fun o hm b hb => h.tenants o hm b ((h.held o hm).trans hb)
  obtain ⟨v, hv, hlv⟩ := A.run_task h.sound h.tenants ho hr
  obtain ⟨v', hv', hlv'⟩ := B.run_task h.sound' hl ho hr
  rw [← h.held _ ho] at hv'
  refine ⟨_, v, v', hv, hv', hlv, hlv.sound, hlv'.sound, fun o hm => ?_, h.tenants.leaves hlv⟩
  rw [hlv.held o hm, hlv'.held o hm, h.held o hm]

theorem Alike.run (h : Alike A B live w w') {tasks : List GroupTask}
    (ht : ∀ task ∈ tasks, task.owner ∈ triggers) (ho : GroupTask.Orderly live tasks) :
    Alike A B (tasks.foldl GroupTask.tenants live) (tend A.answer tasks w)
      (tend B.answer tasks w') := by
  induction tasks generalizing live w w' with
  | nil => exact h
  | cons task tasks ih =>
    obtain ⟨_, v, v', hv, hv', -, ha⟩ := h.step (ht task (.head _)) ho.1
    rw [tend_cons, tend_cons, hv, hv']
    exact ih ha (fun t hm => ht t (.tail _ hm)) ho.2

end Administration

namespace GroupTable

/-- The group that is kept for the uid of a trigger. -/
def held? (t : GroupTable) (o : TriggerRef) : Option GroupBinding := t.get? o.uid

/-- The groups that are kept for the uids of the triggers are theirs. -/
def Sound (triggers : Set TriggerRef) (t : GroupTable) : Prop :=
  ∀ o ∈ triggers, ∀ b, t.held? o = some b → b.owner = o

variable {triggers : Set TriggerRef}

theorem Sound.leaves {t t' : GroupTable} {owner : TriggerRef} {b? : Option GroupBinding}
    (h : t.Sound triggers) (hb : ∀ b, b? = some b → b.owner = owner)
    (hh : ∀ o ∈ triggers, t'.held? o = if o = owner then b? else t.held? o) :
    Leaves triggers held? (Sound triggers) t owner b? t' := by
  refine ⟨fun o ho b hc => ?_, hh⟩
  rw [hh o ho] at hc
  split at hc
  next he => exact (hb b hc).trans he.symm
  next => exact h o ho b hc

/-- Where uids tell triggers apart, their groups can be kept by uid. -/
def administration (hu : Set.InjOn TriggerRef.uid triggers) :
    Administration triggers GroupTable where
  answer := GroupTable.answer
  held? := held?
  Sound := Sound triggers
  owner_eq h ho hb := h _ ho _ hb
  binding {t o} h ho := by
    refine ⟨t, rfl, h.leaves (h o ho) fun p _ => ?_⟩
    split
    next he => rw [he]
    next => rfl
  apply {t b} h ho _ := by
    refine ⟨t.insert b.owner.uid b, rfl, h.leaves (fun c hc => Option.some.inj hc ▸ rfl) ?_⟩
    intro p hp
    rw [held?, Table.get?_insert]
    exact if_congr (eq_comm.trans (hu.eq_iff hp ho)) rfl rfl
  delete {t b} h ho _ := by
    refine ⟨t.erase b.owner.uid, rfl, h.leaves nofun fun p hp => ?_⟩
    rw [held?, Table.get?_erase]
    exact if_congr (eq_comm.trans (hu.eq_iff hp ho)) rfl rfl

end GroupTable

theorem TriggerRef.ext_groupObject {o p : TriggerRef} (h : o.groupObject = p.groupObject)
    (hu : o.uid = p.uid) : o = p := by
  obtain ⟨_, hns, hname⟩ := ObjectRef.mk.inj h
  obtain ⟨ns, name, uid⟩ := o
  cases hns
  cases hname
  cases hu
  rfl

/-- Answers a call through requests to a server. -/
def GroupCall.inServer (call : GroupCall) : StateM ApiServer call.Answer :=
  fun s => s.serve call.inCluster

/-- A program whose calls are made requests runs as those who answer them by requests do. -/
theorem under_inServer {α : Type} (p : ConsumerGroup.Program α) (s : ApiServer) :
    ConsumerGroup.under GroupCall.inServer p s = s.serve (p.run.interpret GroupCall.inCluster) := by
  rw [ApiServer.serve, Dialogue.foldM_interpret]
  rfl

theorem Operator.run_groups_inServer {α : Type} (p : ConsumerGroup.Program α) (w : Operator) :
    w.run (ControlProgram.groups p) =
      ((ConsumerGroup.under GroupCall.inServer p w.server).1,
        { w with server := (ConsumerGroup.under GroupCall.inServer p w.server).2 }) := by
  rw [under_inServer, run_groups]

/-- An object of a group that a server keeps. -/
structure GroupBinding.Kept (v : Value) : Prop where
  sorted : v.sorted = v
  unreleased : isReleased v = false
  told : ∃ uid? spec, GroupBinding.Told v uid? spec

namespace ApiServer

/-- The group that the object of a trigger says is its. -/
def group? (s : ApiServer) (o : TriggerRef) : Option GroupBinding :=
  (s.objects.get? o.groupObject).bind fun v =>
    match GroupBinding.ofResource? o v with
    | .ok b? => b?
    | .error _ => none

/-- A server that refuses nothing, and whose objects of groups can be read. -/
structure Tidy (s : ApiServer) : Prop where
  willing : s.failures = []
  kept : ∀ (o : TriggerRef) v, s.objects.get? o.groupObject = some v → GroupBinding.Kept v

variable {s t : ApiServer} {o p : TriggerRef} {b : GroupBinding}

theorem handle_of_willing (h : s.failures = []) (r : ApiRequest) : s.handle r =
    ((s.reply r).1,
      { (s.reply r).2 with log := (s.reply r).2.log ++ [(r, (s.reply r).1.code)] }) := by
  rw [handle, h]
  rfl

theorem group?_eq {v : Value} {uid? : Option String} {spec : ConsumerGroupSpec}
    (hv : s.objects.get? o.groupObject = some v) (ht : GroupBinding.Told v uid? spec) :
    s.group? o = if uid? = some o.uid then some (.ofSpec o spec) else none := by
  rw [group?, hv, Option.bind_some, GroupBinding.ofResource?_of_told ht]

theorem exists_told (h : s.group? o = some b) : ∃ v spec, s.objects.get? o.groupObject = some v ∧
    GroupBinding.Told v (some o.uid) spec ∧ b = .ofSpec o spec := by
  obtain ⟨v, hv, hb⟩ := Option.bind_eq_some_iff.mp h
  cases hr : GroupBinding.ofResource? o v with
  | error e =>
    rw [hr] at hb
    cases hb
  | ok b? =>
    obtain ⟨uid?, spec, ht⟩ := GroupBinding.told_of_ofResource? hr
    rw [group?_eq hv ht] at h
    split at h
    next hu => exact ⟨v, spec, hv, hu ▸ ht, (Option.some.inj h).symm⟩
    next => cases h

theorem group?_owner (h : s.group? o = some b) : b.owner = o := by
  obtain ⟨_, _, _, _, rfl⟩ := exists_told h
  rfl

theorem group?_of_ne (h : s.group? o = some b) (hp : p.groupObject = o.groupObject) (hn : p ≠ o) :
    s.group? p = none := by
  obtain ⟨v, spec, hv, ht, _⟩ := exists_told h
  rw [group?_eq (hp ▸ hv) ht, if_neg]
  exact fun hu => hn (TriggerRef.ext_groupObject hp (Option.some.inj hu).symm)

theorem group?_congr (h : t.objects.get? o.groupObject = s.objects.get? o.groupObject) :
    t.group? o = s.group? o := by
  rw [group?, group?, h]

theorem serve_binding (h : s.Tidy) (o : TriggerRef) :
    ∃ t, s.serve (GroupCall.inCluster (.binding o)) = (.ok (s.group? o), t) ∧
      t.failures = [] ∧ t.objects = s.objects := by
  rw [GroupCall.inCluster, serve_bind, serve_send, handle_of_willing h.willing]
  cases hv : s.objects.get? o.groupObject with
  | none =>
    have hr : s.reply (.get o.groupObject) = (missing, s) := by rw [reply, hv]
    have hg : s.group? o = none := by rw [group?, hv, Option.bind_none]
    rw [hr, hg]
    exact ⟨_, rfl, h.willing, rfl⟩
  | some v =>
    have hr : s.reply (.get o.groupObject) = (⟨200, .ok v⟩, s) := by rw [reply, hv]
    obtain ⟨_, _, uid?, spec, ht⟩ := h.kept o v hv
    rw [hr, group?_eq hv ht]
    dsimp only
    rw [GroupBinding.ofResource?_of_told ht]
    exact ⟨_, rfl, h.willing, rfl⟩

theorem reply_apply (h : s.Tidy) (b : GroupBinding) :
    ∃ v, s.reply (.apply b.owner.groupObject b.toResource) = (v, s.put b.owner.groupObject
      (((s.objects.get? b.owner.groupObject).getD .null).merge b.toResource)) ∧ v.content.isOk := by
  rw [reply]
  cases hv : s.objects.get? b.owner.groupObject with
  | none => exact ⟨_, rfl, rfl⟩
  | some v =>
    have hr : isReleased (v.merge b.toResource) = false := by
      rw [GroupBinding.isReleased_merged]
      exact (h.kept _ v hv).unreleased
    dsimp only
    rw [patched, hr]
    exact ⟨_, rfl, rfl⟩

theorem serve_apply (h : s.Tidy) (b : GroupBinding) :
    ∃ t, s.serve (GroupCall.inCluster (.apply b)) = (.ok (), t) ∧ t.failures = [] ∧
      t.objects = s.objects.insert b.owner.groupObject
        (((s.objects.get? b.owner.groupObject).getD .null).merge b.toResource).sorted := by
  obtain ⟨r, hr, hc⟩ := reply_apply h b
  rw [GroupCall.inCluster, serve_bind, serve_send, handle_of_willing h.willing, hr]
  obtain ⟨code, content⟩ := r
  cases content with
  | error e => cases hc
  | ok v => exact ⟨_, rfl, h.willing, rfl⟩

theorem serve_delete (h : s.Tidy) {v : Value} (hv : s.objects.get? b.owner.groupObject = some v) :
    ∃ t, s.serve (GroupCall.inCluster (.delete b)) = (.ok (), t) ∧ t.failures = [] ∧
      t.objects = s.objects.erase b.owner.groupObject := by
  have hr : s.reply (.delete b.owner.groupObject) =
    (⟨200, .ok v⟩, s.delete b.owner.groupObject) := by rw [reply, hv]
  rw [GroupCall.inCluster, serve_bind, serve_send, handle_of_willing h.willing, hr]
  exact ⟨_, rfl, h.willing, rfl⟩

theorem Tidy.open (h : s.Tidy) (o : TriggerRef) :
    GroupBinding.Open ((s.objects.get? o.groupObject).getD .null) := by
  cases hv : s.objects.get? o.groupObject with
  | none => exact ⟨rfl, fun w hw => by cases hw⟩
  | some v =>
    obtain ⟨hs, _, _, _, ⟨m, hm, _⟩, _⟩ := h.kept o v hv
    refine ⟨hs, fun w hw => ⟨m, ?_⟩⟩
    rw [Option.getD_some] at hw
    rw [hw] at hm
    exact hm

theorem Tidy.kept_apply (h : s.Tidy) (b : GroupBinding) : GroupBinding.Kept
    (((s.objects.get? b.owner.groupObject).getD .null).merge b.toResource).sorted := by
  refine ⟨Value.sorted_sorted _, ?_, _, _, GroupBinding.told_merge (h.open b.owner) b⟩
  rw [isReleased_sorted, GroupBinding.isReleased_merged]
  cases hv : s.objects.get? b.owner.groupObject with
  | none => rfl
  | some v => exact (h.kept _ v hv).unreleased

/-- A binding that is applied is read back by its owner, and no other trigger of the name has a
group. -/
theorem Tidy.apply (h : s.Tidy) (hf : t.failures = [])
    (ho : t.objects = s.objects.insert b.owner.groupObject
      (((s.objects.get? b.owner.groupObject).getD .null).merge b.toResource).sorted) :
    t.Tidy ∧ t.group? b.owner = some b ∧
      (∀ p, p.groupObject = b.owner.groupObject → p ≠ b.owner → t.group? p = none) ∧
      ∀ p, p.groupObject ≠ b.owner.groupObject → t.group? p = s.group? p := by
  have hg (p : TriggerRef) (hp : p.groupObject = b.owner.groupObject) :
      t.group? p = if some b.owner.uid = some p.uid then some (.ofSpec p b.spec) else none := by
    refine group?_eq ?_ (GroupBinding.told_merge (h.open b.owner) b)
    rw [ho, Table.get?_insert, if_pos hp.symm]
  refine ⟨⟨hf, fun p v hv => ?_⟩, (hg _ rfl).trans (if_pos rfl), fun p hp hn => ?_, fun p hp => ?_⟩
  · rw [ho, Table.get?_insert] at hv
    split at hv
    next => exact Option.some.inj hv ▸ h.kept_apply b
    next => exact h.kept p v hv
  · refine (hg p hp).trans (if_neg fun hu => hn ?_)
    exact TriggerRef.ext_groupObject hp (Option.some.inj hu).symm
  · refine group?_congr ?_
    rw [ho, Table.get?_insert, if_neg (Ne.symm hp)]

theorem Tidy.erase (h : s.Tidy) (hf : t.failures = [])
    (ho : t.objects = s.objects.erase o.groupObject) :
    t.Tidy ∧ (∀ p, p.groupObject = o.groupObject → t.group? p = none) ∧
      ∀ p, p.groupObject ≠ o.groupObject → t.group? p = s.group? p := by
  refine ⟨⟨hf, fun p v hv => ?_⟩, fun p hp => ?_, fun p hp => ?_⟩
  · rw [ho, Table.get?_erase] at hv
    split at hv
    next => cases hv
    next => exact h.kept p v hv
  · rw [group?, ho, Table.get?_erase, if_pos hp.symm, Option.bind_none]
  · refine group?_congr ?_
    rw [ho, Table.get?_erase, if_neg (Ne.symm hp)]

/-- The groups of any triggers can be kept in a cluster. -/
def administration (triggers : Set TriggerRef) : Administration triggers ApiServer where
  answer := GroupCall.inServer
  held? := group?
  Sound := Tidy
  owner_eq _ _ hb := group?_owner hb
  binding {s o} h _ := by
    obtain ⟨t, ht, hf, ho⟩ := serve_binding h o
    refine ⟨t, ht, ⟨hf, ho ▸ h.kept⟩, fun p _ => ?_⟩
    rw [group?_congr (congrArg (Table.get? · p.groupObject) ho)]
    split
    next he => rw [he]
    next => rfl
  apply {s b} h _ hv := by
    obtain ⟨t, ht, hf, ho⟩ := serve_apply h b
    obtain ⟨htidy, hb, hsame, hother⟩ := h.apply hf ho
    refine ⟨t, ht, htidy, fun p hp => ?_⟩
    by_cases he : p = b.owner
    · rw [he, if_pos rfl, hb]
    · rw [if_neg he]
      by_cases hn : p.groupObject = b.owner.groupObject
      · rw [hsame p hn he, hv p hp hn he]
      · exact hother p hn
  delete {s b} h _ hb := by
    obtain ⟨v, _, hv, _⟩ := exists_told hb
    obtain ⟨t, ht, hf, ho⟩ := serve_delete h hv
    obtain ⟨htidy, hsame, hother⟩ := h.erase hf ho
    refine ⟨t, ht, htidy, fun p _ => ?_⟩
    by_cases he : p = b.owner
    · rw [he, if_pos rfl, hsame _ rfl]
    · rw [if_neg he]
      by_cases hn : p.groupObject = b.owner.groupObject
      · rw [hsame p hn, group?_of_ne hb hn he]
      · exact hother p hn

/-- A server that refuses nothing, and whose objects of groups can be read and belong to nobody. -/
structure Unclaimed (s : ApiServer) : Prop where
  willing : s.failures = []
  sorted : ∀ (o : TriggerRef) v, s.objects.get? o.groupObject = some v → v.sorted = v
  keeps : ∀ o : TriggerRef, s.Keeps o.groupObject
  unowned : ∀ (o : TriggerRef) v, s.objects.get? o.groupObject = some v →
    ∀ owner, GroupBinding.ofResource? owner v = .ok none

theorem Tidy.reads_back (h : s.Tidy) (b : GroupBinding) :
    let u := ConsumerGroup.under GroupCall.inServer (ConsumerGroup.apply b) s
    u.1 = .ok () ∧
      (ConsumerGroup.under GroupCall.inServer (ConsumerGroup.binding b.owner) u.2).1 =
        .ok (some b) := by
  intro u
  let A := administration {b.owner}
  have ho : b.owner ∈ ({b.owner} : Set TriggerRef) := rfl
  have hv : Vacant {b.owner} A.held? s b.owner := fun o hm _ hn => absurd hm hn
  obtain ⟨t, ht, hl⟩ := A.run_apply h ho hv
  have hu : u = (.ok (), t) := ht
  rw [hu]
  exact ⟨rfl, (A.binding_eq hl.sound ho).trans (congrArg _ ((hl.held _ ho).trans (if_pos rfl)))⟩

theorem Unclaimed.tidy (h : s.Unclaimed) : s.Tidy :=
  ⟨h.willing, fun o v hv => ⟨h.sorted o v hv, h.keeps o v hv,
    GroupBinding.told_of_ofResource? (h.unowned o v hv o)⟩⟩

theorem Unclaimed.group? (h : s.Unclaimed) (o : TriggerRef) : s.group? o = none := by
  rw [ApiServer.group?]
  cases hv : s.objects.get? o.groupObject with
  | none => rfl
  | some v => rw [Option.bind_some, h.unowned o v hv o]

end ApiServer

open ConsumerGroup (under)

/-- Groups in a cluster and groups in memory are administered alike, as long as no trigger is
reconciled before the former ones of its name were finalized. -/
theorem cluster_refines_memory {triggers : Set TriggerRef} (hu : Set.InjOn TriggerRef.uid triggers)
    {s : ApiServer} (hs : s.Unclaimed) {tasks : List GroupTask}
    (ht : ∀ task ∈ tasks, task.owner ∈ triggers) (ho : GroupTask.Orderly [] tasks)
    {before after : List GroupTask} {task : GroupTask} (he : tasks = before ++ task :: after) :
    let w := tend GroupCall.inServer before s
    let v := under GroupCall.inServer task.program w
    let w' := tend GroupTable.answer before []
    let v' := under GroupTable.answer task.program w'
    (∃ action, v.1 = .ok action ∧ v'.1 = .ok action) ∧
    (∀ o ∈ triggers, ∃ b?, (under GroupCall.inServer (ConsumerGroup.binding o) v.2).1 = .ok b? ∧
      (under GroupTable.answer (ConsumerGroup.binding o) v'.2).1 = .ok b?) ∧
    (∀ o ∈ triggers, o ≠ task.owner →
      (under GroupCall.inServer (ConsumerGroup.binding o) v.2).1 =
        (under GroupCall.inServer (ConsumerGroup.binding o) w).1) ∧
    ∀ b, let u := under GroupCall.inServer (ConsumerGroup.apply b) w
      u.1 = .ok () ∧
        (under GroupCall.inServer (ConsumerGroup.binding b.owner) u.2).1 = .ok (some b) := by
  intro w v w' v'
  let cluster := ApiServer.administration triggers
  let memory := GroupTable.administration hu
  have hstart : Administration.Alike cluster memory [] s [] :=
    ⟨hs.tidy, nofun, fun o _ => hs.group? o, fun o _ b hb => by cases (hs.group? o).symm.trans hb⟩
  rw [he] at ht ho
  obtain ⟨hbefore, hroom, -⟩ := GroupTask.orderly_append.mp ho
  have hw : Administration.Alike cluster memory _ w w' :=
    hstart.run (fun t hm => ht t (List.mem_append_left _ hm)) hbefore
  obtain ⟨action, t, t', hv, hv', hl, ha⟩ :=
    hw.step (ht task (List.mem_append_right _ (.head _))) hroom
  have hv : v = (.ok action, t) := hv
  have hv' : v' = (.ok action, t') := hv'
  rw [hv, hv']
  refine ⟨⟨action, rfl, rfl⟩, fun o hm => ?_, fun o hm hn => ?_, hw.sound.reads_back⟩
  · exact ⟨_, cluster.binding_eq ha.sound hm,
      (memory.binding_eq ha.sound' hm).trans (congrArg _ (ha.held o hm).symm)⟩
  · have hk : cluster.held? t o = cluster.held? w o := (hl.held o hm).trans (if_neg hn)
    exact (cluster.binding_eq ha.sound hm).trans
      ((congrArg _ hk).trans (cluster.binding_eq hw.sound hm).symm)

/-- An object that nobody labelled. -/
def leftover : Value :=
  .object [
    ("metadata", .object [("name", .string "t")]),
    ("spec", .object [("bootstrapServers", .string "kafka:9092"), ("groupId", .string "g"),
      ("subscriber", .string "http://s"), ("topics", .strings ["x"])])]

def leftoverServer : ApiServer where
  objects := [(⟨.consumerGroup, "ns", "t"⟩, leftover)]

def formerTrigger : TriggerRef := ⟨"ns", "t", "1"⟩

def laterTrigger : TriggerRef := ⟨"ns", "t", "2"⟩

def groupOn (owner : TriggerRef) (topic : String) : GroupBinding :=
  ⟨owner, "knative-trigger-ns-t", [topic], "kafka:9092", "http://s"⟩

theorem leftoverServer_unclaimed : leftoverServer.Unclaimed := by
  have he (o : TriggerRef) (v : Value) (hv : leftoverServer.objects.get? o.groupObject = some v) :
      v = leftover := by
    have hm := Table.mem_of_get? hv
    exact congrArg Prod.snd (List.mem_singleton.mp hm)
  exact ⟨rfl, fun o v hv => he o v hv ▸ rfl, fun o v hv => he o v hv ▸ rfl,
    fun o v hv owner => he o v hv ▸ rfl⟩

/-- The former trigger takes the object over, its group moves to another topic, and it is
finalized. -/
def formerTasks : List GroupTask :=
  [.reconcile (groupOn formerTrigger "x"), .reconcile (groupOn formerTrigger "y"),
    .finalize formerTrigger]

/-- After the former trigger, the later one of the same name finds no group. -/
theorem cluster_refines_memory_of_leftover :
    (under GroupCall.inServer (ConsumerGroup.reconcile (groupOn laterTrigger "x"))
      (tend GroupCall.inServer formerTasks leftoverServer)).1 = .ok .created := by
  have hu : Set.InjOn TriggerRef.uid {formerTrigger, laterTrigger} := by
    rintro o (rfl | rfl) p (rfl | rfl) h
    · rfl
    · exact absurd h (by decide)
    · exact absurd h (by decide)
    · rfl
  have ho : GroupTask.Orderly [] (formerTasks ++ [.reconcile (groupOn laterTrigger "x")]) := by
    decide
  have ht : ∀ task ∈ formerTasks ++ [.reconcile (groupOn laterTrigger "x")],
      task.owner ∈ ({formerTrigger, laterTrigger} : Set TriggerRef) := by
    simp [formerTasks, GroupTask.owner, groupOn]
  obtain ⟨⟨action, hc, hm⟩, -⟩ := cluster_refines_memory hu leftoverServer_unclaimed ht ho rfl
  have hr : (under GroupTable.answer (GroupTask.reconcile (groupOn laterTrigger "x")).program
      (tend GroupTable.answer formerTasks [])).1 = .ok .created := rfl
  exact hc.trans (hm.symm.trans hr)

end EventRouting
