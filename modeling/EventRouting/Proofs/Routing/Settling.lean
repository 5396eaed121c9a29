import Mathlib
import EventRouting.Proofs.Routing.Life
import EventRouting.Proofs.Routing.Rearrangement

namespace EventRouting

/-- What a build goes on from. -/
structure Standing where
  current : Contract
  admitted : Table String Address

namespace Standing

/-- The next build routes the resource, ready or not. -/
def carries (s : Standing) (ra : Resource × Address) : Bool :=
  Build.isCarried s.current s.admitted ra.1 ra.2

/-- The resources that the next build routes only if they are ready. -/
def waiting (s : Standing) (fs : List Fragment) : List (Resource × Address) :=
  (Build.resources fs).filter fun ra => !s.carries ra

/-- The contract holds what the next build carries over, and nothing else. -/
def Settled (s : Standing) (fs : List Fragment) : Prop :=
  s.current.resources = Build.content ((Build.resources fs).filter s.carries) fs

/-- Settled, or at the end of the generations. -/
def Steady (s : Standing) (fs : List Fragment) : Prop :=
  s.current.generation = .greatest ∨ s.Settled fs

/-- What a synchronization with the fragments `fs` makes of `s`. -/
inductive Advance (fs : List Fragment) (r : Readiness) (s t : Standing) : Prop where
  /-- There is no newer generation to mint, and everything stays. -/
  | exhausted (greatest : s.current.generation = .greatest) (same : t = s)
  /-- Ready resources join those that are carried over. -/
  | taken
      (carries : ∀ ra ∈ Build.resources fs, t.carries ra = (s.carries ra || r.ready ra.2))
      (settled : t.Settled fs)
      (rises : t.current ≠ s.current → s.current.generation < t.current.generation)
      (differs : t.current ≠ s.current → t.current.resources ≠ s.current.resources)

end Standing

namespace Synchronizer

def standing (s : Synchronizer) : Standing := ⟨s.current, s.admitted⟩

variable {fs : List Fragment} {r : Readiness} {s : Synchronizer}

section Accept

variable (hd : Build.Distinct fs) (hp : s.fragmentList.Perm fs) (ho : ¬s.Overflows r)

include hd hp ho

theorem accept_carries {ra : Resource × Address} (hra : ra ∈ Build.resources fs) :
    (s.accept (s.build r)).standing.carries ra = (s.standing.carries ra || r.ready ra.2) := by
  obtain ⟨hc, ha⟩ := accept_of_not_overflows ho
  have hg : Build.Distinct s.fragmentList := hd.of_perm hp.symm
  have hn := hg.resourceUids
  rw [← hg.winners_eq] at hn
  have hm : ra ∈ Build.resources s.fragmentList := (hp.filterMap _).mem_iff.mpr hra
  rw [Standing.carries, standing, hc, ha, Bool.eq_iff_iff, build, isCarried_build hn,
    hg.routed_eq]
  constructor
  · rintro ⟨other, ho, hu, -⟩
    obtain ⟨ho, hq⟩ := List.mem_filter.mp ho
    have he : (other, ra.2) = ra := List.inj_on_of_nodup_map hg.resourceUids ho hm hu
    rw [he] at hq
    exact hq
  · intro h
    exact ⟨ra.1, List.mem_filter.mpr ⟨hm, h⟩, rfl, rfl⟩

theorem accept_settled : (s.accept (s.build r)).standing.Settled fs := by
  have hg : Build.Distinct s.fragmentList := hd.of_perm hp.symm
  have hq : (Build.resources s.fragmentList).filter
        (fun ra => Build.isCarried s.current s.admitted ra.1 ra.2 || r.ready ra.2) =
      (Build.resources s.fragmentList).filter (s.accept (s.build r)).standing.carries := by
    apply List.filter_congr
    intro ra hra
    exact (accept_carries hd hp ho ((hp.filterMap _).mem_iff.mp hra)).symm
  have hc : (s.accept (s.build r)).standing.current = (s.build r).contract :=
    (accept_of_not_overflows ho).1
  rw [Standing.Settled, hc, build, build_resources, hg.routed_eq, hq]
  exact hg.content_perm hp _

end Accept

theorem accept_resources_ne (h : (s.accept (s.build r)).current ≠ s.current) :
    (s.accept (s.build r)).current.resources ≠ s.current.resources := by
  by_cases ho : s.Overflows r
  · rw [accept_of_overflows ho] at h
    exact absurd rfl h
  · rw [(accept_of_not_overflows ho).1] at h ⊢
    by_cases hc : (s.build r).changed = true
    · rw [build, build_resources]
      exact bne_iff_ne.mp hc
    · exact absurd (build_contract_of_unchanged hc) h

theorem advance_accept (hd : Build.Distinct fs) (hp : s.fragmentList.Perm fs) (r : Readiness) :
    Standing.Advance fs r s.standing (s.accept (s.build r)).standing := by
  by_cases ho : s.Overflows r
  · exact .exhausted ho.2 (congrArg standing (accept_of_overflows ho))
  · apply Standing.Advance.taken
    · intro ra hra
      exact accept_carries hd hp ho hra
    · exact accept_settled hd hp ho
    · intro h
      exact (accept_current s r).resolve_left h
    · exact accept_resources_ne

end Synchronizer

namespace Standing

variable {fs : List Fragment} {r r' : Readiness} {s t u : Standing}

theorem filter_carries_eq (h : t.waiting fs = s.waiting fs) :
    (Build.resources fs).filter t.carries = (Build.resources fs).filter s.carries := by
  apply List.filter_congr
  intro ra hra
  have hw : ra ∈ t.waiting fs ↔ ra ∈ s.waiting fs := by rw [h]
  simp only [waiting, List.mem_filter, hra, true_and, Bool.not_eq_true'] at hw
  rw [Bool.eq_iff_iff, ← Bool.not_eq_false, ← Bool.not_eq_false, not_iff_not]
  exact hw

namespace Advance

/-- What was carried over once is carried over for good. -/
theorem carries_of_carries (h : Advance fs r s t) {ra : Resource × Address}
    (hra : ra ∈ Build.resources fs) (hc : s.carries ra = true) : t.carries ra = true := by
  cases h with
  | exhausted _ hs =>
    rw [hs]
    exact hc
  | taken hk _ _ _ =>
    rw [hk ra hra, hc]
    rfl

theorem steady (h : Advance fs r s t) : t.Steady fs := by
  cases h with
  | exhausted hg hs => exact .inl (hs ▸ hg)
  | taken _ hs _ _ => exact .inr hs

theorem current_of_greatest (h : Advance fs r s t) (hg : s.current.generation = .greatest) :
    t.current = s.current := by
  cases h with
  | exhausted _ hs => rw [hs]
  | taken _ _ hr _ =>
    by_contra hn
    have hl := hr hn
    rw [hg] at hl
    exact UInt64.not_lt.mpr (Generation.le_greatest _) hl

/-- A steady contract that changes was settled and is settled again, with other resources. -/
theorem settled_of_ne (h : Advance fs r s t) (hs : s.Steady fs) (hc : t.current ≠ s.current) :
    s.Settled fs ∧ t.Settled fs ∧ t.current.resources ≠ s.current.resources := by
  rcases hs with hg | hs
  · exact absurd (h.current_of_greatest hg) hc
  · cases h with
    | exhausted _ he => exact absurd (congrArg current he) hc
    | taken _ ht _ hd => exact ⟨hs, ht, hd hc⟩

theorem resources_subset (h : Advance fs r s t) (hd : Build.Distinct fs) (hs : s.Steady fs) :
    s.current.resources ⊆ t.current.resources := by
  by_cases hc : t.current = s.current
  · rw [hc]
    exact List.Subset.refl _
  · obtain ⟨hs, ht, -⟩ := h.settled_of_ne hs hc
    intro x hx
    rw [hs, Build.mem_content_iff (hd.filter_references _)] at hx
    rw [ht, Build.mem_content_iff (hd.filter_references _)]
    obtain ⟨ra, hra, rfl⟩ := hx
    obtain ⟨hm, hk⟩ := List.mem_filter.mp hra
    exact ⟨ra, List.mem_filter.mpr ⟨hm, h.carries_of_carries hm hk⟩, rfl⟩

theorem waiting_sublist (h : Advance fs r s t) : (t.waiting fs).Sublist (s.waiting fs) := by
  have hf : t.waiting fs = (s.waiting fs).filter fun ra => !t.carries ra := by
    rw [waiting, waiting, List.filter_filter]
    apply List.filter_congr
    intro ra hra
    cases hc : s.carries ra with
    | true =>
      rw [h.carries_of_carries hra hc]
      rfl
    | false => rw [Bool.not_false, Bool.and_true]
  rw [hf]
  exact List.filter_sublist

/-- A steady contract changes only when a waiting resource is taken up. -/
theorem waiting_lt (h : Advance fs r s t) (hs : s.Steady fs) (hc : t.current ≠ s.current) :
    (t.waiting fs).length < (s.waiting fs).length := by
  obtain ⟨hs, ht, hd⟩ := h.settled_of_ne hs hc
  by_contra hn
  have hw : t.waiting fs = s.waiting fs :=
    h.waiting_sublist.eq_of_length_le (Nat.not_lt.mp hn)
  apply hd
  rw [hs, ht, filter_carries_eq hw]

/-- Asked again with the same answers, a synchronization finds nothing to change. -/
theorem again (h : Advance fs r s t) (h' : Advance fs r' t u) (hr : r.ready = r'.ready) :
    u.current = t.current := by
  cases h with
  | exhausted hg hs =>
    apply h'.current_of_greatest
    rw [hs]
    exact hg
  | taken hk ht _ _ =>
    cases h' with
    | exhausted _ hs => rw [hs]
    | taken hk' hu _ hd =>
      by_contra hn
      apply hd hn
      have hc : (Build.resources fs).filter u.carries = (Build.resources fs).filter t.carries := by
        apply List.filter_congr
        intro ra hra
        rw [hk' ra hra, hk ra hra, hr, Bool.or_assoc, Bool.or_self]
      rw [hu, ht, hc]

end Advance

end Standing

/-- A synchronization, and the order in which it meets the fragments. -/
structure Call where
  fragments : Table String Fragment
  conditions : Conditions := {}

/-- The calls meet these fragments, each of them in an order of its own. -/
def Meet (calls : List Call) (fs : List Fragment) : Prop :=
  ∀ c ∈ calls, (c.fragments.map Prod.snd).Perm fs

instance (calls : List Call) (fs : List Fragment) : Decidable (Meet calls fs) :=
  inferInstanceAs (Decidable (∀ c ∈ calls, (c.fragments.map Prod.snd).Perm fs))

/-- The process as it meets its fragments in this order. -/
def Process.meet (p : Process) (fragments : Table String Fragment) : Process :=
  { p with sync := { p.sync with fragments } }

namespace Life

def call (l : Life) (c : Call) : Life :=
  step { l with process? := l.process?.map (·.meet c.fragments) } (.sync c.conditions)

def after (l : Life) (calls : List Call) : Life := calls.foldl call l

/-- The contract of the running process. -/
def contract (l : Life) : Contract := (l.process?.map (·.sync.current)).getD {}

/-- The contracts after each of the calls. -/
def contracts : Life → List Call → List Contract
  | _, [] => []
  | l, c :: calls => (l.call c).contract :: contracts (l.call c) calls

/-- How many of the calls mint a generation. -/
def minted : Life → List Call → Nat
  | _, [] => 0
  | l, c :: calls =>
    minted (l.call c) calls +
      if l.contract.generation < (l.call c).contract.generation then 1 else 0

theorem contract_eq {l : Life} {p : Process} (hp : l.process? = some p) :
    l.contract = p.sync.current := by
  rw [contract, hp]
  rfl

section Run

variable {fs : List Fragment} (hd : Build.Distinct fs)

include hd

theorem call_advance {l : Life} {p : Process} (hp : l.process? = some p) {c : Call}
    (hc : (c.fragments.map Prod.snd).Perm fs) :
    ∃ q, (l.call c).process? = some q ∧
      p.sync.standing.Advance fs c.conditions.readiness q.sync.standing := by
  have hs : l.call c = (p.meet c.fragments).synchronize c.conditions l.accepted := by
    rw [call, hp]
    rfl
  rcases hr : (p.meet c.fragments).run Synchronizer.sync c.conditions l.accepted with
    ⟨⟨result, after⟩, accepted⟩
  obtain ⟨hk, ha, -⟩ := Conditions.sync_takes hr
  have hm := Synchronizer.advance_accept (s := (p.meet c.fragments).sync) hd hc
    c.conditions.readiness
  rw [hs, Process.synchronize, hr]
  refine ⟨_, rfl, ?_⟩
  rw [Synchronizer.standing, Synchronizer.standing, hk, ha]
  exact hm

theorem contracts_subset {calls : List Call} (hc : Meet calls fs) {l : Life} {p : Process}
    (hp : l.process? = some p) (hs : p.sync.standing.Steady fs) :
    ∀ c ∈ l.contracts calls, p.sync.current.resources ⊆ c.resources := by
  induction calls generalizing l p with
  | nil =>
    intro c h
    cases h
  | cons first calls ih =>
    obtain ⟨hf, hc⟩ := List.forall_mem_cons.mp hc
    obtain ⟨q, hq, ha⟩ := call_advance hd hp hf
    have hle := ha.resources_subset hd hs
    intro c h
    rcases List.mem_cons.mp h with rfl | h
    · rw [contract_eq hq]
      exact hle
    · exact List.Subset.trans hle (ih hc hq ha.steady c h)

theorem contracts_pairwise {calls : List Call} (hc : Meet calls fs) {l : Life} {p : Process}
    (hp : l.process? = some p) :
    (l.contracts calls).Pairwise fun c d => c.resources ⊆ d.resources := by
  induction calls generalizing l p with
  | nil => exact .nil
  | cons first calls ih =>
    obtain ⟨hf, hc⟩ := List.forall_mem_cons.mp hc
    obtain ⟨q, hq, ha⟩ := call_advance hd hp hf
    apply List.Pairwise.cons
    · intro c h
      rw [contract_eq hq]
      exact contracts_subset hd hc hq ha.steady c h
    · exact ih hc hq

theorem minted_le_waiting {calls : List Call} (hc : Meet calls fs) {l : Life} {p : Process}
    (hp : l.process? = some p) (hs : p.sync.standing.Steady fs) :
    l.minted calls ≤ (p.sync.standing.waiting fs).length := by
  induction calls generalizing l p with
  | nil => exact Nat.zero_le _
  | cons first calls ih =>
    obtain ⟨hf, hc⟩ := List.forall_mem_cons.mp hc
    obtain ⟨q, hq, ha⟩ := call_advance hd hp hf
    have hle := ih hc hq ha.steady
    have hw := ha.waiting_sublist.length_le
    rw [minted, contract_eq hp, contract_eq hq]
    split
    next hl =>
      have hn : q.sync.standing.current ≠ p.sync.standing.current := by
        intro he
        exact UInt64.ne_of_lt hl (congrArg Contract.generation he.symm)
      have hlt := ha.waiting_lt hs hn
      omega
    next => omega

/-- The first call may drop what no fragment brings in any more. -/
theorem minted_le {calls : List Call} (hc : Meet calls fs) {l : Life} {p : Process}
    (hp : l.process? = some p) : l.minted calls ≤ 1 + (Build.resources fs).length := by
  cases calls with
  | nil => exact Nat.zero_le _
  | cons first calls =>
    obtain ⟨hf, hc⟩ := List.forall_mem_cons.mp hc
    obtain ⟨q, hq, ha⟩ := call_advance hd hp hf
    have hm := minted_le_waiting hd hc hq ha.steady
    have hw : (q.sync.standing.waiting fs).length ≤ (Build.resources fs).length :=
      List.length_filter_le _ _
    rw [minted]
    split
    next => omega
    next => omega

theorem after_process {calls : List Call} (hc : Meet calls fs) {l : Life} {p : Process}
    (hp : l.process? = some p) : ∃ q, (l.after calls).process? = some q := by
  induction calls generalizing l p with
  | nil => exact ⟨p, hp⟩
  | cons first calls ih =>
    obtain ⟨hf, hc⟩ := List.forall_mem_cons.mp hc
    obtain ⟨q, hq, -⟩ := call_advance hd hp hf
    exact ih hc hq

theorem contract_again {calls : List Call} (hc : Meet calls fs) {l : Life} {p : Process}
    (hp : l.process? = some p) {earlier : List Call} {first second : Call}
    (hi : earlier ++ [first, second] <+: calls)
    (hr : first.conditions.readiness.ready = second.conditions.readiness.ready) :
    (l.after (earlier ++ [first, second])).contract = (l.after (earlier ++ [first])).contract := by
  have hm : ∀ c ∈ earlier ++ [first, second], (c.fragments.map Prod.snd).Perm fs := by
    intro c h
    exact hc c (hi.subset h)
  obtain ⟨he, hm⟩ := List.forall_mem_append.mp hm
  obtain ⟨hf, hm⟩ := List.forall_mem_cons.mp hm
  have hs := hm second List.mem_cons_self
  obtain ⟨q, hq⟩ := after_process hd he hp
  obtain ⟨q₁, hq₁, h₁⟩ := call_advance hd hq hf
  obtain ⟨q₂, hq₂, h₂⟩ := call_advance hd hq₁ hs
  have hfirst : l.after (earlier ++ [first]) = (l.after earlier).call first := by
    rw [after, List.foldl_append]
    rfl
  have hsecond : l.after (earlier ++ [first, second]) =
      ((l.after earlier).call first).call second := by
    rw [after, List.foldl_append]
    rfl
  rw [hfirst, hsecond, contract_eq hq₁, contract_eq hq₂]
  exact h₁.again h₂ hr

end Run

/-- While the fragments of a process stay, the contracts only grow, and the calls mint at most one
generation for each resource and one more. -/
theorem settled_routing {l : Life} {p : Process} (hp : l.process? = some p)
    (hd : Build.Distinct p.sync.fragmentList) {calls : List Call}
    (hc : Meet calls p.sync.fragmentList) :
    (l.contracts calls).Pairwise (fun c d => c.resources ⊆ d.resources) ∧
      l.minted calls ≤ 1 + (Build.resources p.sync.fragmentList).length ∧
      ∀ earlier first second, earlier ++ [first, second] <+: calls →
        first.conditions.readiness.ready = second.conditions.readiness.ready →
        (l.after (earlier ++ [first, second])).contract =
          (l.after (earlier ++ [first])).contract := by
  apply And.intro
  · exact contracts_pairwise hd hc hp
  apply And.intro
  · exact minted_le hd hc hp
  · intro earlier first second hi hr
    exact contract_again hd hc hp hi hr

theorem settled_routing_of_two :
    let b : Fragment := ⟨"b", ⟨0, 0⟩,
      .resource { uid := "b", reference := { name := "b" } } ⟨"h", 80, "/b", false⟩⟩
    let k : Fragment := ⟨"k", ⟨0, 0⟩,
      .resource { uid := "k", reference := { name := "k" } } ⟨"h", 80, "/k", false⟩⟩
    let t : Fragment := ⟨"t", ⟨0, 0⟩,
      .egress ⟨"", "", "b"⟩ { uid := "t", consumerGroup := "t", destination := "http://t" }⟩
    let l := (ofEntry none).run [.start {}, .upsert "b" b, .upsert "k" k, .upsert "t" t]
    let only (path : String) : Readiness := ⟨fun a => a.path == path, fun _ => 0⟩
    let calls : List Call := [
      ⟨[("t", t), ("k", k), ("b", b)], { readiness := only "/b", fate := .refused (.io "") }⟩,
      ⟨[("b", b), ("k", k), ("t", t)], { readiness := only "/k" }⟩,
      ⟨[("k", k), ("t", t), ("b", b)], { readiness := only "/k" }⟩]
    (l.after (calls.take 1)).contract.resources.map (fun r => (r.uid, r.egresses.map (·.uid))) =
        [("b", ["t"])] ∧
      (l.contracts calls).Pairwise (fun c d => c.resources ⊆ d.resources) ∧
      l.minted calls ≤ 3 ∧
      (l.after calls).contract = (l.after (calls.take 2)).contract := by
  intro b k t l only calls
  have hs : l.process?.isSome = true := by decide +kernel
  have hf : ∀ p ∈ l.process?, p.sync.fragmentList = [b, k, t] := by decide +kernel
  have hp := hf _ (Option.get_mem hs)
  have hd : Build.Distinct [b, k, t] := by
    constructor
    · decide +kernel
    · decide +kernel
    · decide +kernel
    · decide +kernel
  have hm : Meet calls [b, k, t] := by decide +kernel
  rw [← hp] at hd hm
  obtain ⟨hk, hn, ha⟩ := settled_routing (Option.get_mem hs) hd hm
  rw [hp] at hn
  refine ⟨by decide +kernel, hk, hn, ?_⟩
  exact ha (calls.take 1) calls[1] calls[2] (List.prefix_refl calls) rfl

set_option maxRecDepth 4096 in
/-- Two resources of one uid are dropped when they are not ready any more, and two subscribers of
one uid take a generation whenever they are met in the other order. -/
theorem shared_uids_unsettled :
    let bare (uid : String) (c : Contribution) : String × Fragment := (uid, ⟨uid, ⟨0, 0⟩, c⟩)
    let broker (uid name : String) : Resource :=
      { uid, ingress? := some { path := "/" ++ name }, reference := { name } }
    let trigger (group : String) : Egress :=
      { uid := "e", consumerGroup := group, destination := "http://e" }
    let brokers := [bare "f" (.resource (broker "r" "f") ⟨"h", 80, "/f", false⟩),
      bare "g" (.resource (broker "r" "g") ⟨"h", 80, "/g", false⟩)]
    let triggers := [bare "b" (.resource (broker "b" "b") ⟨"h", 80, "/b", false⟩),
      bare "t" (.egress ⟨"", "", "b"⟩ (trigger "t")),
      bare "u" (.egress ⟨"", "", "b"⟩ (trigger "u"))]
    let starting (fs : Table String Fragment) : Life :=
      (ofEntry none).run (.start {} :: fs.map fun (key, f) => .upsert key f)
    let ready : Conditions := { readiness := ⟨fun _ => true, fun _ => 0⟩ }
    (∀ fs ∈ [brokers, triggers], (fs.map (·.2.uid)).Nodup ∧
      ((Build.resources (fs.map Prod.snd)).map fun (r, _) => Build.refKey r).Nodup) ∧
    ((starting brokers).contracts [⟨brokers, ready⟩, ⟨brokers, {}⟩]).map
      (·.resources.map (·.uid)) = [["r", "r"], []] ∧
    (starting triggers).minted
      [⟨triggers, ready⟩, ⟨triggers.reverse, ready⟩, ⟨triggers, ready⟩] = 3 := by
  intro bare broker trigger brokers triggers starting ready
  refine ⟨by decide +kernel, ?_, ?_⟩
  · cbv
  · cbv

end Life

end EventRouting
