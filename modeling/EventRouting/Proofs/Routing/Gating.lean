import EventRouting.Proofs.Routing.Life

namespace EventRouting

namespace Round

/-- The round put a resource into the contract, with this ingress and through this address. -/
def Routes (round : Round) (uid : String) (ingress? : Option Ingress) (a : Address) : Prop :=
  (∃ r ∈ round.after.current.resources, r.uid = uid ∧ r.ingress? = ingress?) ∧
    Build.address? round.before.fragmentList uid = some a

/-- The round asked for the readiness of an address, and it was ready. -/
def FindsReady (round : Round) (a : Address) : Prop :=
  a ∈ round.before.consulted ∧ round.readiness.ready a = true

end Round

section Histories

variable (uid : String) (ingress? : Option Ingress) (a : Address)

/-- Some round found the address ready, and it and all later rounds routed alike. -/
def Admitted (rounds : List Round) : Prop :=
  ∃ later round earlier, rounds = later ++ round :: earlier ∧ round.FindsReady a ∧
    ∀ t ∈ later ++ [round], t.Routes uid ingress? a

/-- The contract at the start routed the resource, and so did all rounds. -/
def Inherited (seeded : Contract) (rounds : List Round) : Prop :=
  (∃ r ∈ seeded.resources, r.uid = uid ∧ r.ingress? = ingress?) ∧
    ∀ t ∈ rounds, t.Routes uid ingress? a

variable {uid ingress? a} {rounds : List Round} {round : Round} {seeded : Contract}

theorem Admitted.cons (h : Admitted uid ingress? a rounds) (hr : round.Routes uid ingress? a) :
    Admitted uid ingress? a (round :: rounds) := by
  obtain ⟨later, first, earlier, rfl, hf, hl⟩ := h
  refine ⟨round :: later, first, earlier, rfl, hf, fun t ht => ?_⟩
  rcases List.mem_cons.mp ht with rfl | ht
  · exact hr
  · exact hl t ht

theorem Inherited.cons (h : Inherited uid ingress? a seeded rounds)
    (hr : round.Routes uid ingress? a) : Inherited uid ingress? a seeded (round :: rounds) := by
  refine ⟨h.1, fun t ht => ?_⟩
  rcases List.mem_cons.mp ht with rfl | ht
  · exact hr
  · exact h.2 t ht

end Histories

/-- What holds after a round: every resource of the contract passed the gate, and exactly these
resources count as admitted. -/
structure Gated (seeded : Contract) (round : Round) (earlier : List Round) : Prop where
  passed : ∀ r ∈ round.after.current.resources, ∃ a,
    Build.address? round.before.fragmentList r.uid = some a ∧
      (Admitted r.uid r.ingress? a (round :: earlier) ∨
        Inherited r.uid r.ingress? a seeded (round :: earlier))
  keys : round.after.admitted.keys.Perm (round.after.current.resources.map (·.uid))
  addresses : ∀ uid a, round.after.admitted.get? uid = some a →
    Build.address? round.before.fragmentList uid = some a

/-- Every round of a process left a gated contract, and the process still has the last of these,
unless it was drained. -/
structure Process.Gates (p : Process) : Prop where
  coherent : ∀ entry ∈ p.sync.fragments, entry.2.Coherent
  gated : ∀ round earlier, round :: earlier <:+ p.rounds → Gated p.seeded round earlier
  fresh : p.rounds = [] → p.sync.current.resources = [] ∨
    p.sync.current = p.seeded ∧ p.sync.admitted = []
  latest : ∀ round earlier, p.rounds = round :: earlier → p.sync.current.resources = [] ∨
    p.sync.current = round.after.current ∧ p.sync.admitted = round.after.admitted

/-- A resource that is carried over passed the gate before. -/
theorem Process.Gates.carried {p : Process} (h : p.Gates) {round : Round} {r : Resource}
    {a : Address} (hc : Build.isCarried p.sync.current p.sync.admitted r a = true)
    (hr : round.Routes r.uid r.ingress? a) :
    Admitted r.uid r.ingress? a (round :: p.rounds) ∨
      Inherited r.uid r.ingress? a p.seeded (round :: p.rounds) := by
  obtain ⟨⟨s, hs, hu, hi⟩, ha⟩ := exists_of_isCarried hc
  have hn : p.sync.current.resources ≠ [] := List.ne_nil_of_mem hs
  cases hp : p.rounds with
  | nil =>
    obtain ⟨hk, _⟩ := (h.fresh hp).resolve_left hn
    exact .inr ⟨⟨s, hk ▸ hs, hu, hi⟩, fun t ht => List.mem_singleton.mp ht ▸ hr⟩
  | cons last earlier =>
    obtain ⟨hk, hm⟩ := (h.latest last earlier hp).resolve_left hn
    have hg := h.gated last earlier (hp ▸ List.suffix_rfl)
    rw [hk] at hs
    obtain ⟨b, hb, hj⟩ := hg.passed s hs
    have hmem : r.uid ∈ last.after.admitted.keys :=
      hg.keys.mem_iff.mpr (List.mem_map.mpr ⟨s, hs, hu⟩)
    obtain ⟨b', hb'⟩ := Table.mem_keys.mp hmem
    obtain rfl : b' = a := ha b' (hm ▸ hb')
    obtain rfl : b = b' := Option.some.inj (hb.symm.trans (hu ▸ hg.addresses _ _ hb'))
    rw [hu, hi] at hj
    exact hj.imp (·.cons hr) (·.cons hr)

theorem Process.Gates.fragmentList {p : Process} (h : p.Gates) :
    ∀ f ∈ p.sync.fragmentList, f.Coherent := by
  intro f hf
  obtain ⟨entry, he, rfl⟩ := List.mem_map.mp hf
  exact h.coherent entry he

theorem Process.Gates.round {p : Process} (h : p.Gates) {r : Readiness}
    (ho : ¬p.sync.Overflows r) {result : Except Failure SyncReport} {after : Synchronizer}
    (hk : after.current = (p.sync.accept (p.sync.build r)).current)
    (ha : after.admitted = (p.sync.accept (p.sync.build r)).admitted) (payload? : Option Payload) :
    Gated p.seeded ⟨p.sync, r, result, after, payload?⟩ p.rounds := by
  obtain ⟨hc, hm⟩ := Synchronizer.accept_of_not_overflows ho
  rw [hc] at hk
  rw [hm] at ha
  refine ⟨fun s hs => ?_, ?_, fun uid a hg => ?_⟩
  · have hs' : s ∈ (p.sync.build r).contract.resources := hk ▸ hs
    rw [Synchronizer.build, build_resources] at hs'
    obtain ⟨t, a, ht, hu, hi⟩ := Build.mem_content hs'
    have had := Build.address?_of_mem h.fragmentList (List.mem_of_mem_filter ht)
    have hr : Round.Routes ⟨p.sync, r, result, after, payload?⟩ s.uid s.ingress? a :=
      ⟨⟨s, hs, rfl, rfl⟩, hu ▸ had⟩
    refine ⟨a, hr.2, ?_⟩
    rw [← hu, ← hi] at hr ⊢
    rcases mem_routed_cases ht with hc | ⟨hq, hready⟩
    · exact h.carried hc hr
    · exact .inl ⟨[], _, p.rounds, rfl, ⟨hq, hready⟩, fun _ hm => List.mem_singleton.mp hm ▸ hr⟩
  · dsimp only
    rw [ha, hk]
    exact build_admitted_keys (Build.resources_nodup h.fragmentList)
  · dsimp only at hg
    rw [ha] at hg
    exact build_address? h.fragmentList hg

theorem Process.Gates.synchronize {p : Process} (h : p.Gates) {c : Conditions}
    (ho : ¬p.sync.Overflows c.readiness) (accepted : List Payload) :
    ∀ q ∈ (p.synchronize c accepted).process?, q.Gates := by
  intro q hq
  rcases hr : p.run Synchronizer.sync c accepted with ⟨⟨result, after⟩, accepted'⟩
  rw [Process.synchronize, hr] at hq
  obtain rfl := Option.some.inj hq
  obtain ⟨hk, ha, hf⟩ := Conditions.sync_takes hr
  have hg : Gated p.seeded ⟨p.sync, c.readiness, result, after, accepted'.getLast?⟩ p.rounds :=
    h.round ho hk ha _
  constructor
  case coherent => exact hf ▸ h.coherent
  case gated =>
    intro round earlier hs
    rcases List.suffix_cons_iff.mp hs with he | hs
    · cases he
      exact hg
    · exact h.gated round earlier hs
  case fresh => exact fun hn => nomatch hn
  case latest =>
    intro round earlier hn
    cases hn
    exact .inr ⟨rfl, rfl⟩

/-- Nothing matters to the gate but the fragments, the contract and what counts as admitted. -/
theorem Process.Gates.of_eq {p : Process} (h : p.Gates) {s : Synchronizer}
    (hf : ∀ entry ∈ s.fragments, entry.2.Coherent)
    (hk : s.current.resources = [] ∨ s.current = p.sync.current)
    (ha : s.admitted = p.sync.admitted) : Gates { p with sync := s } := by
  refine ⟨hf, h.gated, fun hn => ?_, fun round earlier hn => ?_⟩
  · rcases hk with hk | hk
    · exact .inl hk
    · rw [hk, ha]
      exact h.fresh hn
  · rcases hk with hk | hk
    · exact .inl hk
    · rw [hk, ha]
      exact h.latest round earlier hn

theorem Process.Gates.reopen {p : Process} (h : p.Gates) (c : Conditions)
    (accepted : List Payload) :
    ∀ q ∈ (p.perform Synchronizer.reopen c accepted).process?, q.Gates := by
  intro q hq
  rcases hr : p.run Synchronizer.reopen c accepted with ⟨⟨result, after⟩, accepted'⟩
  rw [Process.perform, hr] at hq
  obtain rfl := Option.some.inj hq
  obtain ⟨_, rfl | rfl⟩ := Conditions.reopen_cases hr
  · exact h
  · exact h.of_eq h.coherent (.inr rfl) rfl

theorem Process.Gates.close {p : Process} (h : p.Gates) (c : Conditions)
    (accepted : List Payload) :
    ∀ q ∈ (p.perform Synchronizer.close c accepted).process?, q.Gates := by
  intro q hq
  rcases hr : p.run Synchronizer.close c accepted with ⟨⟨result, after⟩, accepted'⟩
  rw [Process.perform, hr] at hq
  obtain rfl := Option.some.inj hq
  rcases Conditions.close_cases hr with ⟨rfl, _⟩ | ⟨rfl, _⟩
  · refine h.of_eq h.coherent ?_ rfl
    exact p.sync.shut_current.imp (congrArg Contract.resources) id
  · exact h

namespace Synchronizer

end Synchronizer

namespace Life

end Life

end EventRouting
