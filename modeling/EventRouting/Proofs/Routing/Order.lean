import EventRouting.Proofs.Routing.Life

namespace EventRouting

/-- One contract may be published before another: it is older, or they route alike. -/
def Contract.Precedes (c d : Contract) : Prop :=
  c.generation ≤ d.generation ∧ (c.generation = d.generation → c.resources = d.resources)

theorem Contract.Precedes.refl (c : Contract) : c.Precedes c := ⟨UInt64.le_refl _, fun _ => rfl⟩

theorem Contract.Precedes.of_lt {c d : Contract} (h : c.generation < d.generation) :
    c.Precedes d :=
  ⟨UInt64.le_of_lt h, fun he => absurd he (UInt64.ne_of_lt h)⟩

theorem Contract.Precedes.trans {b c d : Contract} (h : b.Precedes c) (k : c.Precedes d) :
    b.Precedes d := by
  refine ⟨UInt64.le_trans h.1 k.1, fun he => ?_⟩
  have hc : b.generation = c.generation := UInt64.le_antisymm h.1 (he ▸ k.1)
  exact (h.2 hc).trans (k.2 (hc.symm.trans he))

/-- The contracts of two payloads, in this order. -/
def Payload.Precedes (p q : Payload) : Prop :=
  ∃ c d, Contract.decode p = .ok c ∧ Contract.decode q = .ok d ∧ c.Precedes d

/-- Payloads of contracts, each of which precedes the later ones. -/
structure InOrder (accepted : List Payload) : Prop where
  pairwise : accepted.Pairwise Payload.Precedes
  decodable : ∀ p ∈ accepted, ∃ c, Contract.decode p = .ok c

/-- Payloads in order, all of which precede a contract. -/
structure LeadsTo (accepted : List Payload) (c : Contract) : Prop where
  pairwise : accepted.Pairwise Payload.Precedes
  precedes : ∀ p ∈ accepted, ∃ d, Contract.decode p = .ok d ∧ d.Precedes c

namespace LeadsTo

variable {accepted : List Payload} {c d : Contract}

theorem inOrder (h : LeadsTo accepted c) : InOrder accepted where
  pairwise := h.pairwise
  decodable p hp := by
    obtain ⟨d, hd, _⟩ := h.precedes p hp
    exact ⟨d, hd⟩

theorem trans (h : LeadsTo accepted c) (hc : c.Precedes d) : LeadsTo accepted d where
  pairwise := h.pairwise
  precedes p hp := by
    obtain ⟨b, hb, hp⟩ := h.precedes p hp
    exact ⟨b, hb, hp.trans hc⟩

theorem append (h : LeadsTo accepted c) : LeadsTo (accepted ++ [c.encode]) c where
  pairwise := by
    refine List.pairwise_append.mpr ⟨h.pairwise, List.pairwise_singleton _ _, ?_⟩
    intro p hp q hq
    obtain ⟨d, hd, hc⟩ := h.precedes p hp
    rw [List.mem_singleton.mp hq]
    exact ⟨d, c, hd, Contract.decode_encode c, hc⟩
  precedes p hp := by
    rcases List.mem_append.mp hp with hp | hp
    · exact h.precedes p hp
    · rw [List.mem_singleton.mp hp]
      exact ⟨c, Contract.decode_encode c, .refl c⟩

end LeadsTo

/-- A restart goes on from a contract that all accepted payloads precede. -/
theorem InOrder.seed {accepted : List Payload} (h : InOrder accepted) :
    LeadsTo accepted (Synchronizer.seed accepted.getLast?).current := by
  rcases List.eq_nil_or_concat accepted with rfl | ⟨init, q, rfl⟩
  · exact ⟨.nil, nofun⟩
  · rw [List.concat_eq_append] at h ⊢
    obtain ⟨c, hc⟩ := h.decodable q (List.mem_append_right _ (List.mem_singleton.mpr rfl))
    have hs : (Synchronizer.seed (some q)).current = c := by
      rw [Synchronizer.seed, hc]
      rfl
    rw [List.getLast?_concat, hs]
    refine ⟨h.pairwise, fun p hp => ?_⟩
    rcases List.mem_append.mp hp with hp | hp
    · obtain ⟨b, d, hb, hd, hbd⟩ :=
        (List.pairwise_append.mp h.pairwise).2.2 p hp q (List.mem_singleton.mpr rfl)
      obtain rfl : c = d := Except.ok.inj (hc.symm.trans hd)
      exact ⟨b, hb, hbd⟩
    · rw [List.mem_singleton.mp hp]
      exact ⟨c, hc, .refl c⟩

namespace Life

/-- What was accepted is in order and, where a process runs, precedes its contract. -/
def Ordered (l : Life) : Prop :=
  InOrder l.accepted ∧ ∀ p ∈ l.process?, LeadsTo l.accepted p.sync.current

theorem ordered_of_process {accepted : List Payload} {p : Process}
    (h : LeadsTo accepted p.sync.current) : Ordered { accepted, process? := some p } :=
  ⟨h.inOrder, fun _ hp => Option.some.inj hp ▸ h⟩

theorem Ordered.start {l : Life} (h : l.Ordered) (c : Conditions) : (l.start c).Ordered := by
  rcases start_cases l c with hs | hs
  · rw [hs]
    exact ⟨h.1, nofun⟩
  · rw [hs]
    exact ordered_of_process h.1.seed

theorem accept_precedes (s : Synchronizer) (r : Readiness) :
    s.current.Precedes (s.accept (s.build r)).current := by
  rcases s.accept_current r with hc | hc
  · rw [hc]
    exact .refl _
  · exact .of_lt hc

theorem ordered_synchronize {accepted : List Payload} {p : Process}
    (h : LeadsTo accepted p.sync.current) (c : Conditions) :
    (p.synchronize c accepted).Ordered := by
  rcases hr : p.run Synchronizer.sync c accepted with ⟨⟨result, after⟩, accepted'⟩
  have hl := h.trans (accept_precedes p.sync c.readiness)
  rw [Process.synchronize, hr]
  refine ordered_of_process ?_
  rcases Conditions.sync_cases hr with ⟨_, _, rfl, rfl⟩ | ⟨_, _, rfl, rfl⟩ | ⟨_, _, rfl, rfl | rfl⟩
  · exact hl
  · exact hl.append
  · exact hl
  · exact hl.append

theorem ordered_reopen {accepted : List Payload} {p : Process}
    (h : LeadsTo accepted p.sync.current) (c : Conditions) :
    (p.perform Synchronizer.reopen c accepted).Ordered := by
  rcases hr : p.run Synchronizer.reopen c accepted with ⟨⟨result, after⟩, accepted'⟩
  rw [Process.perform, hr]
  refine ordered_of_process ?_
  obtain ⟨rfl, rfl | rfl⟩ := Conditions.reopen_cases hr
  · exact h
  · exact h

theorem ordered_close {accepted : List Payload} {p : Process}
    (h : LeadsTo accepted p.sync.current) {c : Conditions} (hc : ∀ e, c.fate ≠ .unacknowledged e)
    (hg : p.sync.current.generation < .greatest) :
    (p.perform Synchronizer.close c accepted).Ordered := by
  rcases hr : p.run Synchronizer.close c accepted with ⟨⟨result, after⟩, accepted'⟩
  rw [Process.perform, hr]
  refine ordered_of_process ?_
  rcases Conditions.close_cases hr with ⟨rfl, rfl⟩ | ⟨rfl, rfl | ⟨e, he⟩⟩
  · have hd := h.trans (.of_lt (Synchronizer.lt_drain_generation hg))
    rw [Synchronizer.shut_current_eq_drain hg]
    exact hd.append
  · exact h
  · exact absurd he (hc e)

theorem Ordered.step {l : Life} (h : l.Ordered) {m : Move} (hm : l.DrainsCleanly m) :
    (l.step m).Ordered := by
  obtain ⟨accepted, process?⟩ := l
  cases m with
  | start c => exact h.start c
  | upsert key f =>
    cases process? with
    | none => exact h
    | some p => exact ordered_of_process (h.2 p rfl)
  | remove key =>
    cases process? with
    | none => exact h
    | some p => exact ordered_of_process (h.2 p rfl)
  | sync c =>
    cases process? with
    | none => exact h
    | some p => exact ordered_synchronize (h.2 p rfl) c
  | reopen c =>
    cases process? with
    | none => exact h
    | some p => exact ordered_reopen (h.2 p rfl) c
  | close c =>
    cases process? with
    | none => exact h
    | some p => exact ordered_close (h.2 p rfl) hm.1 (hm.2 p rfl)

/-- Payloads are accepted with generations that do not decrease, and payloads of one generation
have the same resources. -/
theorem accepted_precede {payload? : Option Payload}
    (hp : ∀ p ∈ payload?, ∃ c, Contract.decode p = .ok c) {moves : List Move}
    (hm : Along DrainsCleanly (ofEntry payload?) moves) :
    ((ofEntry payload?).run moves).accepted.Pairwise Payload.Precedes := by
  have ho : (ofEntry payload?).Ordered := by
    refine ⟨⟨?_, fun p h => hp p (Option.mem_toList.mp h)⟩, nofun⟩
    cases payload? with
    | none => exact .nil
    | some p => exact List.pairwise_singleton _ p
  exact (run_invariant (fun _ _ h hm => h.step hm) ho hm).1.pairwise

theorem accepted_precede_after_restart :
    ((ofEntry (some (Contract.encode ⟨3, [{ uid := "b" }]⟩))).run
      [.start {}, .sync { fate := .unacknowledged (.io "TimedOut") }, .start {}, .sync {},
        .close {}]).accepted.Pairwise Payload.Precedes := by
  refine accepted_precede (fun p hp => ?_)
    ⟨trivial, trivial, trivial, trivial, ⟨nofun, by decide +kernel⟩, trivial⟩
  obtain rfl := Option.some.inj hp
  exact ⟨_, Contract.decode_encode _⟩

end Life

end EventRouting
