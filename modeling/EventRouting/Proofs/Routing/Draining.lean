import EventRouting.Proofs.Routing.Order

namespace EventRouting

namespace Conditions

variable {c : Conditions} {s : Synchronizer} {accepted : List Payload}

theorem sync_of_closed (hc : s.publisher.closed = true) {result : Except Failure SyncReport}
    {after : Synchronizer} {accepted' : List Payload}
    (h : (Dialogue.under c.answer Synchronizer.sync s).run accepted =
      ((result, after), accepted')) :
    after.publisher.closed = true ∧ accepted' = accepted := by
  have ht : (s.accept (s.build c.readiness)).publisher.closed = true := by
    rw [Synchronizer.accept_publisher]
    exact hc
  rw [Synchronizer.under_sync] at h
  change StateT.run (if (s.accept (s.build c.readiness)).isBehind = true then
    if (s.accept (s.build c.readiness)).publisher.closed = true then pure _ else _
    else pure _) accepted = _ at h
  rw [if_pos ht] at h
  split at h
  · cases h
    exact ⟨ht, rfl⟩
  · cases h
    exact ⟨ht, rfl⟩

theorem reopen_of_closed (hc : s.publisher.closed = true) {result : Except Failure Unit}
    {after : Synchronizer} {accepted' : List Payload}
    (h : (Dialogue.under c.answer Synchronizer.reopen s).run accepted =
      ((result, after), accepted')) :
    after.publisher.closed = true ∧ accepted' = accepted := by
  obtain ⟨ha, rfl | rfl⟩ := reopen_cases h
  · exact ⟨hc, ha⟩
  · exact ⟨hc, ha⟩

theorem close_of_closed (hc : s.publisher.closed = true) (c : Conditions)
    (accepted : List Payload) :
    (Dialogue.under c.answer Synchronizer.close s).run accepted = ((.ok false, s), accepted) := by
  rw [close_run, if_pos hc]

theorem close_succeeds {after : Synchronizer} {accepted' : List Payload}
    (h : (Dialogue.under c.answer Synchronizer.close s).run accepted =
      ((.ok true, after), accepted')) :
    after = s.shut ∧ accepted' = accepted ++ [s.drain.encode] := by
  rw [close_run] at h
  split at h
  next => cases h
  next =>
    split at h
    next =>
      cases h
      exact ⟨rfl, rfl⟩
    next => cases h
    next => cases h

theorem close_fails (hf : ∀ e, c.fate ≠ .unacknowledged e) {e : Failure} {after : Synchronizer}
    {accepted' : List Payload}
    (h : (Dialogue.under c.answer Synchronizer.close s).run accepted =
      ((.error e, after), accepted')) :
    s.publisher.closed = false ∧ after = s ∧ accepted' = accepted := by
  rw [close_run] at h
  split at h
  next => cases h
  next hc =>
    split at h
    next => cases h
    next =>
      cases h
      exact ⟨Bool.eq_false_iff.mpr hc, rfl, rfl⟩
    next e he => exact absurd he (hf e)

end Conditions

namespace Life

/-- A process runs that has closed its publisher, after these payloads were accepted. -/
structure Closed (accepted : List Payload) (l : Life) : Prop where
  accepted : l.accepted = accepted
  process : ∃ p, l.process? = some p ∧ p.sync.publisher.closed = true

variable {accepted accepted' : List Payload} {l : Life}

theorem closed_of_process {p : Process} (h : p.sync.publisher.closed = true)
    (ha : accepted' = accepted) : Closed accepted { accepted := accepted', process? := some p } :=
  ⟨ha, p, rfl, h⟩

theorem Closed.step (h : Closed accepted l) {m : Move} (hm : ∀ c, m ≠ .start c) :
    Closed accepted (l.step m) := by
  obtain ⟨rfl, p, hp, hc⟩ := h
  obtain ⟨accepted, process?⟩ := l
  cases hp
  cases m with
  | start c => exact absurd rfl (hm c)
  | upsert key f => exact closed_of_process hc rfl
  | remove key => exact closed_of_process hc rfl
  | sync c =>
    rcases hr : p.run Synchronizer.sync c accepted with ⟨⟨result, after⟩, accepted'⟩
    obtain ⟨hafter, ha⟩ := Conditions.sync_of_closed hc hr
    change Closed accepted (p.synchronize c accepted)
    rw [Process.synchronize, hr]
    exact closed_of_process hafter ha
  | reopen c =>
    rcases hr : p.run Synchronizer.reopen c accepted with ⟨⟨result, after⟩, accepted'⟩
    obtain ⟨hafter, ha⟩ := Conditions.reopen_of_closed hc hr
    change Closed accepted (p.perform Synchronizer.reopen c accepted)
    rw [Process.perform, hr]
    exact closed_of_process hafter ha
  | close c =>
    change Closed accepted (p.perform Synchronizer.close c accepted)
    rw [Process.perform, Process.run, Conditions.close_of_closed hc]
    exact closed_of_process hc rfl

theorem Closed.run (h : Closed accepted l) {later : List Move} (hm : ∀ c, .start c ∉ later) :
    Closed accepted (l.run later) := by
  induction later generalizing l with
  | nil => exact h
  | cons m later ih =>
    apply ih
    · apply h.step
      rintro c rfl
      exact hm c List.mem_cons_self
    · intro c hc
      exact hm c (List.mem_cons_of_mem m hc)

theorem closed_of_close {p : Process} (hp : p ∈ l.process?) {c : Conditions}
    {after : Synchronizer} (hr : p.run Synchronizer.close c l.accepted =
      ((.ok true, after), accepted)) : Closed accepted (l.step (.close c)) := by
  obtain ⟨before, process?⟩ := l
  cases hp
  obtain ⟨rfl, -⟩ := Conditions.close_succeeds hr
  change Closed accepted (p.perform Synchronizer.close c before)
  rw [Process.perform, hr]
  exact closed_of_process rfl rfl

theorem Ordered.lt_drain (h : l.Ordered) {p : Process} (hp : p ∈ l.process?)
    (hg : p.sync.current.generation < .greatest) {q : Payload} (hq : q ∈ l.accepted) :
    ∃ d, Contract.decode q = .ok d ∧ d.generation < p.sync.drain.generation := by
  obtain ⟨d, hd, hle, -⟩ := (h.2 p hp).precedes q hq
  exact ⟨d, hd, UInt64.lt_of_le_of_lt hle (Synchronizer.lt_drain_generation hg)⟩

theorem ordered_ofEntry {payload? : Option Payload}
    (hp : ∀ p ∈ payload?, ∃ c, Contract.decode p = .ok c) : (ofEntry payload?).Ordered := by
  refine ⟨⟨?_, fun p h => hp p (Option.mem_toList.mp h)⟩, nofun⟩
  cases payload? with
  | none => exact .nil
  | some p => exact List.pairwise_singleton _ p

/-- A drain is newer than all payloads before it and stays until another process starts. A close
that fails changes nothing. -/
theorem drain_stays {payload? : Option Payload}
    (hp : ∀ p ∈ payload?, ∃ c, Contract.decode p = .ok c) {moves : List Move}
    (hm : Along DrainsCleanly (ofEntry payload?) moves) {p : Process}
    (hr : p ∈ ((ofEntry payload?).run moves).process?) {c : Conditions}
    (hc : ((ofEntry payload?).run moves).DrainsCleanly (.close c)) :
    let l := (ofEntry payload?).run moves
    let closing := p.run Synchronizer.close c l.accepted
    (closing.1.1 = .ok true → ∃ g, closing.2 = l.accepted ++ [(Contract.drain g).encode] ∧
      (∀ q ∈ l.accepted, ∃ d, Contract.decode q = .ok d ∧ d.generation < g) ∧
      ∀ later : List Move, (∀ c, .start c ∉ later) →
        ((l.step (.close c)).run later).accepted = closing.2 ∧
        ∃ p' ∈ ((l.step (.close c)).run later).process?,
          ∀ c', (p'.run Synchronizer.close c' closing.2).1.1 = .ok false) ∧
    ∀ e, closing.1.1 = .error e → closing.1.2 = p.sync ∧ closing.2 = l.accepted ∧
      ∀ c', c'.fate = .taken → (p.run Synchronizer.close c' l.accepted).1.1 = .ok true := by
  intro l closing
  have ho : l.Ordered := run_invariant (fun _ _ h hm => h.step hm) (ordered_ofEntry hp) hm
  obtain ⟨hfate, hgreatest⟩ := hc
  rcases hclosing : p.run Synchronizer.close c l.accepted with ⟨⟨result, after⟩, accepted⟩
  have hclosing' : closing = ((result, after), accepted) := hclosing
  rw [hclosing']
  constructor
  · rintro rfl
    obtain ⟨-, rfl⟩ := Conditions.close_succeeds hclosing
    refine ⟨p.sync.drain.generation, rfl, ?_, ?_⟩
    · intro q hq
      exact ho.lt_drain hr (hgreatest p hr) hq
    · intro later hl
      obtain ⟨ha, p', hp', hclosed⟩ := (closed_of_close hr hclosing).run hl
      refine ⟨ha, p', hp', ?_⟩
      intro c'
      rw [Process.run, Conditions.close_of_closed hclosed]
  · rintro e rfl
    obtain ⟨hopen, ha, hb⟩ := Conditions.close_fails hfate hclosing
    refine ⟨ha, hb, ?_⟩
    intro c' hf
    rw [Process.run, Conditions.close_run, if_neg (Bool.eq_false_iff.mp hopen), hf]

theorem drain_stays_after_refusal :
    let l := (ofEntry (some (Contract.encode ⟨3, [{ uid := "b" }]⟩))).run
      [.start {}, .sync {}, .close { fate := .refused (.io "TimedOut") }, .reopen {}]
    let later : List Move := [.sync {}, .reopen {},
      .upsert "b" ⟨"b", ⟨0, 0⟩, .resource { uid := "b" } ⟨"h", 80, "/b", false⟩⟩,
      .sync { readiness := ⟨fun _ => true, fun _ => 0⟩ }, .remove "b"]
    ∃ g, (∀ q ∈ l.accepted, ∃ d, Contract.decode q = .ok d ∧ d.generation < g) ∧
      ((l.step (.close {})).run later).accepted = l.accepted ++ [(Contract.drain g).encode] ∧
      ∃ p ∈ ((l.step (.close {})).run later).process?, p.sync.current.generation = 6 ∧
        (p.run Synchronizer.close {} (l.accepted ++ [(Contract.drain g).encode])).1.1 =
          .ok false := by
  intro l later
  have hentry : ∀ p ∈ some (Contract.encode ⟨3, [{ uid := "b" }]⟩), ∃ c,
      Contract.decode p = .ok c := by
    intro p hp
    obtain rfl := Option.some.inj hp
    exact ⟨_, Contract.decode_encode _⟩
  have hs : l.process?.isSome = true := by decide +kernel
  have hopen : ∀ p ∈ l.process?, p.sync.publisher.closed = false := by decide +kernel
  have hstore : ∀ p ∈ ((l.step (.close {})).run later).process?, p.sync.current.generation = 6 := by
    decide +kernel
  have hmoves : Along DrainsCleanly (ofEntry (some (Contract.encode ⟨3, [{ uid := "b" }]⟩)))
      [.start {}, .sync {}, .close { fate := .refused (.io "TimedOut") }, .reopen {}] :=
    ⟨trivial, trivial, ⟨nofun, by decide +kernel⟩, trivial, trivial⟩
  have hsecond : l.DrainsCleanly (.close {}) := ⟨nofun, by decide +kernel⟩
  have hclose : ((l.process?.get hs).run Synchronizer.close {} l.accepted).1.1 = .ok true := by
    rw [Process.run, Conditions.close_run,
      if_neg (Bool.eq_false_iff.mp (hopen _ (Option.get_mem hs)))]
  obtain ⟨hdrain, -⟩ := drain_stays hentry hmoves (Option.get_mem hs) hsecond
  obtain ⟨g, hg, hlt, hlater⟩ := hdrain hclose
  obtain ⟨ha, p, hp, hfalse⟩ := hlater later (by simp [later])
  rw [hg] at ha hfalse
  exact ⟨g, hlt, ha, p, hp, hstore p hp, hfalse {}⟩

end Life

end EventRouting
