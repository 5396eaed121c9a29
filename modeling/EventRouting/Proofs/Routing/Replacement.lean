import EventRouting.Proofs.Routing.Recovery

namespace EventRouting

/-- The generation that is legible in a payload that does not decode, zero if none is. -/
def legibleGeneration (p : Payload) : Generation := (salvageGeneration? p).getD 0

namespace Life

/-- The contract before anything is built, where it does not outdate the payload it started on. -/
structure KeepsAt (p : Payload) (c : Contract) : Prop where
  current : c = .drain (legibleGeneration p)
  unsalvaged : ∀ g ∈ salvageGeneration? p, g = .greatest

/-- What became of a synchronizer, and of the entry, since a process started on the payload `p`. -/
inductive Standing (p : Payload) (t : Synchronizer) (accepted : List Payload) : Prop where
  /-- Nothing was built that is to be published. -/
  | kept (last : t.publisher.last?.elim 0 id = legibleGeneration p) (entry : accepted = [p])
      (keeps : KeepsAt p t.current)
  /-- There is something newer, and it is in the entry unless it is yet to be published. -/
  | replaced (newer : legibleGeneration p < t.current.generation) (leads : t.Leads)
      (holds : t.isBehind = false → Holds accepted.getLast? t.current)

/-- A round that ends well leaves its contract in the entry, if the contract is newer than what was
legible in the former payload. Otherwise it leaves the entry as it was. -/
def Replaces (p : Payload) (round : Round) : Prop :=
  ∀ report, round.result = .ok report →
    (legibleGeneration p < round.after.current.generation →
      Holds round.payload? round.after.current) ∧
    (¬legibleGeneration p < round.after.current.generation →
      round.payload? = some p ∧ KeepsAt p round.after.current)

section Standing

variable {p : Payload} {t after : Synchronizer} {c : Conditions} {accepted accepted' : List Payload}

theorem holds_encode (accepted : List Payload) (c : Contract) :
    Holds (accepted ++ [c.encode]).getLast? c :=
  ⟨c.encode, List.getLast?_concat, Contract.decode_encode c⟩

theorem seed_standing {e : ContractError} (hp : Contract.decode p = .error e) :
    Standing p (.seed (some p)) [p] := by
  rw [Synchronizer.seed, hp]
  cases hg : salvageGeneration? p with
  | none =>
    have hl : legibleGeneration p = 0 := by rw [legibleGeneration, hg]; rfl
    exact .kept hl.symm rfl ⟨hl ▸ rfl, fun _ h => absurd (hg ▸ h) (Option.not_mem_none _)⟩
  | some g =>
    have hl : legibleGeneration p = g := by rw [legibleGeneration, hg]; rfl
    by_cases hn : g < .greatest
    · refine .replaced (hl.symm ▸ Generation.lt_next hn) ?_ fun hb => ?_
      · exact fun f hf => Option.some.inj hf ▸ g.le_next
      · have hi : decide (g < g.next) = false := hb
        exact absurd (Generation.lt_next hn) (of_decide_eq_false hi)
    · have he : g = .greatest := UInt64.le_antisymm g.le_greatest (UInt64.not_lt.mp hn)
      refine .kept hl.symm rfl ⟨?_, fun f hf => ?_⟩
      · rw [hl, he]
        rfl
      · rw [hg] at hf
        exact Option.some.inj hf ▸ he

theorem Standing.leads (h : Standing p t accepted) : t.Leads := by
  cases h with
  | kept hl _ hk =>
    intro g hg
    rw [hg] at hl
    rw [hk.current]
    exact hl ▸ UInt64.le_refl _
  | replaced _ hl _ => exact hl

theorem Standing.le (h : Standing p t accepted) :
    legibleGeneration p ≤ t.current.generation := by
  cases h with
  | kept _ _ hk => exact hk.current ▸ UInt64.le_refl _
  | replaced hn _ _ => exact UInt64.le_of_lt hn

/-- A build that leaves something to publish has brought in something newer. -/
theorem Standing.newer_of_behind (h : Standing p t accepted) {r : Readiness}
    (hb : (t.accept (t.build r)).isBehind = true) :
    legibleGeneration p < (t.accept (t.build r)).current.generation := by
  cases h with
  | kept hl _ _ =>
    rw [Synchronizer.isBehind_iff, Synchronizer.accept_publisher, hl] at hb
    exact hb
  | replaced hn _ _ => exact UInt64.lt_of_lt_of_le hn (t.accept_generation r)

theorem Standing.sync (h : Standing p t accepted) {result : Except Failure SyncReport}
    (hr : (Dialogue.under c.answer Synchronizer.sync t).run accepted =
      ((result, after), accepted')) :
    Standing p after accepted' ∧
      Replaces p ⟨t, c.readiness, result, after, accepted'.getLast?⟩ := by
  have hleads := h.leads.accept c.readiness
  rcases Conditions.sync_cases hr
    with ⟨hb, _, rfl, rfl⟩ | ⟨hb, _, rfl, rfl⟩ | ⟨hb, ⟨e, rfl⟩, rfl, _⟩
  · obtain ⟨hc, ht⟩ := h.leads.current_of_not_behind hb
    cases h with
    | kept hl he hk =>
      have hk' : KeepsAt p (t.accept (t.build c.readiness)).current := hc ▸ hk
      have hn : ¬legibleGeneration p < (t.accept (t.build c.readiness)).current.generation :=
        hk'.current ▸ UInt64.lt_irrefl _
      refine ⟨.kept ?_ he hk', fun _ _ => ⟨fun hl => absurd hl hn, fun _ => ⟨he ▸ rfl, hk'⟩⟩⟩
      rw [Synchronizer.accept_publisher, hl]
    | replaced hn _ hh =>
      have hh' : Holds accepted'.getLast? (t.accept (t.build c.readiness)).current :=
        hc ▸ hh ht
      have hn' : legibleGeneration p < (t.accept (t.build c.readiness)).current.generation :=
        hc ▸ hn
      exact ⟨.replaced hn' hleads fun _ => hh', fun _ _ => ⟨fun _ => hh', absurd hn'⟩⟩
  · have hn := h.newer_of_behind hb
    have hh := holds_encode accepted (t.accept (t.build c.readiness)).current
    exact ⟨.replaced hn (Synchronizer.caughtUp_tracks _).leads fun _ => hh,
      fun _ _ => ⟨fun _ => hh, absurd hn⟩⟩
  · refine ⟨.replaced (h.newer_of_behind hb) hleads fun hf => ?_, nofun⟩
    exact absurd (hf.symm.trans hb) Bool.false_ne_true

theorem Standing.of_fragments (h : Standing p t accepted) (fragments : Table String Fragment) :
    Standing p { t with fragments } accepted := by
  cases h with
  | kept hl he hk => exact .kept hl he hk
  | replaced hn hl hh => exact .replaced hn hl hh

theorem Standing.close (h : Standing p t accepted) {result : Except Failure Bool}
    (hc : ∀ e, c.fate ≠ .unacknowledged e) (hg : t.current.generation < .greatest)
    (hr : (Dialogue.under c.answer Synchronizer.close t).run accepted =
      ((result, after), accepted')) : Standing p after accepted' := by
  rcases Conditions.close_cases hr with ⟨rfl, rfl⟩ | ⟨rfl, rfl | ⟨e, he⟩⟩
  · have hs := Synchronizer.shut_current_eq_drain hg
    refine .replaced ?_ t.shut_leads fun _ => hs ▸ holds_encode accepted t.drain
    rw [hs]
    exact UInt64.lt_of_le_of_lt h.le (Synchronizer.lt_drain_generation hg)
  · exact h
  · exact absurd he (hc e)

end Standing

/-- What is known of a process, and of its rounds, since it started on an undecodable payload. -/
structure Mends (p : Payload) (l : Life) : Prop where
  standing : ∀ q ∈ l.process?, Standing p q.sync l.accepted
  rounds : ∀ q ∈ l.process?, ∀ round ∈ q.rounds, Replaces p round

theorem mends_of_process {p : Payload} {accepted : List Payload} {q : Process}
    (hs : Standing p q.sync accepted) (hr : ∀ round ∈ q.rounds, Replaces p round) :
    Mends p ⟨accepted, some q⟩ :=
  ⟨fun _ hq => Option.some.inj hq ▸ hs, fun _ hq => Option.some.inj hq ▸ hr⟩

theorem Mends.step {p : Payload} {l : Life} (h : Mends p l) {m : Move} (hm : l.GoesOn m) :
    Mends p (l.step m) := by
  obtain ⟨accepted, process?⟩ := l
  cases process? with
  | none =>
    cases m with
    | start c => exact hm.elim
    | reopen c => exact hm.elim
    | _ => exact h
  | some q =>
    have hs := h.standing q rfl
    have hr := h.rounds q rfl
    cases m with
    | start c => exact hm.elim
    | reopen c => exact hm.elim
    | upsert key f => exact mends_of_process (hs.of_fragments _) hr
    | remove key => exact mends_of_process (hs.of_fragments _) hr
    | sync c =>
      change Mends p (q.synchronize c accepted)
      rcases hv : q.run Synchronizer.sync c accepted with ⟨⟨result, after⟩, accepted'⟩
      obtain ⟨hs', hn⟩ := hs.sync hv
      rw [Process.synchronize, hv]
      apply mends_of_process hs'
      intro round hm
      rcases List.mem_cons.mp hm with rfl | hm
      · exact hn
      · exact hr round hm
    | close c =>
      change Mends p (q.perform Synchronizer.close c accepted)
      rcases hv : q.run Synchronizer.close c accepted with ⟨⟨result, after⟩, accepted'⟩
      rw [Process.perform, hv]
      exact mends_of_process (hs.close hm.1 (hm.2 q rfl) hv) hr

theorem mends_start {p : Payload} {e : ContractError} (hp : Contract.decode p = .error e)
    (c : Conditions) : Mends p ((ofEntry (some p)).step (.start c)) := by
  change Mends p ((ofEntry (some p)).start c)
  rcases start_cases (ofEntry (some p)) c with hs | hs
  · rw [hs]
    exact ⟨nofun, nofun⟩
  · rw [hs]
    exact mends_of_process (seed_standing hp) fun _ hm => absurd hm List.not_mem_nil

/-- A process that starts on an undecodable payload replaces it once its contract is newer than the
generation that was legible. -/
theorem replaced_entry {p : Payload} {e : ContractError} (hp : Contract.decode p = .error e)
    {c : Conditions} {moves : List Move}
    (hm : Along GoesOn ((ofEntry (some p)).step (.start c)) moves) {q : Process}
    (hq : q ∈ (((ofEntry (some p)).step (.start c)).run moves).process?) :
    ∀ round ∈ q.rounds, Replaces p round :=
  (run_invariant (fun _ _ h hm => h.step hm) (mends_start hp c) hm).rounds q hq

theorem replaced_truncated_entry :
    let p := Utf8.bytes "\x7b\"generation\": 9, \"resources\": ["
    ∃ q ∈ (((ofEntry (some p)).step (.start {})).run [.sync {}]).process?,
      ∃ round ∈ q.rounds, round.after.current = .drain 10 ∧
        Holds round.payload? round.after.current := by
  intro p
  have hp : Contract.decode p = .error (.decode (.fault .ended)) := by decide +kernel
  have hs : (((ofEntry (some p)).step (.start {})).run [.sync {}]).process?.isSome = true := by
    decide +kernel
  have hr : ∀ q ∈ (((ofEntry (some p)).step (.start {})).run [.sync {}]).process?,
      ∃ round ∈ q.rounds, round.result.isOk = true ∧ round.after.current = .drain 10 ∧
        legibleGeneration p < round.after.current.generation := by decide +kernel
  obtain ⟨round, hm, ho, hc, hl⟩ := hr _ (Option.get_mem hs)
  have ha : Along GoesOn ((ofEntry (some p)).step (.start {})) [.sync {}] := ⟨trivial, trivial⟩
  have hn := replaced_entry hp ha (Option.get_mem hs) round hm
  refine ⟨_, Option.get_mem hs, round, hm, hc, ?_⟩
  cases he : round.result with
  | error e =>
    rw [he] at ho
    cases ho
  | ok report => exact (hn report he).1 hl

/-- Nothing is legible in the payload, nothing is built, and the synchronization ends well without
writing anything. -/
theorem illegible_entry_kept :
    let p := Utf8.bytes "not json"
    ∃ q ∈ (((ofEntry (some p)).step (.start {})).run [.sync {}]).process?,
      ∃ round ∈ q.rounds, round.result.isOk = true ∧ ¬Holds round.payload? round.after.current := by
  intro p
  have hp : Contract.decode p = .error (.decode (.fault .malformed)) := by decide +kernel
  have hs : (((ofEntry (some p)).step (.start {})).run [.sync {}]).process?.isSome = true := by
    decide +kernel
  have hr : ∀ q ∈ (((ofEntry (some p)).step (.start {})).run [.sync {}]).process?,
      ∃ round ∈ q.rounds, round.result.isOk = true ∧ round.payload? = some p := by decide +kernel
  obtain ⟨round, hm, ho, hk⟩ := hr _ (Option.get_mem hs)
  refine ⟨_, Option.get_mem hs, round, hm, ho, ?_⟩
  rintro ⟨payload, hh, hd⟩
  obtain rfl := Option.some.inj (hk.symm.trans hh)
  cases hp.symm.trans hd

end Life

end EventRouting
