import EventRouting.Proofs.Routing.Life

namespace EventRouting

/-- An entry holds a contract. An entry without a payload stands for the contract before all
others. -/
def Contract.HeldBy (c : Contract) : Option Payload → Prop
  | some p => Contract.decode p = .ok c
  | none => c = {}

theorem Contract.ShownBy.heldBy {c : Contract} {payload? : Option Payload}
    (h : c.ShownBy payload?) (hd : ∀ p ∈ payload?, ∃ d, Contract.decode p = .ok d) :
    c.HeldBy payload? := by
  cases payload? with
  | none => exact h
  | some p =>
    obtain ⟨d, hp⟩ := hd p rfl
    rw [Contract.ShownBy, hp] at h
    exact h ▸ hp

/-- The report of a round that ended well is about the current contract, which the entry holds. -/
def Round.CaughtUp (round : Round) : Prop :=
  ∀ report, round.result = .ok report →
    report.generation = round.after.current.generation ∧
      report.outcome.contract = round.after.current ∧
      round.after.current.HeldBy round.payload?

/-- All of the payloads are contracts. -/
def Decodable (accepted : List Payload) : Prop :=
  ∀ p ∈ accepted, ∃ c, Contract.decode p = .ok c

theorem Decodable.append {accepted : List Payload} (h : Decodable accepted) (c : Contract) :
    Decodable (accepted ++ [c.encode]) := by
  intro p hp
  rcases List.mem_append.mp hp with hp | hp
  · exact h p hp
  · rw [List.mem_singleton.mp hp]
    exact ⟨c, Contract.decode_encode c⟩

theorem Decodable.getLast? {accepted : List Payload} (h : Decodable accepted) :
    ∀ p ∈ accepted.getLast?, ∃ c, Contract.decode p = .ok c :=
  fun p hp => h p (List.mem_of_getLast? hp)

namespace Life

/-- What is known of a running process and its rounds. -/
structure Follows (p : Process) (accepted : List Payload) : Prop where
  tracks : p.sync.Tracks accepted.getLast?
  caughtUp : ∀ round ∈ p.rounds, round.CaughtUp

/-- Everything accepted is a contract, and the process that runs knows the last of it. -/
def Followed (l : Life) : Prop :=
  Decodable l.accepted ∧ ∀ p ∈ l.process?, Follows p l.accepted

theorem followed_of_process {accepted : List Payload} {p : Process} (hd : Decodable accepted)
    (ht : p.sync.Tracks accepted.getLast?) (hr : ∀ round ∈ p.rounds, round.CaughtUp) :
    Followed { accepted, process? := some p } :=
  ⟨hd, fun _ hp => Option.some.inj hp ▸ ⟨ht, hr⟩⟩

theorem Followed.start {l : Life} (h : l.Followed) (c : Conditions) : (l.start c).Followed := by
  rcases start_cases l c with hs | hs
  · rw [hs]
    exact ⟨h.1, nofun⟩
  · rw [hs]
    exact followed_of_process h.1 (Synchronizer.seed_tracks _) fun _ hm => nomatch hm

theorem round_caughtUp {s after : Synchronizer} {c : Conditions}
    {result : Except Failure SyncReport}
    {accepted accepted' : List Payload}
    (hr : (Dialogue.under c.answer Synchronizer.sync s).run accepted =
      ((result, after), accepted'))
    (ho : ¬s.Overflows c.readiness) (hd : Decodable accepted')
    (ht : after.Tracks accepted'.getLast?) :
    Round.CaughtUp ⟨s, c.readiness, result, after, accepted'.getLast?⟩ := by
  have hc := (Synchronizer.accept_of_not_overflows ho).1
  intro report he
  rcases Conditions.sync_cases hr with ⟨hb, rfl, rfl, rfl⟩ | ⟨_, rfl, rfl, rfl⟩ | ⟨_, ⟨e, rfl⟩, _⟩
  · obtain rfl := Except.ok.inj he
    exact ⟨rfl, hc.symm, (ht.shown hb).heldBy hd.getLast?⟩
  · obtain rfl := Except.ok.inj he
    exact ⟨rfl, hc.symm, (ht.shown (Synchronizer.caughtUp_not_behind _)).heldBy hd.getLast?⟩
  · cases he

theorem synchronize_tracks {s after : Synchronizer} {c : Conditions}
    {result : Except Failure SyncReport} {accepted accepted' : List Payload}
    (hd : Decodable accepted) (h : s.Tracks accepted.getLast?)
    (hr : (Dialogue.under c.answer Synchronizer.sync s).run accepted =
      ((result, after), accepted')) :
    Decodable accepted' ∧ after.Tracks accepted'.getLast? := by
  rcases Conditions.sync_cases hr with
    ⟨hb, _, rfl, rfl⟩ | ⟨_, _, rfl, rfl⟩ | ⟨hb, _, rfl, rfl | rfl⟩
  · exact ⟨hd, h.accept_of_not_behind hb⟩
  · refine ⟨hd.append _, ?_⟩
    rw [List.getLast?_concat]
    exact Synchronizer.caughtUp_tracks _
  · exact ⟨hd, (h.leads.accept _).tracks_of_behind hb _⟩
  · exact ⟨hd.append _, (h.leads.accept _).tracks_of_behind hb _⟩

theorem followed_synchronize {accepted : List Payload} {p : Process} (hd : Decodable accepted)
    (h : Follows p accepted) {c : Conditions} (ho : ¬p.sync.Overflows c.readiness) :
    (p.synchronize c accepted).Followed := by
  rcases hr : p.run Synchronizer.sync c accepted with ⟨⟨result, after⟩, accepted'⟩
  obtain ⟨hd', ht⟩ := synchronize_tracks hd h.tracks hr
  rw [Process.synchronize, hr]
  apply followed_of_process hd' ht
  intro round hm
  rcases List.mem_cons.mp hm with rfl | hm
  · exact round_caughtUp hr ho hd' ht
  · exact h.caughtUp round hm

theorem followed_reopen {accepted : List Payload} {p : Process} (hd : Decodable accepted)
    (h : Follows p accepted) (c : Conditions) :
    (p.perform Synchronizer.reopen c accepted).Followed := by
  rcases hr : p.run Synchronizer.reopen c accepted with ⟨⟨result, after⟩, accepted'⟩
  rw [Process.perform, hr]
  obtain ⟨rfl, rfl | rfl⟩ := Conditions.reopen_cases hr
  · exact followed_of_process hd h.tracks h.caughtUp
  · exact followed_of_process hd h.tracks.reset h.caughtUp

theorem followed_close {accepted : List Payload} {p : Process} (hd : Decodable accepted)
    (h : Follows p accepted) {c : Conditions} (hc : ∀ e, c.fate ≠ .unacknowledged e)
    (hg : p.sync.current.generation < .greatest) :
    (p.perform Synchronizer.close c accepted).Followed := by
  rcases hr : p.run Synchronizer.close c accepted with ⟨⟨result, after⟩, accepted'⟩
  rw [Process.perform, hr]
  rcases Conditions.close_cases hr with ⟨rfl, rfl⟩ | ⟨rfl, rfl | ⟨e, he⟩⟩
  · refine followed_of_process (hd.append _) ?_ h.caughtUp
    rw [List.getLast?_concat]
    exact Synchronizer.shut_tracks hg
  · exact followed_of_process hd h.tracks h.caughtUp
  · exact absurd he (hc e)

theorem Followed.step {l : Life} (h : l.Followed) {m : Move} (hm : l.DrainsCleanly m)
    (hg : l.MintsInRange m) : (l.step m).Followed := by
  obtain ⟨accepted, process?⟩ := l
  cases m with
  | start c => exact h.start c
  | upsert key f =>
    cases process? with
    | none => exact h
    | some p =>
      have hp := h.2 p rfl
      exact followed_of_process h.1 (hp.tracks.of_fragments _) hp.caughtUp
  | remove key =>
    cases process? with
    | none => exact h
    | some p =>
      have hp := h.2 p rfl
      exact followed_of_process h.1 (hp.tracks.of_fragments _) hp.caughtUp
  | sync c =>
    cases process? with
    | none => exact h
    | some p => exact followed_synchronize h.1 (h.2 p rfl) (hg p rfl)
  | reopen c =>
    cases process? with
    | none => exact h
    | some p => exact followed_reopen h.1 (h.2 p rfl) c
  | close c =>
    cases process? with
    | none => exact h
    | some p => exact followed_close h.1 (h.2 p rfl) hm.1 (hm.2 p rfl)

/-- Every synchronization that ends well reports the current contract, and leaves it in the storage
entry. -/
theorem rounds_caughtUp {payload? : Option Payload}
    (hp : ∀ p ∈ payload?, ∃ c, Contract.decode p = .ok c) {moves : List Move}
    (hm : Along DrainsCleanly (ofEntry payload?) moves)
    (hg : Along MintsInRange (ofEntry payload?) moves) {p : Process}
    (hr : p ∈ ((ofEntry payload?).run moves).process?) :
    ∀ round ∈ p.rounds, round.CaughtUp := by
  have hf : (ofEntry payload?).Followed := ⟨fun p h => hp p (Option.mem_toList.mp h), nofun⟩
  have hl := run_invariant (fun _ _ h hm => h.step hm.1 hm.2) hf (hm.and hg)
  exact (hl.2 p hr).caughtUp

theorem rounds_caughtUp_after_failure :
    let l := (ofEntry (some (Contract.encode ⟨5, [{ uid := "b" }]⟩))).run
      [.start {}, .sync { fate := .refused (.io "TimedOut") }, .reopen {}, .sync {}]
    ∃ p ∈ l.process?, p.rounds.length = 2 ∧ ∀ round ∈ p.rounds, round.CaughtUp := by
  intro l
  have hs : l.process?.isSome = true := by decide +kernel
  have hn : ∀ p ∈ l.process?, p.rounds.length = 2 := by decide +kernel
  refine ⟨_, Option.get_mem hs, hn _ (Option.get_mem hs), ?_⟩
  refine rounds_caughtUp (fun q hq => ?_) ?_ ?_ (Option.get_mem hs)
  · obtain rfl := Option.some.inj hq
    exact ⟨_, Contract.decode_encode _⟩
  · exact ⟨trivial, trivial, trivial, trivial, trivial⟩
  · decide +kernel

/-- At the greatest generation a drain takes the place of a contract that the store keeps, and the
next synchronization ends well. -/
theorem saturated_drain_not_caughtUp :
    let l := (ofEntry (some (Contract.encode
        ⟨18446744073709551614, [{ uid := "x" }, { uid := "y" }]⟩))).run
      [.start {}, .upsert "x" ⟨"x", ⟨0, 0⟩, .resource { uid := "x" } ⟨"h", 80, "/x", false⟩⟩,
        .sync { fate := .refused (.storage "injected write failure") }, .close {}, .sync {}]
    ∃ p ∈ l.process?, ∃ round ∈ p.rounds, ¬round.CaughtUp := by
  intro l
  have hs : l.process?.isSome = true := by decide +kernel
  have hr : ∀ p ∈ l.process?, ∃ round ∈ p.rounds, round.result.isOk = true ∧
      round.payload? = some (Contract.drain 18446744073709551615).encode ∧
      round.after.current.resources ≠ [] := by decide +kernel
  obtain ⟨round, hm, ho, hp, hn⟩ := hr _ (Option.get_mem hs)
  refine ⟨_, Option.get_mem hs, round, hm, fun hc => hn ?_⟩
  cases he : round.result with
  | error e =>
    rw [he] at ho
    cases ho
  | ok report =>
    obtain ⟨_, _, hh⟩ := hc report he
    rw [hp, Contract.HeldBy, Contract.decode_encode] at hh
    rw [← Except.ok.inj hh]
    rfl

end Life

end EventRouting
