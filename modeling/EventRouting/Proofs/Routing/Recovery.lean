import EventRouting.Proofs.Routing.CatchUp

namespace EventRouting

namespace Life

/-- What happens to a control plane and to its storage entry. -/
inductive Event where
  | move (m : Move)
  | deletion

/-- The storage entry is missing, and rounds are recorded from now on. -/
def lose (l : Life) : Life where
  accepted := []
  process? := l.process?.map fun p => { p with rounds := [] }

def meet (l : Life) : Event → Life
  | .move m => l.step m
  | .deletion => l.lose

def live (l : Life) (events : List Event) : Life := events.foldl meet l

/-- The deletion of the storage entry is noticed. Rounds are recorded from now on. -/
def recover (l : Life) (c : Conditions) : Life :=
  match l.process? with
  | none => l
  | some p => { p with rounds := [] }.perform Synchronizer.recover c l.accepted

/-- Moves of a process that goes on, other than recoveries. -/
def GoesOn (l : Life) : Move → Prop
  | .start _ | .reopen _ => False
  | m => l.DrainsCleanly m

theorem leads_of_process {accepted : List Payload} {p : Process} (h : p.sync.Leads) :
    ∀ q ∈ (Life.mk accepted (some p)).process?, q.sync.Leads :=
  fun _ hq => Option.some.inj hq ▸ h

section Leads

variable {accepted : List Payload} {p : Process}

theorem leads_start (l : Life) (c : Conditions) : ∀ p ∈ (l.start c).process?, p.sync.Leads := by
  rcases start_cases l c with hs | hs
  · rw [hs]
    exact fun p hp => absurd hp (Option.not_mem_none p)
  · rw [hs]
    exact leads_of_process (Synchronizer.seed_tracks _).leads

theorem leads_synchronize (h : p.sync.Leads) (c : Conditions) :
    ∀ q ∈ (p.synchronize c accepted).process?, q.sync.Leads := by
  rcases hr : p.run Synchronizer.sync c accepted with ⟨⟨result, after⟩, accepted'⟩
  have ha := h.accept c.readiness
  rw [Process.synchronize, hr]
  apply leads_of_process
  rcases Conditions.sync_cases hr with ⟨_, _, rfl, _⟩ | ⟨_, _, rfl, _⟩ | ⟨_, _, rfl, _⟩
  · exact ha
  · exact (Synchronizer.caughtUp_tracks _).leads
  · exact ha

theorem leads_reopen (h : p.sync.Leads) (c : Conditions) :
    ∀ q ∈ (p.perform Synchronizer.reopen c accepted).process?, q.sync.Leads := by
  rcases hr : p.run Synchronizer.reopen c accepted with ⟨⟨result, after⟩, accepted'⟩
  rw [Process.perform, hr]
  apply leads_of_process
  rcases (Conditions.reopen_cases hr).2 with rfl | rfl
  · exact h
  · exact p.sync.leads_reset

theorem leads_close (h : p.sync.Leads) (c : Conditions) :
    ∀ q ∈ (p.perform Synchronizer.close c accepted).process?, q.sync.Leads := by
  rcases hr : p.run Synchronizer.close c accepted with ⟨⟨result, after⟩, accepted'⟩
  rw [Process.perform, hr]
  apply leads_of_process
  rcases Conditions.close_cases hr with ⟨rfl, _⟩ | ⟨rfl, _⟩
  · exact p.sync.shut_leads
  · exact h

end Leads

theorem leads_step {l : Life} (h : ∀ p ∈ l.process?, p.sync.Leads) (m : Move) :
    ∀ p ∈ (l.step m).process?, p.sync.Leads := by
  obtain ⟨accepted, process?⟩ := l
  cases process? with
  | none =>
    cases m with
    | start c => exact leads_start _ c
    | _ => exact h
  | some p =>
    have hp := h p rfl
    cases m with
    | start c => exact leads_start _ c
    | upsert key f => exact leads_of_process hp
    | remove key => exact leads_of_process hp
    | sync c => exact leads_synchronize hp c
    | reopen c => exact leads_reopen hp c
    | close c => exact leads_close hp c

theorem leads_live {l : Life} (h : ∀ p ∈ l.process?, p.sync.Leads) (events : List Event) :
    ∀ p ∈ (l.live events).process?, p.sync.Leads := by
  induction events generalizing l with
  | nil => exact h
  | cons event events ih =>
    apply ih
    cases event with
    | move m => exact leads_step h m
    | deletion =>
      intro p hp
      obtain ⟨q, hq, rfl⟩ := Option.map_eq_some_iff.mp hp
      exact h q hq

/-- What became of a synchronizer `s` since its storage entry was deleted. `regained` tells whether
the entry was obtained since, or was to be written anyway. -/
inductive Aftermath (s : Synchronizer) (regained : Prop) (t : Synchronizer)
    (accepted : List Payload) : Prop where
  /-- The synchronizer knows the entry again. -/
  | known (tracks : t.Tracks accepted.getLast?)
      (le : s.current.generation ≤ t.current.generation)
      (reason : regained ∨ s.current.generation < t.current.generation)
  /-- The entry is missing, and there is nothing to write into it. -/
  | missing (lost : ¬regained) (entry : accepted = []) (publisher : t.publisher = s.publisher)
      (current : t.current = s.current)

def Holds (payload? : Option Payload) (c : Contract) : Prop :=
  ∃ payload, payload? = some payload ∧ Contract.decode payload = .ok c

/-- A round that ends well leaves the contract in the entry if the entry was regained, or if the
contract is newer than it was at the deletion. Otherwise it leaves the entry missing. -/
def Regains (s : Synchronizer) (regained : Prop) (round : Round) : Prop :=
  ∀ report, round.result = .ok report →
    (regained ∨ s.current.generation < round.after.current.generation →
      Holds round.payload? round.after.current) ∧
    (¬(regained ∨ s.current.generation < round.after.current.generation) →
      round.payload? = none)

/-- A synchronizer whose entry was deleted. -/
structure Bereft (s : Synchronizer) (regained : Prop) : Prop where
  leads : s.Leads
  pos : 0 < s.current.generation
  behind : s.isBehind = true → regained

section Aftermath

variable {s t after : Synchronizer} {regained : Prop} {c : Conditions}
  {accepted accepted' : List Payload}

theorem lt_of_accept_behind {r : Readiness} (ht : t.isBehind = false)
    (hb : (t.accept (t.build r)).isBehind = true) :
    t.current.generation < (t.accept (t.build r)).current.generation := by
  rcases t.accept_current r with hc | hc
  · rw [Synchronizer.isBehind_iff, Synchronizer.accept_publisher, hc,
      ← Synchronizer.isBehind_iff] at hb
    exact absurd (ht.symm.trans hb) Bool.false_ne_true
  · exact hc

theorem holds_of_sync {report : SyncReport} (hd : Decodable accepted')
    (ht : after.Tracks accepted'.getLast?) (hg : 0 < after.current.generation)
    (hr : (Dialogue.under c.answer Synchronizer.sync t).run accepted =
      ((.ok report, after), accepted')) : Holds accepted'.getLast? after.current := by
  have hb : after.isBehind = false := by
    rcases Conditions.sync_cases hr with ⟨hb, _, rfl, _⟩ | ⟨_, _, rfl, _⟩ | ⟨_, ⟨e, he⟩, _⟩
    · exact hb
    · exact Synchronizer.caughtUp_not_behind _
    · cases he
  have hh := (ht.shown hb).heldBy hd.getLast?
  cases hp : accepted'.getLast? with
  | none =>
    rw [hp] at hh
    have hz : after.current = {} := hh
    rw [hz] at hg
    exact absurd hg (UInt64.lt_irrefl 0)
  | some payload =>
    rw [hp] at hh
    exact ⟨payload, rfl, hh⟩

theorem sync_generation {result : Except Failure SyncReport}
    (hr : (Dialogue.under c.answer Synchronizer.sync t).run accepted =
      ((result, after), accepted')) : t.current.generation ≤ after.current.generation := by
  have hle := Synchronizer.accept_generation t c.readiness
  rcases Conditions.sync_cases hr with ⟨_, _, rfl, _⟩ | ⟨_, _, rfl, _⟩ | ⟨_, _, rfl, _⟩
  · exact hle
  · exact hle
  · exact hle

theorem Aftermath.sync (hs : Bereft s regained) (h : Aftermath s regained t accepted)
    (hd : Decodable accepted) {result : Except Failure SyncReport}
    (hr : (Dialogue.under c.answer Synchronizer.sync t).run accepted =
      ((result, after), accepted')) :
    Decodable accepted' ∧ Aftermath s regained after accepted' ∧
      Regains s regained ⟨t, c.readiness, result, after, accepted'.getLast?⟩ := by
  have known (hd' : Decodable accepted') (ht : after.Tracks accepted'.getLast?)
      (hle : s.current.generation ≤ after.current.generation)
      (hn : regained ∨ s.current.generation < after.current.generation) :
      Decodable accepted' ∧ Aftermath s regained after accepted' ∧
        Regains s regained ⟨t, c.readiness, result, after, accepted'.getLast?⟩ := by
    refine ⟨hd', .known ht hle hn, ?_⟩
    rintro report rfl
    have hg := UInt64.lt_of_lt_of_le hs.pos hle
    exact ⟨fun _ => holds_of_sync hd' ht hg hr, fun hm => absurd hn hm⟩
  have hle := sync_generation hr
  cases h with
  | known ht hst hn =>
    obtain ⟨hd', ht'⟩ := synchronize_tracks hd ht hr
    exact known hd' ht' (UInt64.le_trans hst hle)
      (hn.imp_right fun hl => UInt64.lt_of_lt_of_le hl hle)
  | missing hl he hp hc =>
    subst he
    have ht : t.isBehind = false := by
      have hb : t.isBehind = s.isBehind := by
        rw [Synchronizer.isBehind, Synchronizer.isBehind, hp, hc]
      rw [hb, ← Bool.not_eq_true]
      exact mt hs.behind hl
    have hleads : t.Leads := by
      rw [Synchronizer.Leads, hp, hc]
      exact hs.leads
    rw [hc] at hle
    -- Nothing was due before, so the round writes only what its own build minted.
    rcases Conditions.sync_cases hr with
      ⟨hb, _, rfl, rfl⟩ | ⟨hb, _, rfl, rfl⟩ | ⟨hb, ⟨e, rfl⟩, rfl, ha⟩
    · have hu := (hleads.current_of_not_behind hb).1.trans hc
      refine ⟨hd, .missing hl rfl ((Synchronizer.accept_publisher t _).trans hp) hu, ?_⟩
      intro _ _
      refine ⟨fun hn => absurd hn (not_or.mpr ⟨hl, ?_⟩), fun _ => rfl⟩
      rw [hu]
      exact UInt64.lt_irrefl _
    · have hn := lt_of_accept_behind ht hb
      rw [hc] at hn
      exact known (hd.append _) (Synchronizer.caughtUp_tracks _) hle (.inr hn)
    · have hn := lt_of_accept_behind ht hb
      rw [hc] at hn
      have hd' : Decodable accepted' := by
        rcases ha with rfl | rfl
        · exact hd
        · exact hd.append _
      exact known hd' ((hleads.accept _).tracks_of_behind hb _) hle (.inr hn)

theorem Aftermath.of_fragments (h : Aftermath s regained t accepted)
    (fragments : Table String Fragment) : Aftermath s regained { t with fragments } accepted := by
  cases h with
  | known ht hle hn => exact .known (ht.of_fragments fragments) hle hn
  | missing hl he hp hc => exact .missing hl he hp hc

theorem Aftermath.close (h : Aftermath s regained t accepted) (hd : Decodable accepted)
    {result : Except Failure Bool} (hc : ∀ e, c.fate ≠ .unacknowledged e)
    (hg : t.current.generation < .greatest)
    (hr : (Dialogue.under c.answer Synchronizer.close t).run accepted =
      ((result, after), accepted')) :
    Decodable accepted' ∧ Aftermath s regained after accepted' := by
  rcases Conditions.close_cases hr with ⟨rfl, rfl⟩ | ⟨rfl, rfl | ⟨e, he⟩⟩
  · have hl : t.current.generation < t.shut.current.generation := by
      rw [Synchronizer.shut_current_eq_drain hg]
      exact Synchronizer.lt_drain_generation hg
    have ht : t.shut.Tracks (accepted ++ [t.drain.encode]).getLast? := by
      rw [List.getLast?_concat]
      exact Synchronizer.shut_tracks hg
    have hn : s.current.generation < t.shut.current.generation := by
      cases h with
      | known _ hle _ => exact UInt64.lt_of_le_of_lt hle hl
      | missing _ _ _ hc => exact hc ▸ hl
    exact ⟨hd.append _, .known ht (UInt64.le_of_lt hn) (.inr hn)⟩
  · exact ⟨hd, h⟩
  · exact absurd he (hc e)

end Aftermath

/-- What is known of a process, and of its rounds, since its storage entry was deleted. -/
structure Survives (s : Synchronizer) (regained : Prop) (l : Life) : Prop where
  decodable : Decodable l.accepted
  aftermath : ∀ p ∈ l.process?, Aftermath s regained p.sync l.accepted
  rounds : ∀ p ∈ l.process?, ∀ round ∈ p.rounds, Regains s regained round

theorem survives_of_process {s : Synchronizer} {regained : Prop} {accepted : List Payload}
    {p : Process} (hd : Decodable accepted) (ha : Aftermath s regained p.sync accepted)
    (hr : ∀ round ∈ p.rounds, Regains s regained round) :
    Survives s regained ⟨accepted, some p⟩ :=
  ⟨hd, fun _ hp => Option.some.inj hp ▸ ha, fun _ hp => Option.some.inj hp ▸ hr⟩

theorem Survives.step {s : Synchronizer} {regained : Prop} {l : Life} (hs : Bereft s regained)
    (h : Survives s regained l) {m : Move} (hm : l.GoesOn m) : Survives s regained (l.step m) := by
  obtain ⟨accepted, process?⟩ := l
  cases process? with
  | none =>
    cases m with
    | start c => exact hm.elim
    | reopen c => exact hm.elim
    | _ => exact h
  | some p =>
    have ha := h.aftermath p rfl
    have hr := h.rounds p rfl
    cases m with
    | start c => exact hm.elim
    | reopen c => exact hm.elim
    | upsert key f => exact survives_of_process h.decodable (ha.of_fragments _) hr
    | remove key => exact survives_of_process h.decodable (ha.of_fragments _) hr
    | sync c =>
      change Survives s regained (p.synchronize c accepted)
      rcases hv : p.run Synchronizer.sync c accepted with ⟨⟨result, after⟩, accepted'⟩
      obtain ⟨hd, ha', hn⟩ := ha.sync hs h.decodable hv
      rw [Process.synchronize, hv]
      apply survives_of_process hd ha'
      intro round hm
      rcases List.mem_cons.mp hm with rfl | hm
      · exact hn
      · exact hr round hm
    | close c =>
      change Survives s regained (p.perform Synchronizer.close c accepted)
      rcases hv : p.run Synchronizer.close c accepted with ⟨⟨result, after⟩, accepted'⟩
      obtain ⟨hd, ha'⟩ := ha.close h.decodable hm.1 (hm.2 p rfl) hv
      rw [Process.perform, hv]
      exact survives_of_process hd ha' hr

theorem Survives.run {s : Synchronizer} {regained : Prop} {l : Life} (hs : Bereft s regained)
    (h : Survives s regained l) {moves : List Move} (hm : Along GoesOn l moves) :
    Survives s regained (l.run moves) :=
  run_invariant (fun _ _ h hm => h.step hs hm) h hm

/-- A process whose entry was just deleted misses it, unless it is about to write it anyway. -/
theorem survives_lose {l : Life} {p : Process} (hp : p ∈ l.process?) (hl : p.sync.Leads) :
    Survives p.sync (p.sync.isBehind = true) l.lose := by
  obtain ⟨accepted, process?⟩ := l
  obtain rfl := Option.mem_def.mp hp
  apply survives_of_process
  · exact fun payload hm => absurd hm List.not_mem_nil
  · by_cases hb : p.sync.isBehind = true
    · exact .known (hl.tracks_of_behind hb none) (UInt64.le_refl _) (.inl hb)
    · exact .missing hb rfl rfl rfl
  · exact fun round hm => absurd hm List.not_mem_nil

theorem Aftermath.tracks_reset {s t : Synchronizer} {regained : Prop} {accepted : List Payload}
    (hs : Bereft s regained) (h : Aftermath s regained t accepted) :
    Synchronizer.Tracks { t with publisher := t.publisher.reset } accepted.getLast? := by
  cases h with
  | known ht _ _ => exact ht.reset
  | missing _ _ _ hc =>
    have hg : 0 < t.current.generation := hc ▸ hs.pos
    exact t.leads_reset.tracks_of_behind (Synchronizer.isBehind_iff.mpr hg) _

theorem Aftermath.le {s t : Synchronizer} {regained : Prop} {accepted : List Payload}
    (h : Aftermath s regained t accepted) : s.current.generation ≤ t.current.generation := by
  cases h with
  | known _ hle _ => exact hle
  | missing _ _ _ hc => exact hc ▸ UInt64.le_refl _

theorem Aftermath.resync {s t after : Synchronizer} {regained : Prop} {c : Conditions}
    {accepted accepted' : List Payload} {result : Except Failure SyncReport}
    (hg : 0 < s.current.generation) (ht : t.Tracks accepted.getLast?)
    (hle : s.current.generation ≤ t.current.generation) (hd : Decodable accepted) (hn : regained)
    (hr : (Dialogue.under c.answer Synchronizer.sync t).run accepted =
      ((result, after), accepted')) :
    Decodable accepted' ∧ Aftermath s regained after accepted' ∧
      ∀ report, result = .ok report → Holds accepted'.getLast? after.current := by
  obtain ⟨hd', ht'⟩ := synchronize_tracks hd ht hr
  have hle' := UInt64.le_trans hle (sync_generation hr)
  refine ⟨hd', .known ht' hle' (.inl hn), ?_⟩
  rintro report rfl
  exact holds_of_sync hd' ht' (UInt64.lt_of_lt_of_le hg hle') hr

/-- A recovery that obtains the entry leaves the synchronizer knowing it. One that does not leaves
everything as it was. -/
theorem Aftermath.recover {s : Synchronizer} {p : Process} {c : Conditions}
    {accepted accepted' : List Payload} {result : Except Failure SyncReport} {after : Synchronizer}
    (hs : Bereft s (s.isBehind = true)) (h : Aftermath s (s.isBehind = true) p.sync accepted)
    (hd : Decodable accepted)
    (hr : p.run Synchronizer.recover c accepted = ((result, after), accepted')) :
    Decodable accepted' ∧ Aftermath s (c.fault? = none ∨ s.isBehind = true) after accepted' ∧
      ∀ report, result = .ok report → Holds accepted'.getLast? after.current := by
  have hle := h.le
  rw [Process.run_recover, Process.run, Conditions.reopen_run] at hr
  cases hf : c.fault? with
  | none =>
    rw [hf] at hr
    exact resync hs.pos (h.tracks_reset hs) hle hd (.inl rfl) hr
  | some e =>
    rw [hf] at hr
    cases hr
    have ha : Aftermath s (some e = none ∨ s.isBehind = true) p.sync accepted := by
      cases h with
      | known ht hle hn => exact .known ht hle (hn.imp_left .inr)
      | missing hl he hp hc =>
        exact .missing (not_or.mpr ⟨Option.some_ne_none e, hl⟩) he hp hc
    refine ⟨hd, ha, ?_⟩
    intro report he
    cases he

theorem Survives.recover {s : Synchronizer} {l : Life} (hs : Bereft s (s.isBehind = true))
    (h : Survives s (s.isBehind = true) l) (c : Conditions) :
    Survives s (c.fault? = none ∨ s.isBehind = true) (l.recover c) := by
  obtain ⟨accepted, process?⟩ := l
  cases process? with
  | none =>
    change Survives s _ ⟨accepted, none⟩
    exact ⟨h.decodable, fun p hp => absurd hp (Option.not_mem_none p),
      fun p hp => absurd hp (Option.not_mem_none p)⟩
  | some p =>
    change Survives s _ (Process.perform { p with rounds := [] } Synchronizer.recover c accepted)
    rcases hr : Process.run { p with rounds := [] } Synchronizer.recover c accepted with
      ⟨⟨result, after⟩, accepted'⟩
    obtain ⟨hd, ha, _⟩ := Aftermath.recover hs (h.aftermath p rfl) h.decodable hr
    rw [Process.perform, hr]
    exact survives_of_process hd ha fun _ hm => absurd hm List.not_mem_nil

/-- After a recovery that failed, synchronizations restore the deleted entry if it was obtained, if
a publication was due, or once the contract is newer than it was. -/
theorem recovered_entry {payload? : Option Payload} {events : List Event} {p : Process}
    (hp : p ∈ ((ofEntry payload?).live events).process?) (hg : 0 < p.sync.current.generation)
    {before after : List Move} {c : Conditions}
    (hb : Along GoesOn ((ofEntry payload?).live events).lose before)
    (ha : Along GoesOn ((((ofEntry payload?).live events).lose.run before).recover c) after) :
    let l := ((ofEntry payload?).live events).lose.run before
    (∀ q ∈ l.process?, ∀ report, (q.run Synchronizer.recover c l.accepted).1.1 = .ok report →
      Holds (q.run Synchronizer.recover c l.accepted).2.getLast?
        (q.run Synchronizer.recover c l.accepted).1.2.current) ∧
    ∀ q ∈ ((l.recover c).run after).process?, ∀ round ∈ q.rounds,
      Regains p.sync (c.fault? = none ∨ p.sync.isBehind = true) round := by
  intro l
  have hn : ∀ q ∈ (ofEntry payload?).process?, q.sync.Leads :=
    fun q hq => absurd hq (Option.not_mem_none q)
  have hl : p.sync.Leads := leads_live hn events p hp
  have hs : Bereft p.sync (p.sync.isBehind = true) := ⟨hl, hg, id⟩
  have hw : Survives p.sync (p.sync.isBehind = true) l := (survives_lose hp hl).run hs hb
  constructor
  · intro q hq report he
    exact (Aftermath.recover hs (hw.aftermath q hq) hw.decodable rfl).2.2 report he
  · intro q hq
    have hs' : Bereft p.sync (c.fault? = none ∨ p.sync.isBehind = true) := ⟨hl, hg, .inr⟩
    exact ((hw.recover hs c).run hs' ha).rounds q hq

/-- The entry is obtained, its write is refused, and the next synchronization makes up for it. -/
theorem recovered_entry_after_refusal :
    let l := (ofEntry (some (Contract.encode ⟨3, []⟩))).live [.move (.start {})]
    ∃ q ∈ ((l.lose.recover { fate := .refused (.io "TimedOut") }).run [.sync {}]).process?,
      ∃ round ∈ q.rounds, Holds round.payload? round.after.current := by
  intro l
  have hl : l.process?.isSome = true := by decide +kernel
  have hg : ∀ p ∈ l.process?, 0 < p.sync.current.generation := by decide +kernel
  have hs : ((l.lose.recover { fate := .refused (.io "TimedOut") }).run
      [.sync {}]).process?.isSome = true := by decide +kernel
  have hr : ∀ q ∈ ((l.lose.recover { fate := .refused (.io "TimedOut") }).run [.sync {}]).process?,
      ∃ round ∈ q.rounds, round.result.isOk = true := by decide +kernel
  have hb : Along GoesOn l.lose [] := trivial
  have ha : Along GoesOn ((l.lose.run []).recover { fate := .refused (.io "TimedOut") })
    [.sync {}] := ⟨trivial, trivial⟩
  obtain ⟨round, hm, ho⟩ := hr _ (Option.get_mem hs)
  have hn := (recovered_entry (Option.get_mem hl) (hg _ (Option.get_mem hl)) hb ha).2
    _ (Option.get_mem hs) round hm
  refine ⟨_, Option.get_mem hs, round, hm, ?_⟩
  cases he : round.result with
  | error e =>
    rw [he] at ho
    cases ho
  | ok report => exact (hn report he).1 (.inl (.inl rfl))

/-- The entry cannot be obtained, nothing is forgotten, and the next synchronization ends well
without writing anything. -/
theorem unobtained_entry_missing :
    let l := (ofEntry (some (Contract.encode ⟨3, []⟩))).live [.move (.start {})]
    ∃ q ∈ ((l.lose.recover { fault? := some (.io "TimedOut") }).run [.sync {}]).process?,
      ∃ round ∈ q.rounds, round.result.isOk = true ∧ round.after.current = ⟨3, []⟩ ∧
        ¬Holds round.payload? round.after.current := by
  intro l
  have hs : ((l.lose.recover { fault? := some (.io "TimedOut") }).run
      [.sync {}]).process?.isSome = true := by decide +kernel
  have hr : ∀ q ∈ ((l.lose.recover { fault? := some (.io "TimedOut") }).run [.sync {}]).process?,
      ∃ round ∈ q.rounds, round.result.isOk = true ∧ round.after.current = ⟨3, []⟩ ∧
        round.payload? = none := by decide +kernel
  obtain ⟨round, hm, ho, hc, hp⟩ := hr _ (Option.get_mem hs)
  refine ⟨_, Option.get_mem hs, round, hm, ho, hc, ?_⟩
  rintro ⟨payload, hh, _⟩
  cases hp.symm.trans hh

end Life

end EventRouting
