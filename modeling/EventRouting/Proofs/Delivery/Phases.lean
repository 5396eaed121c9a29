import EventRouting.Proofs.Delivery.Closing

namespace EventRouting

/-- The phase that is to be brought back, from the swap on. -/
def Apply.found? : Apply → Option WatchPhase
  | .publish _ before | .restorePhase _ before => some before
  | .enter _ | .decode _ | .acquire _ | .locked _ | .compare _ | .finished _ => none

namespace WatchLoop

def found? : WatchLoop → Option WatchPhase
  | .applying a => a.found?
  | .beginRead | .reading | .endRead | .waiting | .leaving | .exited => none

/-- Whether a read is in progress, from when the loop tells of it until it takes that back. -/
def isReading : WatchLoop → Bool
  | .reading | .applying _ | .endRead => true
  | .beginRead | .waiting | .leaving | .exited => false

/-- Whether the next step of the loop is to tell its phase. -/
def tells : WatchLoop → Bool
  | .beginRead | .endRead | .leaving => true
  | .reading | .applying _ | .waiting | .exited => false

end WatchLoop

namespace Watcher

def loopFound? (w : Watcher) : Option WatchPhase := w.loop?.bind WatchLoop.found?

def isReading (w : Watcher) : Bool := w.loop?.any WatchLoop.isReading

/-- The phase that the loop has told last. -/
def loopPhase (w : Watcher) : WatchPhase := if w.isReading then .reading else .idle

end Watcher

namespace Watching

/-- What one of those who handle a payload is to bring back. -/
def foundBy (s : Watching) : Option Nat → Option WatchPhase
  | some k => s.applies[k]?.bind Apply.found?
  | none => s.watcher.loopFound?

/-- What is to be brought back by somebody who is between the swap and the restoring. -/
def found? (s : Watching) : Option WatchPhase :=
  (s.applies.findSome? Apply.found?).or s.watcher.loopFound?

/-- Whether a step is one in which the loop tells its phase. -/
def tells (s : Watching) : WatchingMove → Bool
  | .loop => s.watcher.loop?.any WatchLoop.tells
  | .submit _ | .start | .close | .handle _ | .proceed _ _ | .shut _ | .read _ | .notify
  | .endChanges | .bus _ => false

/-- What was to be brought back by somebody who was in between when the loop told its phase for the
last time. To begin with, that is `o`. -/
def overtaken? (s : Watching) (o : Option WatchPhase) : List WatchingMove → Option WatchPhase
  | [] => o
  | m :: moves => (s.step m).overtaken? (if s.tells m then s.found? else o) moves

/-- No read is in progress, and nobody is between the swap and the restoring. -/
structure AtRest (s : Watching) : Prop where
  found : s.found? = none
  reading : s.watcher.isReading = false

end Watching

/-- The phase is found with the lock in hand, and what was found is brought back. -/
theorem Apply.step_phase (a : Apply) (w : Watcher) :
    ((a.step w).1.found? = a.found? ∧ (a.step w).2.phase = w.phase) ∨
      (a.holdsLock = true ∧ a.found? = none ∧ (a.step w).1.found? = some w.phase) ∨
      ∃ p, a.found? = some p ∧ (a.step w).1.found? = none ∧ (a.step w).2.phase = p := by
  cases a with
  | enter p =>
    rw [step]
    split <;> exact .inl ⟨rfl, rfl⟩
  | decode p =>
    rw [step]
    cases Contract.decode p <;> exact .inl ⟨rfl, rfl⟩
  | acquire c | locked c =>
    rw [step]
    split <;> exact .inl ⟨rfl, rfl⟩
  | compare c =>
    rw [step]
    split
    · exact .inr (.inl ⟨rfl, rfl, rfl⟩)
    · exact .inl ⟨rfl, rfl⟩
  | publish c before => exact .inl ⟨rfl, rfl⟩
  | restorePhase g before => exact .inr (.inr ⟨before, rfl, rfl, rfl⟩)
  | finished o => exact .inl ⟨rfl, rfl⟩

theorem Apply.holdsLock_of_found? {a : Apply} {p : WatchPhase} (h : a.found? = some p) :
    a.holdsLock = true := by
  cases a with
  | publish c before | restorePhase g before => rfl
  | enter _ | decode _ | acquire _ | locked _ | compare _ | finished _ => cases h

/-- Neither the phase changes nor what the loop tells of, or brings back. -/
structure Watcher.Silent (w w' : Watcher) : Prop where
  phase : w'.phase = w.phase
  reading : w'.isReading = w.isReading
  found : w'.loopFound? = w.loopFound?

theorem Watcher.Silent.refl (w : Watcher) : w.Silent w := ⟨rfl, rfl, rfl⟩

theorem Watcher.Silent.of_loop {w w' : Watcher} (hp : w'.phase = w.phase)
    (hl : w'.loop? = w.loop?) : w.Silent w' := by
  refine ⟨hp, ?_, ?_⟩
  · rw [isReading, isReading, hl]
  · rw [loopFound?, loopFound?, hl]

theorem Close.step_loop (c : Close) (w : Watcher) :
    (c.step w).2.phase = w.phase ∧ (c.step w).2.loop? = w.loop? := by
  cases c with
  | enter =>
    rw [step]
    split <;> exact ⟨rfl, rfl⟩
  | barrier | cancel | takeHandle | join | finished b => exact ⟨rfl, rfl⟩

theorem Start.step_loop (t : Start) (changes : Except ContractError Unit) (w : Watcher) :
    (t.step changes w).2.phase = w.phase ∧
      (t = .spawn ∧ (t.step changes w).2.loop? = some .beginRead ∨
        (t.step changes w).2.loop? = w.loop?) := by
  cases t with
  | spawn => exact ⟨rfl, .inl ⟨rfl, rfl⟩⟩
  | enter | checkStarted | keepHandle | finished r => exact ⟨rfl, .inr rfl⟩
  | subscribe => cases changes <;> exact ⟨rfl, .inr rfl⟩
  | claim =>
    rw [step]
    split <;> exact ⟨rfl, .inr rfl⟩

theorem Start.step_silent {t : Start} {w : Watcher} (h : t = .spawn → w.loop? = none)
    (changes : Except ContractError Unit) : w.Silent (t.step changes w).2 := by
  obtain ⟨hp, ⟨ht, hl⟩ | hl⟩ := t.step_loop changes w
  · refine ⟨hp, ?_, ?_⟩
    · rw [Watcher.isReading, Watcher.isReading, hl, h ht]
      rfl
    · rw [Watcher.loopFound?, Watcher.loopFound?, hl, h ht]
      rfl
  · exact .of_loop hp hl

namespace WatchLoop

variable {l : WatchLoop}

theorem receive_silent (r : Readout) :
    (l.receive r).isReading = l.isReading ∧ (l.receive r).found? = l.found? := by
  cases l with
  | reading => cases r <;> exact ⟨rfl, rfl⟩
  | beginRead | applying a | endRead | waiting | leaving | exited => exact ⟨rfl, rfl⟩

theorem notify_silent : l.notify.isReading = l.isReading ∧ l.notify.found? = l.found? := by
  cases l <;> exact ⟨rfl, rfl⟩

theorem endChanges_silent :
    l.endChanges.isReading = l.isReading ∧ l.endChanges.found? = l.found? := by
  cases l <;> exact ⟨rfl, rfl⟩

theorem step_of_tells (w : Watcher) (h : l.tells = true) :
    (l.step w).2.phase = (if (l.step w).1.isReading then .reading else .idle) ∧
      (l.step w).1.found? = l.found? := by
  cases l with
  | beginRead | endRead | leaving => exact ⟨rfl, rfl⟩
  | reading | applying _ | waiting | exited => cases h

theorem step_of_not_tells (w : Watcher) (h : l.tells = false)
    (ha : ∀ a, l = .applying a → ∃ o, a = .finished o) :
    (l.step w).2.phase = w.phase ∧
      (l.step w).1.isReading = l.isReading ∧ (l.step w).1.found? = l.found? := by
  cases l with
  | beginRead | endRead | leaving => cases h
  | reading | waiting =>
    rw [step]
    split <;> exact ⟨rfl, rfl, rfl⟩
  | exited => exact ⟨rfl, rfl, rfl⟩
  | applying a =>
    obtain ⟨o, rfl⟩ := ha a rfl
    exact ⟨rfl, rfl, rfl⟩

end WatchLoop

namespace Watcher

variable {w w' : Watcher}

theorem mapLoop_silent {f : WatchLoop → WatchLoop}
    (hf : ∀ l, (f l).isReading = l.isReading ∧ (f l).found? = l.found?) :
    w.Silent (w.mapLoop f) := by
  refine ⟨rfl, ?_, ?_⟩
  · rw [isReading, isReading, mapLoop, Option.any_map]
    exact congrArg w.loop?.any (funext fun l => (hf l).1)
  · rw [loopFound?, loopFound?, mapLoop, Option.bind_map]
    exact congrArg w.loop?.bind (funext fun l => (hf l).2)

theorem isReading_of_some {l : WatchLoop} (h : w.loop? = some l) : w.isReading = l.isReading := by
  rw [isReading, h]
  rfl

theorem loopFound?_of_some {l : WatchLoop} (h : w.loop? = some l) : w.loopFound? = l.found? := by
  rw [loopFound?, h]
  rfl

theorem loopPhase_congr (h : w'.isReading = w.isReading) : w'.loopPhase = w.loopPhase := by
  rw [loopPhase, loopPhase, h]

theorem loopPhase_ne_applying : w.loopPhase ≠ .applying := by
  rw [loopPhase]
  split <;> nofun

/-- When the loop handles no payload, it tells its phase or is silent. -/
theorem Turns.phase_cases (h : w.Turns w.stepLoop) :
    (w.loop?.any WatchLoop.tells = true ∧ w.stepLoop.phase = w.stepLoop.loopPhase ∧
        w.stepLoop.loopFound? = w.loopFound?) ∨
      (w.loop?.any WatchLoop.tells = false ∧ w.Silent w.stepLoop) := by
  cases hl : w.loop? with
  | none =>
    rw [stepLoop_of_none hl]
    exact .inr ⟨rfl, .refl w⟩
  | some l =>
    have hw := stepLoop_of_some hl
    have hl' : w.stepLoop.loop? = some (l.step w).1 := by
      rw [hw]
    have hp' : w.stepLoop.phase = (l.step w).2.phase := by
      rw [hw]
    rw [Option.any_some, hp', loopPhase, loopFound?_of_some hl, loopFound?_of_some hl',
      isReading_of_some hl']
    cases ht : l.tells with
    | true => exact .inl ⟨rfl, l.step_of_tells w ht⟩
    | false =>
      obtain ⟨hp, hr, hf⟩ := l.step_of_not_tells w ht fun a ha => h.before a (ha ▸ hl)
      refine .inr ⟨rfl, hp'.trans hp, ?_, ?_⟩
      · rw [isReading_of_some hl, isReading_of_some hl', hr]
      · rw [loopFound?_of_some hl, loopFound?_of_some hl', hf]

end Watcher

theorem Start.unstarted_of_spawn {t : Start} {changes : Except ContractError Unit} {w : Watcher}
    (h : (t.step changes w).1 = .spawn) : w.started = false := by
  cases t with
  | enter | checkStarted =>
    rw [step] at h
    split at h <;> cases h
  | subscribe => cases changes <;> cases h
  | claim =>
    rw [step] at h
    split at h
    next => cases h
    next hs => exact Bool.eq_false_iff.mpr hs
  | spawn | keepHandle | finished r => cases h

namespace Watching

variable {s s' : Watching}

/-- There is no loop before somebody has claimed the start and spawned it. -/
structure SpawnsOnce (s : Watching) : Prop where
  claim : Exclusive s.HasClaimed s.watcher.started
  unstarted : s.watcher.started = false → s.watcher.loop? = none
  spawning : ∀ k : Nat, s.starts[k]? = some .spawn → s.watcher.loop? = none

namespace SpawnsOnce

theorem on (bus : Bus) : (on bus).SpawnsOnce := by
  refine ⟨(Kept.on bus).claim, fun _ => rfl, ?_⟩
  intro k hk
  cases hk

theorem of_frame (h : s.SpawnsOnce) (claim : Exclusive s'.HasClaimed s'.watcher.started)
    (started : s'.watcher.started = s.watcher.started)
    (loop : s.watcher.loop? = none → s'.watcher.loop? = none)
    (starts : ∀ k : Nat, s'.starts[k]? = some .spawn → s.starts[k]? = some .spawn) :
    s'.SpawnsOnce := by
  refine ⟨claim, ?_, fun k hk => loop (h.spawning k (starts k hk))⟩
  intro hn
  exact loop (h.unstarted (started ▸ hn))

theorem not_spawn (h : s.SpawnsOnce) {k : Nat} {t : Start} (hk : s.starts[k]? = some t)
    (hn : s.watcher.started = false) : t ≠ .spawn := by
  rintro rfl
  have hr := h.claim.raised k ⟨.spawn, hk, rfl⟩
  rw [hn] at hr
  cases hr

theorem proceed (h : s.SpawnsOnce) {k : Nat} {t : Start} (hk : s.starts[k]? = some t)
    (changes : Except ContractError Unit) : (s.step (.proceed k changes)).SpawnsOnce := by
  have hclaim := claim_step h.claim (.proceed k changes)
  rw [Watching.step, hk] at hclaim ⊢
  have hloop (hn : t ≠ .spawn) : (t.step changes s.watcher).2.loop? = s.watcher.loop? :=
    (t.step_loop changes s.watcher).2.resolve_left fun ht => hn ht.1
  refine ⟨hclaim, ?_, ?_⟩
  · intro hs
    have hn : s.watcher.started = false := by
      rcases t.step_claim changes s.watcher with ⟨-, he⟩ | ⟨hd, -⟩
      · exact he.symm.trans hs
      · exact hd
    exact (hloop (h.not_spawn hk hn)).trans (h.unstarted hn)
  · intro j hj
    by_cases he : j = k
    · subst he
      rw [List.getElem?_set_self (List.getElem?_eq_some_iff.mp hk).1] at hj
      have hn := Start.unstarted_of_spawn (Option.some.inj hj)
      exact (hloop (h.not_spawn hk hn)).trans (h.unstarted hn)
    · rw [List.getElem?_set_ne (Ne.symm he)] at hj
      have hn : t ≠ .spawn := by
        rintro rfl
        exact he (h.claim.unique j k ⟨_, hj, rfl⟩ ⟨_, hk, rfl⟩)
      exact (hloop hn).trans (h.spawning j hj)

theorem step (h : s.SpawnsOnce) (m : WatchingMove) : (s.step m).SpawnsOnce := by
  have hclaim := claim_step h.claim m
  cases m with
  | proceed k changes =>
    cases hk : s.starts[k]? with
    | some t => exact h.proceed hk changes
    | none =>
      rw [Watching.step, hk]
      exact h
  | handle k =>
    cases hk : s.applies[k]? with
    | some a =>
      obtain ⟨hf, hl⟩ := a.step_frame s.watcher
      rw [Watching.step, hk] at hclaim ⊢
      exact h.of_frame hclaim hf.started hl.trans fun _ => id
    | none =>
      rw [Watching.step, hk]
      exact h
  | shut k =>
    cases hk : s.closes[k]? with
    | some c =>
      rw [Watching.step, hk] at hclaim ⊢
      exact h.of_frame hclaim (c.step_alongside s.watcher).2.1 (c.step_loop s.watcher).2.trans
        fun _ => id
    | none =>
      rw [Watching.step, hk]
      exact h
  | start =>
    apply h.of_frame hclaim rfl id
    intro k hk
    rcases getElem?_concat_cases hk with hk | hk
    · exact hk
    · cases hk
  | loop =>
    apply h.of_frame hclaim s.watcher.stepLoop_frame.started
    · intro hl
      rw [Watching.step, Watcher.stepLoop_of_none hl, hl]
    · exact fun _ => id
  | read r | notify | endChanges =>
    apply h.of_frame hclaim rfl
    · intro hl
      rw [Watching.step, Watcher.mapLoop, hl]
      rfl
    · exact fun _ => id
  | submit p | close | bus m => exact h.of_frame hclaim rfl id fun _ => id

end SpawnsOnce

theorem foundBy_eq (s : Watching) (x : Option Nat) :
    s.foundBy x = (s.handling x).bind Apply.found? := by
  cases x with
  | some k => rfl
  | none =>
    rw [foundBy, handling, Watcher.loopFound?]
    cases s.watcher.loop? with
    | none => rfl
    | some l => cases l <;> rfl

theorem holdsLock_of_foundBy {x : Option Nat} {p : WatchPhase} (h : s.foundBy x = some p) :
    s.HoldsLock x := by
  rw [foundBy_eq] at h
  obtain ⟨a, ha, hp⟩ := Option.bind_eq_some_iff.mp h
  exact ⟨a, ha, Apply.holdsLock_of_found? hp⟩

/-- Whoever has the lock is the only one who may be in between. -/
theorem foundBy_eq_none (hlock : Exclusive s.HoldsLock s.watcher.locked) {x y : Option Nat}
    (hx : s.HoldsLock x) (hy : y ≠ x) : s.foundBy y = none := by
  apply Option.eq_none_iff_forall_ne_some.mpr
  intro p hp
  exact hy (hlock.unique y x (holdsLock_of_foundBy hp) hx)

theorem exists_of_found? {p : WatchPhase} (h : s.found? = some p) : ∃ x, s.foundBy x = some p := by
  rcases Option.or_eq_some_iff.mp h with h | ⟨-, h⟩
  · obtain ⟨a, ha, hp⟩ := List.exists_of_findSome?_eq_some h
    obtain ⟨k, hk⟩ := List.mem_iff_getElem?.mp ha
    refine ⟨some k, ?_⟩
    rw [foundBy, hk]
    exact hp
  · exact ⟨none, h⟩

theorem found?_eq_none_iff : s.found? = none ↔ ∀ x, s.foundBy x = none := by
  constructor
  · intro h x
    obtain ⟨ha, hl⟩ := Option.or_eq_none_iff.mp h
    cases x with
    | some k =>
      apply Option.bind_eq_none_iff.mpr
      intro a hk
      exact List.findSome?_eq_none_iff.mp ha a (List.mem_of_getElem? hk)
    | none => exact hl
  · intro h
    apply Option.eq_none_iff_forall_ne_some.mpr
    intro p hp
    obtain ⟨x, hx⟩ := exists_of_found? hp
    cases (h x).symm.trans hx

/-- What a step does to the phase, and to those who are in between. -/
inductive PhaseStep (s : Watching) (m : WatchingMove) (s' : Watching) : Prop where
  /-- The loop tells its phase. -/
  | tells (tells : s.tells m = true) (phase : s'.watcher.phase = s'.watcher.loopPhase)
      (found : ∀ x, s'.foundBy x = s.foundBy x)
  /-- Somebody who handles a payload takes a step. -/
  | handles (x : Option Nat) (a : Apply) (tells : s.tells m = false)
      (reading : s'.watcher.isReading = s.watcher.isReading) (handles : s.Handles x a s')
      (phase : s'.watcher.phase = (a.step s.watcher).2.phase)
  | silent (tells : s.tells m = false) (reading : s'.watcher.isReading = s.watcher.isReading)
      (found : ∀ x, s'.foundBy x = s.foundBy x) (phase : s'.watcher.phase = s.watcher.phase)

theorem PhaseStep.refl {m : WatchingMove} (ht : s.tells m = false) : s.PhaseStep m s :=
  .silent ht rfl (fun _ => rfl) rfl

theorem foundBy_congr (ha : s'.applies = s.applies)
    (hl : s'.watcher.loopFound? = s.watcher.loopFound?) (x : Option Nat) :
    s'.foundBy x = s.foundBy x := by
  cases x with
  | some k => rw [foundBy, foundBy, ha]
  | none => exact hl

theorem PhaseStep.of_silent {m : WatchingMove} (ht : s.tells m = false)
    (h : s.watcher.Silent s'.watcher) (ha : s'.applies = s.applies) : s.PhaseStep m s' :=
  .silent ht h.reading (foundBy_congr ha h.found) h.phase

theorem foundBy_submit (s : Watching) (p : Payload) (x : Option Nat) :
    (s.step (.submit p)).foundBy x = s.foundBy x := by
  cases x with
  | none => rfl
  | some k =>
    rw [foundBy, foundBy, step, List.getElem?_append]
    split
    next => rfl
    next hk =>
      rw [List.getElem?_eq_none (Nat.not_lt.mp hk)]
      cases k - s.applies.length <;> rfl

theorem phaseStep_loop (s : Watching) : s.PhaseStep .loop (s.step .loop) := by
  rcases s.watcher.stepLoop_cases with hw | ⟨a, -, hl, hw⟩
  · rcases hw.phase_cases with ⟨ht, hp, hf⟩ | ⟨ht, hs⟩
    · exact .tells ht hp (foundBy_congr rfl hf)
    · exact .of_silent ht hs rfl
  · rw [step, hw]
    refine .handles none a ?_ ?_ (handles_loop hl) rfl
    · rw [tells, hl]
      rfl
    · rw [Watcher.isReading_of_some hl]
      rfl

theorem phaseStep (h : s.SpawnsOnce) (m : WatchingMove) : s.PhaseStep m (s.step m) := by
  cases m with
  | submit p => exact .silent rfl rfl (s.foundBy_submit p) rfl
  | handle k =>
    rw [step]
    cases hk : s.applies[k]? with
    | some a =>
      refine .handles (some k) a rfl ?_ (handles_call hk) rfl
      rw [Watcher.isReading, Watcher.isReading, (a.step_frame s.watcher).2]
    | none => exact .refl rfl
  | proceed k changes =>
    rw [step]
    cases hk : s.starts[k]? with
    | some t =>
      have ht : t = .spawn → s.watcher.loop? = none := by
        rintro rfl
        exact h.spawning k hk
      exact .of_silent rfl (Start.step_silent ht changes) rfl
    | none => exact .refl rfl
  | shut k =>
    rw [step]
    cases s.closes[k]? with
    | some c =>
      obtain ⟨hp, hl⟩ := c.step_loop s.watcher
      exact .of_silent rfl (.of_loop hp hl) rfl
    | none => exact .refl rfl
  | loop => exact s.phaseStep_loop
  | read r => exact .of_silent rfl (Watcher.mapLoop_silent fun _ => WatchLoop.receive_silent r) rfl
  | notify => exact .of_silent rfl (Watcher.mapLoop_silent fun _ => WatchLoop.notify_silent) rfl
  | endChanges =>
    exact .of_silent rfl (Watcher.mapLoop_silent fun _ => WatchLoop.endChanges_silent) rfl
  | start | close => exact .of_silent rfl (.refl s.watcher) rfl
  | bus m => exact .of_silent rfl (.of_loop rfl rfl) rfl

/-- Whoever is in between brings back the same phase that stands there when nobody is. -/
structure Told (s : Watching) (base : WatchPhase) : Prop where
  found : ∀ x p, s.foundBy x = some p → p = base
  phase : s.found? = none → s.watcher.phase = base
  base_ne : base ≠ .applying

namespace Told

variable {base : WatchPhase} {o : Option WatchPhase}

theorem on (bus : Bus) : (on bus).Told .idle := by
  refine ⟨?_, fun _ => rfl, nofun⟩
  intro x p hx
  cases x <;> cases hx

/-- When the loop tells its phase, it overtakes the one who is in between, if there is one. -/
theorem tells (h : s.Told base) (hp : s'.watcher.phase = s'.watcher.loopPhase)
    (hf : ∀ x, s'.foundBy x = s.foundBy x) : s'.Told (s.found?.getD s'.watcher.loopPhase) := by
  have hsame : s'.found? = none ↔ s.found? = none := by
    simp only [found?_eq_none_iff, hf]
  cases hs : s.found? with
  | none =>
    refine ⟨?_, fun _ => hp, Watcher.loopPhase_ne_applying⟩
    intro x p hx
    cases hx.symm.trans (found?_eq_none_iff.mp (hsame.mpr hs) x)
  | some q =>
    obtain ⟨y, hy⟩ := exists_of_found? hs
    obtain rfl := h.found y q hy
    refine ⟨?_, ?_, h.base_ne⟩
    · intro x p hx
      exact h.found x p ((hf x).symm.trans hx)
    · intro hn
      cases hs.symm.trans (hsame.mp hn)

theorem silent (h : s.Told base) (hf : ∀ x, s'.foundBy x = s.foundBy x)
    (hp : s'.watcher.phase = s.watcher.phase) : s'.Told base := by
  refine ⟨?_, ?_, h.base_ne⟩
  · intro x p hx
    exact h.found x p ((hf x).symm.trans hx)
  · intro hn
    apply hp.trans
    apply h.phase
    apply found?_eq_none_iff.mpr
    intro x
    exact (hf x).symm.trans (found?_eq_none_iff.mp hn x)

theorem handles (h : s.Told base) (hlock : Exclusive s.HoldsLock s.watcher.locked)
    {x : Option Nat} {a : Apply} (hx : s.Handles x a s')
    (hp : s'.watcher.phase = (a.step s.watcher).2.phase) : s'.Told base := by
  have hbefore : s.foundBy x = a.found? := by
    rw [foundBy_eq, hx.before]
    rfl
  have hafter : s'.foundBy x = (a.step s.watcher).1.found? := by
    rw [foundBy_eq, hx.after]
    rfl
  have hothers : ∀ y, y ≠ x → s'.foundBy y = s.foundBy y := by
    intro y hy
    rw [foundBy_eq, foundBy_eq, hx.others y hy]
  rcases a.step_phase s.watcher with ⟨hf, hs⟩ | ⟨hh, hn, hf⟩ | ⟨q, hq, hf, hs⟩
  · refine h.silent ?_ (hp.trans hs)
    intro y
    by_cases he : y = x
    · rw [he, hafter, hf, hbefore]
    · exact hothers y he
  · have hnone : ∀ y, y ≠ x → s.foundBy y = none :=
      fun y => foundBy_eq_none hlock ⟨a, hx.before, hh⟩
    have hphase : s.watcher.phase = base := by
      apply h.phase
      apply found?_eq_none_iff.mpr
      intro y
      by_cases he : y = x
      · rw [he, hbefore, hn]
      · exact hnone y he
    refine ⟨?_, ?_, h.base_ne⟩
    · intro y p hy
      by_cases he : y = x
      · rw [he, hafter, hf] at hy
        exact (Option.some.inj hy).symm.trans hphase
      · rw [hothers y he, hnone y he] at hy
        cases hy
    · intro hs
      have hx' := found?_eq_none_iff.mp hs x
      rw [hafter, hf] at hx'
      cases hx'
  · have hbase := h.found x q (hbefore.trans hq)
    refine ⟨?_, fun _ => hp.trans (hs.trans hbase), h.base_ne⟩
    intro y p hy
    by_cases he : y = x
    · rw [he, hafter, hf] at hy
      cases hy
    · exact h.found y p ((hothers y he).symm.trans hy)

theorem step (h : s.Told (o.getD s.watcher.loopPhase)) (hs : s.SpawnsOnce)
    (hlock : Exclusive s.HoldsLock s.watcher.locked) (m : WatchingMove) :
    (s.step m).Told
      ((if s.tells m then s.found? else o).getD (s.step m).watcher.loopPhase) := by
  cases phaseStep hs m with
  | tells ht hp hf =>
    rw [if_pos ht]
    exact h.tells hp hf
  | handles x a ht hr hx hp =>
    rw [ht, if_neg Bool.false_ne_true, Watcher.loopPhase_congr hr]
    exact h.handles hlock hx hp
  | silent ht hr hf hp =>
    rw [ht, if_neg Bool.false_ne_true, Watcher.loopPhase_congr hr]
    exact h.silent hf hp

theorem run (h : s.Told (o.getD s.watcher.loopPhase)) (hs : s.SpawnsOnce)
    (hlock : Exclusive s.HoldsLock s.watcher.locked) (moves : List WatchingMove) :
    (s.run moves).Told ((s.overtaken? o moves).getD (s.run moves).watcher.loopPhase) := by
  induction moves generalizing s o with
  | nil => exact h
  | cons m moves ih => exact ih (h.step hs hlock m) (hs.step m) (lock_step hlock m)

theorem phase_eq_idle_iff (h : s.Told (o.getD s.watcher.loopPhase)) (hs : s.AtRest) :
    s.watcher.phase = .idle ↔ o ≠ some .reading := by
  have hbase := h.base_ne
  have hl : s.watcher.loopPhase = .idle := by
    rw [Watcher.loopPhase, hs.reading]
    rfl
  rw [h.phase hs.found]
  rw [hl] at hbase ⊢
  cases o with
  | none => exact iff_of_true rfl nofun
  | some p =>
    cases p with
    | idle => exact iff_of_true rfl nofun
    | reading => exact iff_of_false nofun fun hn => hn rfl
    | applying => exact absurd rfl hbase

end Told

/-- When nobody is about to restore the phase, it shows whether a read is in progress, unless the
loop told it while somebody was. -/
theorem phase_shown (bus : Bus) (moves : List WatchingMove) :
    let s := (on bus).run moves
    let overtaken? := (on bus).overtaken? none moves
    (s.found? = none → s.watcher.phase =
      overtaken?.getD (if s.watcher.isReading then .reading else .idle)) ∧
    (s.AtRest → (s.watcher.phase = .idle ↔ overtaken? ≠ some .reading)) := by
  intro s overtaken?
  have h : s.Told (overtaken?.getD s.watcher.loopPhase) :=
    Told.run (o := none) (.on bus) (.on bus) (Kept.on bus).lock moves
  exact ⟨h.phase, h.phase_eq_idle_iff⟩

/-- A call with a payload swaps the phase during a read that brings nothing, and restores it when
the read is over. The loop waits then. -/
def overtakingRead : List WatchingMove :=
  let goOn : WatchingMove := .proceed 0 (.ok ())
  [.start, goOn, goOn, goOn, goOn, goOn, .loop, .submit (Contract.drain 1).encode,
    .handle 0, .handle 0, .handle 0, .handle 0, .handle 0, .read .missing, .loop,
    .handle 0, .handle 0]

/-- The next read mends the phase. -/
theorem phase_shown_after_next_read :
    let moves := overtakingRead ++ [.notify, .loop, .read .failed, .loop]
    let s := (on {}).run moves
    let overtaken? := (on {}).overtaken? none moves
    s.found? = none ∧ s.AtRest ∧
      s.watcher.phase = overtaken?.getD (if s.watcher.isReading then .reading else .idle) ∧
      (s.watcher.phase = .idle ↔ overtaken? ≠ some .reading) ∧ s.watcher.phase = .idle := by
  intro moves
  have hf : ((on {}).run moves).found? = none := by decide +kernel
  have hr : ((on {}).run moves).AtRest := ⟨hf, by decide +kernel⟩
  obtain ⟨hp, hi⟩ := phase_shown {} moves
  exact ⟨hf, hr, hp hf, hi hr, by decide +kernel⟩

/-- The phase that the call brings back was overtaken, and stays while the loop waits. -/
theorem overtaken_phase_stays :
    let s := (on {}).run overtakingRead
    s.AtRest ∧ s.watcher.loop? = some .waiting ∧ s.applies = [.finished (.applied 1)] ∧
      s.watcher.phase = .reading := by
  intro s
  exact ⟨⟨by decide +kernel, by decide +kernel⟩, by decide +kernel, by decide +kernel,
    by decide +kernel⟩

end Watching

end EventRouting
