import EventRouting.Proofs.Contract.Store
import EventRouting.Proofs.Dialogue
import EventRouting.Proofs.Routing.Build
import EventRouting.Routing.Synchronizer

namespace EventRouting

/-- The generation that nothing can be newer than. -/
def Generation.greatest : Generation := .ofNat (UInt64.size - 1)

theorem Generation.le_greatest (g : Generation) : g ≤ greatest :=
  UInt64.le_iff_toNat_le.mpr (Nat.le_sub_one_of_lt g.toNat_lt_size)

theorem Generation.toNat_add_one {g : Generation} (h : g < greatest) :
    (g + 1).toNat = g.toNat + 1 := by
  have hg : g.toNat < 2 ^ 64 - 1 := UInt64.lt_iff_toNat_lt.mp h
  rw [UInt64.toNat_add, UInt64.toNat_one, Nat.mod_eq_of_lt (by omega)]

theorem Generation.lt_add_one {g : Generation} (h : g < greatest) : g < g + 1 := by
  rw [UInt64.lt_iff_toNat_lt, toNat_add_one h]
  exact Nat.lt_succ_self _

theorem Generation.lt_next {g : Generation} (h : g < greatest) : g < next g := by
  have hn : next g = g + 1 := if_neg (UInt64.ne_of_lt h)
  exact hn ▸ lt_add_one h

theorem Generation.toNat_next {g : Generation} (h : g < greatest) :
    (next g).toNat = g.toNat + 1 := by
  have hn : next g = g + 1 := if_neg (UInt64.ne_of_lt h)
  rw [hn, toNat_add_one h]

theorem Generation.le_next (g : Generation) : g ≤ next g := by
  rw [next]
  split
  next => exact UInt64.le_refl g
  next h => exact UInt64.le_of_lt (lt_add_one (UInt64.lt_of_le_of_ne g.le_greatest h))

variable {m : Type → Type} [Monad m] [LawfulMonad m]

namespace Publisher

variable (answer : (q : StorageCall) → m q.Answer)

theorem under_write (payload : Payload) (p : Publisher) :
    Dialogue.under answer (write payload) p = (answer (.write payload) >>= fun r =>
      match r with
      | .ok () => pure (.ok (), p)
      | .error e => pure (.error (.contract e), p)) := by
  rw [write, Dialogue.under_lift_bind, writeEntry, Dialogue.foldM_put]
  refine bind_congr fun r => ?_
  cases r <;> rfl

theorem under_publish (c : Contract) (p : Publisher) (hb : p.isBehind c.generation = true) :
    Dialogue.under answer (publish c) p =
      if p.closed then pure (.error (.closed "contract publisher"), p)
      else answer (.write c.encode) >>= fun r =>
        match r with
        | .ok () => pure (.ok true, p.written c.generation)
        | .error e => pure (.error (.contract e), p) := by
  rw [publish, Dialogue.under_get_bind]
  by_cases hc : p.closed = true
  · simp only [hc, if_true, Dialogue.under_throw_bind]
  · simp only [hc, hb, Bool.false_eq_true, if_false, Bool.not_true, Dialogue.under_bind,
      under_write, bind_assoc]
    refine bind_congr fun r => ?_
    cases r <;> simp only [pure_bind, Dialogue.under_set, Dialogue.under_pure]

theorem under_close (g : Generation) (p : Publisher) :
    Dialogue.under answer (close g) p =
      if p.closed then pure (.ok none, p)
      else answer (.write (Contract.drain (p.drainGeneration g)).encode) >>= fun r =>
        match r with
        | .ok () => pure (.ok (some (p.drainGeneration g)), p.drained g)
        | .error e => pure (.error (.contract e), p) := by
  rw [close, Dialogue.under_get_bind]
  by_cases hc : p.closed = true
  · simp only [hc, if_true, Dialogue.under_pure]
  · simp only [hc, Bool.false_eq_true, if_false, Dialogue.under_bind, under_write, bind_assoc]
    refine bind_congr fun r => ?_
    cases r <;> simp only [pure_bind, Dialogue.under_set, Dialogue.under_pure]

end Publisher

namespace Synchronizer

variable {α β : Type} (answer : (q : SyncCall) → m q.Answer)

@[simp] theorem under_ask_bind (call : SyncCall) (f : call.Answer → Program β) (s : Synchronizer) :
    Dialogue.under answer (ask call >>= f) s =
      (answer call >>= fun a => Dialogue.under answer (f a) s) := by
  rw [ask, Dialogue.under_lift_bind, Dialogue.foldM_put]

theorem under_publisherProgram (p : Publisher.Program α) (s : Synchronizer) :
    Dialogue.under answer (publisherProgram p) s =
      (Dialogue.under (fun call => answer (.storage call)) p s.publisher >>= fun (r, publisher) =>
        pure (r, { s with publisher })) := by
  change Dialogue.foldM answer (_ >>= _) = _
  rw [Dialogue.foldM_bind, Dialogue.foldM_interpret]
  simp only [Dialogue.foldM_put]
  rfl

section Steps

variable {s : Synchronizer} {r : Readiness}

/-- A build would need a generation after the greatest one. -/
def Overflows (s : Synchronizer) (r : Readiness) : Prop :=
  (s.build r).changed = true ∧ s.current.generation = .greatest

instance (s : Synchronizer) (r : Readiness) : Decidable (s.Overflows r) :=
  inferInstanceAs (Decidable (_ ∧ _))

@[simp] theorem accept_publisher (s : Synchronizer) (o : Outcome) :
    (s.accept o).publisher = s.publisher := by
  rw [accept]
  split
  · split <;> rfl
  · rfl

@[simp] theorem accept_fragments (s : Synchronizer) (o : Outcome) :
    (s.accept o).fragments = s.fragments := by
  rw [accept]
  split
  · split <;> rfl
  · rfl

theorem build_generation (h : (s.build r).changed = true) :
    (s.build r).contract.generation = s.current.generation + 1 :=
  congrArg Contract.generation (if_pos h)

theorem build_contract_of_unchanged (h : ¬(s.build r).changed = true) :
    (s.build r).contract = s.current :=
  if_neg h

theorem lt_build_generation (h : ¬s.Overflows r) (hc : (s.build r).changed = true) :
    s.current.generation < (s.build r).contract.generation := by
  have hg : s.current.generation ≠ .greatest := fun hg => h ⟨hc, hg⟩
  rw [build_generation hc]
  exact Generation.lt_add_one (UInt64.lt_of_le_of_ne (Generation.le_greatest _) hg)

theorem accept_of_not_overflows (h : ¬s.Overflows r) :
    (s.accept (s.build r)).current = (s.build r).contract ∧
      (s.accept (s.build r)).admitted = (s.build r).admitted := by
  by_cases hc : (s.build r).changed = true
  · rw [accept, if_pos hc, Store.tryAdvance_of_lt (lt_build_generation h hc)]
    exact ⟨rfl, rfl⟩
  · rw [accept, if_neg hc, build_contract_of_unchanged hc]
    exact ⟨rfl, rfl⟩

theorem accept_of_overflows (h : s.Overflows r) : s.accept (s.build r) = s := by
  have hl : (s.build r).contract.generation ≤ s.store.current.generation := by
    rw [build_generation h.1, h.2]
    exact UInt64.le_iff_toNat_le.mpr (Nat.zero_le _)
  rw [accept, if_pos h.1, Store.tryAdvance_of_le hl]

theorem accept_current (s : Synchronizer) (r : Readiness) :
    (s.accept (s.build r)).current = s.current ∨
      s.current.generation < (s.accept (s.build r)).current.generation := by
  by_cases h : s.Overflows r
  · exact .inl (congrArg current (accept_of_overflows h))
  · rw [(accept_of_not_overflows h).1]
    by_cases hc : (s.build r).changed = true
    · exact .inr (lt_build_generation h hc)
    · exact .inl (build_contract_of_unchanged hc)

end Steps

/-- A synchronizer after its current contract was written. -/
def caughtUp (s : Synchronizer) : Synchronizer :=
  { s with publisher := s.publisher.written s.current.generation }

/-- The drain that closing publishes. -/
def drain (s : Synchronizer) : Contract :=
  .drain (s.publisher.drainGeneration s.drainGeneration)

/-- A synchronizer after its drain was written. -/
def shut (s : Synchronizer) : Synchronizer :=
  { s with publisher := s.publisher.drained s.drainGeneration }.drained s.drain.generation

theorem shut_current (s : Synchronizer) :
    s.shut.current = s.drain ∨ s.shut.current = s.current := by
  have ha : s.shut.current = (s.store.tryAdvance s.drain).2.current := rfl
  rw [ha]
  by_cases hl : s.store.current.generation < s.drain.generation
  · exact .inl (by rw [Store.tryAdvance_of_lt hl])
  · exact .inr (by rw [Store.tryAdvance_of_le (UInt64.not_lt.mp hl)]; rfl)

/-- The report of a synchronization that left `s`. -/
def report (s : Synchronizer) (o : Outcome) (published : Bool) : SyncReport where
  generation := s.current.generation
  changed := o.changed
  published := published
  outcome := o

theorem publisher_isBehind {s : Synchronizer} (h : s.isBehind = true) :
    s.publisher.isBehind s.current.generation = true := by
  rw [isBehind] at h
  rw [Publisher.isBehind]
  cases hl : s.publisher.last? with
  | none => rfl
  | some last =>
    rw [hl] at h
    exact h

theorem under_sync (s : Synchronizer) :
    Dialogue.under answer sync s = (answer (.readiness s.consulted) >>= fun r =>
      answer (.retain (s.build r).referenced) >>= fun _ =>
        let t := s.accept (s.build r)
        if t.isBehind then
          if t.publisher.closed then pure (.error (.closed "contract publisher"), t)
          else answer (.storage (.write t.current.encode)) >>= fun w =>
            match w with
            | .ok () => pure (.ok (t.report (s.build r) true), t.caughtUp)
            | .error e => pure (.error (.contract e), t)
        else pure (.ok (t.report (s.build r) false), t)) := by
  rw [sync, Dialogue.under_get_bind, under_ask_bind]
  refine bind_congr fun r => ?_
  dsimp only
  rw [under_ask_bind]
  refine bind_congr fun _ => ?_
  rw [Dialogue.under_modify_bind, Dialogue.under_get_bind]
  by_cases hb : (s.accept (s.build r)).isBehind = true
  · rw [if_pos hb, if_pos hb, Dialogue.under_bind, under_publisherProgram,
      Publisher.under_publish _ _ _ (publisher_isBehind hb)]
    by_cases hc : (s.accept (s.build r)).publisher.closed = true
    · simp only [if_pos hc, pure_bind]
    · simp only [if_neg hc, bind_assoc]
      refine bind_congr fun w => ?_
      cases w with
      | ok _ =>
        simp only [pure_bind]
        rfl
      | error e => simp only [pure_bind]
  · rw [if_neg hb, if_neg hb, Dialogue.under_bind, Dialogue.under_pure, pure_bind]
    rfl

theorem under_reopen (s : Synchronizer) :
    Dialogue.under answer reopen s = (answer (.storage .obtain) >>= fun r =>
      match r with
      | .ok _ => pure (.ok (), { s with publisher := s.publisher.reset })
      | .error e => pure (.error (.contract e), s)) := by
  rw [reopen, under_ask_bind]
  refine bind_congr fun r => ?_
  cases r <;> rfl

theorem under_recover (s : Synchronizer) :
    Dialogue.under answer recover s = (Dialogue.under answer reopen s >>= fun (r, s) =>
      match r with
      | .ok _ => Dialogue.under answer sync s
      | .error e => pure (.error e, s)) := by
  rw [recover, Dialogue.under_bind]
  refine bind_congr fun (r, s) => ?_
  cases r <;> rfl

theorem under_close (s : Synchronizer) :
    Dialogue.under answer close s =
      if s.publisher.closed then pure (.ok false, s)
      else answer (.storage (.write s.drain.encode)) >>= fun r =>
        match r with
        | .ok () => pure (.ok true, s.shut)
        | .error e => pure (.error (.contract e), s) := by
  rw [close, Dialogue.under_get_bind]
  by_cases hc : s.publisher.closed = true
  · simp only [if_pos hc, Dialogue.under_pure]
  · rw [if_neg hc, if_neg hc, Dialogue.under_bind, under_publisherProgram, Publisher.under_close]
    simp only [if_neg hc, bind_assoc]
    refine bind_congr fun r => ?_
    cases r with
    | ok _ =>
      simp only [pure_bind, Dialogue.under_modify_bind, Dialogue.under_pure]
      rfl
    | error e => simp only [pure_bind]

end Synchronizer

end EventRouting
