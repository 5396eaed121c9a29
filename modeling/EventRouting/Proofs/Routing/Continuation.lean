import EventRouting.Proofs.Contract.Salvage
import EventRouting.Proofs.Contract.Truncation
import EventRouting.Proofs.Routing.Life

namespace EventRouting

namespace Contract

variable {c : Contract} {p : Payload}

theorem exists_error_of_prefix (hp : p <+: c.encode) (hn : p ≠ c.encode) :
    ∃ e, decode p = .error e := by
  by_cases he : p = []
  · exact ⟨.emptyPayload, he ▸ rfl⟩
  · exact ⟨_, decode_cut c.encode_value c.read_toValue hp hn he⟩

end Contract

namespace Synchronizer

variable {c : Contract} {p : Payload} {g : Generation}

/-- The synchronizer that goes on after the generation that is legible in a payload. -/
def continuing (g : Generation) : Synchronizer where
  store := { current := .drain g.next }
  publisher := { last? := some g }

theorem seed_of_error {e : ContractError} (hd : Contract.decode p = .error e) :
    seed (some p) = match salvageGeneration? p with
      | some g => continuing g
      | none => {} := by
  rw [seed, hd]
  rfl

theorem seed_of_salvaged {e : ContractError} (hd : Contract.decode p = .error e)
    (hg : salvageGeneration? p = some g) : seed (some p) = continuing g := by
  rw [seed_of_error hd, hg]

end Synchronizer

namespace Contract

variable {c : Contract} {p : Payload}

/-- A payload that lacks some but not all of the digits of its generation gives a smaller one, and
there is more than one between them. -/
theorem salvage_of_lost_digits (hp : p <+: c.encode) (ho : opening.length < p.length)
    (hl : p.length < c.legibleLength) :
    ∃ g, salvageGeneration? p = some g ∧ g.next < c.generation := by
  have hn : c.generation.toNat / 10 ^ (c.legibleLength - p.length) + 1 < c.generation.toNat := by
    rw [legibleLength, Json.length_decimal] at hl ⊢
    exact Json.div_pow_succ_lt (by omega) (by omega)
  have hs := c.generation.toNat_lt_size
  have hg : (UInt64.ofNat (c.generation.toNat / 10 ^ (c.legibleLength - p.length))).toNat =
      c.generation.toNat / 10 ^ (c.legibleLength - p.length) :=
    UInt64.toNat_ofNat_of_lt' (by omega)
  have hlt : UInt64.ofNat (c.generation.toNat / 10 ^ (c.legibleLength - p.length)) <
      c.generation := by
    rw [UInt64.lt_iff_toNat_lt, hg]
    omega
  refine ⟨_, salvage_part hp ho, ?_⟩
  rw [UInt64.lt_iff_toNat_lt, Generation.toNat_next, hg]
  · exact hn
  · exact UInt64.lt_of_lt_of_le hlt (Generation.le_greatest _)

/-- The synchronizer claims to go on after what was published, and numbers from below it. -/
def Undercuts (c : Contract) (s : Synchronizer) : Prop :=
  s.publisher.last?.isSome ∧ s.current.generation < c.generation

theorem not_undercuts_of_complete (hp : p <+: c.encode) (hl : c.legibleLength ≤ p.length) :
    ¬c.Undercuts (.seed (some p)) := by
  rintro ⟨-, hlt⟩
  by_cases hn : p = c.encode
  · have hs : Synchronizer.seed (some p) =
        { store := { current := c }, publisher := { last? := some c.generation } } := by
      rw [hn, Synchronizer.seed, decode_encode]
    rw [hs] at hlt
    exact UInt64.lt_irrefl _ hlt
  · obtain ⟨e, hd⟩ := exists_error_of_prefix hp hn
    rw [Synchronizer.seed_of_salvaged hd (salvage_of_all_digits hp hl)] at hlt
    exact UInt64.not_le.mpr hlt c.generation.le_next

/-- What is salvaged from a payload that ends anywhere is the number that its digits spell. -/
theorem truncated_generation (hp : p <+: c.encode) :
    (salvageGeneration? p =
      if p.length ≤ opening.length then none
      else some (.ofNat (c.generation.toNat / 10 ^ (c.legibleLength - p.length)))) ∧
    (salvageGeneration? p = none ∨ salvageGeneration? p = some c.generation ↔
      p.length ≤ opening.length ∨ c.legibleLength ≤ p.length) ∧
    (c.Undercuts (.seed (some p)) ↔ opening.length < p.length ∧ p.length < c.legibleLength) := by
  have hcut (hl : p.length < c.legibleLength) : p ≠ c.encode := by
    rintro rfl
    exact Nat.lt_asymm hl c.legibleLength_lt
  rcases Nat.lt_or_ge opening.length p.length with ho | ho
  · have hs := salvage_part hp ho
    refine ⟨by rw [if_neg (Nat.not_le_of_lt ho), hs], ?_⟩
    rcases Nat.lt_or_ge p.length c.legibleLength with hl | hl
    · obtain ⟨g, hg, hnext⟩ := salvage_of_lost_digits hp ho hl
      obtain ⟨e, hd⟩ := exists_error_of_prefix hp (hcut hl)
      have hne : some g ≠ some c.generation := by
        intro h
        cases h
        exact UInt64.not_le.mpr hnext c.generation.le_next
      rw [hg, Synchronizer.seed_of_salvaged hd hg]
      refine ⟨iff_of_false ?_ ?_, iff_of_true ⟨rfl, hnext⟩ ⟨ho, hl⟩⟩
      · exact not_or.mpr ⟨Option.some_ne_none g, hne⟩
      · omega
    · refine ⟨iff_of_true (.inr (salvage_of_all_digits hp hl)) (.inr hl), ?_⟩
      exact iff_of_false (not_undercuts_of_complete hp hl) (by omega)
  · have hs := salvage_of_le hp ho
    have hl : p.length < c.legibleLength := Nat.lt_of_le_of_lt ho c.length_opening_lt
    obtain ⟨e, hd⟩ := exists_error_of_prefix hp (hcut hl)
    rw [Synchronizer.seed_of_error hd, hs]
    refine ⟨(if_pos ho).symm, iff_of_true (.inl rfl) (.inl ho), iff_of_false ?_ (by omega)⟩
    exact fun h => Bool.false_ne_true h.1

theorem truncated_generation_of_lost_digit :
    let c : Contract := ⟨1207, [{ uid := "b" }]⟩
    let p := Utf8.bytes "\x7b\"generation\":120"
    p <+: c.encode ∧ salvageGeneration? p = some 120 ∧ c.Undercuts (.seed (some p)) := by
  intro c p
  have hp : p <+: c.encode := by decide +kernel
  have ho : opening.length < p.length := by decide +kernel
  have hl : p.length < c.legibleLength := by decide +kernel
  have hk : c.legibleLength - p.length = 1 := by decide +kernel
  obtain ⟨hs, -, hu⟩ := truncated_generation hp
  rw [if_neg (Nat.not_le_of_lt ho), hk] at hs
  exact ⟨hp, hs.trans (by decide), hu.mpr ⟨ho, hl⟩⟩

/-- The generation salvaged is neither missing nor that of the contract: 13 follows after 123. -/
theorem lost_digit_salvaged :
    let c : Contract := ⟨123, []⟩
    let p := Utf8.bytes "\x7b\"generation\":12"
    p <+: c.encode ∧ p ≠ c.encode ∧ salvageGeneration? p = some 12 ∧
      (Synchronizer.seed (some p)).publisher.last? = some 12 ∧
      (Synchronizer.seed (some p)).current = .drain 13 := by
  decide +kernel

end Contract

namespace Synchronizer

variable {s : Synchronizer} {g : Generation}

/-- Nothing was published since the generation `g`, and there is something newer to publish. -/
structure Awaits (s : Synchronizer) (g : Generation) : Prop where
  newer : g < s.current.generation
  last : ∀ f ∈ s.publisher.last?, f = g
  opened : s.publisher.closed = false

theorem continuing_awaits (h : g < .greatest) : (continuing g).Awaits g where
  newer := Generation.lt_next h
  last _ hf := (Option.some.inj hf).symm
  opened := rfl

theorem Awaits.isBehind (h : s.Awaits g) : s.isBehind = true := by
  rw [isBehind_iff]
  cases hl : s.publisher.last? with
  | none => exact UInt64.lt_of_le_of_lt (UInt64.le_iff_toNat_le.mpr (Nat.zero_le _)) h.newer
  | some f =>
    obtain rfl := h.last f hl
    exact h.newer

theorem Awaits.of_fragments (h : s.Awaits g) (fragments : Table String Fragment) :
    Awaits { s with fragments } g :=
  ⟨h.newer, h.last, h.opened⟩

theorem Awaits.accept (h : s.Awaits g) (r : Readiness) : (s.accept (s.build r)).Awaits g where
  newer := UInt64.lt_of_lt_of_le h.newer (s.accept_generation r)
  last := by
    rw [accept_publisher]
    exact h.last
  opened := by
    rw [accept_publisher]
    exact h.opened

theorem Awaits.reset (h : s.Awaits g) : Awaits { s with publisher := s.publisher.reset } g :=
  ⟨h.newer, nofun, h.opened⟩

end Synchronizer

namespace Conditions

variable {c : Conditions} {s after : Synchronizer} {g : Generation}
  {accepted accepted' : List Payload}

/-- A synchronization that ends well publishes, and one that fails leaves things as they were. -/
theorem sync_of_awaits (h : s.Awaits g) {result : Except Failure SyncReport}
    (hr : (Dialogue.under c.answer Synchronizer.sync s).run accepted =
      ((result, after), accepted')) :
    (∃ report, result = .ok report ∧ report.published = true ∧
        g < after.current.generation ∧ accepted' = accepted ++ [after.current.encode]) ∨
      (∃ e, result = .error e) ∧ after.Awaits g := by
  have ha := h.accept c.readiness
  rcases sync_cases hr with ⟨hb, -⟩ | ⟨-, rfl, rfl, rfl⟩ | ⟨-, he, rfl, -⟩
  · exact absurd (hb.symm.trans ha.isBehind) Bool.false_ne_true
  · exact .inl ⟨_, rfl, rfl, ha.newer, rfl⟩
  · exact .inr ⟨he, ha⟩

theorem sync_ends (h : s.Awaits g) (ht : c.fate = .taken) (accepted : List Payload) :
    ∃ report after accepted', (Dialogue.under c.answer Synchronizer.sync s).run accepted =
      ((.ok report, after), accepted') := by
  have ha := h.accept c.readiness
  refine ⟨(s.accept (s.build c.readiness)).report (s.build c.readiness) true,
    (s.accept (s.build c.readiness)).caughtUp,
    accepted ++ [(s.accept (s.build c.readiness)).current.encode], ?_⟩
  rw [Synchronizer.under_sync]
  change StateT.run (if (s.accept (s.build c.readiness)).isBehind = true then
    if (s.accept (s.build c.readiness)).publisher.closed = true then pure _ else _
    else pure _) accepted = _
  rw [if_pos ha.isBehind, if_neg (Bool.eq_false_iff.mp ha.opened), StateT.run_bind, write_run, ht]
  rfl

end Conditions

namespace Life

variable {l : Life} {g : Generation}

/-- Moves before the first synchronization that ends well. Fragments come and go, the entry may be
opened anew, and what would be published is not. -/
def Pends (l : Life) : Move → Prop
  | .start _ => False
  | .upsert _ _ | .remove _ | .reopen _ => True
  | .sync c => ∀ p ∈ l.process?, ∀ report, (p.run Synchronizer.sync c l.accepted).1.1 ≠ .ok report
  | .close c => c.fate ≠ .taken

/-- The process that runs awaits its first publication after the generation `g`. -/
def Waiting (g : Generation) (l : Life) : Prop := ∃ p, l.process? = some p ∧ p.sync.Awaits g

theorem Waiting.step (h : l.Waiting g) {m : Move} (hm : l.Pends m) : (l.step m).Waiting g := by
  obtain ⟨accepted, process?⟩ := l
  obtain ⟨p, rfl, hp⟩ := h
  cases m with
  | start c => exact hm.elim
  | upsert key f => exact ⟨_, rfl, hp.of_fragments _⟩
  | remove key => exact ⟨_, rfl, hp.of_fragments _⟩
  | sync c =>
    change (p.synchronize c accepted).Waiting g
    rcases hr : p.run Synchronizer.sync c accepted with ⟨⟨result, after⟩, accepted'⟩
    have hf : ∀ report, (p.run Synchronizer.sync c accepted).1.1 ≠ .ok report := hm p rfl
    rw [hr] at hf
    rw [Process.synchronize, hr]
    rcases Conditions.sync_of_awaits hp hr with ⟨report, ho, -⟩ | ⟨-, ha⟩
    · exact absurd ho (hf report)
    · exact ⟨_, rfl, ha⟩
  | reopen c =>
    change (p.perform Synchronizer.reopen c accepted).Waiting g
    rcases hr : p.run Synchronizer.reopen c accepted with ⟨⟨result, after⟩, accepted'⟩
    rw [Process.perform, hr]
    rcases (Conditions.reopen_cases hr).2 with rfl | rfl
    · exact ⟨_, rfl, hp⟩
    · exact ⟨_, rfl, hp.reset⟩
  | close c =>
    change (p.perform Synchronizer.close c accepted).Waiting g
    have hc : ¬p.sync.publisher.closed = true := Bool.eq_false_iff.mp hp.opened
    rw [Process.perform, Process.run, Conditions.close_run, if_neg hc]
    cases hf : c.fate with
    | taken => exact absurd hf hm
    | refused e => exact ⟨_, rfl, hp⟩
    | unacknowledged e => exact ⟨_, rfl, hp⟩

/-- A process that starts where a generation is legible is numbered from the one after it, whatever
fails before its first publication. -/
theorem numbering_continues {c : Contract} {p : Payload} {e : ContractError}
    (hg : c.generation.toNat < 2 ^ 64 - 2) (hp : c.legibleHead <+: p)
    (hd : Contract.decode p = .error e) {s : Conditions} (hs : s.fault? = none) :
    let l := (ofEntry (some p)).step (.start s)
    l.process?.map (·.sync) = some {
        store := { current := ⟨c.generation + 1, []⟩ }
        publisher := { last? := some c.generation } } ∧
      ∀ moves, Along Pends l moves → ∃ q, (l.run moves).process? = some q ∧
        ∀ k : Conditions,
          (∀ report after accepted, q.run Synchronizer.sync k (l.run moves).accepted =
              ((.ok report, after), accepted) →
            report.published = true ∧ c.generation < after.current.generation ∧
              accepted = (l.run moves).accepted ++ [after.current.encode]) ∧
          (k.fate = .taken → ∃ report after accepted, q.run Synchronizer.sync k
            (l.run moves).accepted = ((.ok report, after), accepted)) := by
  intro l
  have hlt : c.generation < .greatest := by
    have hgreatest : Generation.greatest.toNat = 2 ^ 64 - 1 := rfl
    rw [UInt64.lt_iff_toNat_lt, hgreatest]
    omega
  have hn : c.generation.next = c.generation + 1 := if_neg (UInt64.ne_of_lt hlt)
  have hl : l.process?.map (·.sync) = some (.continuing c.generation) := by
    change ((ofEntry (some p)).start s).process?.map (·.sync) = _
    rw [start, Conditions.start_run, hs]
    exact congrArg some (Synchronizer.seed_of_salvaged hd (Contract.salvage_legible hp))
  apply And.intro
  · rw [hl, Synchronizer.continuing, hn]
    rfl
  · intro moves hm
    obtain ⟨q₀, hq₀, hs₀⟩ := Option.map_eq_some_iff.mp hl
    have hw : l.Waiting c.generation :=
      ⟨q₀, hq₀, hs₀ ▸ Synchronizer.continuing_awaits hlt⟩
    obtain ⟨q, hq, ha⟩ := run_invariant (fun _ _ h hm => h.step hm) hw hm
    refine ⟨q, hq, fun k => ⟨fun report after accepted hr => ?_, fun ht => ?_⟩⟩
    · rcases Conditions.sync_of_awaits ha hr with ⟨report', ho, hpub, hnew, hacc⟩ | ⟨⟨e, he⟩, -⟩
      · cases ho
        exact ⟨hpub, hnew, hacc⟩
      · cases he
    · exact Conditions.sync_ends ha ht _

theorem numbering_continues_after_garbage :
    let c : Contract := ⟨7, [{ uid := "b" }]⟩
    let p := c.legibleHead ++ 0xFF :: Utf8.bytes "\"generation\":99,"
    let b : Fragment := ⟨"b", ⟨0, 0⟩, .resource { uid := "b" } ⟨"h", 80, "/b", false⟩⟩
    let l := ((ofEntry (some p)).step (.start {})).run
      [.upsert "b" b, .sync { fate := .refused (.io "TimedOut") }, .reopen {}]
    ∃ q, l.process? = some q ∧ ∃ report after accepted,
      q.run Synchronizer.sync {} l.accepted = ((.ok report, after), accepted) ∧
        report.published = true ∧ 7 < after.current.generation ∧
          accepted = l.accepted ++ [after.current.encode] := by
  intro c p b l
  have hp : c.legibleHead <+: p := List.prefix_append _ _
  have hd : Contract.decode p = .error (.decode (.fault .malformed)) := by decide +kernel
  have hf : ∀ q ∈ (((ofEntry (some p)).step (.start {})).step (.upsert "b" b)).process?,
      (q.run Synchronizer.sync { fate := .refused (.io "TimedOut") } [p]).1.1.isOk = false := by
    decide +kernel
  obtain ⟨-, hrun⟩ := numbering_continues (by decide) hp hd (s := {}) rfl
  have hm : Along Pends ((ofEntry (some p)).step (.start {}))
      [.upsert "b" b, .sync { fate := .refused (.io "TimedOut") }, .reopen {}] := by
    refine ⟨trivial, fun q hq report ho => ?_, trivial, trivial⟩
    have ho' := hf q hq
    rw [show (q.run Synchronizer.sync { fate := .refused (.io "TimedOut") } [p]).1.1 =
      .ok report from ho] at ho'
    cases ho'
  obtain ⟨q, hq, hk⟩ := hrun _ hm
  obtain ⟨hpub, hend⟩ := hk {}
  obtain ⟨report, after, accepted, hr⟩ := hend rfl
  exact ⟨q, hq, report, after, accepted, hr, hpub report after accepted hr⟩

end Life

end EventRouting
