import EventRouting.Proofs.Table
import EventRouting.Readiness.Prober

namespace EventRouting

namespace Prober

variable {p q : Prober} {a b : Address} {token : Token} {now : Span}

theorem isOwner_iff : p.isOwner a token = true ↔
    ∃ e, p.entry? a = some e ∧ e.owner? = some token := by
  rw [isOwner, Option.any_eq_true]
  exact exists_congr fun e => and_congr_right' beq_iff_eq

theorem isReady_iff : p.isReady a = true ↔ ∃ e, p.entry? a = some e ∧ e.status = .ready := by
  rw [isReady, status, decide_eq_true_iff]
  cases p.entry? a with
  | none =>
    constructor
    · intro h
      cases h
    · rintro ⟨e, he, -⟩
      cases he
  | some e =>
    constructor
    · intro h
      exact ⟨e, rfl, h⟩
    · rintro ⟨c, hc, h⟩
      cases hc
      exact h

theorem entry?_insert (p : Prober) (a b : Address) (e : ProbeEntry) :
    entry? { p with entries := p.entries.insert a e } b = if a = b then some e else p.entry? b :=
  Table.get?_insert _ _ _ _

theorem entry?_claim (p : Prober) (a b : Address) :
    entry? (p.claim a).2 b =
      if a = b then some { (p.entry? a).getD {} with owner? := some (p.lastToken + 1) }
      else p.entry? b :=
  Table.get?_insert _ _ _ _

theorem entry?_reset (p : Prober) (a b : Address) :
    entry? (p.reset a).2 b =
      if a = b then some { owner? := some (p.lastToken + 1) } else p.entry? b := by
  rw [reset, entry?_claim, entry?_insert, entry?_insert, if_pos rfl]
  by_cases h : a = b
  · rw [if_pos h, if_pos h]
    rfl
  · rw [if_neg h, if_neg h, if_neg h]

theorem entry?_retain (p : Prober) (referenced : List Address) (a : Address) :
    entry? (p.retain referenced) a = if referenced.contains a = true then p.entry? a else none :=
  Table.get?_filter p.entries referenced.contains a

theorem entry?_of_retain {referenced : List Address} {e : ProbeEntry}
    (h : entry? (p.retain referenced) a = some e) : p.entry? a = some e := by
  rw [entry?_retain] at h
  by_cases hc : referenced.contains a = true
  · rwa [if_pos hc] at h
  · rw [if_neg hc] at h
    cases h

theorem isOwner_of_claim (h : (p.claim b).2.isOwner a token = true) (ht : token ≠ p.lastToken + 1) :
    p.isOwner a token = true := by
  obtain ⟨e, he, ho⟩ := isOwner_iff.mp h
  rw [entry?_claim] at he
  by_cases hb : b = a
  · rw [if_pos hb] at he
    cases he
    exact absurd (Option.some.inj ho).symm ht
  · rw [if_neg hb] at he
    exact isOwner_iff.mpr ⟨e, he, ho⟩

theorem isReady_of_claim (h : (p.claim b).2.isReady a = true) : p.isReady a = true := by
  obtain ⟨e, he, hr⟩ := isReady_iff.mp h
  rw [entry?_claim] at he
  by_cases hb : b = a
  · subst hb
    rw [if_pos rfl] at he
    cases he
    cases hp : p.entry? b with
    | none =>
      rw [hp] at hr
      cases hr
    | some c =>
      rw [hp] at hr
      exact isReady_iff.mpr ⟨c, hp, hr⟩
  · rw [if_neg hb] at he
    exact isReady_iff.mpr ⟨e, he, hr⟩

theorem request_cases {started? : Option Token} (h : p.request now a = (started?, q)) :
    (started? = none ∧ q = p) ∨ started? = some (p.lastToken + 1) ∧ q = (p.claim a).2 := by
  rw [request] at h
  cases he : p.entry? a with
  | none =>
    rw [he] at h
    cases h
    exact .inr ⟨rfl, rfl⟩
  | some e =>
    simp only [he] at h
    split at h
    · cases h
      exact .inl ⟨rfl, rfl⟩
    · cases h
      exact .inr ⟨rfl, rfl⟩

theorem record_cases {ready : Bool} {outcome? : Option ProbeOutcome}
    (h : p.record now a token ready = (outcome?, q)) :
    (p.isOwner a token = false ∧ outcome? = none ∧ q = p) ∨
      ∃ e, p.entry? a = some e ∧ e.owner? = some token ∧
        outcome? = some (p.note now e ready).1 ∧
        q = { p with entries := p.entries.insert a (p.note now e ready).2 } := by
  rw [record] at h
  rw [isOwner]
  cases he : p.entry? a with
  | none =>
    rw [he] at h
    cases h
    exact .inl ⟨rfl, rfl, rfl⟩
  | some e =>
    simp only [he] at h
    by_cases ho : e.owner? = some token
    · rw [if_pos ho] at h
      cases h
      exact .inr ⟨e, rfl, ho, rfl, rfl⟩
    · rw [if_neg ho] at h
      cases h
      exact .inl ⟨beq_eq_false_iff_ne.mpr ho, rfl, rfl⟩

theorem owner?_note (p : Prober) (now : Span) (e : ProbeEntry) (ready : Bool) :
    (p.note now e ready).2.owner? = if ready = true then none else e.owner? := by
  cases ready <;> rfl

theorem status_note (p : Prober) (now : Span) (e : ProbeEntry) (ready : Bool) :
    (p.note now e ready).2.status = if ready = true then .ready else .notReady := by
  cases ready <;> rfl

theorem isOwner_of_note {e : ProbeEntry} {ready : Bool} {other : Token} (he : e.owner? = some other)
    (h : isOwner { p with entries := p.entries.insert b (p.note now e ready).2 } a token = true)
    (ht : other ≠ token) : p.isOwner a token = true := by
  obtain ⟨c, hc, ho⟩ := isOwner_iff.mp h
  rw [entry?_insert] at hc
  by_cases hb : b = a
  · rw [if_pos hb] at hc
    cases hc
    rw [owner?_note, he] at ho
    cases ready with
    | true => cases ho
    | false => exact absurd (Option.some.inj ho) ht
  · rw [if_neg hb] at hc
    exact isOwner_iff.mpr ⟨c, hc, ho⟩

theorem isReady_of_note {e : ProbeEntry} {ready : Bool}
    (h : isReady { p with entries := p.entries.insert b (p.note now e ready).2 } a = true) :
    (b = a ∧ ready = true) ∨ p.isReady a = true := by
  obtain ⟨c, hc, hr⟩ := isReady_iff.mp h
  rw [entry?_insert] at hc
  by_cases hb : b = a
  · rw [if_pos hb] at hc
    cases hc
    rw [status_note] at hr
    cases ready with
    | true => exact .inl ⟨hb, rfl⟩
    | false => cases hr
  · rw [if_neg hb] at hc
    exact .inr (isReady_iff.mpr ⟨c, hc, hr⟩)

/-- What came of resetting these addresses, one after the other. -/
structure Renewed (p : Prober) (addresses : List Address)
    (started : List (Address × Token)) (q : Prober) : Prop where
  roots : q.roots = p.roots
  lastToken_le : p.lastToken ≤ q.lastToken
  addressed : ∀ loop ∈ started, loop.1 ∈ addresses
  bounds : ∀ loop ∈ started, p.lastToken < loop.2 ∧ loop.2 ≤ q.lastToken
  ascending : (started.map Prod.snd).Pairwise (· < ·)
  others : ∀ a ∉ addresses, q.entry? a = p.entry? a
  fresh : ∀ a ∈ addresses, ∃ token, (a, token) ∈ started ∧
    q.entry? a = some { owner? := some token }

theorem Renewed.cons {r : Prober} {addresses : List Address} {started : List (Address × Token)}
    (h : Renewed (p.reset a).2 addresses started r) :
    Renewed p (a :: addresses) ((a, p.lastToken + 1) :: started) r := by
  have hlt : p.lastToken < (p.reset a).2.lastToken := Nat.lt_succ_self _
  constructor
  · exact h.roots
  · exact Nat.le_trans (Nat.le_of_lt hlt) h.lastToken_le
  · intro loop hm
    rcases List.mem_cons.mp hm with rfl | hm
    · exact List.mem_cons_self
    · exact List.mem_cons_of_mem a (h.addressed loop hm)
  · intro loop hm
    rcases List.mem_cons.mp hm with rfl | hm
    · exact ⟨hlt, h.lastToken_le⟩
    · exact ⟨Nat.lt_trans hlt (h.bounds loop hm).1, (h.bounds loop hm).2⟩
  · apply List.Pairwise.cons
    · intro token hm
      obtain ⟨loop, hl, rfl⟩ := List.mem_map.mp hm
      exact (h.bounds loop hl).1
    · exact h.ascending
  · intro b hb
    obtain ⟨hne, hb⟩ := not_or.mp fun h => hb (List.mem_cons.mpr h)
    rw [h.others b hb, entry?_reset, if_neg fun he => hne he.symm]
  · intro b hb
    by_cases hm : b ∈ addresses
    · obtain ⟨token, ht, he⟩ := h.fresh b hm
      exact ⟨token, List.mem_cons_of_mem _ ht, he⟩
    · obtain rfl : b = a := (List.mem_cons.mp hb).resolve_right hm
      refine ⟨_, List.mem_cons_self, ?_⟩
      rw [h.others b hm, entry?_reset, if_pos rfl]

theorem renewed_foldl (addresses : List Address) (before : List (Address × Token)) (p : Prober) :
    ∃ started q, addresses.foldl
        (fun (loops, p) a => let (token, p) := p.reset a; (loops ++ [(a, token)], p))
        (before, p) = (before ++ started, q) ∧ Renewed p addresses started q := by
  induction addresses generalizing before p with
  | nil =>
    refine ⟨[], p, by rw [List.append_nil, List.foldl_nil], ?_⟩
    constructor
    · rfl
    · exact Nat.le_refl _
    · intro loop hm
      cases hm
    · intro loop hm
      cases hm
    · exact .nil
    · exact fun _ _ => rfl
    · intro a ha
      cases ha
  | cons a addresses ih =>
    obtain ⟨started, q, hs, hr⟩ := ih (before ++ [(a, p.lastToken + 1)]) (p.reset a).2
    refine ⟨(a, p.lastToken + 1) :: started, q, ?_, hr.cons⟩
    rw [List.append_cons]
    exact hs

theorem renewed_rotate {roots : TrustRoots} {started : List (Address × Token)}
    (h : p.rotate roots = (started, q)) :
    Renewed { p with roots, epoch := p.epoch + 1 } (p.entries.keys.filter (·.tls)) started q := by
  obtain ⟨all, r, hf, hr⟩ := renewed_foldl (p.entries.keys.filter (·.tls)) []
    { p with roots, epoch := p.epoch + 1 }
  rw [rotate, hf] at h
  cases h
  exact hr

/-- What holds with the new trust roots, and after each reset, holds after a rotation. -/
theorem rotate_induction {roots : TrustRoots} {motive : Prober → Prop}
    (replaced : motive { p with roots, epoch := p.epoch + 1 })
    (reset : ∀ q a, motive q → motive (Prober.reset q a).2) : motive (p.rotate roots).2 := by
  rw [rotate]
  apply List.foldlRecOn _ _ (motive := fun r : List (Address × Token) × Prober => motive r.2)
    replaced
  intro r hr a _
  exact reset r.2 a hr

theorem rotate_entry? {roots : TrustRoots} {started : List (Address × Token)}
    (h : p.rotate roots = (started, q)) (ha : a.tls = false) : q.entry? a = p.entry? a := by
  apply (renewed_rotate h).others
  intro hm
  cases ha.symm.trans (List.mem_filter.mp hm).2

/-- After a rotation nothing is known about TLS addresses, and new loops own their entries. -/
theorem rotate_tls {roots : TrustRoots} {started : List (Address × Token)} {e : ProbeEntry}
    (h : p.rotate roots = (started, q)) (ha : a.tls = true) (he : q.entry? a = some e) :
    ∃ token, p.lastToken < token ∧ e = { owner? := some token } := by
  have hr := renewed_rotate h
  by_cases hm : a ∈ p.entries.keys
  · obtain ⟨token, ht, hq⟩ := hr.fresh a (List.mem_filter.mpr ⟨hm, ha⟩)
    exact ⟨token, (hr.bounds _ ht).1, Option.some.inj (he.symm.trans hq)⟩
  · rw [hr.others a fun hf => hm (List.mem_filter.mp hf).1] at he
    exact absurd (Table.mem_keys.mpr ⟨e, he⟩) hm

end Prober

end EventRouting
