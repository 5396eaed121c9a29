import EventRouting.Manifest.Validation
import Mathlib.Data.List.TakeDrop
import Mathlib.Data.List.TakeWhile
import Mathlib.Data.Nat.Digits.Defs

namespace EventRouting

/-- `core` is what is left of a text without the blanks at its ends. -/
structure Trims (s core : List Char) : Prop where
  around : ∃ before after, s = before ++ (core ++ after) ∧
    (∀ c ∈ before, Text.isBlank c = true) ∧ ∀ c ∈ after, Text.isBlank c = true
  first : ∀ c ∈ core.head?, Text.isBlank c = false
  last : ∀ c ∈ core.getLast?, Text.isBlank c = false

/-- The decimal digits of a number of 16 bits. -/
structure IsPortNumber (s : List Char) : Prop where
  nonempty : s ≠ []
  digits : ∀ c ∈ s, c.isDigit = true
  bound : Nat.ofDigits 10 (s.reverse.map fun c => c.toNat - '0'.toNat) ≤ 65535

/-- A number with or without a plus sign. -/
def MaySignPort (s : List Char) : Prop :=
  IsPortNumber s ∨ ∃ digits, s = '+' :: digits ∧ IsPortNumber digits

/-- A host, the last colon, and a port. -/
def IsServer (port : List Char → Prop) (s : List Char) : Prop :=
  ∃ host p, s = host ++ ':' :: p ∧ ':' ∉ p ∧ host ≠ [] ∧ port p

/-- Servers between commas, with blanks around each of them. -/
def AreServers (port : List Char → Prop) (s : String) : Prop :=
  s ≠ "" ∧ ∀ part ∈ s.toList.splitOn ',', ∃ core, Trims part core ∧ IsServer port core

/-- The port of one of the servers has a plus sign. -/
def HasSignedPort (s : String) : Prop :=
  ∃ part ∈ s.toList.splitOn ',', ∃ host digits,
    Trims part (host ++ ':' :: '+' :: digits) ∧ IsPortNumber digits

section Trim

variable {p : Char → Bool} {s core : List Char}

theorem dropWhile_of_head (h : ∀ c ∈ s.head?, p c = false) : s.dropWhile p = s := by
  cases s with
  | nil => rfl
  | cons c s => exact List.dropWhile_cons_of_neg (Bool.eq_false_iff.mp (h c rfl))

theorem head_dropWhile (p : Char → Bool) (s : List Char) :
    ∀ c ∈ (s.dropWhile p).head?, p c = false := by
  intro c hc
  have h := List.head?_dropWhile_not p s
  rw [hc] at h
  exact h

theorem reverse_dropWhile_append (p : Char → Bool) (s : List Char) :
    (s.reverse.dropWhile p).reverse ++ (s.reverse.takeWhile p).reverse = s := by
  rw [← List.reverse_append, List.takeWhile_append_dropWhile, List.reverse_reverse]

theorem trims_trim (s : List Char) : Trims s (trim s) := by
  have hs := List.takeWhile_append_dropWhile (p := Text.isBlank) (l := s)
  have he := reverse_dropWhile_append Text.isBlank (s.dropWhile Text.isBlank)
  constructor
  · refine ⟨s.takeWhile Text.isBlank,
      ((s.dropWhile Text.isBlank).reverse.takeWhile Text.isBlank).reverse, ?_, ?_, ?_⟩
    · rw [trim, he, hs]
    · intro c hc
      exact List.mem_takeWhile_imp hc
    · intro c hc
      exact List.mem_takeWhile_imp (List.mem_reverse.mp hc)
  · intro c hc
    apply head_dropWhile Text.isBlank s c
    rw [trim] at hc
    rw [← he, List.head?_append, hc]
    rfl
  · intro c hc
    apply head_dropWhile Text.isBlank (s.dropWhile Text.isBlank).reverse c
    rw [trim, List.getLast?_reverse] at hc
    exact hc

theorem trims_iff : Trims s core ↔ core = trim s := by
  constructor
  · rintro ⟨⟨before, after, rfl, hb, ha⟩, hf, hl⟩
    have ha' : ∀ c ∈ after.reverse, Text.isBlank c = true :=
      fun c hc => ha c (List.mem_reverse.mp hc)
    have hl' : core.reverse.dropWhile Text.isBlank = core.reverse := by
      apply dropWhile_of_head
      rw [List.head?_reverse]
      exact hl
    rw [trim, List.dropWhile_append_of_pos hb]
    cases core with
    | nil =>
      rw [List.nil_append, List.dropWhile_eq_nil_iff.mpr ha]
      rfl
    | cons c core =>
      have hc : (c :: core ++ after).dropWhile Text.isBlank = c :: core ++ after :=
        dropWhile_of_head hf
      rw [hc, List.reverse_append, List.dropWhile_append_of_pos ha', hl', List.reverse_reverse]
  · rintro rfl
    exact trims_trim s

end Trim

theorem splitLastColon?_eq_some_iff {s host port : List Char} :
    splitLastColon? s = some (host, port) ↔ s = host ++ ':' :: port ∧ ':' ∉ port := by
  rw [splitLastColon?, List.span_eq_takeWhile_dropWhile]
  constructor
  · intro h
    have hs := reverse_dropWhile_append (fun c => decide (c ≠ ':')) s
    have hn : ':' ∉ s.reverse.takeWhile fun c => decide (c ≠ ':') := by
      intro hm
      exact absurd (List.mem_takeWhile_imp hm) (by decide)
    cases hd : s.reverse.dropWhile fun c => decide (c ≠ ':') with
    | nil =>
      rw [hd] at h
      cases h
    | cons c rest =>
      have hc := head_dropWhile (fun c => decide (c ≠ ':')) s.reverse c (by rw [hd]; rfl)
      obtain rfl : c = ':' := by simpa using hc
      rw [hd] at h hs
      cases h
      constructor
      · rw [List.reverse_cons, List.append_assoc] at hs
        exact hs.symm
      · rw [List.mem_reverse]
        exact hn
  · rintro ⟨rfl, hp⟩
    have hr : (host ++ ':' :: port).reverse = port.reverse ++ ':' :: host.reverse := by simp
    have hport : ∀ c ∈ port.reverse, decide (c ≠ ':') = true := by
      intro c hc
      apply decide_eq_true
      rintro rfl
      exact hp (List.mem_reverse.mp hc)
    rw [hr, List.takeWhile_append_of_pos hport, List.dropWhile_append_of_pos hport]
    simp

theorem foldl_digits (s : List Char) :
    s.foldl (fun n c => 10 * n + (c.toNat - '0'.toNat)) 0 =
      Nat.ofDigits 10 (s.reverse.map fun c => c.toNat - '0'.toNat) := by
  rw [List.foldl_eq_foldr_reverse, Nat.ofDigits_eq_foldr, List.foldr_map]
  simp [Nat.add_comm]

theorem isPortNumber_iff {s : List Char} : IsPortNumber s ↔
    (!s.isEmpty && s.all Char.isDigit &&
      s.foldl (fun n c => 10 * n + (c.toNat - '0'.toNat)) 0 < 65536) = true := by
  rw [foldl_digits]
  simp only [Bool.and_eq_true, List.all_eq_true, decide_eq_true_iff, Bool.not_eq_true',
    List.isEmpty_eq_false_iff]
  constructor
  · rintro ⟨hne, hd, hb⟩
    exact ⟨⟨hne, hd⟩, Nat.lt_succ_of_le hb⟩
  · rintro ⟨⟨hne, hd⟩, hb⟩
    exact ⟨hne, hd, Nat.le_of_lt_succ hb⟩

theorem not_isPortNumber_of_sign {digits : List Char} : ¬IsPortNumber ('+' :: digits) :=
  fun h => absurd (h.digits '+' List.mem_cons_self) (by decide)

theorem isPort_iff {s : List Char} : isPort s = true ↔ MaySignPort s := by
  unfold isPort
  split
  next digits =>
    rw [← isPortNumber_iff]
    constructor
    · intro h
      exact .inr ⟨digits, rfl, h⟩
    · rintro (h | ⟨digits', hd, h⟩)
      · exact absurd h not_isPortNumber_of_sign
      · obtain rfl := (List.cons.inj hd).2
        exact h
  next hs =>
    rw [← isPortNumber_iff]
    constructor
    · exact .inl
    · rintro (h | ⟨digits, rfl, -⟩)
      · exact h
      · exact absurd rfl (hs digits)

theorem exists_server_iff {port : List Char → Prop} {part : List Char} :
    (∃ core, Trims part core ∧ IsServer port core) ↔
      ∃ host p, splitLastColon? (trim part) = some (host, p) ∧ host ≠ [] ∧ port p := by
  simp only [trims_iff, exists_eq_left, IsServer, splitLastColon?_eq_some_iff, and_assoc]

theorem isHostPort_iff {part : List Char} : isHostPort part = true ↔
    ∃ core, Trims part core ∧ IsServer MaySignPort core := by
  rw [exists_server_iff, isHostPort]
  cases splitLastColon? (trim part) with
  | none => simp
  | some found =>
    obtain ⟨host, p⟩ := found
    simp [isPort_iff]

theorem checkBootstrapServers_iff {s : String} :
    checkBootstrapServers s = none ↔ AreServers MaySignPort s := by
  have hparts : (!s.isEmpty && (splitCommas s.toList).all isHostPort) = true ↔
      AreServers MaySignPort s := by
    rw [Bool.and_eq_true, Bool.not_eq_true', String.isEmpty_eq_false_iff, List.all_eq_true]
    simp only [isHostPort_iff]
    rfl
  rw [checkBootstrapServers]
  split
  next h => exact iff_of_true rfl (hparts.mp h)
  next h => exact iff_of_false nofun fun hs => h (hparts.mpr hs)

/-- A server has one port only, and a number has no sign. -/
theorem not_areServers_of_sign {s : String} (h : HasSignedPort s) : ¬AreServers IsPortNumber s := by
  rintro ⟨-, hs⟩
  obtain ⟨part, hm, host, digits, ht, hd⟩ := h
  obtain ⟨host', p, hp, -, hport⟩ := exists_server_iff.mp (hs part hm)
  have hn : ':' ∉ '+' :: digits := by
    rw [List.mem_cons, not_or]
    constructor
    · decide
    · intro hc
      exact absurd (hd.digits ':' hc) (by decide)
  have hsplit : splitLastColon? (trim part) = some (host, '+' :: digits) :=
    splitLastColon?_eq_some_iff.mpr ⟨(trims_iff.mp ht).symm, hn⟩
  cases hsplit.symm.trans hp
  exact not_isPortNumber_of_sign hport

theorem areServers_of_unsigned {s : String} (h : AreServers MaySignPort s) (hn : ¬HasSignedPort s) :
    AreServers IsPortNumber s := by
  refine ⟨h.1, ?_⟩
  intro part hm
  obtain ⟨core, ht, host, p, rfl, hp, hh, hport | ⟨digits, rfl, hd⟩⟩ := h.2 part hm
  · exact ⟨_, ht, host, p, rfl, hp, hh, hport⟩
  · exact absurd ⟨part, hm, host, digits, ht, hd⟩ hn

theorem AreServers.maySign {s : String} (h : AreServers IsPortNumber s) :
    AreServers MaySignPort s := by
  refine ⟨h.1, ?_⟩
  intro part hm
  obtain ⟨core, ht, host, p, he, hp, hh, hport⟩ := h.2 part hm
  exact ⟨core, ht, host, p, he, hp, hh, .inl hport⟩

/-- Each server is a host, a colon and a port, which is a number of 16 bits that may have a plus
sign. -/
theorem bootstrap_servers_iff (s : String) :
    (checkBootstrapServers s = none ↔ AreServers MaySignPort s) ∧
    (AreServers IsPortNumber s ↔ checkBootstrapServers s = none ∧ ¬HasSignedPort s) := by
  rw [checkBootstrapServers_iff]
  constructor
  · rfl
  · constructor
    · intro h
      exact ⟨h.maySign, fun hs => not_areServers_of_sign hs h⟩
    · rintro ⟨ha, hn⟩
      exact areServers_of_unsigned ha hn

/-- A port with a plus sign is no number, but it is accepted. -/
theorem signed_port_accepted :
    checkBootstrapServers "kafka:+9092" = none ∧ ¬AreServers IsPortNumber "kafka:+9092" := by
  have hs : HasSignedPort "kafka:+9092" := by
    refine ⟨"kafka:+9092".toList, by decide +kernel, "kafka".toList, "9092".toList, ?_, ?_⟩
    · exact trims_iff.mpr (by decide +kernel)
    · exact isPortNumber_iff.mpr (by decide +kernel)
  constructor
  · decide +kernel
  · exact not_areServers_of_sign hs

end EventRouting
