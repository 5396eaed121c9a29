import EventRouting.Proofs.Text.Utf8
import EventRouting.Readiness.Exchange
import Mathlib.Data.List.Infix

namespace EventRouting

namespace Exchange

def lineEnd : List UInt8 := [carriageReturn, lineFeed]

/-- The words of an answer, as far as it is read. -/
def wordsOf (s : List UInt8) : List (List Char) := words (Utf8.decodeLossy s).toList

/-- The word that makes an address ready. -/
def success : List Char := ['2', '0', '0']

theorem isOk_eq (s : List UInt8) : isOk s = decide ((wordsOf s)[1]? = some success) := by
  rw [Bool.eq_iff_iff, decide_eq_true_iff]
  exact beq_iff_eq

theorem words_append {c : Char} (h : Text.isBlank c = true) (s t : List Char) :
    words (s ++ c :: t) = words s ++ words t := by
  rw [words, List.splitOnP_append_cons _ _ h, List.filter_append]
  rfl

theorem wordsOf_eq (s : List UInt8) :
    wordsOf s = words ((Utf8.characters s).map (·.getD '\uFFFD')) := by
  rw [wordsOf, Utf8.decodeLossy, String.toList_ofList]

theorem wordsOf_append {b : UInt8} (hb : b.toNat < 0x80)
    (hc : Text.isBlank (.ofNat b.toNat) = true) (s t : List UInt8) :
    wordsOf (s ++ b :: t) = wordsOf s ++ wordsOf t := by
  rw [wordsOf_eq, Utf8.characters_append_ascii hb, List.map_append, List.map_cons, Option.getD_some,
    words_append hc, wordsOf_eq, wordsOf_eq]

theorem wordsOf_line (line s : List UInt8) :
    wordsOf (line ++ lineEnd ++ s) = wordsOf line ++ wordsOf s := by
  have hcr : Text.isBlank (.ofNat carriageReturn.toNat) = true := by decide
  have hlf : Text.isBlank (.ofNat lineFeed.toNat) = true := by decide
  have hs : wordsOf (lineFeed :: s) = wordsOf s := wordsOf_append (by decide) hlf [] s
  rw [List.append_assoc]
  exact (wordsOf_append (by decide) hcr line (lineFeed :: s)).trans
    (congrArg (wordsOf line ++ ·) hs)

theorem hasLine_iff {s : List UInt8} : hasLine s = true ↔ lineEnd <:+: s := by
  induction s with
  | nil => exact ⟨nofun, fun h => nomatch List.infix_nil.mp h⟩
  | cons a s ih =>
    cases s with
    | nil =>
      refine ⟨nofun, fun h => ?_⟩
      exact absurd h.length_le (Nat.not_succ_le_self 1)
    | cons b s =>
      have hp : lineEnd <+: a :: b :: s ↔ a = carriageReturn ∧ b = lineFeed := by
        rw [lineEnd, List.cons_prefix_cons, List.cons_prefix_cons, and_iff_left List.nil_prefix,
          eq_comm, @eq_comm _ lineFeed]
      rw [hasLine, Bool.or_eq_true, ih, Bool.and_eq_true, decide_eq_true_iff, decide_eq_true_iff,
        @List.infix_cons_iff _ lineEnd a, hp]

section Stream

variable {line rest response : List UInt8}

theorem hasLine_iff_of_begun (hl : ¬ lineEnd <:+: line)
    (hr : response <+: line ++ lineEnd ++ rest) :
    hasLine response = true ↔ line.length + 2 ≤ response.length := by
  rw [hasLine_iff]
  constructor
  · rintro ⟨s, t, rfl⟩
    obtain ⟨u, hu⟩ := hr
    have hle : line.length ≤ s.length := by
      rw [List.append_assoc, List.append_assoc, List.append_assoc] at hu
      rcases List.append_eq_append_iff.mp hu with ⟨between, hb, hd⟩ | ⟨between, hb, -⟩
      · match between with
        | [] => rw [hb, List.append_nil]
        | [a] =>
          -- The end of the line would begin with its own second byte.
          have hlf := congrArg (fun l : List UInt8 => l[1]?) hd
          cases hlf
        | a :: b :: between =>
          obtain ⟨ha, hd⟩ := List.cons.inj hd
          obtain ⟨hb', -⟩ := List.cons.inj hd
          refine absurd ⟨s, between, ?_⟩ hl
          rw [hb, List.append_assoc, ← ha, ← hb']
          rfl
      · rw [hb, List.length_append]
        exact Nat.le_add_right _ _
    have hlen : (s ++ lineEnd ++ t).length = s.length + 2 + t.length := by
      rw [List.length_append, List.length_append]
      rfl
    omega
  · intro hle
    have hp : line ++ lineEnd <+: response := by
      apply List.prefix_of_prefix_length_le (List.prefix_append _ rest) hr
      rw [List.length_append]
      exact hle
    exact (List.suffix_append line lineEnd).isInfix.trans hp.isInfix

theorem isEnough_iff_of_begun (hl : ¬ lineEnd <:+: line) (hmax : line.length + 2 ≤ readLimit)
    (hr : response <+: line ++ lineEnd ++ rest) :
    isEnough response = true ↔ line.length + 2 ≤ response.length := by
  rw [isEnough, Bool.or_eq_true, hasLine_iff_of_begun hl hr, decide_eq_true_iff]
  exact or_iff_left_of_imp fun h => Nat.le_trans hmax h

theorem collect_of_isEnough (h : isEnough response = true) (failing : Bool) (chunks : Chunks) :
    (collect failing response chunks).1 = some response := by
  cases chunks with
  | nil => rw [collect, if_pos h]
  | cons chunk chunks => rw [collect, if_pos h]

theorem collect_of_line (hl : ¬ lineEnd <:+: line) (hmax : line.length + 2 ≤ readLimit)
    {chunks : Chunks} (hc : ∀ chunk ∈ chunks, chunk ≠ [])
    (hs : response ++ chunks.flatten = line ++ lineEnd ++ rest)
    (hr : response.length < line.length + 2) (failing : Bool) :
    ∃ before last tail, before ++ [last] <+: chunks ∧
      (response ++ before.flatten).length < line.length + 2 ∧
      response ++ before.flatten ++ last = line ++ lineEnd ++ tail ∧
      (collect failing response chunks).1 = some (line ++ lineEnd ++ tail) := by
  induction chunks generalizing response with
  | nil =>
    rw [List.flatten_nil, List.append_nil] at hs
    rw [hs, List.length_append, List.length_append] at hr
    exact absurd hr (by simp [lineEnd])
  | cons chunk chunks ih =>
    obtain ⟨hchunk, hc⟩ := List.forall_mem_cons.mp hc
    have hbegun : response <+: line ++ lineEnd ++ rest := ⟨_, hs⟩
    have hnot : ¬ isEnough response = true := by
      rw [isEnough_iff_of_begun hl hmax hbegun]
      exact Nat.not_le_of_lt hr
    have hempty : ¬ chunk.isEmpty = true := fun h => hchunk (List.isEmpty_iff.mp h)
    rw [List.flatten_cons, ← List.append_assoc] at hs
    have hnext : (collect failing response (chunk :: chunks)).1 =
        (collect failing (response ++ chunk) chunks).1 := by
      rw [collect, if_neg hnot, if_neg hempty]
    rw [hnext]
    have hread : response ++ chunk <+: line ++ lineEnd ++ rest := ⟨_, hs⟩
    by_cases hlt : (response ++ chunk).length < line.length + 2
    · obtain ⟨before, last, tail, hb, hi, hcomplete, hcollect⟩ := ih hc hs hlt
      refine ⟨chunk :: before, last, tail, ?_, ?_, ?_, hcollect⟩
      · exact (List.prefix_cons_inj chunk).mpr hb
      · rw [List.flatten_cons, ← List.append_assoc]
        exact hi
      · rw [List.flatten_cons, ← List.append_assoc]
        exact hcomplete
    · have hline : line ++ lineEnd <+: response ++ chunk := by
        apply List.prefix_of_prefix_length_le (List.prefix_append _ rest) hread
        rw [List.length_append]
        exact Nat.le_of_not_lt hlt
      obtain ⟨tail, ht⟩ := hline
      have henough := (isEnough_iff_of_begun hl hmax hread).mpr (Nat.le_of_not_lt hlt)
      refine ⟨[], chunk, tail, ?_, ?_, ?_, ?_⟩
      · exact (List.prefix_cons_inj chunk).mpr List.nil_prefix
      · rw [List.flatten_nil, List.append_nil]
        exact hr
      · rw [List.flatten_nil, List.append_nil]
        exact ht.symm
      · rw [collect_of_isEnough henough, ht]

end Stream

/-- The read that completes the first line: what came before it, and what came along with the end of
the line. -/
structure Completes (line : List UInt8) (chunks before : Chunks) (last tail : List UInt8) :
    Prop where
  begins : before ++ [last] <+: chunks
  incomplete : before.flatten.length < line.length + 2
  complete : before.flatten ++ last = line ++ lineEnd ++ tail

theorem splitChunk_of_le {chunk : List UInt8} (h : chunk.length ≤ readSize) :
    splitChunk chunk = [chunk] := by
  rw [splitChunk, dif_pos h]

theorem flatMap_splitChunk {chunks : Chunks} (h : ∀ chunk ∈ chunks, chunk.length ≤ readSize) :
    chunks.flatMap splitChunk = chunks := by
  induction chunks with
  | nil => rfl
  | cons chunk chunks ih =>
    obtain ⟨hchunk, h⟩ := List.forall_mem_cons.mp h
    rw [List.flatMap_cons, splitChunk_of_le hchunk, ih h]
    rfl

/-- The second of the words of two texts is that of the first, unless it has too few and the other
one makes up for it. -/
theorem second_eq_iff {α : Type} (v w : List α) (x : α) :
    ((v ++ w)[1]? = some x ↔ v[1]? = some x) ↔ (v.length < 2 → w[1 - v.length]? ≠ some x) := by
  by_cases h : v.length < 2
  · rw [List.getElem?_append_right (Nat.le_of_lt_succ h),
      List.getElem?_eq_none (Nat.le_of_lt_succ h)]
    simp [h]
  · rw [List.getElem?_append_left (Nat.lt_of_not_le fun hle => h (Nat.lt_succ_of_le hle))]
    simp [h]

end Exchange

open Exchange

theorem Address.exchange_verdict (a : Address) {chunks : Chunks} {failsRead : Bool}
    {response : List UInt8} (h : ∀ chunk ∈ chunks, chunk.length ≤ readSize)
    (hc : (collect failsRead [] chunks).1 = some response) :
    (a.exchange { chunks, failsRead }).verdict = .ok (isOk response) := by
  rcases hq : collect failsRead [] chunks with ⟨response?, reads⟩
  rw [hq] at hc
  cases hc
  simp only [exchange, flatMap_splitChunk h, hq]
  rfl

/-- The verdict is about the words of the first line and of what came along with its end, whatever
reads bring an answer. -/
theorem verdict_of_first_line (a : Address) (line rest : List UInt8) (chunks : Chunks)
    (failsRead : Bool) (hline : ¬ lineEnd <:+: line) (hmax : line.length + lineEnd.length ≤ 1024)
    (hchunks : ∀ chunk ∈ chunks, chunk ≠ [] ∧ chunk.length ≤ 256)
    (hstream : chunks.flatten = line ++ lineEnd ++ rest) :
    ∃ before last tail, Completes line chunks before last tail ∧
      let verdict := (a.exchange { chunks, failsRead }).verdict
      verdict = .ok (decide ((wordsOf line ++ wordsOf tail)[1]? = some success)) ∧
      (verdict = .ok (decide ((wordsOf line)[1]? = some success)) ↔
        ((wordsOf line).length < 2 →
          (wordsOf tail)[1 - (wordsOf line).length]? ≠ some success)) := by
  have hs : [] ++ chunks.flatten = line ++ lineEnd ++ rest := hstream
  obtain ⟨before, last, tail, hbegins, hbefore, hcomplete, hcollect⟩ :=
    collect_of_line hline hmax (fun chunk hc => (hchunks chunk hc).1) hs (Nat.succ_pos _) failsRead
  refine ⟨before, last, tail, ⟨hbegins, hbefore, hcomplete⟩, ?_⟩
  intro verdict
  have hv : verdict = .ok (decide ((wordsOf line ++ wordsOf tail)[1]? = some success)) := by
    have hv := a.exchange_verdict (fun chunk hc => (hchunks chunk hc).2) hcollect
    rw [isOk_eq, wordsOf_line] at hv
    exact hv
  refine ⟨hv, ?_⟩
  rw [hv, Except.ok.injEq, decide_eq_decide]
  exact second_eq_iff _ _ _

theorem verdict_of_first_line_of_two_words :
    let a : Address := ⟨"h", 80, "/a", false⟩
    let line := Utf8.bytes "HTTP/1.1 503"
    let chunks := [Utf8.bytes "HTTP/1.1 503\r", Utf8.bytes "\n200 OK"]
    (wordsOf line).length = 2 ∧ (a.exchange { chunks }).verdict = .ok false := by
  intro a line chunks
  have hw : wordsOf line = ["HTTP/1.1".toList, "503".toList] := by decide +kernel
  obtain ⟨before, last, tail, -, -, decides⟩ := verdict_of_first_line a line (Utf8.bytes "200 OK")
    chunks false (by decide +kernel) (by decide +kernel) (by decide +kernel) (by decide +kernel)
  refine ⟨congrArg List.length hw, ?_⟩
  rw [decides.mpr fun h => absurd (hw ▸ h) (by decide), hw]
  rfl

/-- The same bytes get another verdict if the end of the first line comes on its own. -/
theorem verdict_of_second_line :
    let a : Address := ⟨"h", 80, "/a", false⟩
    let line := Utf8.bytes "HTTP/1.1"
    let rest := Utf8.bytes "200 OK\r\n"
    let whole := [line ++ lineEnd ++ rest]
    let split := [line ++ lineEnd, rest]
    (¬ lineEnd <:+: line ∧ line.length + lineEnd.length ≤ 1024 ∧
      (∀ chunk ∈ whole ++ split, chunk ≠ [] ∧ chunk.length ≤ 256)) ∧
      (wordsOf line)[1]? ≠ some success ∧
      (a.exchange { chunks := whole }).verdict = .ok true ∧
      (a.exchange { chunks := split }).verdict = .ok false := by
  intro a line rest whole split
  refine ⟨⟨?_, ?_, ?_⟩, ?_, ?_, ?_⟩
  · decide +kernel
  · decide +kernel
  · decide +kernel
  · decide +kernel
  · decide +kernel
  · decide +kernel

end EventRouting
