import EventRouting.Delivery.Watcher
import EventRouting.Proofs.Contract.Layout
import EventRouting.Proofs.Contract.RoundTrip
import EventRouting.Proofs.Json.Prompt

namespace EventRouting

open Json

theorem EgressConfig.prompt : Prompt record.read :=
  follows.prompt (List.forall_iff_forall_mem.mp ⟨prompt_option prompt_string rfl, prompt_uint32,
    prompt_variant _, prompt_uint64, prompt_option prompt_uint64 rfl⟩)

theorem Reference.prompt : Prompt record.read :=
  follows.prompt (List.forall_iff_forall_mem.mp
    ⟨prompt_string, prompt_string, prompt_string, prompt_string⟩)

theorem Ingress.prompt : Prompt record.read :=
  follows.prompt (List.forall_iff_forall_mem.mp ⟨prompt_string, prompt_option prompt_string rfl⟩)

theorem Egress.prompt : Prompt record.read :=
  follows.prompt (List.forall_iff_forall_mem.mp ⟨prompt_string, prompt_string, prompt_string,
    prompt_option prompt_string rfl, prompt_option EgressConfig.prompt rfl, prompt_variant _,
    Reference.prompt⟩)

theorem Resource.prompt : Prompt record.read :=
  follows.prompt (List.forall_iff_forall_mem.mp ⟨prompt_string, prompt_list prompt_string,
    prompt_string, prompt_option Ingress.prompt rfl, prompt_option EgressConfig.prompt rfl,
    prompt_list Egress.prompt, Reference.prompt⟩)

theorem Contract.prompt : Prompt record.read :=
  follows.prompt (List.forall_iff_forall_mem.mp ⟨prompt_uint64, prompt_list Resource.prompt⟩)

theorem Json.Derives.value_of_ends {n : Node} {s : List UInt8} (h : Derives (.element n) s)
    (hh : ∀ b ∈ s.head?, isBlank b = false) (hl : ∀ b ∈ s.getLast?, isBlank b = false) :
    Derives (.value n) s := by
  cases h with
  | @element n a u c ha h hc =>
    cases a with
    | cons b a => cases (hh b rfl).symm.trans (ha b (.head _))
    | nil =>
      rcases List.eq_nil_or_concat' c with rfl | ⟨c, b, rfl⟩
      · rwa [List.nil_append, List.append_nil]
      · have hb := hc b (List.mem_append_right _ (.head _))
        cases (hl b (by simp)).symm.trans hb

section Watchers

variable {p : Payload} {w : Watcher} {e : ContractError}

theorem Apply.step_enter_of_open (hw : w.closed = false) : (enter p).step w = (.decode p, w) := by
  rw [step, hw]
  rfl

theorem Apply.step_decode_of_error (hd : Contract.decode p = .error e) (w : Watcher) :
    (decode p).step w = (.finished .rejected, w) := by
  rw [step, hd]

theorem Watcher.onStorageChange_of_error (hd : Contract.decode p = .error e)
    (hw : w.closed = false) : w.onStorageChange p = (.rejected, w) := by
  have finished (w : Watcher) : (Apply.finished .rejected).step w = (.finished .rejected, w) := rfl
  have hs : List.range Apply.maxSteps = [0, 1, 2, 3, 4, 5, 6] := rfl
  have hr : Apply.run p w = (.finished .rejected, w) := by
    simp only [Apply.run, hs, List.foldl, Apply.step_enter_of_open hw,
      Apply.step_decode_of_error hd, finished]
  rw [onStorageChange, hr]

end Watchers

namespace Contract

variable {n : Node} {p s : Payload} {c : Contract}

/-- What is missing is the end, wherever the text of a contract is cut off. -/
theorem decode_cut (h : Derives (.value n) s) (hr : record.read n = .ok c) (hp : p <+: s)
    (hs : p ≠ s) (hn : p ≠ []) : decode p = .error (.decode (.fault .ended)) := by
  have hk : ∀ k, n ≠ .scalar (.number k) := by
    rintro k rfl
    cases hr
  obtain ⟨n', hc, hd⟩ := read_part h hk hp hs
  obtain ⟨b, t, rfl, hb⟩ : ∃ b t, s = b :: t ∧ isFileSpace b = false := by
    cases h with
    | emptyArray | array | emptyObject | object => exact ⟨_, _, rfl, rfl⟩
    | _ => cases hr
  obtain ⟨q, rfl, -⟩ := (List.prefix_cons_iff.mp hp).resolve_left hn
  rw [decode, List.all_cons, hb, Bool.false_and, if_neg Bool.false_ne_true, Json.decode, hd]
  change Except.mapError _ (record.read n' >>= _) = _
  rw [prompt.cut hc hr]
  rfl

theorem encode_value (c : Contract) : Derives (.value c.toValue.node) c.encode := by
  have ht : Text c.toValue.node c.encode :=
    text_iff.mpr ⟨read_render c.toValue_natural rfl, fits.faultless c.read_toValue⟩
  have hh : c.encode.head? = some 0x7B := rfl
  have hl : c.encode.getLast? = some 0x7D := List.getLast?_concat
  refine ht.value_of_ends ?_ ?_
  · rw [hh]
    rintro _ ⟨⟩
    rfl
  · rw [hl]
    rintro _ ⟨⟩
    rfl

/-- A payload that was not written to the end is refused, and watchers stay as they are. -/
theorem truncated_rejected (c : Contract) (hp : p <+: c.encode) (hn : p ≠ c.encode) :
    decode p = .error (if p = [] then .emptyPayload else .decode (.fault .ended)) ∧
      ∀ w : Watcher, w.closed = false → w.onStorageChange p = (.rejected, w) ∧
        (Apply.enter p).step w = (.decode p, w) ∧
          ∀ w', (Apply.decode p).step w' = (.finished .rejected, w') := by
  have hd : decode p = .error (if p = [] then .emptyPayload else .decode (.fault .ended)) := by
    split_ifs with he
    · rw [he]
      rfl
    · exact decode_cut c.encode_value c.read_toValue hp hn he
  exact ⟨hd, fun w hw => ⟨Watcher.onStorageChange_of_error hd hw, Apply.step_enter_of_open hw,
    Apply.step_decode_of_error hd⟩⟩

/-- Part of a number looks like a smaller one. -/
theorem truncated_generation_rejected :
    let p := Utf8.bytes "\x7b\"generation\":1"
    p <+: encode ⟨12, []⟩ ∧ decode p = .error (.decode (.fault .ended)) ∧
      Watcher.onStorageChange { last? := some 0 } p = (.rejected, { last? := some 0 }) := by
  intro p
  have hp : p <+: encode ⟨12, []⟩ := by decide +kernel
  obtain ⟨hd, hw⟩ := truncated_rejected ⟨12, []⟩ hp (by decide +kernel)
  exact ⟨hp, hd, (hw { last? := some 0 } rfl).1⟩

end Contract

end EventRouting
