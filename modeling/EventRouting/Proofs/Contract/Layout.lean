import EventRouting.Contract.Codec
import EventRouting.Proofs.Json.Layout
import EventRouting.Proofs.Json.Spacing
import Mathlib.Data.List.Basic
import Mathlib.Logic.Relation

namespace EventRouting

open Json

namespace EgressConfig

def slots : List (Slot Draft) := [
  ⟨"deadLetter", Node.readOption Node.readString, Draft.deadLetter?,
    fun d a => { d with deadLetter? := a }, some none, .plain⟩,
  ⟨"retry", Node.readUInt32, Draft.retry?, fun d a => { d with retry? := a }, some 0, .plain⟩,
  ⟨"backoffPolicy", Node.readVariant BackoffPolicy.variants, Draft.backoffPolicy?,
    fun d a => { d with backoffPolicy? := a }, some .exponential, .plain⟩,
  ⟨"backoffDelayMs", Node.readUInt64, Draft.backoffDelay?,
    fun d a => { d with backoffDelay? := a }, some 0, .plain⟩,
  ⟨"timeoutMs", Node.readOption Node.readUInt64, Draft.timeout?,
    fun d a => { d with timeout? := a }, some none, .plain⟩]

def layout : Layout := .ofSlots slots

theorem follows : record.Follows slots where
  nodup := by decide
  put_slot := List.forall_iff_forall_mem.mp ⟨fun _ _ => rfl, fun _ _ => rfl, fun _ _ => rfl,
    fun _ _ => rfl, fun _ _ => rfl⟩
  put_other name h d n := by
    change Draft.put d name n = _
    unfold Draft.put
    split
    case h_6 => rfl
    all_goals exact absurd (by decide) h
  get_set := List.forall_iff_forall_mem.mp ⟨fun _ _ => rfl, fun _ _ => rfl, fun _ _ => rfl,
    fun _ _ => rfl, fun _ _ => rfl⟩
  apart := by
    change List.Pairwise Slot.Apart (slots : List (Slot Draft))
    simp [slots, Slot.Apart]
  ext d d' h := by
    obtain ⟨h1, h2, h3, h4, h5⟩ := List.forall_iff_forall_mem.mpr h
    cases d
    cases d'
    congr
  finish_default := List.forall_iff_forall_mem.mp ⟨fun _ => rfl, fun _ => rfl, fun _ => rfl,
    fun _ => rfl, fun _ => rfl⟩
  elements := ⟨"", takes_fieldD rfl fun _ => takes_fieldD rfl fun _ => takes_fieldD rfl fun _ =>
    takes_fieldD rfl fun _ => takes_fieldD rfl fun _ => takes_pure _ _⟩

theorem fits : Fits record.read layout :=
  follows.fits (List.forall_iff_forall_mem.mp ⟨fits_option fits_string, fits_uint32, fits_variant _,
    fits_uint64, fits_option fits_uint64⟩)

end EgressConfig

namespace Reference

def slots : List (Slot Draft) := [
  ⟨"uuid", Node.readString, Draft.uuid?, fun d a => { d with uuid? := a }, some "", .plain⟩,
  ⟨"namespace", Node.readString, Draft.ns?, fun d a => { d with ns? := a }, some "", .plain⟩,
  ⟨"name", Node.readString, Draft.name?, fun d a => { d with name? := a }, some "", .plain⟩,
  ⟨"kind", Node.readString, Draft.kind?, fun d a => { d with kind? := a }, some "", .plain⟩]

def layout : Layout := .ofSlots slots

theorem follows : record.Follows slots where
  nodup := by decide
  put_slot := List.forall_iff_forall_mem.mp ⟨fun _ _ => rfl, fun _ _ => rfl, fun _ _ => rfl,
    fun _ _ => rfl⟩
  put_other name h d n := by
    change Draft.put d name n = _
    unfold Draft.put
    split
    case h_5 => rfl
    all_goals exact absurd (by decide) h
  get_set := List.forall_iff_forall_mem.mp ⟨fun _ _ => rfl, fun _ _ => rfl, fun _ _ => rfl,
    fun _ _ => rfl⟩
  apart := by
    change List.Pairwise Slot.Apart (slots : List (Slot Draft))
    simp [slots, Slot.Apart]
  ext d d' h := by
    obtain ⟨h1, h2, h3, h4⟩ := List.forall_iff_forall_mem.mpr h
    cases d
    cases d'
    congr
  finish_default := List.forall_iff_forall_mem.mp ⟨fun _ => rfl, fun _ => rfl, fun _ => rfl,
    fun _ => rfl⟩
  elements := ⟨"", takes_fieldD rfl fun _ => takes_fieldD rfl fun _ => takes_fieldD rfl fun _ =>
    takes_fieldD rfl fun _ => takes_pure _ _⟩

theorem fits : Fits record.read layout :=
  follows.fits (List.forall_iff_forall_mem.mp ⟨fits_string, fits_string, fits_string, fits_string⟩)

end Reference

namespace Ingress

def slots : List (Slot Draft) := [
  ⟨"path", Node.readString, Draft.path?, fun d a => { d with path? := a }, some "", .plain⟩,
  ⟨"host", Node.readOption Node.readString, Draft.host?,
    fun d a => { d with host? := a }, some none, .plain⟩]

def layout : Layout := .ofSlots slots

theorem follows : record.Follows slots where
  nodup := by decide
  put_slot := List.forall_iff_forall_mem.mp ⟨fun _ _ => rfl, fun _ _ => rfl⟩
  put_other name h d n := by
    change Draft.put d name n = _
    unfold Draft.put
    split
    case h_3 => rfl
    all_goals exact absurd (by decide) h
  get_set := List.forall_iff_forall_mem.mp ⟨fun _ _ => rfl, fun _ _ => rfl⟩
  apart := by
    change List.Pairwise Slot.Apart (slots : List (Slot Draft))
    simp [slots, Slot.Apart]
  ext d d' h := by
    obtain ⟨h1, h2⟩ := List.forall_iff_forall_mem.mpr h
    cases d
    cases d'
    congr
  finish_default := List.forall_iff_forall_mem.mp ⟨fun _ => rfl, fun _ => rfl⟩
  elements := ⟨"", takes_fieldD rfl fun _ => takes_fieldD rfl fun _ => takes_pure _ _⟩

theorem fits : Fits record.read layout :=
  follows.fits (List.forall_iff_forall_mem.mp ⟨fits_string, fits_option fits_string⟩)

end Ingress

namespace Egress

def slots : List (Slot Draft) := [
  ⟨"uid", Node.readString, Draft.uid?, fun d a => { d with uid? := a }, none, .plain⟩,
  ⟨"consumerGroup", Node.readString, Draft.consumerGroup?,
    fun d a => { d with consumerGroup? := a }, none, .plain⟩,
  ⟨"destination", Node.readString, Draft.destination?,
    fun d a => { d with destination? := a }, none, .plain⟩,
  ⟨"replyUrl", Node.readOption Node.readString, Draft.replyUrl?,
    fun d a => { d with replyUrl? := a }, some none, .plain⟩,
  ⟨"egressConfig", Node.readOption EgressConfig.record.read, Draft.config?,
    fun d a => { d with config? := a }, some none, EgressConfig.layout⟩,
  ⟨"deliveryOrder", Node.readVariant DeliveryOrder.variants, Draft.deliveryOrder?,
    fun d a => { d with deliveryOrder? := a }, some .unordered, .plain⟩,
  ⟨"reference", Reference.record.read, Draft.reference?,
    fun d a => { d with reference? := a }, some {}, Reference.layout⟩]

def layout : Layout := .ofSlots slots

theorem follows : record.Follows slots where
  nodup := by decide
  put_slot := List.forall_iff_forall_mem.mp ⟨fun _ _ => rfl, fun _ _ => rfl, fun _ _ => rfl,
    fun _ _ => rfl, fun _ _ => rfl, fun _ _ => rfl, fun _ _ => rfl⟩
  put_other name h d n := by
    change Draft.put d name n = _
    unfold Draft.put
    split
    case h_8 => rfl
    all_goals exact absurd (by decide) h
  get_set := List.forall_iff_forall_mem.mp ⟨fun _ _ => rfl, fun _ _ => rfl, fun _ _ => rfl,
    fun _ _ => rfl, fun _ _ => rfl, fun _ _ => rfl, fun _ _ => rfl⟩
  apart := by
    change List.Pairwise Slot.Apart (slots : List (Slot Draft))
    simp [slots, Slot.Apart]
  ext d d' h := by
    obtain ⟨h1, h2, h3, h4, h5, h6, h7⟩ := List.forall_iff_forall_mem.mpr h
    cases d
    cases d'
    congr
  finish_default := List.forall_iff_forall_mem.mp ⟨fun _ => rfl, fun _ => rfl, fun _ => rfl,
    fun _ => rfl, fun _ => rfl, fun _ => rfl, fun _ => rfl⟩
  elements := ⟨_, takes_field rfl fun _ => takes_field rfl fun _ => takes_field rfl fun _ =>
    takes_fieldD rfl fun _ => takes_fieldD rfl fun _ => takes_fieldD rfl fun _ =>
    takes_fieldD rfl fun _ => takes_pure _ _⟩

theorem fits : Fits record.read layout :=
  follows.fits (List.forall_iff_forall_mem.mp ⟨fits_string, fits_string, fits_string,
    fits_option fits_string, fits_option EgressConfig.fits, fits_variant _, Reference.fits⟩)

end Egress

namespace Resource

def slots : List (Slot Draft) := [
  ⟨"uid", Node.readString, Draft.uid?, fun d a => { d with uid? := a }, none, .plain⟩,
  ⟨"topics", Node.readList Node.readString, Draft.topics?,
    fun d a => { d with topics? := a }, some [], .list .plain⟩,
  ⟨"bootstrapServers", Node.readString, Draft.bootstrapServers?,
    fun d a => { d with bootstrapServers? := a }, some "", .plain⟩,
  ⟨"ingress", Node.readOption Ingress.record.read, Draft.ingress?,
    fun d a => { d with ingress? := a }, some none, Ingress.layout⟩,
  ⟨"egressConfig", Node.readOption EgressConfig.record.read, Draft.egressConfig?,
    fun d a => { d with egressConfig? := a }, some none, EgressConfig.layout⟩,
  ⟨"egresses", Node.readList Egress.record.read, Draft.egresses?,
    fun d a => { d with egresses? := a }, some [], .list Egress.layout⟩,
  ⟨"reference", Reference.record.read, Draft.reference?,
    fun d a => { d with reference? := a }, some {}, Reference.layout⟩]

def layout : Layout := .ofSlots slots

theorem follows : record.Follows slots where
  nodup := by decide
  put_slot := List.forall_iff_forall_mem.mp ⟨fun _ _ => rfl, fun _ _ => rfl, fun _ _ => rfl,
    fun _ _ => rfl, fun _ _ => rfl, fun _ _ => rfl, fun _ _ => rfl⟩
  put_other name h d n := by
    change Draft.put d name n = _
    unfold Draft.put
    split
    case h_8 => rfl
    all_goals exact absurd (by decide) h
  get_set := List.forall_iff_forall_mem.mp ⟨fun _ _ => rfl, fun _ _ => rfl, fun _ _ => rfl,
    fun _ _ => rfl, fun _ _ => rfl, fun _ _ => rfl, fun _ _ => rfl⟩
  apart := by
    change List.Pairwise Slot.Apart (slots : List (Slot Draft))
    simp [slots, Slot.Apart]
  ext d d' h := by
    obtain ⟨h1, h2, h3, h4, h5, h6, h7⟩ := List.forall_iff_forall_mem.mpr h
    cases d
    cases d'
    congr
  finish_default := List.forall_iff_forall_mem.mp ⟨fun _ => rfl, fun _ => rfl, fun _ => rfl,
    fun _ => rfl, fun _ => rfl, fun _ => rfl, fun _ => rfl⟩
  elements := ⟨_, takes_field rfl fun _ => takes_fieldD rfl fun _ => takes_fieldD rfl fun _ =>
    takes_fieldD rfl fun _ => takes_fieldD rfl fun _ => takes_fieldD rfl fun _ =>
    takes_fieldD rfl fun _ => takes_pure _ _⟩

theorem fits : Fits record.read layout :=
  follows.fits (List.forall_iff_forall_mem.mp ⟨fits_string, fits_list fits_string, fits_string,
    fits_option Ingress.fits, fits_option EgressConfig.fits, fits_list Egress.fits, Reference.fits⟩)

end Resource

namespace Contract

def slots : List (Slot Draft) := [
  ⟨"generation", Node.readUInt64, Draft.generation?,
    fun d a => { d with generation? := a }, some 0, .plain⟩,
  ⟨"resources", Node.readList Resource.record.read, Draft.resources?,
    fun d a => { d with resources? := a }, some [], .list Resource.layout⟩]

def layout : Layout := .ofSlots slots

theorem follows : record.Follows slots where
  nodup := by decide
  put_slot := List.forall_iff_forall_mem.mp ⟨fun _ _ => rfl, fun _ _ => rfl⟩
  put_other name h d n := by
    change Draft.put d name n = _
    unfold Draft.put
    split
    case h_3 => rfl
    all_goals exact absurd (by decide) h
  get_set := List.forall_iff_forall_mem.mp ⟨fun _ _ => rfl, fun _ _ => rfl⟩
  apart := by
    change List.Pairwise Slot.Apart (slots : List (Slot Draft))
    simp [slots, Slot.Apart]
  ext d d' h := by
    obtain ⟨h1, h2⟩ := List.forall_iff_forall_mem.mpr h
    cases d
    cases d'
    congr
  finish_default := List.forall_iff_forall_mem.mp ⟨fun _ => rfl, fun _ => rfl⟩
  elements := ⟨"", takes_fieldD rfl fun _ => takes_fieldD rfl fun _ => takes_pure _ _⟩

theorem fits : Fits record.read layout :=
  follows.fits (List.forall_iff_forall_mem.mp ⟨fits_uint64, fits_list Resource.fits⟩)

end Contract

namespace Json

variable {n : Node} {s : List UInt8}

theorem isFileSpace_digit : ∀ d < 10, isFileSpace (.ofNat (0x30 + d)) = false := by
  decide

theorem DigitsText.exists_not_space {l : List Nat} (h : DigitsText l s) :
    ∃ b ∈ s, isFileSpace b = false := by
  have digit {b : UInt8} {d : Nat} (hb : digit? b = some d) : isFileSpace b = false := by
    obtain ⟨hd, rfl⟩ := digit?_eq_some hb
    exact isFileSpace_digit d hd
  cases h with
  | one hb => exact ⟨_, .head _, digit hb⟩
  | more _ hb => exact ⟨_, List.mem_append_right _ (.head _), digit hb⟩

theorem WholeText.exists_not_space {l : List Nat} (h : WholeText l s) :
    ∃ b ∈ s, isFileSpace b = false := by
  cases h with
  | zero => exact ⟨0x30, .head _, rfl⟩
  | digits _ h => exact h.exists_not_space

theorem NumberText.exists_not_space {l : Literal} (h : NumberText l s) :
    ∃ b ∈ s, isFileSpace b = false := by
  obtain ⟨-, hw, -, -⟩ := h
  obtain ⟨b, hb, hs⟩ := hw.exists_not_space
  exact ⟨b, List.mem_append_left _ (List.mem_append_left _ (List.mem_append_right _ hb)), hs⟩

theorem Derives.exists_not_space (h : Derives (.value n) s) : ∃ b ∈ s, isFileSpace b = false := by
  cases h with
  | number h => exact h.exists_not_space
  | string h =>
    cases h
    exact ⟨_, .head _, rfl⟩
  | _ => exact ⟨_, .head _, rfl⟩

theorem Text.not_space (h : Text n s) : s.all isFileSpace = false := by
  cases h with
  | element _ h _ =>
    obtain ⟨b, hb, hf⟩ := h.exists_not_space
    refine List.all_eq_false.mpr ⟨b, List.mem_append_right _ (List.mem_append_left _ hb), ?_⟩
    rw [hf]
    exact nofun

end Json

namespace Contract

variable {n : Node} {p : Payload} {c : Contract}

theorem decode_text (h : Text n p) : decode p = (record.read n).mapError .decode := by
  rw [decode, h.not_space, if_neg Bool.false_ne_true, Json.decode, read_text h]
  cases record.read n <;> rfl

theorem text_of_decode (h : decode p = .ok c) : ∃ n, Text n p ∧ record.read n = .ok c := by
  rw [decode] at h
  split_ifs at h
  cases hd : Json.decode record.read p with
  | error e =>
    rw [hd] at h
    cases h
  | ok c' =>
    rw [hd] at h
    cases h
    obtain ⟨c', hr, hd⟩ := ok_of_bind hd
    cases ht : (Json.read p).trailing with
    | true =>
      rw [ht] at hd
      cases hd
    | false =>
      rw [ht] at hd
      cases hd
      exact ⟨_, text_iff.mpr ⟨by rw [← ht], fits.faultless hr⟩, hr⟩

/-- Members that nobody knows, the order of members, blanks between the tokens and defaults that are
written out make no difference. -/
theorem decode_edited (hp : decode p = .ok c) :
    (∃ n tokens, (∀ t ∈ tokens, Token t) ∧ Spaced tokens p ∧
      ∀ q, Spaced tokens q → Text n q) ∧
      ∀ n n' q, Text n p → Relation.ReflTransGen (Edit layout) n n' → Text n' q →
        decode q = .ok c := by
  obtain ⟨m, hm, hr⟩ := text_of_decode hp
  refine ⟨⟨m, hm.spaced⟩, fun n n' q hn he hq => ?_⟩
  obtain rfl := hm.unique hn
  have hr' : record.read n' = .ok c := by
    clear hq
    induction he with
    | refl => exact hr
    | tail _ he ih => exact fits.edit he ih
  rw [decode_text hq, hr']
  rfl

theorem decode_edited_members :
    let p := Utf8.bytes
      "\x7b\"generation\":7,\"resources\":[\x7b\"uid\":\"a\",\"topics\":[]\x7d]\x7d"
    let q := Utf8.bytes
      "\x7b\"resources\": [\x7b\"uid\":\"a\",\"rack\":[\x7b\x7d]\x7d], \"generation\":7\x7d"
    decode p = .ok ⟨7, [{ uid := "a" }]⟩ ∧ decode q = .ok ⟨7, [{ uid := "a" }]⟩ := by
  intro p q
  let rack : Node := .array [.object [] .closed] none
  let resource (members : List (Spelling × Node)) : Spelling × Node :=
    (spelling "resources",
      .array [.object ((spelling "uid", .string (spelling "a")) :: members) .closed] none)
  let generation : Spelling × Node := (spelling "generation", .scalar (.number (.integer 7)))
  have hp : decode p = .ok ⟨7, [{ uid := "a" }]⟩ := by decide +kernel
  have hn : Text (.object [generation, resource [(spelling "topics", .array [] none)]] .closed) p :=
    text_iff.mpr ⟨rfl, rfl⟩
  have hm : Text (.object [resource [(spelling "rack", rack)], generation] .closed) q :=
    text_iff.mpr ⟨rfl, rfl⟩
  have inside {l l' : List (Spelling × Node)} {after : List (Spelling × Node)}
      (h : Edit Resource.layout (.object ((spelling "uid", .string (spelling "a")) :: l) .closed)
        (.object ((spelling "uid", .string (spelling "a")) :: l') .closed)) :
      Edit layout (.object (resource l :: after) .closed)
        (.object (resource l' :: after) .closed) :=
    @Edit.value _ _ _ _ _ [] _ (.tail _ (.head _)) rfl (@Edit.item _ _ _ [] [] h)
  have reorder : Edit layout
      (.object [generation, resource [(spelling "topics", .array [] none)]] .closed)
      (.object [resource [(spelling "topics", .array [] none)], generation] .closed) :=
    .reorder (.swap _ _ _)
  have drop : Edit layout
      (.object [resource [(spelling "topics", .array [] none)], generation] .closed)
      (.object [resource [], generation] .closed) :=
    inside (@Edit.drop _ _ _ _ [_] [] (.tail _ (.head _)) rfl ⟨[], rfl, rfl⟩)
  have insert : Edit layout (.object [resource [], generation] .closed)
      (.object [resource [(spelling "rack", rack)], generation] .closed) :=
    inside (@Edit.insert _ _ "rack" _ (Utf8.bytes "[\x7b\x7d]") [_] [] rfl (by decide)
      (text_iff.mpr ⟨rfl, rfl⟩))
  exact ⟨hp, (decode_edited hp).2 _ _ q hn (.tail (.tail (.single reorder) drop) insert) hm⟩

/-- A name that spells no text is refused, though it is none of the fields. -/
theorem decode_unpaired_surrogate :
    let p := Utf8.bytes "\x7b\"generation\":1\x7d"
    let q := Utf8.bytes "\x7b\"generation\":1,\"\\ud800\":0\x7d"
    let number (i : Int) : Node := .scalar (.number (.integer i))
    let name : Spelling := ⟨[.unit 0xD800], none⟩
    decode p = .ok ⟨1, []⟩ ∧ Text (.object [(spelling "generation", number 1)] .closed) p ∧
      Text (.object [(spelling "generation", number 1), (name, number 0)] .closed) q ∧
      (∀ f ∈ slots, name.decode ≠ .ok f.name) ∧ decode q = .error (.decode (.fault .malformed)) :=
  ⟨by decide +kernel, text_iff.mpr ⟨rfl, rfl⟩, text_iff.mpr ⟨rfl, rfl⟩, fun _ _ => nofun,
    by decide +kernel⟩

/-- No payload is accepted in which a field of some record stands twice. -/
theorem decode_ambiguous (hp : Text n p) (ha : Ambiguous layout n) :
    ∃ e, decode p = .error e := by
  rw [decode_text hp]
  cases hr : record.read n with
  | error e => exact ⟨_, rfl⟩
  | ok c => exact absurd ha (fits.unambiguous hr)

theorem decode_ambiguous_path :
    let p := Utf8.bytes "\x7b\"resources\":[\x7b\"uid\":\"a\",\"ingress\":" ++
      Utf8.bytes "\x7b\"path\":\"\",\"\\u0070ath\":\"\"\x7d\x7d]\x7d"
    ∃ e, decode p = .error e := by
  intro p
  let path : Node := .string (spelling "")
  let ingress : Node := .object [(spelling "path", path),
    (⟨.unit 0x70 :: (spelling "ath").pieces, none⟩, path)] .closed
  let resource : Node := .object [(spelling "uid", .string (spelling "a")),
    (spelling "ingress", ingress)] .closed
  have hp : Text (.object [(spelling "resources", .array [resource] none)] .closed) p :=
    text_iff.mpr ⟨rfl, rfl⟩
  have hi : Ambiguous Ingress.layout ingress :=
    @Ambiguous.twice _ _ _ "path" path path [] [] [] _ (by rfl) (by rfl) (.head _)
  have hr : Ambiguous Resource.layout resource :=
    @Ambiguous.value _ _ (spelling "ingress") ingress [_] [] _
      (.tail _ (.tail _ (.tail _ (.head _)))) (by rfl) hi
  exact decode_ambiguous hp (@Ambiguous.value _ _ (spelling "resources") _ [] [] _
    (.tail _ (.head _)) (by rfl) (.item (.head _) hr))

end Contract

end EventRouting
