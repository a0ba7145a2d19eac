import Mathlib
import ServiceKit.Proofs.Json.Canonical
import ServiceKit.Proofs.Number.Written

/-!
What clients see of an error. Its document is decoded as an object with the code, the message and, if
there are any, the details. Nothing in it comes from the cause, and it can stand inside markup.
-/

namespace ServiceKit

namespace Json

/-! ### Documents inside markup -/

/-- The bytes that are special to markup: the angle brackets and the ampersand. -/
def markupBytes : List UInt8 := [0x3C, 0x3E, 0x26]

theorem escapes_of_mem_markupBytes {b : UInt8} (hb : b ∈ markupBytes) :
    StringStyle.markup.escapes b.toNat = true := by
  have hall : ∀ b ∈ markupBytes, StringStyle.markup.escapes b.toNat = true := by
    decide +kernel
  exact hall b hb

theorem StringStyle.not_mem_escape {b : UInt8} (hb : b ∈ markupBytes) (g : Glyph) :
    b ∉ StringStyle.markup.escape g := by
  have hascii : ∀ b ∈ markupBytes, b < 0x80 ∧ b ≠ 0x5C ∧ b ≠ 0x75 := by decide +kernel
  obtain ⟨hlt, hslash, hu⟩ := hascii b hb
  rcases StringStyle.markup.escape_cases g with ⟨l, a, he, hl, -⟩ | ⟨he, hn⟩ | ⟨he, -, -, -, hplain⟩
  · have hletters : ∀ e ∈ letterEscapes, e.1 ∉ markupBytes := by simp [letterEscapes, markupBytes]
    rw [he, List.mem_cons, List.mem_singleton, not_or]
    refine ⟨hslash, ?_⟩
    rintro rfl
    exact hletters _ hl hb
  · have hdigit : ∀ d < 16, Number.digit d ∉ markupBytes := by decide
    have hne {d : Nat} (hd : d < 16) : b ≠ Number.digit d := by
      rintro rfl
      exact hdigit d hd hb
    rw [he, Text.hexEscape, Number.padded_hexadecimal hn]
    simp only [List.mem_cons, not_or]
    exact ⟨hslash, hu, hne (by omega), hne (by omega), hne (by omega), hne (by omega), List.not_mem_nil⟩
  · -- A character that is written as it is has no byte that would have been escaped.
    rw [he]
    intro hmem
    rw [Glyph.toNat_of_mem_encode hlt hmem] at hplain
    exact hplain (escapes_of_mem_markupBytes hb)

theorem StringStyle.not_mem_write {b : UInt8} (hb : b ∈ markupBytes) (s : Text) :
    b ∉ StringStyle.markup.write s := by
  have hquote : ∀ b ∈ markupBytes, b ≠ 0x22 := by simp [markupBytes]
  rw [write, List.mem_append, List.mem_cons, List.mem_singleton, List.mem_flatMap]
  rintro ((h | ⟨g, -, hg⟩) | h)
  · exact hquote b hb h
  · exact not_mem_escape hb g hg
  · exact hquote b hb h

theorem isKept_not_mem {b : UInt8} (hb : b ∉ ownBytes) : IsKept (b ∉ ·) where
  nil := List.not_mem_nil
  mark := by
    intro a t ha ht
    rw [List.mem_cons, not_or]
    refine ⟨?_, ht⟩
    rintro rfl
    exact hb ha
  append := by
    intro s t hs ht
    rw [List.mem_append, not_or]
    exact ⟨hs, ht⟩

/-- A value whose numbers have none of these bytes is written without them. -/
theorem not_mem_write_markup {ν : Type} {num : ν → Text} {x : Json ν} {b : UInt8} (hb : b ∈ markupBytes)
    (hnumbers : ∀ n ∈ x.numbers, b ∉ num n) : b ∉ x.write .markup num := by
  have hown : ∀ b ∈ markupBytes, b ∉ ownBytes := by decide +kernel
  exact (isKept_not_mem (hown b hb)).write (fun t _ => StringStyle.not_mem_write hb t) hnumbers

/-! ### Decoding -/

theorem decodeText_of_free {s : Text} {x : Json Literal} (hs : IsDocument s x) (hfree : x.numbers = [])
    (hnull : x ≠ .null) (hdepth : x.depth ≤ maxDepth) (g : Literal → Number.Binary64) :
    decodeText .any s = .ok (some (x.rendered g).canonical) := by
  have hnone : ∀ l ∈ x.numbers, floatOf l = .ok (g l) := by
    rw [hfree]
    exact List.forall_mem_nil _
  apply decodeText_eq_ok_iff.mpr
  apply (Shape.decode_eq_some_iff .any s _).mpr
  exact ⟨x, read_ok_iff.mpr ⟨hs, hdepth⟩, hnull, decodeAny_eq hs.isClean hnone⟩

theorem decodeText_of_deep {s : Text} {x : Json Literal} (hs : IsDocument s x)
    (hdepth : maxDepth < x.depth) : ∃ e, decodeText .any s = .error e := by
  have hunread (y : Json Literal) : read s ≠ .ok y := by
    intro hread
    obtain ⟨hy, hle⟩ := read_ok_iff.mp hread
    rw [hy.unique hs] at hle
    exact Nat.not_lt.mpr hle hdepth
  cases hdecode : decodeText .any s with
  | error e => exact ⟨e, rfl⟩
  | ok v =>
      exfalso
      cases v with
      | none => exact hunread _ ((Shape.decode_eq_none_iff .any s).mp (decodeText_eq_ok_iff.mp hdecode))
      | some v =>
          obtain ⟨y, hread, -⟩ := (Shape.decode_eq_some_iff .any s v).mp (decodeText_eq_ok_iff.mp hdecode)
          exact hunread y hread

end Json

namespace Fault

open Json (IsDocument)
open Number (Numeral Binary64)

variable {κ μ : Type}

/-! ### The public part -/

/-- What an error has to say to clients, with U+FFFD for stray bytes. Details that are empty are left
out. -/
def publicPart (g : Numeral → μ) (f : Fault κ) (key : Text) : Option (Json.Value μ) :=
  if key = utf8 "code" then some (.string f.code.sanitize)
  else if key = utf8 "message" then some (.string f.message.sanitize)
  else if key = utf8 "details" then
    (f.details.filter (· ≠ [])).map fun ds => ((Json.object ds).rendered g).value
  else none

theorem numbers_toJson {f : Fault κ} (hfree : Json.membersNumbers (f.details.getD []) = []) :
    f.toJson.numbers = [] := by
  obtain ⟨code, message, details, cause⟩ := f
  rcases details with _ | _ | ⟨d, ds⟩
  · rfl
  · rfl
  · change Json.membersNumbers (d :: ds) ++ [] = []
    rw [List.append_nil]
    exact hfree

theorem depth_toJson_le_iff (f : Fault κ) :
    f.toJson.depth ≤ Json.maxDepth ↔ Json.membersDepth (f.details.getD []) + 2 ≤ Json.maxDepth := by
  have hshallow : 2 ≤ Json.maxDepth := by decide
  obtain ⟨code, message, details, cause⟩ := f
  rcases details with _ | _ | ⟨d, ds⟩
  · exact iff_of_true (Nat.le_of_succ_le hshallow) hshallow
  · exact iff_of_true (Nat.le_of_succ_le hshallow) hshallow
  · have hdepth : (toJson ⟨code, message, some (d :: ds), cause⟩).depth =
        Json.membersDepth (d :: ds) + 2 := by
      simp [toJson, Json.depth, Json.membersDepth]
    rw [hdepth]
    exact Iff.rfl

theorem isDocument_document {f : Fault κ} (hfree : Json.membersNumbers (f.details.getD []) = []) :
    IsDocument f.document (f.toJson.rendered Numeral.literal) := by
  apply Json.IsValue.isDocument
  apply Json.isValue_write
  rw [numbers_toJson hfree]
  exact List.forall_mem_nil _

theorem toJson_eq (f : Fault κ) :
    f.toJson = .object ((utf8 "code", .string f.code) :: (utf8 "message", .string f.message) ::
      (f.details.filter (· ≠ [])).toList.map fun ds => (utf8 "details", .object ds)) := by
  obtain ⟨code, message, details, cause⟩ := f
  rcases details with _ | _ | ⟨d, ds⟩ <;> rfl

theorem membersValue_details (g : Numeral → μ) (details : Option (Keyed Detail)) (key : Text) :
    Json.membersValue (Json.renderedMembers g
        (details.toList.map fun ds => (utf8 "details", .object ds))) key =
      if key = utf8 "details" then details.map fun ds => ((Json.object ds).rendered g).value
      else none := by
  have hkey : (utf8 "details").sanitize = utf8 "details" := by decide +kernel
  cases details with
  | none => exact (ite_self _).symm
  | some ds =>
      simp only [Option.toList_some, List.map_cons, List.map_nil, Json.renderedMembers, Json.membersValue,
        hkey, Option.none_or]
      rfl

/-- The members of the document are those of the public part. -/
theorem value_rendered_toJson (g : Numeral → μ) (f : Fault κ) :
    (f.toJson.rendered g).value = .object (f.publicPart g) := by
  have hcode : (utf8 "code").sanitize = utf8 "code" := by decide +kernel
  have hmessage : (utf8 "message").sanitize = utf8 "message" := by decide +kernel
  have hothers : utf8 "code" ≠ utf8 "message" ∧ utf8 "code" ≠ utf8 "details" ∧
      utf8 "message" ≠ utf8 "details" := by decide +kernel
  rw [toJson_eq, Json.rendered, Json.value, Json.Value.object.injEq]
  funext key
  rw [Json.renderedMembers, Json.renderedMembers, Json.membersValue, Json.membersValue,
    membersValue_details, hcode, hmessage, publicPart]
  -- No key comes twice, so it makes no difference that the last of them counts.
  by_cases hfirst : key = utf8 "code"
  · subst hfirst
    rw [if_neg hothers.2.1, if_neg hothers.1, if_pos rfl, if_pos rfl]
    rfl
  by_cases hsecond : key = utf8 "message"
  · subst hsecond
    rw [if_neg hothers.2.2, if_pos rfl, if_neg hfirst, if_neg hfirst, if_pos rfl]
    rfl
  · rw [if_neg hfirst, if_neg hfirst, if_neg hsecond, if_neg hsecond, Option.or_none, Option.or_none]

theorem decodeText_document_of_le {f : Fault κ}
    (hfree : Json.membersNumbers (f.details.getD []) = [])
    (hdepth : Json.membersDepth (f.details.getD []) + 2 ≤ Json.maxDepth) (g : Numeral → Binary64) :
    ∃ v, Json.decodeText .any f.document = .ok (some v) ∧ v.value = .object (f.publicPart g) := by
  have hnumbers := numbers_toJson hfree
  have hnone := Json.numbers_rendered_eq_nil hnumbers Numeral.literal
  have hnull : f.toJson.rendered Numeral.literal ≠ .null := by
    rw [toJson_eq, Json.rendered]
    intro hnull
    cases hnull
  have hle : (f.toJson.rendered Numeral.literal).depth ≤ Json.maxDepth := by
    rw [Json.depth_rendered]
    exact (depth_toJson_le_iff f).mpr hdepth
  refine ⟨_, Json.decodeText_of_free (isDocument_document hfree) hnone hnull hle fun _ => .zero false, ?_⟩
  rw [Json.value_canonical, Json.rendered_rendered, Json.rendered_of_free hnumbers _ g,
    value_rendered_toJson]

theorem decodeText_document_of_lt {f : Fault κ}
    (hfree : Json.membersNumbers (f.details.getD []) = [])
    (hdepth : Json.maxDepth < Json.membersDepth (f.details.getD []) + 2) :
    ∃ e, Json.decodeText .any f.document = .error e := by
  apply Json.decodeText_of_deep (isDocument_document hfree)
  rw [Json.depth_rendered]
  exact Nat.not_le.mp fun hle => Nat.not_le.mpr hdepth ((depth_toJson_le_iff f).mp hle)

/-- What clients see of an error without numbers in its details. Its document denotes one value, an
object with the code, the message and, if there are any, the details, with U+FFFD for stray bytes. It is
decoded as this object, unless the details are nested too deep. It has no byte that is special to markup,
and errors that differ in their causes have the same document. -/
theorem decodeText_document (f : Fault κ) (hfree : Json.membersNumbers (f.details.getD []) = [])
    (g : Numeral → Binary64) :
    (∃ x, (∀ y, IsDocument f.document y ↔ y = x) ∧ x.value = .object (f.publicPart Numeral.literal)) ∧
      (Json.membersDepth (f.details.getD []) + 2 ≤ Json.maxDepth →
        ∃ v, Json.decodeText .any f.document = .ok (some v) ∧ v.value = .object (f.publicPart g)) ∧
      (Json.maxDepth < Json.membersDepth (f.details.getD []) + 2 →
        ∃ e, Json.decodeText .any f.document = .error e) ∧
      (0x3C ∉ f.document ∧ 0x3E ∉ f.document ∧ 0x26 ∉ f.document) ∧
      ∀ {κ' : Type} (f' : Fault κ'), f'.code = f.code → f'.message = f.message →
        f'.details = f.details → f'.document = f.document := by
  have hdocument := isDocument_document hfree
  refine ⟨⟨_, fun y => ⟨fun hy => hy.unique hdocument, ?_⟩, value_rendered_toJson _ f⟩,
    fun hdepth => decodeText_document_of_le hfree hdepth g, decodeText_document_of_lt hfree, ?_, ?_⟩
  · rintro rfl
    exact hdocument
  · have hmarkup (b : UInt8) (hb : b ∈ Json.markupBytes) : b ∉ f.document := by
      apply Json.not_mem_write_markup hb
      rw [numbers_toJson hfree]
      exact List.forall_mem_nil _
    exact ⟨hmarkup _ (by decide), hmarkup _ (by decide), hmarkup _ (by decide)⟩
  · intro κ' f' hcode hmessage hdetails
    rw [document, document, toJson, toJson, hcode, hmessage, hdetails]

/-- Stray bytes, markup, and details of every kind but numbers. -/
def markedFault : Failure where
  code := [0x41, 0xFF]
  message := utf8 "a<b & c>\u2028" ++ [0xC3]
  details := some [(utf8 "k", .array [.null, .bool true, .object [([0xFE], .string (utf8 "<é>"))]])]
  cause := some (utf8 "secret")

theorem decodeText_document_marked :
    markedFault.document = utf8 "\x7b\"code\":\"A\\ufffd\","
      ++ utf8 "\"message\":\"a\\u003cb \\u0026 c\\u003e\\u2028\\ufffd\""
      ++ utf8 ",\"details\":\x7b\"k\":[null,true,\x7b\"\\ufffd\":\"\\u003cé\\u003e\"\x7d]\x7d\x7d" ∧
    (∃ v, Json.decodeText .any markedFault.document = .ok (some v) ∧
      v.value = .object (markedFault.publicPart fun _ => .zero false)) ∧
    0x3C ∉ markedFault.document ∧ (markedFault.withCause none).document = markedFault.document := by
  obtain ⟨-, hdecode, -, ⟨hmarkup, -⟩, hcause⟩ :=
    decodeText_document markedFault rfl fun _ => .zero false
  exact ⟨by decide +kernel, hdecode (by decide +kernel), hmarkup, hcause _ rfl rfl rfl⟩

/-- An error with arrays in one another among its details. -/
def buriedFault (n : Nat) : Failure where
  code := utf8 "X"
  message := utf8 "m"
  details := some [(utf8 "k", (Json.nested n).rendered fun _ => .int 0)]

theorem membersNumbers_buriedFault (n : Nat) :
    Json.membersNumbers ((buriedFault n).details.getD []) = [] := by
  rw [buriedFault, Option.getD_some, Json.membersNumbers, Json.membersNumbers,
    Json.numbers_rendered_eq_nil (Json.numbers_nested n), List.append_nil]

theorem membersDepth_buriedFault (n : Nat) :
    Json.membersDepth ((buriedFault n).details.getD []) = n + 1 := by
  rw [buriedFault, Option.getD_some, Json.membersDepth, Json.membersDepth, Json.depth_rendered,
    Json.depth_nested, Nat.max_zero]

/-- Details may be nested so deep that the document is refused. -/
theorem decodeText_document_buried :
    Json.membersNumbers ((buriedFault 9998).details.getD []) = [] ∧
      ∃ e, Json.decodeText .any (buriedFault 9998).document = .error e := by
  have hfree := membersNumbers_buriedFault 9998
  refine ⟨hfree, decodeText_document_of_lt hfree ?_⟩
  rw [membersDepth_buriedFault]
  decide

end Fault

end ServiceKit
