import Mathlib
import ServiceKit.Proofs.Json.RoundTrip

/-!
What a document denotes, and that parsing and printing turn all documents with one meaning into one text.
Numbers are left out: what is printed for them need not be what was read.
-/

namespace ServiceKit.Json

open Number (Binary64)

/-! ### Meaning -/

/-- What a document denotes. An object is a map: neither the order of its members nor a member that is
overridden is left in it. -/
inductive Value (ν : Type) where
  | null
  | bool (b : Bool)
  | number (n : ν)
  | string (s : Text)
  | array (elements : List (Value ν))
  | object (members : Text → Option (Value ν))

variable {ν μ : Type}

mutual

def value : Json ν → Value ν
  | null => .null
  | bool b => .bool b
  | number n => .number n
  | string s => .string s
  | array xs => .array (elementsValue xs)
  | object ms => .object (membersValue ms)

def elementsValue : List (Json ν) → List (Value ν)
  | [] => []
  | x :: xs => x.value :: elementsValue xs

/-- Of several members with one key the last one wins. -/
def membersValue : List (Text × Json ν) → Text → Option (Value ν)
  | [], _ => none
  | (k, x) :: ms, key => (membersValue ms key).or (if key = k then some x.value else none)

end

theorem elementsValue_eq (xs : List (Json ν)) : elementsValue xs = xs.map value := by
  induction xs with
  | nil => rfl
  | cons x xs ih => rw [elementsValue, ih, List.map_cons]

theorem membersValue_eq (ms : List (Text × Json ν)) (key : Text) :
    membersValue ms key = (Keyed.find? key ms.reverse).map value := by
  induction ms with
  | nil => rfl
  | cons m ms ih =>
      rw [membersValue, ih, List.reverse_cons, Keyed.find?_append, Option.map_or, Keyed.find?]
      split <;> rfl

/-! ### Members in order denote the same -/

theorem find?_canonicalMembers (ms : List (Text × Json ν)) (key : Text) :
    Keyed.find? key (Keyed.ofList (canonicalMembers ms)) =
      (Keyed.find? key ms.reverse).map canonical := by
  rw [Keyed.find?_ofList, canonicalMembers_eq, ← List.map_reverse, Keyed.find?_map]

theorem mem_of_find?_reverse {ms : List (Text × Json ν)} {key : Text} {x : Json ν}
    (h : Keyed.find? key ms.reverse = some x) : (key, x) ∈ ms :=
  List.mem_reverse.mp (Keyed.mem_of_find? h)

theorem value_canonical (x : Json ν) : x.canonical.value = x.value := by
  induction x using induct with
  | null => rfl
  | bool b => rfl
  | number n => rfl
  | string s => rfl
  | array xs ih =>
      rw [canonical, value, value, canonicalElements_eq, elementsValue_eq, elementsValue_eq, List.map_map]
      exact congrArg _ (List.map_congr_left ih)
  | object ms ih =>
      rw [canonical, value, value]
      congr 1
      funext key
      rw [membersValue_eq, membersValue_eq, (Keyed.sorted_ofList _).find?_reverse,
        find?_canonicalMembers, Option.map_map]
      apply Option.map_congr
      intro x hx
      exact ih (key, x) (mem_of_find?_reverse hx)

/-- Lists that agree under a function agree under every other one that it decides. -/
theorem map_eq_map_of {α β γ : Type} {f : α → β} {g : α → γ} {xs ys : List α}
    (h : ∀ x ∈ xs, ∀ y, f x = f y → g x = g y) (hmap : xs.map f = ys.map f) :
    xs.map g = ys.map g := by
  induction xs generalizing ys with
  | nil =>
      obtain rfl := List.map_eq_nil_iff.mp hmap.symm
      rfl
  | cons x xs ih =>
      obtain ⟨y, ys, rfl, hy, hys⟩ := List.map_eq_cons_iff.mp hmap.symm
      obtain ⟨hx, hxs⟩ := List.forall_mem_cons.mp h
      rw [List.map_cons, List.map_cons, hx y hy.symm, ih hxs hys.symm]

/-- Documents with one meaning have the same value in order. -/
theorem canonical_eq_of_value_eq {x y : Json ν} (h : x.value = y.value) :
    x.canonical = y.canonical := by
  induction x using induct generalizing y with
  | null => cases y <;> simp_all [value, canonical]
  | bool b => cases y <;> simp_all [value, canonical]
  | number n => cases y <;> simp_all [value, canonical]
  | string s => cases y <;> simp_all [value, canonical]
  | array xs ih =>
      cases y with
      | array ys =>
          rw [value, value, elementsValue_eq, elementsValue_eq, Value.array.injEq] at h
          rw [canonical, canonical, canonicalElements_eq, canonicalElements_eq,
            map_eq_map_of (fun x hx y => ih x hx) h]
      | _ => simp [value] at h
  | object ms ih =>
      cases y with
      | object ns =>
          rw [value, value, Value.object.injEq] at h
          rw [canonical, canonical, Json.object.injEq]
          apply (Keyed.sorted_ofList _).ext (Keyed.sorted_ofList _)
          intro key
          have hkey := congrFun h key
          rw [membersValue_eq, membersValue_eq] at hkey
          rw [find?_canonicalMembers, find?_canonicalMembers]
          cases hx : Keyed.find? key ms.reverse with
          | none =>
              rw [hx] at hkey
              rw [Option.map_eq_none_iff.mp hkey.symm]
          | some x =>
              rw [hx] at hkey
              obtain ⟨y, hy, hvalue⟩ := Option.map_eq_some_iff.mp hkey.symm
              rw [hy, Option.map_some, Option.map_some,
                ih (key, x) (mem_of_find?_reverse hx) hvalue.symm]
      | _ => simp [value] at h

theorem canonical_eq_iff {x y : Json ν} : x.canonical = y.canonical ↔ x.value = y.value := by
  constructor
  · intro h
    rw [← value_canonical x, h, value_canonical]
  · exact canonical_eq_of_value_eq

/-! ### Members in order at every depth -/

/-- One value is another, or stands inside it at some depth. -/
inductive Inside : Json ν → Json ν → Prop
  | self {x : Json ν} : Inside x x
  | element {z x : Json ν} {xs : List (Json ν)} : x ∈ xs → Inside z x → Inside z (.array xs)
  | member {z : Json ν} {m : Text × Json ν} {ms : List (Text × Json ν)} : m ∈ ms → Inside z m.2 →
      Inside z (.object ms)

theorem sorted_of_inside_canonical {x : Json ν} {ms : List (Text × Json ν)}
    (h : Inside (.object ms) x.canonical) : Keyed.Sorted ms := by
  induction x using induct with
  | null => cases h
  | bool b => cases h
  | number n => cases h
  | string s => cases h
  | array xs ih =>
      rw [canonical, canonicalElements_eq] at h
      cases h with
      | element hx h =>
          obtain ⟨x, hmem, rfl⟩ := List.mem_map.mp hx
          exact ih x hmem h
  | object ns ih =>
      rw [canonical] at h
      cases h with
      | self => exact Keyed.sorted_ofList _
      | member hm h =>
          obtain ⟨m, hmem, rfl⟩ := mem_ofList_canonicalMembers hm
          exact ih m hmem h

theorem pairwise_lt_of_sorted {ms : Keyed (Json ν)} (h : Keyed.Sorted ms) :
    ms.Pairwise fun m n => m.1 < n.1 :=
  List.Pairwise.imp Text.lt_iff.mp h

/-! ### What is printed -/

/-- Members are put in order before or after the numbers are changed. -/
theorem canonical_rendered (f : ν → μ) {x : Json ν} (hx : x.IsClean) :
    (x.rendered f).canonical = x.canonical.rendered f := by
  induction x using induct with
  | null => rfl
  | bool b => rfl
  | number n => rfl
  | string s => rfl
  | array xs ih =>
      simp only [rendered, canonical, renderedElements_eq, canonicalElements_eq, List.map_map]
      refine congrArg _ (List.map_congr_left fun x hmem => ?_)
      exact ih x hmem (isClean_array_iff.mp hx x hmem)
  | object ms ih =>
      have hclean := isClean_object_iff.mp hx
      have hbefore : canonicalMembers (renderedMembers f ms) =
          (canonicalMembers ms).map fun e => (e.1, e.2.rendered f) := by
        simp only [renderedMembers_eq, canonicalMembers_eq, List.map_map]
        apply List.map_congr_left
        intro m hm
        exact Prod.ext (hclean m hm).1 (ih m hm (hclean m hm).2)
      have hafter : renderedMembers f (Keyed.ofList (canonicalMembers ms)) =
          (Keyed.ofList (canonicalMembers ms)).map fun e => (e.1, e.2.rendered f) := by
        rw [renderedMembers_eq]
        apply List.map_congr_left
        intro e he
        obtain ⟨m, hm, rfl⟩ := mem_ofList_canonicalMembers he
        rw [(hclean m hm).1]
      rw [rendered, canonical, canonical, rendered, hbefore, hafter, Keyed.ofList_map]

theorem isClean_canonical {x : Json ν} (hx : x.IsClean) : x.canonical.IsClean := by
  have h := canonical_rendered id hx
  rw [IsClean] at hx ⊢
  rw [← h, hx]

theorem numbers_canonical_eq_nil {x : Json ν} (h : x.numbers = []) : x.canonical.numbers = [] := by
  apply List.eq_nil_iff_forall_not_mem.mpr
  intro n hn
  have hmem := mem_numbers_of_canonical hn
  rw [h] at hmem
  cases hmem

theorem numbers_rendered_eq_nil {x : Json ν} (h : x.numbers = []) (f : ν → μ) :
    (x.rendered f).numbers = [] := by
  apply List.eq_nil_iff_forall_not_mem.mpr
  intro n hn
  obtain ⟨m, hm, -⟩ := mem_numbers_rendered hn
  rw [h] at hm
  cases hm

/-- Without numbers it makes no difference how numbers are changed. -/
theorem rendered_of_free {x : Json ν} (h : x.numbers = []) (f g : ν → μ) :
    x.rendered f = x.rendered g := by
  apply rendered_congr
  intro n hn
  rw [h] at hn
  cases hn

/-- A document without numbers is parsed as its value in order. -/
theorem parseText_of_free {s : Text} {x : Json Literal} (hs : IsDocument s x) (hfree : x.numbers = [])
    (hdepth : x.depth ≤ maxDepth) (g : Literal → Binary64) :
    (parseText .any s).getD .null = x.canonical.rendered g := by
  have hread := read_ok_iff.mpr ⟨hs, hdepth⟩
  by_cases hnull : x = .null
  · subst hnull
    rw [parseText_eq, decodeText_eq_ok_iff.mpr ((Shape.decode_eq_none_iff .any s).mpr hread)]
    rfl
  · have hnone : ∀ l ∈ x.numbers, floatOf l = .ok (g l) := by
      rw [hfree]
      intro l hl
      cases hl
    have hdecode := decodeAny_eq hs.isClean hnone
    rw [parseText_any_eq_some_iff.mpr ⟨x, hread, hnull, hdecode⟩, canonical_rendered g hs.isClean]
    rfl

theorem parseText_of_deep {s : Text} {x : Json Literal} (hs : IsDocument s x)
    (hdepth : ¬x.depth ≤ maxDepth) : parseText .any s = none := by
  cases hparse : parseText .any s with
  | none => rfl
  | some v =>
      obtain ⟨y, hread, -⟩ := parseText_any_eq_some_iff.mp hparse
      obtain ⟨hy, hle⟩ := read_ok_iff.mp hread
      rw [hs.unique hy] at hdepth
      exact absurd hle hdepth

/-- What is printed for a document without numbers is the value in order. -/
theorem encodeLine_of_free {s : Text} {x : Json Literal} (hs : IsDocument s x) (hfree : x.numbers = [])
    (hdepth : x.depth ≤ maxDepth) (g : Literal → Binary64) :
    encodeLine ((parseText .any s).getD .null) = .ok (Shape.writeLine .any (x.canonical.rendered g)) ∧
      IsDocument (Shape.writeLine .any (x.canonical.rendered g)) x.canonical := by
  have hnumbers := numbers_canonical_eq_nil hfree
  have hnone := numbers_rendered_eq_nil hnumbers g
  constructor
  · rw [parseText_of_free hs hfree hdepth g, encodeLine_ok]
    rw [hnone]
    intro n hn
    cases hn
  · have hdocument := isDocument_writeLine hnone fun _ => ⟨false, [], none, none⟩
    rwa [rendered_rendered, rendered_of_free hnumbers _ id, isClean_canonical hs.isClean] at hdocument

/-- Documents without numbers that denote one value are printed as one text after parsing. The text is a
document whose objects have their members in strict order of their keys, at every depth, and it denotes
the value, unless the documents are nested too deep to be parsed; then it is a null. -/
theorem encodeLine_parseText_canonical {s t : Text} {x y : Json Literal} (hs : IsDocument s x)
    (ht : IsDocument t y) (hx : x.numbers = []) (hy : y.numbers = [])
    (hdepth : x.depth ≤ maxDepth ↔ y.depth ≤ maxDepth) (hvalue : x.value = y.value) :
    ∃ out z, encodeLine ((parseText .any s).getD .null) = .ok out ∧
      encodeLine ((parseText .any t).getD .null) = .ok out ∧ IsDocument out z ∧
      (∀ ms, Inside (.object ms) z → ms.Pairwise fun m n => m.1 < n.1) ∧
      (x.depth ≤ maxDepth → z.value = x.value) ∧
      (¬x.depth ≤ maxDepth → out = utf8 "null\n") := by
  by_cases hle : x.depth ≤ maxDepth
  · obtain ⟨hprint, hdocument⟩ := encodeLine_of_free hs hx hle fun _ => .zero false
    obtain ⟨hprint', -⟩ := encodeLine_of_free ht hy (hdepth.mp hle) fun _ => .zero false
    rw [← canonical_eq_iff.mpr hvalue] at hprint'
    refine ⟨_, x.canonical, hprint, hprint', hdocument, ?_, fun _ => value_canonical x,
      fun h => absurd hle h⟩
    intro ms hms
    exact pairwise_lt_of_sorted (sorted_of_inside_canonical hms)
  · -- neither is parsed, and what is printed instead is a null
    rw [parseText_of_deep hs hle, parseText_of_deep ht (mt hdepth.mpr hle)]
    refine ⟨_, .null, rfl, rfl, isDocument_writeLine rfl fun _ => ⟨false, [], none, none⟩, ?_,
      fun h => absurd h hle, fun _ => rfl⟩
    intro ms hms
    cases hms

/-- A key that comes twice, spelled in two ways, blanks, escapes and a stray byte. -/
def tangledText : Text :=
  utf8 " \x7b \"b\" : [\"x\"], \"\\u0061\" : \x7b \"d\": null,\"c\" :true\x7d,\n \"\\u0062\": \"\\u0041" ++
    0xFF :: utf8 "\" \x7d"

def tangled : Json Literal :=
  .object [(utf8 "b", .array [.string (utf8 "x")]),
    (utf8 "a", .object [(utf8 "d", .null), (utf8 "c", .bool true)]), (utf8 "b", .string (utf8 "A\uFFFD"))]

def straightText : Text :=
  utf8 "\x7b\"b\":\"A\\ufffd\",\"a\":\x7b\"c\":true,\"d\":null\x7d\x7d"

def straight : Json Literal :=
  .object [(utf8 "b", .string (utf8 "A\uFFFD")),
    (utf8 "a", .object [(utf8 "c", .bool true), (utf8 "d", .null)])]

theorem encodeLine_parseText_canonical_tangled :
    IsDocument tangledText tangled ∧ IsDocument straightText straight ∧
      tangled.value = straight.value ∧
      ∃ out z, encodeLine ((parseText .any tangledText).getD .null) = .ok out ∧
        encodeLine ((parseText .any straightText).getD .null) = .ok out ∧ IsDocument out z ∧
        z.value = tangled.value := by
  have htangled : IsDocument tangledText tangled := (read_ok_iff.mp rfl).1
  have hstraight : IsDocument straightText straight := (read_ok_iff.mp rfl).1
  have hvalue : tangled.value = straight.value := canonical_eq_iff.mp rfl
  obtain ⟨out, z, hs, ht, hz, -, hmeaning, -⟩ := encodeLine_parseText_canonical htangled hstraight rfl rfl
    (iff_of_true (by decide) (by decide)) hvalue
  exact ⟨htangled, hstraight, hvalue, out, z, hs, ht, hz, hmeaning (by decide)⟩

/-! ### What is hidden by a later member -/

/-- Arrays in one another, one more than the number says. -/
def nested : Nat → Json Literal
  | 0 => .array []
  | n + 1 => .array [nested n]

def nestedText : Nat → Text
  | 0 => [0x5B, 0x5D]
  | n + 1 => 0x5B :: (nestedText n ++ [0x5D])

theorem isValue_nested (n : Nat) : IsValue (nestedText n) (nested n) := by
  induction n with
  | zero => exact .noElements blanks_nil
  | succ n ih => exact .array (.last ih.isDocument)

theorem depth_nested (n : Nat) : (nested n).depth = n + 1 := by
  induction n with
  | zero => rfl
  | succ n ih => rw [nested, depth, elementsDepth, elementsDepth, ih, Nat.max_zero]

theorem numbers_nested (n : Nat) : (nested n).numbers = [] := by
  induction n with
  | zero => rfl
  | succ n ih => rw [nested, numbers, elementsNumbers, elementsNumbers, ih, List.append_nil]

/-- Arrays under a key that comes once more. -/
def buriedText (n : Nat) : Text := utf8 "\x7b\"a\":" ++ (nestedText n ++ utf8 ",\"a\":true\x7d")

def buried (n : Nat) : Json Literal := .object [(utf8 "a", nested n), (utf8 "a", .bool true)]

theorem isDocument_buried (n : Nat) : IsDocument (buriedText n) (buried n) := by
  have hkey := IsBody.byte (b := 0x61) (by decide) (by decide) (by decide) .nil
  have hfirst := IsMember.mk blanks_nil hkey blanks_nil (isValue_nested n).isDocument
  have hsecond := IsMember.mk blanks_nil hkey blanks_nil IsValue.trueWord.isDocument
  have hvalue := IsValue.object (.cons hfirst (.last hsecond))
  have htext : buriedText n = 0x7B :: (([] ++ 0x22 :: ([0x61] ++ 0x22 :: ([] ++ 0x3A :: nestedText n)) ++
      0x2C :: ([] ++ 0x22 :: ([0x61] ++ 0x22 :: ([] ++ 0x3A :: utf8 "true")))) ++ [0x7D]) := by
    have hopen : utf8 "\x7b\"a\":" = [0x7B, 0x22, 0x61, 0x22, 0x3A] := by decide
    have hclose : utf8 ",\"a\":true\x7d" = [0x2C, 0x22, 0x61, 0x22, 0x3A] ++ utf8 "true" ++ [0x7D] := by
      decide
    rw [buriedText, hopen, hclose]
    simp
  rw [htext]
  exact hvalue.isDocument

theorem lt_depth_buried (n : Nat) : n + 1 < (buried n).depth := by
  rw [buried, depth, membersDepth, depth_nested]
  exact Nat.lt_succ_of_le (Nat.le_max_left _ _)

/-- A member that is overridden counts all the same if it is nested too deep. -/
theorem encodeLine_parseText_buried :
    ∃ x y, IsDocument (buriedText 9999) x ∧ IsDocument (utf8 "\x7b\"a\":true\x7d") y ∧
      x.numbers = [] ∧ y.numbers = [] ∧ x.value = y.value ∧
      encodeLine ((parseText .any (buriedText 9999)).getD .null) = .ok (utf8 "null\n") ∧
      encodeLine ((parseText .any (utf8 "\x7b\"a\":true\x7d")).getD .null) =
        .ok (utf8 "\x7b\"a\":true\x7d\n") := by
  have hplain : IsDocument (utf8 "\x7b\"a\":true\x7d") (.object [(utf8 "a", .bool true)]) :=
    (read_ok_iff.mp rfl).1
  have hdeep : ¬(buried 9999).depth ≤ maxDepth := Nat.not_le.mpr (lt_depth_buried 9999)
  refine ⟨buried 9999, _, isDocument_buried 9999, hplain, ?_, rfl, ?_, ?_, ?_⟩
  · rw [buried, numbers, membersNumbers, numbers_nested]
    rfl
  · exact canonical_eq_iff.mp rfl
  · rw [parseText_of_deep (isDocument_buried 9999) hdeep]
    rfl
  · rfl

end ServiceKit.Json
