import Mathlib
import ServiceKit.Json.Writer
import ServiceKit.Proofs.Json.Grammar
import ServiceKit.Proofs.Keyed
import ServiceKit.Proofs.Text.Utf8

/-!
Laws of values: an induction over the members and elements of a value, values with their strings in
UTF-8, and what is left of a value when its members are put in order.
-/

namespace ServiceKit

namespace Text

theorem sanitize_sanitize (s : Text) : s.sanitize.sanitize = s.sanitize := by
  rw [sanitize, sanitize, chars_ofChars]

end Text

namespace Json

variable {ν μ κ ε : Type}

/-- What holds of an array if it holds of its elements, of an object if it holds of the values of its
members, and of all other values, holds of every value. -/
theorem induct {P : Json ν → Prop} (null : P .null) (bool : ∀ b, P (.bool b))
    (number : ∀ n, P (.number n)) (string : ∀ s, P (.string s))
    (array : ∀ xs, (∀ x ∈ xs, P x) → P (.array xs))
    (object : ∀ ms, (∀ m ∈ ms, P m.2) → P (.object ms)) : (x : Json ν) → P x
  | .null => null
  | .bool b => bool b
  | .number n => number n
  | .string s => string s
  | .array xs => array xs fun x _ => induct null bool number string array object x
  | .object ms => object ms fun m _ => induct null bool number string array object m.2
decreasing_by
  · have hlt := List.sizeOf_lt_of_mem ‹x ∈ xs›
    rw [Json.array.sizeOf_spec]
    omega
  · have hlt := List.sizeOf_lt_of_mem ‹m ∈ ms›
    obtain ⟨k, x⟩ := m
    rw [Prod.mk.sizeOf_spec] at hlt
    rw [Json.object.sizeOf_spec]
    simp only
    omega

/-! ### Elements and members one by one -/

theorem canonicalElements_eq (xs : List (Json ν)) : canonicalElements xs = xs.map canonical := by
  induction xs with
  | nil => rfl
  | cons x xs ih => rw [canonicalElements, ih, List.map_cons]

theorem canonicalMembers_eq (ms : List (Text × Json ν)) :
    canonicalMembers ms = ms.map fun m => (m.1, m.2.canonical) := by
  induction ms with
  | nil => rfl
  | cons m ms ih => rw [canonicalMembers, ih, List.map_cons]

theorem settledElements_eq (xs : List (Json ν)) : settledElements xs = xs.map settled := by
  induction xs with
  | nil => rfl
  | cons x xs ih => rw [settledElements, ih, List.map_cons]

theorem settledMembers_eq (ms : List (Text × Json ν)) :
    settledMembers ms = ms.map fun m => (m.1.sanitize, m.2.settled) := by
  induction ms with
  | nil => rfl
  | cons m ms ih => rw [settledMembers, ih, List.map_cons]

theorem elementsDepth_le_iff {xs : List (Json ν)} {d : Nat} :
    elementsDepth xs ≤ d ↔ ∀ x ∈ xs, x.depth ≤ d := by
  induction xs with
  | nil => simp [elementsDepth]
  | cons x xs ih => rw [elementsDepth, max_le_iff, ih, List.forall_mem_cons]

theorem membersDepth_le_iff {ms : List (Text × Json ν)} {d : Nat} :
    membersDepth ms ≤ d ↔ ∀ m ∈ ms, m.2.depth ≤ d := by
  induction ms with
  | nil => simp [membersDepth]
  | cons m ms ih => rw [membersDepth, max_le_iff, ih, List.forall_mem_cons]

theorem elementsNumbers_eq (xs : List (Json ν)) : elementsNumbers xs = xs.flatMap numbers := by
  induction xs with
  | nil => rfl
  | cons x xs ih => rw [elementsNumbers, ih, List.flatMap_cons]

theorem membersNumbers_eq (ms : List (Text × Json ν)) :
    membersNumbers ms = ms.flatMap fun m => m.2.numbers := by
  induction ms with
  | nil => rfl
  | cons m ms ih => rw [membersNumbers, ih, List.flatMap_cons]

theorem elementsTexts_eq (xs : List (Json ν)) : elementsTexts xs = xs.flatMap texts := by
  induction xs with
  | nil => rfl
  | cons x xs ih => rw [elementsTexts, ih, List.flatMap_cons]

theorem membersTexts_eq (ms : List (Text × Json ν)) :
    membersTexts ms = ms.flatMap fun m => m.1 :: m.2.texts := by
  induction ms with
  | nil => rfl
  | cons m ms ih => rw [membersTexts, ih, List.flatMap_cons]

theorem mapElements_ok {f : ν → Except ε μ} {g : Json ν → Json μ} {xs : List (Json ν)}
    (h : ∀ x ∈ xs, mapNumbers f x = .ok (g x)) : mapElements f xs = .ok (xs.map g) := by
  induction xs with
  | nil => rfl
  | cons x xs ih =>
      obtain ⟨hx, hxs⟩ := List.forall_mem_cons.mp h
      rw [mapElements, hx, ih hxs]
      rfl

theorem mapMembers_ok {f : ν → Except ε μ} {g : Json ν → Json μ} {ms : List (Text × Json ν)}
    (h : ∀ m ∈ ms, mapNumbers f m.2 = .ok (g m.2)) :
    mapMembers f ms = .ok (ms.map fun m => (m.1, g m.2)) := by
  induction ms with
  | nil => rfl
  | cons m ms ih =>
      obtain ⟨hm, hms⟩ := List.forall_mem_cons.mp h
      rw [mapMembers, hm, ih hms]
      rfl

/-! ### Values in UTF-8 -/

mutual

/-- The value with U+FFFD for each stray byte in strings and keys, and with its numbers changed. -/
def rendered (f : ν → μ) : Json ν → Json μ
  | null => null
  | bool b => bool b
  | number n => number (f n)
  | string s => string s.sanitize
  | array xs => array (renderedElements f xs)
  | object ms => object (renderedMembers f ms)

def renderedElements (f : ν → μ) : List (Json ν) → List (Json μ)
  | [] => []
  | x :: xs => rendered f x :: renderedElements f xs

def renderedMembers (f : ν → μ) : List (Text × Json ν) → List (Text × Json μ)
  | [] => []
  | (k, x) :: ms => (k.sanitize, rendered f x) :: renderedMembers f ms

end

theorem renderedElements_eq (f : ν → μ) (xs : List (Json ν)) :
    renderedElements f xs = xs.map (rendered f) := by
  induction xs with
  | nil => rfl
  | cons x xs ih => rw [renderedElements, ih, List.map_cons]

theorem renderedMembers_eq (f : ν → μ) (ms : List (Text × Json ν)) :
    renderedMembers f ms = ms.map fun m => (m.1.sanitize, m.2.rendered f) := by
  induction ms with
  | nil => rfl
  | cons m ms ih => rw [renderedMembers, ih, List.map_cons]

theorem rendered_rendered (f : ν → μ) (g : μ → κ) (x : Json ν) :
    (x.rendered f).rendered g = x.rendered (g ∘ f) := by
  induction x using induct with
  | null => rfl
  | bool b => rfl
  | number n => rfl
  | string s => rw [rendered, rendered, rendered, Text.sanitize_sanitize]
  | array xs ih =>
      simp only [rendered, renderedElements_eq, List.map_map]
      exact congrArg _ (List.map_congr_left ih)
  | object ms ih =>
      simp only [rendered, renderedMembers_eq, List.map_map]
      refine congrArg _ (List.map_congr_left fun m hm => ?_)
      exact Prod.ext (Text.sanitize_sanitize m.1) (ih m hm)

theorem rendered_congr {f g : ν → μ} {x : Json ν} (h : ∀ n ∈ x.numbers, f n = g n) :
    x.rendered f = x.rendered g := by
  induction x using induct with
  | null => rfl
  | bool b => rfl
  | number n => exact congrArg Json.number (h n (List.mem_singleton.mpr rfl))
  | string s => rfl
  | array xs ih =>
      rw [numbers, elementsNumbers_eq] at h
      simp only [rendered, renderedElements_eq]
      refine congrArg _ (List.map_congr_left fun x hx => ?_)
      exact ih x hx fun n hn => h n (List.mem_flatMap.mpr ⟨x, hx, hn⟩)
  | object ms ih =>
      rw [numbers, membersNumbers_eq] at h
      simp only [rendered, renderedMembers_eq]
      refine congrArg _ (List.map_congr_left fun m hm => ?_)
      exact Prod.ext rfl (ih m hm fun n hn => h n (List.mem_flatMap.mpr ⟨m, hm, hn⟩))

theorem elementsDepth_map {f : Json ν → Json μ} {xs : List (Json ν)}
    (h : ∀ x ∈ xs, (f x).depth = x.depth) : elementsDepth (xs.map f) = elementsDepth xs := by
  induction xs with
  | nil => rfl
  | cons x xs ih =>
      obtain ⟨hx, hxs⟩ := List.forall_mem_cons.mp h
      rw [List.map_cons, elementsDepth, elementsDepth, hx, ih hxs]

theorem membersDepth_map {f : Text × Json ν → Text × Json μ} {ms : List (Text × Json ν)}
    (h : ∀ m ∈ ms, (f m).2.depth = m.2.depth) : membersDepth (ms.map f) = membersDepth ms := by
  induction ms with
  | nil => rfl
  | cons m ms ih =>
      obtain ⟨hm, hms⟩ := List.forall_mem_cons.mp h
      rw [List.map_cons, membersDepth, membersDepth, hm, ih hms]

theorem depth_rendered (f : ν → μ) (x : Json ν) : (x.rendered f).depth = x.depth := by
  induction x using induct with
  | null => rfl
  | bool b => rfl
  | number n => rfl
  | string s => rfl
  | array xs ih => rw [rendered, depth, depth, renderedElements_eq, elementsDepth_map ih]
  | object ms ih => rw [rendered, depth, depth, renderedMembers_eq, membersDepth_map ih]

theorem mem_numbers_rendered {f : ν → μ} {x : Json ν} {m : μ} (h : m ∈ (x.rendered f).numbers) :
    ∃ n ∈ x.numbers, f n = m := by
  induction x using induct with
  | null => cases h
  | bool b => cases h
  | number n => exact ⟨n, List.mem_singleton.mpr rfl, (List.mem_singleton.mp h).symm⟩
  | string s => cases h
  | array xs ih =>
      rw [rendered, numbers, elementsNumbers_eq, renderedElements_eq] at h
      obtain ⟨y, hy, hm⟩ := List.mem_flatMap.mp h
      obtain ⟨x, hx, rfl⟩ := List.mem_map.mp hy
      obtain ⟨n, hn, hf⟩ := ih x hx hm
      rw [numbers, elementsNumbers_eq]
      exact ⟨n, List.mem_flatMap.mpr ⟨x, hx, hn⟩, hf⟩
  | object ms ih =>
      rw [rendered, numbers, membersNumbers_eq, renderedMembers_eq] at h
      obtain ⟨y, hy, hm⟩ := List.mem_flatMap.mp h
      obtain ⟨x, hx, rfl⟩ := List.mem_map.mp hy
      obtain ⟨n, hn, hf⟩ := ih x hx hm
      rw [numbers, membersNumbers_eq]
      exact ⟨n, List.mem_flatMap.mpr ⟨x, hx, hn⟩, hf⟩

theorem texts_rendered (f : ν → μ) (x : Json ν) :
    (x.rendered f).texts = x.texts.map Text.sanitize := by
  induction x using induct with
  | null => rfl
  | bool b => rfl
  | number n => rfl
  | string s => rfl
  | array xs ih =>
      simp only [rendered, texts, elementsTexts_eq, renderedElements_eq, List.flatMap_map,
        List.map_flatMap]
      exact List.flatMap_congr ih
  | object ms ih =>
      simp only [rendered, texts, membersTexts_eq, renderedMembers_eq, List.flatMap_map,
        List.map_flatMap, List.map_cons]
      exact List.flatMap_congr fun m hm => congrArg _ (ih m hm)

/-- No string and no key of the value has a stray byte. -/
def IsClean (x : Json ν) : Prop := x.rendered id = x

theorem isClean_rendered (f : ν → μ) (x : Json ν) : (x.rendered f).IsClean := rendered_rendered f id x

theorem isClean_string_iff {s : Text} : IsClean (.string s : Json ν) ↔ s.sanitize = s := by
  rw [IsClean, rendered, Json.string.injEq]

theorem map_eq_self_iff {α : Type} {f : α → α} {xs : List α} :
    xs.map f = xs ↔ ∀ x ∈ xs, f x = x := by
  conv_lhs => rw [← List.map_id xs, List.map_map]
  exact List.map_inj_left

theorem isClean_array_iff {xs : List (Json ν)} : IsClean (.array xs) ↔ ∀ x ∈ xs, x.IsClean := by
  rw [IsClean, rendered, Json.array.injEq, renderedElements_eq, map_eq_self_iff]
  rfl

theorem isClean_object_iff {ms : List (Text × Json ν)} :
    IsClean (.object ms) ↔ ∀ m ∈ ms, m.1.sanitize = m.1 ∧ m.2.IsClean := by
  rw [IsClean, rendered, Json.object.injEq, renderedMembers_eq, map_eq_self_iff]
  simp only [Prod.ext_iff, IsClean]

/-! A document has no stray bytes: they are replaced where strings are read. -/

mutual

theorem IsValue.isClean {s : Text} {x : Json Literal} : IsValue s x → x.rendered id = x
  | .nullWord => rfl
  | .trueWord => rfl
  | .falseWord => rfl
  | .number _ => rfl
  | .string _ => congrArg Json.string (Text.sanitize_sanitize _)
  | .noElements _ => rfl
  | .array hs => congrArg Json.array hs.isClean
  | .noMembers _ => rfl
  | .object hs => congrArg Json.object hs.isClean

theorem IsDocument.isClean {s : Text} {x : Json Literal} : IsDocument s x → x.rendered id = x
  | .mk _ hs _ => hs.isClean

theorem IsElements.isClean {s : Text} {xs : List (Json Literal)} :
    IsElements s xs → renderedElements id xs = xs
  | .last hs => congrArg (· :: []) hs.isClean
  | .cons hs ht => congrArg₂ List.cons hs.isClean ht.isClean

theorem IsMember.isClean {s : Text} {m : Text × Json Literal} :
    IsMember s m → (m.1.sanitize, m.2.rendered id) = m
  | .mk _ _ _ hs => congrArg₂ Prod.mk (Text.sanitize_sanitize _) hs.isClean

theorem IsMembers.isClean {s : Text} {ms : List (Text × Json Literal)} :
    IsMembers s ms → renderedMembers id ms = ms
  | .last hs => congrArg (· :: []) hs.isClean
  | .cons hs ht => congrArg₂ List.cons hs.isClean ht.isClean

end

/-- The numbers of a value without stray bytes are changed one by one. -/
theorem mapNumbers_ok {f : ν → Except ε μ} {g : ν → μ} {x : Json ν} (hx : x.IsClean)
    (h : ∀ n ∈ x.numbers, f n = .ok (g n)) : mapNumbers f x = .ok (x.rendered g) := by
  induction x using induct with
  | null => rfl
  | bool b => rfl
  | number n =>
      rw [mapNumbers, h n (List.mem_singleton.mpr rfl)]
      rfl
  | string s => rw [mapNumbers, rendered, isClean_string_iff.mp hx]
  | array xs ih =>
      rw [numbers, elementsNumbers_eq] at h
      have hxs := mapElements_ok fun x hmem => ih x hmem (isClean_array_iff.mp hx x hmem)
        fun n hn => h n (List.mem_flatMap.mpr ⟨x, hmem, hn⟩)
      rw [mapNumbers, hxs, rendered, renderedElements_eq]
      rfl
  | object ms ih =>
      rw [numbers, membersNumbers_eq] at h
      have hclean := isClean_object_iff.mp hx
      have hms := mapMembers_ok fun m hmem => ih m hmem (hclean m hmem).2
        fun n hn => h n (List.mem_flatMap.mpr ⟨m, hmem, hn⟩)
      have hkeys : (ms.map fun m => (m.1, m.2.rendered g)) = renderedMembers g ms := by
        rw [renderedMembers_eq]
        exact List.map_congr_left fun m hmem => by rw [(hclean m hmem).1]
      rw [mapNumbers, hms, hkeys, rendered]
      rfl

/-! ### Members in order -/

theorem settled_eq (x : Json ν) : x.settled = (x.rendered id).canonical := by
  induction x using induct with
  | null => rfl
  | bool b => rfl
  | number n => rfl
  | string s => rfl
  | array xs ih =>
      simp only [settled, rendered, canonical, settledElements_eq, renderedElements_eq,
        canonicalElements_eq, List.map_map]
      exact congrArg _ (List.map_congr_left ih)
  | object ms ih =>
      simp only [settled, rendered, canonical, settledMembers_eq, renderedMembers_eq,
        canonicalMembers_eq, List.map_map]
      refine congrArg _ (congrArg _ (List.map_congr_left fun m hm => ?_))
      exact Prod.ext rfl (ih m hm)

theorem mem_ofList_canonicalMembers {ms : List (Text × Json ν)} {e : Text × Json ν}
    (h : e ∈ Keyed.ofList (canonicalMembers ms)) : ∃ m ∈ ms, e = (m.1, m.2.canonical) := by
  rw [canonicalMembers_eq] at h
  obtain ⟨m, hm, he⟩ := List.mem_map.mp ((Keyed.mem_putAll h).resolve_left fun h => nomatch h)
  exact ⟨m, hm, he.symm⟩

theorem depth_canonical_le (x : Json ν) : x.canonical.depth ≤ x.depth := by
  induction x using induct with
  | null => exact Nat.le_refl _
  | bool b => exact Nat.le_refl _
  | number n => exact Nat.le_refl _
  | string s => exact Nat.le_refl _
  | array xs ih =>
      rw [canonical, depth, depth, canonicalElements_eq]
      refine Nat.succ_le_succ (elementsDepth_le_iff.mpr fun y hy => ?_)
      obtain ⟨x, hx, rfl⟩ := List.mem_map.mp hy
      exact (ih x hx).trans (elementsDepth_le_iff.mp le_rfl x hx)
  | object ms ih =>
      rw [canonical, depth, depth]
      refine Nat.succ_le_succ (membersDepth_le_iff.mpr fun e he => ?_)
      obtain ⟨m, hm, rfl⟩ := mem_ofList_canonicalMembers he
      exact (ih m hm).trans (membersDepth_le_iff.mp le_rfl m hm)

theorem mem_numbers_of_canonical {x : Json ν} {n : ν} (h : n ∈ x.canonical.numbers) :
    n ∈ x.numbers := by
  induction x using induct with
  | null => exact h
  | bool b => exact h
  | number n => exact h
  | string s => exact h
  | array xs ih =>
      rw [canonical, numbers, elementsNumbers_eq, canonicalElements_eq] at h
      obtain ⟨y, hy, hn⟩ := List.mem_flatMap.mp h
      obtain ⟨x, hx, rfl⟩ := List.mem_map.mp hy
      rw [numbers, elementsNumbers_eq]
      exact List.mem_flatMap.mpr ⟨x, hx, ih x hx hn⟩
  | object ms ih =>
      rw [canonical, numbers, membersNumbers_eq] at h
      obtain ⟨e, he, hn⟩ := List.mem_flatMap.mp h
      obtain ⟨m, hm, rfl⟩ := mem_ofList_canonicalMembers he
      rw [numbers, membersNumbers_eq]
      exact List.mem_flatMap.mpr ⟨m, hm, ih m hm hn⟩

theorem mem_texts_of_canonical {x : Json ν} {t : Text} (h : t ∈ x.canonical.texts) : t ∈ x.texts := by
  induction x using induct with
  | null => exact h
  | bool b => exact h
  | number n => exact h
  | string s => exact h
  | array xs ih =>
      rw [canonical, texts, elementsTexts_eq, canonicalElements_eq] at h
      obtain ⟨y, hy, ht⟩ := List.mem_flatMap.mp h
      obtain ⟨x, hx, rfl⟩ := List.mem_map.mp hy
      rw [texts, elementsTexts_eq]
      exact List.mem_flatMap.mpr ⟨x, hx, ih x hx ht⟩
  | object ms ih =>
      rw [canonical, texts, membersTexts_eq] at h
      obtain ⟨e, he, ht⟩ := List.mem_flatMap.mp h
      obtain ⟨m, hm, rfl⟩ := mem_ofList_canonicalMembers he
      rw [texts, membersTexts_eq]
      refine List.mem_flatMap.mpr ⟨m, hm, ?_⟩
      rcases List.mem_cons.mp ht with rfl | ht
      · exact List.mem_cons_self
      · exact List.mem_cons_of_mem _ (ih m hm ht)

/-- A value without stray bytes whose members are in order stays as it is. -/
theorem settled_canonical {x : Json ν} (hx : x.IsClean) : x.canonical.settled = x.canonical := by
  induction x using induct with
  | null => rfl
  | bool b => rfl
  | number n => rfl
  | string s => rw [canonical, settled, isClean_string_iff.mp hx]
  | array xs ih =>
      simp only [canonical, settled, settledElements_eq, canonicalElements_eq, List.map_map]
      refine congrArg _ (List.map_congr_left fun x hmem => ?_)
      exact ih x hmem (isClean_array_iff.mp hx x hmem)
  | object ms ih =>
      have hfixed : settledMembers (Keyed.ofList (canonicalMembers ms)) =
          Keyed.ofList (canonicalMembers ms) := by
        rw [settledMembers_eq, map_eq_self_iff]
        intro e he
        obtain ⟨m, hm, rfl⟩ := mem_ofList_canonicalMembers he
        obtain ⟨hkey, hvalue⟩ := isClean_object_iff.mp hx m hm
        rw [hkey, ih m hm hvalue]
      rw [canonical, settled, hfixed, (Keyed.sorted_ofList _).ofList_eq]

end Json

end ServiceKit
