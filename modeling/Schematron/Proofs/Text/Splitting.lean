import Schematron.Text.Split

/-!
Pieces of a text between separators. Main statement: pieces that are joined again by the separator
come apart into the pieces of each of them.
-/

namespace Schematron.Text

section Lists

variable {α : Type} [BEq α] {separator : α} {items piece : List α}

theorem splitAt_eq (separator : α) (items : List α) :
    splitAt separator items = items.splitOn separator := by
  induction items with
  | nil => rfl
  | cons item rest ih =>
      rw [splitAt, List.splitOn_cons_eq_if_modifyHead, ih]
      split
      · rfl
      · cases pieces : rest.splitOn separator with
        | nil => exact absurd pieces (List.splitOn_ne_nil separator rest)
        | cons piece others => rfl

theorem length_splitAt (separator : α) (items : List α) :
    (splitAt separator items).length = items.count separator + 1 := by
  induction items with
  | nil => rfl
  | cons item rest ih =>
      rw [splitAt, List.count_cons]
      split
      next => rw [List.length_cons, ih]
      next =>
        cases pieces : splitAt separator rest with
        | nil => simp [pieces] at ih
        | cons piece others =>
            rw [pieces] at ih
            exact ih

variable [LawfulBEq α]

theorem not_mem_of_mem_splitAt (member : piece ∈ splitAt separator items) : separator ∉ piece := by
  rw [splitAt_eq] at member
  induction items generalizing piece with
  | nil => simp_all
  | cons item rest ih =>
      rw [List.splitOn_cons_eq_if_modifyHead] at member
      split at member
      · rcases List.mem_cons.mp member with rfl | later
        · exact List.not_mem_nil
        · exact ih later
      next other =>
        cases pieces : rest.splitOn separator with
        | nil => exact absurd pieces (List.splitOn_ne_nil separator rest)
        | cons first others =>
            rw [pieces] at member ih
            rcases List.mem_cons.mp member with rfl | later
            · have absent := ih List.mem_cons_self
              have different : separator ≠ item := fun same => other (by simp [same])
              exact List.not_mem_cons_of_ne_of_not_mem different absent
            · exact ih (List.mem_cons_of_mem _ later)

theorem splitAt_intercalate (separator : α) (first : List α) (rest : List (List α)) :
    splitAt separator ([separator].intercalate (first :: rest)) =
      (first :: rest).flatMap (splitAt separator) := by
  induction rest generalizing first with
  | nil => simp
  | cons next rest ih =>
      have later := ih next
      rw [splitAt_eq] at later ⊢
      rw [List.intercalate_cons_cons, List.append_assoc, List.singleton_append,
        List.splitOn_append_cons_self, later, List.flatMap_cons (x := first), splitAt_eq]

end Lists

variable {separator : Char} {source line : String} {sources : List String}

theorem splitString_eq_singleton :
    splitString separator source = [line] ↔ source = line ∧ separator ∉ line.toList := by
  constructor
  · intro pieces
    obtain ⟨chars, only, rfl⟩ := List.map_eq_singleton_iff.mp pieces
    have single : separator ∉ chars := not_mem_of_mem_splitAt (by rw [only]; exact .head _)
    have whole : [separator].intercalate (source.toList.splitOn separator) = source.toList :=
      List.intercalate_splitOn separator
    rw [← splitAt_eq, only, List.intercalate_singleton] at whole
    rw [whole, String.ofList_toList]
    exact ⟨rfl, whole ▸ single⟩
  · rintro ⟨rfl, single⟩
    have whole : ([separator].intercalate [source.toList]).splitOn separator = [source.toList] :=
      List.splitOn_intercalate separator (by simpa using single) (List.cons_ne_nil _ _)
    rw [List.intercalate_singleton] at whole
    rw [splitString, splitAt_eq, whole, List.map_singleton, String.ofList_toList]

theorem not_mem_of_mem_splitString (member : line ∈ splitString separator source) :
    separator ∉ line.toList := by
  obtain ⟨piece, among, rfl⟩ := List.mem_map.mp member
  rw [String.toList_ofList]
  exact not_mem_of_mem_splitAt among

theorem splitString_intercalate {glue : String} (single : glue.toList = [separator])
    (nonempty : sources ≠ []) :
    splitString separator (glue.intercalate sources) = sources.flatMap (splitString separator) := by
  obtain ⟨first, rest, rfl⟩ := List.exists_cons_of_ne_nil nonempty
  rw [splitString, String.toList_intercalate, single, List.map_cons, splitAt_intercalate,
    ← List.map_cons, List.flatMap_map, List.map_flatMap]
  rfl

theorem length_splitString (separator : Char) (source : String) :
    (splitString separator source).length = source.toList.count separator + 1 := by
  rw [splitString, List.length_map, length_splitAt]

/-- Each text is a piece of its own just when the separator is in none of them. -/
theorem flatMap_splitString_eq_iff : sources.flatMap (splitString separator) = sources ↔
    ∀ source ∈ sources, separator ∉ source.toList := by
  constructor
  · intro same source member
    rw [← same] at member
    obtain ⟨other, -, among⟩ := List.mem_flatMap.mp member
    exact not_mem_of_mem_splitString among
  · intro whole
    induction sources with
    | nil => rfl
    | cons source sources ih =>
        rw [List.forall_mem_cons] at whole
        rw [List.flatMap_cons, splitString_eq_singleton.mpr ⟨rfl, whole.1⟩, ih whole.2,
          List.singleton_append]

end Schematron.Text
