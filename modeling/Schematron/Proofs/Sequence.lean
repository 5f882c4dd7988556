import Mathlib.Data.List.Forall2

/-!
Lists as they are gone through: what a traversal comes to that may fail, where a test fails first,
and what a choice of entries keeps when the list or the choice changes.
-/

namespace Schematron

variable {α β ε : Type}

/-! Traversals that may fail -/

theorem bind_eq_ok {first : Except ε α} {next : α → Except ε β} {value : β}
    (both : first >>= next = .ok value) : ∃ given, first = .ok given ∧ next given = .ok value := by
  cases first with
  | error failure => cases both
  | ok given => exact ⟨given, rfl, both⟩

section Traversal

variable {read : α → Except ε β} {list : List α}

theorem mapM_eq_ok_iff {found : List β} :
    list.mapM read = .ok found ↔
      List.Forall₂ (fun item value => read item = .ok value) list found := by
  induction list generalizing found with
  | nil => cases found <;> simp [pure, Except.pure]
  | cons item rest ih =>
      rw [List.mapM_cons]
      cases first : read item with
      | error failure => cases found <;> simp [bind, Except.bind, first]
      | ok value =>
          cases later : rest.mapM read with
          | error failure => cases found <;> simp [bind, Except.bind, ← ih, later]
          | ok values =>
              cases found <;> simp [bind, Except.bind, pure, Except.pure, ← ih, later, first]

theorem mapM_eq_ok {change : α → β} (reads : ∀ item ∈ list, read item = .ok (change item)) :
    list.mapM read = .ok (list.map change) := by
  rw [mapM_eq_ok_iff, List.forall₂_map_right_iff, List.forall₂_same]
  exact reads

theorem mapM_eq_error_iff {failure : ε} :
    list.mapM read = .error failure ↔ ∃ before item after, list = before ++ item :: after ∧
      (∀ earlier ∈ before, ∃ value, read earlier = .ok value) ∧ read item = .error failure := by
  constructor
  · intro failed
    induction list with
    | nil => cases failed
    | cons item rest ih =>
        rw [List.mapM_cons] at failed
        cases first : read item with
        | error raised =>
            rw [first] at failed
            cases failed
            exact ⟨[], item, rest, rfl, by simp, first⟩
        | ok value =>
            cases others : rest.mapM read with
            | ok values =>
                rw [first, others] at failed
                cases failed
            | error raised =>
                rw [first, others] at failed
                cases failed
                obtain ⟨before, failing, after, rfl, fine, fails⟩ := ih others
                refine ⟨item :: before, failing, after, rfl, ?_, fails⟩
                exact List.forall_mem_cons.mpr ⟨⟨value, first⟩, fine⟩
  · rintro ⟨before, item, after, rfl, fine, fails⟩
    induction before with
    | nil =>
        rw [List.nil_append, List.mapM_cons, fails]
        rfl
    | cons first rest ih =>
        rw [List.forall_mem_cons] at fine
        obtain ⟨⟨value, reads⟩, later⟩ := fine
        rw [List.cons_append, List.mapM_cons, reads, ih later]
        rfl

theorem reads_of_mapM {found : List β} (all : list.mapM read = .ok found) {item : α}
    (member : item ∈ list) : ∃ value, read item = .ok value := by
  rw [mapM_eq_ok_iff] at all
  induction all with
  | nil => cases member
  | cons reads _ ih =>
      rcases List.mem_cons.mp member with rfl | later
      · exact ⟨_, reads⟩
      · exact ih later

theorem exists_forall₂ {relates : α → β → Prop} (each : ∀ item ∈ list, ∃ other, relates item other) :
    ∃ others, List.Forall₂ relates list others := by
  induction list with
  | nil => exact ⟨[], .nil⟩
  | cons item rest ih =>
      rw [List.forall_mem_cons] at each
      obtain ⟨⟨other, first⟩, later⟩ := each
      obtain ⟨others, relate⟩ := ih later
      exact ⟨other :: others, .cons first relate⟩

end Traversal

theorem exists_first_of_not_all {holds : α → Bool} {list : List α}
    (fails : ¬ ∀ item ∈ list, holds item = true) :
    ∃ before item after, list = before ++ item :: after ∧
      (∀ earlier ∈ before, holds earlier = true) ∧ holds item = false := by
  cases first : list.find? (fun item => !holds item) with
  | none =>
      rw [List.find?_eq_none] at first
      exact absurd (fun item member => by simpa using first item member) fails
  | some item =>
      obtain ⟨stops, before, after, same, earlier⟩ := List.find?_eq_some_iff_append.mp first
      exact ⟨before, item, after, same, by simpa using earlier, by simpa using stops⟩

/-! Choices -/

section Choice

variable {found : α → Option β} {list : List α}

theorem filterMap_sublist_filterMap {narrow wide : α → Option β}
    (covers : ∀ item found, narrow item = some found → wide item = some found) (list : List α) :
    (list.filterMap narrow).Sublist (list.filterMap wide) := by
  induction list with
  | nil => exact List.Sublist.refl _
  | cons item rest ih =>
      cases found : narrow item with
      | some value =>
          rw [List.filterMap_cons_some found, List.filterMap_cons_some (covers item value found)]
          exact ih.cons_cons value
      | none =>
          rw [List.filterMap_cons_none found]
          exact ih.trans ((List.sublist_cons_self item rest).filterMap wide)

theorem eq_of_nodup_filterMap (distinct : (list.filterMap found).Nodup) {left right : α}
    (here : left ∈ list) (there : right ∈ list) {value : β} (gives : found left = some value)
    (also : found right = some value) : left = right := by
  induction list with
  | nil => cases here
  | cons item rest ih =>
      have apart (other : α) (present : other ∈ rest) (same : found other = some value) :
          found item ≠ some value := by
        intro gives
        rw [List.filterMap_cons_some gives, List.nodup_cons] at distinct
        exact distinct.1 (List.mem_filterMap.mpr ⟨other, present, same⟩)
      rcases List.mem_cons.mp here with rfl | inside
      · rcases List.mem_cons.mp there with same | present
        · exact same.symm
        · exact absurd gives (apart right present also)
      · rcases List.mem_cons.mp there with rfl | present
        · exact absurd also (apart left inside gives)
        · exact ih (distinct.sublist ((List.sublist_cons_self item rest).filterMap found)) inside
            present

theorem filterMap_modify {index : Nat} {change : α → α}
    (same : ∀ item, list[index]? = some item → found (change item) = found item) :
    (list.modify index change).filterMap found = list.filterMap found := by
  induction list generalizing index with
  | nil => simp
  | cons item rest ih =>
      cases index with
      | zero =>
          rw [List.modify_zero_cons, List.filterMap_cons, List.filterMap_cons, same item rfl]
      | succ index =>
          rw [List.modify_succ_cons, List.filterMap_cons, List.filterMap_cons,
            ih fun item held => same item held]

theorem filterMap_modify_perm {index : Nat} {change : α → α} {item : α} {value : β}
    (held : list[index]? = some item) (before : found item = some value)
    (after : found (change item) = none) :
    (list.filterMap found).Perm (value :: (list.modify index change).filterMap found) := by
  induction list generalizing index with
  | nil => simp at held
  | cons first rest ih =>
      cases index with
      | zero =>
          simp only [List.getElem?_cons_zero, Option.some.injEq] at held
          subst first
          rw [List.modify_zero_cons, List.filterMap_cons_some before,
            List.filterMap_cons_none after]
      | succ index =>
          have held : rest[index]? = some item := by simpa using held
          rw [List.modify_succ_cons, List.filterMap_cons, List.filterMap_cons]
          cases found first with
          | none => exact ih held
          | some other => exact ((ih held).cons other).trans (.swap value other _)

end Choice

end Schematron
