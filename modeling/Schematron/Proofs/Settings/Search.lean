import Mathlib.Data.List.Induction
import Schematron.Proofs.Location.Links
import Schematron.Settings.File

/-!
The upward search for a configuration file. Main statement: it ends, with the answer of the first
directory on the way up that does not answer that it has no such file: that file, or the failure of
the look at it; without a file when every directory up to the root answers so. It starts where the
path resolves to, and fails where that fails.
-/

namespace Schematron

namespace FileTree

variable {tree : FileTree} {directory : List String} {name : String}

/-- A look that finds something follows the links of the path to it. -/
theorem exists?_eq_true_iff {path : Path} :
    tree.exists? [] path = .ok true ↔ path.access? = none ∧
      ∃ reached cost, cost ≤ linkLimit ∧ tree.Leads [] path.parts reached cost ∧
        (tree.entry? reached).isSome = true := by
  have looks : tree.exists? [] path = .ok true ↔ ∃ entry, tree.find [] path = .ok entry := by
    rw [exists?, look]
    cases tree.find [] path with
    | ok entry => simp
    | error error => cases error <;> simp [AccessError.isAbsence]
  rw [looks]
  constructor
  · rintro ⟨entry, finds⟩
    cases locates : tree.locate [] path with
    | error error =>
        rw [find, locates] at finds
        cases finds
    | ok reached =>
        rw [find_of_locate locates] at finds
        simp only [locate, ite_self] at locates
        split at locates
        next => cases locates
        next access =>
          rw [← List.append_nil path.parts] at locates
          obtain ⟨middle, cost, within, leads, ends⟩ := leads_of_walk locates
          rw [walk_nil] at ends
          cases ends
          refine ⟨access, reached, cost, within, leads, ?_⟩
          cases there : tree.entry? reached with
          | some _ => rfl
          | none =>
              rw [there] at finds
              cases finds
  · rintro ⟨access, reached, cost, within, leads, there⟩
    have walks := leads.walk (linkLimit - cost) []
    rw [List.append_nil, walk_nil, Nat.add_sub_cancel' within] at walks
    obtain ⟨entry, there⟩ := Option.isSome_iff_exists.mp there
    have locates : tree.locate [] path = .ok reached := by
      simp only [locate, access, ite_self, walks]
    exact ⟨entry, by rw [find_of_locate locates, there]⟩

structure Searchable (tree : FileTree) (directory : List String) : Prop where
  place : tree.Place directory
  entry : tree.entry? directory = some .directory
  allowed : directory ∉ tree.locked

namespace Searchable

variable (searchable : tree.Searchable directory)

include searchable

theorem enter_name (named : Path.isPart name = true) (level : name ≠ "..") :
    tree.enter directory name =
      if nameLimit < name.utf8ByteSize then .error .longName else .ok (directory ++ [name]) := by
  simp [enter, searchable.entry, searchable.allowed, level, named]

theorem walk_name (budget : Nat) (rest : List String) :
    tree.walk budget [] (directory ++ name :: rest) = tree.walk budget directory (name :: rest) := by
  have leads : tree.Leads [] directory directory 0 := Place.leads searchable.place
  have walks := leads.walk budget (name :: rest)
  rwa [Nat.zero_add] at walks

/-- In such a directory an entry that is no link is there or not, and that is the answer. -/
theorem exists?_child (named : Path.isPart name = true) (level : name ≠ "..")
    (short : name.utf8ByteSize ≤ nameLimit)
    (access : (Path.mk .slash (directory ++ [name])).access? = none)
    (plain : tree.link? (directory ++ [name]) = none) :
    tree.exists? [] ⟨.slash, directory ++ [name]⟩ =
      .ok (tree.entry? (directory ++ [name])).isSome := by
  have enters : tree.enter directory name = .ok (directory ++ [name]) := by
    rw [searchable.enter_name named level, if_neg (by omega)]
  have locates : tree.locate [] ⟨.slash, directory ++ [name]⟩ = .ok (directory ++ [name]) := by
    simp only [locate, access, ite_self]
    rw [searchable.walk_name, walk_enters _ enters plain, walk_nil]
  rw [exists?, look, find_of_locate locates]
  cases tree.entry? (directory ++ [name]) <;> rfl

/-- A name that is too long is no entry that is merely missing. -/
theorem exists?_overlong (below : List String) (named : Path.isPart name = true)
    (level : name ≠ "..") (overlong : nameLimit < name.utf8ByteSize)
    (clean : ∀ part ∈ name :: below, '\x00' ∉ part.toList) :
    let path : Path := ⟨.slash, directory ++ name :: below⟩
    tree.exists? [] path = .error (AccessError.longName.failure path.toString) := by
  intro path
  have locates : tree.locate [] path = .error .longName := by
    simp only [locate, ite_self]
    split
    next error access =>
      rcases access?_cases access with ⟨-, part, member, null⟩ | rfl
      · rcases List.mem_append.mp member with above | inside
        · exact absurd null (searchable.place.clean part above)
        · exact absurd null (clean part inside)
      · rfl
    next =>
      rw [searchable.walk_name]
      simp [linkLimit, walk, walkWith, searchable.enter_name named level, overlong, bind,
        Except.bind]
  rw [exists?, look, find, locates]
  rfl

end Searchable

/-- Nor is an entry of a directory that may not be searched. -/
theorem exists?_locked (place : tree.Place directory) (entry : tree.entry? directory = some .directory)
    (locked : directory ∈ tree.locked) (access : (Path.mk .slash (directory ++ [name])).access? = none) :
    let path : Path := ⟨.slash, directory ++ [name]⟩
    tree.exists? [] path = .error (AccessError.forbidden.failure path.toString) := by
  intro path
  have leads : tree.Leads [] directory directory 0 := Place.leads place
  have walks := leads.walk linkLimit [name]
  have locates : tree.locate [] path = .error .forbidden := by
    simp only [locate, path, access, ite_self]
    rw [Nat.zero_add] at walks
    rw [walks]
    simp [linkLimit, walk, walkWith, enter, entry, locked, bind, Except.bind]
  rw [exists?, look, find, locates]
  rfl

end FileTree

namespace Settings

def probe (files : FileTree) (directory : List String) : Except Failure Bool :=
  files.exists? [] ⟨.slash, directory ++ [fileName]⟩

def turn (files : FileTree) (current : Path) : Except Failure (Option Path) ⊕ Path :=
  match files.exists? [] (current.child fileName) with
  | .error failure => .inl (.error failure)
  | .ok true => .inl (.ok (some (current.child fileName)))
  | .ok false => if current.parent = current then .inl (.ok none) else .inr current.parent

inductive Search (files : FileTree) : Path → Nat → Except Failure (Option Path) → Prop
  | ends {current : Path} {answer : Except Failure (Option Path)} :
      turn files current = .inl answer → Search files current 1 answer
  | goes {current above : Path} {turns : Nat} {answer : Except Failure (Option Path)} :
      turn files current = .inr above → Search files above turns answer →
      Search files current (turns + 1) answer

theorem Search.unique {files : FileTree} {current : Path} {turns others : Nat}
    {answer also : Except Failure (Option Path)} (search : Search files current turns answer)
    (again : Search files current others also) : others = turns ∧ also = answer := by
  induction search generalizing others with
  | ends ended =>
      cases again with
      | ends other =>
          rw [ended] at other
          cases other
          exact ⟨rfl, rfl⟩
      | goes other _ =>
          rw [ended] at other
          cases other
  | goes stepped _ ih =>
      cases again with
      | ends other =>
          rw [stepped] at other
          cases other
      | goes other rest =>
          rw [stepped] at other
          cases other
          obtain ⟨rfl, rfl⟩ := ih rest
          exact ⟨rfl, rfl⟩

section Turn

variable {files : FileTree}

theorem turn_root (missing : probe files [] = .ok false) :
    turn files ⟨.slash, []⟩ = .inl (.ok none) := by
  have missing : files.exists? [] ((Path.mk .slash []).child fileName) = .ok false := missing
  have itself : (Path.mk .slash []).parent = ⟨.slash, []⟩ := rfl
  rw [turn, missing]
  exact if_pos itself

theorem turn_above {above : List String} {last : String}
    (missing : probe files (above ++ [last]) = .ok false) :
    turn files ⟨.slash, above ++ [last]⟩ = .inr ⟨.slash, above⟩ := by
  have missing : files.exists? [] ((Path.mk .slash (above ++ [last])).child fileName) =
      .ok false := missing
  have parent : (Path.mk .slash (above ++ [last])).parent = ⟨.slash, above⟩ := by
    simp [Path.parent]
  have shorter : (Path.mk .slash above) ≠ ⟨.slash, above ++ [last]⟩ := by simp
  rw [turn, missing, parent]
  exact if_neg shorter

theorem turn_found {directory : List String} (found : probe files directory = .ok true) :
    turn files ⟨.slash, directory⟩ = .inl (.ok (some ⟨.slash, directory ++ [fileName]⟩)) := by
  have found : files.exists? [] ((Path.mk .slash directory).child fileName) = .ok true := found
  rw [turn, found]
  rfl

theorem turn_fails {directory : List String} {failure : Failure}
    (fails : probe files directory = .error failure) :
    turn files ⟨.slash, directory⟩ = .inl (.error failure) := by
  have fails : files.exists? [] ((Path.mk .slash directory).child fileName) = .error failure :=
    fails
  rw [turn, fails]

theorem searchUpward_nil (files : FileTree) : searchUpward files fileName [] =
    (probe files []).map fun found => if found then some ⟨.slash, [fileName]⟩ else none := by
  rw [searchUpward, probe, List.nil_append]
  rcases files.exists? [] ⟨.slash, [fileName]⟩ with failure | _ | _ <;> rfl

theorem searchUpward_concat (files : FileTree) (above : List String) (last : String) :
    searchUpward files fileName (above ++ [last]).reverse =
      match probe files (above ++ [last]) with
      | .error failure => .error failure
      | .ok true => .ok (some ⟨.slash, above ++ [last] ++ [fileName]⟩)
      | .ok false => searchUpward files fileName above.reverse := by
  rw [List.reverse_concat, searchUpward, probe, List.reverse_cons, List.reverse_reverse]
  rcases files.exists? [] ⟨.slash, above ++ [last] ++ [fileName]⟩ with failure | _ | _ <;> rfl

/-- Every turn but the last one makes the path shorter. -/
theorem search_searchUpward (files : FileTree) (directory : List String) :
    ∃ turns, turns ≤ directory.length + 1 ∧
      Search files ⟨.slash, directory⟩ turns (searchUpward files fileName directory.reverse) := by
  induction directory using List.reverseRecOn with
  | nil =>
      refine ⟨1, Nat.le_refl 1, .ends ?_⟩
      rw [List.reverse_nil, searchUpward_nil]
      cases answer : probe files [] with
      | error failure => exact turn_fails answer
      | ok found =>
          cases found with
          | true => exact turn_found answer
          | false => exact turn_root answer
  | append_singleton above last ih =>
      rw [searchUpward_concat]
      cases answer : probe files (above ++ [last]) with
      | error failure => exact ⟨1, by omega, .ends (turn_fails answer)⟩
      | ok found =>
          cases found with
          | true => exact ⟨1, by omega, .ends (turn_found answer)⟩
          | false =>
              obtain ⟨turns, bound, search⟩ := ih
              refine ⟨turns + 1, ?_, .goes (turn_above answer) search⟩
              rw [List.length_append, List.length_singleton]
              omega

end Turn

structure First (files : FileTree) (start directory : List String) (answer : Except Failure Bool) :
    Prop where
  above : directory <+: start
  answers : probe files directory = answer
  first : ∀ between, between <+: start → directory.length < between.length →
    probe files between = .ok false

inductive Answers (files : FileTree) (start : List String) :
    Except Failure (Option Path) → Prop
  | found {directory : List String} : First files start directory (.ok true) →
      Answers files start (.ok (some ⟨.slash, directory ++ [fileName]⟩))
  | fails {directory : List String} {failure : Failure} :
      First files start directory (.error failure) → Answers files start (.error failure)
  | missing : (∀ directory, directory <+: start → probe files directory = .ok false) →
      Answers files start (.ok none)

section Answers

variable {files : FileTree} {start directory deeper : List String} {answer : Except Failure Bool}

theorem First.itself (answers : probe files start = answer) : First files start start answer := by
  refine ⟨List.prefix_rfl, answers, fun between inside longer => ?_⟩
  have shorter := inside.length_le
  omega

theorem First.below (first : First files start directory answer) (inside : start <+: deeper)
    (missing : ∀ between, between <+: deeper → start.length < between.length →
      probe files between = .ok false) : First files deeper directory answer := by
  refine ⟨first.above.trans inside, first.answers, fun between above longer => ?_⟩
  by_cases within : between.length ≤ start.length
  · exact first.first between (List.prefix_of_prefix_length_le above inside within) longer
  · exact missing between above (by omega)

theorem First.unique {other : List String} {also : Except Failure Bool}
    (first : First files start directory answer) (stands : answer ≠ .ok false)
    (again : First files start other also) (tells : also ≠ .ok false) :
    other = directory ∧ also = answer := by
  have same : other = directory := by
    obtain shorter | same | longer := Nat.lt_trichotomy directory.length other.length
    · exact absurd (again.answers.symm.trans (first.first other again.above shorter)) tells
    · exact ((List.prefix_of_prefix_length_le first.above again.above
        (Nat.le_of_eq same)).eq_of_length same).symm
    · exact absurd (first.answers.symm.trans (again.first directory first.above longer)) stands
  exact ⟨same, again.answers.symm.trans (same ▸ first.answers)⟩

namespace Answers

variable {found other : Except Failure (Option Path)}

/-- Directories without the file do not matter to a search from below them. -/
theorem below (answers : Answers files start found) (inside : start <+: deeper)
    (missing : ∀ between, between <+: deeper → start.length < between.length →
      probe files between = .ok false) : Answers files deeper found := by
  cases answers with
  | found first => exact .found (first.below inside missing)
  | fails first => exact .fails (first.below inside missing)
  | missing none =>
      refine .missing fun between above => ?_
      by_cases within : between.length ≤ start.length
      · exact none between (List.prefix_of_prefix_length_le above inside within)
      · exact missing between above (by omega)

theorem unique (answers : Answers files start found) (also : Answers files start other) :
    other = found := by
  cases answers with
  | found first =>
      cases also with
      | found again =>
          obtain ⟨rfl, -⟩ := first.unique (by simp) again (by simp)
          rfl
      | fails again => cases (first.unique (by simp) again (by simp)).2
      | missing none => cases first.answers.symm.trans (none _ first.above)
  | fails first =>
      cases also with
      | found again => cases (first.unique (by simp) again (by simp)).2
      | fails again =>
          cases (first.unique (by simp) again (by simp)).2
          rfl
      | missing none => cases first.answers.symm.trans (none _ first.above)
  | missing none =>
      cases also with
      | found again => cases again.answers.symm.trans (none _ again.above)
      | fails again => cases again.answers.symm.trans (none _ again.above)
      | missing _ => rfl

end Answers

theorem answers_searchUpward (files : FileTree) (start : List String) :
    Answers files start (searchUpward files fileName start.reverse) := by
  induction start using List.reverseRecOn with
  | nil =>
      rw [List.reverse_nil, searchUpward_nil]
      cases answer : probe files [] with
      | error failure => exact .fails (.itself answer)
      | ok found =>
          cases found with
          | true => exact .found (.itself answer)
          | false =>
              refine .missing fun directory above => ?_
              obtain rfl : directory = [] := by simpa using above
              exact answer
  | append_singleton above last ih =>
      rw [searchUpward_concat]
      cases answer : probe files (above ++ [last]) with
      | error failure => exact .fails (.itself answer)
      | ok found =>
          cases found with
          | true => exact .found (.itself answer)
          | false =>
              refine ih.below (List.prefix_append _ _) fun between inside longer => ?_
              have whole : between = above ++ [last] := by
                refine inside.eq_of_length_le ?_
                simp only [List.length_append, List.length_singleton]
                omega
              exact whole ▸ answer

end Answers

/-- How a file is searched for from a directory. -/
structure Searches (files : FileTree) (surroundings : Surroundings) (start : Path) : Prop where
  ends : ∀ resolved, files.resolve surroundings start = .ok resolved →
    (∃ turns, turns ≤ resolved.parts.length + 1 ∧
      Search files resolved turns (findFile files surroundings start)) ∧
    ∀ turns answer, Search files resolved turns answer →
      answer = findFile files surroundings start
  found : ∀ file, findFile files surroundings start = .ok (some file) ↔
    ∃ resolved directory, files.resolve surroundings start = .ok resolved ∧
      First files resolved.parts directory (.ok true) ∧
      file = ⟨.slash, directory ++ [fileName]⟩
  missing : findFile files surroundings start = .ok none ↔
    ∃ resolved, files.resolve surroundings start = .ok resolved ∧
      ∀ directory, directory <+: resolved.parts → probe files directory = .ok false
  fails : ∀ failure, findFile files surroundings start = .error failure ↔
    files.resolve surroundings start = .error failure ∨
    ∃ resolved directory, files.resolve surroundings start = .ok resolved ∧
      First files resolved.parts directory (.error failure)
  unresolved : ∀ failure, files.resolve surroundings start = .error failure →
    (∃ resolved : Path, files.find [] resolved = .error .linkLoop ∧
      failure = .foreign "RuntimeError" ("Symlink loop from " ++ Text.quoted resolved.toString)) ∨
    failure = .foreign "ValueError" "embedded null byte"
  refused : ∀ directory failure, probe files directory = .error failure →
    ∃ error, (error = .forbidden ∨ error = .longName) ∧
      failure = AccessError.failure error (Path.mk .slash (directory ++ [fileName])).toString
  below : ∀ elsewhere deeper resolved lower, files.resolve surroundings start = .ok resolved →
    files.resolve elsewhere deeper = .ok lower → resolved.parts <+: lower.parts →
    (∀ between, between <+: lower.parts → resolved.parts.length < between.length →
      probe files between = .ok false) →
    findFile files elsewhere deeper = findFile files surroundings start
  -- A path that leads to something is resolved to where it leads.
  starts : files.Sound → (start.absolute surroundings).Clean →
    ∀ entry, files.find [] (start.absolute surroundings) = .ok entry →
    ∃ reached, files.locate [] (start.absolute surroundings) = .ok reached ∧
      files.resolve surroundings start = .ok ⟨.slash, reached⟩
  settled : ∀ resolved, files.resolve surroundings start = .ok resolved →
    FileTree.Settled resolved
  linkless : files.links = [] →
    (∀ part ∈ (start.absolute surroundings).parts, '\x00' ∉ part.toList) →
    files.resolve surroundings start =
      .ok ⟨.slash, Path.withoutDots (start.absolute surroundings).parts⟩
  -- A link counts as what it leads to, and as nothing where it leads to nothing.
  follows : ∀ directory, probe files directory = .ok true ↔
    (Path.mk .slash (directory ++ [fileName])).access? = none ∧
    ∃ reached cost, cost ≤ FileTree.linkLimit ∧
      files.Leads [] (directory ++ [fileName]) reached cost ∧
      (files.entry? reached).isSome = true
  plain : ∀ directory, files.Searchable directory →
    (Path.mk .slash (directory ++ [fileName])).access? = none →
    files.link? (directory ++ [fileName]) = none →
    probe files directory = .ok (files.entry? (directory ++ [fileName])).isSome
  locked : ∀ directory, files.Place directory → files.entry? directory = some .directory →
    directory ∈ files.locked → (Path.mk .slash (directory ++ [fileName])).access? = none →
    probe files directory = .error (AccessError.forbidden.failure
      (Path.mk .slash (directory ++ [fileName])).toString)
  -- A name below them that is too long is no directory without an entry.
  overlong : ∀ directory name, files.Searchable directory → Path.isPart name = true →
    name ≠ ".." → FileTree.nameLimit < name.utf8ByteSize → '\x00' ∉ name.toList →
    probe files (directory ++ [name]) = .error (AccessError.longName.failure
      (Path.mk .slash (directory ++ [name] ++ [fileName])).toString)

section Find

variable {files : FileTree} {surroundings : Surroundings} {start resolved : Path}

theorem findFile_of_resolve (resolves : files.resolve surroundings start = .ok resolved) :
    findFile files surroundings start = searchUpward files fileName resolved.parts.reverse := by
  rw [findFile, resolves]
  rfl

theorem findFile_unresolved {failure : Failure}
    (fails : files.resolve surroundings start = .error failure) :
    findFile files surroundings start = .error failure := by
  rw [findFile, fails]
  rfl

theorem answers_findFile (resolves : files.resolve surroundings start = .ok resolved) :
    Answers files resolved.parts (findFile files surroundings start) := by
  rw [findFile_of_resolve resolves]
  exact answers_searchUpward files resolved.parts

/-- The search has the answer that it has to give, unless its start does not resolve. -/
theorem findFile_cases (files : FileTree) (surroundings : Surroundings) (start : Path) :
    (∃ failure, files.resolve surroundings start = .error failure ∧
      findFile files surroundings start = .error failure) ∨
    ∃ resolved, files.resolve surroundings start = .ok resolved ∧
      Answers files resolved.parts (findFile files surroundings start) := by
  cases resolves : files.resolve surroundings start with
  | error failure => exact .inl ⟨failure, rfl, findFile_unresolved resolves⟩
  | ok resolved => exact .inr ⟨resolved, rfl, answers_findFile resolves⟩

end Find

theorem file_searches (files : FileTree) (surroundings : Surroundings) (start : Path) :
    Searches files surroundings start where
  ends resolved resolves := by
    have rooted := (FileTree.settled_of_resolve resolves).rooted
    obtain ⟨turns, bound, search⟩ := search_searchUpward files resolved.parts
    have same : (Path.mk .slash resolved.parts) = resolved := by rw [← rooted]
    rw [same, ← findFile_of_resolve resolves] at search
    exact ⟨⟨turns, bound, search⟩, fun others answer also => (search.unique also).2⟩
  found file := by
    constructor
    · intro found
      rcases findFile_cases files surroundings start with ⟨_, _, fails⟩ | ⟨_, resolves, answers⟩
      · cases found.symm.trans fails
      · rw [found] at answers
        cases answers with
        | found first => exact ⟨_, _, resolves, first, rfl⟩
    · rintro ⟨resolved, directory, resolves, first, rfl⟩
      exact (Answers.unique (.found first) (answers_findFile resolves))
  missing := by
    constructor
    · intro missing
      rcases findFile_cases files surroundings start with ⟨_, _, fails⟩ | ⟨_, resolves, answers⟩
      · cases missing.symm.trans fails
      · rw [missing] at answers
        cases answers with
        | missing none => exact ⟨_, resolves, none⟩
    · rintro ⟨resolved, resolves, none⟩
      exact (Answers.unique (.missing none) (answers_findFile resolves))
  fails failure := by
    constructor
    · intro fails
      rcases findFile_cases files surroundings start with ⟨_, stuck, also⟩ | ⟨_, resolves, answers⟩
      · cases fails.symm.trans also
        exact .inl stuck
      · rw [fails] at answers
        cases answers with
        | fails first => exact .inr ⟨_, _, resolves, first⟩
    · rintro (stuck | ⟨resolved, directory, resolves, first⟩)
      · exact findFile_unresolved stuck
      · exact (Answers.unique (.fails first) (answers_findFile resolves))
  below elsewhere deeper resolved lower resolves lowers inside missing :=
    Answers.unique ((answers_findFile resolves).below inside missing) (answers_findFile lowers)
  starts sound clean _ finds := FileTree.resolve_of_find sound clean finds
  settled _ := FileTree.settled_of_resolve
  unresolved _ := FileTree.resolve_error
  refused _ _ := FileTree.look_error
  linkless none := FileTree.resolve_linkless none
  follows _ := FileTree.exists?_eq_true_iff
  plain _ searchable access plain :=
    searchable.exists?_child (by decide) (by decide) (by decide) access plain
  locked _ place entry locked access := FileTree.exists?_locked place entry locked access
  overlong directory name searchable named level overlong clean := by
    have fails := searchable.exists?_overlong [fileName] named level overlong
      (by simpa using ⟨clean, by decide⟩)
    rwa [List.append_cons] at fails

theorem utf8ByteSize_replicate (count : Nat) :
    (String.ofList (List.replicate count 'a')).utf8ByteSize = count := by
  induction count with
  | zero => rfl
  | succ count ih =>
      rw [List.replicate_succ, String.ofList_cons, String.utf8ByteSize_append, ih,
        String.utf8ByteSize_singleton, show 'a'.utf8Size = 1 from rfl]
      omega

def overlongName : String := String.ofList (List.replicate 300 'a')

-- A configuration file in a directory, with nothing beside it.
def sparseTree : FileTree := ⟨[(["w", fileName], ⟨#[]⟩)], [], [], []⟩

/-- The nearest file is there, and yet a search from a name that is too long fails. -/
theorem overlong_start_fails :
    let around : Surroundings := ⟨⟨.slash, ["w"]⟩, fun _ => none⟩
    findFile sparseTree around ⟨.slash, ["w"]⟩ = .ok (some ⟨.slash, ["w", fileName]⟩) ∧
    findFile sparseTree around ⟨.slash, ["w", overlongName]⟩ =
      .error (AccessError.longName.failure
        (Path.mk .slash ["w", overlongName, fileName]).toString) := by
  intro around
  have searches (start : Path) := file_searches sparseTree around start
  have directory : sparseTree.entry? ["w"] = some .directory := by rfl
  have place : sparseTree.Place ["w"] := FileTree.Place.nil.snoc rfl rfl (by decide)
  have searchable : sparseTree.Searchable ["w"] := ⟨place, directory, by decide⟩
  have size : overlongName.utf8ByteSize = 300 := utf8ByteSize_replicate 300
  have letters : overlongName.toList = List.replicate 300 'a' := String.toList_ofList
  have clean : '\x00' ∉ overlongName.toList := by
    rw [letters, List.mem_replicate]
    decide
  have named : overlongName ≠ "" ∧ overlongName ≠ "." ∧ overlongName ≠ ".." := by
    refine ⟨?_, ?_, ?_⟩ <;> intro same <;> rw [same] at size <;> cases size
  have resolves {parts : List String} (clean : ∀ part ∈ parts, '\x00' ∉ part.toList)
      (level : ".." ∉ parts) :
      sparseTree.resolve around ⟨.slash, parts⟩ = .ok ⟨.slash, parts⟩ := by
    have same : (Path.mk .slash parts).absolute around = ⟨.slash, parts⟩ := rfl
    have resolves := (searches ⟨.slash, parts⟩).linkless rfl (by rwa [same])
    rwa [same, Path.withoutDots_level level] at resolves
  have holds : probe sparseTree ["w"] = .ok true :=
    (searches ⟨.slash, ["w"]⟩).plain ["w"] searchable (by decide +kernel) rfl
  have fails := (searches ⟨.slash, ["w"]⟩).overlong ["w"] overlongName searchable
    (by simp [Path.isPart, named]) named.2.2 (by rw [size]; decide) clean
  constructor
  · refine ((searches _).found _).mpr ⟨_, _, resolves ?_ ?_, .itself holds, rfl⟩
    · decide
    · decide
  · refine ((searches _).fails _).mpr (.inr ⟨_, _, resolves ?_ ?_, .itself fails⟩)
    · rw [List.forall_mem_cons, List.forall_mem_singleton]
      exact ⟨by decide, clean⟩
    · simp [Ne.symm named.2.2]

end Settings

end Schematron
