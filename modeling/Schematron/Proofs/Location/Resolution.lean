import Schematron.Location.Path
import Schematron.Proofs.Text.Splitting

/-!
The resolution of rule-set locations. Main statement: what a location resolves to is absolute and
has its components, it resolves to itself from everywhere, and seen from a base it is what it is
from the directory that the base resolves to.
-/

namespace Schematron

structure IsComponent (part : String) : Prop where
  nonempty : part ≠ ""
  notDot : part ≠ "."
  slashless : '/' ∉ part.toList

def climbs (parts : List String) : List String := parts.filter (· == "..")

theorem climbs_append (parts others : List String) :
    climbs (parts ++ others) = climbs parts ++ climbs others := List.filter_append ..

namespace Path

def Clean (path : Path) : Prop := ∀ part ∈ path.parts, IsComponent part

theorem ofString_clean (source : String) : (ofString source).Clean := by
  intro part member
  obtain ⟨piece, isPart⟩ := List.mem_filter.mp member
  obtain ⟨chars, split, rfl⟩ := List.mem_map.mp piece
  obtain ⟨nonempty, notDot⟩ : String.ofList chars ≠ "" ∧ String.ofList chars ≠ "." := by
    simpa [Path.isPart] using isPart
  have slashless := Text.not_mem_of_mem_splitAt split
  exact ⟨nonempty, notDot, by simpa using slashless⟩

/-- Empty names and single dots do not climb. -/
theorem climbs_ofString (source : String) :
    climbs (ofString source).parts = climbs (Text.splitString '/' source) := by
  rw [ofString, climbs, climbs, List.filter_filter]
  refine List.filter_congr fun part _ => ?_
  by_cases climbing : part = ".."
  · subst climbing; rfl
  · simp [climbing]

theorem isAbsolute_ofString (source : String) :
    (ofString source).isAbsolute = true ↔ source.toList.head? = some '/' := by
  rw [ofString, isAbsolute]
  cases source.toList with
  | nil => simp
  | cons first rest =>
      by_cases slash : first = '/'
      · subst slash
        simp only [List.takeWhile_cons, beq_self_eq_true, if_true, List.length_cons,
          List.head?_cons, iff_true]
        split <;> simp_all
      · simp [slash]

section Written

variable {parts : List String}

theorem head_written (components : ∀ part ∈ parts, IsComponent part) :
    ("/".intercalate parts).toList.head? ≠ some '/' := by
  cases parts with
  | nil => simp
  | cons part rest =>
      have component := components part List.mem_cons_self
      have nonempty : part.toList ≠ [] := fun empty => component.nonempty (by simpa using empty)
      obtain ⟨first, others, chars⟩ := List.exists_cons_of_ne_nil nonempty
      have different : first ≠ '/' := by
        rintro rfl
        exact component.slashless (by simp [chars])
      cases rest <;> simp [chars, different]

theorem leading_written (components : ∀ part ∈ parts, IsComponent part) :
    (['/'].intercalate (parts.map String.toList)).takeWhile (· == '/') = [] := by
  have head := head_written components
  rw [String.toList_intercalate] at head
  cases chars : ['/'].intercalate (parts.map String.toList) with
  | nil => rfl
  | cons first rest =>
      have different : first ≠ '/' := by
        rintro rfl
        exact head (by simp [chars])
      simp [different]

theorem filter_components (components : ∀ part ∈ parts, IsComponent part) :
    parts.filter isPart = parts := by
  refine List.filter_eq_self.mpr fun part member => ?_
  simp [isPart, (components part member).nonempty, (components part member).notDot]

theorem split_written (components : ∀ part ∈ parts, IsComponent part) :
    (Text.splitString '/' ("/".intercalate parts)).filter isPart = parts := by
  by_cases empty : parts = []
  · subst empty; rfl
  · have slashless : ∀ piece ∈ parts.map String.toList, '/' ∉ piece := by
      intro piece member
      obtain ⟨part, inside, rfl⟩ := List.mem_map.mp member
      exact (components part inside).slashless
    have pieces : Text.splitString '/' ("/".intercalate parts) = parts := by
      rw [Text.splitString, Text.splitAt_eq, String.toList_intercalate]
      rw [show ("/" : String).toList = ['/'] from rfl,
        List.splitOn_intercalate '/' slashless (by simpa using empty), List.map_map]
      simp [Function.comp_def]
    rw [pieces, filter_components components]

theorem splitString_slash (source : String) :
    Text.splitString '/' ("/" ++ source) = "" :: Text.splitString '/' source := by
  simp [Text.splitString, Text.splitAt]

/-- A path is what its written form says. -/
theorem ofString_toString {path : Path} (clean : path.Clean) : ofString path.toString = path := by
  obtain ⟨root, parts⟩ := path
  replace clean : ∀ part ∈ parts, IsComponent part := clean
  have leading := leading_written clean
  have split := split_written clean
  cases root with
  | relative =>
      cases parts with
      | nil => rfl
      | cons part rest =>
          rw [List.map_cons] at leading
          simp [toString, PathRoot.written, ofString, leading, split]
  | slash =>
      have dropped : isPart "" = false := rfl
      simp [toString, PathRoot.written, ofString, splitString_slash, leading, split, dropped]
  | doubleSlash =>
      have dropped : isPart "" = false := rfl
      have twice : "//" ++ "/".intercalate parts = "/" ++ ("/" ++ "/".intercalate parts) := by
        rw [← String.append_assoc]; rfl
      simp [toString, PathRoot.written, twice, ofString, splitString_slash, leading, split, dropped]

end Written

theorem join_absolute {base path : Path} (absolute : path.isAbsolute = true) :
    base.join path = path := if_pos absolute

theorem join_relative {base path : Path} (relative : path.isAbsolute = false) :
    base.join path = ⟨base.root, base.parts ++ path.parts⟩ := by simp [join, relative]

theorem isAbsolute_join {base path : Path} (absolute : base.isAbsolute = true) :
    (base.join path).isAbsolute = true := by
  rw [join]
  split
  · assumption
  · exact absolute

theorem join_assoc (first second third : Path) :
    first.join (second.join third) = (first.join second).join third := by
  cases last : third.isAbsolute with
  | true => simp only [join_absolute last]
  | false =>
      rw [join_relative last, join_relative last]
      cases middle : second.isAbsolute with
      | true => rw [join_absolute middle, join_absolute (by exact middle)]
      | false => rw [join_relative middle, join_relative (by exact middle), List.append_assoc]

theorem Clean.join {base path : Path} (below : base.Clean) (clean : path.Clean) :
    (base.join path).Clean := by
  rw [Path.join]
  split
  · exact clean
  · intro part member
    rcases List.mem_append.mp member with inBase | inPath
    · exact below part inBase
    · exact clean part inPath

structure NeedsBase (path : Path) : Prop where
  relative : path.isAbsolute = false
  tildeless : ∀ first ∈ path.parts.head?, first.toList.head? ≠ some '~'

inductive Expands (surroundings : Surroundings) (path : Path) : Except LocationError Path → Prop
  | absolute : path.isAbsolute = true → Expands surroundings path (.ok path)
  | needsBase : path.NeedsBase → Expands surroundings path (.ok path)
  | atHome {first : String} {user : List Char} {home : String} {rest : List String} :
      path = ⟨.relative, first :: rest⟩ → first.toList = '~' :: user →
      surroundings.home (String.ofList user) = some home →
      Expands surroundings path (.ok ((ofString home).join ⟨.relative, rest⟩))
  | homeless {first : String} {user : List Char} {rest : List String} :
      path = ⟨.relative, first :: rest⟩ → first.toList = '~' :: user →
      surroundings.home (String.ofList user) = none →
      Expands surroundings path (.error .noHome)

theorem expands_expandHome (surroundings : Surroundings) (path : Path) :
    Expands surroundings path (path.expandHome surroundings) := by
  obtain ⟨root, parts⟩ := path
  cases root with
  | slash => exact .absolute rfl
  | doubleSlash => exact .absolute rfl
  | relative =>
      cases parts with
      | nil => exact .needsBase ⟨rfl, by simp⟩
      | cons first rest =>
          simp only [expandHome]
          split
          next user tilde =>
            split
            next home found => exact .atHome rfl tilde found
            next missing => exact .homeless rfl tilde missing
          next tildeless =>
            refine .needsBase ⟨rfl, fun part member head => ?_⟩
            obtain rfl : first = part := by simpa using member
            obtain ⟨user, tilde⟩ := List.head?_eq_some_iff.mp head
            exact tildeless user tilde

theorem not_needsBase_of_tilde {first : String} {user : List Char} {rest : List String}
    (tilde : first.toList = '~' :: user) : ¬(Path.mk .relative (first :: rest)).NeedsBase :=
  fun needs => needs.tildeless first rfl (by simp [tilde])

theorem expandHome_of_isAbsolute {path : Path} (surroundings : Surroundings)
    (absolute : path.isAbsolute = true) : path.expandHome surroundings = .ok path := by
  obtain ⟨root, parts⟩ := path
  cases root with
  | relative => exact absurd absolute Bool.false_ne_true
  | slash => rfl
  | doubleSlash => rfl

theorem expandHome_of_needsBase {path : Path} (surroundings : Surroundings)
    (needs : path.NeedsBase) : path.expandHome surroundings = .ok path := by
  have expands := expands_expandHome surroundings path
  generalize path.expandHome surroundings = outcome at expands ⊢
  cases expands with
  | absolute _ => rfl
  | needsBase _ => rfl
  | atHome written tilde found =>
      subst written
      exact absurd needs (not_needsBase_of_tilde tilde)
  | homeless written tilde missing =>
      subst written
      exact absurd needs (not_needsBase_of_tilde tilde)

end Path

structure Surroundings.Rooted (surroundings : Surroundings) : Prop where
  here : ∃ directory, surroundings.workingDirectory = .ofString directory
  absolute : surroundings.workingDirectory.isAbsolute = true
  homes : ∀ user home, surroundings.home user = some home → (Path.ofString home).isAbsolute = true

def Surroundings.start (surroundings : Surroundings) : Option String → Except LocationError Path
  | some base => (Path.ofString base).expandHome surroundings
  | none => .ok surroundings.workingDirectory

def Surroundings.startParts (surroundings : Surroundings) : Option String → List String
  | some base => Text.splitString '/' base
  | none => surroundings.workingDirectory.parts

namespace Path.Expands

variable {surroundings : Surroundings} {path expanded : Path}

theorem clean (expands : Expands surroundings path (.ok expanded)) (clean : path.Clean) :
    expanded.Clean := by
  cases expands with
  | absolute _ => exact clean
  | needsBase _ => exact clean
  | @atHome first user home rest written tilde found =>
      subst written
      refine (ofString_clean home).join fun part member => ?_
      exact clean part (List.mem_cons_of_mem _ member)

theorem climbs_suffix (expands : Expands surroundings path (.ok expanded)) :
    climbs path.parts <:+ climbs expanded.parts := by
  cases expands with
  | absolute _ => exact List.suffix_rfl
  | needsBase _ => exact List.suffix_rfl
  | @atHome first user home rest written tilde found =>
      subst written
      have level : climbs (first :: rest) = climbs rest := by
        refine List.filter_cons_of_neg fun climbing => ?_
        obtain rfl : first = ".." := by simpa using climbing
        simp at tilde
      rw [level, join_relative rfl, climbs_append]
      exact List.suffix_append _ _

theorem isAbsolute (rooted : surroundings.Rooted) (baseless : ¬path.NeedsBase)
    (expands : Expands surroundings path (.ok expanded)) : expanded.isAbsolute = true := by
  cases expands with
  | absolute absolute => exact absolute
  | needsBase needs => exact absurd needs baseless
  | atHome written tilde found => exact isAbsolute_join (rooted.homes _ _ found)

end Path.Expands

section Resolution

variable {surroundings : Surroundings} {location : String}

theorem resolve_of_isAbsolute (surroundings : Surroundings) (base : Option String)
    (absolute : (Path.ofString location).isAbsolute = true) :
    resolveLocation surroundings base location = .ok (.ofString location) := by
  rw [resolveLocation, Path.expandHome_of_isAbsolute surroundings absolute]
  simp [absolute, bind, Except.bind, pure, Except.pure]

theorem resolve_of_baseless (rooted : surroundings.Rooted)
    (baseless : ¬(Path.ofString location).NeedsBase) (base : Option String) :
    resolveLocation surroundings base location =
      (Path.ofString location).expandHome surroundings := by
  have expands := Path.expands_expandHome surroundings (.ofString location)
  rw [resolveLocation]
  cases outcome : (Path.ofString location).expandHome surroundings with
  | error error => rfl
  | ok path =>
      rw [outcome] at expands
      simp [expands.isAbsolute rooted baseless, bind, Except.bind, pure, Except.pure]

theorem resolve_of_needsBase (surroundings : Surroundings)
    (needs : (Path.ofString location).NeedsBase) (base : Option String) :
    resolveLocation surroundings base location = (surroundings.start base).map fun start =>
      (surroundings.workingDirectory.join start).join (.ofString location) := by
  rw [resolveLocation, Path.expandHome_of_needsBase surroundings needs]
  cases base with
  | none =>
      simp [needs.relative, bind, Except.bind, pure, Except.pure, Surroundings.start, Except.map,
        Path.absolute, Path.join_assoc]
  | some base =>
      simp only [needs.relative, bind, Except.bind, pure, Except.pure, Surroundings.start]
      cases (Path.ofString base).expandHome surroundings with
      | error error => rfl
      | ok start => simp [Except.map, Path.absolute, Path.join_assoc]

inductive Resolves (surroundings : Surroundings) (base : Option String) (location : String) :
    Path → Prop
  | itself {path : Path} : ¬(Path.ofString location).NeedsBase →
      (Path.ofString location).Expands surroundings (.ok path) → path.isAbsolute = true →
      Resolves surroundings base location path
  | below {start : Path} : (Path.ofString location).NeedsBase →
      surroundings.start base = .ok start →
      Resolves surroundings base location
        ((surroundings.workingDirectory.join start).join (.ofString location))

theorem resolves_of_ok (rooted : surroundings.Rooted) {base : Option String} {path : Path}
    (resolved : resolveLocation surroundings base location = .ok path) :
    Resolves surroundings base location path := by
  by_cases needs : (Path.ofString location).NeedsBase
  · rw [resolve_of_needsBase surroundings needs] at resolved
    cases found : surroundings.start base with
    | error error => simp [found, Except.map] at resolved
    | ok start =>
        obtain rfl : _ = path := by simpa [found, Except.map] using resolved
        exact .below needs found
  · rw [resolve_of_baseless rooted needs] at resolved
    have expands := Path.expands_expandHome surroundings (.ofString location)
    rw [resolved] at expands
    exact .itself needs expands (expands.isAbsolute rooted needs)

end Resolution

namespace Surroundings

variable {surroundings : Surroundings} {base : Option String} {start : Path}

theorem start_clean (rooted : surroundings.Rooted) (found : surroundings.start base = .ok start) :
    start.Clean := by
  cases base with
  | none =>
      obtain ⟨directory, written⟩ := rooted.here
      obtain rfl : surroundings.workingDirectory = start := by
        simpa [Surroundings.start] using found
      exact written ▸ Path.ofString_clean directory
  | some base =>
      have expands := Path.expands_expandHome surroundings (.ofString base)
      rw [show (Path.ofString base).expandHome surroundings = .ok start from found] at expands
      exact expands.clean (Path.ofString_clean base)

theorem start_climbs (found : surroundings.start base = .ok start) :
    climbs (surroundings.startParts base) <:+ climbs start.parts := by
  cases base with
  | none =>
      obtain rfl : surroundings.workingDirectory = start := by
        simpa [Surroundings.start] using found
      exact List.suffix_rfl
  | some base =>
      have expands := Path.expands_expandHome surroundings (.ofString base)
      rw [show (Path.ofString base).expandHome surroundings = .ok start from found] at expands
      rw [startParts, ← Path.climbs_ofString]
      exact expands.climbs_suffix

/-- Where a base leads when it is itself resolved. -/
theorem resolve_base (rooted : surroundings.Rooted) (base : String) :
    resolveLocation surroundings none base =
      (surroundings.start (some base)).map surroundings.workingDirectory.join := by
  by_cases needs : (Path.ofString base).NeedsBase
  · rw [resolve_of_needsBase surroundings needs, Surroundings.start, Surroundings.start,
      Path.expandHome_of_needsBase surroundings needs]
    simp [Except.map, Path.join_absolute rooted.absolute]
  · rw [resolve_of_baseless rooted needs, Surroundings.start]
    have expands := Path.expands_expandHome surroundings (.ofString base)
    cases outcome : (Path.ofString base).expandHome surroundings with
    | error error => rfl
    | ok path =>
        rw [outcome] at expands
        have absolute := expands.isAbsolute rooted needs
        simp [Except.map, Path.join_absolute absolute]

end Surroundings

namespace Resolves

variable {surroundings : Surroundings} {base : Option String} {location : String} {path : Path}

theorem isAbsolute (rooted : surroundings.Rooted)
    (resolves : Resolves surroundings base location path) : path.isAbsolute = true := by
  cases resolves with
  | itself _ _ absolute => exact absolute
  | @below start needs found =>
      rw [Path.join_relative needs.relative]
      cases absolute : start.isAbsolute with
      | true => rw [Path.join_absolute absolute]; exact absolute
      | false => rw [Path.join_relative absolute]; exact rooted.absolute

theorem clean (rooted : surroundings.Rooted)
    (resolves : Resolves surroundings base location path) : path.Clean := by
  cases resolves with
  | itself _ expands _ => exact expands.clean (Path.ofString_clean location)
  | below needs found =>
      obtain ⟨directory, written⟩ := rooted.here
      have here : surroundings.workingDirectory.Clean := written ▸ Path.ofString_clean directory
      have start := Surroundings.start_clean rooted found
      exact (here.join start).join (Path.ofString_clean location)

theorem climbs_below {start : Path} (needs : (Path.ofString location).NeedsBase) :
    climbs start.parts ++ climbs (Text.splitString '/' location) <:+
      climbs ((surroundings.workingDirectory.join start).join (.ofString location)).parts := by
  rw [Path.join_relative needs.relative, climbs_append, Path.climbs_ofString,
    List.suffix_append_self_iff]
  cases absolute : start.isAbsolute with
  | true => exact (Path.join_absolute absolute).symm ▸ List.suffix_rfl
  | false =>
      rw [Path.join_relative absolute, climbs_append]
      exact List.suffix_append _ _

theorem climbs_suffix (resolves : Resolves surroundings base location path) :
    climbs (Text.splitString '/' location) <:+ climbs path.parts := by
  cases resolves with
  | itself _ expands _ =>
      rw [← Path.climbs_ofString]
      exact expands.climbs_suffix
  | below needs found => exact (List.suffix_append _ _).trans (climbs_below needs)

end Resolves

/-- How a location resolves from where one is. -/
structure Settles (surroundings : Surroundings) (location : String) : Prop where
  absolute : ∀ base path, resolveLocation surroundings base location = .ok path →
    path.isAbsolute = true ∧ path.Clean
  -- No component that leads to a parent is dropped, neither of the location nor of its base.
  climbing : ∀ base path, resolveLocation surroundings base location = .ok path →
    climbs (Text.splitString '/' location) <:+ climbs path.parts ∧
      ((Path.ofString location).NeedsBase →
        climbs (surroundings.startParts base) ++ climbs (Text.splitString '/' location) <:+
          climbs path.parts)
  stable : ∀ base path, resolveLocation surroundings base location = .ok path →
    ∀ elsewhere other, resolveLocation elsewhere other path.toString = .ok path
  independent : location.toList.head? = some '/' →
    ∀ base elsewhere other, resolveLocation surroundings base location = .ok (.ofString location) ∧
      resolveLocation elsewhere other location = .ok (.ofString location)
  composed : ∀ base directory, resolveLocation surroundings none base = .ok directory →
    resolveLocation surroundings (some base) location =
      resolveLocation surroundings (some directory.toString) location
  here : resolveLocation surroundings none location =
    resolveLocation surroundings (some surroundings.workingDirectory.toString) location
  -- A base that does not resolve matters just to the locations that are seen from it.
  unresolvable : ∀ base error, resolveLocation surroundings none base = .error error →
    ((Path.ofString location).NeedsBase →
      resolveLocation surroundings (some base) location = .error error) ∧
    (¬(Path.ofString location).NeedsBase →
      resolveLocation surroundings (some base) location =
        resolveLocation surroundings none location)

theorem resolve_toString {path : Path} (clean : path.Clean) (absolute : path.isAbsolute = true)
    (surroundings : Surroundings) (base : Option String) :
    resolveLocation surroundings base path.toString = .ok path := by
  have same := Path.ofString_toString clean
  rw [resolve_of_isAbsolute surroundings base (same.symm ▸ absolute), same]

theorem start_toString {path : Path} (clean : path.Clean) (absolute : path.isAbsolute = true)
    (surroundings : Surroundings) : surroundings.start (some path.toString) = .ok path := by
  rw [Surroundings.start, Path.ofString_toString clean]
  exact Path.expandHome_of_isAbsolute surroundings absolute

/-- Two bases are alike when one is where the other leads. -/
theorem resolve_from {surroundings : Surroundings} (rooted : surroundings.Rooted)
    {base other : Option String} {start : Path} (found : surroundings.start base = .ok start)
    (also : surroundings.start other = .ok (surroundings.workingDirectory.join start))
    (location : String) :
    resolveLocation surroundings base location = resolveLocation surroundings other location := by
  by_cases needs : (Path.ofString location).NeedsBase
  · have same : surroundings.workingDirectory.join (surroundings.workingDirectory.join start) =
        surroundings.workingDirectory.join start := by
      rw [Path.join_assoc, Path.join_absolute rooted.absolute]
    rw [resolve_of_needsBase surroundings needs, resolve_of_needsBase surroundings needs, found,
      also]
    simp [Except.map, same]
  · rw [resolve_of_baseless rooted needs, resolve_of_baseless rooted needs]

theorem location_settles {surroundings : Surroundings} (rooted : surroundings.Rooted)
    (location : String) : Settles surroundings location where
  absolute base path resolved := by
    have resolves := resolves_of_ok rooted resolved
    exact ⟨resolves.isAbsolute rooted, resolves.clean rooted⟩
  climbing base path resolved := by
    have resolves := resolves_of_ok rooted resolved
    refine ⟨resolves.climbs_suffix, fun needs => ?_⟩
    cases resolves with
    | itself baseless _ _ => exact absurd needs baseless
    | @below start _ found =>
        refine List.IsSuffix.trans ?_ (Resolves.climbs_below needs)
        exact List.suffix_append_self_iff.mpr (Surroundings.start_climbs found)
  stable base path resolved elsewhere other := by
    have resolves := resolves_of_ok rooted resolved
    exact resolve_toString (resolves.clean rooted) (resolves.isAbsolute rooted) elsewhere other
  independent slash base elsewhere other := by
    have absolute := (Path.isAbsolute_ofString location).mpr slash
    exact ⟨resolve_of_isAbsolute surroundings base absolute,
      resolve_of_isAbsolute elsewhere other absolute⟩
  composed base directory resolved := by
    have resolves := resolves_of_ok rooted resolved
    have again := start_toString (resolves.clean rooted) (resolves.isAbsolute rooted) surroundings
    rw [Surroundings.resolve_base rooted] at resolved
    cases found : surroundings.start (some base) with
    | error error => simp [found, Except.map] at resolved
    | ok start =>
        obtain rfl : _ = directory := by simpa [found, Except.map] using resolved
        exact resolve_from rooted found again location
  here := by
    obtain ⟨directory, written⟩ := rooted.here
    have clean : surroundings.workingDirectory.Clean := written ▸ Path.ofString_clean directory
    have again := start_toString clean rooted.absolute surroundings
    have same : surroundings.workingDirectory.join surroundings.workingDirectory =
        surroundings.workingDirectory := Path.join_absolute rooted.absolute
    exact resolve_from rooted rfl (same.symm ▸ again) location
  unresolvable base error failed := by
    rw [Surroundings.resolve_base rooted] at failed
    refine ⟨fun needs => ?_, fun baseless => ?_⟩
    · rw [resolve_of_needsBase surroundings needs]
      cases found : surroundings.start (some base) with
      | error reason =>
          rw [found] at failed
          exact failed
      | ok start => simp [found, Except.map] at failed
    · rw [resolve_of_baseless rooted baseless, resolve_of_baseless rooted baseless]

theorem location_settles_tilde :
    let home : String → Option String := fun user =>
      if user = "" then some "//home/oracle" else none
    Settles ⟨.ofString "/srv/app", home⟩ ".//~/../books.sch" ∧
      resolveLocation ⟨.ofString "/srv/app", home⟩ (some "~nobody") ".//~/../books.sch" =
        .ok ⟨.doubleSlash, ["home", "oracle", "..", "books.sch"]⟩ := by
  refine ⟨location_settles ⟨⟨"/srv/app", rfl⟩, rfl, fun user home found => ?_⟩ _, rfl⟩
  obtain ⟨_, rfl⟩ : user = "" ∧ "//home/oracle" = home := by simpa using found
  rfl

end Schematron
