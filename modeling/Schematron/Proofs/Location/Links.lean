import Schematron.FileTree
import Schematron.Proofs.Location.Resolution

/-!
Symbolic links. Main statement: where a path leads to something, resolving it gives the place that
it leads to. The walk counts the links that it follows, the resolution remembers the links that it
is within; what ties them is the cost of a target, which is smaller for every link met inside.
-/

namespace Schematron

section Failures

variable {ε δ α : Type} (change : ε → δ)

theorem mapError_ok (value : α) : (Except.ok value).mapError change = .ok value := rfl

theorem mapError_error (failure : ε) :
    (Except.error failure : Except ε α).mapError change = .error (change failure) := rfl

end Failures

namespace Path

theorem foldl_level {parts : List String} (level : ".." ∉ parts) (found : List String) :
    parts.foldl (fun kept part => if part == ".." then kept.dropLast else kept ++ [part]) found =
      found ++ parts := by
  induction parts generalizing found with
  | nil => simp
  | cons part rest ih =>
      obtain ⟨here, later⟩ := List.ne_and_not_mem_of_not_mem_cons level
      rw [List.foldl_cons, if_neg (by simpa using Ne.symm here), ih later]
      simp

theorem withoutDots_level {parts : List String} (level : ".." ∉ parts) :
    withoutDots parts = parts := foldl_level level []

theorem mem_foldl (parts : List String) {found : List String} {part : String}
    (member : part ∈ parts.foldl
      (fun kept part => if part == ".." then kept.dropLast else kept ++ [part]) found) :
    part ∈ found ∨ part ∈ parts ∧ part ≠ ".." := by
  induction parts generalizing found with
  | nil => exact .inl member
  | cons first rest ih =>
      rw [List.foldl_cons] at member
      rcases ih member with before | ⟨later, level⟩
      · split at before
        · exact .inl (List.dropLast_subset _ before)
        next other =>
          rcases List.mem_append.mp before with before | last
          · exact .inl before
          · obtain rfl := List.mem_singleton.mp last
            exact .inr ⟨List.mem_cons_self, by simpa using other⟩
      · exact .inr ⟨List.mem_cons_of_mem _ later, level⟩

theorem mem_withoutDots {parts : List String} {part : String}
    (member : part ∈ withoutDots parts) : part ∈ parts ∧ part ≠ ".." :=
  (mem_foldl parts member).resolve_left List.not_mem_nil

end Path

namespace FileTree

variable {tree : FileTree} {found next reached parts rest : List String} {part : String}

/-- The ways from a directory to an entry: up, nowhere, or to a name in it. -/
theorem enter_cases (enters : tree.enter found part = .ok next) :
    part = ".." ∧ next = found.dropLast ∨
    part ≠ ".." ∧ Path.isPart part = false ∧ next = found ∨
    part ≠ ".." ∧ Path.isPart part = true ∧ next = found ++ [part] := by
  rw [enter] at enters
  split at enters
  next => cases enters
  next => cases enters
  next =>
    split at enters
    next => cases enters
    next =>
      split at enters
      next up =>
        cases enters
        exact .inl ⟨by simpa using up, rfl⟩
      next level =>
        have level : part ≠ ".." := by simpa using level
        split at enters
        next stays =>
          cases enters
          exact .inr (.inl ⟨level, by simpa using stays, rfl⟩)
        next names =>
          split at enters
          next => cases enters
          next =>
            cases enters
            exact .inr (.inr ⟨level, by simpa using names, rfl⟩)

theorem enter_error {error : AccessError} (fails : tree.enter found part = .error error) :
    error = .missing ∨ error = .notDirectory ∨ error = .forbidden ∨ error = .longName := by
  rw [enter] at fails
  split at fails
  next => cases fails; simp
  next => cases fails; simp
  next =>
    split at fails
    next => cases fails; simp
    next =>
      split at fails
      next => cases fails
      next =>
        split at fails
        next => cases fails
        next =>
          split at fails
          next => cases fails; simp
          next => cases fails

/-! The walk -/

theorem walk_nil (budget : Nat) : tree.walk budget found [] = .ok found := by
  cases budget <;> rfl

theorem walk_enters (budget : Nat) (enters : tree.enter found part = .ok next)
    (plain : tree.link? next = none) :
    tree.walk budget found (part :: rest) = tree.walk budget next rest := by
  cases budget <;> simp [walk, walkWith, enters, plain, bind, Except.bind]

theorem walk_follows {target : String} (budget : Nat) (enters : tree.enter found part = .ok next)
    (link : tree.link? next = some target) :
    tree.walk (budget + 1) found (part :: rest) =
      tree.walk budget (linkStart next target) (Text.splitString '/' target ++ rest) := by
  simp [walk, walkWith, enters, link, bind, Except.bind]

/-- From a directory along parts to a place, with so many links followed on the way. -/
inductive Leads (tree : FileTree) : List String → List String → List String → Nat → Prop
  | ends {found : List String} : Leads tree found [] found 0
  | enters {found rest next reached : List String} {part : String} {cost : Nat} :
      tree.enter found part = .ok next → tree.link? next = none →
      Leads tree next rest reached cost → Leads tree found (part :: rest) reached cost
  | follows {found rest next middle reached : List String} {part target : String}
      {inside after : Nat} :
      tree.enter found part = .ok next → tree.link? next = some target →
      Leads tree (linkStart next target) (Text.splitString '/' target) middle inside →
      Leads tree middle rest reached after →
      Leads tree found (part :: rest) reached (inside + after + 1)

theorem Leads.unique {other : List String} {cost more : Nat}
    (leads : tree.Leads found parts reached cost) (also : tree.Leads found parts other more) :
    other = reached ∧ more = cost := by
  induction leads generalizing other more with
  | ends =>
      cases also
      exact ⟨rfl, rfl⟩
  | enters enters plain _ ih =>
      cases also with
      | enters again _ leads =>
          cases enters.symm.trans again
          exact ih leads
      | follows again link _ _ =>
          cases enters.symm.trans again
          cases plain.symm.trans link
  | follows enters link _ _ inside after =>
      cases also with
      | enters again plain _ =>
          cases enters.symm.trans again
          cases plain.symm.trans link
      | follows again also first second =>
          cases enters.symm.trans again
          cases link.symm.trans also
          obtain ⟨rfl, rfl⟩ := inside first
          obtain ⟨rfl, rfl⟩ := after second
          exact ⟨rfl, rfl⟩

theorem Leads.walk {cost : Nat} (leads : tree.Leads found parts reached cost) (budget : Nat)
    (more : List String) :
    tree.walk (cost + budget) found (parts ++ more) = tree.walk budget reached more := by
  induction leads generalizing budget more with
  | ends => rw [Nat.zero_add, List.nil_append]
  | enters enters plain _ ih => rw [List.cons_append, walk_enters _ enters plain, ih]
  | @follows _ rest _ _ _ _ _ first second enters link _ _ inside after =>
      have budgets : first + second + 1 + budget = first + (second + budget) + 1 := by omega
      rw [List.cons_append, budgets, walk_follows _ enters link, inside (second + budget), after]

/-- A walk along parts and more goes along the parts first. -/
theorem leads_of_walk {budget : Nat} {more : List String}
    (walks : tree.walk budget found (parts ++ more) = .ok reached) :
    ∃ middle cost, cost ≤ budget ∧ tree.Leads found parts middle cost ∧
      tree.walk (budget - cost) middle more = .ok reached := by
  induction budget using Nat.strongRecOn generalizing found parts more with
  | ind budget outer =>
      induction parts generalizing found with
      | nil => exact ⟨found, 0, Nat.zero_le _, .ends, walks⟩
      | cons part rest ih =>
          cases enters : tree.enter found part with
          | error error =>
              cases budget <;>
                simp [FileTree.walk, walkWith, enters, bind, Except.bind] at walks
          | ok next =>
              cases link : tree.link? next with
              | none =>
                  rw [List.cons_append, walk_enters _ enters link] at walks
                  obtain ⟨middle, cost, within, leads, goesOn⟩ := ih walks
                  exact ⟨middle, cost, within, .enters enters link leads, goesOn⟩
              | some target =>
                  cases budget with
                  | zero =>
                      simp [FileTree.walk, walkWith, enters, link, bind, Except.bind] at walks
                  | succ budget =>
                      rw [List.cons_append, walk_follows _ enters link] at walks
                      obtain ⟨between, inside, first, leads, walks⟩ :=
                        outer budget (by omega) walks
                      obtain ⟨middle, after, second, goesOn, ends⟩ :=
                        outer (budget - inside) (by omega) walks
                      have left : budget + 1 - (inside + after + 1) = budget - inside - after := by
                        omega
                      exact ⟨middle, inside + after + 1, by omega,
                        .follows enters link leads goesOn, left ▸ ends⟩

/-! Places -/

def Place (tree : FileTree) (found : List String) : Prop :=
  ∀ above part, above ++ [part] <+: found → tree.enter above part = .ok (above ++ [part]) ∧
    tree.link? (above ++ [part]) = none ∧ '\x00' ∉ part.toList

theorem Place.nil : tree.Place [] := by
  intro above part inside
  simp at inside

theorem Place.of_prefix (place : tree.Place found) (inside : next <+: found) : tree.Place next :=
  fun above part within => place above part (within.trans inside)

theorem Place.snoc (place : tree.Place found) (enters : tree.enter found part = .ok (found ++ [part]))
    (plain : tree.link? (found ++ [part]) = none) (clean : '\x00' ∉ part.toList) :
    tree.Place (found ++ [part]) := by
  intro above last inside
  rcases List.prefix_concat_iff.mp inside with whole | within
  · obtain ⟨rfl, same⟩ := List.append_inj' whole rfl
    obtain rfl : last = part := by simpa using same
    exact ⟨enters, plain, clean⟩
  · exact place above last within

theorem Place.link? (place : tree.Place found) (root : tree.link? [] = none) :
    tree.link? found = none := by
  rcases List.eq_nil_or_concat found with rfl | ⟨above, part, rfl⟩
  · exact root
  · rw [List.concat_eq_append] at place ⊢
    exact (place above part List.prefix_rfl).2.1

theorem Place.level (place : tree.Place found) : ".." ∉ found := by
  intro member
  obtain ⟨above, below, rfl⟩ := List.append_of_mem member
  have enters := (place above ".." ⟨below, by simp⟩).1
  rcases enter_cases enters with ⟨-, up⟩ | ⟨level, -⟩ | ⟨level, -⟩
  · have shorter := congrArg List.length up
    simp only [List.length_append, List.length_singleton, List.length_dropLast] at shorter
    omega
  · exact absurd rfl level
  · exact absurd rfl level

theorem Place.leads (place : tree.Place (found ++ rest)) :
    tree.Leads found rest (found ++ rest) 0 := by
  induction rest generalizing found with
  | nil =>
      rw [List.append_nil]
      exact .ends
  | cons part rest ih =>
      obtain ⟨enters, plain, -⟩ := place found part ⟨rest, by simp⟩
      rw [List.append_cons] at place ⊢
      exact .enters enters plain (ih place)

theorem Place.walk (place : tree.Place found) (budget : Nat) :
    tree.walk budget [] found = .ok found := by
  have leads : tree.Leads [] found found 0 := Place.leads place
  have walks := leads.walk budget []
  rwa [List.append_nil, Nat.zero_add, walk_nil] at walks

structure Sound (tree : FileTree) : Prop where
  root : tree.link? [] = none
  paths : ∀ link target, tree.link? link = some target → (Path.mk .slash link).access? = none
  targets : ∀ link target, tree.link? link = some target →
    ∀ part ∈ Text.splitString '/' target, '\x00' ∉ part.toList

/-- Going on from a place: to its parent, nowhere, or to an entry of it. -/
theorem Place.goesOn (place : tree.Place found) (enters : tree.enter found part = .ok next)
    (plain : tree.link? next = none) (clean : '\x00' ∉ part.toList) : tree.Place next := by
  rcases enter_cases enters with ⟨-, rfl⟩ | ⟨-, -, rfl⟩ | ⟨-, -, rfl⟩
  · exact place.of_prefix (List.dropLast_prefix _)
  · exact place
  · exact place.snoc enters plain clean

/-- Only what has a name in its directory can be a link. -/
theorem Place.named (place : tree.Place found) (sound : tree.Sound) {target : String}
    (enters : tree.enter found part = .ok next) (link : tree.link? next = some target) :
    part ≠ ".." ∧ Path.isPart part = true ∧ next = found ++ [part] := by
  rcases enter_cases enters with ⟨-, rfl⟩ | ⟨-, -, rfl⟩ | names
  · have plain := (place.of_prefix (List.dropLast_prefix _)).link? sound.root
    cases plain.symm.trans link
  · cases (place.link? sound.root).symm.trans link
  · exact names

theorem Place.linkStart (place : tree.Place found) (target : String) :
    tree.Place (linkStart (found ++ [part]) target) := by
  rw [FileTree.linkStart]
  split
  · exact .nil
  · rw [List.dropLast_concat]
    exact place

/-! The resolution -/

def LinkCosts (tree : FileTree) (link : List String) (cost : Nat) : Prop :=
  ∃ target middle, tree.link? link = some target ∧
    tree.Leads (linkStart link target) (Text.splitString '/' target) middle cost

theorem LinkCosts.unique {link : List String} {cost other : Nat} (costs : tree.LinkCosts link cost)
    (also : tree.LinkCosts link other) : other = cost := by
  obtain ⟨target, middle, named, leads⟩ := costs
  obtain ⟨_, _, again, along⟩ := also
  cases named.symm.trans again
  exact (leads.unique along).2

section Resolve

variable {depth : Nat} {within : List (List String)}

theorem resolveLinks_nil (depth : Nat) :
    tree.resolveLinks (depth + 1) within found [] = .ok ⟨found, true⟩ := rfl

theorem resolveLinks_up (depth : Nat) :
    tree.resolveLinks (depth + 1) within found (".." :: rest) =
      tree.resolveLinks (depth + 1) within found.dropLast rest := rfl

theorem resolveLinks_plain (depth : Nat) (level : part ≠ "..") (clean : '\x00' ∉ part.toList)
    (plain : tree.target? (found ++ [part]) = none) :
    tree.resolveLinks (depth + 1) within found (part :: rest) =
      tree.resolveLinks (depth + 1) within (found ++ [part]) rest := by
  simp [resolveLinks, resolveWith, level, clean, plain]

theorem resolveLinks_link {target : String} (depth : Nat) (level : part ≠ "..")
    (clean : '\x00' ∉ part.toList) (link : tree.target? (found ++ [part]) = some target)
    (fresh : found ++ [part] ∉ within)
    (inside : tree.resolveLinks depth ((found ++ [part]) :: within)
      (linkStart (found ++ [part]) target) (Path.ofString target).parts = .ok ⟨next, true⟩) :
    tree.resolveLinks (depth + 1) within found (part :: rest) =
      tree.resolveLinks (depth + 1) within next rest := by
  simp only [resolveLinks, resolveWith, beq_iff_eq, level, List.contains_iff_mem, clean, link,
    fresh, if_false, inside]
  rfl

/-- The link at a name in a place. -/
theorem target?_of_place (place : tree.Place found) (enters : tree.enter found part = .ok next)
    (names : next = found ++ [part]) :
    tree.target? next = if (Path.mk .slash next).access? = none then tree.link? next else none := by
  subst names
  rw [target?]
  cases access : (Path.mk .slash (found ++ [part])).access? with
  | some error => simp
  | none => simp [place.walk linkLimit, enters, bind, Except.bind]

/-- Where parts lead, they resolve to, as long as no link that is being resolved has the cost that
is left: none of them can be met again then. -/
theorem resolveLinks_of_leads (sound : tree.Sound) {cost : Nat}
    (leads : tree.Leads found parts reached cost) (place : tree.Place found)
    (clean : ∀ part ∈ parts, '\x00' ∉ part.toList) (enough : cost < depth)
    (costly : ∀ link ∈ within, ∃ more, cost ≤ more ∧ tree.LinkCosts link more) :
    tree.resolveLinks depth within found (parts.filter Path.isPart) = .ok ⟨reached, true⟩ ∧
      tree.Place reached := by
  obtain ⟨depth, rfl⟩ : ∃ less, depth = less + 1 := ⟨depth - 1, by omega⟩
  induction leads generalizing depth within with
  | ends => exact ⟨rfl, place⟩
  | @enters found rest next _ part _ enters plain leads ih =>
      rw [List.forall_mem_cons] at clean
      have later := ih (place.goesOn enters plain clean.1) clean.2 costly depth enough
      rcases enter_cases enters with ⟨rfl, rfl⟩ | ⟨-, dot, rfl⟩ | ⟨level, names, rfl⟩
      · rw [List.filter_cons_of_pos (by decide), resolveLinks_up]
        exact later
      · rw [List.filter_cons_of_neg (by simp [dot])]
        exact later
      · have nothing : tree.target? (found ++ [part]) = none := by
          rw [target?_of_place place enters rfl, plain, ite_self]
        rw [List.filter_cons_of_pos names, resolveLinks_plain depth level clean.1 nothing]
        exact later
  | @follows found rest next middle _ part target inside after enters link leads _ first second =>
      rw [List.forall_mem_cons] at clean
      obtain ⟨level, names, rfl⟩ := place.named sound enters link
      have own : tree.LinkCosts (found ++ [part]) inside := ⟨target, middle, link, leads⟩
      have fresh : found ++ [part] ∉ within := by
        intro member
        obtain ⟨more, least, costs⟩ := costly _ member
        have same := own.unique costs
        omega
      have met : tree.target? (found ++ [part]) = some target := by
        rw [target?_of_place place enters rfl, if_pos (sound.paths _ _ link), link]
      obtain ⟨less, rfl⟩ : ∃ less, depth = less + 1 := ⟨depth - 1, by omega⟩
      have along : ∀ link ∈ (found ++ [part]) :: within, ∃ more, inside ≤ more ∧
          tree.LinkCosts link more := by
        rw [List.forall_mem_cons]
        refine ⟨⟨inside, Nat.le_refl _, own⟩, fun link member => ?_⟩
        obtain ⟨more, least, costs⟩ := costly link member
        exact ⟨more, by omega, costs⟩
      obtain ⟨resolves, between⟩ := first (place.linkStart target) (sound.targets _ _ link) along
        less (by omega)
      rw [List.filter_cons_of_pos names,
        resolveLinks_link (less + 1) level clean.1 met fresh resolves]
      refine second between clean.2 (fun link member => ?_) (less + 1) (by omega)
      obtain ⟨more, least, costs⟩ := costly link member
      exact ⟨more, by omega, costs⟩

end Resolve

theorem access?_cases {path : Path} {error : AccessError} (access : path.access? = some error) :
    (error = .nullCharacter ∧ ∃ part ∈ path.parts, '\x00' ∈ part.toList) ∨ error = .longName := by
  rw [Path.access?] at access
  split at access
  next some =>
    cases access
    exact .inl ⟨rfl, by simpa using some⟩
  next =>
    split at access
    next =>
      cases access
      exact .inr rfl
    next => cases access

theorem Place.clean (place : tree.Place found) : ∀ part ∈ found, '\x00' ∉ part.toList := by
  intro part member
  obtain ⟨above, below, rfl⟩ := List.append_of_mem member
  exact (place above part ⟨below, by simp⟩).2.2

theorem find_of_locate {path : Path} (locates : tree.locate [] path = .ok reached) :
    tree.find [] path = match tree.entry? reached with
      | some entry => .ok entry
      | none => .error .missing := by
  rw [find, locates]
  rfl

theorem walkWith_error {allowed : AccessError → Prop} {error : AccessError}
    {follow : List String → List String → Except AccessError (List String)}
    (enters : ∀ found part error, tree.enter found part = .error error → allowed error)
    (follows : ∀ found parts error, follow found parts = .error error → allowed error)
    (fails : tree.walkWith follow found parts = .error error) : allowed error := by
  induction parts generalizing found with
  | nil => cases fails
  | cons part rest ih =>
      rw [walkWith] at fails
      cases entered : tree.enter found part with
      | error other =>
          rw [entered] at fails
          cases fails
          exact enters _ _ _ entered
      | ok next =>
          simp only [entered, bind, Except.bind] at fails
          split at fails
          next => exact follows _ _ _ fails
          next => exact ih fails

/-- A walk comes to no error that has to do with what it leads to. -/
theorem walk_error {budget : Nat} {error : AccessError}
    (fails : tree.walk budget found parts = .error error) :
    error ≠ .isDirectory ∧ error ≠ .nullCharacter := by
  have enters (found : List String) (part : String) (error : AccessError)
      (fails : tree.enter found part = .error error) :
      error ≠ .isDirectory ∧ error ≠ .nullCharacter := by
    rcases enter_error fails with rfl | rfl | rfl | rfl <;> simp
  induction budget generalizing found parts error with
  | zero =>
      refine walkWith_error enters (fun _ _ error fails => ?_) fails
      cases fails
      simp
  | succ budget ih => exact walkWith_error enters (fun _ _ _ fails => ih fails) fails

/-- A look at a path that fails has been refused, or the path is too long for one. -/
theorem look_error {path : Path} {asked : Entry → Bool} {failure : Failure}
    (fails : tree.look [] path asked = .error failure) :
    ∃ error, (error = .forbidden ∨ error = .longName) ∧
      failure = AccessError.failure error path.toString := by
  rw [look] at fails
  cases finds : tree.find [] path with
  | ok entry =>
      rw [finds] at fails
      cases fails
  | error error =>
      rw [finds] at fails
      have found : error ≠ .isDirectory := by
        cases locates : tree.locate [] path with
        | ok reached =>
            rw [find_of_locate locates] at finds
            split at finds <;> cases finds
            simp
        | error other =>
            rw [find, locates] at finds
            cases finds
            simp only [locate, ite_self] at locates
            split at locates
            next access =>
              cases locates
              rcases access?_cases access with ⟨rfl, -⟩ | rfl <;> simp
            next => exact (walk_error locates).1
      dsimp only at fails
      split at fails
      next => cases fails
      next present =>
        cases fails
        refine ⟨error, ?_, rfl⟩
        cases error <;> simp_all [AccessError.isAbsence]

theorem find_place {root : PathRoot} {error : AccessError} (place : tree.Place found)
    (fails : tree.find [] ⟨root, found⟩ = .error error) : error = .missing ∨ error = .longName := by
  cases access : (Path.mk root found).access? with
  | none =>
      have locates : tree.locate [] ⟨root, found⟩ = .ok found := by
        simp only [locate, access, ite_self, place.walk]
      rw [find_of_locate locates] at fails
      split at fails
      next => cases fails
      next =>
        cases fails
        exact .inl rfl
  | some other =>
      simp only [find, locate, access] at fails
      cases fails
      rcases access?_cases access with ⟨-, part, member, null⟩ | long
      · exact absurd null (place.clean part member)
      · exact .inr long

theorem linkDepth_bound (tree : FileTree) : linkLimit < tree.linkDepth := by
  rw [linkDepth]
  omega

/-- What a path leads to is at the place that the path resolves to. -/
theorem resolve_of_find (sound : tree.Sound) {surroundings : Surroundings} {path : Path}
    (clean : (path.absolute surroundings).Clean) {entry : Entry}
    (finds : tree.find [] (path.absolute surroundings) = .ok entry) :
    ∃ reached, tree.locate [] (path.absolute surroundings) = .ok reached ∧
      tree.resolve surroundings path = .ok ⟨.slash, reached⟩ := by
  generalize same : path.absolute surroundings = whole at clean finds ⊢
  cases locates : tree.locate [] whole with
  | error error =>
      rw [find, locates] at finds
      cases finds
  | ok reached =>
      simp only [locate, ite_self] at locates
      split at locates
      next => cases locates
      next access =>
        rw [← List.append_nil whole.parts] at locates
        obtain ⟨middle, cost, within, leads, ends⟩ := leads_of_walk locates
        rw [walk_nil] at ends
        cases ends
        have nulls : ∀ part ∈ whole.parts, '\x00' ∉ part.toList := by
          intro part member null
          have some : whole.parts.any (·.toList.contains '\x00') = true := by
            simpa using ⟨part, member, null⟩
          rw [Path.access?, if_pos some] at access
          cases access
        obtain ⟨resolves, place⟩ := resolveLinks_of_leads sound leads .nil nulls
          (Nat.lt_of_le_of_lt within tree.linkDepth_bound) (List.forall_mem_nil _)
        rw [Path.filter_components clean] at resolves
        refine ⟨reached, rfl, ?_⟩
        simp only [resolve, same, resolves, mapError_ok, bind, Except.bind,
          Path.withoutDots_level place.level]
        split
        next loops => rcases find_place place loops with other | other <;> cases other
        next null => rcases find_place place null with other | other <;> cases other
        next => rfl

-- Two dots behind a link lead out of the directory that the link leads to.
example : (FileTree.resolve ⟨[(["opt", "b.sch"], .empty)], [["opt", "sub"]],
    [(["srv", "ln"], "/opt/sub")], []⟩ ⟨.ofString "/srv", fun _ => none⟩
      (.ofString "ln/../b.sch")).toOption = some ⟨.slash, ["opt", "b.sch"]⟩ := by
  decide +kernel

/-! What a resolved path is like -/

section Clean

variable {replace : List String → String → Except AccessError Resolution}

theorem resolveWith_clean {resolution : Resolution}
    (replaces : ∀ link target replaced, replace link target = .ok replaced →
      (∀ part ∈ link, IsComponent part) → ∀ part ∈ replaced.parts, IsComponent part)
    (before : ∀ part ∈ found, IsComponent part) (after : ∀ part ∈ rest, IsComponent part)
    (resolves : tree.resolveWith replace found rest = .ok resolution) :
    ∀ part ∈ resolution.parts, IsComponent part := by
  induction rest generalizing found with
  | nil =>
      cases resolves
      exact before
  | cons part rest ih =>
      rw [List.forall_mem_cons] at after
      rw [resolveWith] at resolves
      split at resolves
      next =>
        exact ih (fun part member => before part (List.dropLast_subset _ member)) after.2 resolves
      next =>
        have more : ∀ part' ∈ found ++ [part], IsComponent part' := by
          rw [List.forall_mem_append, List.forall_mem_singleton]
          exact ⟨before, after.1⟩
        split at resolves
        next => cases resolves
        next =>
          split at resolves
          next => exact ih more after.2 resolves
          next target _ =>
            cases replaced : replace (found ++ [part]) target with
            | error error =>
                rw [replaced] at resolves
                cases resolves
            | ok resolved =>
                have parts := replaces _ _ _ replaced more
                rw [replaced] at resolves
                change (if resolved.isComplete then _ else _) = _ at resolves
                split at resolves
                next => exact ih parts after.2 resolves
                next =>
                  cases resolves
                  rw [List.forall_mem_append]
                  exact ⟨parts, after.2⟩

theorem resolveLinks_clean {depth : Nat} {within : List (List String)} {resolution : Resolution}
    (before : ∀ part ∈ found, IsComponent part) (after : ∀ part ∈ rest, IsComponent part)
    (resolves : tree.resolveLinks depth within found rest = .ok resolution) :
    ∀ part ∈ resolution.parts, IsComponent part := by
  induction depth generalizing within found rest resolution with
  | zero =>
      cases resolves
      rw [List.forall_mem_append]
      exact ⟨before, after⟩
  | succ depth ih =>
      refine resolveWith_clean (fun link target replaced replaces clean => ?_) before after resolves
      split at replaces
      next =>
        cases replaces
        exact clean
      next =>
        refine ih ?_ (Path.ofString_clean target) replaces
        rw [linkStart]
        split
        · simp
        · exact fun part member => clean part (List.dropLast_subset _ member)

end Clean

structure Settled (path : Path) : Prop where
  rooted : path.root = .slash
  level : ".." ∉ path.parts

theorem resolve_eq_ok {surroundings : Surroundings} {path resolved : Path}
    (resolves : tree.resolve surroundings path = .ok resolved) :
    ∃ found, tree.resolveLinks tree.linkDepth [] [] (path.absolute surroundings).parts =
        .ok found ∧ resolved = ⟨.slash, Path.withoutDots found.parts⟩ := by
  rw [resolve] at resolves
  cases found : tree.resolveLinks tree.linkDepth [] [] (path.absolute surroundings).parts with
  | error error =>
      rw [found] at resolves
      cases resolves
  | ok resolution =>
      refine ⟨resolution, rfl, ?_⟩
      simp only [found, mapError_ok, bind, Except.bind] at resolves
      split at resolves <;> cases resolves
      rfl

theorem resolveWith_error {replace : List String → String → Except AccessError Resolution}
    {error : AccessError}
    (replaces : ∀ link target, replace link target = .error error → error = .nullCharacter)
    (fails : tree.resolveWith replace found rest = .error error) : error = .nullCharacter := by
  induction rest generalizing found with
  | nil => cases fails
  | cons part rest ih =>
      rw [resolveWith] at fails
      split at fails
      next => exact ih fails
      next =>
        split at fails
        next =>
          cases fails
          rfl
        next =>
          split at fails
          next => exact ih fails
          next target _ =>
            cases replaced : replace (found ++ [part]) target with
            | error other =>
                rw [replaced] at fails
                cases fails
                exact replaces _ _ replaced
            | ok resolved =>
                rw [replaced] at fails
                change (if resolved.isComplete then _ else _) = _ at fails
                split at fails
                next => exact ih fails
                next => cases fails

theorem resolveLinks_error {depth : Nat} {within : List (List String)} {error : AccessError}
    (fails : tree.resolveLinks depth within found rest = .error error) : error = .nullCharacter := by
  induction depth generalizing within found rest with
  | zero => cases fails
  | succ depth ih =>
      refine resolveWith_error (fun link target replaces => ?_) fails
      split at replaces
      next => cases replaces
      next => exact ih replaces

/-- What does not resolve runs in a circle, or is no path. -/
theorem resolve_error {surroundings : Surroundings} {path : Path} {failure : Failure}
    (fails : tree.resolve surroundings path = .error failure) :
    (∃ resolved : Path, tree.find [] resolved = .error .linkLoop ∧
      failure = .foreign "RuntimeError" ("Symlink loop from " ++ Text.quoted resolved.toString)) ∨
    failure = .foreign "ValueError" "embedded null byte" := by
  rw [resolve] at fails
  cases found : tree.resolveLinks tree.linkDepth [] [] (path.absolute surroundings).parts with
  | error error =>
      obtain rfl := resolveLinks_error found
      rw [found] at fails
      cases fails
      exact .inr rfl
  | ok resolution =>
      simp only [found, mapError_ok, bind, Except.bind] at fails
      split at fails
      next loops =>
        cases fails
        exact .inl ⟨_, loops, rfl⟩
      next =>
        cases fails
        exact .inr rfl
      next => cases fails

theorem settled_of_resolve {surroundings : Surroundings} {path resolved : Path}
    (resolves : tree.resolve surroundings path = .ok resolved) : Settled resolved := by
  obtain ⟨found, -, rfl⟩ := resolve_eq_ok resolves
  exact ⟨rfl, fun member => (Path.mem_withoutDots member).2 rfl⟩

theorem clean_of_resolve {surroundings : Surroundings} {path resolved : Path}
    (clean : (path.absolute surroundings).Clean)
    (resolves : tree.resolve surroundings path = .ok resolved) : resolved.Clean := by
  obtain ⟨found, links, rfl⟩ := resolve_eq_ok resolves
  intro part member
  exact resolveLinks_clean (by simp) clean links part (Path.mem_withoutDots member).1

/-! Trees without links -/

section Linkless

variable (linkless : tree.links = [])

include linkless

theorem resolveLinks_linkless (found : List String) (depth : Nat) (clean : ∀ part ∈ parts, '\x00' ∉ part.toList) :
    tree.resolveLinks (depth + 1) [] found parts =
      .ok ⟨parts.foldl
        (fun kept part => if part == ".." then kept.dropLast else kept ++ [part]) found, true⟩ := by
  have nothing (parts : List String) : tree.target? parts = none := by
    rw [target?]
    split
    next => split <;> simp [link?, linkless]
    next => rfl
  induction parts generalizing found with
  | nil => rfl
  | cons part rest ih =>
      rw [List.forall_mem_cons] at clean
      by_cases up : part = ".."
      · subst up
        rw [resolveLinks_up, ih _ clean.2]
        rfl
      · rw [resolveLinks_plain depth up clean.1 (nothing _), ih _ clean.2, List.foldl_cons,
          if_neg (by simpa using up)]

theorem walk_linkless {budget : Nat} {error : AccessError}
    (fails : tree.walk budget found parts = .error error) :
    error ≠ .linkLoop ∧ error ≠ .nullCharacter := by
  induction parts generalizing found with
  | nil =>
      rw [walk_nil] at fails
      cases fails
  | cons part rest ih =>
      cases enters : tree.enter found part with
      | error other =>
          have same : error = other := by
            cases budget <;> simpa [walk, walkWith, enters, bind, Except.bind] using fails.symm
          subst same
          rcases enter_error enters with rfl | rfl | rfl | rfl <;> simp
      | ok next =>
          have plain : tree.link? next = none := by simp [link?, linkless]
          rw [walk_enters budget enters plain] at fails
          exact ih fails

/-- Where there are no links a path resolves to its own names, two dots taking one away. -/
theorem resolve_linkless {surroundings : Surroundings} {path : Path}
    (clean : ∀ part ∈ (path.absolute surroundings).parts, '\x00' ∉ part.toList) :
    tree.resolve surroundings path =
      .ok ⟨.slash, Path.withoutDots (path.absolute surroundings).parts⟩ := by
  obtain ⟨depth, more⟩ : ∃ depth, tree.linkDepth = depth + 1 := ⟨_, rfl⟩
  have links := resolveLinks_linkless linkless [] depth clean
  have level : ".." ∉ Path.withoutDots (path.absolute surroundings).parts := fun member =>
    (Path.mem_withoutDots member).2 rfl
  have same : (path.absolute surroundings).parts.foldl
      (fun kept part => if part == ".." then kept.dropLast else kept ++ [part]) [] =
        Path.withoutDots (path.absolute surroundings).parts := rfl
  have finds {error : AccessError} (fails : tree.find []
      ⟨.slash, Path.withoutDots (path.absolute surroundings).parts⟩ = .error error) :
      error ≠ .linkLoop ∧ error ≠ .nullCharacter := by
    cases locates : tree.locate []
        ⟨.slash, Path.withoutDots (path.absolute surroundings).parts⟩ with
    | ok reached =>
        rw [find_of_locate locates] at fails
        split at fails <;> cases fails
        simp
    | error other =>
        rw [find, locates] at fails
        cases fails
        simp only [locate, ite_self] at locates
        split at locates
        next access =>
          cases locates
          rcases access?_cases access with ⟨-, part, member, null⟩ | rfl
          · exact absurd null (clean part (Path.mem_withoutDots member).1)
          · simp
        next => exact walk_linkless linkless locates
  simp only [resolve, more, links, same, mapError_ok, bind, Except.bind,
    Path.withoutDots_level level]
  split
  next loops => exact absurd rfl (finds loops).1
  next null => exact absurd rfl (finds null).2
  next => rfl

end Linkless

end FileTree

end Schematron
