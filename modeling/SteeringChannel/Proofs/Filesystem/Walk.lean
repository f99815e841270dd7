import SteeringChannel.Filesystem
import SteeringChannel.Proofs.Filesystem.Path

/-!
Where paths lead. Leaving out steps that stay in place leads to the same node or to a link on the
way to it; a node that is removed leaves its path free, and a node that is added is found.
-/

namespace SteeringChannel.Filesystem

def Enters (name : String) : Prop :=
  name.utf8ByteSize ≤ nameLimit ∧ name ≠ "." ∧ name ≠ ".."

/-- The walks that come to an end, step by step. -/
inductive Leads (tree : Filesystem) (followLast : Bool) :
    Nat → Place → List String → Found → Prop
  | here {links : Nat} {place : Place} : Leads tree followLast links place [] (.node place)
  | stay {links : Nat} {place : Place} {rest : List String} {found : Found}
      (directory : tree.node? place = some .directory) :
      Leads tree followLast links place rest found →
        Leads tree followLast links place ("." :: rest) found
  | up {links : Nat} {place : Place} {rest : List String} {found : Found}
      (directory : tree.node? place = some .directory) :
      Leads tree followLast links place.dropLast rest found →
        Leads tree followLast links place (".." :: rest) found
  | free {links : Nat} {place : Place} {name : String}
      (directory : tree.node? place = some .directory) (enters : Enters name)
      (absent : tree.node? (place ++ [name]) = none) :
      Leads tree followLast links place [name] (.free (place ++ [name]))
  | link {links : Nat} {place : Place} {name target : String}
      (directory : tree.node? place = some .directory) (enters : Enters name)
      (linked : tree.node? (place ++ [name]) = some (.link target))
      (last : followLast = false) :
      Leads tree followLast links place [name] (.node (place ++ [name]))
  | follow {links : Nat} {place : Place} {name target : String} {rest : List String}
      {found : Found} (directory : tree.node? place = some .directory) (enters : Enters name)
      (linked : tree.node? (place ++ [name]) = some (.link target))
      (goes : rest ≠ [] ∨ followLast = true) :
      Leads tree followLast links (startOf place target) (Path.steps target ++ rest) found →
        Leads tree followLast (links + 1) place (name :: rest) found
  | enter {links : Nat} {place : Place} {name : String} {rest : List String} {node : Node}
      {found : Found} (directory : tree.node? place = some .directory) (enters : Enters name)
      (present : tree.node? (place ++ [name]) = some node)
      (unlinked : ∀ target, node ≠ .link target) :
      Leads tree followLast links (place ++ [name]) rest found →
        Leads tree followLast links place (name :: rest) found

variable {tree : Filesystem} {followLast : Bool} {links : Nat} {place goal : Place}
  {names fewer : List String} {found : Found}

def onward (tree : Filesystem) (followLast : Bool) : Nat → Place → List String → Except Int Found
  | 0 => fun _ _ => .error SystemError.tooManyLinks
  | links + 1 => tree.walk followLast links

theorem walk_eq :
    tree.walk followLast links place names =
      tree.walkWith followLast (tree.onward followLast links) place names := by
  cases links <;> rfl

theorem leads_of_walkWith {follow : Place → List String → Except Int Found}
    (goes : ∀ place names, follow place names = .ok found →
      ∃ fewer, links = fewer + 1 ∧ tree.Leads followLast fewer place names found)
    (walks : tree.walkWith followLast follow place names = .ok found) :
    tree.Leads followLast links place names found := by
  fun_induction walkWith tree followLast follow place names
  all_goals try simp only [reduceCtorEq, Except.ok.injEq] at walks
  case case1 => exact walks ▸ .here
  case case4 directory _ ih => exact .stay directory (ih walks)
  case case5 directory _ _ ih => exact .up directory (ih walks)
  case case6 directory short dot dots _ absent last =>
    obtain rfl := List.isEmpty_iff.mp last
    exact walks ▸ .free directory ⟨Nat.le_of_not_lt short, dot, dots⟩ absent
  case case8 directory short dot dots _ target linked last =>
    obtain ⟨ended, last⟩ := Bool.and_eq_true_iff.mp last
    obtain rfl := List.isEmpty_iff.mp ended
    exact walks ▸ .link directory ⟨Nat.le_of_not_lt short, dot, dots⟩ linked (by simpa using last)
  case case9 directory short dot dots _ target linked more =>
    obtain ⟨fewer, rfl, leads⟩ := goes _ _ walks
    refine .follow directory ⟨Nat.le_of_not_lt short, dot, dots⟩ linked ?_ leads
    simpa [imp_iff_not_or] using more
  case case10 directory short dot dots _ node unlinked present ih =>
    exact .enter directory ⟨Nat.le_of_not_lt short, dot, dots⟩ present unlinked (ih walks)

theorem leads_of_walk (walks : tree.walk followLast links place names = .ok found) :
    tree.Leads followLast links place names found := by
  induction links generalizing place names with
  | zero => exact leads_of_walkWith (by rintro _ _ ⟨⟩) walks
  | succ links ih => exact leads_of_walkWith (fun _ _ walks => ⟨links, rfl, ih walks⟩) walks

theorem walk_of_leads (leads : tree.Leads followLast links place names found) :
    tree.walk followLast links place names = .ok found := by
  induction leads with
  | here => rw [walk_eq, walkWith]
  | stay directory _ ih =>
      rw [walk_eq] at ih ⊢
      simp only [walkWith, directory]
      rwa [if_neg (by decide), if_pos trivial]
  | up directory _ ih =>
      rw [walk_eq] at ih ⊢
      simp only [walkWith, directory]
      rwa [if_neg (by decide), if_neg (by decide), if_pos trivial]
  | free directory enters absent =>
      obtain ⟨short, dot, dots⟩ := enters
      simp [walk_eq, walkWith, directory, Nat.not_lt.mpr short, dot, dots, absent]
  | link directory enters linked last =>
      obtain ⟨short, dot, dots⟩ := enters
      simp [walk_eq, walkWith, directory, Nat.not_lt.mpr short, dot, dots, linked, last]
  | follow directory enters linked goes _ ih =>
      obtain ⟨short, dot, dots⟩ := enters
      rw [walk_eq, walkWith]
      simp only [directory, Nat.not_lt.mpr short, dot, dots, linked, if_false, onward, ih]
      rw [if_neg]
      simpa [imp_iff_not_or] using goes
  | enter directory enters present unlinked _ ih =>
      obtain ⟨short, dot, dots⟩ := enters
      rw [walk_eq] at ih ⊢
      rw [walkWith]
      simp only [directory, Nat.not_lt.mpr short, dot, dots, present, if_false, ih]

theorem walk_iff :
    tree.walk followLast links place names = .ok found ↔
      tree.Leads followLast links place names found :=
  ⟨leads_of_walk, walk_of_leads⟩

open SteeringChannel.Path (Thins)

theorem thins_nil (thins : Thins [] fewer) : fewer = [] := by
  cases thins
  rfl

theorem thins_cons {name : String} {rest : List String} (moves : name ≠ ".")
    (thins : Thins (name :: rest) fewer) :
    ∃ others, fewer = name :: others ∧ Thins rest others := by
  cases thins with
  | keep _ thins => exact ⟨_, rfl, thins⟩
  | drop => exact absurd rfl moves

def Ends (tree : Filesystem) (goal reached : Place) : Prop :=
  reached = goal ∨ ∃ target, tree.node? reached = some (.link target)

theorem Leads.thins (leads : tree.Leads followLast links place names (.node goal))
    (thins : Thins names fewer) :
    ∃ reached, tree.Leads followLast links place fewer (.node reached) ∧ tree.Ends goal reached ∧
      (followLast = true → reached = goal) := by
  generalize shape : Found.node goal = found at leads
  induction leads generalizing fewer with
  | here =>
      obtain rfl := thins_nil thins
      exact ⟨goal, shape ▸ .here, .inl rfl, fun _ => rfl⟩
  | stay directory _ ih =>
      cases thins with
      | keep _ thins =>
          obtain ⟨reached, leads, ends, same⟩ := ih thins shape
          exact ⟨reached, .stay directory leads, ends, same⟩
      | drop thins => exact ih thins shape
  | up directory _ ih =>
      obtain ⟨others, rfl, after⟩ := thins_cons (by decide) thins
      obtain ⟨reached, leads, ends, same⟩ := ih after shape
      exact ⟨reached, .up directory leads, ends, same⟩
  | free => exact nomatch shape
  | link directory enters linked last =>
      obtain ⟨others, rfl, after⟩ := thins_cons enters.2.1 thins
      obtain rfl := thins_nil after
      exact ⟨goal, shape ▸ .link directory enters linked last, .inl rfl, fun _ => rfl⟩
  | @follow links place name target rest found directory enters linked goes _ ih =>
      obtain ⟨others, rfl, after⟩ := thins_cons enters.2.1 thins
      by_cases stops : others = [] ∧ followLast = false
      · obtain ⟨rfl, last⟩ := stops
        exact ⟨place ++ [name], .link directory enters linked last, .inr ⟨target, linked⟩,
          by simp [last]⟩
      · obtain ⟨reached, leads, ends, same⟩ := ih (after.prepend (Path.steps target)) shape
        refine ⟨reached, .follow directory enters linked ?_ leads, ends, same⟩
        simpa [imp_iff_not_or] using stops
  | enter directory enters present unlinked _ ih =>
      obtain ⟨others, rfl, after⟩ := thins_cons enters.2.1 thins
      obtain ⟨reached, leads, ends, same⟩ := ih after shape
      exact ⟨reached, .enter directory enters present unlinked leads, ends, same⟩

theorem Leads.last_enters (leads : tree.Leads followLast links place names (.free goal)) :
    names ≠ [] ∧ names.getLast? ≠ some "." := by
  have further {name : String} {rest : List String} (ih : rest ≠ [] ∧ rest.getLast? ≠ some ".") :
      name :: rest ≠ [] ∧ (name :: rest).getLast? ≠ some "." := by
    refine ⟨List.cons_ne_nil _ _, ?_⟩
    rw [List.getLast?_cons_of_ne_nil ih.1]
    exact ih.2
  generalize shape : Found.free goal = found at leads
  induction leads with
  | here => exact nomatch shape
  | stay _ _ ih => exact further (ih shape)
  | up _ _ ih => exact further (ih shape)
  | free _ enters _ => exact ⟨List.cons_ne_nil _ _, by simp [enters.2.1]⟩
  | link => exact nomatch shape
  | @follow _ _ name target rest _ _ enters _ _ _ ih =>
      by_cases last : rest = []
      · subst last
        exact ⟨List.cons_ne_nil _ _, by simp [enters.2.1]⟩
      · obtain ⟨_, moves⟩ := ih shape
        rw [List.getLast?_append_of_ne_nil _ last] at moves
        exact further ⟨last, moves⟩
  | enter _ _ _ _ _ ih => exact further (ih shape)

theorem thins_to_nil {steps : List String} (thins : Thins steps []) (some : steps ≠ []) :
    steps.getLast? = Option.some "." := by
  generalize shape : ([] : List String) = none at thins
  induction thins with
  | done => exact absurd rfl some
  | keep => exact nomatch shape
  | @drop rest _ _ ih =>
      by_cases last : rest = []
      · rw [last]
        rfl
      · rw [List.getLast?_cons_of_ne_nil last]
        exact ih last shape

theorem Leads.thins_free (leads : tree.Leads followLast links place names (.free goal))
    (thins : Thins names fewer) : tree.Leads followLast links place fewer (.free goal) := by
  generalize shape : Found.free goal = found at leads
  induction leads generalizing fewer with
  | here => exact nomatch shape
  | stay directory _ ih =>
      cases thins with
      | keep _ thins => exact .stay directory (ih thins shape)
      | drop thins => exact ih thins shape
  | up directory _ ih =>
      obtain ⟨others, rfl, after⟩ := thins_cons (by decide) thins
      exact .up directory (ih after shape)
  | free directory enters absent =>
      obtain ⟨others, rfl, after⟩ := thins_cons enters.2.1 thins
      obtain rfl := thins_nil after
      exact .free directory enters absent
  | link => exact nomatch shape
  | @follow links place name target rest found directory enters linked goes further ih =>
      obtain ⟨others, rfl, after⟩ := thins_cons enters.2.1 thins
      refine .follow directory enters linked ?_ (ih (after.prepend (Path.steps target)) shape)
      refine goes.imp_left fun more stops => ?_
      -- Only steps in place could be left out here, and with them the walk would not end free.
      subst shape
      obtain ⟨_, moves⟩ := further.last_enters
      rw [List.getLast?_append_of_ne_nil _ more] at moves
      exact moves (thins_to_nil (stops ▸ after) more)
  | enter directory enters present unlinked _ ih =>
      obtain ⟨others, rfl, after⟩ := thins_cons enters.2.1 thins
      exact .enter directory enters present unlinked (ih after shape)

theorem Leads.unfollowed (leads : tree.Leads true links place names (.node goal)) :
    ∃ reached, tree.Leads false links place names (.node reached) ∧ tree.Ends goal reached := by
  generalize shape : Found.node goal = found at leads
  induction leads with
  | here => exact ⟨goal, shape ▸ .here, .inl rfl⟩
  | stay directory _ ih =>
      obtain ⟨reached, leads, ends⟩ := ih shape
      exact ⟨reached, .stay directory leads, ends⟩
  | up directory _ ih =>
      obtain ⟨reached, leads, ends⟩ := ih shape
      exact ⟨reached, .up directory leads, ends⟩
  | free => exact nomatch shape
  | link _ _ _ last => exact nomatch last
  | @follow links place name target rest found directory enters linked goes _ ih =>
      by_cases stops : rest = []
      · subst stops
        exact ⟨place ++ [name], .link directory enters linked rfl, .inr ⟨target, linked⟩⟩
      · obtain ⟨reached, leads, ends⟩ := ih shape
        exact ⟨reached, .follow directory enters linked (.inl stops) leads, ends⟩
  | enter directory enters present unlinked _ ih =>
      obtain ⟨reached, leads, ends⟩ := ih shape
      exact ⟨reached, .enter directory enters present unlinked leads, ends⟩

theorem Leads.followed (leads : tree.Leads false links place names (.node goal))
    (unlinked : ∀ target, tree.node? goal ≠ some (.link target)) :
    tree.Leads true links place names (.node goal) := by
  generalize shape : Found.node goal = found at leads
  induction leads with
  | here => exact .here
  | stay directory _ ih => exact .stay directory (ih shape)
  | up directory _ ih => exact .up directory (ih shape)
  | free => exact nomatch shape
  | link _ _ linked _ =>
      obtain rfl := Found.node.inj shape
      exact absurd linked (unlinked _)
  | follow directory enters linked _ _ ih =>
      exact .follow directory enters linked (.inr rfl) (ih shape)
  | enter directory enters present other _ ih =>
      exact .enter directory enters present other (ih shape)

/-! Nodes that go and come. -/

theorem node?_remove (tree : Filesystem) (place other : Place) :
    (tree.remove place).node? other = if other = place then none else tree.node? other := by
  simp only [node?, entry?, remove, List.find?_filter]
  split
  next same => simp [same]
  next different =>
    congr 2
    funext entry
    by_cases here : entry.place = other
    · simp [here, different]
    · simp [here]

theorem node?_add (tree : Filesystem) (place other : Place) (node : Node) (mode : Int) :
    (tree.add place node mode).node? other =
      (tree.node? other).or (if place = other then some node else none) := by
  simp only [node?, entry?, add, List.find?_append, Option.map_or, List.find?_singleton, beq_iff_eq]
  split <;> rfl

theorem Leads.stops (leads : tree.Leads followLast links place names found)
    (outside : tree.node? place ≠ some .directory) : names = [] := by
  cases leads <;> first | rfl | contradiction

theorem Leads.remove (leads : tree.Leads followLast links place names (.node goal))
    (outside : tree.node? goal ≠ some .directory)
    (unlinked : ∀ target, tree.node? goal ≠ some (.link target)) :
    (tree.remove goal).Leads followLast links place names (.free goal) ∨
      (tree.remove goal).Leads followLast links place names (.node goal) := by
  have stays {other : Place} {node : Node} (present : tree.node? other = some node)
      (different : tree.node? goal ≠ some node) : (tree.remove goal).node? other = some node := by
    rw [node?_remove, if_neg]
    · exact present
    · rintro rfl
      exact different present
  have directories {other : Place} (directory : tree.node? other = some .directory) :
      (tree.remove goal).node? other = some .directory := stays directory outside
  generalize shape : Found.node goal = found at leads
  induction leads with
  | here =>
      obtain rfl := Found.node.inj shape
      exact .inr .here
  | stay directory _ ih =>
      exact (ih shape).imp (.stay (directories directory)) (.stay (directories directory))
  | up directory _ ih =>
      exact (ih shape).imp (.up (directories directory)) (.up (directories directory))
  | free => exact nomatch shape
  | link _ _ linked _ =>
      obtain rfl := Found.node.inj shape
      exact absurd linked (unlinked _)
  | follow directory enters linked goes _ ih =>
      have linked := stays linked (unlinked _)
      exact (ih shape).imp (.follow (directories directory) enters linked goes)
        (.follow (directories directory) enters linked goes)
  | @enter links place name rest node found directory enters present other leads ih =>
      by_cases last : place ++ [name] = goal
      · subst last
        obtain rfl := leads.stops outside
        exact .inl (.free (directories directory) enters (by simp [node?_remove]))
      · have present : (tree.remove goal).node? (place ++ [name]) = some node := by
          rwa [node?_remove, if_neg last]
        exact (ih shape).imp (.enter (directories directory) enters present other)
          (.enter (directories directory) enters present other)

theorem Leads.add {node : Node} (leads : tree.Leads false links place names (.free goal))
    (absent : tree.node? goal = none) (unlinked : ∀ target, node ≠ .link target) (mode : Int) :
    (tree.add goal node mode).Leads followLast links place names (.node goal) := by
  have stays {other : Place} {old : Node} (present : tree.node? other = some old) :
      (tree.add goal node mode).node? other = some old := by
    simp [node?_add, present]
  generalize shape : Found.free goal = found at leads
  induction leads with
  | here => exact nomatch shape
  | stay directory _ ih => exact .stay (stays directory) (ih shape)
  | up directory _ ih => exact .up (stays directory) (ih shape)
  | free directory enters _ =>
      obtain rfl := Found.free.inj shape
      exact .enter (stays directory) enters (by simp [node?_add, absent]) unlinked .here
  | link => exact nomatch shape
  | follow directory enters linked goes _ ih =>
      exact .follow (stays directory) enters (stays linked) (.inl (by simpa using goes)) (ih shape)
  | enter directory enters present other _ ih =>
      exact .enter (stays directory) enters (stays present) other (ih shape)

theorem Leads.congr {other : Filesystem} (same : ∀ place, other.node? place = tree.node? place)
    (leads : tree.Leads followLast links place names found) :
    other.Leads followLast links place names found := by
  induction leads with
  | here => exact .here
  | stay directory _ ih => exact .stay ((same _).trans directory) ih
  | up directory _ ih => exact .up ((same _).trans directory) ih
  | free directory enters absent =>
      exact .free ((same _).trans directory) enters ((same _).trans absent)
  | link directory enters linked last =>
      exact .link ((same _).trans directory) enters ((same _).trans linked) last
  | follow directory enters linked goes _ ih =>
      exact .follow ((same _).trans directory) enters ((same _).trans linked) goes ih
  | enter directory enters present unlinked _ ih =>
      exact .enter ((same _).trans directory) enters ((same _).trans present) unlinked ih

def Locates (tree : Filesystem) (followLast : Bool) (path : String) (found : Found) : Prop :=
  path ≠ "" ∧ path.utf8ByteSize ≤ pathLimit ∧
    tree.Leads followLast linkLimit (startOf workingPlace path) (Path.steps path) found

theorem locate_eq_ok {path : String} :
    tree.locate followLast path = .ok found ↔ tree.Locates followLast path found := by
  simp only [locate, Locates, ← walk_iff]
  split
  next empty => simp [empty]
  next filled =>
    split
    next long => simp [Nat.not_le.mpr long]
    next short => simp [filled, Nat.not_lt.mp short]

theorem lookup_eq_ok {path : String} {entry : Entry} :
    tree.lookup followLast path = .ok (goal, entry) ↔
      tree.Locates followLast path (.node goal) ∧ tree.entry? goal = some entry := by
  rw [← locate_eq_ok, lookup]
  constructor
  · intro found
    split at found
    · cases found
    · cases found
    next located =>
      split at found
      next there =>
        obtain ⟨rfl, rfl⟩ := Prod.mk.inj (Except.ok.inj found)
        exact ⟨located, there⟩
      next => cases found
  · rintro ⟨located, there⟩
    simp [located, there]

theorem node?_of_entry {entry : Entry} (there : tree.entry? goal = some entry) :
    tree.node? goal = some entry.node := by
  simp [node?, there]

/-- What a path names or leads to, its normal form names too, or a link on the way to it. -/
theorem lookup_normalize {path : String} {entry : Entry}
    (looked : tree.lookup followLast path = .ok (goal, entry)) :
    tree.lookup false (Path.normalize path) = .error SystemError.nameTooLong ∨
      ∃ reached other, tree.lookup false (Path.normalize path) = .ok (reached, other) ∧
        (reached = goal ∧ other = entry ∨ ∃ target, other.node = .link target) := by
  obtain ⟨⟨filled, _, leads⟩, there⟩ := lookup_eq_ok.mp looked
  obtain ⟨reached, leads, ends⟩ : ∃ reached, tree.Leads false linkLimit
      (startOf workingPlace path) (Path.steps (Path.normalize path)) (.node reached) ∧
        tree.Ends goal reached := by
    obtain ⟨reached, leads, ends, same⟩ := leads.thins (Path.thins_normalize filled)
    cases followLast with
    | false => exact ⟨reached, leads, ends⟩
    | true => exact (same rfl ▸ leads).unfollowed
  have start : startOf workingPlace (Path.normalize path) = startOf workingPlace path := by
    simp only [startOf, Path.isAbsolute_normalize]
  by_cases long : pathLimit < (Path.normalize path).utf8ByteSize
  · exact .inl (by simp [lookup, locate, Path.normalize_ne_empty, long])
  · have located : tree.Locates false (Path.normalize path) (.node reached) :=
      ⟨Path.normalize_ne_empty path, Nat.not_lt.mp long, start ▸ leads⟩
    obtain rfl | ⟨target, linked⟩ := ends
    · exact .inr ⟨reached, entry, lookup_eq_ok.mpr ⟨located, there⟩, .inl ⟨rfl, rfl⟩⟩
    · obtain ⟨other, there, link⟩ := Option.map_eq_some_iff.mp linked
      exact .inr ⟨reached, other, lookup_eq_ok.mpr ⟨located, there⟩, .inr ⟨target, link⟩⟩

theorem locate_normalize {path : String} (located : tree.locate false path = .ok (.free goal))
    (short : (Path.normalize path).utf8ByteSize ≤ pathLimit) :
    tree.locate false (Path.normalize path) = .ok (.free goal) := by
  obtain ⟨filled, _, leads⟩ := locate_eq_ok.mp located
  have start : startOf workingPlace (Path.normalize path) = startOf workingPlace path := by
    simp only [startOf, Path.isAbsolute_normalize]
  exact locate_eq_ok.mpr ⟨Path.normalize_ne_empty path, short,
    start ▸ leads.thins_free (Path.thins_normalize filled)⟩

theorem short_of_absent {path : String}
    (absent : tree.nodeAt (Path.normalize path) = .error SystemError.notFound) :
    (Path.normalize path).utf8ByteSize ≤ pathLimit := by
  by_contra long
  simp only [nodeAt, lookup, locate, Path.normalize_ne_empty, if_false,
    if_pos (Nat.lt_of_not_le long), Except.map] at absent
  exact absurd (Except.error.inj absent) (by decide)

theorem lookup_followed {path : String} {entry : Entry}
    (looked : tree.lookup false path = .ok (goal, entry))
    (unlinked : ∀ target, entry.node ≠ .link target) :
    tree.lookup true path = .ok (goal, entry) := by
  obtain ⟨⟨filled, short, leads⟩, there⟩ := lookup_eq_ok.mp looked
  have other (target : String) : tree.node? goal ≠ some (.link target) := by
    simp [node?_of_entry there, unlinked]
  exact lookup_eq_ok.mpr ⟨⟨filled, short, leads.followed other⟩, there⟩

theorem lookup_remove {path : String} {entry : Entry} {kind : SocketKind}
    (looked : tree.lookup followLast path = .ok (goal, entry))
    (socket : entry.node = .socket kind) :
    (tree.remove goal).lookup followLast path = .error SystemError.notFound := by
  obtain ⟨⟨filled, short, leads⟩, there⟩ := lookup_eq_ok.mp looked
  have outside : tree.node? goal ≠ some .directory := by simp [node?_of_entry there, socket]
  have unlinked (target : String) : tree.node? goal ≠ some (.link target) := by
    simp [node?_of_entry there, socket]
  rw [lookup]
  rcases leads.remove outside unlinked with leads | leads
  · rw [locate_eq_ok.mpr ⟨filled, short, leads⟩]
  · rw [locate_eq_ok.mpr ⟨filled, short, leads⟩]
    have gone : entry? (tree.remove goal) goal = none := by
      have absent := node?_remove tree goal goal
      simpa [node?] using absent
    simp [gone]

theorem lookup_add {path : String} {node : Node}
    (located : tree.locate false path = .ok (.free goal)) (absent : tree.node? goal = none)
    (unlinked : ∀ target, node ≠ .link target) (mode : Int) :
    (tree.add goal node mode).lookup followLast path = .ok (goal, ⟨goal, node, mode⟩) := by
  obtain ⟨filled, short, leads⟩ := locate_eq_ok.mp located
  refine lookup_eq_ok.mpr ⟨⟨filled, short, leads.add absent unlinked mode⟩, ?_⟩
  have free : tree.entry? goal = none := Option.map_eq_none_iff.mp absent
  simp only [ entry?] at free
  simp [ entry?, add, free]

theorem lookup_changeMode {changed : Filesystem} {path other : String} {mode : Int}
    (changes : tree.changeMode path mode = .ok changed) {entry : Entry}
    (looked : tree.lookup followLast other = .ok (goal, entry)) :
    ∃ bits, changed.lookup followLast other = .ok (goal, { entry with mode := bits }) := by
  obtain ⟨⟨filled, short, leads⟩, there⟩ := lookup_eq_ok.mp looked
  simp only [changeMode] at changes
  split at changes
  · cases changes
  next place _ _ =>
    obtain rfl := Except.ok.inj changes
    have entries (here : Place) :
        entry? (tree.modify place fun entry => { entry with mode := mode }) here =
          (tree.entry? here).map fun entry =>
            if entry.place == place then { entry with mode := mode } else entry := by
      simp only [ entry?, modify, List.find?_map]
      congr 2
      funext entry
      simp only [Function.comp]
      split <;> rfl
    have nodes (here : Place) :
        (tree.modify place fun entry => { entry with mode := mode }).node? here =
          tree.node? here := by
      simp only [node?, entries, Option.map_map]
      congr 1
      funext entry
      simp only [Function.comp]
      split <;> rfl
    refine ⟨if entry.place == place then mode else entry.mode,
      lookup_eq_ok.mpr ⟨⟨filled, short, leads.congr nodes⟩, ?_⟩⟩
    rw [entries, there, Option.map_some]
    split <;> rfl

end SteeringChannel.Filesystem
