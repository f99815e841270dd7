import SteeringChannel.Proofs.Filesystem.Walk

/-!
The directory above a path. A walk that comes to its last step stands in a directory, so a path can
name something or be free only if there is one above it; and what stops the walk to the directory
above stops the walk to the path as well.
-/

namespace SteeringChannel.Filesystem

variable {tree : Filesystem} {followLast : Bool} {links : Nat} {place : Place}
  {names : List String} {last : String} {found : Found} {number : Int}

theorem Leads.above (leads : tree.Leads followLast links place (names ++ [last]) found) :
    ∃ reached, tree.Leads true links place names (.node reached) ∧
      tree.node? reached = some .directory := by
  generalize shape : names ++ [last] = steps at leads
  induction leads generalizing names with
  | here => simp at shape
  | stay directory _ ih =>
      cases names with
      | nil => exact ⟨_, .here, directory⟩
      | cons name before =>
          obtain ⟨rfl, rfl⟩ := List.cons.inj shape
          obtain ⟨reached, leads, above⟩ := ih rfl
          exact ⟨reached, .stay directory leads, above⟩
  | up directory _ ih =>
      cases names with
      | nil => exact ⟨_, .here, directory⟩
      | cons name before =>
          obtain ⟨rfl, rfl⟩ := List.cons.inj shape
          obtain ⟨reached, leads, above⟩ := ih rfl
          exact ⟨reached, .up directory leads, above⟩
  | free directory _ _ =>
      obtain ⟨rfl, _⟩ := List.append_eq_singleton_iff.mp shape |>.resolve_right (by simp)
      exact ⟨_, .here, directory⟩
  | link directory _ _ _ =>
      obtain ⟨rfl, _⟩ := List.append_eq_singleton_iff.mp shape |>.resolve_right (by simp)
      exact ⟨_, .here, directory⟩
  | @follow links place name target rest found directory enters linked _ _ ih =>
      cases names with
      | nil => exact ⟨_, .here, directory⟩
      | cons other before =>
          obtain ⟨rfl, rfl⟩ := List.cons.inj shape
          obtain ⟨reached, leads, above⟩ := @ih (Path.steps target ++ before) (by simp)
          exact ⟨reached, .follow directory enters linked (.inr rfl) leads, above⟩
  | enter directory enters present unlinked _ ih =>
      cases names with
      | nil => exact ⟨_, .here, directory⟩
      | cons other before =>
          obtain ⟨rfl, rfl⟩ := List.cons.inj shape
          obtain ⟨reached, leads, above⟩ := ih rfl
          exact ⟨reached, .enter directory enters present unlinked leads, above⟩

theorem walkWith_error {follow : Place → List String → Except Int Found}
    (follows : ∀ place names, follow place names = .error number →
      meansAbsent number = true ∨ number = SystemError.nameTooLong)
    (fails : tree.walkWith followLast follow place names = .error number) :
    meansAbsent number = true ∨ number = SystemError.nameTooLong := by
  fun_induction walkWith tree followLast follow place names
  all_goals try simp only [reduceCtorEq, Except.error.injEq] at fails
  case case2 => exact .inl (fails ▸ rfl)
  case case3 => exact .inr fails.symm
  case case4 ih => exact ih fails
  case case5 ih => exact ih fails
  case case7 => exact .inl (fails ▸ rfl)
  case case9 => exact follows _ _ fails
  case case10 ih => exact ih fails
  case case11 => exact .inl (fails ▸ rfl)

theorem walk_error (fails : tree.walk followLast links place names = .error number) :
    meansAbsent number = true ∨ number = SystemError.nameTooLong := by
  induction links generalizing place names with
  | zero => exact walkWith_error (by rintro _ _ ⟨⟩; exact .inl rfl) fails
  | succ links ih => exact walkWith_error (fun _ _ => ih) fails

theorem walkWith_error_append {follow further : Place → List String → Except Int Found}
    {last : String} (follows : ∀ place names, follow place names = .error number →
      further place (names ++ [last]) = .error number)
    (fails : tree.walkWith true follow place names = .error number) :
    tree.walkWith followLast further place (names ++ [last]) = .error number := by
  fun_induction walkWith tree true follow place names
  all_goals try simp only [reduceCtorEq, Except.error.injEq] at fails
  all_goals simp only [List.cons_append]
  case case2 absent => simp [walkWith, absent, fails]
  case case3 directory long => simp [walkWith, directory, long, fails]
  case case4 directory _ ih =>
    simp only [walkWith, directory]
    rw [if_neg (by decide), if_pos trivial]
    exact ih fails
  case case5 directory _ _ ih =>
    simp only [walkWith, directory]
    rw [if_neg (by decide), if_neg (by decide), if_pos trivial]
    exact ih fails
  case case7 place name rest directory short dot dots _ absent more =>
    have absent : tree.node? (place ++ [name]) = none := absent
    simp [walkWith, directory, short, dot, dots, absent, fails]
  case case9 place name rest directory short dot dots _ target linked _ =>
    have linked : tree.node? (place ++ [name]) = some (.link target) := linked
    rw [walkWith]
    simp only [directory, short, dot, dots, linked, if_false]
    rw [if_neg (by simp), ← List.append_assoc]
    exact follows _ _ fails
  case case10 place name rest directory short dot dots _ node unlinked present ih =>
    have present : tree.node? (place ++ [name]) = some node := present
    rw [walkWith]
    simp only [directory, short, dot, dots, present, if_false]
    exact ih fails
  case case11 outside other => simp [walkWith, other, fails]

theorem walk_error_append (fails : tree.walk true links place names = .error number)
    (last : String) : tree.walk followLast links place (names ++ [last]) = .error number := by
  induction links generalizing place names with
  | zero => exact walkWith_error_append (fun _ _ stops => stops) fails
  | succ links ih => exact walkWith_error_append (fun _ _ => ih) fails

theorem walk_error_dot (fails : tree.walk true links place ["."] = .error number)
    (last : String) : tree.walk followLast links place [last] = .error number := by
  simp only [walk_eq, walkWith] at fails ⊢
  split at fails
  · exact fails
  · rw [if_neg (by decide), if_pos trivial] at fails
    cases fails
  · exact fails

variable {path : String}

theorem startOf_above (path : String) :
    startOf workingPlace (Path.parent path) = startOf workingPlace (Path.normalize path) := by
  simp only [startOf, Path.isAbsolute_parent, Path.isAbsolute_normalize]

/-- Above a path at which something is, or could be made, there is a directory. -/
theorem isDirectory_parent
    (located : tree.locate followLast (Path.normalize path) = .ok found) :
    tree.isDirectory (Path.parent path) = .ok true := by
  obtain ⟨_, short, leads⟩ := locate_eq_ok.mp located
  obtain ⟨before, last, steps, above⟩ := Path.steps_above path
  rw [steps, ← startOf_above] at leads
  obtain ⟨reached, leads, directory⟩ := leads.above
  obtain ⟨entry, there, same⟩ := Option.map_eq_some_iff.mp directory
  have arrives : tree.Leads true linkLimit (startOf workingPlace (Path.parent path))
      (Path.steps (Path.parent path)) (.node reached) := by
    rcases above with same | ⟨rfl, here⟩
    · exact same ▸ leads
    · rw [here]
      cases leads
      exact .stay directory .here
  have looked : tree.lookup true (Path.parent path) = .ok (reached, entry) :=
    lookup_eq_ok.mpr ⟨⟨Path.parent_ne_empty path,
      Nat.le_trans (Path.utf8ByteSize_parent_le path) short, arrives⟩, there⟩
  simp [isDirectory, target, looked, same, Except.map]

theorem locate_error (fails : tree.locate followLast path = .error number) :
    meansAbsent number = true ∨ number = SystemError.nameTooLong := by
  simp only [locate] at fails
  split at fails
  · exact .inl (Except.error.inj fails ▸ rfl)
  · split at fails
    · exact .inr (Except.error.inj fails).symm
    · exact walk_error fails

theorem lookup_error (fails : tree.lookup followLast path = .error number)
    (other : number ≠ SystemError.notFound) : tree.locate followLast path = .error number := by
  simp only [lookup] at fails
  split at fails
  next stops => rw [stops, Except.error.inj fails]
  next => exact absurd (Except.error.inj fails).symm other
  next =>
    split at fails
    next => cases fails
    next => exact absurd (Except.error.inj fails).symm other

theorem isDirectory_error (fails : tree.isDirectory path = .error number) :
    number = SystemError.nameTooLong ∧ tree.locate true path = .error number := by
  cases looked : tree.lookup true path with
  | ok found => simp [isDirectory, target, looked, Except.map] at fails
  | error cause =>
      simp only [isDirectory, target, looked, Except.map] at fails
      split at fails
      next => cases fails
      next reported =>
        obtain rfl := Except.error.inj fails
        have located := lookup_error looked fun absent => reported (absent ▸ rfl)
        exact ⟨(locate_error located).resolve_left reported, located⟩

theorem locate_above
    (fails : tree.locate true (Path.parent path) = .error SystemError.nameTooLong) :
    tree.locate followLast (Path.normalize path) = .error SystemError.nameTooLong := by
  have longer := Path.utf8ByteSize_parent_le path
  simp only [locate, Path.parent_ne_empty, Path.normalize_ne_empty, if_false] at fails ⊢
  split at fails
  next long => rw [if_pos (by omega)]
  next =>
    split
    next => rfl
    next =>
      obtain ⟨before, last, steps, above⟩ := Path.steps_above path
      rw [startOf_above] at fails
      rw [steps]
      rcases above with same | ⟨rfl, here⟩
      · exact walk_error_append (same ▸ fails) last
      · exact walk_error_dot (here ▸ fails) last

end SteeringChannel.Filesystem
