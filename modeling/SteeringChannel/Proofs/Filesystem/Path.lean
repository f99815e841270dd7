import Mathlib.Data.List.Basic
import SteeringChannel.Filesystem.Path

/-!
Paths and their normal form. Both are absolute or neither is, and the steps of the normal form are
those of the path, except for some that stay in place.
-/

namespace SteeringChannel.Path

inductive Thins : List String → List String → Prop
  | done : Thins [] []
  | keep {steps fewer : List String} (name : String) :
      Thins steps fewer → Thins (name :: steps) (name :: fewer)
  | drop {steps fewer : List String} : Thins steps fewer → Thins ("." :: steps) fewer

theorem Thins.prepend {steps fewer : List String} (before : List String)
    (thins : Thins steps fewer) : Thins (before ++ steps) (before ++ fewer) := by
  induction before with
  | nil => exact thins
  | cons name rest ih => exact ih.keep name

theorem thins_filter (steps : List String) : Thins steps (steps.filter (· != ".")) := by
  induction steps with
  | nil => exact Thins.done
  | cons name rest ih =>
      by_cases stays : name = "."
      · simpa [stays] using ih.drop
      · simpa [stays] using ih.keep name

theorem splitSlash_append {part : List Char} (unbroken : '/' ∉ part) (rest : List Char) :
    splitSlash (part ++ '/' :: rest) = part :: splitSlash rest := by
  induction part with
  | nil => simp [splitSlash]
  | cons letter others ih =>
      rw [List.mem_cons, not_or] at unbroken
      simp [splitSlash, Ne.symm unbroken.1, ih unbroken.2]

theorem splitSlash_unbroken {part : List Char} (unbroken : '/' ∉ part) :
    splitSlash part = [part] := by
  induction part with
  | nil => rfl
  | cons letter others ih =>
      rw [List.mem_cons, not_or] at unbroken
      simp [splitSlash, Ne.symm unbroken.1, ih unbroken.2]

theorem splitSlash_intercalate {parts : List (List Char)} (some : parts ≠ [])
    (unbroken : ∀ part ∈ parts, '/' ∉ part) :
    splitSlash (['/'].intercalate parts) = parts := by
  induction parts with
  | nil => exact absurd rfl some
  | cons part rest ih =>
      obtain ⟨first, others⟩ := List.forall_mem_cons.mp unbroken
      cases rest with
      | nil => simpa using splitSlash_unbroken first
      | cons second more =>
          rw [List.intercalate_cons_cons, List.append_assoc, List.singleton_append,
            splitSlash_append first, ih (List.cons_ne_nil second more) others]

theorem not_mem_splitSlash (path : List Char) : ∀ part ∈ splitSlash path, '/' ∉ part := by
  induction path with
  | nil => simp [splitSlash]
  | cons letter rest ih =>
      simp only [splitSlash]
      split
      next => exact List.forall_mem_cons.mpr ⟨by simp, ih⟩
      next plain =>
        split
        next => simpa using Ne.symm plain
        next first others shape =>
          rw [shape] at ih
          obtain ⟨here, later⟩ := List.forall_mem_cons.mp ih
          refine List.forall_mem_cons.mpr ⟨?_, later⟩
          rw [List.mem_cons, not_or]
          exact ⟨Ne.symm plain, here⟩

theorem mem_splitSlash {path : List Char} {letter : Char} (present : letter ∈ path)
    (plain : letter ≠ '/') : ∃ part ∈ splitSlash path, letter ∈ part := by
  induction path with
  | nil => simp at present
  | cons first rest ih =>
      simp only [splitSlash]
      rcases List.mem_cons.mp present with rfl | later
      · rw [if_neg plain]
        split
        next => simp
        next => simp
      · obtain ⟨part, member, inside⟩ := ih later
        split
        next => exact ⟨part, List.mem_cons_of_mem _ member, inside⟩
        next =>
          split
          next shape => simp [shape] at member
          next head others shape =>
            rw [shape] at member
            rcases List.mem_cons.mp member with rfl | member
            · exact ⟨_, List.mem_cons_self, List.mem_cons_of_mem first inside⟩
            · exact ⟨part, List.mem_cons_of_mem _ member, inside⟩

def IsName (name : String) : Prop := name ≠ "" ∧ '/' ∉ name.toList

theorem isName_of_mem_parts {path name : String} (member : name ∈ parts path) : IsName name := by
  obtain ⟨part, kept, rfl⟩ := List.mem_map.mp member
  obtain ⟨present, filled⟩ := List.mem_filter.mp kept
  refine ⟨fun empty => ?_, ?_⟩
  · rw [← String.toList_eq_nil_iff, String.toList_ofList] at empty
    simp [empty] at filled
  · rw [String.toList_ofList]
    exact not_mem_splitSlash path.toList part present

theorem isName_of_mem_names {path name : String} (member : name ∈ names path) : IsName name :=
  isName_of_mem_parts (List.mem_filter.mp member).1

theorem parts_intercalate {names : List String} (proper : ∀ name ∈ names, IsName name) :
    parts (String.intercalate "/" names) = names := by
  cases names with
  | nil => simp [parts, splitSlash]
  | cons name rest =>
      have split : splitSlash (String.intercalate "/" (name :: rest)).toList =
          (name :: rest).map String.toList := by
        rw [String.toList_intercalate]
        refine splitSlash_intercalate (by simp) fun part member => ?_
        obtain ⟨other, present, rfl⟩ := List.mem_map.mp member
        exact (proper other present).2
      have filled : ∀ part ∈ (name :: rest).map String.toList, (!part.isEmpty) = true := by
        intro part member
        obtain ⟨other, present, rfl⟩ := List.mem_map.mp member
        simpa using (proper other present).1
      rw [parts, split, List.filter_eq_self.mpr filled, List.map_map]
      simp [Function.comp_def]

theorem parts_slash (path : String) : parts ("/" ++ path) = parts path := by
  simp [parts, String.toList_append, splitSlash]

theorem root_cases (path : String) :
    root path = "" ∧ isAbsolute path = false ∨ root path = "/" ∧ isAbsolute path = true ∨
      root path = "//" ∧ isAbsolute path = true := by
  simp only [root, isAbsolute]
  split
  next shape => simp [shape]
  next shape => simp [shape]
  next shape => simp [shape]
  next relative =>
    cases letters : path.toList with
    | nil => simp
    | cons first rest =>
        have plain : first ≠ '/' := by
          rintro rfl
          exact relative rest letters
        simp [plain]

theorem render_eq {root : String} {names : List String} (named : names ≠ []) :
    render root names = root ++ String.intercalate "/" names := by
  simp [render, named]

theorem ends_intercalate {parts : List (List Char)} (some : parts ≠ [])
    (proper : ∀ part ∈ parts, part ≠ [] ∧ '/' ∉ part) :
    (['/'].intercalate parts).head? ≠ .some '/' ∧
      (['/'].intercalate parts).getLast? ≠ .some '/' := by
  induction parts with
  | nil => exact absurd rfl some
  | cons part rest ih =>
      obtain ⟨⟨filled, unbroken⟩, others⟩ := List.forall_mem_cons.mp proper
      have first : part.head? ≠ .some '/' := fun head => unbroken (List.mem_of_head? head)
      cases rest with
      | nil =>
          rw [List.intercalate_singleton]
          exact ⟨first, fun last => unbroken (List.mem_of_getLast? last)⟩
      | cons second more =>
          obtain ⟨_, last⟩ := ih (List.cons_ne_nil second more) others
          have later : ['/'].intercalate (second :: more) ≠ [] := by
            intro empty
            have split := splitSlash_intercalate (List.cons_ne_nil second more)
              fun part member => (others part member).2
            rw [empty, splitSlash, List.cons.injEq] at split
            exact (others second List.mem_cons_self).1 split.1.symm
          rw [List.intercalate_cons_cons, List.append_assoc]
          refine ⟨?_, ?_⟩
          · rwa [List.head?_append_of_ne_nil _ filled]
          · rwa [List.getLast?_append_of_ne_nil _ (by simp), List.getLast?_append_of_ne_nil _ later]

theorem mem_intercalate {parts : List (List Char)} {part : List Char} {letter : Char}
    (member : part ∈ parts) (inside : letter ∈ part) : letter ∈ ['/'].intercalate parts := by
  induction parts with
  | nil => simp at member
  | cons first rest ih =>
      cases rest with
      | nil =>
          obtain rfl := List.mem_singleton.mp member
          rwa [List.intercalate_singleton]
      | cons second more =>
          rw [List.intercalate_cons_cons, List.append_assoc]
          rcases List.mem_cons.mp member with rfl | later
          · exact List.mem_append_left _ inside
          · exact List.mem_append_right _ (List.mem_append_right _ (ih later))

section Rendered

variable {names : List String} (path : String) (proper : ∀ name ∈ names, IsName name)

include proper

theorem ends_names (named : names ≠ []) :
    (String.intercalate "/" names).toList.head? ≠ some '/' ∧
      (String.intercalate "/" names).toList.getLast? ≠ some '/' := by
  rw [String.toList_intercalate]
  refine ends_intercalate (by simpa using named) fun part member => ?_
  obtain ⟨name, present, rfl⟩ := List.mem_map.mp member
  obtain ⟨filled, unbroken⟩ := proper name present
  exact ⟨fun empty => filled (String.toList_eq_nil_iff.mp empty), unbroken⟩

theorem parts_render (named : names ≠ []) : parts (render (root path) names) = names := by
  have joined := parts_intercalate proper
  rw [render_eq named]
  rcases root_cases path with ⟨root, _⟩ | ⟨root, _⟩ | ⟨root, _⟩
  · rwa [root, String.empty_append]
  · rwa [root, parts_slash]
  · rwa [root, show ("//" : String) = "/" ++ "/" from rfl, String.append_assoc, parts_slash,
      parts_slash]

theorem isAbsolute_render : isAbsolute (render (root path) names) = isAbsolute path := by
  by_cases named : names = []
  · rcases root_cases path with ⟨root, absolute⟩ | ⟨root, absolute⟩ | ⟨root, absolute⟩ <;>
      rw [absolute, render, root, named] <;> decide
  · rw [render_eq named]
    rcases root_cases path with ⟨root, absolute⟩ | ⟨root, absolute⟩ | ⟨root, absolute⟩
    · rw [root, absolute, String.empty_append, isAbsolute]
      simpa using (ends_names proper named).1
    · rw [root, absolute]
      simp [isAbsolute]
    · rw [root, absolute]
      simp [isAbsolute]

theorem steps_render :
    steps (render (root path) names) = if names = [] then ["."] else names := by
  by_cases named : names = []
  · rw [if_pos named]
    rcases root_cases path with ⟨root, _⟩ | ⟨root, _⟩ | ⟨root, _⟩ <;>
      rw [render, root, named] <;> decide
  · have last : (render (root path) names).toList.getLast? ≠ some '/' := by
      rw [render_eq named, String.toList_append, List.getLast?_append_of_ne_nil]
      · exact (ends_names proper named).2
      · intro empty
        have joined := parts_intercalate proper
        rw [String.toList_eq_nil_iff.mp empty] at joined
        exact named (joined.symm.trans (by decide))
    rw [if_neg named, steps, parts_render path proper named]
    simp [last]

theorem render_ne_empty : render (root path) names ≠ "" := by
  intro empty
  have steps := steps_render path proper
  rw [empty, show Path.steps "" = [] by decide] at steps
  split at steps
  · exact nomatch steps
  next named => exact named steps.symm

end Rendered

theorem isAbsolute_normalize (path : String) : isAbsolute (normalize path) = isAbsolute path :=
  isAbsolute_render path fun _ => isName_of_mem_names

theorem steps_normalize (path : String) :
    steps (normalize path) = if names path = [] then ["."] else names path :=
  steps_render path fun _ => isName_of_mem_names

theorem normalize_ne_empty (path : String) : normalize path ≠ "" :=
  render_ne_empty path fun _ => isName_of_mem_names

theorem isName_of_mem_above {path name : String} (member : name ∈ (names path).dropLast) :
    IsName name :=
  isName_of_mem_names (List.dropLast_subset _ member)

theorem isAbsolute_parent (path : String) : isAbsolute (parent path) = isAbsolute path :=
  isAbsolute_render path fun _ => isName_of_mem_above

theorem steps_parent (path : String) :
    steps (parent path) =
      if (names path).dropLast = [] then ["."] else (names path).dropLast :=
  steps_render path fun _ => isName_of_mem_above

theorem parent_ne_empty (path : String) : parent path ≠ "" :=
  render_ne_empty path fun _ => isName_of_mem_above

theorem steps_above (path : String) :
    ∃ before last, steps (normalize path) = before ++ [last] ∧
      (steps (parent path) = before ∨ before = [] ∧ steps (parent path) = ["."]) := by
  rw [steps_normalize, steps_parent]
  by_cases named : names path = []
  · exact ⟨[], ".", by simp [named], .inr ⟨rfl, by simp [named]⟩⟩
  · refine ⟨(names path).dropLast, (names path).getLast named, ?_, ?_⟩
    · rw [if_neg named, List.dropLast_append_getLast]
    · by_cases alone : (names path).dropLast = []
      · exact .inr ⟨alone, if_pos alone⟩
      · exact .inl (if_neg alone)

theorem utf8ByteSize_parent_le (path : String) :
    (parent path).utf8ByteSize ≤ (normalize path).utf8ByteSize := by
  by_cases named : names path = []
  · simp [parent, normalize, named]
  have split := List.dropLast_append_getLast named
  have filled := (isName_of_mem_names (List.getLast_mem named)).1
  rw [normalize, render_eq named, parent, String.utf8ByteSize_append]
  by_cases alone : (names path).dropLast = []
  · rw [alone, List.nil_append] at split
    rw [alone, ← split, String.intercalate_singleton]
    have positive := String.utf8ByteSize_eq_zero_iff.not.mpr filled
    have dot : ("." : String).utf8ByteSize = 1 := rfl
    rcases root_cases path with ⟨root, _⟩ | ⟨root, _⟩ | ⟨root, _⟩ <;> rw [root, render]
    · rw [if_pos (by simp), dot]
      omega
    · simp
    · simp
  · have longer : (String.intercalate "/" (names path)).utf8ByteSize =
        (String.intercalate "/" (names path).dropLast).utf8ByteSize + 1 +
          ((names path).getLast named).utf8ByteSize := by
      conv_lhs => rw [← split]
      rw [String.intercalate_append_of_ne_nil alone (by simp), String.utf8ByteSize_append,
        String.utf8ByteSize_append, String.intercalate_singleton]
      rfl
    rw [render_eq alone, String.utf8ByteSize_append]
    omega

theorem mem_of_mem_splitSlash {path part : List Char} {letter : Char}
    (member : part ∈ splitSlash path) (inside : letter ∈ part) : letter ∈ path := by
  induction path generalizing part with
  | nil =>
      rw [splitSlash, List.mem_singleton] at member
      exact absurd inside (by simp [member])
  | cons first rest ih =>
      simp only [splitSlash] at member
      split at member
      · rcases List.mem_cons.mp member with rfl | member
        · exact absurd inside List.not_mem_nil
        · exact List.mem_cons_of_mem first (ih member inside)
      · split at member
        · rw [List.mem_singleton] at member
          rw [member, List.mem_singleton] at inside
          exact inside ▸ List.mem_cons_self
        next head others shape =>
          rw [shape] at ih
          rcases List.mem_cons.mp member with rfl | member
          · rcases List.mem_cons.mp inside with rfl | inside
            · exact List.mem_cons_self
            · exact List.mem_cons_of_mem first (ih List.mem_cons_self inside)
          · exact List.mem_cons_of_mem first (ih (List.mem_cons_of_mem head member) inside)

theorem mem_of_mem_names {path name : String} {letter : Char} (member : name ∈ names path)
    (inside : letter ∈ name.toList) : letter ∈ path.toList := by
  obtain ⟨part, kept, rfl⟩ := List.mem_map.mp (List.mem_filter.mp member).1
  rw [String.toList_ofList] at inside
  exact mem_of_mem_splitSlash (List.mem_filter.mp kept).1 inside

theorem of_mem_intercalate {parts : List (List Char)} {letter : Char}
    (present : letter ∈ ['/'].intercalate parts) (plain : letter ≠ '/') :
    ∃ part ∈ parts, letter ∈ part := by
  induction parts with
  | nil => simp at present
  | cons first rest ih =>
      cases rest with
      | nil =>
          rw [List.intercalate_singleton] at present
          exact ⟨first, List.mem_cons_self, present⟩
      | cons second more =>
          rw [List.intercalate_cons_cons, List.append_assoc, List.mem_append, List.mem_append,
            List.mem_singleton] at present
          rcases present with here | slash | later
          · exact ⟨first, List.mem_cons_self, here⟩
          · exact absurd slash plain
          · obtain ⟨part, member, inside⟩ := ih later
            exact ⟨part, List.mem_cons_of_mem first member, inside⟩

theorem mem_of_mem_render {path : String} {kept : List String}
    (holds : ∀ name ∈ kept, name ∈ names path) {letter : Char}
    (present : letter ∈ (render (root path) kept).toList) (plain : letter ≠ '/')
    (pointless : letter ≠ '.') : letter ∈ path.toList := by
  have root : letter ∉ (root path).toList := by
    rcases root_cases path with ⟨root, _⟩ | ⟨root, _⟩ | ⟨root, _⟩ <;> rw [root] <;> simp [plain]
  by_cases named : kept = []
  · exfalso
    rw [named, render] at present
    split at present
    · exact pointless (by simpa using present)
    · rw [String.toList_append] at present
      simp [root] at present
  · rw [render_eq named, String.toList_append, String.toList_intercalate,
      List.mem_append] at present
    obtain ⟨part, member, inside⟩ := of_mem_intercalate (present.resolve_left root) plain
    obtain ⟨name, held, rfl⟩ := List.mem_map.mp member
    exact mem_of_mem_names (holds name held) inside

theorem hasNul_render {path : String} {kept : List String}
    (holds : ∀ name ∈ kept, name ∈ names path) (clean : hasNul path = false) :
    hasNul (render (root path) kept) = false := by
  simp only [hasNul, List.contains_eq_mem, decide_eq_false_iff_not] at clean ⊢
  exact fun present => clean (mem_of_mem_render holds present (by decide) (by decide))

theorem hasNul_normalize {path : String} (clean : hasNul path = false) :
    hasNul (normalize path) = false :=
  hasNul_render (fun _ member => member) clean

theorem hasNul_parent {path : String} (clean : hasNul path = false) :
    hasNul (parent path) = false :=
  hasNul_render (fun _ member => List.dropLast_subset _ member) clean

theorem filter_steps (path : String) : (steps path).filter (· != ".") = names path := by
  simp only [steps, names, List.filter_append]
  split <;> simp

theorem steps_ne_nil {path : String} (some : path ≠ "") : steps path ≠ [] := by
  intro empty
  obtain ⟨nameless, unslashed⟩ := List.append_eq_nil_iff.mp empty
  have letters : path.toList ≠ [] := fun none => some (String.toList_eq_nil_iff.mp none)
  have plain : path.toList.getLast letters ≠ '/' := by
    intro slash
    simp [List.getLast?_eq_some_getLast letters, slash] at unslashed
  obtain ⟨part, member, inside⟩ := mem_splitSlash (List.getLast_mem letters) plain
  have kept : part ∈ (splitSlash path.toList).filter fun part => !part.isEmpty :=
    List.mem_filter.mpr ⟨member, by simpa using List.ne_nil_of_mem inside⟩
  rw [List.map_eq_nil_iff.mp nameless] at kept
  simp at kept

theorem thins_normalize {path : String} (some : path ≠ "") :
    Thins (steps path) (steps (normalize path)) := by
  have thins := thins_filter (steps path)
  rw [filter_steps] at thins
  rw [steps_normalize]
  split
  next named =>
    obtain ⟨first, rest, shape⟩ := List.exists_cons_of_ne_nil (steps_ne_nil some)
    have stays := filter_steps path
    rw [shape, named, List.filter_eq_nil_iff] at stays
    obtain rfl : first = "." := by simpa using stays first List.mem_cons_self
    have others : rest.filter (· != ".") = [] :=
      List.filter_eq_nil_iff.mpr fun name member => stays name (List.mem_cons_of_mem _ member)
    rw [shape]
    exact (others ▸ thins_filter rest).keep "."
  next => exact thins

theorem mem_normalize {path : String} {letter : Char} (present : letter ∈ path.toList)
    (plain : letter ≠ '/') (pointless : letter ≠ '.') : letter ∈ (normalize path).toList := by
  obtain ⟨part, member, inside⟩ := mem_splitSlash present plain
  have named : String.ofList part ∈ names path := by
    refine List.mem_filter.mpr ⟨List.mem_map.mpr ⟨part, List.mem_filter.mpr ⟨member, ?_⟩, rfl⟩, ?_⟩
    · simpa using List.ne_nil_of_mem inside
    · have different : String.ofList part ≠ "." := by
        intro point
        have letters : part = ['.'] := by
          rw [← String.toList_ofList (l := part), point]
          rfl
        exact pointless (List.mem_singleton.mp (letters ▸ inside))
      simpa using different
  rw [normalize, render_eq (List.ne_nil_of_mem named), String.toList_append,
    String.toList_intercalate]
  refine List.mem_append_right _ (mem_intercalate (List.mem_map_of_mem named) ?_)
  rwa [String.toList_ofList]

theorem hasNul_of_normalize {path : String} (clean : hasNul (normalize path) = false) :
    hasNul path = false := by
  simp only [hasNul, List.contains_eq_mem, decide_eq_false_iff_not] at clean ⊢
  exact fun present => clean (mem_normalize present (by decide) (by decide))

section Below

variable {name last : String}

theorem steps_name (proper : IsName name) : steps name = [name] := by
  have alone : parts (String.intercalate "/" [name]) = [name] :=
    parts_intercalate (by simpa using proper)
  rw [String.intercalate_singleton] at alone
  have unslashed : name.toList.getLast? ≠ some '/' :=
    fun slash => proper.2 (List.mem_of_getLast? slash)
  simp [steps, alone, unslashed]

theorem isAbsolute_append (proper : IsName name) (rest : String) :
    isAbsolute (name ++ rest) = false := by
  obtain ⟨filled, unbroken⟩ := proper
  have letters : name.toList ≠ [] := fun none => filled (String.toList_eq_nil_iff.mp none)
  rw [isAbsolute, String.toList_append, List.head?_append_of_ne_nil _ letters]
  simpa using fun slash => unbroken (List.mem_of_head? slash)

theorem root_append (proper : IsName name) (rest : String) : root (name ++ rest) = "" := by
  rcases root_cases (name ++ rest) with ⟨root, _⟩ | ⟨_, absolute⟩ | ⟨_, absolute⟩
  · exact root
  · exact nomatch (isAbsolute_append proper rest).symm.trans absolute
  · exact nomatch (isAbsolute_append proper rest).symm.trans absolute

variable (proper : IsName name) (moves : name ≠ ".") (below : IsName last) (ends : last ≠ ".")

include proper moves below ends

theorem names_below : names (name ++ ("/" ++ last)) = [name, last] := by
  have joined : name ++ ("/" ++ last) = String.intercalate "/" [name, last] := by
    simp [String.append_assoc]
  rw [names, joined, parts_intercalate (by simp [proper, below])]
  simp [moves, ends]

theorem parent_below : parent (name ++ ("/" ++ last)) = name := by
  rw [parent, root_append proper, names_below proper moves below ends]
  simp [render]

theorem normalize_below : normalize (name ++ ("/" ++ last)) = name ++ ("/" ++ last) := by
  rw [normalize, root_append proper, names_below proper moves below ends]
  simp [render, String.append_assoc]

end Below

end SteeringChannel.Path
