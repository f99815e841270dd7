import Mathlib.Data.List.DropRight
import SteeringChannel.Text.Blank

/-!
Trimming, and cutting at a mark. What trimming leaves of a list is its middle, between two runs of
what is dropped, and it neither begins nor ends with anything that is dropped.
-/

namespace SteeringChannel.Text

variable {α : Type} {drop : α → Bool} {items core rest : List α}

theorem trimEnd_eq_rdropWhile (drop : α → Bool) (items : List α) :
    trimEnd drop items = items.rdropWhile drop := rfl

theorem trimEnd_eq
    (kept : ∀ last, items.getLast? = some last → drop last = false) :
    trimEnd drop items = items := by
  refine List.rdropWhile_eq_self_iff.mpr fun filled => ?_
  rw [kept _ (List.getLast?_eq_some_getLast filled)]
  exact Bool.false_ne_true

theorem trimEnd_append (dropped : ∀ item ∈ rest, drop item = true) :
    trimEnd drop (items ++ rest) = trimEnd drop items := by
  have skipped : ∀ item ∈ rest.reverse, drop item = true :=
    fun item member => dropped item (List.mem_reverse.mp member)
  rw [trimEnd, trimEnd, List.reverse_append, List.dropWhile_append_of_pos skipped]

structure Trimmed (drop : α → Bool) (items core : List α) : Prop where
  between : ∃ lead tail, items = lead ++ core ++ tail ∧
    (∀ item ∈ lead, drop item = true) ∧ ∀ item ∈ tail, drop item = true
  first : ∀ item, core.head? = some item → drop item = false
  last : ∀ item, core.getLast? = some item → drop item = false

theorem trimmed_self (first : ∀ item, core.head? = some item → drop item = false)
    (last : ∀ item, core.getLast? = some item → drop item = false) : Trimmed drop core core :=
  ⟨⟨[], [], by simp, nofun, nofun⟩, first, last⟩

theorem Trimmed.subset (trimmed : Trimmed drop items core) : core ⊆ items := by
  obtain ⟨⟨lead, tail, rfl, _⟩, _⟩ := trimmed
  intro item member
  simp [member]

theorem Trimmed.wrap (trimmed : Trimmed drop items core) {before after : α}
    (lead : drop before = true) (tail : drop after = true) :
    Trimmed drop (before :: (items ++ [after])) core := by
  obtain ⟨⟨skipped, dropped, rfl, leads, tails⟩, first, last⟩ := trimmed
  refine ⟨⟨before :: skipped, dropped ++ [after], by simp, ?_, ?_⟩, first, last⟩
  · exact List.forall_mem_cons.mpr ⟨lead, leads⟩
  · exact List.forall_mem_append.mpr ⟨tails, List.forall_mem_singleton.mpr tail⟩

theorem Trimmed.trimBoth_eq (trimmed : Trimmed drop items core) : trimBoth drop items = core := by
  obtain ⟨⟨lead, tail, rfl, skipped, dropped⟩, first, last⟩ := trimmed
  rw [trimBoth, List.append_assoc, List.dropWhile_append_of_pos skipped]
  cases core with
  | nil =>
      rw [List.nil_append, List.dropWhile_eq_nil_iff.mpr dropped]
      rfl
  | cons item others =>
      rw [List.cons_append, List.dropWhile_cons_of_neg (by simp [first item rfl]),
        ← List.cons_append, trimEnd_append dropped, trimEnd_eq last]

theorem trimmed_trimBoth (drop : α → Bool) (items : List α) :
    Trimmed drop items (trimBoth drop items) := by
  rw [trimBoth, trimEnd_eq_rdropWhile]
  have kept := List.head?_dropWhile_not drop items
  have lead := items.takeWhile_append_dropWhile (p := drop)
  generalize items.dropWhile drop = rest at kept lead
  have ends : rest.rdropWhile drop ++ rest.rtakeWhile drop = rest :=
    List.rdropWhile_append_rtakeWhile
  refine ⟨⟨items.takeWhile drop, rest.rtakeWhile drop, ?_, ?_, ?_⟩, ?_, ?_⟩
  · rw [List.append_assoc, ends, lead]
  · exact fun item member => List.mem_takeWhile_imp member
  · exact fun item member => List.mem_rtakeWhile_imp member
  · intro item starts
    rw [← ends, List.head?_append, starts, Option.some_or] at kept
    exact kept
  · intro item stops
    have filled : rest.rdropWhile drop ≠ [] := by
      intro empty
      simp [empty] at stops
    rw [List.getLast?_eq_some_getLast filled, Option.some.injEq] at stops
    rw [← stops]
    exact Bool.eq_false_iff.mpr (List.rdropWhile_last_not drop rest filled)

theorem trimmed_iff : Trimmed drop items core ↔ trimBoth drop items = core :=
  ⟨Trimmed.trimBoth_eq, fun same => same ▸ trimmed_trimBoth drop items⟩

section Cut

variable [BEq α] [LawfulBEq α] {mark : α} {left other : List α}

theorem cut_at_first (before : mark ∉ left) (right : List α) :
    (left ++ mark :: right).takeWhile (· != mark) = left ∧
      (left ++ mark :: right).dropWhile (· != mark) = mark :: right := by
  have differs : ∀ item ∈ left, (item != mark) = true := by
    intro item member
    exact bne_iff_ne.mpr fun same => before (same ▸ member)
  rw [List.takeWhile_append_of_pos differs, List.dropWhile_append_of_pos differs]
  simp

theorem append_cons_inj {right rest : List α} (before : mark ∉ left) (also : mark ∉ other)
    (same : left ++ mark :: right = other ++ mark :: rest) : left = other ∧ right = rest := by
  obtain ⟨start, tail⟩ := cut_at_first before right
  obtain ⟨starts, tails⟩ := cut_at_first also rest
  rw [same, starts] at start
  rw [same, tails] at tail
  exact ⟨start.symm, (List.cons.inj tail).2.symm⟩

end Cut

end SteeringChannel.Text
