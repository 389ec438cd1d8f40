import Mathlib.Data.List.Sublists
import Mathlib.Data.List.MinMax
import Mathlib.Order.Lattice

set_option autoImplicit false

/- Fixed-size selections of a list, in the order in which positions increase,
and the best item of a list. -/
namespace Combinations

variable {α : Type}

/-- All sublists of the given length; those that keep the first element come first. -/
def choose : Nat → List α → List (List α)
  | 0, _ => [[]]
  | _ + 1, [] => []
  | count + 1, item :: rest =>
      (choose count rest).map (item :: ·) ++ choose (count + 1) rest

@[simp] theorem choose_zero (items : List α) : choose 0 items = [[]] := by
  cases items <;> rfl

@[simp] theorem choose_nil (count : Nat) : choose (count + 1) ([] : List α) = [] := rfl

theorem choose_cons (count : Nat) (item : α) (rest : List α) :
    choose (count + 1) (item :: rest) =
      (choose count rest).map (item :: ·) ++ choose (count + 1) rest := rfl

theorem mem_choose {count : Nat} {items picked : List α} :
    picked ∈ choose count items ↔ picked.Sublist items ∧ picked.length = count := by
  induction items generalizing count picked with
  | nil =>
      cases count with
      | zero => simp
      | succ count =>
          simp only [choose_nil, List.not_mem_nil, List.sublist_nil, false_iff, not_and]
          rintro rfl
          simp
  | cons item rest ih =>
      cases count with
      | zero =>
          simp only [choose_zero, List.mem_singleton, List.length_eq_zero_iff]
          constructor
          · rintro rfl
            exact ⟨List.nil_sublist _, rfl⟩
          · exact fun selected => selected.2
      | succ count =>
          simp only [choose_cons, List.mem_append, List.mem_map, ih]
          constructor
          · rintro (⟨tail, ⟨kept, size⟩, rfl⟩ | ⟨kept, size⟩)
            · exact ⟨kept.cons_cons item, by simp [size]⟩
            · exact ⟨kept.cons item, size⟩
          · rintro ⟨kept, size⟩
            cases kept with
            | cons _ skipped => exact Or.inr ⟨skipped, size⟩
            | @cons_cons tail _ _ taken => exact Or.inl ⟨tail, ⟨taken, by simpa using size⟩, rfl⟩

theorem choose_ne_nil {count : Nat} {items : List α} (enough : count ≤ items.length) :
    choose count items ≠ [] := by
  have first : items.take count ∈ choose count items :=
    mem_choose.mpr ⟨List.take_sublist count items, List.length_take_of_le enough⟩
  exact List.ne_nil_of_mem first

theorem exists_mem_choose {count : Nat} {items : List α} {item : α} (member : item ∈ items)
    (positive : 0 < count) (enough : count ≤ items.length) :
    ∃ picked ∈ choose count items, item ∈ picked := by
  obtain ⟨before, after, rfl⟩ := List.append_of_mem member
  simp only [List.length_append, List.length_cons] at enough
  by_cases few : count ≤ before.length + 1
  · refine ⟨before.take (count - 1) ++ [item], mem_choose.mpr ⟨?_, ?_⟩, by simp⟩
    · exact (List.take_sublist _ before).append (List.singleton_sublist.mpr (by simp))
    · rw [List.length_append, List.length_take, List.length_singleton]
      omega
  · refine ⟨before ++ item :: after.take (count - (before.length + 1)), mem_choose.mpr ⟨?_, ?_⟩,
      by simp⟩
    · exact (List.Sublist.refl before).append ((List.take_sublist _ after).cons_cons item)
    · rw [List.length_append, List.length_cons, List.length_take]
      omega

theorem choose_map {β : Type} (f : α → β) (count : Nat) (items : List α) :
    choose count (items.map f) = (choose count items).map (List.map f) := by
  induction items generalizing count with
  | nil =>
      cases count with
      | zero => rfl
      | succ count => rfl
  | cons item rest ih =>
      cases count with
      | zero => rfl
      | succ count =>
          simp only [choose_cons, List.map_cons, List.map_append, List.map_map, ih]
          rfl

/-- The best of several, where `replaces` decides between the next item and the best so far. -/
def keepBest (replaces : α → α → Bool) (best : α) (items : List α) : α :=
  items.foldl (fun best item => if replaces item best then item else best) best

theorem keepBest_cons (replaces : α → α → Bool) (best item : α) (rest : List α) :
    keepBest replaces best (item :: rest) =
      keepBest replaces (if replaces item best then item else best) rest := rfl

/-- If an item is replaced by none that scores less and kept before none that scores more, the
best has the highest score. -/
theorem keepBest_spec {β : Type} [LinearOrder β] (score : α → β) {replaces : α → α → Bool}
    {valid : α → Prop}
    (up : ∀ new old, valid new → valid old → replaces new old = true → score old ≤ score new)
    (down : ∀ new old, valid new → valid old → replaces new old = false → score new ≤ score old)
    (best : α) (items : List α) (bestValid : valid best) (itemsValid : ∀ item ∈ items, valid item) :
    (keepBest replaces best items = best ∨ keepBest replaces best items ∈ items) ∧
      score best ≤ score (keepBest replaces best items) ∧
      ∀ item ∈ items, score item ≤ score (keepBest replaces best items) := by
  induction items generalizing best with
  | nil => exact ⟨Or.inl rfl, le_refl _, by simp⟩
  | cons first rest ih =>
      have firstValid := itemsValid first (by simp)
      have later : ∀ item ∈ rest, valid item := fun item member =>
        itemsValid item (List.mem_cons_of_mem _ member)
      rw [keepBest_cons]
      cases decided : replaces first best
      · obtain ⟨origin, least, most⟩ := ih best bestValid later
        refine ⟨origin.imp_right (List.mem_cons_of_mem _), least, ?_⟩
        intro item member
        rcases List.mem_cons.mp member with rfl | inside
        · exact le_trans (down item best firstValid bestValid decided) least
        · exact most item inside
      · obtain ⟨origin, least, most⟩ := ih first firstValid later
        refine ⟨Or.inr (List.mem_cons.mpr origin), ?_, ?_⟩
        · exact le_trans (up first best firstValid bestValid decided) least
        · intro item member
          rcases List.mem_cons.mp member with rfl | inside
          · exact least
          · exact most item inside

/-- The largest of some values and a least one is one of them. -/
theorem largest_spec {β : Type} [LinearOrder β] (least : β) (values : List β) :
    least ≤ values.foldr max least ∧
      (values.foldr max least = least ∨ values.foldr max least ∈ values) := by
  induction values with
  | nil => exact ⟨le_refl _, Or.inl rfl⟩
  | cons value rest ih =>
      obtain ⟨above, attained⟩ := ih
      rw [List.foldr_cons]
      refine ⟨le_max_of_le_right above, ?_⟩
      rcases le_total (rest.foldr max least) value with high | low
      · rw [max_eq_left high]
        exact Or.inr (List.mem_cons_self ..)
      · rw [max_eq_right low]
        exact attained.imp_right (List.mem_cons_of_mem _)

end Combinations
