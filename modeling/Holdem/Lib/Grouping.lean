import Mathlib.Data.List.Basic

set_option autoImplicit false

/- Items filed under the numbers 1, 2, ... in the order of these numbers. -/
namespace Grouping

variable {α : Type}

/-- The items are in the order of their keys, which are among the first `count` numbers. -/
structure Filed (key : α → Nat) (count : Nat) (items : List α) : Prop where
  sorted : items.Pairwise fun first second => key first ≤ key second
  inside : ∀ item ∈ items, 1 ≤ key item ∧ key item ≤ count

variable {key : α → Nat} {count : Nat} {items : List α}

theorem Filed.nil (key : α → Nat) (count : Nat) : Filed key count [] :=
  ⟨List.Pairwise.nil, fun _ member => absurd member List.not_mem_nil⟩

theorem Filed.append (filed : Filed key count items) (some : 1 ≤ count) {more : List α}
    (last : ∀ item ∈ more, key item = count) : Filed key count (items ++ more) := by
  refine ⟨List.pairwise_append.mpr ⟨filed.sorted, ?_, ?_⟩, ?_⟩
  · apply List.pairwise_of_forall_mem_list
    intro first firstIn second secondIn
    exact Nat.le_of_eq ((last first firstIn).trans (last second secondIn).symm)
  · intro first firstIn second secondIn
    rw [last second secondIn]
    exact (filed.inside first firstIn).2
  · intro item member
    rcases List.mem_append.mp member with old | new
    · exact filed.inside item old
    · rw [last item new]
      exact ⟨some, Nat.le_refl _⟩

theorem Filed.filter (filed : Filed key count items) (keep : α → Bool) :
    Filed key count (items.filter keep) :=
  ⟨filed.sorted.filter keep, fun item member => filed.inside item (List.mem_filter.mp member).1⟩

theorem Filed.grow (filed : Filed key count items) {more : Nat} (larger : count ≤ more) :
    Filed key more items :=
  ⟨filed.sorted, fun item member =>
    ⟨(filed.inside item member).1, Nat.le_trans (filed.inside item member).2 larger⟩⟩

theorem split_at (sorted : items.Pairwise fun first second => key first ≤ key second)
    (bound : Nat) :
    items.filter (fun item => decide (key item ≤ bound)) ++
      items.filter (fun item => decide (bound < key item)) = items := by
  induction items with
  | nil => rfl
  | cons item rest ih =>
      obtain ⟨least, ordered⟩ := List.pairwise_cons.mp sorted
      by_cases low : key item ≤ bound
      · rw [List.filter_cons_of_pos (by simpa using low),
          List.filter_cons_of_neg (by simpa using low), List.cons_append, ih ordered]
      · have above : ∀ other ∈ rest, ¬ key other ≤ bound := by
          intro other member
          have := least other member
          omega
        have none : rest.filter (fun other => decide (key other ≤ bound)) = [] := by
          rw [List.filter_eq_nil_iff]
          intro other member
          simpa using above other member
        have all : rest.filter (fun other => decide (bound < key other)) = rest := by
          rw [List.filter_eq_self]
          intro other member
          simpa using above other member
        rw [List.filter_cons_of_neg (by simpa using low),
          List.filter_cons_of_pos (by simpa using low), none, all, List.nil_append]

/-- Read number by number, the groups of the items are all the items in their order. -/
theorem Filed.flatMap_groups (filed : Filed key count items) :
    (List.range' 1 count).flatMap (fun number => items.filter fun item => key item == number) =
      items := by
  induction count generalizing items with
  | zero =>
      cases items with
      | nil => rfl
      | cons item rest =>
          have := filed.inside item (List.mem_cons_self ..)
          omega
  | succ count ih =>
      have lower : Filed key count (items.filter fun item => decide (key item ≤ count)) :=
        ⟨filed.sorted.filter _, fun item member =>
          ⟨(filed.inside item (List.mem_filter.mp member).1).1,
            of_decide_eq_true (List.mem_filter.mp member).2⟩⟩
      have below : (List.range' 1 count).flatMap
          (fun number => items.filter fun item => key item == number) =
            items.filter fun item => decide (key item ≤ count) := by
        rw [← ih lower]
        apply List.flatMap_congr
        intro number member
        have bound := (List.mem_range'_1.mp member).2
        rw [List.filter_filter]
        apply List.filter_congr
        intro item _
        by_cases same : key item = number
        · simp [same, show number ≤ count by omega]
        · simp [same]
      have last : items.filter (fun item => key item == count + 1) =
          items.filter fun item => decide (count < key item) := by
        apply List.filter_congr
        intro item member
        have bound := (filed.inside item member).2
        by_cases same : key item = count + 1
        · simp [same]
        · simp [same, show ¬ count < key item by omega]
      rw [List.range'_1_concat, List.flatMap_append, below, List.flatMap_singleton,
        Nat.add_comm 1 count, last]
      exact split_at filed.sorted count

end Grouping
