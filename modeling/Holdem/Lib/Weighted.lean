import Mathlib.Algebra.GroupWithZero.Nat
import Mathlib.Data.List.Basic

set_option autoImplicit false

/- The choice of an entry of a list by its weight, as `random.choices` makes it from a point
below the sum of the weights. -/
namespace Weighted

variable {α : Type}

/-- `list(itertools.accumulate(weights))`, from a total on. -/
def runningTotals : Nat → List Nat → List Nat
  | _, [] => []
  | total, weight :: rest => (total + weight) :: runningTotals (total + weight) rest

/-- `bisect` of a point in the running totals: how many of them it has reached. -/
def place (total : Nat) (weights : List Nat) (point : Nat) : Nat :=
  (runningTotals total weights).countP fun reached => decide (reached ≤ point)

/-- `random.choices(population, weights)[0]`; `none` where the population is empty. -/
def pick (entries : List (α × Nat)) (point : Nat) : Option α :=
  (entries[min (place 0 (entries.map Prod.snd) point) (entries.length - 1)]?).map Prod.fst

theorem pick_isSome {entries : List (α × Nat)} (someone : entries ≠ []) (point : Nat) :
    ∃ item weight, pick entries point = some item ∧ (item, weight) ∈ entries := by
  have positive := List.length_pos_of_ne_nil someone
  have inside : min (place 0 (entries.map Prod.snd) point) (entries.length - 1) <
      entries.length := by omega
  refine ⟨(entries[min (place 0 (entries.map Prod.snd) point) (entries.length - 1)]).1,
    (entries[min (place 0 (entries.map Prod.snd) point) (entries.length - 1)]).2, ?_,
    List.getElem_mem inside⟩
  unfold pick
  rw [List.getElem?_eq_getElem inside]
  rfl

theorem runningTotals_le (total : Nat) (weights : List Nat) :
    ∀ reached ∈ runningTotals total weights, total ≤ reached := by
  induction weights generalizing total with
  | nil => simp [runningTotals]
  | cons weight rest ih =>
      intro reached member
      rcases List.mem_cons.mp member with rfl | later
      · exact Nat.le_add_right _ _
      · exact Nat.le_trans (Nat.le_add_right _ _) (ih _ reached later)

/-- A point within the first weight is at the first place, any other one place further. -/
theorem place_cons (total weight : Nat) (rest : List Nat) (point : Nat) :
    place total (weight :: rest) point =
      if point < total + weight then 0 else place (total + weight) rest point + 1 := by
  split
  · rename_i before
    unfold place
    rw [List.countP_eq_zero]
    intro reached member
    rw [decide_eq_true_eq]
    rcases List.mem_cons.mp member with rfl | later
    · omega
    · have := runningTotals_le _ rest reached later
      omega
  · rename_i behind
    have reached : total + weight ≤ point := by omega
    unfold place
    rw [runningTotals, List.countP_cons, if_pos (by simpa using reached)]

/-- A point below the sum of the weights is at one of the places. -/
theorem place_lt {total point : Nat} {weights : List Nat} (reached : total ≤ point)
    (below : point < total + weights.sum) : place total weights point < weights.length := by
  induction weights generalizing total with
  | nil =>
      rw [List.sum_nil] at below
      omega
  | cons weight rest ih =>
      rw [List.sum_cons] at below
      rw [place_cons, List.length_cons]
      split
      · omega
      · rename_i behind
        have later := ih (Nat.le_of_not_lt behind) (by omega)
        omega

/-- The points below the sum of the weights that choose a kind of entry are as many as the
weights of these entries together. -/
theorem countP_pick (entries : List (α × Nat)) (test : α → Bool) :
    (List.range (entries.map Prod.snd).sum).countP (fun point => (pick entries point).any test) =
      ((entries.filter fun entry => test entry.1).map Prod.snd).sum := by
  have general : ∀ (entries : List (α × Nat)) (total : Nat),
      (List.range' total (entries.map Prod.snd).sum).countP (fun point =>
          ((entries[place total (entries.map Prod.snd) point]?).map Prod.fst).any test) =
        ((entries.filter fun entry => test entry.1).map Prod.snd).sum := by
    intro entries
    induction entries with
    | nil => exact fun _ => rfl
    | cons entry rest ih =>
        intro total
        have first : (List.range' total entry.2).countP (fun point =>
            (((entry :: rest)[place total ((entry :: rest).map Prod.snd) point]?).map
              Prod.fst).any test) = if test entry.1 then entry.2 else 0 := by
          have same : ∀ point ∈ List.range' total entry.2,
              (((entry :: rest)[place total ((entry :: rest).map Prod.snd) point]?).map
                Prod.fst).any test = test entry.1 := by
            intro point member
            rw [List.mem_range'_1] at member
            rw [List.map_cons, place_cons, if_pos (by omega)]
            rfl
          rw [List.countP_congr fun point member => by rw [same point member]]
          split
          · rename_i passes
            simp [passes]
          · rename_i fails
            simp [fails]
        have later : (List.range' (total + entry.2) (rest.map Prod.snd).sum).countP (fun point =>
            (((entry :: rest)[place total ((entry :: rest).map Prod.snd) point]?).map
              Prod.fst).any test) =
            ((rest.filter fun entry => test entry.1).map Prod.snd).sum := by
          rw [← ih (total + entry.2)]
          apply List.countP_congr
          intro point member
          rw [List.mem_range'_1] at member
          rw [List.map_cons, place_cons, if_neg (by omega), List.getElem?_cons_succ]
        have split : List.range' total ((entry :: rest).map Prod.snd).sum =
            List.range' total entry.2 ++
              List.range' (total + entry.2) (rest.map Prod.snd).sum := by
          rw [List.map_cons, List.sum_cons, ← List.range'_append_1]
        rw [split, List.countP_append, first, later, List.filter_cons]
        by_cases passes : test entry.1 = true
        · rw [if_pos passes, if_pos passes, List.map_cons, List.sum_cons]
        · rw [if_neg passes, if_neg passes, Nat.zero_add]
  have whole := general entries 0
  rw [← List.range_eq_range'] at whole
  rw [← whole]
  apply List.countP_congr
  intro point member
  have below := List.mem_range.mp member
  have inside := place_lt (Nat.zero_le point) (by rwa [Nat.zero_add])
  rw [List.length_map] at inside
  unfold pick
  rw [Nat.min_eq_left (by omega)]

end Weighted
