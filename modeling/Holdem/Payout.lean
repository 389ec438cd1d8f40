import Holdem.Showdown
import Holdem.BettingFacts
import Mathlib.Tactic.Ring

set_option autoImplicit false

namespace Holdem

/-! ### One layer -/

theorem sum_shares_upto (amount : Int) {winners : Nat} (positive : 0 < winners) (count : Nat) :
    ((List.range count).map (shareAt amount winners)).sum =
      count * (amount / winners) + min (count : Int) (amount % winners) := by
  have remainder : 0 ≤ amount % winners := Int.emod_nonneg _ (by omega)
  induction count with
  | zero => simp [remainder]
  | succ count ih =>
      rw [List.range_succ, List.map_append, List.sum_append, ih]
      simp only [List.map_cons, List.map_nil, List.sum_cons, List.sum_nil, shareAt]
      push_cast
      rw [Int.add_mul]
      split <;> omega

theorem sum_shares (amount : Int) {winners : Nat} (positive : 0 < winners) :
    ((List.range winners).map (shareAt amount winners)).sum = amount := by
  have bound : amount % winners < winners := Int.emod_lt_of_pos _ (by omega)
  have whole := Int.mul_ediv_add_emod amount winners
  rw [sum_shares_upto amount positive]
  omega

theorem shareAt_nonneg {amount : Int} (positive : 0 ≤ amount) (winners position : Nat) :
    0 ≤ shareAt amount winners position := by
  have quotient : 0 ≤ amount / winners := Int.ediv_nonneg positive (by omega)
  unfold shareAt
  split <;> omega

/-- What the share loop adds to the total and to the winnings, and whom it pays. -/
theorem payShares_spec (amount : Int) (winners position : Nat) (ids : List Int)
    (state : List (Int × Int) × Int) :
    let paid := payShares amount winners position ids state
    let shares := ((List.range' position ids.length).map (shareAt amount winners)).sum
    paid.2 = state.2 + shares ∧
      (paid.1.map Prod.snd).sum = (state.1.map Prod.snd).sum + shares ∧
      ∀ key ∈ paid.1.map Prod.fst, key ∈ ids ∨ key ∈ state.1.map Prod.fst := by
  induction ids generalizing position state with
  | nil => simp [payShares]
  | cons playerId rest ih =>
      obtain ⟨winningsMap, totalAwarded⟩ := state
      obtain ⟨total, sum, keys⟩ := ih (position + 1)
        (Dict.set winningsMap playerId
            ((winningsMap.lookup playerId).getD 0 + shareAt amount winners position),
          totalAwarded + shareAt amount winners position)
      simp only [payShares, List.length_cons, List.range'_succ, List.map_cons, List.sum_cons]
      refine ⟨by rw [total]; omega, ?_, ?_⟩
      · rw [sum, Dict.sum_set_add]
        omega
      · intro key member
        rcases keys key member with later | earlier
        · exact Or.inl (List.mem_cons_of_mem _ later)
        · rcases Dict.mem_keys_of_set earlier with same | old
          · exact Or.inl (by simp [same])
          · exact Or.inr old

theorem payShares_nonneg {amount : Int} (positive : 0 ≤ amount) (winners position : Nat)
    (ids : List Int) {state : List (Int × Int) × Int}
    (nonneg : ∀ value ∈ state.1.map Prod.snd, 0 ≤ value) :
    ∀ value ∈ (payShares amount winners position ids state).1.map Prod.snd, 0 ≤ value := by
  induction ids generalizing position state with
  | nil => exact nonneg
  | cons playerId rest ih =>
      obtain ⟨winningsMap, totalAwarded⟩ := state
      apply ih
      intro value member
      rcases Dict.mem_values_of_set member with rfl | old
      · have share := shareAt_nonneg positive winners position
        have held : 0 ≤ (winningsMap.lookup playerId).getD 0 := by
          cases found : winningsMap.lookup playerId with
          | none => exact Int.le_refl 0
          | some value =>
              obtain ⟨before, after, split, _⟩ := List.lookup_eq_some_iff.mp found
              exact nonneg value (by simp [split])
        omega
      · exact nonneg value old

/-! ### The winners of a layer -/

theorem considerWinner_mem {handsById : List (Int × HandResult)}
    {state : List Int × Option HandResult} {playerId winner : Int}
    (member : winner ∈ (considerWinner handsById state playerId).1) :
    winner ∈ state.1 ∨ winner = playerId := by
  unfold considerWinner at member
  split at member
  · exact Or.inl member
  · split at member
    · exact Or.inr (by simpa using member)
    · split at member
      · exact Or.inr (by simpa using member)
      · split at member
        · simpa using member
        · exact Or.inl member

/-- A best hand comes with a winner, and a player with a hand leaves a best hand. -/
theorem considerWinner_held (handsById : List (Int × HandResult))
    {state : List Int × Option HandResult} (playerId : Int)
    (held : state.2.isSome → state.1 ≠ []) :
    let next := considerWinner handsById state playerId
    (next.2.isSome → next.1 ≠ []) ∧
      ((handsById.lookup playerId).isSome ∨ state.2.isSome → next.2.isSome) := by
  unfold considerWinner
  split
  · rename_i missing
    exact ⟨held, by simp [missing]⟩
  · split
    · simp
    · rename_i best found
      have some : state.1 ≠ [] := held (by simp [found])
      split
      · simp
      · split
        · simp
        · exact ⟨held, by simp [found]⟩

theorem determineWinnerIds_mem {handsById : List (Int × HandResult)} {eligibleIds : List Int}
    {winner : Int} (member : winner ∈ (determineWinnerIds handsById eligibleIds).1) :
    winner ∈ eligibleIds := by
  have general : ∀ (ids : List Int) (state : List Int × Option HandResult),
      winner ∈ (ids.foldl (considerWinner handsById) state).1 →
      winner ∈ state.1 ∨ winner ∈ ids := by
    intro ids
    induction ids with
    | nil => exact fun state found => Or.inl found
    | cons playerId rest ih =>
        intro state found
        rcases ih _ found with earlier | later
        · rcases considerWinner_mem earlier with old | rfl
          · exact Or.inl old
          · exact Or.inr (by simp)
        · exact Or.inr (List.mem_cons_of_mem _ later)
  rcases general eligibleIds _ member with none | listed
  · cases none
  · exact listed

/-- As soon as one eligible player has a hand there is a winner. -/
theorem determineWinnerIds_ne_nil {handsById : List (Int × HandResult)} {eligibleIds : List Int}
    {playerId : Int} (listed : playerId ∈ eligibleIds)
    (hand : (handsById.lookup playerId).isSome) :
    (determineWinnerIds handsById eligibleIds).1 ≠ [] := by
  have general : ∀ (ids : List Int) (state : List Int × Option HandResult),
      (state.2.isSome → state.1 ≠ []) → playerId ∈ ids ∨ state.2.isSome →
      (ids.foldl (considerWinner handsById) state).1 ≠ [] := by
    intro ids
    induction ids with
    | nil =>
        intro state held reached
        rcases reached with absent | present
        · cases absent
        · exact held present
    | cons next rest ih =>
        intro state held reached
        obtain ⟨keeps, gains⟩ := considerWinner_held handsById next held
        apply ih _ keeps
        rcases reached with member | present
        · rcases List.mem_cons.mp member with rfl | later
          · exact Or.inr (gains (Or.inl hand))
          · exact Or.inl later
        · exact Or.inr (gains (Or.inr present))
  exact general eligibleIds ([], none) (by simp) (Or.inl listed)

/-! ### The loop over the layers -/

/-- Some contributor of the layer is at the showdown. -/
def PotLayer.claimed (layer : PotLayer) (showdownIds : List Int) : Bool :=
  layer.contributors.any fun playerId => decide (playerId ∈ showdownIds)

def Distribution.won (state : Distribution) : Int := (state.winningsMap.map Prod.snd).sum

/-- A claimed layer is paid in full; an unclaimed one stays in the pot. -/
theorem distributeLayer_spec {handsById : List (Int × HandResult)} {showdownIds : List Int}
    (shown : ∀ playerId ∈ showdownIds, (handsById.lookup playerId).isSome)
    (state : Distribution) (layer : PotLayer) :
    let next := distributeLayer handsById showdownIds state layer
    let paid := if layer.claimed showdownIds then layer.amount else 0
    next.totalAwarded = state.totalAwarded + paid ∧ next.won = state.won + paid ∧
      ∀ key ∈ next.winningsMap.map Prod.fst,
        key ∈ showdownIds ∨ key ∈ state.winningsMap.map Prod.fst := by
  unfold distributeLayer
  dsimp only
  split
  · rename_i empty
    have unclaimed : layer.claimed showdownIds = false := by
      simpa [PotLayer.claimed, List.filter_eq_nil_iff] using empty
    rw [unclaimed]
    simp only [Distribution.won, Bool.false_eq_true, ↓reduceIte, Int.add_zero, true_and]
    exact fun key member => Or.inr member
  · rename_i present
    have claimed : layer.claimed showdownIds = true := by
      simpa [PotLayer.claimed, List.filter_eq_nil_iff] using present
    obtain ⟨playerId, contributed, listed⟩ := List.any_eq_true.mp claimed
    have listed : playerId ∈ showdownIds := by simpa using listed
    have eligible : playerId ∈ layer.contributors.filter fun other =>
        decide (other ∈ showdownIds) := by
      simp [contributed, listed]
    have won := determineWinnerIds_ne_nil eligible (shown playerId listed)
    generalize winners : ((determineWinnerIds handsById (layer.contributors.filter fun other =>
      decide (other ∈ showdownIds))).1.insertionSort fun left right => left ≤ right) = winnerIds
    have sameMembers : ∀ id, id ∈ winnerIds ↔ id ∈ (determineWinnerIds handsById
        (layer.contributors.filter fun other => decide (other ∈ showdownIds))).1 := by
      intro id
      rw [← winners]
      exact (List.perm_insertionSort _ _).mem_iff
    have positive : 0 < winnerIds.length := by
      obtain ⟨first, inside⟩ := List.exists_mem_of_ne_nil _ won
      exact List.length_pos_of_mem ((sameMembers first).mpr inside)
    obtain ⟨total, sum, keys⟩ := payShares_spec layer.amount winnerIds.length 0 winnerIds
      (state.winningsMap, state.totalAwarded)
    rw [← List.range_eq_range', sum_shares layer.amount positive] at total sum
    rw [claimed, if_pos rfl]
    refine ⟨total, sum, ?_⟩
    intro key member
    rcases keys key member with winner | old
    · have inside := determineWinnerIds_mem ((sameMembers key).mp winner)
      exact Or.inl (by simpa using (List.mem_filter.mp inside).2)
    · exact Or.inr old

/-- The claimed layers, and nothing else, are awarded to players at the showdown. -/
theorem distributeLayers_spec {handsById : List (Int × HandResult)} {showdownIds : List Int}
    (shown : ∀ playerId ∈ showdownIds, (handsById.lookup playerId).isSome)
    (layers : List PotLayer) :
    let final := distributeLayers handsById showdownIds layers
    let paid := (layers.map fun layer => if layer.claimed showdownIds then layer.amount else 0).sum
    final.totalAwarded = paid ∧ final.won = paid ∧
      ∀ key ∈ final.winningsMap.map Prod.fst, key ∈ showdownIds := by
  have general : ∀ (layers : List PotLayer) (state : Distribution),
      let final := layers.foldl (distributeLayer handsById showdownIds) state
      let paid :=
        (layers.map fun layer => if layer.claimed showdownIds then layer.amount else 0).sum
      final.totalAwarded = state.totalAwarded + paid ∧ final.won = state.won + paid ∧
        ∀ key ∈ final.winningsMap.map Prod.fst,
          key ∈ showdownIds ∨ key ∈ state.winningsMap.map Prod.fst := by
    intro layers
    induction layers with
    | nil =>
        intro state
        simp only [List.foldl_nil, List.map_nil, List.sum_nil, Int.add_zero, true_and]
        exact fun key member => Or.inr member
    | cons layer rest ih =>
        intro state
        obtain ⟨stepTotal, stepWon, stepKeys⟩ := distributeLayer_spec shown state layer
        obtain ⟨total, won, keys⟩ := ih (distributeLayer handsById showdownIds state layer)
        simp only [List.foldl_cons, List.map_cons, List.sum_cons]
        refine ⟨by rw [total, stepTotal]; omega, by rw [won, stepWon]; omega, ?_⟩
        intro key member
        rcases keys key member with listed | earlier
        · exact Or.inl listed
        · exact stepKeys key earlier
  obtain ⟨total, won, keys⟩ := general layers ⟨0, [], 0, []⟩
  refine ⟨total.trans (Int.zero_add _), won.trans (Int.zero_add _), ?_⟩
  intro key member
  exact (keys key member).resolve_right (by simp)

theorem distributeLayers_nonneg (handsById : List (Int × HandResult)) (showdownIds : List Int)
    {layers : List PotLayer} (positive : ∀ layer ∈ layers, 0 ≤ layer.amount) :
    ∀ value ∈ (distributeLayers handsById showdownIds layers).winningsMap.map Prod.snd,
      0 ≤ value := by
  have general : ∀ (layers : List PotLayer) (state : Distribution),
      (∀ layer ∈ layers, 0 ≤ layer.amount) →
      (∀ value ∈ state.winningsMap.map Prod.snd, 0 ≤ value) →
      ∀ value ∈ (layers.foldl (distributeLayer handsById showdownIds) state).winningsMap.map
        Prod.snd, 0 ≤ value := by
    intro layers
    induction layers with
    | nil => exact fun state _ nonneg => nonneg
    | cons layer rest ih =>
        intro state amounts nonneg
        apply ih _ fun other member => amounts other (List.mem_cons_of_mem _ member)
        unfold distributeLayer
        dsimp only
        split
        · exact nonneg
        · exact payShares_nonneg (amounts layer (by simp)) _ _ _ nonneg
  exact general layers ⟨0, [], 0, []⟩ positive (by simp)

theorem payShares_keys_nodup (amount : Int) (winners position : Nat) (ids : List Int)
    {state : List (Int × Int) × Int} (distinct : (state.1.map Prod.fst).Nodup) :
    ((payShares amount winners position ids state).1.map Prod.fst).Nodup := by
  induction ids generalizing position state with
  | nil => exact distinct
  | cons playerId rest ih =>
      obtain ⟨winningsMap, totalAwarded⟩ := state
      apply ih
      exact Dict.nodup_keys_set distinct _ _

/-- Every winner has one entry in the winnings. -/
theorem distributeLayers_keys_nodup (handsById : List (Int × HandResult))
    (showdownIds : List Int) (layers : List PotLayer) :
    ((distributeLayers handsById showdownIds layers).winningsMap.map Prod.fst).Nodup := by
  have general : ∀ (layers : List PotLayer) (state : Distribution),
      (state.winningsMap.map Prod.fst).Nodup →
      ((layers.foldl (distributeLayer handsById showdownIds) state).winningsMap.map
        Prod.fst).Nodup := by
    intro layers
    induction layers with
    | nil => exact fun state distinct => distinct
    | cons layer rest ih =>
        intro state distinct
        apply ih
        unfold distributeLayer
        dsimp only
        split
        · exact distinct
        · exact payShares_keys_nodup _ _ _ _ distinct
  exact general layers ⟨0, [], 0, []⟩ (by simp)

end Holdem
