import Holdem.HistoryQueries
import Mathlib.Algebra.BigOperators.Group.List.Basic

set_option autoImplicit false

namespace Holdem

def HandHistory.statsOf (histories : List HandHistory) (playerId : Int) : PlayerActionStats :=
  let actions := (histories.flatMap HandHistory.actions).filter fun row =>
    decide (row.playerId = playerId)
  let shown := (histories.flatMap HandHistory.showdownResults).filter fun row =>
    decide (row.playerId = playerId)
  { playerId := playerId
    handsPlayed := (histories.filter fun history =>
      history.actions.any fun row => decide (row.playerId = playerId)).length
    actionCounts := (actions.map ActionRow.actionType).dedup.map fun kind =>
      (kind, (actions.filter fun row => row.actionType == kind).length)
    showdowns := shown.length
    showdownWins := (shown.filter fun row => decide (row.winnings > 0)).length
    totalWinnings := (shown.map ShowdownRow.winnings).sum }

namespace GameHistoryDB

variable {db : GameHistoryDB}

/-- What is read off each hand is read off its history. -/
theorem InOrder.flatMap_histories {α : Type} (order : db.InOrder) (rows : HandHistory → List α) :
    db.histories.flatMap rows =
      (List.range' 1 db.hands.length).flatMap fun hand =>
        ((db.getHandHistory hand).map rows).getD [] := by
  have each := congrArg (List.flatMap fun answer : Option HandHistory =>
    (answer.map rows).getD []) order.range_histories
  rw [List.flatMap_map, List.flatMap_map] at each
  exact each.symm

theorem InOrder.histories_actions (order : db.InOrder) :
    db.histories.flatMap HandHistory.actions = db.actions := by
  rw [order.flatMap_histories]
  refine Eq.trans (List.flatMap_congr ?_) order.actions.flatMap_groups
  intro hand member
  rw [List.mem_range'_1] at member
  obtain ⟨row, found, _⟩ := order.find_row member.1 (by omega)
  obtain ⟨history, answer, _, actions, _⟩ := getHandHistory_of_row found
  rw [answer, Option.map_some, Option.getD_some, actions]

theorem InOrder.histories_shown (order : db.InOrder) :
    (db.histories.flatMap HandHistory.showdownResults).Perm db.showdownResults := by
  rw [order.flatMap_histories]
  refine List.Perm.trans (List.Perm.flatMap_left _ ?_)
    (List.Perm.of_eq order.shown.flatMap_groups)
  intro hand member
  rw [List.mem_range'_1] at member
  obtain ⟨row, found, _⟩ := order.find_row member.1 (by omega)
  obtain ⟨history, answer, _, _, shown⟩ := getHandHistory_of_row found
  rw [answer, Option.map_some, Option.getD_some]
  exact shown

theorem InOrder.histories_hands (order : db.InOrder) :
    db.histories.map HandHistory.hand = db.hands := by
  have length : db.histories.length = db.hands.length := by
    have same := congrArg List.length order.range_histories
    rw [List.length_map, List.length_map, List.length_range'] at same
    exact same.symm
  apply List.ext_getElem?
  intro place
  by_cases inside : place < db.hands.length
  · obtain ⟨row, found, here, _⟩ := order.find_row (Nat.le_add_left 1 place) (by omega)
    obtain ⟨history, answer, about, _⟩ := getHandHistory_of_row found
    have each := congrArg (fun answers => answers[place]?) order.range_histories
    simp only [List.getElem?_map, List.getElem?_range' inside, Option.map_some,
      List.getElem?_eq_getElem (length ▸ inside), Nat.one_mul] at each
    rw [Nat.add_comm 1 place, answer] at each
    rw [List.getElem?_map, List.getElem?_eq_getElem (length ▸ inside), Option.map_some,
      ← Option.some.inj (Option.some.inj each), about]
    exact here.symm
  · rw [List.getElem?_eq_none (by rw [List.length_map]; omega),
      List.getElem?_eq_none (by omega)]

theorem InOrder.newest_first (order : db.InOrder) :
    ((db.hands.map HandRow.handId).insertionSort fun left right => left ≥ right) =
      (List.range' 1 db.hands.length).reverse := by
  refine List.Perm.eq_of_pairwise' (r := fun left right : Nat => left ≥ right)
    (List.pairwise_insertionSort _ _) ?_ ?_
  · rw [List.pairwise_reverse]
    exact (List.pairwise_lt_range' 1).imp fun before => Nat.le_of_lt before
  · refine (List.perm_insertionSort _ _).trans ?_
    rw [order.ids]
    exact (List.reverse_perm _).symm

theorem limitTo_map {α β : Type} (limit : Int) (f : α → β) (rows : List α) :
    (limitTo limit rows).map f = limitTo limit (rows.map f) := by
  unfold limitTo
  split
  · rfl
  · rw [List.map_take]

theorem InOrder.recent (order : db.InOrder) (limit : Int) :
    db.getRecentHands limit = (limitTo limit db.histories.reverse).map some := by
  unfold getRecentHands
  rw [order.newest_first, limitTo_map, List.map_reverse, order.range_histories, limitTo_map,
    List.map_reverse]

/-- The hands a player acted in, counted by their numbers or by their histories. -/
theorem InOrder.hands_played (order : db.InOrder) (playerId : Int) :
    (((db.actions.filter fun row => decide (row.playerId = playerId)).map
        ActionRow.handId).dedup).length =
      (db.histories.filter fun history =>
        history.actions.any fun row => decide (row.playerId = playerId)).length := by
  have seen : (db.histories.filter fun history =>
        history.actions.any fun row => decide (row.playerId = playerId)).length =
      ((List.range' 1 db.hands.length).filter fun hand =>
        db.actions.any fun row => row.handId == hand && decide (row.playerId = playerId)).length := by
    have each := congrArg (List.countP fun answer : Option HandHistory =>
      answer.any fun history => history.actions.any fun row => decide (row.playerId = playerId))
      order.range_histories
    rw [List.countP_map, List.countP_map] at each
    rw [← List.countP_eq_length_filter, ← List.countP_eq_length_filter]
    refine Eq.trans each.symm (List.countP_congr ?_)
    intro hand member
    rw [List.mem_range'_1] at member
    obtain ⟨row, found, _⟩ := order.find_row member.1 (by omega)
    obtain ⟨history, answer, _, actions, _⟩ := getHandHistory_of_row found
    rw [Function.comp_apply, answer, Option.any_some, actions, List.any_filter]
  rw [seen]
  apply List.Perm.length_eq
  rw [List.perm_ext_iff_of_nodup (List.nodup_dedup _)
    ((List.nodup_range' 1).filter _)]
  intro hand
  rw [List.mem_dedup, List.mem_map, List.mem_filter, List.any_eq_true]
  constructor
  · rintro ⟨row, member, rfl⟩
    obtain ⟨there, mine⟩ := List.mem_filter.mp member
    have bounds := order.actions.inside row there
    refine ⟨List.mem_range'_1.mpr (by omega), row, there, ?_⟩
    rw [beq_self_eq_true, mine]
    rfl
  · rintro ⟨_, row, there, both⟩
    rw [Bool.and_eq_true, beq_iff_eq] at both
    exact ⟨row, List.mem_filter.mpr ⟨there, both.2⟩, both.1⟩

theorem InOrder.stats (order : db.InOrder) (playerId : Int) :
    db.getPlayerActionStats playerId = HandHistory.statsOf db.histories playerId := by
  have shown := order.histories_shown.filter fun row => decide (row.playerId = playerId)
  unfold getPlayerActionStats HandHistory.statsOf
  dsimp only
  rw [order.histories_actions, order.hands_played]
  simp only [PlayerActionStats.mk.injEq, true_and]
  exact ⟨shown.length_eq.symm, (shown.filter _).length_eq.symm,
    ((shown.map ShowdownRow.winnings).sum_eq).symm⟩

end GameHistoryDB

end Holdem
