import Holdem.Cards
import Mathlib.Algebra.Ring.Int.Defs
import Mathlib.Data.List.Dedup

set_option autoImplicit false

namespace Holdem

/-- A row of `hands`. Timestamps are left out; `ended_at` is kept as whether it is set. -/
structure HandRow where
  handId : Nat
  smallBlind : Int
  bigBlind : Int
  dealerButton : Int
  playerIds : List Int
  ended : Bool := false
deriving DecidableEq, Repr

/-- A row of `actions`; its `action_id` is its place in the table. -/
structure ActionRow where
  handId : Nat
  phase : String
  playerId : Int
  actionType : String
  amount : Int
  potAfter : Int
deriving DecidableEq, Repr

/-- A row of `community_cards`, keyed by hand and phase. -/
structure CommunityRow where
  handId : Nat
  phase : String
  cards : List String
deriving DecidableEq, Repr

/-- A row of `showdown_results`, keyed by hand and player. -/
structure ShowdownRow where
  handId : Nat
  playerId : Int
  holeCards : Option (List String)
  handRank : String
  winnings : Int
deriving DecidableEq, Repr

/-- The four tables of `GameHistoryDB`, rows in insertion order. -/
structure GameHistoryDB where
  hands : List HandRow := []
  actions : List ActionRow := []
  communityCards : List CommunityRow := []
  showdownResults : List ShowdownRow := []
deriving DecidableEq, Repr

namespace GameHistoryDB

/-- `GameHistoryDB.start_new_hand`: the autoincremented id and the table with its row.
Rows are never deleted, so the next id is one more than their number. -/
def startNewHand (db : GameHistoryDB) (smallBlind bigBlind dealerButton : Int)
    (playerIds : List Int) : Nat × GameHistoryDB :=
  let handId := db.hands.length + 1
  (handId,
    { db with hands := db.hands ++ [⟨handId, smallBlind, bigBlind, dealerButton, playerIds, false⟩] })

def recordAction (db : GameHistoryDB) (row : ActionRow) : GameHistoryDB :=
  { db with actions := db.actions ++ [row] }

/-- `GameHistoryDB.record_community_cards`, an `INSERT OR REPLACE`. -/
def recordCommunityCards (db : GameHistoryDB) (row : CommunityRow) : GameHistoryDB :=
  { db with
    communityCards := (db.communityCards.filter fun old =>
      ¬ (old.handId = row.handId ∧ old.phase = row.phase)) ++ [row] }

/-- `GameHistoryDB.record_showdown`, an `INSERT OR REPLACE`; an empty card list is
stored as `NULL`. -/
def recordShowdown (db : GameHistoryDB) (handId : Nat) (playerId : Int)
    (holeCards : List String) (handRank : String) (winnings : Int) : GameHistoryDB :=
  { db with
    showdownResults := (db.showdownResults.filter fun old =>
      ¬ (old.handId = handId ∧ old.playerId = playerId)) ++
        [⟨handId, playerId, if holeCards.isEmpty then none else some holeCards, handRank,
          winnings⟩] }

def endHand (db : GameHistoryDB) (handId : Nat) : GameHistoryDB :=
  { db with
    hands := db.hands.map fun row => if row.handId = handId then { row with ended := true } else row }

end GameHistoryDB

structure PlayerActionStats where
  playerId : Int
  handsPlayed : Nat
  actionCounts : List (String × Nat)
  showdowns : Nat
  showdownWins : Nat
  totalWinnings : Int
deriving DecidableEq, Repr

/-- `GameHistoryDB.get_player_action_stats`. An empty `SUM` is `NULL`, which `or 0` turns
into 0; the groups are listed in order of appearance. -/
def GameHistoryDB.getPlayerActionStats (db : GameHistoryDB) (playerId : Int) :
    PlayerActionStats :=
  let actions := db.actions.filter fun row => decide (row.playerId = playerId)
  let shown := db.showdownResults.filter fun row => decide (row.playerId = playerId)
  { playerId := playerId
    handsPlayed := (actions.map ActionRow.handId).dedup.length
    actionCounts := (actions.map ActionRow.actionType).dedup.map fun kind =>
      (kind, (actions.filter fun row => row.actionType == kind).length)
    showdowns := shown.length
    showdownWins := (shown.filter fun row => decide (row.winnings > 0)).length
    totalWinnings := (shown.map ShowdownRow.winnings).sum }

end Holdem
