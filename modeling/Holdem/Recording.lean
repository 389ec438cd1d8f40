import Holdem.DriverFacts

set_option autoImplicit false

namespace Holdem

namespace PokerGame

/-! ### What each call writes to the history tables -/

def actionRow (game : PokerGame) (done : Performed) (handId : Nat) (playerId : Int)
    (action : Action) (amount : Int) : ActionRow :=
  ⟨handId, game.currentPhase.value, playerId, action.text, recordedAmount done action amount,
    game.pot + done.paid⟩

theorem afterAction_db (game : PokerGame) (done : Performed) (playerId : Int) (action : Action)
    (amount : Int) :
    let next := game.afterAction done playerId action amount
    next.db.actions = game.db.actions ++ game.currentHandId.toList.map (fun handId =>
        game.actionRow done handId playerId action amount) ∧
      next.db.hands = game.db.hands ∧ next.db.showdownResults = game.db.showdownResults ∧
      next.currentHandId = game.currentHandId ∧ next.pot = game.pot + done.paid := by
  obtain ⟨seat, complete, frame⟩ := game.afterAction_frame done playerId action amount
  rw [frame]
  dsimp only [commitAction, recordInHand]
  cases game.currentHandId with
  | none =>
      refine ⟨?_, rfl, rfl, rfl, rfl⟩
      simp
  | some handId => exact ⟨rfl, rfl, rfl, rfl, rfl⟩

theorem advance_db (game : PokerGame) :
    game.advanceToNextPlayer.db = game.db ∧
      game.advanceToNextPlayer.currentHandId = game.currentHandId ∧
      game.advanceToNextPlayer.pot = game.pot := by
  obtain ⟨seat, complete, frame⟩ := game.advance_frame
  rw [frame]
  exact ⟨rfl, rfl, rfl⟩

theorem nextPhase_db {game next : PokerGame} {moved : Bool}
    (served : game.currentPhase.cardsNeeded ≤ game.deck.length)
    (returned : game.advanceToNextPhase = .ok (moved, next)) :
    next.db.actions = game.db.actions ∧ next.db.hands = game.db.hands ∧
      next.db.showdownResults = game.db.showdownResults ∧
      next.currentHandId = game.currentHandId ∧ next.pot = game.pot := by
  rcases advanceToNextPhase_frame served returned with ⟨phase, rfl⟩ |
    ⟨phase, count, describe, seat, complete, rfl⟩
  · exact ⟨rfl, rfl, rfl, rfl, rfl⟩
  · have street : ∀ write : Nat → GameHistoryDB → GameHistoryDB,
        (∀ handId db, (write handId db).actions = db.actions ∧
          (write handId db).hands = db.hands ∧
          (write handId db).showdownResults = db.showdownResults) →
        (game.recordInHand write).actions = game.db.actions ∧
          (game.recordInHand write).hands = game.db.hands ∧
          (game.recordInHand write).showdownResults = game.db.showdownResults := by
      intro write keeps
      unfold recordInHand
      split
      · exact ⟨rfl, rfl, rfl⟩
      · exact keeps _ _
    obtain ⟨actions, hands, results⟩ := street
      (fun handId db => db.recordCommunityCards ⟨handId, phase.value,
        (game.communityCards ++ (game.deck.drop 1).take count).map Card.str⟩)
      fun _ _ => ⟨rfl, rfl, rfl⟩
    exact ⟨actions, hands, results, rfl, rfl⟩

theorem recordShowdowns_keeps (db : GameHistoryDB) (handId : Nat)
    (winningsMap : List (Int × Int)) (hands : List PlayerHand) :
    (recordShowdowns db handId winningsMap hands).actions = db.actions ∧
      (recordShowdowns db handId winningsMap hands).hands = db.hands := by
  unfold recordShowdowns
  induction hands generalizing db with
  | nil => exact ⟨rfl, rfl⟩
  | cons shown rest ih =>
      rw [List.foldl_cons]
      exact ih _

/-- A showdown writes no action; an uncontested one writes nothing at all. -/
theorem conductShowdown_db {game next : PokerGame} {result : ShowdownResult}
    (returned : game.conductShowdown = .ok (next, result)) :
    next.db.actions = game.db.actions ∧ next.currentHandId = game.currentHandId ∧
      (game.remainingPlayers.length ≤ 1 → next.db = game.db) := by
  unfold conductShowdown at returned
  split at returned
  · cases returned
    exact ⟨rfl, rfl, fun _ => rfl⟩
  · cases returned
    exact ⟨rfl, rfl, fun _ => rfl⟩
  · rename_i first second rest listed
    split at returned
    · cases returned
    · rename_i hands _
      cases returned
      refine ⟨?_, rfl, fun alone => ?_⟩
      · dsimp only [contestedShowdown, recordInHand]
        cases game.currentHandId with
        | none => rfl
        | some handId => exact (recordShowdowns_keeps _ _ _ _).1
      · rw [listed] at alone
        simp at alone

theorem conductShowdown_hands {game next : PokerGame} {result : ShowdownResult}
    (returned : game.conductShowdown = .ok (next, result)) :
    next.db.hands.length = game.db.hands.length := by
  unfold conductShowdown at returned
  split at returned
  · cases returned
    rfl
  · cases returned
    rfl
  · split at returned
    · cases returned
    · cases returned
      dsimp only [contestedShowdown, recordInHand]
      cases game.currentHandId with
      | none => rfl
      | some handId =>
          simp only [GameHistoryDB.endHand, List.length_map, (recordShowdowns_keeps _ _ _ _).2]

theorem find?_of_only (test : Player → Bool) {players : List Player} {seat : Nat} {player : Player}
    (here : players[seat]? = some player) (passes : test player = true)
    (only : ∀ (other : Nat) found, players[other]? = some found → test found = true →
      other = seat) : players.find? test = some player := by
  obtain ⟨inside, equal⟩ := List.getElem?_eq_some_iff.mp here
  rw [List.find?_eq_some_iff_getElem]
  refine ⟨passes, seat, inside, equal, ?_⟩
  intro other before
  by_contra fails
  have same := only other _ (List.getElem?_eq_getElem (Nat.lt_trans before inside))
    (by simpa using fails)
  omega

theorem setFirstActorPreflop_frame (game : PokerGame) :
    ∃ seat complete, game.setFirstActorPreflop =
      { game with currentPlayerIndex := seat, bettingRoundComplete := complete } := by
  unfold setFirstActorPreflop
  dsimp only
  split
  · exact ⟨_, _, rfl⟩
  · split
    · exact ⟨_, _, rfl⟩
    · split <;> exact ⟨_, _, rfl⟩

/-- The blinds are recorded under the id the table still has from the hand before. -/
theorem postBlinds_db {game : PokerGame} {smallPlayer bigPlayer : Player}
    (two : 2 ≤ game.survivorSeats.length)
    (smallAt : game.players[game.blindSeats.1]? = some smallPlayer)
    (bigAt : game.players[game.blindSeats.2]? = some bigPlayer)
    (apart : game.blindSeats.1 ≠ game.blindSeats.2) :
    ∃ smallPaid bigPaid, game.postBlinds.db =
        (game.recordInHand fun handId db =>
          (db.recordAction ⟨handId, "preflop", smallPlayer.id, "small_blind", smallPaid,
            game.pot + smallPaid⟩).recordAction ⟨handId, "preflop", bigPlayer.id, "big_blind",
              bigPaid, game.postBlinds.pot⟩) ∧
      game.postBlinds.currentHandId = game.currentHandId ∧
      game.postBlinds.pot = game.pot + smallPaid + bigPaid ∧
      (0 ≤ smallPlayer.chips → 0 ≤ smallPaid) ∧ (0 ≤ bigPlayer.chips → 0 ≤ bigPaid) := by
  let marked : Player := { smallPlayer with isSmallBlind := true }
  have stillAt : (game.players.set game.blindSeats.1
      (marked.bet game.smallBlind).2)[game.blindSeats.2]? = some bigPlayer := by
    rw [List.getElem?_set_ne apart, bigAt]
  have pot : game.postBlinds.pot = game.pot + (marked.bet game.smallBlind).1 +
      (Player.bet { bigPlayer with isBigBlind := true } game.bigBlind).1 := by
    unfold postBlinds
    rw [if_neg (by omega)]
    simp only [postBlind, smallAt]
    rw [stillAt]
  have paid : ∀ (player : Player) (blind : Int), 0 ≤ player.chips → 0 ≤ (player.bet blind).1 := by
    intro player blind funded
    rw [(player.bet_spec blind funded).1]
    exact Int.le_max_left _ _
  rw [pot]
  unfold postBlinds
  rw [if_neg (by omega)]
  simp only [postBlind, smallAt]
  rw [stillAt]
  refine ⟨(marked.bet game.smallBlind).1,
    (Player.bet { bigPlayer with isBigBlind := true } game.bigBlind).1, ?_, rfl, rfl,
    paid marked game.smallBlind, paid { bigPlayer with isBigBlind := true } game.bigBlind⟩
  unfold recordInHand
  cases game.currentHandId <;> rfl

/-- A hand that opens is what the blinds and the deal leave, with the turn set and its row
written. -/
theorem startNewHand_steps {game next : PokerGame} {shuffle : Shuffle}
    (returned : game.startNewHand shuffle = .ok next) (opened : next.currentPhase ≠ .finished) :
    2 ≤ (game.resetForHand shuffle).survivorSeats.length ∧
      ∃ dealt, (game.readyForBlinds shuffle).postBlinds.dealHoleCards = .ok dealt ∧
        next = dealt.setFirstActorPreflop.recordHand := by
  unfold startNewHand at returned
  dsimp only at returned
  split at returned
  · cases returned
    exact absurd rfl opened
  · split at returned
    · cases returned
    · rename_i two dealt served
      cases returned
      exact ⟨by omega, dealt, served, rfl⟩

/-- After the blinds only the hand's own row is written. -/
theorem startNewHand_row {game next : PokerGame} {shuffle : Shuffle}
    (returned : game.startNewHand shuffle = .ok next) (opened : next.currentPhase ≠ .finished) :
    let posted := (game.readyForBlinds shuffle).postBlinds
    ∃ row, next.db = { posted.db with hands := posted.db.hands ++ [row] } ∧
      row.handId = posted.db.hands.length + 1 ∧ row.ended = false ∧
      next.currentHandId = some row.handId ∧ next.pot = posted.pot ∧
      row.smallBlind = next.smallBlind ∧ row.bigBlind = next.bigBlind ∧
      row.dealerButton = ((next.players[next.dealerButton]?).map Player.id).getD 0 := by
  obtain ⟨_, dealt, served, rfl⟩ := startNewHand_steps returned opened
  obtain ⟨once, between, players, deck, _, _, rfl⟩ := dealHoleCards_rounds served
  obtain ⟨seat, complete, frame⟩ := setFirstActorPreflop_frame
    { (game.readyForBlinds shuffle).postBlinds with players := players, deck := deck }
  rw [frame]
  generalize (game.readyForBlinds shuffle).postBlinds = posted
  exact ⟨_, rfl, rfl, rfl, rfl, rfl, rfl, rfl, rfl⟩

/-- The blinds of an opened hand are the marked players of the table after it. -/
theorem opened_blinds {game next : PokerGame} {button small big : Nat}
    (hand : OpenedHand game button small big next) :
    ∃ smallPlayer bigPlayer smallBefore bigBefore,
      next.players.find? (fun player => player.isSmallBlind) = some smallPlayer ∧
      next.players.find? (fun player => player.isBigBlind) = some bigPlayer ∧
      game.players[small]? = some smallBefore ∧ smallPlayer.id = smallBefore.id ∧
      game.players[big]? = some bigBefore ∧ bigPlayer.id = bigBefore.id := by
  have marks : ∀ (seat : Nat) player, next.players[seat]? = some player →
      player.isSmallBlind = (seat == small) ∧ player.isBigBlind = (seat == big) := by
    intro seat player there
    obtain ⟨before, cards, _, rfl⟩ := hand.player_of_seat there
    exact (openSeat_marks before hand.apart).2.2
  obtain ⟨smallBefore, smallThere, _⟩ := hand.smallAlive
  obtain ⟨bigBefore, bigThere, _⟩ := hand.bigAlive
  obtain ⟨smallCards, smallAt⟩ := hand.opened small
  obtain ⟨bigCards, bigAt⟩ := hand.opened big
  rw [smallThere, Option.map_some] at smallAt
  rw [bigThere, Option.map_some] at bigAt
  refine ⟨_, _, smallBefore, bigBefore, find?_of_only _ smallAt ?_ ?_,
    find?_of_only _ bigAt ?_ ?_, smallThere, (openSeat_marks smallBefore hand.apart).1, bigThere,
    (openSeat_marks bigBefore hand.apart).1⟩
  · rw [(marks _ _ smallAt).1, beq_self_eq_true]
  · intro other found there passes
    rwa [(marks _ _ there).1, beq_iff_eq] at passes
  · rw [(marks _ _ bigAt).2, beq_self_eq_true]
  · intro other found there passes
    rwa [(marks _ _ there).2, beq_iff_eq] at passes

/-- What a hand that opens leaves in the tables: both blinds under the id of the hand before
it, nothing for them when there was none, and its own row in `hands`. -/
theorem startNewHand_db {game next : PokerGame} {shuffle : Shuffle} {button : Nat}
    (returned : game.startNewHand shuffle = .ok next)
    (hand : OpenedHand game button (game.readyForBlinds shuffle).blindSeats.1
      (game.readyForBlinds shuffle).blindSeats.2 next) :
    ∃ small big smallPaid bigPaid row,
      next.players.find? (fun player => player.isSmallBlind) = some small ∧
      next.players.find? (fun player => player.isBigBlind) = some big ∧
      next.db.actions = game.db.actions ++ game.currentHandId.toList.flatMap (fun handId =>
        [⟨handId, "preflop", small.id, "small_blind", smallPaid, smallPaid⟩,
          ⟨handId, "preflop", big.id, "big_blind", bigPaid, next.pot⟩]) ∧
      next.db.hands = game.db.hands ++ [row] ∧
      next.db.showdownResults = game.db.showdownResults ∧
      row.handId = game.db.hands.length + 1 ∧ row.ended = false ∧
      next.currentHandId = some row.handId ∧
      row.smallBlind = next.smallBlind ∧ row.bigBlind = next.bigBlind ∧
      row.dealerButton = ((next.players[next.dealerButton]?).map Player.id).getD 0 ∧
      next.pot = smallPaid + bigPaid ∧
      ((∀ player ∈ game.players, 0 ≤ player.chips) → 0 ≤ smallPaid ∧ 0 ≤ bigPaid) := by
  have opened : next.currentPhase ≠ .finished := by
    rw [hand.phase]
    decide
  obtain ⟨two, _⟩ := startNewHand_steps returned opened
  obtain ⟨moved, _, ready⟩ := moveDealerButton_spec
    (List.ne_nil_of_length_pos (show 0 < (game.resetForHand shuffle).survivorSeats.length by omega))
  have seats := ready_getElem? ready
  have stillTwo : 2 ≤ (game.readyForBlinds shuffle).survivorSeats.length := by
    rw [readyForBlinds, ready, survivorSeats_withDealer]
    exact two
  have kept : (game.readyForBlinds shuffle).db = game.db ∧
      (game.readyForBlinds shuffle).currentHandId = game.currentHandId ∧
      (game.readyForBlinds shuffle).pot = 0 := by
    rw [readyForBlinds, ready]
    exact ⟨rfl, rfl, rfl⟩
  obtain ⟨small, big, smallBefore, bigBefore, smallFound, bigFound, smallThere, smallId, bigThere,
    bigId⟩ := opened_blinds hand
  have smallReady := seats (game.readyForBlinds shuffle).blindSeats.1
  have bigReady := seats (game.readyForBlinds shuffle).blindSeats.2
  rw [smallThere, Option.map_some] at smallReady
  rw [bigThere, Option.map_some] at bigReady
  obtain ⟨smallPaid, bigPaid, written, sameId, total, smallFunded, bigFunded⟩ :=
    postBlinds_db stillTwo smallReady bigReady hand.apart
  obtain ⟨row, db, number, open_, current, pot, blinds⟩ := startNewHand_row returned opened
  rw [← pot] at written
  have hands : (game.readyForBlinds shuffle).postBlinds.db.hands = game.db.hands := by
    rw [written]
    unfold recordInHand
    rw [kept.1]
    split <;> rfl
  rw [← pot, kept.2.2, Int.zero_add] at total
  rw [kept.2.2, Int.zero_add] at written
  refine ⟨small, big, smallPaid, bigPaid, row, smallFound, bigFound, ?_, ?_, ?_, ?_,
    open_, current, blinds.1, blinds.2.1, blinds.2.2, total, fun all =>
      ⟨smallFunded (all smallBefore (List.mem_of_getElem? smallThere)),
        bigFunded (all bigBefore (List.mem_of_getElem? bigThere))⟩⟩
  · rw [db]
    dsimp only
    rw [written, smallId, bigId]
    unfold recordInHand
    rw [kept.1, kept.2.1]
    cases game.currentHandId with
    | none => simp
    | some handId => simp [GameHistoryDB.recordAction, Player.resetForNewHand]
  · rw [db, ← hands]
  · rw [db]
    dsimp only
    rw [written]
    unfold recordInHand
    rw [kept.1]
    split <;> rfl
  · rw [number, hands]

end PokerGame

end Holdem
