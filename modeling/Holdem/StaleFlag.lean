import Holdem.PhaseFacts
import Holdem.Driver
import Holdem.View

set_option autoImplicit false

/- The flag `has_bet_or_raise_this_round` is not reset when a street opens a new betting
round. Two states that differ only in it are followed here through any calls. The flag is
read before the flop and while a round has a last raiser; whenever the code makes
somebody the last raiser it also sets the flag. -/
namespace Holdem

/-- The calls a user of the game makes, reading a player's view included. -/
inductive Request
  | call (call : Call)
  | getLlmGameState (playerId : Int)

/-- How a request ends: with the value it returns or with an exception. -/
inductive Answer
  | returned (result : CallResult)
  | view (state : GameState)
  | raised (error : PyError)
deriving DecidableEq

namespace PokerGame

/-- The players and the deck when a pass of `_deal_hole_cards` is over or has raised. -/
def dealtUntil : List Player → List Card → List Player × List Card
  | [], deck => ([], deck)
  | player :: rest, deck =>
      if player.status = .busted then
        let later := dealtUntil rest deck
        (player :: later.1, later.2)
      else
        match deck with
        | [] => (player :: rest, [])
        | card :: deck =>
            match player.addHoleCard card with
            | .error _ => (player :: rest, deck)
            | .ok player =>
                let later := dealtUntil rest deck
                (player :: later.1, later.2)

/-- What `_deal_hole_cards` has done when it raises: a pass that raises is the last. -/
def holeCardsUntil (game : PokerGame) : PokerGame :=
  let first := dealtUntil game.players game.deck
  let dealt :=
    match dealRound game.players game.deck with
    | .error _ => first
    | .ok _ => dealtUntil first.1 first.2
  { game with players := dealt.1, deck := dealt.2 }

/-- What dealing a street has done when the deck runs out: the phase is already the new
one, the first card is burnt and the others are on the board. -/
def streetUntil (game : PokerGame) : PokerGame :=
  { game with
    currentPhase :=
      match game.currentPhase with
      | .preflop => .flop
      | .flop => .turn
      | .turn => .river
      | phase => phase
    communityCards := game.communityCards ++ game.deck.drop 1
    deck := [] }

/-- The state a call leaves behind when it raises. The showdown evaluates all the hands
before it changes anything. -/
def afterRaise (game : PokerGame) : Call → PokerGame
  | .startNewHand shuffle =>
      (game.resetForHand shuffle).moveDealerButton.postBlinds.holeCardsUntil
  | .advanceToNextPhase => game.streetUntil
  | .processPlayerAction _ _ _ => game
  | .advanceToNextPlayer => game
  | .conductShowdown => game

/-- A request: how it ends and the state after it, also when it raises. -/
def serve (game : PokerGame) : Request → Answer × PokerGame
  | .call call =>
      match game.perform call with
      | .ok (result, next) => (.returned result, next)
      | .error raised => (.raised raised, game.afterRaise call)
  | .getLlmGameState playerId =>
      match game.getLlmGameState playerId with
      | .ok state => (.view state, game)
      | .error raised => (.raised raised, game)

def withFlag (game : PokerGame) (flag : Bool) : PokerGame :=
  { game with hasBetOrRaiseThisRound := flag }

def SameUpToFlag (left right : PokerGame) : Prop :=
  left.withFlag right.hasBetOrRaiseThisRound = right

/-- Nothing reads the flag in such a state. -/
def FlagUnread (game : PokerGame) : Prop :=
  game.currentPhase ≠ .preflop ∧ game.lastRaiserIndex = none

/-- The relation every request preserves: the states are equal, or they differ in a flag
that nothing reads. -/
def FlagBlind (left right : PokerGame) : Prop :=
  left = right ∨ (left.FlagUnread ∧ SameUpToFlag left right)

variable {game : PokerGame}

/-- The flag is not read by the search for the next player, nor copied anywhere else. -/
theorem advanceToNextPlayer_withFlag (flag : Bool) :
    (game.withFlag flag).advanceToNextPlayer = game.advanceToNextPlayer.withFlag flag := by
  have searched : Clockwise.search (game.withFlag flag).players.length
      (game.withFlag flag).isActive (game.withFlag flag).currentPlayerIndex
        (game.withFlag flag).players.length =
      Clockwise.search game.players.length game.isActive game.currentPlayerIndex
        game.players.length := rfl
  unfold advanceToNextPlayer
  simp only [searched]
  split <;> rfl

theorem advanceToNextPlayer_flagUnread (unread : game.FlagUnread) :
    game.advanceToNextPlayer.FlagUnread := by
  unfold advanceToNextPlayer
  dsimp only
  split
  · exact unread
  · exact unread

theorem roundIsOver_withFlag (noRaiser : game.lastRaiserIndex = none) (flag : Bool) :
    (game.withFlag flag).roundIsOver = game.roundIsOver := by
  simp only [roundIsOver, withFlag, noRaiser, Option.isSome_none, Bool.false_and]
  rfl

theorem checkBettingRoundComplete_withFlag (noRaiser : game.lastRaiserIndex = none)
    (flag : Bool) :
    (game.withFlag flag).checkBettingRoundComplete =
      game.checkBettingRoundComplete.withFlag flag := by
  unfold checkBettingRoundComplete
  rw [roundIsOver_withFlag noRaiser]
  split <;> rfl

theorem checkBettingRoundComplete_flagUnread (unread : game.FlagUnread) :
    game.checkBettingRoundComplete.FlagUnread := by
  unfold checkBettingRoundComplete
  split
  · exact unread
  · exact unread

/-- An action either writes the flag itself or hands on the one it found, together with
the last raiser it found. -/
theorem performAction_withFlag (player : Player) (playerId : Int) (action : Action)
    (amount : Int) (flag : Bool) :
    (game.withFlag flag).performAction player playerId action amount =
        game.performAction player playerId action amount ∨
      ∃ done, game.performAction player playerId action amount = some done ∧
        done.lastRaiserIndex = game.lastRaiserIndex ∧
        (game.withFlag flag).performAction player playerId action amount =
          some { done with hasBetOrRaiseThisRound := flag } := by
  have sameBet : (game.withFlag flag).currentBet = game.currentBet := rfl
  cases action with
  | fold => exact Or.inr ⟨_, rfl, rfl, rfl⟩
  | check =>
      unfold performAction
      simp only [sameBet]
      by_cases behind : game.currentBet > player.currentBet
      · left
        rw [if_pos behind, if_pos behind]
      · right
        rw [if_neg behind, if_neg behind]
        exact ⟨_, rfl, rfl, rfl⟩
  | call =>
      unfold performAction
      simp only [sameBet]
      by_cases matched : game.currentBet - player.currentBet ≤ 0
      · right
        rw [if_pos matched, if_pos matched]
        exact ⟨_, rfl, rfl, rfl⟩
      · rw [if_neg matched, if_neg matched]
        by_cases short : player.chips < game.currentBet - player.currentBet
        · left
          rw [if_pos short, if_pos short]
        · right
          rw [if_neg short, if_neg short]
          exact ⟨_, rfl, rfl, rfl⟩
  | raise => exact Or.inl rfl
  | allIn =>
      unfold performAction
      simp only [sameBet]
      by_cases broke : player.chips ≤ 0
      · left
        rw [if_pos broke, if_pos broke]
      · rw [if_neg broke, if_neg broke]
        by_cases above : (player.bet player.chips).2.currentBet > game.currentBet
        · left
          rw [if_pos above, if_pos above]
        · right
          rw [if_neg above, if_neg above]
          exact ⟨_, rfl, rfl, rfl⟩
  | unknown text => exact Or.inl rfl

theorem FlagUnread.blind (unread : game.FlagUnread) (flag : Bool) :
    FlagBlind game (game.withFlag flag) := Or.inr ⟨unread, rfl⟩

/-- The completion test after an action that found no last raiser and made none. -/
theorem settle_blind (unread : game.FlagUnread) (flag : Bool) :
    FlagBlind game.advanceToNextPlayer.checkBettingRoundComplete
      (game.withFlag flag).advanceToNextPlayer.checkBettingRoundComplete := by
  have moved := advanceToNextPlayer_flagUnread unread
  rw [advanceToNextPlayer_withFlag, checkBettingRoundComplete_withFlag moved.2]
  apply FlagUnread.blind
  exact checkBettingRoundComplete_flagUnread moved

theorem processPlayerAction_blind (unread : game.FlagUnread) (flag : Bool) (playerId : Int)
    (action : Action) (amount : Int) :
    (game.processPlayerAction playerId action amount).1 =
        ((game.withFlag flag).processPlayerAction playerId action amount).1 ∧
      FlagBlind (game.processPlayerAction playerId action amount).2
        ((game.withFlag flag).processPlayerAction playerId action amount).2 := by
  have sameTurn : (game.withFlag flag).currentPlayerIndex = game.currentPlayerIndex := rfl
  have samePlayer : (game.withFlag flag).getPlayer playerId = game.getPlayer playerId := rfl
  have same := unread.blind flag
  unfold processPlayerAction
  rw [sameTurn, samePlayer]
  by_cases turn : playerId ≠ game.currentPlayerIndex
  · rw [if_pos turn, if_pos turn]
    exact ⟨rfl, same⟩
  · rw [if_neg turn, if_neg turn]
    cases game.getPlayer playerId with
    | none => exact ⟨rfl, same⟩
    | some player =>
        dsimp only
        by_cases inactive : player.status ≠ .active
        · rw [if_pos inactive, if_pos inactive]
          exact ⟨rfl, same⟩
        · rw [if_neg inactive, if_neg inactive]
          rcases @performAction_withFlag game player playerId action amount flag with
            equal | ⟨done, accepted, noRaise, handedOn⟩
          · -- both sides store the same flag, so nothing differs any more
            rw [equal]
            cases game.performAction player playerId action amount with
            | none => exact ⟨rfl, same⟩
            | some done => exact ⟨rfl, Or.inl rfl⟩
          · rw [accepted, handedOn]
            refine ⟨rfl, ?_⟩
            have stillUnread : (game.commitAction done playerId action amount).FlagUnread :=
              ⟨unread.1, noRaise.trans unread.2⟩
            exact settle_blind stillUnread flag

/-- Before the flop aside, the listing of the actions does not look at the flag. -/
theorem getAvailableActions_withFlag (later : game.currentPhase ≠ .preflop) (flag : Bool)
    (playerId : Int) :
    (game.withFlag flag).getAvailableActions playerId = game.getAvailableActions playerId := by
  have noOption : ∀ (other : PokerGame) (player : Player), other.currentPhase ≠ .preflop →
      other.isBigBlindOption player playerId = false := by
    intro other player notPreflop
    unfold isBigBlindOption
    rw [if_neg (fun asked => notPreflop asked.1)]
  have sameMay : ∀ player, (game.withFlag flag).mayRaise player playerId =
      game.mayRaise player playerId := by
    intro player
    unfold mayRaise
    rw [noOption game player later, noOption (game.withFlag flag) player later]
    rfl
  unfold getAvailableActions
  simp only [sameMay]
  rfl

theorem getLlmGameState_withFlag (later : game.currentPhase ≠ .preflop) (flag : Bool)
    (playerId : Int) :
    (game.withFlag flag).getLlmGameState playerId = game.getLlmGameState playerId := by
  unfold getLlmGameState
  rw [getAvailableActions_withFlag later]
  rfl

theorem dealStreet_withFlag (flag : Bool) (count : Nat) (phase : GamePhase)
    (describe : List Card → String) :
    (game.withFlag flag).dealStreet count phase describe =
      (game.dealStreet count phase describe).map fun dealt => dealt.withFlag flag := by
  have sameDeck : (game.withFlag flag).deck = game.deck := rfl
  unfold dealStreet
  rw [sameDeck]
  cases Deck.dealCard game.deck with
  | error raised => rfl
  | ok burnt =>
      dsimp only
      cases drawCards count burnt.2 with
      | error raised => rfl
      | ok drawn => rfl

theorem startNewBettingRound_withFlag (flag : Bool) :
    (game.withFlag flag).startNewBettingRound = game.startNewBettingRound.withFlag flag := by
  have sameSeats : ∀ test, PokerGame.seatsWhere
      { game.withFlag flag with
        players := game.players.map Player.resetForNewBettingRound
        currentBet := 0
        bettingRoundComplete := false
        lastRaiserIndex := none } test =
      PokerGame.seatsWhere
      { game with
        players := game.players.map Player.resetForNewBettingRound
        currentBet := 0
        bettingRoundComplete := false
        lastRaiserIndex := none } test := fun _ => rfl
  unfold startNewBettingRound
  have samePlayers : (game.withFlag flag).players = game.players := rfl
  simp only [samePlayers, sameSeats]
  split <;> rfl

theorem startNewBettingRound_flagUnread (later : game.currentPhase ≠ .preflop) :
    game.startNewBettingRound.FlagUnread := by
  unfold startNewBettingRound
  dsimp only
  split
  · exact ⟨later, rfl⟩
  · exact ⟨later, rfl⟩

theorem openStreet_withFlag (flag : Bool) (count : Nat) (phase : GamePhase)
    (describe : List Card → String) :
    ((game.withFlag flag).dealStreet count phase describe).map
        (fun dealt => (true, startNewBettingRound dealt)) =
      ((game.dealStreet count phase describe).map
        (fun dealt => (true, startNewBettingRound dealt))).map
          fun moved => (moved.1, moved.2.withFlag flag) := by
  rw [dealStreet_withFlag]
  cases game.dealStreet count phase describe with
  | error raised => rfl
  | ok dealt =>
      show Except.ok (true, (dealt.withFlag flag).startNewBettingRound) = _
      rw [startNewBettingRound_withFlag]
      rfl

theorem openStreet_flagUnread {moved : Bool × PokerGame} {count : Nat} {phase : GamePhase}
    {describe : List Card → String} (later : game.currentPhase ≠ .preflop)
    (returned : (game.dealStreet count phase describe).map
      (fun dealt => (true, startNewBettingRound dealt)) = .ok moved) : moved.2.FlagUnread := by
  cases dealing : game.dealStreet count phase describe with
  | error raised =>
      rw [dealing] at returned
      cases returned
  | ok dealt =>
      rw [dealing] at returned
      cases returned
      apply startNewBettingRound_flagUnread
      rw [dealStreet_phase dealing]
      exact later

theorem advanceToNextPhase_withFlag (flag : Bool) :
    (game.withFlag flag).advanceToNextPhase =
      game.advanceToNextPhase.map fun moved => (moved.1, moved.2.withFlag flag) := by
  have sameComplete : (game.withFlag flag).bettingRoundComplete = game.bettingRoundComplete := rfl
  have sameRemaining : (game.withFlag flag).remainingPlayers = game.remainingPlayers := rfl
  have samePhase : (game.withFlag flag).currentPhase = game.currentPhase := rfl
  unfold advanceToNextPhase
  rw [sameComplete, sameRemaining]
  by_cases incomplete : game.bettingRoundComplete = false
  · rw [if_pos incomplete, if_pos incomplete]
    rfl
  · rw [if_neg incomplete, if_neg incomplete]
    by_cases alone : game.remainingPlayers.length ≤ 1
    · rw [if_pos alone, if_pos alone]
      rfl
    · rw [if_neg alone, if_neg alone]
      unfold changePhase
      rw [samePhase]
      cases game.currentPhase with
      | preflop => exact @openStreet_withFlag { game with currentPhase := .flop } flag ..
      | flop => exact @openStreet_withFlag { game with currentPhase := .turn } flag ..
      | turn => exact @openStreet_withFlag { game with currentPhase := .river } flag ..
      | river => rfl
      | showdown => rfl
      | finished => rfl

theorem advanceToNextPhase_flagUnread {moved : Bool × PokerGame} (unread : game.FlagUnread)
    (returned : game.advanceToNextPhase = .ok moved) : moved.2.FlagUnread := by
  unfold advanceToNextPhase at returned
  split at returned
  · cases returned
    exact unread
  · split at returned
    · cases returned
      exact ⟨nofun, unread.2⟩
    · unfold changePhase at returned
      split at returned
      · exact @openStreet_flagUnread { game with currentPhase := .flop } _ _ _ _ nofun returned
      · exact @openStreet_flagUnread { game with currentPhase := .turn } _ _ _ _ nofun returned
      · exact @openStreet_flagUnread { game with currentPhase := .river } _ _ _ _ nofun returned
      · cases returned
        exact ⟨nofun, unread.2⟩
      · cases returned
        exact unread
      · cases returned
        exact unread

/-- A round `advance_to_next_phase` opened has no last raiser and is not before the flop. -/
theorem opened_flagUnread {before : PokerGame}
    (advanced : before.advanceToNextPhase = .ok (true, game))
    (street : game.currentPhase = .flop ∨ game.currentPhase = .turn ∨
      game.currentPhase = .river) : game.FlagUnread := by
  unfold advanceToNextPhase at advanced
  split at advanced
  · cases advanced
  · split at advanced
    · cases advanced
      rcases street with flop | turn | river
      · cases flop
      · cases turn
      · cases river
    · unfold changePhase at advanced
      split at advanced
      · exact @openStreet_flagUnread { before with currentPhase := .flop } _ _ _ _ nofun advanced
      · exact @openStreet_flagUnread { before with currentPhase := .turn } _ _ _ _ nofun advanced
      · exact @openStreet_flagUnread { before with currentPhase := .river } _ _ _ _ nofun advanced
      · cases advanced
        rcases street with flop | turn | river
        · cases flop
        · cases turn
        · cases river
      · cases advanced
      · cases advanced

theorem streetUntil_flagUnread (unread : game.FlagUnread) : game.streetUntil.FlagUnread := by
  refine ⟨?_, unread.2⟩
  show (match game.currentPhase with
    | .preflop => GamePhase.flop
    | .flop => .turn
    | .turn => .river
    | phase => phase) ≠ .preflop
  cases phase : game.currentPhase with
  | preflop => exact nofun
  | flop => exact nofun
  | turn => exact nofun
  | river => exact nofun
  | showdown => exact nofun
  | finished => exact nofun

theorem conductShowdown_withFlag (flag : Bool) :
    (game.withFlag flag).conductShowdown =
      game.conductShowdown.map fun settled => (settled.1.withFlag flag, settled.2) := by
  have sameRemaining : (game.withFlag flag).remainingPlayers = game.remainingPlayers := rfl
  have sameBoard : (game.withFlag flag).communityCards = game.communityCards := rfl
  unfold conductShowdown
  rw [sameRemaining, sameBoard]
  split
  · rfl
  · rfl
  · rename_i first second rest _
    cases evaluatePlayers game.communityCards (first :: second :: rest) with
    | error raised => rfl
    | ok hands => rfl

theorem conductShowdown_flagUnread {settled : PokerGame × ShowdownResult}
    (unread : game.FlagUnread) (returned : game.conductShowdown = .ok settled) :
    settled.1.FlagUnread := by
  unfold conductShowdown at returned
  split at returned
  · cases returned
    exact unread
  · cases returned
    exact unread
  · split at returned
    · cases returned
    · cases returned
      exact unread

/-- One request: the answers agree, and so do the states up to a flag that nothing reads. -/
theorem serve_blind {left right : PokerGame} (request : Request)
    (related : FlagBlind left right) :
    (left.serve request).1 = (right.serve request).1 ∧
      FlagBlind (left.serve request).2 (right.serve request).2 := by
  rcases related with equal | ⟨unread, same⟩
  · rw [equal]
    exact ⟨rfl, Or.inl rfl⟩
  · rw [← same]
    generalize right.hasBetOrRaiseThisRound = flag
    cases request with
    | getLlmGameState playerId =>
        unfold serve
        dsimp only
        rw [getLlmGameState_withFlag unread.1]
        cases left.getLlmGameState playerId with
        | error raised => exact ⟨rfl, unread.blind flag⟩
        | ok state => exact ⟨rfl, unread.blind flag⟩
    | call call =>
        cases call with
        | startNewHand shuffle =>
            -- the hand is reset before anything is read, the flag included
            have sameHand : (left.withFlag flag).serve (.call (.startNewHand shuffle)) =
                left.serve (.call (.startNewHand shuffle)) := rfl
            rw [sameHand]
            exact ⟨rfl, Or.inl rfl⟩
        | processPlayerAction playerId action amount =>
            obtain ⟨answers, states⟩ :=
              processPlayerAction_blind unread flag playerId action amount
            refine ⟨?_, states⟩
            exact congrArg (fun ok => Answer.returned (.accepted ok)) answers
        | advanceToNextPlayer =>
            refine ⟨rfl, ?_⟩
            show FlagBlind left.advanceToNextPlayer (left.withFlag flag).advanceToNextPlayer
            rw [advanceToNextPlayer_withFlag]
            exact (advanceToNextPlayer_flagUnread unread).blind flag
        | advanceToNextPhase =>
            unfold serve
            dsimp only [perform]
            rw [advanceToNextPhase_withFlag]
            cases advanced : left.advanceToNextPhase with
            | error raised => exact ⟨rfl, (streetUntil_flagUnread unread).blind flag⟩
            | ok moved =>
                have still := advanceToNextPhase_flagUnread unread advanced
                exact ⟨rfl, still.blind flag⟩
        | conductShowdown =>
            unfold serve
            dsimp only [perform]
            rw [conductShowdown_withFlag]
            cases returned : left.conductShowdown with
            | error raised => exact ⟨rfl, unread.blind flag⟩
            | ok settled =>
                have still := conductShowdown_flagUnread unread returned
                exact ⟨rfl, still.blind flag⟩

theorem FlagBlind.upToFlag {left right : PokerGame} (related : FlagBlind left right) :
    SameUpToFlag left right := by
  rcases related with equal | ⟨_, same⟩
  · rw [equal]
    rfl
  · exact same

/-- From the moment a street's betting round is open, the flag it kept is unobservable:
whatever is called, the answers are the same and the states differ in the flag at most. -/
theorem stale_flag_unobservable {before left right : PokerGame}
    (advanced : before.advanceToNextPhase = .ok (true, left))
    (street : left.currentPhase = .flop ∨ left.currentPhase = .turn ∨
      left.currentPhase = .river)
    (same : SameUpToFlag left right) (requests : List Request) :
    List.Forall₂ (fun first second => first.1 = second.1 ∧ SameUpToFlag first.2 second.2)
      (Runs.trace serve left requests) (Runs.trace serve right requests) := by
  have related : FlagBlind left right := Or.inr ⟨opened_flagUnread advanced street, same⟩
  have traced := Runs.trace_related FlagBlind
    (fun _ _ request holds => serve_blind request holds) related requests
  exact traced.imp fun _ _ agrees => ⟨agrees.1, agrees.2.upToFlag⟩

def raisedPreflop : PokerGame :=
  { smallBlind := 5
    bigBlind := 10
    players := [{ id := 0, chips := 80, currentBet := 20, totalBetThisHand := 20 },
      { id := 1, chips := 80, currentBet := 20, totalBetThisHand := 20, isBigBlind := true }]
    pot := 40
    currentBet := 20
    bettingRoundComplete := true
    lastRaiserIndex := some 0
    hasBetOrRaiseThisRound := true }

def raisedFlop : PokerGame :=
  match raisedPreflop.advanceToNextPhase with
  | .ok moved => moved.2
  | .error _ => raisedPreflop

theorem raised_flop_flag_unobservable :
    raisedFlop.hasBetOrRaiseThisRound = true ∧
      ∀ requests, List.Forall₂
        (fun first second => first.1 = second.1 ∧ SameUpToFlag first.2 second.2)
        (Runs.trace serve raisedFlop requests)
        (Runs.trace serve (raisedFlop.withFlag false) requests) := by
  refine ⟨rfl, ?_⟩
  intro requests
  exact @stale_flag_unobservable raisedPreflop raisedFlop (raisedFlop.withFlag false) rfl
    (Or.inl rfl) rfl requests

end PokerGame

end Holdem
