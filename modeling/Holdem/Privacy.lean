import Holdem.Masking
import Holdem.HandStart
import Holdem.ShowdownFacts
import Holdem.Driver

set_option autoImplicit false

namespace Holdem

/-- The community cards a deck will give from a phase on; the cards between them are burnt. -/
def GamePhase.boardToCome (phase : GamePhase) (deck : List Card) : List Card :=
  match phase with
  | .preflop => (deck.drop 1).take 3 ++ ((deck.drop 5).take 1 ++ (deck.drop 7).take 1)
  | .flop => (deck.drop 1).take 1 ++ (deck.drop 3).take 1
  | .turn => (deck.drop 1).take 1
  | _ => []

/-- The two games differ in the hole cards of one player and in cards that never show. -/
structure Alike (hidden : Int → Bool) (left right : PokerGame) : Prop where
  shown : left.conceal hidden [] = right.conceal hidden []
  size : left.deck.length = right.deck.length
  board : left.currentPhase.boardToCome left.deck = right.currentPhase.boardToCome right.deck

/-- Two calls, or two runs, that return the same and leave games that are alike, or that raise
the same exception. -/
inductive AlikeOutcome {α : Type} (hidden : Int → Bool) :
    Except PyError (α × PokerGame) → Except PyError (α × PokerGame) → Prop
  | returned {value : α} {left right : PokerGame} (alike : Alike hidden left right) :
      AlikeOutcome hidden (.ok (value, left)) (.ok (value, right))
  | raised (error : PyError) : AlikeOutcome hidden (.error error) (.error error)

theorem AlikeOutcome.map {α β : Type} {hidden : Int → Bool}
    {mine yours : Except PyError (α × PokerGame)} (outcome : AlikeOutcome hidden mine yours)
    (f : α → β) :
    AlikeOutcome hidden (mine.map fun pair => (f pair.1, pair.2))
      (yours.map fun pair => (f pair.1, pair.2)) := by
  cases outcome with
  | returned alike => exact .returned alike
  | raised error => exact .raised error

namespace PokerGame

theorem conceal_conceal (hidden : Int → Bool) (deck other : List Card) (game : PokerGame) :
    (game.conceal hidden other).conceal hidden deck = game.conceal hidden deck := by
  unfold conceal
  rw [List.map_map]
  have masks : Player.mask hidden ∘ Player.mask hidden = Player.mask hidden := by
    funext player
    unfold Player.mask
    simp only [Function.comp_apply]
    split <;> rfl
  rw [masks]

theorem conceal_dealtStreet (hidden : Int → Bool) (deck : List Card) (game : PokerGame)
    (count : Nat) (phase : GamePhase) (describe : List Card → String)
    (drawn : (deck.drop 1).take count = (game.deck.drop 1).take count) :
    (game.conceal hidden deck).dealtStreet count phase describe =
      (game.dealtStreet count phase describe).conceal hidden (deck.drop (count + 1)) := by
  simp only [dealtStreet, conceal, drawn]
  rfl

end PokerGame

namespace Alike

variable {hidden : Int → Bool} {left right : PokerGame}

theorem conceal (alike : Alike hidden left right) (deck : List Card) :
    left.conceal hidden deck = right.conceal hidden deck := by
  rw [← PokerGame.conceal_conceal hidden deck [], alike.shown, PokerGame.conceal_conceal]

theorem phase (alike : Alike hidden left right) : left.currentPhase = right.currentPhase := by
  have same := congrArg PokerGame.currentPhase alike.shown
  exact same

theorem complete (alike : Alike hidden left right) :
    left.bettingRoundComplete = right.bettingRoundComplete := by
  have same := congrArg PokerGame.bettingRoundComplete alike.shown
  exact same

theorem remaining (alike : Alike hidden left right) :
    left.remainingPlayers.length = right.remainingPlayers.length := by
  have same := congrArg (fun game => game.remainingPlayers.length) alike.shown
  simpa [PokerGame.conceal_remainingPlayers] using same

theorem process (alike : Alike hidden left right) (playerId : Int) (action : Action)
    (amount : Int) :
    (left.processPlayerAction playerId action amount).1 =
        (right.processPlayerAction playerId action amount).1 ∧
      Alike hidden (left.processPlayerAction playerId action amount).2
        (right.processPlayerAction playerId action amount).2 := by
  have same := congrArg (fun game => game.processPlayerAction playerId action amount) alike.shown
  simp only [PokerGame.conceal_processPlayerAction, Prod.mk.injEq] at same
  obtain ⟨leftDeck, leftPhase⟩ := left.process_deck playerId action amount
  obtain ⟨rightDeck, rightPhase⟩ := right.process_deck playerId action amount
  refine ⟨same.1, same.2, ?_, ?_⟩
  · rw [leftDeck, rightDeck, alike.size]
  · rw [leftDeck, leftPhase, rightDeck, rightPhase, alike.board]

theorem advance (alike : Alike hidden left right) :
    Alike hidden left.advanceToNextPlayer right.advanceToNextPlayer := by
  have same := congrArg PokerGame.advanceToNextPlayer alike.shown
  simp only [PokerGame.conceal_advanceToNextPlayer] at same
  obtain ⟨leftDeck, leftPhase⟩ := left.advance_deck
  obtain ⟨rightDeck, rightPhase⟩ := right.advance_deck
  refine ⟨same, ?_, ?_⟩
  · rw [leftDeck, rightDeck, alike.size]
  · rw [leftDeck, leftPhase, rightDeck, rightPhase, alike.board]

theorem toShowdown (alike : Alike hidden left right) :
    Alike hidden { left with currentPhase := .showdown } { right with currentPhase := .showdown } := by
  refine ⟨?_, alike.size, rfl⟩
  exact congrArg (fun game : PokerGame => { game with currentPhase := .showdown }) alike.shown

theorem street (alike : Alike hidden left right) (count : Nat) (phase : GamePhase)
    (describe : List Card → String)
    (drawn : (left.deck.drop 1).take count = (right.deck.drop 1).take count)
    (later : phase.boardToCome (left.deck.drop (count + 1)) =
      phase.boardToCome (right.deck.drop (count + 1))) :
    AlikeOutcome hidden
      ((PokerGame.dealStreet { left with currentPhase := phase } count phase describe).map
        fun dealt => (true, dealt.startNewBettingRound))
      ((PokerGame.dealStreet { right with currentPhase := phase } count phase describe).map
        fun dealt => (true, dealt.startNewBettingRound)) := by
  by_cases enough : count + 1 ≤ left.deck.length
  · rw [PokerGame.dealStreet_of_enough enough,
      PokerGame.dealStreet_of_enough (alike.size ▸ enough)]
    refine .returned ?_
    obtain ⟨leftDeck, leftPhase⟩ := (left.dealtStreet count phase describe).newRound_deck
    obtain ⟨rightDeck, rightPhase⟩ := (right.dealtStreet count phase describe).newRound_deck
    refine ⟨?_, ?_, ?_⟩
    · rw [← PokerGame.conceal_startNewBettingRound, ← PokerGame.conceal_startNewBettingRound]
      have mine := left.conceal_dealtStreet hidden left.deck count phase describe rfl
      have yours := right.conceal_dealtStreet hidden left.deck count phase describe drawn
      rw [alike.conceal left.deck, yours] at mine
      have same := congrArg (PokerGame.conceal hidden []) mine
      rw [PokerGame.conceal_conceal, PokerGame.conceal_conceal] at same
      rw [same]
    · rw [leftDeck, rightDeck]
      simp only [PokerGame.dealtStreet, List.length_drop, alike.size]
    · rw [leftDeck, leftPhase, rightDeck, rightPhase]
      exact later
  · have short : ¬ count + 1 ≤ right.deck.length := alike.size ▸ enough
    rw [PokerGame.dealStreet_of_short (Nat.lt_of_not_le enough),
      PokerGame.dealStreet_of_short (Nat.lt_of_not_le short)]
    exact .raised _

theorem nextPhase (alike : Alike hidden left right) :
    AlikeOutcome hidden left.advanceToNextPhase right.advanceToNextPhase := by
  have size := alike.size
  have board := alike.board
  have complete := alike.complete
  have remaining := alike.remaining
  unfold PokerGame.advanceToNextPhase
  by_cases running : right.bettingRoundComplete = false
  · rw [if_pos (complete.trans running), if_pos running]
    exact .returned alike
  · rw [if_neg (by rwa [complete]), if_neg running]
    by_cases alone : right.remainingPlayers.length ≤ 1
    · rw [if_pos (by rwa [remaining]), if_pos alone]
      exact .returned alike.toShowdown
    · rw [if_neg (by rwa [remaining]), if_neg alone]
      unfold PokerGame.changePhase
      rw [← alike.phase] at board ⊢
      cases phase : left.currentPhase <;> rw [phase] at board <;>
        simp only [GamePhase.boardToCome] at board
      case preflop =>
        obtain ⟨flop, rest⟩ := List.append_inj board (by simp [size])
        exact alike.street 3 .flop _ flop (by simpa [GamePhase.boardToCome] using rest)
      case flop =>
        obtain ⟨turn, rest⟩ := List.append_inj board (by simp [size])
        exact alike.street 1 .turn _ turn (by simpa [GamePhase.boardToCome] using rest)
      case turn => exact alike.street 1 .river _ board rfl
      case river => exact .returned alike.toShowdown
      case showdown => exact .returned alike
      case finished => exact .returned alike

theorem showdown (alike : Alike hidden left right) (out : left.hiddenOut hidden) :
    AlikeOutcome hidden (left.perform .conductShowdown) (right.perform .conductShowdown) := by
  have outRight : right.hiddenOut hidden := by
    rw [← PokerGame.conceal_hiddenOut hidden []] at out ⊢
    rw [← alike.shown]
    exact out
  have same := congrArg PokerGame.conductShowdown alike.shown
  rw [PokerGame.conceal_conductShowdown hidden [] out,
    PokerGame.conceal_conductShowdown hidden [] outRight] at same
  unfold PokerGame.perform
  cases mine : left.conductShowdown with
  | error raised =>
      cases yours : right.conductShowdown with
      | error other =>
          rw [mine, yours] at same
          cases same
          exact .raised raised
      | ok settled =>
          rw [mine, yours] at same
          cases same
  | ok settled =>
      cases yours : right.conductShowdown with
      | error other =>
          rw [mine, yours] at same
          cases same
      | ok other =>
          rw [mine, yours] at same
          simp only [Except.map, Except.ok.injEq, Prod.mk.injEq] at same
          obtain ⟨leftDeck, leftPhase, _⟩ := PokerGame.conductShowdown_cards mine
          obtain ⟨rightDeck, rightPhase, _⟩ := PokerGame.conductShowdown_cards yours
          have kept : Alike hidden settled.1 other.1 := by
            refine ⟨same.1, ?_, ?_⟩
            · rw [leftDeck, rightDeck, alike.size]
            · rw [leftDeck, leftPhase, rightDeck, rightPhase, alike.board]
          simp only [Except.map, same.2]
          exact .returned kept

end Alike

/-! ### Opening the hand -/

def everyone : Int → Bool := fun _ => true

/-- Players who differ in their hole cards at most differ in nothing once masked, unless their
cards are shown. -/
theorem Player.mask_of_faceDown {hidden : Int → Bool} {mine yours : Player}
    (down : mine.mask everyone = yours.mask everyone)
    (cards : hidden mine.id = false → mine.holeCards = yours.holeCards) :
    mine.mask hidden = yours.mask hidden := by
  cases mine
  cases yours
  simp only [Player.mask, everyone, ↓reduceIte, Player.mk.injEq] at down cards ⊢
  obtain ⟨rfl, rfl, _, rfl, rfl, rfl, rfl, rfl, rfl⟩ := down
  refine ⟨rfl, rfl, ?_, rfl, rfl, rfl, rfl, rfl, rfl⟩
  split
  · rfl
  · rename_i shown
    exact cards (by simpa using shown)

namespace PokerGame

def withDeck (deck : List Card) (game : PokerGame) : PokerGame := { game with deck := deck }

theorem conceal_withDeck (hidden : Int → Bool) (below deck : List Card) (game : PokerGame) :
    (game.withDeck deck).conceal hidden below = game.conceal hidden below := rfl

theorem moveDealerButton_withDeck (deck : List Card) (game : PokerGame) :
    (game.withDeck deck).moveDealerButton = game.moveDealerButton.withDeck deck := by
  unfold moveDealerButton
  simp only [apply_ite (withDeck deck)]
  rfl

theorem postBlind_withDeck (deck : List Card) (game : PokerGame) (seat : Nat) (blind : Int)
    (mark : Player → Player) (name actionType : String) :
    (game.withDeck deck).postBlind seat blind mark name actionType =
      ((game.postBlind seat blind mark name actionType).1,
        (game.postBlind seat blind mark name actionType).2.withDeck deck) := by
  have samePlayers : (game.withDeck deck).players = game.players := rfl
  unfold postBlind
  rw [samePlayers]
  cases game.players[seat]? <;> rfl

theorem postBlinds_withDeck (deck : List Card) (game : PokerGame) :
    (game.withDeck deck).postBlinds = game.postBlinds.withDeck deck := by
  unfold postBlinds
  simp only [postBlind_withDeck, apply_ite (withDeck deck)]
  rfl

theorem dealRound_frame {players dealt : List Player} {deck rest : List Card}
    (returned : dealRound players deck = .ok (dealt, rest)) :
    dealt.map (Player.mask everyone) = players.map (Player.mask everyone) ∧
      rest.length + (players.countP fun player => player.status != .busted) = deck.length := by
  induction players generalizing deck dealt rest with
  | nil =>
      cases returned
      exact ⟨rfl, rfl⟩
  | cons player others ih =>
      rcases dealRound_cons returned with ⟨busted, served, round, rfl⟩ |
        ⟨alive, card, below, served, rfl, round, rfl⟩
      · obtain ⟨same, count⟩ := ih round
        refine ⟨by rw [List.map_cons, List.map_cons, same], ?_⟩
        rw [List.countP_cons_of_neg (by simp [busted])]
        exact count
      · obtain ⟨same, count⟩ := ih round
        refine ⟨by rw [List.map_cons, List.map_cons, same]; rfl, ?_⟩
        rw [List.countP_cons_of_pos (by simp [alive]), List.length_cons]
        omega

/-- Two passes of the deal, as seen with all hole cards face down. -/
theorem dealHoleCards_frame {game dealt : PokerGame} (returned : game.dealHoleCards = .ok dealt) :
    dealt.conceal everyone [] = game.conceal everyone [] ∧
      dealt.deck.length + 2 * (game.players.countP fun player => player.status != .busted) =
        game.deck.length := by
  obtain ⟨once, between, players, deck, first, second, rfl⟩ := dealHoleCards_rounds returned
  obtain ⟨sameOnce, countOnce⟩ := dealRound_frame first
  obtain ⟨sameTwice, countTwice⟩ := dealRound_frame second
  have counts := congrArg (List.countP fun player => player.status != .busted) sameOnce
  simp only [List.countP_map, Function.comp_def, Player.mask_status] at counts
  refine ⟨?_, by dsimp only; omega⟩
  unfold conceal
  rw [sameTwice, sameOnce]

/-- Whatever the shuffle, a new hand is the same but for the cards. -/
theorem startNewHand_faceDown {start left right : PokerGame} {first second : Shuffle}
    (openedLeft : start.startNewHand first = .ok left)
    (openedRight : start.startNewHand second = .ok right) :
    left.conceal everyone [] = right.conceal everyone [] ∧
      left.deck.length = right.deck.length := by
  have fresh : start.resetForHand second = (start.resetForHand first).withDeck second.cards := rfl
  have ready : (start.resetForHand second).moveDealerButton.postBlinds =
      (start.resetForHand first).moveDealerButton.postBlinds.withDeck second.cards := by
    rw [fresh, moveDealerButton_withDeck, postBlinds_withDeck]
  have decks : (start.resetForHand first).moveDealerButton.postBlinds.deck.length =
      second.cards.length := by
    have own := postBlinds_withDeck first.cards (start.resetForHand first).moveDealerButton
    rw [← moveDealerButton_withDeck] at own
    have held : (start.resetForHand first).moveDealerButton.postBlinds.deck = first.cards :=
      congrArg PokerGame.deck own
    rw [held, first.length_cards, second.length_cards]
  unfold startNewHand at openedLeft openedRight
  by_cases few : (start.resetForHand first).survivorSeats.length < 2
  · have fewRight : (start.resetForHand second).survivorSeats.length < 2 := few
    simp only [if_pos few, Except.ok.injEq] at openedLeft
    simp only [if_pos fewRight, Except.ok.injEq] at openedRight
    subst openedLeft openedRight
    refine ⟨rfl, ?_⟩
    exact first.length_cards.trans second.length_cards.symm
  · have fewRight : ¬ (start.resetForHand second).survivorSeats.length < 2 := few
    simp only [if_neg few] at openedLeft
    simp only [if_neg fewRight, ready] at openedRight
    cases dealtLeft : (start.resetForHand first).moveDealerButton.postBlinds.dealHoleCards with
    | error raised =>
        rw [dealtLeft] at openedLeft
        cases openedLeft
    | ok mine =>
        cases dealtRight :
            ((start.resetForHand first).moveDealerButton.postBlinds.withDeck
              second.cards).dealHoleCards with
        | error raised =>
            rw [dealtRight] at openedRight
            cases openedRight
        | ok yours =>
            rw [dealtLeft] at openedLeft
            rw [dealtRight] at openedRight
            cases openedLeft
            cases openedRight
            obtain ⟨shownLeft, sizeLeft⟩ := dealHoleCards_frame dealtLeft
            obtain ⟨shownRight, sizeRight⟩ := dealHoleCards_frame dealtRight
            refine ⟨?_, ?_⟩
            · rw [← conceal_recordHand, ← conceal_recordHand, ← conceal_setFirstActorPreflop,
                ← conceal_setFirstActorPreflop, shownLeft, shownRight, conceal_withDeck]
            · rw [(openTurn_cards _).2.1, (openTurn_cards _).2.1]
              simp only [withDeck] at sizeRight
              omega

end PokerGame

/-- Hands opened from one table are alike when the shuffles treat everybody but the hidden
players, and the board, the same. -/
theorem alike_of_deal {hidden : Int → Bool} {start left right : PokerGame}
    {first second : Shuffle} (openedLeft : start.startNewHand first = .ok left)
    (openedRight : start.startNewHand second = .ok right)
    (hands : ∀ (seat : Nat) (mine yours : Player), left.players[seat]? = some mine →
      right.players[seat]? = some yours → hidden mine.id = false → mine.holeCards = yours.holeCards)
    (board : left.currentPhase.boardToCome left.deck = right.currentPhase.boardToCome right.deck) :
    Alike hidden left right := by
  obtain ⟨down, size⟩ := PokerGame.startNewHand_faceDown openedLeft openedRight
  refine ⟨?_, size, board⟩
  have players : left.players.map (Player.mask hidden) = right.players.map (Player.mask hidden) := by
    apply List.ext_getElem?
    intro seat
    have same := congrArg (fun game : PokerGame => game.players[seat]?) down
    simp only [PokerGame.conceal_getElem?] at same
    rw [List.getElem?_map, List.getElem?_map]
    cases mine : left.players[seat]? with
    | none =>
        rw [mine] at same
        cases yours : right.players[seat]? with
        | none => rfl
        | some other =>
            rw [yours] at same
            cases same
    | some player =>
        rw [mine] at same
        cases yours : right.players[seat]? with
        | none =>
            rw [yours] at same
            cases same
        | some other =>
            rw [yours] at same
            simp only [Option.map_some, Option.some.injEq] at same ⊢
            exact Player.mask_of_faceDown same (hands seat player other mine yours)
  have rest := congrArg (fun game : PokerGame =>
    { game with players := left.players.map (Player.mask hidden) }) down
  unfold PokerGame.conceal at rest ⊢
  rw [← players]
  exact rest

/-! ### Two runs of a hand -/

/-- The call is no showdown, or the player is out of the hand by then. -/
def outAtShowdown (playerId : Int) (game : PokerGame) : Call → Bool
  | .conductShowdown =>
      game.players.all fun player => player.id != playerId || !player.status.remains
  | _ => true

theorem hiddenOut_of_outAtShowdown {playerId : Int} {game : PokerGame}
    (out : outAtShowdown playerId game .conductShowdown = true) :
    game.hiddenOut (· == playerId) := by
  intro player member same
  have either := List.all_eq_true.mp out player member
  simp only [beq_iff_eq] at same
  simpa [same] using either

/-- A call of the hand returns the same from games that are alike and keeps them alike. -/
theorem Alike.perform {playerId : Int} {left right : PokerGame} {call : Call}
    (alike : Alike (· == playerId) left right)
    (sameHand : ∀ shuffle, call ≠ .startNewHand shuffle)
    (out : outAtShowdown playerId left call = true) :
    AlikeOutcome (· == playerId) (left.perform call) (right.perform call) := by
  cases call with
  | startNewHand shuffle => exact absurd rfl (sameHand shuffle)
  | processPlayerAction actor action amount =>
      obtain ⟨results, kept⟩ := alike.process actor action amount
      unfold PokerGame.perform
      dsimp only
      rw [results]
      exact .returned kept
  | advanceToNextPlayer => exact .returned alike.advance
  | advanceToNextPhase => exact alike.nextPhase.map CallResult.accepted
  | conductShowdown => exact alike.showdown (hiddenOut_of_outAtShowdown out)

/-- A whole sequence of calls returns the same from games that are alike. -/
theorem Alike.performAll {playerId : Int} {left right : PokerGame} {calls : List Call}
    (alike : Alike (· == playerId) left right)
    (oneHand : ∀ call ∈ calls, ∀ shuffle, call ≠ .startNewHand shuffle)
    (out : Runs.meets PokerGame.callStep (outAtShowdown playerId) left calls = true) :
    AlikeOutcome (· == playerId) (left.performAll calls) (right.performAll calls) := by
  induction calls generalizing left right with
  | nil => exact .returned alike
  | cons call rest ih =>
      simp only [Runs.meets, PokerGame.callStep, Bool.and_eq_true] at out
      obtain ⟨here, later⟩ := out
      have outcome := alike.perform (oneHand call (by simp)) here
      unfold PokerGame.performAll
      generalize left.perform call = mine at outcome later
      generalize right.perform call = yours at outcome
      cases outcome with
      | raised error => exact .raised error
      | returned kept =>
          have remaining := ih kept
            (fun other member => oneHand other (List.mem_cons_of_mem _ member)) later
          dsimp only
          generalize PokerGame.performAll _ rest = mine at remaining
          generalize PokerGame.performAll _ rest = yours at remaining
          cases remaining with
          | raised error => exact .raised error
          | returned final => exact .returned final

/-- Two runs that nobody but one player can tell apart: the same values returned, and in the
states reached the same views for everyone else, the same chips and the same history rows. -/
def Indistinguishable (playerId : Int) :
    Except PyError (List CallResult × PokerGame) →
      Except PyError (List CallResult × PokerGame) → Prop
  | .ok mine, .ok yours =>
      mine.1 = yours.1 ∧
        (∀ viewer, viewer ≠ playerId →
          mine.2.getLlmGameState viewer = yours.2.getLlmGameState viewer) ∧
        mine.2.players.map Player.chips = yours.2.players.map Player.chips ∧
        mine.2.db = yours.2.db
  | .error mine, .error yours => mine = yours
  | _, _ => False

theorem AlikeOutcome.indistinguishable {playerId : Int}
    {mine yours : Except PyError (List CallResult × PokerGame)}
    (outcome : AlikeOutcome (· == playerId) mine yours) : Indistinguishable playerId mine yours := by
  cases outcome with
  | raised error => rfl
  | returned alike =>
      refine ⟨rfl, ?_, ?_, ?_⟩
      · intro viewer other
        have shown : (viewer == playerId) = false := by simpa using other
        have same := congrArg (fun game => game.getLlmGameState viewer) alike.shown
        rwa [PokerGame.conceal_getLlmGameState (· == playerId) [] _ shown,
          PokerGame.conceal_getLlmGameState (· == playerId) [] _ shown] at same
      · have same := congrArg (fun game => game.players.map Player.chips) alike.shown
        simpa [PokerGame.conceal, Function.comp_def] using same
      · have same := congrArg PokerGame.db alike.shown
        exact same

/-- Two runs of a hand from one table, with the same calls, whose shuffles differ only in the
hole cards of a player who is out before every showdown, are told apart by nobody else at
any step. -/
theorem folded_hole_cards_stay_private (start left right : PokerGame) (first second : Shuffle)
    (playerId : Int) (calls : List Call) (openedLeft : start.startNewHand first = .ok left)
    (openedRight : start.startNewHand second = .ok right)
    (hands : ∀ (seat : Nat) (mine yours : Player), left.players[seat]? = some mine →
      right.players[seat]? = some yours → mine.id ≠ playerId → mine.holeCards = yours.holeCards)
    (board : left.currentPhase.boardToCome left.deck = right.currentPhase.boardToCome right.deck)
    (oneHand : ∀ call ∈ calls, ∀ shuffle, call ≠ .startNewHand shuffle)
    (out : Runs.meets PokerGame.callStep (outAtShowdown playerId) left calls = true) (count : Nat) :
    Indistinguishable playerId (left.performAll (calls.take count))
      (right.performAll (calls.take count)) := by
  have alike : Alike (· == playerId) left right := by
    refine alike_of_deal openedLeft openedRight ?_ board
    intro seat mine yours here there shown
    exact hands seat mine yours here there (by simpa using shown)
  have outcome := alike.performAll
    (fun call member => oneHand call (List.mem_of_mem_take member)) (Runs.meets_take out count)
  exact outcome.indistinguishable

def threeSeats : Table where
  smallBlind := 10
  bigBlind := 20
  chips := [100, 100, 100]
  button := 0
  seats_ge := by decide
  seats_le := by decide
  chips_pos := by decide
  button_lt := by decide

/-- The unshuffled deck with the first card of seat 1 exchanged for one that is never dealt. -/
def redealt : Shuffle where
  cards := (Deck.standard.set 1 Deck.standard[20]).set 20 Deck.standard[1]
  permuted := by decide

def dealerFolds : List Call :=
  [.processPlayerAction 1 .fold 0, .processPlayerAction 2 .call 0, .processPlayerAction 0 .check 0,
    .advanceToNextPhase, .processPlayerAction 2 .check 0, .processPlayerAction 0 .check 0,
    .advanceToNextPhase, .processPlayerAction 2 .check 0, .processPlayerAction 0 .check 0,
    .advanceToNextPhase, .processPlayerAction 2 .check 0, .processPlayerAction 0 .check 0,
    .advanceToNextPhase, .conductShowdown]

theorem folded_hole_cards_stay_private_three_handed :
    ∃ left right, threeSeats.game.startNewHand .unshuffled = .ok left ∧
      threeSeats.game.startNewHand redealt = .ok right ∧
      left.players.map Player.holeCards ≠ right.players.map Player.holeCards ∧
      ∀ count, Indistinguishable 1 (left.performAll (dealerFolds.take count))
        (right.performAll (dealerFolds.take count)) := by
  have opened : ∃ left right, threeSeats.game.startNewHand .unshuffled = .ok left ∧
      threeSeats.game.startNewHand redealt = .ok right ∧
      left.players.map Player.holeCards ≠ right.players.map Player.holeCards ∧
      (left.players.zip right.players).all
        (fun pair => pair.1.id == 1 || pair.1.holeCards == pair.2.holeCards) = true ∧
      left.currentPhase.boardToCome left.deck = right.currentPhase.boardToCome right.deck ∧
      Runs.meets PokerGame.callStep (outAtShowdown 1) left dealerFolds = true :=
    ⟨_, _, rfl, rfl, by decide, rfl, rfl, rfl⟩
  obtain ⟨left, right, openedLeft, openedRight, differ, hands, board, out⟩ := opened
  refine ⟨left, right, openedLeft, openedRight, differ, ?_⟩
  refine folded_hole_cards_stay_private threeSeats.game left right .unshuffled redealt 1 dealerFolds
    openedLeft openedRight ?_ board ?_ out
  · intro seat mine yours here there other
    have member : (mine, yours) ∈ left.players.zip right.players := by
      apply List.mem_of_getElem? (i := seat)
      rw [List.getElem?_zip_eq_some]
      exact ⟨here, there⟩
    have either := List.all_eq_true.mp hands _ member
    simpa [other] using either
  · intro call member shuffle same
    subst same
    simp [dealerFolds] at member

end Holdem
