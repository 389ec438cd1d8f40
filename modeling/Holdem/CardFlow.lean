import Holdem.ChipConservation

set_option autoImplicit false

namespace Holdem

/-- A table before its first hand: two to ten players added under any ids with any stacks,
and the deck the constructor shuffled. -/
structure Roster where
  smallBlind : Int
  bigBlind : Int
  seats : List (Int × Int)
  button : Nat
  deck : Shuffle
  seats_ge : 2 ≤ seats.length
  seats_le : seats.length ≤ 10

def Roster.game (roster : Roster) : PokerGame :=
  { smallBlind := roster.smallBlind
    bigBlind := roster.bigBlind
    players := roster.seats.map fun seat => { id := seat.1, chips := seat.2 }
    dealerButton := roster.button
    deck := roster.deck.cards }

def Call.startsHand : Call → Bool
  | .startNewHand _ => true
  | _ => false

namespace PokerGame

/-- The table after a call, in whatever order calls come. A call that raises leaves the table
as it was: only `conduct_showdown` can raise, and it does so before it writes anything. -/
def afterCall (game : PokerGame) (call : Call) : PokerGame :=
  match game.perform call with
  | .error _ => game
  | .ok (_, next) => next

/-- The table after a sequence of calls. -/
def afterCalls (game : PokerGame) (calls : List Call) : PokerGame :=
  calls.foldl afterCall game

theorem afterCalls_append (game : PokerGame) (first second : List Call) :
    game.afterCalls (first ++ second) = (game.afterCalls first).afterCalls second :=
  List.foldl_append ..

theorem afterCall_newHand {game next : PokerGame} {shuffle : Shuffle}
    (returned : game.startNewHand shuffle = .ok next) :
    game.afterCall (.startNewHand shuffle) = next := by
  simp only [afterCall, perform, returned, Except.map]

/-- Every card that is somewhere: held, on the board, or in the deck. -/
def cardsInPlay (game : PokerGame) : List Card :=
  game.players.flatMap Player.holeCards ++ game.communityCards ++ game.deck

/-- Everyone still at the table holds two cards, and the others none. -/
def HandsDealt (game : PokerGame) : Prop :=
  ∀ player ∈ game.players,
    player.holeCards.length = if player.status = .busted then 0 else 2

end PokerGame

def Player.holding (player : Player) : List Card × Bool :=
  (player.holeCards, player.status == .busted)

def Player.handSize (player : Player) : PlayerStatus × Nat :=
  (player.status, player.holeCards.length)

/-- What one round of dealing does to a hand's size. -/
def oneCardMore (size : PlayerStatus × Nat) : PlayerStatus × Nat :=
  (size.1, size.2 + if size.1 = .busted then 0 else 1)

namespace PokerGame

/-! ### Opening a hand -/

/-- A round of dealing moves cards from the deck into the hands and loses none. -/
theorem dealRound_deals {players dealt : List Player} {deck rest : List Card}
    (returned : dealRound players deck = .ok (dealt, rest)) :
    (dealt.flatMap Player.holeCards ++ rest).Perm (players.flatMap Player.holeCards ++ deck) ∧
      dealt.map Player.handSize = (players.map Player.handSize).map oneCardMore := by
  induction players generalizing deck dealt rest with
  | nil =>
      cases returned
      exact ⟨List.Perm.refl _, rfl⟩
  | cons player others ih =>
      rcases dealRound_cons returned with ⟨busted, served, round, rfl⟩ |
        ⟨alive, card, below, served, rfl, round, rfl⟩
      · obtain ⟨moved, sizes⟩ := ih round
        constructor
        · simp only [List.flatMap_cons, List.append_assoc]
          exact moved.append_left _
        · simp only [List.map_cons, sizes]
          congr 1
          simp [Player.handSize, oneCardMore, busted]
      · obtain ⟨moved, sizes⟩ := ih round
        constructor
        · simp only [List.flatMap_cons, List.append_assoc, List.singleton_append]
          apply List.Perm.append_left
          exact (moved.cons card).trans List.perm_middle.symm
        · simp only [List.map_cons, sizes]
          congr 1
          simp [Player.handSize, oneCardMore, alive]

theorem postBlind_cards (game : PokerGame) (seat : Nat) (blind : Int) (mark : Player → Player)
    (name actionType : String) (keeps : ∀ player, (mark player).holeCards = player.holeCards) :
    (game.postBlind seat blind mark name actionType).2.players.map Player.holeCards =
        game.players.map Player.holeCards ∧
      (game.postBlind seat blind mark name actionType).2.deck = game.deck ∧
      (game.postBlind seat blind mark name actionType).2.communityCards =
        game.communityCards := by
  unfold postBlind
  split
  · exact ⟨rfl, rfl, rfl⟩
  · rename_i player here
    refine ⟨?_, rfl, rfl⟩
    apply map_set_of_eq here
    rw [Player.bet_holeCards, keeps]

theorem postBlinds_cards (game : PokerGame) :
    game.postBlinds.players.map Player.holeCards = game.players.map Player.holeCards ∧
      game.postBlinds.deck = game.deck ∧
      game.postBlinds.communityCards = game.communityCards := by
  unfold postBlinds
  split
  · exact ⟨rfl, rfl, rfl⟩
  · let small := game.postBlind game.blindSeats.1 game.smallBlind
      (fun player => { player with isSmallBlind := true }) "small blind" "small_blind"
    obtain ⟨cards, deck, board⟩ : _ ∧ _ ∧ _ := game.postBlind_cards game.blindSeats.1
      game.smallBlind (fun player => { player with isSmallBlind := true }) "small blind"
      "small_blind" fun _ => rfl
    obtain ⟨cardsToo, deckToo, boardToo⟩ := small.2.postBlind_cards game.blindSeats.2
      game.bigBlind (fun player => { player with isBigBlind := true }) "big blind"
      "big_blind" fun _ => rfl
    exact ⟨cardsToo.trans cards, deckToo.trans deck, boardToo.trans board⟩

theorem moveDealerButton_cards (game : PokerGame) :
    game.moveDealerButton.players.map Player.holeCards = game.players.map Player.holeCards ∧
      game.moveDealerButton.deck = game.deck ∧
      game.moveDealerButton.communityCards = game.communityCards := by
  unfold moveDealerButton
  dsimp only
  split
  · exact ⟨rfl, rfl, rfl⟩
  · refine ⟨?_, rfl, rfl⟩
    apply List.ext_getElem?
    intro seat
    simp only [List.getElem?_map, List.getElem?_mapIdx, Option.map_map]
    rfl

theorem flatMap_holeCards (players : List Player) :
    players.flatMap Player.holeCards = (players.map Player.holeCards).flatten := by
  rw [List.flatMap_def]

/-- Dealing to players without cards: everything dealt comes from the deck, two cards to
each player still in. -/
theorem dealHoleCards_deals {game dealt : PokerGame} (returned : game.dealHoleCards = .ok dealt)
    (empty : ∀ player ∈ game.players, player.holeCards = []) :
    (dealt.players.flatMap Player.holeCards ++ dealt.deck).Perm game.deck ∧
      dealt.communityCards = game.communityCards ∧ dealt.HandsDealt := by
  obtain ⟨once, between, players, deck, first, second, rfl⟩ := dealHoleCards_rounds returned
  obtain ⟨movedOnce, sizesOnce⟩ := dealRound_deals first
  obtain ⟨movedTwice, sizesTwice⟩ := dealRound_deals second
  have nothing : game.players.flatMap Player.holeCards = [] :=
    List.flatMap_eq_nil_iff.mpr empty
  refine ⟨?_, rfl, ?_⟩
  · rw [nothing, List.nil_append] at movedOnce
    exact movedTwice.trans movedOnce
  · intro player member
    have sized : player.handSize ∈ players.map Player.handSize := List.mem_map_of_mem member
    rw [sizesTwice, sizesOnce] at sized
    simp only [List.map_map, List.mem_map, Function.comp_apply] at sized
    obtain ⟨before, seated, same⟩ := sized
    simp only [Player.handSize, oneCardMore, empty before seated, List.length_nil,
      Prod.mk.injEq] at same
    obtain ⟨status, length⟩ := same
    rw [← length, ← status]
    split <;> rfl

/-- However a hand begins, the cards are the 52 of the deck; if it is played, everyone who
is not `BUSTED` has two of them. -/
theorem startNewHand_cards {game next : PokerGame} {shuffle : Shuffle}
    (returned : game.startNewHand shuffle = .ok next) :
    next.cardsInPlay.Perm Deck.standard ∧ next.communityCards = [] ∧
      (next.currentPhase ≠ .finished → next.HandsDealt) := by
  have fresh : (game.resetForHand shuffle).players.map Player.holeCards =
      game.players.map fun _ => [] := by
    simp only [resetForHand, List.map_map]
    rfl
  unfold startNewHand at returned
  dsimp only at returned
  split at returned
  · cases returned
    refine ⟨?_, rfl, fun played => absurd rfl played⟩
    change ((game.resetForHand shuffle).players.flatMap Player.holeCards ++ [] ++
      shuffle.cards).Perm _
    rw [flatMap_holeCards, fresh]
    simpa using shuffle.permuted
  · split at returned
    · cases returned
    · rename_i dealt served
      cases returned
      have empty : ∀ player ∈
          (game.resetForHand shuffle).moveDealerButton.postBlinds.players,
          player.holeCards = [] := by
        intro player member
        have held : player.holeCards ∈
            (game.resetForHand shuffle).moveDealerButton.postBlinds.players.map Player.holeCards :=
          List.mem_map_of_mem member
        rw [(postBlinds_cards _).1, (moveDealerButton_cards _).1, fresh] at held
        obtain ⟨_, _, none⟩ := List.mem_map.mp held
        exact none.symm
      obtain ⟨moved, board, sizes⟩ := dealHoleCards_deals served empty
      obtain ⟨players, deck, shown⟩ := openTurn_cards dealt
      have none : dealt.communityCards = [] := by
        rw [board, (postBlinds_cards _).2.2, (moveDealerButton_cards _).2.2]
        rfl
      refine ⟨?_, shown.trans none, fun _ => ?_⟩
      · unfold cardsInPlay
        rw [players, deck, shown, none, List.append_nil]
        refine moved.trans ?_
        rw [(postBlinds_cards _).2.1, (moveDealerButton_cards _).2.1]
        exact shuffle.permuted
      · unfold HandsDealt
        rw [players]
        exact sizes

/-! ### Every other call -/

theorem performAction_notBusted {game : PokerGame} {player : Player} {playerId amount : Int}
    {action : Action} {done : Performed} (active : player.status = .active)
    (performed : game.performAction player playerId action amount = some done) :
    done.player.status ≠ .busted := by
  rcases performAction_player performed with ⟨_, same, _⟩ | ⟨same, _⟩ | ⟨stake, same, _⟩ | ⟨same, _⟩
  · rw [same]
    exact nofun
  · rw [same, active]
    exact nofun
  · rw [same]
    rcases bet_stays active stake with stays | shoved
    · rw [stays]
      exact nofun
    · rw [shoved]
      exact nofun
  · rw [same]
    exact nofun

theorem remaining_eq_countP (game : PokerGame) :
    game.remainingPlayers.length = game.players.countP fun player => player.status.remains := by
  rw [remainingPlayers, List.countP_eq_length_filter]

end PokerGame

/-- What a call other than `start_new_hand` may do to the cards and the phase: leave them,
go to the showdown, or deal one street. -/
structure Continues (game next : PokerGame) : Prop where
  holdings : next.players.map Player.holding = game.players.map Player.holding
  remaining : next.remainingPlayers.length ≤ game.remainingPlayers.length
  moved :
    (next.currentPhase = game.currentPhase ∧ next.communityCards = game.communityCards ∧
        next.deck = game.deck) ∨
      (next.currentPhase = .showdown ∧
        (game.remainingPlayers.length ≤ 1 ∨ game.currentPhase = .river) ∧
        next.communityCards = game.communityCards ∧ next.deck = game.deck) ∨
      ∃ count, game.currentPhase.street = some (next.currentPhase, count) ∧
        next.communityCards = game.communityCards ++ (game.deck.drop 1).take count ∧
        next.deck = game.deck.drop (count + 1)

namespace Continues

theorem refl (game : PokerGame) : Continues game game :=
  ⟨rfl, Nat.le_refl _, Or.inl ⟨rfl, rfl, rfl⟩⟩

theorem process (game : PokerGame) (playerId : Int) (action : Action) (amount : Int) :
    Continues game (game.processPlayerAction playerId action amount).2 := by
  rcases game.processPlayerAction_cases playerId action amount with rejected |
    ⟨seat, player, done, here, _, _, active, _, performed, written, accepted⟩
  · rw [rejected]
    exact refl game
  · rw [accepted]
    obtain ⟨turn, complete, frame⟩ :=
      (game.commitAction done playerId action amount).advance_check_frame
    rw [frame]
    refine ⟨?_, ?_, Or.inl ⟨rfl, rfl, rfl⟩⟩
    · rw [written]
      apply PokerGame.map_set_of_eq here
      have stays := PokerGame.performAction_notBusted active performed
      simp [Player.holding, (PokerGame.performAction_keeps performed).2.1, active, stays]
    · rw [PokerGame.remaining_eq_countP, PokerGame.remaining_eq_countP, written]
      obtain ⟨inside, equal⟩ := List.getElem?_eq_some_iff.mp here
      have counted : 0 < game.players.countP fun player => player.status.remains :=
        List.countP_pos_iff.mpr ⟨player, List.mem_of_getElem? here, by rw [active]; rfl⟩
      rw [List.countP_set inside, equal, if_pos (by rw [active]; rfl)]
      split <;> omega

theorem advance (game : PokerGame) : Continues game game.advanceToNextPlayer := by
  unfold PokerGame.advanceToNextPlayer
  dsimp only
  split <;> exact ⟨rfl, Nat.le_refl _, Or.inl ⟨rfl, rfl, rfl⟩⟩

theorem nextPhase {game : PokerGame}
    (served : game.currentPhase.cardsNeeded ≤ game.deck.length) :
    ∃ moved next, game.advanceToNextPhase = .ok (moved, next) ∧ Continues game next := by
  rcases PokerGame.advanceToNextPhase_cases served with ⟨refused, _⟩ |
    ⟨_, why, shown⟩ | ⟨_, _, phase, count, describe, street, _, _, _, _, opened⟩
  · exact ⟨_, _, refused, refl game⟩
  · exact ⟨_, _, shown, rfl, Nat.le_refl _, Or.inr (Or.inl ⟨rfl, why, rfl, rfl⟩)⟩
  · refine ⟨_, _, opened, ?_⟩
    obtain ⟨turn, complete, frame, _⟩ :=
      (game.dealtStreet count phase describe).startNewBettingRound_spec
    rw [frame]
    refine ⟨?_, ?_, Or.inr (Or.inr ⟨count, street, rfl, rfl⟩)⟩
    · simp only [List.map_map]
      rfl
    · rw [PokerGame.remaining_eq_countP, PokerGame.remaining_eq_countP, List.countP_map]
      exact Nat.le_refl _

theorem showdown {game next : PokerGame} {result : ShowdownResult}
    (returned : game.conductShowdown = .ok (next, result)) : Continues game next := by
  have statuses : next.players.map (fun player => player.status.remains) =
      game.players.map fun player => player.status.remains :=
    PokerGame.conductShowdown_map (fun _ _ => rfl) returned
  have holdings : next.players.map Player.holding = game.players.map Player.holding :=
    PokerGame.conductShowdown_map (fun _ _ => rfl) returned
  obtain ⟨deck, phase, board⟩ := PokerGame.conductShowdown_cards returned
  refine ⟨holdings, ?_, Or.inl ⟨phase, board, deck⟩⟩
  have counts := congrArg (List.countP id) statuses
  rw [List.countP_map, List.countP_map] at counts
  rw [PokerGame.remaining_eq_countP, PokerGame.remaining_eq_countP]
  exact Nat.le_of_eq counts

theorem call {game : PokerGame} (served : game.currentPhase.cardsNeeded ≤ game.deck.length)
    {call : Call} (continues : call.startsHand = false) :
    Continues game (game.afterCall call) := by
  cases call with
  | startNewHand shuffle => cases continues
  | processPlayerAction playerId action amount => exact process game playerId action amount
  | advanceToNextPlayer => exact advance game
  | advanceToNextPhase =>
      obtain ⟨moved, next, returned, kept⟩ := nextPhase served
      simp only [PokerGame.afterCall, PokerGame.perform, returned, Except.map]
      exact kept
  | conductShowdown =>
      cases returned : game.conductShowdown with
      | error raised =>
          simp only [PokerGame.afterCall, PokerGame.perform, returned, Except.map]
          exact refl game
      | ok settled =>
          simp only [PokerGame.afterCall, PokerGame.perform, returned, Except.map]
          exact showdown returned

end Continues

/-! ### No card twice -/

/-- What any order of calls keeps: no card is in two places, and the deck can serve the
streets left. -/
structure CardsApart (game : PokerGame) : Prop where
  few : game.players.length ≤ 10
  served : game.currentPhase.cardsNeeded ≤ game.deck.length
  apart : game.cardsInPlay.Nodup

theorem Deck.standard_nodup : Deck.standard.Nodup := by decide

namespace Continues

variable {game next : PokerGame}

theorem length (continues : Continues game next) :
    next.players.length = game.players.length := by
  simpa using congrArg List.length continues.holdings

theorem served (continues : Continues game next)
    (served : game.currentPhase.cardsNeeded ≤ game.deck.length) :
    next.currentPhase.cardsNeeded ≤ next.deck.length := by
  rcases continues.moved with ⟨phase, _, deck⟩ | ⟨phase, _, _, deck⟩ | ⟨count, street, _, deck⟩
  · rw [phase, deck]
    exact served
  · rw [phase]
    exact Nat.zero_le _
  · have needs := GamePhase.cardsNeeded_street street
    rw [deck, List.length_drop]
    omega

/-- Cards only move down the list of places, and burnt cards leave it. -/
theorem cards (continues : Continues game next) :
    next.cardsInPlay.Sublist game.cardsInPlay := by
  have held : next.players.flatMap Player.holeCards = game.players.flatMap Player.holeCards := by
    have same := congrArg (List.map Prod.fst) continues.holdings
    rw [List.map_map, List.map_map] at same
    rw [PokerGame.flatMap_holeCards, PokerGame.flatMap_holeCards]
    exact congrArg List.flatten same
  unfold PokerGame.cardsInPlay
  rw [held, List.append_assoc, List.append_assoc]
  apply List.Sublist.append_left
  rcases continues.moved with ⟨_, board, deck⟩ | ⟨_, _, board, deck⟩ | ⟨count, _, board, deck⟩
  · rw [board, deck]
  · rw [board, deck]
  · rw [board, deck, List.append_assoc]
    apply List.Sublist.append_left
    have split : (game.deck.drop 1).take count ++ game.deck.drop (count + 1) =
        game.deck.drop 1 := by
      rw [Nat.add_comm, ← List.drop_drop]
      exact List.take_append_drop count _
    rw [split]
    exact List.drop_sublist 1 _

theorem hands (continues : Continues game next) (dealt : game.HandsDealt) : next.HandsDealt := by
  intro player member
  have same : player.holding ∈ next.players.map Player.holding := List.mem_map_of_mem member
  rw [continues.holdings] at same
  obtain ⟨before, seated, equal⟩ := List.mem_map.mp same
  simp only [Player.holding, Prod.mk.injEq] at equal
  obtain ⟨cards, busted⟩ := equal
  rw [Bool.eq_iff_iff, beq_iff_eq, beq_iff_eq] at busted
  rw [← cards, dealt before seated]
  simp only [busted]

end Continues

namespace CardsApart

variable {game : PokerGame}

theorem initial (roster : Roster) : CardsApart roster.game := by
  refine ⟨?_, ?_, ?_⟩
  · simpa [Roster.game] using roster.seats_le
  · have full := roster.deck.length_cards
    change 8 ≤ roster.deck.cards.length
    omega
  · have none : roster.game.players.flatMap Player.holeCards = [] := by
      apply List.flatMap_eq_nil_iff.mpr
      intro player member
      obtain ⟨seat, _, rfl⟩ := List.mem_map.mp member
      rfl
    unfold PokerGame.cardsInPlay
    rw [none]
    exact roster.deck.permuted.nodup_iff.mpr Deck.standard_nodup

theorem newHand {next : PokerGame} {shuffle : Shuffle} (few : game.players.length ≤ 10)
    (returned : game.startNewHand shuffle = .ok next) : CardsApart next := by
  have cards := (PokerGame.startNewHand_cards returned).1
  have apart : next.cardsInPlay.Nodup := cards.nodup_iff.mpr Deck.standard_nodup
  rcases game.startNewHand_spec shuffle few with ⟨_, finished⟩ | ⟨button, opened, same, hand⟩
  · rw [returned] at finished
    cases finished
    exact ⟨by simpa [PokerGame.resetForHand] using few, Nat.zero_le _, apart⟩
  · rw [returned] at same
    cases same
    have deck := hand.deck
    refine ⟨hand.length ▸ few, ?_, apart⟩
    rw [hand.phase]
    exact Nat.le_trans (by decide) deck

theorem follow {next : PokerGame} (cards : CardsApart game) (continues : Continues game next) :
    CardsApart next :=
  ⟨continues.length ▸ cards.few, continues.served cards.served, cards.apart.sublist continues.cards⟩

theorem call (cards : CardsApart game) (call : Call) : CardsApart (game.afterCall call) := by
  by_cases starts : call.startsHand = true
  · cases call <;> cases starts
    rename_i shuffle
    obtain ⟨next, returned⟩ := game.startNewHand_returns shuffle cards.few
    rw [PokerGame.afterCall_newHand returned]
    exact newHand cards.few returned
  · exact cards.follow (Continues.call cards.served (by simpa using starts))

theorem calls (cards : CardsApart game) (calls : List Call) :
    CardsApart (game.afterCalls calls) := by
  induction calls generalizing game with
  | nil => exact cards
  | cons first rest ih => exact ih (cards.call first)

theorem hands (cards : CardsApart game) (dealt : game.HandsDealt) {calls : List Call}
    (continues : ∀ call ∈ calls, call.startsHand = false) :
    (game.afterCalls calls).HandsDealt := by
  induction calls generalizing game with
  | nil => exact dealt
  | cons first rest ih =>
      have here := Continues.call cards.served (continues first (by simp))
      exact ih (cards.call first) (here.hands dealt)
        fun call member => continues call (List.mem_cons_of_mem _ member)

end CardsApart

/-- Through any sequence of calls no card is in two places and dealing never raises, and from
each hand that is played until the next one everyone not `BUSTED` holds two cards and everyone
`BUSTED` none. -/
theorem cards_dealt_once (roster : Roster) (calls : List Call) :
    let game := roster.game.afterCalls calls
    game.cardsInPlay.Nodup ∧
      (∀ shuffle, ∃ next, game.startNewHand shuffle = .ok next) ∧
      (∃ moved next, game.advanceToNextPhase = .ok (moved, next)) ∧
      ∀ earlier shuffle later, calls = earlier ++ .startNewHand shuffle :: later →
        (∀ call ∈ later, call.startsHand = false) →
        (roster.game.afterCalls (earlier ++ [.startNewHand shuffle])).currentPhase ≠ .finished →
        game.HandsDealt := by
  intro game
  have cards : CardsApart game := (CardsApart.initial roster).calls calls
  refine ⟨cards.apart, fun shuffle => game.startNewHand_returns shuffle cards.few, ?_, ?_⟩
  · obtain ⟨moved, next, returned, _⟩ := Continues.nextPhase cards.served
    exact ⟨moved, next, returned⟩
  · intro earlier shuffle later split continues played
    have before := (CardsApart.initial roster).calls earlier
    obtain ⟨opened, returned⟩ :=
      (roster.game.afterCalls earlier).startNewHand_returns shuffle before.few
    have reached : roster.game.afterCalls (earlier ++ [.startNewHand shuffle]) = opened := by
      rw [PokerGame.afterCalls_append]
      exact PokerGame.afterCall_newHand returned
    rw [reached] at played
    have dealt := (PokerGame.startNewHand_cards returned).2.2 played
    have kept := (CardsApart.newHand before.few returned).hands dealt continues
    rw [← reached, ← PokerGame.afterCalls_append] at kept
    simp only [game, split]
    simpa using kept

/-- Two players whose ids are not their seats. -/
def twoSeats : Roster where
  smallBlind := 5
  bigBlind := 10
  seats := [(4, 100), (0, 60)]
  button := 0
  deck := .unshuffled
  seats_ge := by decide
  seats_le := by decide

theorem cards_dealt_once_two :
    (twoSeats.game.afterCalls [.startNewHand .unshuffled, .conductShowdown]).HandsDealt :=
  (cards_dealt_once twoSeats [.startNewHand .unshuffled, .conductShowdown]).2.2.2
    [] .unshuffled [.conductShowdown] rfl (by decide) (by decide)

end Holdem
