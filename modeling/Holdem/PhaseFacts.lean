import Holdem.BettingFacts

set_option autoImplicit false

namespace Holdem

/-- The cards still to leave the deck, burns included, from a phase on. -/
def GamePhase.cardsNeeded : GamePhase → Nat
  | .preflop => 8
  | .flop => 4
  | .turn => 2
  | _ => 0

/-- The street dealt next, and how many cards of it are shown. -/
def GamePhase.street : GamePhase → Option (GamePhase × Nat)
  | .preflop => some (.flop, 3)
  | .flop => some (.turn, 1)
  | .turn => some (.river, 1)
  | _ => none

/-- A street needs its own cards, a burn, and those of the streets after it. -/
theorem GamePhase.cardsNeeded_street {phase next : GamePhase} {count : Nat}
    (street : phase.street = some (next, count)) :
    next.cardsNeeded + (count + 1) = phase.cardsNeeded := by
  cases phase <;> cases street <;> rfl

namespace PokerGame

theorem drawCards_of_enough {count : Nat} {deck : List Card} (enough : count ≤ deck.length) :
    drawCards count deck = .ok (deck.take count, deck.drop count) := by
  induction count generalizing deck with
  | zero => rfl
  | succ count ih =>
      cases deck with
      | nil => simp at enough
      | cons card rest =>
          have left : count ≤ rest.length := by simpa using enough
          simp [drawCards, Deck.dealCard, ih left]

/-- The state after a street is dealt: its phase, one card burnt, the board grown. -/
def dealtStreet (game : PokerGame) (count : Nat) (phase : GamePhase)
    (describe : List Card → String) : PokerGame :=
  let board := game.communityCards ++ (game.deck.drop 1).take count
  { game with
    currentPhase := phase
    deck := game.deck.drop (count + 1)
    communityCards := board
    actionHistory := game.actionHistory ++ [describe board]
    db := game.recordInHand fun handId db =>
      db.recordCommunityCards ⟨handId, phase.value, board.map Card.str⟩ }

theorem dealStreet_of_enough {game : PokerGame} {count : Nat} {phase : GamePhase}
    {describe : List Card → String} (enough : count + 1 ≤ game.deck.length) :
    dealStreet { game with currentPhase := phase } count phase describe =
      .ok (game.dealtStreet count phase describe) := by
  unfold dealStreet
  cases held : game.deck with
  | nil => simp [held] at enough
  | cons card rest =>
      have left : count ≤ rest.length := by simpa [held] using enough
      simp only [Deck.dealCard, drawCards_of_enough left, dealtStreet, held, List.drop_succ_cons,
        List.drop_zero]
      rfl

theorem dealStreet_phase {game dealt : PokerGame} {count : Nat} {phase : GamePhase}
    {describe : List Card → String} (returned : game.dealStreet count phase describe = .ok dealt) :
    dealt.currentPhase = game.currentPhase := by
  unfold dealStreet at returned
  split at returned
  · cases returned
  · split at returned
    · cases returned
    · cases returned
      rfl

theorem drawCards_of_short {count : Nat} {deck : List Card} (short : deck.length < count) :
    drawCards count deck = .error (.valueError "Cannot deal from empty deck") := by
  induction count generalizing deck with
  | zero => omega
  | succ count ih =>
      cases deck with
      | nil => rfl
      | cons card rest =>
          have left : rest.length < count := by simpa using short
          simp [drawCards, Deck.dealCard, ih left]

theorem dealStreet_of_short {game : PokerGame} {count : Nat} {phase : GamePhase}
    {describe : List Card → String} (short : game.deck.length < count + 1) :
    dealStreet { game with currentPhase := phase } count phase describe =
      .error (.valueError "Cannot deal from empty deck") := by
  unfold dealStreet
  cases held : game.deck with
  | nil => rfl
  | cons card rest =>
      have left : rest.length < count := by simpa [held] using short
      simp [Deck.dealCard, drawCards_of_short left]

theorem mem_seatsWhere {game : PokerGame} {test : Player → Bool} {seat : Nat} :
    seat ∈ game.seatsWhere test ↔
      ∃ player, game.players[seat]? = some player ∧ test player = true := by
  simp only [seatsWhere, List.mem_filter, List.mem_range]
  constructor
  · rintro ⟨inside, passes⟩
    rw [List.getElem?_eq_getElem inside, Option.any_some] at passes
    exact ⟨_, List.getElem?_eq_getElem inside, passes⟩
  · rintro ⟨player, here, passes⟩
    obtain ⟨inside, _⟩ := List.getElem?_eq_some_iff.mp here
    exact ⟨inside, by rw [here, Option.any_some, passes]⟩

theorem isActive_iff {game : PokerGame} {seat : Nat} :
    game.isActive seat = true ↔
      ∃ player, game.players[seat]? = some player ∧ player.status = .active := by
  unfold isActive
  cases here : game.players[seat]? with
  | none => simp
  | some player => simp

theorem isActive_of_statuses {game next : PokerGame}
    (statuses : next.players.map Player.status = game.players.map Player.status) (seat : Nat) :
    next.isActive seat = game.isActive seat := by
  have here := congrArg (fun list => list[seat]?) statuses
  simp only [List.getElem?_map] at here
  unfold isActive
  cases before : game.players[seat]? <;> cases after : next.players[seat]? <;>
    simp_all

theorem isActive_lt {game : PokerGame} {seat : Nat} (active : game.isActive seat = true) :
    seat < game.players.length := by
  obtain ⟨player, here, _⟩ := isActive_iff.mp active
  exact (List.getElem?_eq_some_iff.mp here).1

theorem mem_activeSeats {game : PokerGame} {seat : Nat} :
    seat ∈ game.seatsWhere (fun player => player.status == .active) ↔
      game.isActive seat = true := by
  rw [mem_seatsWhere, isActive_iff]
  simp

/-- The seat `_get_first_actor_for_phase` searches from. -/
def phaseBase (game : PokerGame) : Option Nat :=
  if game.currentPhase = .preflop then game.bigBlindIndex else some game.dealerButton

/-- The first actor is the first `ACTIVE` seat after the base, the base itself last. -/
theorem getFirstActorForPhase_spec {game : PokerGame} {base : Nat}
    (based : game.phaseBase = some base) (baseIn : base < game.players.length)
    (someone : ∃ seat, game.isActive seat = true) :
    ∃ first, game.getFirstActorForPhase = some first ∧ game.isActive first = true ∧
      ∀ other, game.isActive other = true →
        Clockwise.place game.players.length base first ≤
          Clockwise.place game.players.length base other := by
  have shape : game.getFirstActorForPhase = (game.getNextActivePlayerFrom base).or
      (game.seatsWhere fun player => player.status == .active).head? := by
    unfold getFirstActorForPhase
    rw [show (if game.currentPhase = .preflop then game.bigBlindIndex
        else some game.dealerButton) = some base from based]
    dsimp only [Option.bind_some]
    cases game.getNextActivePlayerFrom base <;> rfl
  rw [shape]
  cases found : game.getNextActivePlayerFrom base with
  | some seat =>
      obtain ⟨_, active, _, least⟩ :=
        (Clockwise.search_eq_some_iff baseIn (Nat.sub_le _ 1)).mp found
      exact ⟨seat, rfl, active, fun other acts => least other (isActive_lt acts) acts⟩
  | none =>
      -- only the base itself can be ACTIVE, and it is then the first ACTIVE seat
      have far := (Clockwise.search_eq_none_iff baseIn (Nat.sub_le _ 1)).mp found
      have only : ∀ other, game.isActive other = true → other = base := by
        intro other acts
        have late := far other (isActive_lt acts) acts
        have bound := Clockwise.place_lt baseIn other
        apply Clockwise.place_injective baseIn (isActive_lt acts) baseIn
        rw [Clockwise.place_self baseIn]
        omega
      obtain ⟨witness, acts⟩ := someone
      cases listed : game.seatsWhere (fun player => player.status == .active) with
      | nil =>
          have present := mem_activeSeats.mpr acts
          simp [listed] at present
      | cons first rest =>
          have active : game.isActive first = true := mem_activeSeats.mp (by simp [listed])
          refine ⟨first, rfl, active, ?_⟩
          intro other acts
          have same : first = other := (only first active).trans (only other acts).symm
          exact Nat.le_of_eq (by rw [same])

/-- What opening a betting round writes, and where it puts the turn. -/
theorem startNewBettingRound_spec (game : PokerGame) :
    ∃ seat complete, game.startNewBettingRound =
        { game with
          players := game.players.map Player.resetForNewBettingRound
          currentBet := 0
          lastRaiserIndex := none
          currentPlayerIndex := seat
          bettingRoundComplete := complete } ∧
      (complete = true ↔ ∀ other, game.isActive other = false) ∧
      (complete = true → seat = game.currentPlayerIndex) ∧
      (complete = false → game.currentPhase ≠ .preflop →
        game.dealerButton < game.players.length →
        game.isActive seat = true ∧
          ∀ other, game.isActive other = true →
            Clockwise.place game.players.length game.dealerButton seat ≤
              Clockwise.place game.players.length game.dealerButton other) := by
  let fresh : PokerGame :=
    { game with
      players := game.players.map Player.resetForNewBettingRound
      currentBet := 0
      bettingRoundComplete := false
      lastRaiserIndex := none }
  have sameActive : ∀ other, fresh.isActive other = game.isActive other := by
    intro other
    simp only [isActive, fresh, List.getElem?_map, Option.any_map]
    rfl
  unfold startNewBettingRound
  dsimp only
  split
  · rename_i empty
    change fresh.seatsWhere _ = [] at empty
    refine ⟨game.currentPlayerIndex, true, rfl, ?_, fun _ => rfl, by simp⟩
    refine ⟨fun _ other => ?_, fun _ => rfl⟩
    rw [← sameActive other]
    by_contra acts
    have present : other ∈ fresh.seatsWhere fun player => player.status == .active :=
      mem_activeSeats.mpr (by simpa using acts)
    simp [empty] at present
  · rename_i first rest listed
    change fresh.seatsWhere _ = first :: rest at listed
    have acts : fresh.isActive first = true := mem_activeSeats.mp (by simp [listed])
    refine ⟨fresh.getFirstActorForPhase.getD first, false, rfl, ⟨by simp, fun none => ?_⟩, by simp, ?_⟩
    · rw [sameActive, none first] at acts
      cases acts
    · intro _ later inside
      have based : fresh.phaseBase = some game.dealerButton := by simp [phaseBase, fresh, later]
      obtain ⟨seat, chosen, active, least⟩ :=
        getFirstActorForPhase_spec based (by simpa [fresh] using inside) ⟨first, acts⟩
      rw [chosen, Option.getD_some]
      refine ⟨by rw [← sameActive]; exact active, ?_⟩
      intro other otherActs
      have order := least other (by rw [sameActive]; exact otherActs)
      simpa [fresh] using order

theorem newRound_deck (game : PokerGame) :
    game.startNewBettingRound.deck = game.deck ∧
      game.startNewBettingRound.currentPhase = game.currentPhase := by
  obtain ⟨seat, complete, frame, _⟩ := game.startNewBettingRound_spec
  rw [frame]
  exact ⟨rfl, rfl⟩

/-- Everything `advance_to_next_phase` can do while the deck can serve the streets left:
refuse, go to the showdown, or deal one street and open its betting round. -/
theorem advanceToNextPhase_cases {game : PokerGame}
    (enough : game.currentPhase.cardsNeeded ≤ game.deck.length) :
    (game.advanceToNextPhase = .ok (false, game) ∧
        (game.bettingRoundComplete = false ∨ game.currentPhase.cardsNeeded = 0)) ∨
      (game.bettingRoundComplete = true ∧
        (game.remainingPlayers.length ≤ 1 ∨ game.currentPhase = .river) ∧
        game.advanceToNextPhase = .ok (true, { game with currentPhase := .showdown })) ∨
      (game.bettingRoundComplete = true ∧ 2 ≤ game.remainingPlayers.length ∧
        ∃ phase count describe, game.currentPhase.street = some (phase, count) ∧
          phase ≠ .preflop ∧ phase ≠ .showdown ∧ phase ≠ .finished ∧
          phase.cardsNeeded + (count + 1) = game.currentPhase.cardsNeeded ∧
          game.advanceToNextPhase =
            .ok (true, (game.dealtStreet count phase describe).startNewBettingRound)) := by
  by_cases complete : game.bettingRoundComplete = true
  · by_cases alone : game.remainingPlayers.length ≤ 1
    · refine Or.inr (Or.inl ⟨complete, Or.inl alone, ?_⟩)
      simp [advanceToNextPhase, complete, alone]
    · have several : 2 ≤ game.remainingPlayers.length := by omega
      have entered : game.advanceToNextPhase = game.changePhase := by
        unfold advanceToNextPhase
        rw [if_neg (by simp [complete]), if_neg alone]
      cases phase : game.currentPhase <;> rw [phase] at enough <;>
        simp only [GamePhase.cardsNeeded] at enough
      case preflop =>
        refine Or.inr (Or.inr ⟨complete, several, .flop, 3,
          fun board => "Flop dealt: " ++ ", ".intercalate (board.map Card.str), rfl, by decide,
          by decide, by decide, rfl, ?_⟩)
        rw [entered, changePhase, phase]
        dsimp only
        rw [dealFlop, dealStreet_of_enough (show 4 ≤ game.deck.length by omega)]
        rfl
      case flop =>
        refine Or.inr (Or.inr ⟨complete, several, .turn, 1,
          fun board => "Turn dealt: " ++ lastCard board, rfl, by decide, by decide,
          by decide, rfl, ?_⟩)
        rw [entered, changePhase, phase]
        dsimp only
        rw [dealTurn, dealStreet_of_enough (show 2 ≤ game.deck.length by omega)]
        rfl
      case turn =>
        refine Or.inr (Or.inr ⟨complete, several, .river, 1,
          fun board => "River dealt: " ++ lastCard board, rfl, by decide, by decide,
          by decide, rfl, ?_⟩)
        rw [entered, changePhase, phase]
        dsimp only
        rw [dealRiver, dealStreet_of_enough (show 2 ≤ game.deck.length by omega)]
        rfl
      case river =>
        refine Or.inr (Or.inl ⟨complete, Or.inr rfl, ?_⟩)
        rw [entered, changePhase, phase]
      case showdown =>
        refine Or.inl ⟨?_, Or.inr rfl⟩
        rw [entered, changePhase, phase]
      case finished =>
        refine Or.inl ⟨?_, Or.inr rfl⟩
        rw [entered, changePhase, phase]
  · refine Or.inl ⟨?_, Or.inl (by simpa using complete)⟩
    simp [advanceToNextPhase, complete]

/-- What a change of phase writes: at most the phase, or everything a new street does. -/
theorem advanceToNextPhase_frame {game next : PokerGame} {moved : Bool}
    (served : game.currentPhase.cardsNeeded ≤ game.deck.length)
    (returned : game.advanceToNextPhase = .ok (moved, next)) :
    (∃ phase, next = { game with currentPhase := phase }) ∨
      ∃ phase count describe seat complete, next =
        { game.dealtStreet count phase describe with
          players := game.players.map Player.resetForNewBettingRound
          currentBet := 0
          lastRaiserIndex := none
          currentPlayerIndex := seat
          bettingRoundComplete := complete } := by
  rcases advanceToNextPhase_cases served with ⟨refused, _⟩ | ⟨_, _, shown⟩ |
    ⟨_, _, phase, count, describe, _, _, _, _, _, opened⟩
  · rw [refused] at returned
    cases returned
    exact Or.inl ⟨_, rfl⟩
  · rw [shown] at returned
    cases returned
    exact Or.inl ⟨_, rfl⟩
  · rw [opened] at returned
    cases returned
    obtain ⟨seat, complete, frame, _⟩ :=
      (game.dealtStreet count phase describe).startNewBettingRound_spec
    exact Or.inr ⟨phase, count, describe, seat, complete, frame⟩

end PokerGame

end Holdem
