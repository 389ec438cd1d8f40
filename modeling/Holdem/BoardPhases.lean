import Holdem.CardFlow

set_option autoImplicit false

namespace Holdem

namespace GamePhase

/-- The phase after this one when nobody stops the hand early. -/
def following : GamePhase → Option GamePhase
  | .preflop => some .flop
  | .flop => some .turn
  | .turn => some .river
  | .river => some .showdown
  | .showdown => none
  | .finished => none

def boardSize : GamePhase → Nat
  | .preflop => 0
  | .flop => 3
  | .turn => 4
  | .river => 5
  | .showdown => 5
  | .finished => 0

theorem boardSize_street {phase next : GamePhase} {count : Nat}
    (street : phase.street = some (next, count)) :
    next.boardSize = phase.boardSize + count ∧ phase.following = some next ∧
      next ≠ .showdown ∧ next ≠ .finished := by
  cases phase <;> cases street <;> decide

end GamePhase

/-- What every order of calls keeps once a hand was started: the board is as large as the
phase says unless the hand ended early, and the players who are left hold cards. -/
structure InStep (game : PokerGame) : Prop extends CardsApart game where
  board : game.communityCards.length = game.currentPhase.boardSize ∨
    (game.currentPhase = .showdown ∧ game.remainingPlayers.length ≤ 1)
  finished : game.currentPhase = .finished → game.remainingPlayers.length ≤ 1
  hands : game.HandsDealt ∨ game.remainingPlayers.length ≤ 1

namespace InStep

variable {game : PokerGame}

theorem remaining_le_survivors (game : PokerGame) :
    game.remainingPlayers.length ≤ game.survivorSeats.length := by
  unfold PokerGame.survivorSeats
  rw [PokerGame.length_seatsWhere]
  apply List.Sublist.length_le
  apply List.monotone_filter_right
  intro player remains
  cases status : player.status <;> rw [status] at remains <;> trivial

theorem newHand {next : PokerGame} {shuffle : Shuffle} (few : game.players.length ≤ 10)
    (returned : game.startNewHand shuffle = .ok next) : InStep next := by
  obtain ⟨_, empty, dealt⟩ := PokerGame.startNewHand_cards returned
  have cards := CardsApart.newHand few returned
  rcases game.startNewHand_spec shuffle few with ⟨lone, finished⟩ | ⟨button, opened, same, hand⟩
  · rw [returned] at finished
    cases finished
    have alone : ({ game.resetForHand shuffle with
        currentPhase := .finished } : PokerGame).remainingPlayers.length ≤ 1 := by
      have bound := remaining_le_survivors (game.resetForHand shuffle)
      change (game.resetForHand shuffle).remainingPlayers.length ≤ 1
      omega
    exact ⟨cards, Or.inl rfl, fun _ => alone, Or.inr alone⟩
  · rw [returned] at same
    cases same
    have phase := hand.phase
    refine ⟨cards, Or.inl ?_, ?_, Or.inl (dealt ?_)⟩
    · rw [empty, phase]
      rfl
    · intro ended
      rw [phase] at ended
      cases ended
    · rw [phase]
      decide

theorem follow {next : PokerGame} (inStep : InStep game) (continues : Continues game next) :
    InStep next := by
  have fewer := continues.remaining
  have served := inStep.served
  have hands : next.HandsDealt ∨ next.remainingPlayers.length ≤ 1 := by
    rcases inStep.hands with dealt | alone
    · exact Or.inl (continues.hands dealt)
    · exact Or.inr (by omega)
  rcases continues.moved with ⟨phase, board, _⟩ | ⟨phase, why, board, _⟩ |
    ⟨count, street, board, _⟩
  · refine ⟨inStep.toCardsApart.follow continues, ?_, ?_, hands⟩
    · rw [phase, board]
      rcases inStep.board with size | ⟨shown, alone⟩
      · exact Or.inl size
      · exact Or.inr ⟨shown, by omega⟩
    · intro ended
      have alone := inStep.finished (phase ▸ ended)
      omega
  · refine ⟨inStep.toCardsApart.follow continues, ?_, ?_, hands⟩
    · rcases why with alone | river
      · exact Or.inr ⟨phase, by omega⟩
      · rcases inStep.board with size | ⟨shown, _⟩
        · rw [phase, board, size, river]
          exact Or.inl rfl
        · rw [river] at shown
          cases shown
    · intro ended
      rw [phase] at ended
      cases ended
  · obtain ⟨size, _, notShown, notOver⟩ := GamePhase.boardSize_street street
    have needs := GamePhase.cardsNeeded_street street
    refine ⟨inStep.toCardsApart.follow continues, Or.inl ?_, fun ended => absurd ended notOver, hands⟩
    rcases inStep.board with before | ⟨shown, _⟩
    · rw [board, List.length_append, List.length_take, List.length_drop, before, size]
      omega
    · rw [shown] at street
      cases street

theorem call (inStep : InStep game) (call : Call) : InStep (game.afterCall call) := by
  by_cases starts : call.startsHand = true
  · cases call <;> cases starts
    rename_i shuffle
    obtain ⟨next, returned⟩ := game.startNewHand_returns shuffle inStep.few
    rw [PokerGame.afterCall_newHand returned]
    exact newHand inStep.few returned
  · exact inStep.follow (Continues.call inStep.served (by simpa using starts))

theorem calls (inStep : InStep game) (calls : List Call) : InStep (game.afterCalls calls) := by
  induction calls generalizing game with
  | nil => exact inStep
  | cons first rest ih => exact ih (inStep.call first)

/-- At a showdown between several players everyone left can be dealt seven cards from. -/
theorem sevenCards (inStep : InStep game) (shown : game.currentPhase = .showdown)
    (several : 2 ≤ game.remainingPlayers.length) :
    game.communityCards.length = 5 ∧
      ∀ player ∈ game.remainingPlayers, player.holeCards.length = 2 := by
  constructor
  · rcases inStep.board with size | ⟨_, alone⟩
    · rw [size, shown]
      rfl
    · omega
  · intro player member
    obtain ⟨seated, remains⟩ := List.mem_filter.mp member
    rcases inStep.hands with dealt | alone
    · rw [dealt player seated, if_neg]
      intro busted
      rw [busted] at remains
      cases remains
    · omega

end InStep

/-- In every order of calls after a first new hand, the board has as many cards as the phase
asks for, the phase moves in order or straight to the showdown of at most one player, and a
showdown between several players compares seven cards of each. -/
theorem board_follows_phase (roster : Roster) (shuffle : Shuffle) (calls : List Call) :
    let game := roster.game.afterCalls (.startNewHand shuffle :: calls)
    (game.currentPhase = .preflop → game.communityCards.length = 0) ∧
      (game.currentPhase = .flop → game.communityCards.length = 3) ∧
      (game.currentPhase = .turn → game.communityCards.length = 4) ∧
      (game.currentPhase = .river → game.communityCards.length = 5) ∧
      (∀ call, call.startsHand = false →
        (game.afterCall call).currentPhase = game.currentPhase ∨
          game.currentPhase.following = some (game.afterCall call).currentPhase ∨
          ((game.afterCall call).currentPhase = .showdown ∧
            game.remainingPlayers.length ≤ 1)) ∧
      (game.currentPhase = .showdown → 2 ≤ game.remainingPlayers.length →
        game.communityCards.length = 5 ∧
          (∀ player ∈ game.remainingPlayers, player.holeCards.length = 2 ∧
            (player.holeCards ++ game.communityCards).length = 7) ∧
          ∃ settled, game.conductShowdown = .ok settled) := by
  intro game
  have inStep : InStep game := by
    have few := (CardsApart.initial roster).few
    obtain ⟨opened, returned⟩ := roster.game.startNewHand_returns shuffle few
    have started : game = opened.afterCalls calls := by
      rw [← PokerGame.afterCall_newHand returned]
      rfl
    rw [started]
    exact (InStep.newHand few returned).calls calls
  have sized : game.currentPhase ≠ .showdown →
      game.communityCards.length = game.currentPhase.boardSize := by
    intro early
    rcases inStep.board with size | ⟨shown, _⟩
    · exact size
    · exact absurd shown early
  refine ⟨?_, ?_, ?_, ?_, ?_, ?_⟩
  · intro phase
    rw [sized (by simp [phase]), phase]
    rfl
  · intro phase
    rw [sized (by simp [phase]), phase]
    rfl
  · intro phase
    rw [sized (by simp [phase]), phase]
    rfl
  · intro phase
    rw [sized (by simp [phase]), phase]
    rfl
  · intro call continues
    rcases (Continues.call inStep.served continues).moved with ⟨same, _⟩ |
      ⟨shown, alone | river, _⟩ | ⟨count, street, _⟩
    · exact Or.inl same
    · exact Or.inr (Or.inr ⟨shown, alone⟩)
    · refine Or.inr (Or.inl ?_)
      rw [river, shown]
      rfl
    · exact Or.inr (Or.inl (GamePhase.boardSize_street street).2.1)
  · intro shown several
    obtain ⟨board, hands⟩ := inStep.sevenCards shown several
    refine ⟨board, fun player member => ⟨hands player member, ?_⟩, ?_⟩
    · rw [List.length_append, hands player member, board]
    · apply PokerGame.conductShowdown_returns
      intro player member
      apply List.ne_nil_of_length_pos
      rw [hands player member]
      exact Nat.zero_lt_two

def headsUpRoster : Roster where
  smallBlind := 5
  bigBlind := 10
  seats := [(0, 100), (1, 60)]
  button := 0
  deck := .unshuffled
  seats_ge := by decide
  seats_le := by decide

theorem board_follows_phase_flop :
    let game := headsUpRoster.game.afterCalls [.startNewHand .unshuffled,
      .processPlayerAction 1 .call 0, .processPlayerAction 0 .check 0, .advanceToNextPhase]
    game.currentPhase = .flop ∧ game.communityCards.length = 3 := by
  have phase : (headsUpRoster.game.afterCalls [.startNewHand .unshuffled,
      .processPlayerAction 1 .call 0, .processPlayerAction 0 .check 0,
      .advanceToNextPhase]).currentPhase = .flop := by decide
  exact ⟨phase, (board_follows_phase headsUpRoster .unshuffled _).2.1 phase⟩

end Holdem
