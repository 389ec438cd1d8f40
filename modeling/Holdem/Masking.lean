import Holdem.Showdown
import Holdem.View

set_option autoImplicit false

namespace Holdem

/-- The player with its hole cards taken away when its id is hidden. -/
def Player.mask (hidden : Int → Bool) (player : Player) : Player :=
  { player with holeCards := if hidden player.id then [] else player.holeCards }

/-- The game with the hidden players' hole cards taken away, and a deck of choice. -/
def PokerGame.conceal (hidden : Int → Bool) (deck : List Card) (game : PokerGame) : PokerGame :=
  { game with players := game.players.map (Player.mask hidden), deck := deck }

def Performed.mask (hidden : Int → Bool) (done : Performed) : Performed :=
  { done with player := done.player.mask hidden }

namespace Player

variable (hidden : Int → Bool) (player : Player)

@[simp] theorem mask_id : (player.mask hidden).id = player.id := rfl
@[simp] theorem mask_chips : (player.mask hidden).chips = player.chips := rfl
@[simp] theorem mask_status : (player.mask hidden).status = player.status := rfl
@[simp] theorem mask_currentBet : (player.mask hidden).currentBet = player.currentBet := rfl

theorem mask_bet (amount : Int) :
    (player.mask hidden).bet amount =
      ((player.bet amount).1, (player.bet amount).2.mask hidden) := by
  unfold bet
  split <;> rfl

theorem mask_of_shown {hidden : Int → Bool} {player : Player} (shown : hidden player.id = false) :
    player.mask hidden = player := by
  unfold mask
  rw [shown]
  rfl

end Player

namespace PokerGame

variable (hidden : Int → Bool) (deck : List Card) (game : PokerGame)

@[simp] theorem conceal_turn :
    (game.conceal hidden deck).currentPlayerIndex = game.currentPlayerIndex := rfl

@[simp] theorem conceal_communityCards :
    (game.conceal hidden deck).communityCards = game.communityCards := rfl

theorem conceal_getElem? (seat : Nat) :
    (game.conceal hidden deck).players[seat]? = (game.players[seat]?).map (Player.mask hidden) :=
  List.getElem?_map ..

@[simp] theorem conceal_length :
    (game.conceal hidden deck).players.length = game.players.length :=
  List.length_map ..

theorem conceal_getPlayer (playerId : Int) :
    (game.conceal hidden deck).getPlayer playerId =
      (game.getPlayer playerId).map (Player.mask hidden) := by
  unfold getPlayer conceal
  rw [List.find?_map]
  rfl

theorem conceal_any {test : Player → Bool} (blind : ∀ player : Player, test (player.mask hidden) = test player)
    (seat : Nat) :
    ((game.conceal hidden deck).players[seat]?).any test = (game.players[seat]?).any test := by
  rw [conceal_getElem?]
  cases game.players[seat]? with
  | none => rfl
  | some player => exact blind player

theorem conceal_isActive : (game.conceal hidden deck).isActive = game.isActive := by
  funext seat
  exact game.conceal_any hidden deck (fun _ => rfl) seat

theorem conceal_seatsWhere (test : Player → Bool)
    (blind : ∀ player : Player, test (player.mask hidden) = test player) :
    (game.conceal hidden deck).seatsWhere test = game.seatsWhere test := by
  unfold seatsWhere
  rw [conceal_length]
  apply List.filter_congr
  intro seat _
  exact game.conceal_any hidden deck blind seat

theorem conceal_filter (test : Player → Bool)
    (blind : ∀ player : Player, test (player.mask hidden) = test player) :
    (game.conceal hidden deck).players.filter test =
      (game.players.filter test).map (Player.mask hidden) := by
  unfold conceal
  rw [List.filter_map]
  congr 2
  funext player
  exact blind player

theorem conceal_bigBlindIndex : (game.conceal hidden deck).bigBlindIndex = game.bigBlindIndex := by
  unfold bigBlindIndex conceal
  rw [List.findIdx?_map]
  rfl

theorem conceal_getNextActivePlayerFrom (seat : Nat) :
    (game.conceal hidden deck).getNextActivePlayerFrom seat = game.getNextActivePlayerFrom seat := by
  unfold getNextActivePlayerFrom
  rw [conceal_length, conceal_isActive]

theorem conceal_getFirstActorForPhase :
    (game.conceal hidden deck).getFirstActorForPhase = game.getFirstActorForPhase := by
  unfold getFirstActorForPhase
  have seats := game.conceal_seatsWhere hidden deck (fun player => player.status == .active)
    fun _ => rfl
  have next : (game.conceal hidden deck).getNextActivePlayerFrom =
      game.getNextActivePlayerFrom := by
    funext seat
    exact game.conceal_getNextActivePlayerFrom hidden deck seat
  rw [conceal_bigBlindIndex, seats, next]
  rfl

theorem conceal_roundIsOver : (game.conceal hidden deck).roundIsOver = game.roundIsOver := by
  have active := game.conceal_filter hidden deck (fun player => player.status == .active)
    fun _ => rfl
  have allIn := game.conceal_filter hidden deck (fun player => player.status == .allIn)
    fun _ => rfl
  unfold roundIsOver
  rw [active, allIn, conceal_getFirstActorForPhase, conceal_isActive]
  dsimp only
  rw [List.length_map, List.length_map]
  cases game.players.filter fun player => player.status == .active with
  | nil => rfl
  | cons first rest =>
      cases rest with
      | nil => rfl
      | cons second others =>
          simp only [List.map_cons, List.all_cons, List.all_map, Player.mask_currentBet,
            conceal_getNextActivePlayerFrom]
          rfl

/-! ### Betting -/

theorem conceal_performAction (player : Player) (playerId : Int) (action : Action) (amount : Int) :
    (game.conceal hidden deck).performAction (player.mask hidden) playerId action amount =
      (game.performAction player playerId action amount).map (Performed.mask hidden) := by
  cases action with
  | fold => rfl
  | check =>
      simp only [performAction, apply_ite (Option.map (Performed.mask hidden))]
      rfl
  | call =>
      simp only [performAction, Player.mask_bet, apply_ite (Option.map (Performed.mask hidden))]
      rfl
  | raise =>
      simp only [performAction, Player.mask_bet, apply_ite (Option.map (Performed.mask hidden))]
      rfl
  | allIn =>
      simp only [performAction, Player.mask_chips, Player.mask_bet,
        apply_ite (Option.map (Performed.mask hidden))]
      rfl
  | unknown text => rfl

theorem putPlayer_mask (players : List Player) (player : Player) :
    putPlayer (players.map (Player.mask hidden)) (player.mask hidden) =
      (putPlayer players player).map (Player.mask hidden) := by
  induction players with
  | nil => rfl
  | cons other rest ih =>
      simp only [List.map_cons, putPlayer, Player.mask_id, ih]
      split <;> rfl

theorem conceal_commitAction (done : Performed) (playerId : Int) (action : Action) (amount : Int) :
    (game.conceal hidden deck).commitAction (done.mask hidden) playerId action amount =
      (game.commitAction done playerId action amount).conceal hidden deck := by
  have written := putPlayer_mask hidden game.players done.player
  have amounts : recordedAmount (done.mask hidden) action amount =
      recordedAmount done action amount := by cases action <;> rfl
  have tables : ((game.conceal hidden deck).recordInHand fun handId db =>
      db.recordAction ⟨handId, game.currentPhase.value, playerId, action.text,
        recordedAmount (done.mask hidden) action amount, game.pot + done.paid⟩) =
      game.recordInHand fun handId db =>
        db.recordAction ⟨handId, game.currentPhase.value, playerId, action.text,
          recordedAmount done action amount, game.pot + done.paid⟩ := by
    rw [amounts]
    rfl
  unfold commitAction
  rw [PokerGame.mk.injEq]
  exact ⟨rfl, rfl, written, rfl, rfl, rfl, rfl, rfl, rfl, rfl, rfl, rfl, rfl, rfl, rfl, rfl, tables, rfl⟩

theorem conceal_advanceToNextPlayer :
    (game.conceal hidden deck).advanceToNextPlayer =
      game.advanceToNextPlayer.conceal hidden deck := by
  unfold advanceToNextPlayer
  rw [conceal_length, conceal_isActive, conceal_turn]
  dsimp only
  cases Clockwise.search game.players.length game.isActive game.currentPlayerIndex
    game.players.length <;> rfl

theorem conceal_checkBettingRoundComplete :
    (game.conceal hidden deck).checkBettingRoundComplete =
      game.checkBettingRoundComplete.conceal hidden deck := by
  unfold checkBettingRoundComplete
  rw [conceal_roundIsOver]
  split <;> rfl

/-- `process_player_action` reads and writes no hole cards and no deck. -/
theorem conceal_processPlayerAction (playerId : Int) (action : Action) (amount : Int) :
    (game.conceal hidden deck).processPlayerAction playerId action amount =
      ((game.processPlayerAction playerId action amount).1,
        (game.processPlayerAction playerId action amount).2.conceal hidden deck) := by
  unfold processPlayerAction
  rw [conceal_getPlayer, conceal_turn]
  by_cases turn : playerId ≠ game.currentPlayerIndex
  · rw [if_pos turn, if_pos turn]
  · rw [if_neg turn, if_neg turn]
    cases game.getPlayer playerId with
    | none => rfl
    | some player =>
        dsimp only [Option.map_some]
        rw [Player.mask_status, conceal_performAction]
        by_cases idle : player.status ≠ .active
        · rw [if_pos idle, if_pos idle]
        · rw [if_neg idle, if_neg idle]
          cases game.performAction player playerId action amount with
          | none => rfl
          | some done =>
              dsimp only [Option.map_some]
              rw [conceal_commitAction, conceal_advanceToNextPlayer,
                conceal_checkBettingRoundComplete]

/-! ### Views -/

theorem conceal_isBigBlindOption (player : Player) (playerId : Int) :
    (game.conceal hidden deck).isBigBlindOption (player.mask hidden) playerId =
      game.isBigBlindOption player playerId := by
  unfold isBigBlindOption
  rw [conceal_bigBlindIndex]
  rfl

theorem conceal_getAvailableActions (playerId : Int) :
    (game.conceal hidden deck).getAvailableActions playerId = game.getAvailableActions playerId := by
  unfold getAvailableActions
  rw [conceal_getPlayer]
  cases game.getPlayer playerId with
  | none => rfl
  | some player =>
      have mayRaise : (game.conceal hidden deck).mayRaise (player.mask hidden) playerId =
          game.mayRaise player playerId := by
        unfold PokerGame.mayRaise
        rw [conceal_isBigBlindOption]
        rfl
      dsimp only [Option.map_some]
      rw [mayRaise]
      rfl

/-- A view shows the hole cards of its owner only. -/
theorem conceal_getLlmGameState {playerId : Int} (shown : hidden playerId = false) :
    (game.conceal hidden deck).getLlmGameState playerId = game.getLlmGameState playerId := by
  have others := game.conceal_filter hidden deck
    (fun other => other.id != playerId && other.status != .busted) fun _ => rfl
  unfold getLlmGameState
  rw [conceal_getPlayer, conceal_getAvailableActions, others]
  cases found : game.getPlayer playerId with
  | none => rfl
  | some player =>
      have owner : player.id = playerId := by
        have passes := List.find?_some found
        simpa using passes
      dsimp only [Option.map_some]
      rw [Player.mask_of_shown (by rw [owner, shown]), List.map_map]
      rfl

/-! ### Opening a hand and its streets -/

theorem conceal_setFirstActorPreflop :
    (game.conceal hidden deck).setFirstActorPreflop =
      game.setFirstActorPreflop.conceal hidden deck := by
  have seats := game.conceal_seatsWhere hidden deck
    (fun player => player.status != .busted && player.status != .folded) fun _ => rfl
  unfold setFirstActorPreflop
  rw [seats]
  simp only [apply_ite (conceal hidden deck)]
  rfl

theorem conceal_recordHand :
    (game.conceal hidden deck).recordHand = game.recordHand.conceal hidden deck := by
  have ids := game.conceal_filter hidden deck (fun player => player.status != .busted) fun _ => rfl
  unfold recordHand
  rw [ids, conceal_getElem?, List.map_map, Option.map_map]
  rfl

/-- The fields `_start_new_betting_round` resets before it looks for the first actor. -/
def clearRound (game : PokerGame) : PokerGame :=
  { game with
    players := game.players.map Player.resetForNewBettingRound
    currentBet := 0
    bettingRoundComplete := false
    lastRaiserIndex := none }

theorem startNewBettingRound_eq :
    game.startNewBettingRound =
      match game.clearRound.seatsWhere fun player => player.status == .active with
      | [] => { game.clearRound with bettingRoundComplete := true }
      | first :: _ =>
          { game.clearRound with
            currentPlayerIndex := game.clearRound.getFirstActorForPhase.getD first } := rfl

theorem conceal_clearRound :
    (game.conceal hidden deck).clearRound = game.clearRound.conceal hidden deck := by
  unfold clearRound conceal
  rw [List.map_map, List.map_map]
  rfl

theorem conceal_startNewBettingRound :
    (game.conceal hidden deck).startNewBettingRound =
      game.startNewBettingRound.conceal hidden deck := by
  have seats := game.clearRound.conceal_seatsWhere hidden deck
    (fun player => player.status == .active) fun _ => rfl
  rw [startNewBettingRound_eq, startNewBettingRound_eq, conceal_clearRound, seats,
    conceal_getFirstActorForPhase]
  cases game.clearRound.seatsWhere fun player => player.status == .active <;> rfl

theorem conceal_remainingPlayers :
    (game.conceal hidden deck).remainingPlayers =
      game.remainingPlayers.map (Player.mask hidden) :=
  game.conceal_filter hidden deck (fun player => player.status.remains) fun _ => rfl

/-! ### The showdown -/

def hiddenOut (hidden : Int → Bool) (game : PokerGame) : Prop :=
  ∀ player ∈ game.players, hidden player.id = true → player.status.remains = false

theorem conceal_hiddenOut :
    (game.conceal hidden deck).hiddenOut hidden ↔ game.hiddenOut hidden :=
  List.forall_mem_map

theorem conceal_remaining_of_out {game : PokerGame} (out : game.hiddenOut hidden) :
    (game.conceal hidden deck).remainingPlayers = game.remainingPlayers := by
  rw [conceal_remainingPlayers]
  refine (List.map_congr_left ?_).trans (List.map_id _)
  intro player member
  obtain ⟨inside, remains⟩ := List.mem_filter.mp member
  apply Player.mask_of_shown
  by_contra concealed
  rw [out player inside (by simpa using concealed)] at remains
  cases remains

theorem conceal_contributions :
    (game.conceal hidden deck).contributions = game.contributions := by
  unfold contributions conceal
  rw [List.map_map]
  rfl

theorem creditPlayer_mask (players : List Player) (playerId amount : Int) :
    creditPlayer (players.map (Player.mask hidden)) playerId amount =
      (creditPlayer players playerId amount).map (Player.mask hidden) := by
  have found : (players.map (Player.mask hidden)).find? (fun player => player.id == playerId) =
      (players.find? fun player => player.id == playerId).map (Player.mask hidden) := by
    rw [List.find?_map]
    rfl
  unfold creditPlayer
  rw [found]
  cases players.find? fun player => player.id == playerId with
  | none => rfl
  | some player => exact putPlayer_mask hidden players { player with chips := player.chips + amount }

theorem creditAll_mask (players : List Player) (items : List (Int × Int)) :
    creditAll (players.map (Player.mask hidden)) items =
      (creditAll players items).map (Player.mask hidden) := by
  induction items generalizing players with
  | nil => rfl
  | cons item rest ih =>
      unfold creditAll at ih ⊢
      rw [List.foldl_cons, creditPlayer_mask, ih]
      rfl

theorem conceal_contestedShowdown {game : PokerGame} (out : game.hiddenOut hidden)
    (hands : List PlayerHand) :
    (game.conceal hidden deck).contestedShowdown hands =
      ((game.contestedShowdown hands).1.conceal hidden deck, (game.contestedShowdown hands).2) := by
  have present : ∀ playerId : Int,
      ((game.conceal hidden deck).getPlayer playerId).isSome = (game.getPlayer playerId).isSome := by
    intro playerId
    rw [conceal_getPlayer, Option.isSome_map]
  unfold contestedShowdown
  rw [conceal_remaining_of_out hidden deck out, conceal_contributions]
  simp only [present]
  rw [Prod.mk.injEq]
  refine ⟨?_, rfl⟩
  simp only [conceal, creditAll_mask]
  rfl

/-- `conduct_showdown` reads the hole cards of the players still in the hand only. -/
theorem conceal_conductShowdown {game : PokerGame} (out : game.hiddenOut hidden) :
    (game.conceal hidden deck).conductShowdown =
      game.conductShowdown.map fun settled => (settled.1.conceal hidden deck, settled.2) := by
  have credited : ∀ amount : Int,
      (game.players.map (Player.mask hidden)).map (fun player =>
        if player.status.remains then { player with chips := player.chips + amount } else player) =
      (game.players.map fun player =>
        if player.status.remains then { player with chips := player.chips + amount }
        else player).map (Player.mask hidden) := by
    intro amount
    rw [List.map_map, List.map_map]
    apply List.map_congr_left
    intro player _
    simp only [Function.comp_apply, Player.mask_status, apply_ite (Player.mask hidden)]
    rfl
  unfold conductShowdown
  rw [conceal_remaining_of_out hidden deck out]
  cases game.remainingPlayers with
  | nil => rfl
  | cons first rest =>
      cases rest with
      | nil =>
          simp only [Except.map, conceal, credited]
      | cons second others =>
          dsimp only
          rw [conceal_communityCards]
          cases evaluatePlayers game.communityCards (first :: second :: others) with
          | error raised => rfl
          | ok hands =>
              dsimp only
              rw [conceal_contestedShowdown hidden deck out]
              rfl

end PokerGame

end Holdem
