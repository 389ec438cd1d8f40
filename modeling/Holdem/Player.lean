import Holdem.Cards

set_option autoImplicit false

namespace Holdem

inductive PlayerStatus
  | active
  | folded
  | allIn
  | busted
deriving DecidableEq, Repr

def PlayerStatus.value : PlayerStatus → String
  | .active => "active"
  | .folded => "folded"
  | .allIn => "all_in"
  | .busted => "busted"

/-- `p.status in [PlayerStatus.ACTIVE, PlayerStatus.ALL_IN]`. -/
def PlayerStatus.remains : PlayerStatus → Bool
  | .active => true
  | .allIn => true
  | .folded => false
  | .busted => false

/-- The fields of `Player` that the game reads. Chips are integers: that they never
become negative is proved, not assumed. -/
structure Player where
  id : Int
  chips : Int
  holeCards : List Card := []
  currentBet : Int := 0
  totalBetThisHand : Int := 0
  status : PlayerStatus := .active
  isDealer : Bool := false
  isSmallBlind : Bool := false
  isBigBlind : Bool := false
deriving DecidableEq, Repr

namespace Player

def resetForNewHand (player : Player) : Player :=
  { player with
    holeCards := []
    currentBet := 0
    totalBetThisHand := 0
    status := if player.chips > 0 then .active else .busted
    isDealer := false
    isSmallBlind := false
    isBigBlind := false }

def resetForNewBettingRound (player : Player) : Player := { player with currentBet := 0 }

def addHoleCard (player : Player) (card : Card) : Except PyError Player :=
  if player.holeCards.length ≥ 2 then .error (.valueError "Player already has 2 hole cards")
  else .ok { player with holeCards := player.holeCards ++ [card] }

/-- `Player.bet`: the chips actually bet and the player afterwards. -/
def bet (player : Player) (amount : Int) : Int × Player :=
  if amount ≤ 0 then (0, player)
  else
    let actualBet := min amount player.chips
    (actualBet,
      { player with
        chips := player.chips - actualBet
        currentBet := player.currentBet + actualBet
        totalBetThisHand := player.totalBetThisHand + actualBet
        status := if player.chips - actualBet = 0 then .allIn else player.status })

def fold (player : Player) : Player := { player with status := .folded }

def stake (player : Player) : Int := player.chips + player.totalBetThisHand

/-- Everything a bet does to the numbers of a player, in one statement. -/
theorem bet_spec (player : Player) (amount : Int) (solvent : 0 ≤ player.chips) :
    (player.bet amount).1 = max 0 (min amount player.chips) ∧
      (player.bet amount).2.chips = player.chips - (player.bet amount).1 ∧
      (player.bet amount).2.currentBet = player.currentBet + (player.bet amount).1 ∧
      (player.bet amount).2.totalBetThisHand = player.totalBetThisHand + (player.bet amount).1 := by
  unfold bet
  split
  · refine ⟨by omega, ?_, ?_, ?_⟩ <;> simp
  · refine ⟨?_, rfl, rfl, rfl⟩
    dsimp only
    omega

@[simp] theorem bet_id (player : Player) (amount : Int) : (player.bet amount).2.id = player.id := by
  unfold bet
  split <;> rfl

@[simp] theorem bet_holeCards (player : Player) (amount : Int) :
    (player.bet amount).2.holeCards = player.holeCards := by
  unfold bet
  split <;> rfl

@[simp] theorem bet_isBigBlind (player : Player) (amount : Int) :
    (player.bet amount).2.isBigBlind = player.isBigBlind := by
  unfold bet
  split <;> rfl

@[simp] theorem bet_isSmallBlind (player : Player) (amount : Int) :
    (player.bet amount).2.isSmallBlind = player.isSmallBlind := by
  unfold bet
  split <;> rfl

@[simp] theorem bet_isDealer (player : Player) (amount : Int) :
    (player.bet amount).2.isDealer = player.isDealer := by
  unfold bet
  split <;> rfl

theorem bet_status (player : Player) (amount : Int) (solvent : 0 < player.chips) :
    (player.bet amount).2.status =
      if (player.bet amount).2.chips = 0 then .allIn else player.status := by
  unfold bet
  split
  · simp [show player.chips ≠ 0 by omega]
  · rfl

end Player

end Holdem
