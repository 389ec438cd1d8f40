import Mathlib.Data.List.Basic

set_option autoImplicit false

namespace Holdem

inductive PyError
  | valueError (message : String)
  | indexError (message : String)
  | typeError (message : String)
  | overflowError (message : String)
  | zeroDivisionError (message : String)
deriving DecidableEq, Repr

inductive Suit
  | hearts
  | diamonds
  | clubs
  | spades
deriving DecidableEq, Repr

/-- `Card.SUIT_SYMBOLS`. -/
def Suit.symbol : Suit → String
  | .hearts => "♥"
  | .diamonds => "♦"
  | .clubs => "♣"
  | .spades => "♠"

/-- The order in which `for suit in Suit` visits the enumeration. -/
def Suit.all : List Suit := [.hearts, .diamonds, .clubs, .spades]

/-- `Card.RANK_NAMES`; the constructor's range check keeps other ranks out. -/
def rankName : Nat → String
  | 11 => "J"
  | 12 => "Q"
  | 13 => "K"
  | 14 => "A"
  | rank => toString rank

structure Card where
  rank : Nat
  suit : Suit
  rank_ge : 2 ≤ rank
  rank_le : rank ≤ 14
deriving DecidableEq, Repr

def Card.init (rank : Nat) (suit : Suit) : Except PyError Card :=
  if valid : 2 ≤ rank ∧ rank ≤ 14 then
    .ok ⟨rank, suit, valid.1, valid.2⟩
  else
    .error (.valueError "Rank must be between 2 and 14")

/-- `Card.__str__`, as in `A♠`. -/
def Card.str (card : Card) : String := rankName card.rank ++ card.suit.symbol

theorem Card.ext_rank_suit {left right : Card} (rank : left.rank = right.rank)
    (suit : left.suit = right.suit) : left = right := by
  cases left
  cases right
  simp_all

/-- The 52 cards in the order `Deck.reset` appends them. -/
def Deck.standard : List Card :=
  Suit.all.flatMap fun suit =>
    (List.finRange 13).map fun rank => ⟨rank.val + 2, suit, by omega, by omega⟩

/-- What `random.shuffle` may leave: some permutation of the 52 cards. The top of
the deck, Python's last element, comes first. -/
structure Shuffle where
  cards : List Card
  permuted : cards.Perm Deck.standard

def Shuffle.unshuffled : Shuffle := ⟨Deck.standard, List.Perm.refl _⟩

theorem Shuffle.length_cards (shuffle : Shuffle) : shuffle.cards.length = 52 := by
  rw [shuffle.permuted.length_eq]
  rfl

/-- `Deck.deal_card`: the card popped and the cards that remain. -/
def Deck.dealCard : List Card → Except PyError (Card × List Card)
  | [] => .error (.valueError "Cannot deal from empty deck")
  | card :: rest => .ok (card, rest)

end Holdem
