import Holdem.LogParser
import Holdem.Legality

set_option autoImplicit false

namespace Holdem

def actionMessage (description : String) : List Char := ("ACTION_EXECUTED: " ++ description).toList

def spokenChars : List Char := "Player folded checked called raised to went all-in with".toList

/-- A text of the words of the descriptions and of numbers. -/
def Spoken (text : List Char) : Prop := ∀ char ∈ text, char.isDigit = true ∨ char ∈ spokenChars

instance (text : List Char) : Decidable (Spoken text) :=
  List.decidableBAll (fun char : Char => char.isDigit = true ∨ char ∈ spokenChars) text

namespace Spoken

theorem append {first second : String} (spoken : Spoken first.toList)
    (other : Spoken second.toList) : Spoken (first ++ second).toList := by
  intro char member
  rw [String.toList_append] at member
  rcases List.mem_append.mp member with early | late
  · exact spoken char early
  · exact other char late

theorem nat (number : Nat) : Spoken number.repr.toList := by
  intro char member
  rw [Nat.repr_eq_ofList_toDigits, String.toList_ofList] at member
  exact Or.inl (Nat.isDigit_of_mem_toDigits (by decide) (by decide) member)

theorem int (number : Int) : Spoken (toString number).toList := by
  cases number with
  | ofNat count => exact nat count
  | negSucc count => exact @append "-" _ (by decide) (nat (count + 1))

/-- A character that is in no word is not in the message. -/
theorem not_mem_message {description : String} (spoken : Spoken description.toList) {char : Char}
    (foreign : char.isDigit = false ∧ char ∉ spokenChars ∧ char ∉ "ACTION_EXECUTED: ".toList) :
    char ∉ actionMessage description := by
  unfold actionMessage
  intro member
  rw [String.toList_append] at member
  rcases List.mem_append.mp member with early | late
  · exact foreign.2.2 early
  · rcases spoken char late with digit | word
    · rw [foreign.1] at digit
      cases digit
    · exact foreign.2.1 word

end Spoken

namespace PokerGame

theorem performAction_spoken {game : PokerGame} {player : Player} {playerId amount : Int}
    {action : Action} {done : Performed}
    (performed : game.performAction player playerId action amount = some done) :
    Spoken done.description.toList := by
  have named : Spoken (toString "Player " ++ toString playerId).toList :=
    Spoken.append (by decide) (Spoken.int playerId)
  cases action <;> simp only [performAction] at performed
  case fold =>
    cases performed
    exact named.append (by decide)
  case check =>
    split at performed <;> cases performed
    exact named.append (by decide)
  case call =>
    split at performed
    · cases performed
      exact named.append (by decide)
    · split at performed <;> cases performed
      exact (named.append (by decide)).append (Spoken.int _)
  case raise =>
    split at performed <;> cases performed
    exact (named.append (by decide)).append (Spoken.int _)
  case allIn =>
    split at performed
    · cases performed
    · split at performed <;> cases performed <;>
        exact (named.append (by decide)).append (Spoken.int _)
  case unknown text => cases performed

end PokerGame

/-- The message of an action is dispatched to `_parse_action`. -/
theorem messageBranch_action {description : String} (spoken : Spoken description.toList)
    (logLevel : List Char) :
    messageBranch (actionMessage description) logLevel = .playerAction := by
  have starting : Text.contains "=== STARTING NEW HAND #".toList (actionMessage description) =
      false := Text.contains_eq_false (show '=' ∈ _ by decide) (spoken.not_mem_message (by decide))
  have complete : Text.contains "=== HAND COMPLETE ===".toList (actionMessage description) =
      false := Text.contains_eq_false (show '=' ∈ _ by decide) (spoken.not_mem_message (by decide))
  have changed : Text.contains "Phase changed:".toList (actionMessage description) = false :=
    Text.contains_eq_false (show 'g' ∈ _ by decide) (spoken.not_mem_message (by decide))
  have executed : Text.contains "ACTION_EXECUTED:".toList (actionMessage description) = true := by
    have split : actionMessage description =
        "ACTION_EXECUTED:".toList ++ (' ' :: description.toList) := by
      have opening : "ACTION_EXECUTED: ".toList = "ACTION_EXECUTED:".toList ++ [' '] := by decide
      unfold actionMessage
      rw [String.toList_append, opening, List.append_assoc, List.singleton_append]
    rw [split]
    exact Text.contains_append _ _
  unfold messageBranch
  rw [starting, complete, changed, executed]
  simp only [Bool.false_eq_true, ↓reduceIte]

/-- Every pattern of `_parse_action` wants a name in brackets. -/
theorem actionPatterns_need {Stamp : Type} (lib : PyLib Stamp) :
    ∀ pattern ∈ lib.actionPatterns, pattern.needs '(' = true := by
  simp only [PyLib.actionPatterns, List.forall_mem_cons, List.not_mem_nil, false_implies,
    implies_true, and_true]
  exact ⟨rfl, rfl, rfl, rfl⟩

/-- The viewer makes no event at all of the message of an accepted action, whatever the
action, the state of the game, and the log around it. -/
theorem accepted_action_unparsed {Stamp : Type} (lib : PyLib Stamp) (game next : PokerGame)
    (playerId : Int) (action : Action) (amount : Int)
    (accepted : game.processPlayerAction playerId action amount = (true, next)) :
    ∃ description, next.actionHistory = game.actionHistory ++ [description] ∧
      ∀ currentHand gameState timestamp logLevel following,
        lib.parseMessage currentHand gameState (actionMessage description) timestamp logLevel
          following = (gameState, .ok (currentHand, none)) := by
  rcases game.processPlayerAction_cases playerId action amount with rejected |
    ⟨_, _, done, _, _, _, _, _, performed, _, returned⟩
  · rw [rejected] at accepted
    cases accepted
  · rw [returned] at accepted
    cases accepted
    have spoken := PokerGame.performAction_spoken performed
    refine ⟨done.description, ?_, ?_⟩
    · obtain ⟨seat, complete, frame⟩ :=
        (game.commitAction done playerId action amount).advance_check_frame
      rw [frame]
      rfl
    · intro currentHand gameState timestamp logLevel following
      have unnamed : lib.actionPatterns.findSome?
          (fun pattern => pattern.search (actionMessage done.description)) = none := by
        apply List.findSome?_eq_none_iff.mpr
        intro pattern member
        exact Regex.search_eq_none (actionPatterns_need lib pattern member)
          (spoken.not_mem_message (by decide))
      unfold PyLib.parseMessage
      rw [messageBranch_action spoken]
      dsimp only
      rw [PyLib.parseAction, unnamed]
      rfl

/-- Heads-up the first to act folds. -/
theorem accepted_action_unparsed_fold :
    ∃ game next description,
      Runs.run PokerGame.callStep headsUp.game [.startNewHand .unshuffled] = some game ∧
      game.processPlayerAction 1 .fold 0 = (true, next) ∧
      next.actionHistory = game.actionHistory ++ [description] ∧
      asciiLib.parseMessage (some 1) {} (actionMessage description) "noon".toList "INFO".toList
        [] = ({}, .ok (some 1, none)) := by
  have reached : ∃ game next,
      Runs.run PokerGame.callStep headsUp.game [.startNewHand .unshuffled] = some game ∧
      game.processPlayerAction 1 .fold 0 = (true, next) := ⟨_, _, rfl, rfl⟩
  obtain ⟨game, next, ran, accepted⟩ := reached
  obtain ⟨description, written, unparsed⟩ :=
    accepted_action_unparsed asciiLib game next 1 .fold 0 accepted
  exact ⟨game, next, description, ran, accepted, written, unparsed _ _ _ _ _⟩

/-- The same fold: no event, although the shape of message that the viewer expects would
have been one. -/
theorem fold_message_unparsed :
    (∃ game next, Runs.run PokerGame.callStep headsUp.game [.startNewHand .unshuffled] =
        some game ∧
      game.processPlayerAction 1 .fold 0 = (true, next) ∧
      next.actionHistory.getLast? = some "Player 1 folded") ∧
    asciiLib.parseMessage (some 1) {} (actionMessage "Player 1 folded") "noon".toList
        "INFO".toList [] = ({}, .ok (some 1, none)) ∧
    asciiLib.parseMessage (some 1) {} (actionMessage "Player 1 (Agent1) folds") "noon".toList
        "INFO".toList [] =
      ({}, .ok (some 1, some (.playerAction "noon".toList (some 1) 1 "Agent1".toList
        "folds".toList 0 (actionMessage "Player 1 (Agent1) folds")))) :=
  ⟨⟨_, _, rfl, rfl, rfl⟩, rfl, rfl⟩

end Holdem
