import Holdem.StaleFlag
import Holdem.Legality
import Holdem.Lib.Numeral

set_option autoImplicit false

/- The viewer's state server reads each player's latest action back from the lines of
`action_history`. -/
namespace Holdem

/-- The tests on what follows `Player {id} `; `none` where no test passes or `int`
raises. -/
def decodeRest (alphabet : Numeral.Alphabet) (rest : List Char) : Option (String × Int) :=
  if "folded".toList.isPrefixOf rest then some ("fold", 0)
  else if "checked".toList.isPrefixOf rest then some ("check", 0)
  else if "called".toList.isPrefixOf rest then
    (((rest.splitOn ' ')[1]?).bind (Numeral.parseInt alphabet)).map fun amt => ("call", amt)
  else if "raised to".toList.isPrefixOf rest then
    (((rest.splitOn ' ').getLast?).bind (Numeral.parseInt alphabet)).map fun amt => ("raise", amt)
  else if "went all-in with".toList.isPrefixOf rest then
    (((rest.splitOn ' ').getLast?).bind (Numeral.parseInt alphabet)).map fun amt => ("all_in", amt)
  else none

/-- The body of the loop for one entry; `none` goes on to the entry before. -/
def entryAction (alphabet : Numeral.Alphabet) (playerId : Int) (entry : List Char) :
    Option (String × Int) :=
  if (s!"Player {playerId} ").toList.isPrefixOf entry then
    ((Text.splitAtMost ' ' 2 entry)[2]?).bind (decodeRest alphabet)
  else none

def latestEntry (alphabet : Numeral.Alphabet) (history : List String) (playerId : Int) :
    Option (String × Int) :=
  history.reverse.findSome? fun entry => entryAction alphabet playerId entry.toList

def latestActionForPlayer (alphabet : Numeral.Alphabet) (history : List String)
    (playerId : Int) : String × Int :=
  (latestEntry alphabet history playerId).getD ("", 0)

/-- An action that was accepted, with the amount that it moved. -/
structure Acted where
  playerId : Int
  action : Action
  amount : Int
deriving DecidableEq, Repr

def Acted.shown (acted : Acted) : String × Int := (acted.action.text, acted.amount)

def Acted.latest (log : List Acted) (playerId : Int) : Option Acted :=
  (log.filter fun acted => acted.playerId == playerId).getLast?

namespace PokerGame

/-- An accepted action told from the player before and after it: a call with nothing to
call is a check, a raise counts the total raised to, a call and an all-in the chips that
leave the stack. -/
def actedBetween (game : PokerGame) (playerId : Int) (action : Action) (before after : Player) :
    Option Acted :=
  match action with
  | .fold => some ⟨playerId, .fold, 0⟩
  | .check => some ⟨playerId, .check, 0⟩
  | .call =>
      if game.currentBet ≤ before.currentBet then some ⟨playerId, .check, 0⟩
      else some ⟨playerId, .call, before.chips - after.chips⟩
  | .raise => some ⟨playerId, .raise, after.currentBet⟩
  | .allIn => some ⟨playerId, .allIn, before.chips - after.chips⟩
  | .unknown _ => none

def acted (game : PokerGame) : Request → Option Acted
  | .call (.processPlayerAction playerId action amount) =>
      let done := game.processPlayerAction playerId action amount
      if done.1 then
        match game.getPlayer playerId, done.2.getPlayer playerId with
        | some before, some after => game.actedBetween playerId action before after
        | _, _ => none
      else none
  | _ => none

def afterAll (game : PokerGame) (requests : List Request) : PokerGame :=
  requests.foldl (fun state request => (state.serve request).2) game

def actedLog : PokerGame → List Request → List Acted
  | _, [] => []
  | game, request :: rest => (game.acted request).toList ++ (game.serve request).2.actedLog rest

end PokerGame

variable {alphabet : Numeral.Alphabet}

/-! ### Reading a line -/

theorem space_not_mem_toString (number : Int) : ' ' ∉ (toString number).toList := by
  intro member
  rcases Numeral.mem_toString member with digit | minus
  · cases digit
  · cases minus

/-- A line about a player is read for that player alone, whatever the other ids are. -/
theorem entryAction_line (playerId other : Int) (rest : List Char) :
    entryAction alphabet playerId ((s!"Player {other} ").toList ++ rest) =
      if playerId = other then decodeRest alphabet rest else none := by
  have named : ∀ number : Int, (s!"Player {number} ").toList =
      "Player".toList ++ ' ' :: ((toString number).toList ++ [' ']) := by
    intro number
    show (toString "Player " ++ toString number ++ toString " ").toList = _
    rw [String.toList_append, String.toList_append, List.append_assoc]
    rfl
  unfold entryAction
  rw [named playerId, named other]
  by_cases same : playerId = other
  · rw [if_pos same, same, if_pos (List.isPrefixOf_iff_prefix.mpr (List.prefix_append ..))]
    have cut : Text.splitAtMost ' ' 2
        ("Player".toList ++ ' ' :: ((toString other).toList ++ [' ']) ++ rest) =
        ["Player".toList, (toString other).toList, rest] := by
      have regrouped : "Player".toList ++ ' ' :: ((toString other).toList ++ [' ']) ++ rest =
          "Player".toList ++ ' ' :: ((toString other).toList ++ ' ' :: rest) := by simp
      rw [regrouped, Text.splitAtMost_piece (by decide),
        Text.splitAtMost_piece (space_not_mem_toString other)]
      rfl
    rw [cut]
    rfl
  · rw [if_neg same, if_neg]
    intro begins
    have begins := List.isPrefixOf_iff_prefix.mp begins
    rw [List.append_assoc, List.prefix_append_right_inj, List.cons_append,
      List.cons_prefix_cons, List.append_assoc] at begins
    have spelt := Text.piece_unique (space_not_mem_toString playerId)
      (space_not_mem_toString other) begins.2
    exact same (Numeral.toString_inj spelt)

/-- A line that says nothing about anybody's actions. -/
def Silent (alphabet : Numeral.Alphabet) (line : String) : Prop :=
  ∀ playerId, entryAction alphabet playerId line.toList = none

def Foreign (line : String) : Prop := ∃ char rest, line.toList = char :: rest ∧ char ≠ 'P'

theorem Foreign.append {first : String} (foreign : Foreign first) (second : String) :
    Foreign (first ++ second) := by
  obtain ⟨char, rest, spelt, other⟩ := foreign
  exact ⟨char, rest ++ second.toList, by rw [String.toList_append, spelt, List.cons_append], other⟩

theorem Foreign.silent {line : String} (foreign : Foreign line) : Silent alphabet line := by
  obtain ⟨char, rest, spelt, other⟩ := foreign
  intro playerId
  unfold entryAction
  rw [if_neg]
  intro begins
  obtain ⟨more, same⟩ := List.isPrefixOf_iff_prefix.mp begins
  have headed : (s!"Player {playerId} ").toList =
      'P' :: ("layer " ++ toString playerId ++ " ").toList := by
    show (toString "Player " ++ toString playerId ++ toString " ").toList = _
    rw [String.toList_append, String.toList_append, String.toList_append, String.toList_append]
    rfl
  rw [spelt, headed] at same
  exact other (List.cons.inj same).1.symm

theorem silent_blind (seat : Nat) (name : String) (paid : Int) :
    Silent alphabet s!"Player {seat} posted {name} {paid}" := by
  intro playerId
  have spelt : (s!"Player {seat} posted {name} {paid}").toList =
      (s!"Player {(seat : Int)} ").toList ++
        ("posted " ++ name ++ " " ++ toString paid).toList := by
    show (toString "Player " ++ toString seat ++ toString " posted " ++ toString name ++
      toString " " ++ toString paid).toList =
        (toString "Player " ++ toString (seat : Int) ++ toString " ").toList ++ _
    simp only [String.toList_append, List.append_assoc]
    rfl
  rw [spelt, entryAction_line]
  split
  · simp only [String.toList_append, List.append_assoc]
    rfl
  · rfl

theorem latestEntry_append (first second : List String) (playerId : Int) :
    latestEntry alphabet (first ++ second) playerId =
      (latestEntry alphabet second playerId).or (latestEntry alphabet first playerId) := by
  unfold latestEntry
  rw [List.reverse_append, List.findSome?_append]

theorem latestEntry_single (line : String) (playerId : Int) :
    latestEntry alphabet [line] playerId = entryAction alphabet playerId line.toList := by
  unfold latestEntry
  rw [List.reverse_singleton, List.findSome?_singleton]

theorem latestEntry_silent {lines : List String} (silent : ∀ line ∈ lines, Silent alphabet line)
    (playerId : Int) : latestEntry alphabet lines playerId = none := by
  unfold latestEntry
  apply List.findSome?_eq_none_iff.mpr
  intro line member
  exact silent line (List.mem_reverse.mp member) playerId

theorem Acted.latest_append (first second : List Acted) (playerId : Int) :
    Acted.latest (first ++ second) playerId =
      (Acted.latest second playerId).or (Acted.latest first playerId) := by
  unfold Acted.latest
  rw [List.filter_append, List.getLast?_append]

/-! ### Reading an action's own line -/

theorem last_piece (front : List Char) (number : Int) :
    ((front ++ [' '] ++ (toString number).toList).splitOn ' ').getLast? =
      some (toString number).toList := by
  rw [List.append_assoc, List.singleton_append, List.splitOn_append_cons_self,
    List.splitOn_eq_singleton (space_not_mem_toString number), List.getLast?_concat]

theorem decodeRest_number {words name : String} (number : Int)
    (known : (words, name) ∈ [("called ", "call"), ("raised to ", "raise"),
      ("went all-in with ", "all_in")]) :
    decodeRest alphabet (words.toList ++ (toString number).toList) = some (name, number) := by
  have read : ((some (toString number).toList).bind (Numeral.parseInt alphabet)).map
      (fun amt => (name, amt)) = some (name, number) := by
    rw [Option.bind_some, Numeral.parseInt_toString]
    rfl
  have opens : ∀ front : List Char,
      front.isPrefixOf (front ++ [' '] ++ (toString number).toList) = true := by
    intro front
    rw [List.append_assoc, List.isPrefixOf_iff_prefix]
    exact List.prefix_append _ _
  simp only [List.mem_cons, Prod.mk.injEq, List.not_mem_nil, or_false] at known
  unfold decodeRest
  rcases known with ⟨rfl, rfl⟩ | ⟨rfl, rfl⟩ | ⟨rfl, rfl⟩
  · have pieces : ("called".toList ++ [' '] ++ (toString number).toList).splitOn ' ' =
        ["called".toList, (toString number).toList] := by
      rw [List.append_assoc, List.singleton_append,
        List.splitOn_append_cons_self_of_not_mem (by decide),
        List.splitOn_eq_singleton (space_not_mem_toString number)]
    rw [show "called ".toList = "called".toList ++ [' '] by decide, if_neg nofun, if_neg nofun,
      if_pos (opens _), pieces]
    exact read
  · rw [show "raised to ".toList = "raised to".toList ++ [' '] by decide, if_neg nofun,
      if_neg nofun, if_neg nofun, if_pos (opens _), last_piece]
    exact read
  · rw [show "went all-in with ".toList = "went all-in with".toList ++ [' '] by decide,
      if_neg nofun, if_neg nofun, if_neg nofun, if_neg nofun, if_pos (opens _), last_piece]
    exact read

namespace PokerGame

variable {game : PokerGame}

theorem bet_paid (player : Player) (amount : Int) :
    player.chips - (player.bet amount).2.chips = (player.bet amount).1 := by
  unfold Player.bet
  split
  · exact Int.sub_self _
  · dsimp only
    omega

/-- An accepted action is described by a line about the player from which it is read back. -/
theorem performAction_shown {player : Player} {playerId amount : Int} {action : Action}
    {done : Performed}
    (performed : game.performAction player playerId action amount = some done) :
    ∃ acted words, game.actedBetween playerId action player done.player = some acted ∧
      acted.playerId = playerId ∧
      done.description.toList = (s!"Player {playerId} ").toList ++ words ∧
      decodeRest alphabet words = some acted.shown := by
  have line : ∀ words : String, (toString "Player " ++ toString playerId ++
      toString (" " ++ words)).toList = (s!"Player {playerId} ").toList ++ words.toList := by
    intro words
    show ("Player " ++ toString playerId ++ (" " ++ words)).toList =
      ("Player " ++ toString playerId ++ " ").toList ++ words.toList
    simp only [String.toList_append, List.append_assoc]
  have counted : ∀ (words : String) (number : Int), (toString "Player " ++ toString playerId ++
      toString (" " ++ words) ++ toString number).toList =
        (s!"Player {playerId} ").toList ++ (words.toList ++ (toString number).toList) := by
    intro words number
    rw [String.toList_append, line, List.append_assoc]
  cases action with
  | fold =>
      cases performed
      exact ⟨_, _, rfl, rfl, line "folded", rfl⟩
  | check =>
      simp only [performAction] at performed
      split at performed
      · cases performed
      · cases performed
        exact ⟨_, _, rfl, rfl, line "checked", rfl⟩
  | call =>
      simp only [performAction] at performed
      split at performed
      · rename_i matched
        cases performed
        refine ⟨⟨playerId, .check, 0⟩, _, ?_, rfl, line "checked", rfl⟩
        exact if_pos (by omega)
      · rename_i behind
        split at performed
        · cases performed
        · cases performed
          refine ⟨⟨playerId, .call, _⟩, _, ?_, rfl, counted "called " _,
            decodeRest_number _ (by simp [Action.text])⟩
          have taken := bet_paid player (game.currentBet - player.currentBet)
          rw [actedBetween, if_neg (by omega), taken]
  | raise =>
      simp only [performAction] at performed
      split at performed
      · cases performed
      · cases performed
        exact ⟨_, _, rfl, rfl, counted "raised to " _,
          decodeRest_number _ (by simp [Action.text])⟩
  | allIn =>
      simp only [performAction] at performed
      split at performed
      · cases performed
      · have taken := bet_paid player player.chips
        split at performed
        · cases performed
          refine ⟨⟨playerId, .allIn, _⟩, _, ?_, rfl, counted "went all-in with " _,
            decodeRest_number _ (by simp [Action.text])⟩
          rw [actedBetween, taken]
        · cases performed
          refine ⟨⟨playerId, .allIn, _⟩, _, ?_, rfl, counted "went all-in with " _,
            decodeRest_number _ (by simp [Action.text])⟩
          rw [actedBetween, taken]
  | unknown text => cases performed

theorem settle_frame (game : PokerGame) :
    game.advanceToNextPlayer.checkBettingRoundComplete.actionHistory = game.actionHistory ∧
      game.advanceToNextPlayer.checkBettingRoundComplete.players = game.players := by
  obtain ⟨seat, complete, frame⟩ := game.advance_check_frame
  rw [frame]
  exact ⟨rfl, rfl⟩

theorem getPlayer_putPlayer {players : List Player} {playerId : Int} {before after : Player}
    (found : players.find? (fun other => other.id == playerId) = some before)
    (same : after.id = playerId) :
    (putPlayer players after).find? (fun other => other.id == playerId) = some after := by
  induction players with
  | nil => cases found
  | cons other rest ih =>
      unfold putPlayer
      by_cases here : other.id = after.id
      · rw [if_pos here, List.find?_cons, same, beq_self_eq_true]
      · have elsewhere : (other.id == playerId) = false := by
          rw [beq_eq_false_iff_ne, ← same]
          exact here
        rw [if_neg here, List.find?_cons, elsewhere]
        rw [List.find?_cons, elsewhere] at found
        exact ih found

/-- The lines of one request tell the action it performed and nothing else. -/
def Tells (alphabet : Numeral.Alphabet) (before after : PokerGame) (performed : List Acted) :
    Prop :=
  ∃ lines, after.actionHistory = before.actionHistory ++ lines ∧
    ∀ playerId, latestEntry alphabet lines playerId =
      (Acted.latest performed playerId).map Acted.shown

theorem tells_of_silent {before after : PokerGame} {lines : List String}
    (written : after.actionHistory = before.actionHistory ++ lines)
    (silent : ∀ line ∈ lines, Silent alphabet line) : Tells alphabet before after [] :=
  ⟨lines, written, fun playerId => latestEntry_silent silent playerId⟩

theorem tells_of_same {before after : PokerGame}
    (written : after.actionHistory = before.actionHistory) : Tells alphabet before after [] :=
  ⟨[], by rw [written, List.append_nil], fun _ => rfl⟩

/-- A processed action leaves one line, from which it is read back for its player. -/
theorem processPlayerAction_tells (playerId : Int) (action : Action) (amount : Int) :
    Tells alphabet game (game.processPlayerAction playerId action amount).2
      (game.acted (.call (.processPlayerAction playerId action amount))).toList := by
  rcases game.processPlayerAction_cases playerId action amount with rejected |
    ⟨seat, player, done, _, id, _, _, found, performed, _, accepted⟩
  · have nothing : game.acted (.call (.processPlayerAction playerId action amount)) = none := by
      unfold acted
      dsimp only
      rw [rejected]
      rfl
    rw [nothing, rejected]
    exact tells_of_same rfl
  · obtain ⟨history, players⟩ :=
      settle_frame (game.commitAction done playerId action amount)
    obtain ⟨acted, words, between, whose, spelt, read⟩ :=
      @performAction_shown alphabet _ _ _ _ _ _ performed
    have after : ((game.commitAction done playerId action amount).advanceToNextPlayer
        |>.checkBettingRoundComplete).getPlayer playerId = some done.player := by
      unfold getPlayer
      rw [players]
      exact getPlayer_putPlayer found ((performAction_keeps performed).1.trans id)
    have told : game.acted (.call (.processPlayerAction playerId action amount)) =
        some acted := by
      unfold PokerGame.acted
      dsimp only
      rw [accepted, if_pos rfl, found, after]
      exact between
    rw [told, accepted]
    refine ⟨[done.description], history, ?_⟩
    intro asked
    rw [latestEntry_single, spelt, entryAction_line, read]
    rw [Acted.latest, Option.toList_some]
    by_cases same : asked = playerId
    · rw [if_pos same, List.filter_cons_of_pos (by rw [whose, same, beq_self_eq_true])]
      rfl
    · rw [if_neg same, List.filter_cons_of_neg (by rw [whose, beq_iff_eq]; exact Ne.symm same)]
      rfl

/-- The blinds are the only lines that opening a hand writes. -/
theorem postBlinds_tells : Tells alphabet game game.postBlinds [] := by
  have blind : ∀ (table : PokerGame) (seat : Nat) (amount : Int) (mark : Player → Player)
      (name kind : String), ∃ lines,
        (table.postBlind seat amount mark name kind).2.actionHistory =
          table.actionHistory ++ lines ∧ ∀ line ∈ lines, Silent alphabet line := by
    intro table seat amount mark name kind
    unfold postBlind
    cases table.players[seat]? with
    | none => exact ⟨[], (List.append_nil _).symm, nofun⟩
    | some player =>
        refine ⟨_, rfl, ?_⟩
        intro line member
        rw [List.mem_singleton.mp member]
        exact silent_blind seat name _
  unfold postBlinds
  split
  · exact tells_of_same rfl
  · obtain ⟨first, small, quiet⟩ := blind game game.blindSeats.1 game.smallBlind
      (fun player => { player with isSmallBlind := true }) "small blind" "small_blind"
    obtain ⟨second, big, still⟩ := blind
      (game.postBlind game.blindSeats.1 game.smallBlind
        (fun player => { player with isSmallBlind := true }) "small blind" "small_blind").2
      game.blindSeats.2 game.bigBlind
      (fun player => { player with isBigBlind := true }) "big blind" "big_blind"
    apply @tells_of_silent alphabet game _ (first ++ second)
    · rw [← List.append_assoc, ← small]
      exact big
    · intro line member
      rcases List.mem_append.mp member with early | late
      · exact quiet line early
      · exact still line late

theorem Tells.of_history {before after last : PokerGame} {performed : List Acted}
    (tells : Tells alphabet before after performed)
    (same : last.actionHistory = after.actionHistory) : Tells alphabet before last performed := by
  obtain ⟨lines, written, read⟩ := tells
  exact ⟨lines, same.trans written, read⟩

theorem holeCardsUntil_history (game : PokerGame) :
    game.holeCardsUntil.actionHistory = game.actionHistory := rfl

theorem startNewHand_tells (shuffle : Shuffle) :
    Tells alphabet game (game.serve (.call (.startNewHand shuffle))).2 [] := by
  have opened : Tells alphabet game (game.resetForHand shuffle).moveDealerButton.postBlinds [] := by
    have same : (game.resetForHand shuffle).moveDealerButton.actionHistory =
        game.actionHistory := by
      unfold moveDealerButton
      dsimp only
      split <;> rfl
    obtain ⟨lines, written, read⟩ :=
      @postBlinds_tells alphabet (game.resetForHand shuffle).moveDealerButton
    exact ⟨lines, by rw [written, same], read⟩
  unfold serve
  dsimp only [perform, startNewHand]
  split
  · rename_i result next returned
    split at returned
    · cases returned
      exact tells_of_same rfl
    · split at returned
      · cases returned
      · rename_i dealt dealing
        cases returned
        apply opened.of_history
        have same : dealt.actionHistory =
            (game.resetForHand shuffle).moveDealerButton.postBlinds.actionHistory := by
          unfold dealHoleCards at dealing
          split at dealing
          · cases dealing
          · split at dealing
            · cases dealing
            · cases dealing
              rfl
        rw [← same]
        unfold recordHand setFirstActorPreflop
        dsimp only
        split
        · rfl
        · split
          · rfl
          · split <;> rfl
  · exact opened.of_history (holeCardsUntil_history _)

theorem dealStreet_tells {dealt : PokerGame} {count : Nat} {phase : GamePhase}
    {describe : List Card → String} (silent : ∀ board, Silent alphabet (describe board))
    (returned : game.dealStreet count phase describe = .ok dealt) :
    Tells alphabet game dealt [] := by
  unfold dealStreet at returned
  split at returned
  · cases returned
  · split at returned
    · cases returned
    · rename_i drawn _ _
      cases returned
      refine tells_of_silent rfl ?_
      intro line member
      rw [List.mem_singleton.mp member]
      exact silent _

theorem startNewBettingRound_history (game : PokerGame) :
    game.startNewBettingRound.actionHistory = game.actionHistory := by
  obtain ⟨seat, complete, frame, _⟩ := game.startNewBettingRound_spec
  rw [frame]

theorem advanceToNextPhase_tells {moved : Bool × PokerGame}
    (returned : game.advanceToNextPhase = .ok moved) : Tells alphabet game moved.2 [] := by
  have street : ∀ (opening : PokerGame) (count : Nat) (phase : GamePhase)
      (describe : List Card → String),
      (opening.dealStreet count phase describe).map
        (fun dealt => (true, startNewBettingRound dealt)) = .ok moved →
      opening.actionHistory = game.actionHistory → (∀ board, Silent alphabet (describe board)) →
      Tells alphabet game moved.2 [] := by
    intro opening count phase describe opened same silent
    cases dealing : opening.dealStreet count phase describe with
    | error raised =>
        rw [dealing] at opened
        cases opened
    | ok dealt =>
        rw [dealing] at opened
        cases opened
        obtain ⟨lines, written, read⟩ := dealStreet_tells silent dealing
        exact ⟨lines, by rw [startNewBettingRound_history, written, same], read⟩
  unfold advanceToNextPhase at returned
  split at returned
  · cases returned
    exact tells_of_same rfl
  · split at returned
    · cases returned
      exact tells_of_same rfl
    · unfold changePhase at returned
      split at returned
      · have flop : Foreign "Flop dealt: " := ⟨_, _, rfl, by decide⟩
        exact street _ _ _ _ returned rfl fun _ => (flop.append _).silent
      · have turn : Foreign "Turn dealt: " := ⟨_, _, rfl, by decide⟩
        exact street _ _ _ _ returned rfl fun _ => (turn.append _).silent
      · have river : Foreign "River dealt: " := ⟨_, _, rfl, by decide⟩
        exact street _ _ _ _ returned rfl fun _ => (river.append _).silent
      · cases returned
        exact tells_of_same rfl
      · cases returned
        exact tells_of_same rfl
      · cases returned
        exact tells_of_same rfl

theorem layerLine_foreign (layerIdx : Nat) (amount : Int) (winnerIds : List Int)
    (bestHand : Option HandResult) : Foreign (layerLine layerIdx amount winnerIds bestHand) := by
  have layered : Foreign "Side pot layer " := ⟨_, _, rfl, by decide⟩
  unfold layerLine
  apply Foreign.append
  apply Foreign.append
  apply Foreign.append
  apply Foreign.append
  exact (layered.append _).append _

theorem distributeLayers_silent (handsById : List (Int × HandResult)) (showdownIds : List Int)
    (layers : List PotLayer) :
    ∀ line ∈ (distributeLayers handsById showdownIds layers).lines, Silent alphabet line := by
  have keeps : ∀ (layers : List PotLayer) (state : Distribution),
      (∀ line ∈ state.lines, Silent alphabet line) →
      ∀ line ∈ (layers.foldl (distributeLayer handsById showdownIds) state).lines,
        Silent alphabet line := by
    intro layers
    induction layers with
    | nil => exact fun _ silent => silent
    | cons layer rest ih =>
        intro state silent
        apply ih
        unfold distributeLayer
        dsimp only
        split
        · exact silent
        · intro line member
          rcases List.mem_append.mp member with early | late
          · exact silent line early
          · rw [List.mem_singleton.mp late]
            exact (layerLine_foreign _ _ _ _).silent
  exact keeps layers _ nofun

theorem conductShowdown_tells {settled : PokerGame × ShowdownResult}
    (returned : game.conductShowdown = .ok settled) : Tells alphabet game settled.1 [] := by
  unfold conductShowdown at returned
  split at returned
  · cases returned
    refine tells_of_silent rfl ?_
    intro line member
    rw [List.mem_singleton.mp member]
    exact Foreign.silent ⟨_, _, rfl, by decide⟩
  · cases returned
    refine tells_of_silent rfl ?_
    intro line member
    rw [List.mem_singleton.mp member]
    have won : Foreign "Showdown: Player " := ⟨_, _, rfl, by decide⟩
    exact (((won.append _).append _).append _).silent
  · split at returned
    · cases returned
    · rename_i hands _
      cases returned
      refine tells_of_silent (List.append_assoc ..) ?_
      intro line member
      rcases List.mem_append.mp member with shown | layer
      · obtain ⟨hand, _, rfl⟩ := List.mem_map.mp shown
        have held : Foreign "Showdown: Player " := ⟨_, _, rfl, by decide⟩
        exact (((((held.append _).append _).append _).append _).append _).silent
      · exact distributeLayers_silent _ _ _ line layer

/-- Every request writes lines that tell the action it performed and nothing else. -/
theorem serve_tells (request : Request) :
    Tells alphabet game (game.serve request).2 (game.acted request).toList := by
  cases request with
  | getLlmGameState playerId =>
      unfold serve
      dsimp only
      split <;> exact tells_of_same rfl
  | call call =>
      cases call with
      | startNewHand shuffle => exact startNewHand_tells shuffle
      | processPlayerAction playerId action amount =>
          exact processPlayerAction_tells playerId action amount
      | advanceToNextPlayer =>
          apply tells_of_same
          show game.advanceToNextPlayer.actionHistory = game.actionHistory
          unfold advanceToNextPlayer
          dsimp only
          split <;> rfl
      | advanceToNextPhase =>
          unfold serve
          dsimp only [perform]
          cases returned : game.advanceToNextPhase with
          | error raised => exact tells_of_same rfl
          | ok moved => exact advanceToNextPhase_tells returned
      | conductShowdown =>
          unfold serve
          dsimp only [perform]
          cases returned : game.conductShowdown with
          | error raised => exact tells_of_same rfl
          | ok settled => exact conductShowdown_tells returned

theorem afterAll_tells (requests : List Request) :
    Tells alphabet game (game.afterAll requests) (game.actedLog requests) := by
  induction requests generalizing game with
  | nil => exact tells_of_same rfl
  | cons request rest ih =>
      obtain ⟨first, here, now⟩ := @serve_tells alphabet game request
      obtain ⟨second, there, later⟩ := @ih (game.serve request).2
      refine ⟨first ++ second, ?_, ?_⟩
      · rw [← List.append_assoc, ← here]
        exact there
      · intro playerId
        rw [latestEntry_append, later, now, actedLog, Acted.latest_append, Option.map_or]

theorem actedBetween_named {playerId : Int} {action : Action} {before after : Player}
    {acted : Acted} (told : game.actedBetween playerId action before after = some acted) :
    acted.action.text ≠ "" := by
  unfold actedBetween at told
  split at told
  · cases told
    exact (by decide : "fold" ≠ "")
  · cases told
    exact (by decide : "check" ≠ "")
  · split at told
    · cases told
      exact (by decide : "check" ≠ "")
    · cases told
      exact (by decide : "call" ≠ "")
  · cases told
    exact (by decide : "raise" ≠ "")
  · cases told
    exact (by decide : "all_in" ≠ "")
  · cases told

/-- Every action performed has a name to be shown under. -/
theorem actedLog_named (requests : List Request) :
    ∀ acted ∈ game.actedLog requests, acted.action.text ≠ "" := by
  induction requests generalizing game with
  | nil => exact nofun
  | cons request rest ih =>
      intro entry member
      rcases List.mem_append.mp member with here | later
      · have told := Option.mem_toList.mp here
        unfold acted at told
        split at told
        · dsimp only at told
          split at told
          · split at told
            · exact actedBetween_named told
            · cases told
          · cases told
        · cases told
      · exact ih entry later

/-- After any requests from a game with no history, the latest action that the viewer reads
for a player is the last one that was accepted from that player, and it reads none exactly
when there was none. -/
theorem latest_action_exact (alphabet : Numeral.Alphabet) (fresh : game.actionHistory = [])
    (requests : List Request) (playerId : Int) :
    latestActionForPlayer alphabet (game.afterAll requests).actionHistory playerId =
        ((Acted.latest (game.actedLog requests) playerId).map Acted.shown).getD ("", 0) ∧
      (latestActionForPlayer alphabet (game.afterAll requests).actionHistory playerId = ("", 0) ↔
        ∀ acted ∈ game.actedLog requests, acted.playerId ≠ playerId) := by
  obtain ⟨lines, written, read⟩ := @afterAll_tells alphabet game requests
  have reads : latestActionForPlayer alphabet (game.afterAll requests).actionHistory playerId =
      ((Acted.latest (game.actedLog requests) playerId).map Acted.shown).getD ("", 0) := by
    unfold latestActionForPlayer
    rw [written, fresh, List.nil_append, read]
  refine ⟨reads, ?_⟩
  rw [reads]
  cases found : Acted.latest (game.actedLog requests) playerId with
  | none =>
      refine ⟨?_, fun _ => rfl⟩
      intro _ acted member same
      have empty := List.getLast?_eq_none_iff.mp found
      have kept : acted ∈ (game.actedLog requests).filter fun acted => acted.playerId == playerId :=
        List.mem_filter.mpr ⟨member, by rw [same, beq_self_eq_true]⟩
      rw [empty] at kept
      cases kept
  | some acted =>
      constructor
      · intro unread
        have member := (List.mem_filter.mp (List.mem_of_getLast? found)).1
        exact absurd (congrArg Prod.fst unread) (actedLog_named requests acted member)
      · intro none
        have member := List.mem_of_getLast? found
        have kept := List.mem_filter.mp member
        exact absurd (by simpa using kept.2) (none acted kept.1)

def twoHands : List Request :=
  [.call (.startNewHand .unshuffled), .call (.processPlayerAction 1 .raise 10),
    .call (.processPlayerAction 0 .fold 0), .call .conductShowdown,
    .call (.startNewHand .unshuffled), .call (.processPlayerAction 0 .allIn 0)]

theorem latest_action_exact_two_hands :
    latestActionForPlayer .ascii (headsUp.game.afterAll twoHands).actionHistory 1 =
        ("raise", 30) ∧
      latestActionForPlayer .ascii (headsUp.game.afterAll twoHands).actionHistory 10 = ("", 0) := by
  refine ⟨?_, ?_⟩
  · rw [(@latest_action_exact headsUp.game .ascii rfl twoHands 1).1]
    decide
  · rw [(@latest_action_exact headsUp.game .ascii rfl twoHands 10).1]
    decide

end PokerGame

end Holdem
