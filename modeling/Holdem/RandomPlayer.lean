import Holdem.Legality
import Holdem.View
import Holdem.Lib.Numeral
import Holdem.Lib.Weighted

set_option autoImplicit false

namespace Holdem

/-- `RandomPlayer.action_weights`. -/
structure ActionWeights where
  fold : Nat
  checkCall : Nat
  raise : Nat
  allIn : Nat

/-- What a decision of a random player draws: a factor for the raise at each place of the
list, and the point of `random.choices` on the weights. -/
structure Draws where
  randint : Nat → Fin 3
  point : Nat

/-- `int` of a piece of a text, or the exception where there is no such piece. -/
def readAmount (alphabet : Numeral.Alphabet) (piece : Option (List Char)) : Except PyError Int :=
  match piece with
  | none => .error (.indexError "list index out of range")
  | some text =>
      match Numeral.parseInt alphabet text with
      | none =>
          .error (.valueError ("invalid literal for int() with base 10: '" ++
            String.ofList text ++ "'"))
      | some amount => .ok amount

namespace RandomPlayer

def actionWeights : ActionWeights := ⟨30, 50, 15, 5⟩

/-- `int(action.split("(")[1].split(")")[0])`. -/
def callAmount (alphabet : Numeral.Alphabet) (action : List Char) : Except PyError Int :=
  readAmount alphabet ((Text.secondPiece ['('] action).map (Text.firstPiece [')']))

/-- `int(action.split("min ")[1].split(")")[0])`. -/
def raiseMinimum (alphabet : Numeral.Alphabet) (action : List Char) : Except PyError Int :=
  readAmount alphabet ((Text.secondPiece ['m', 'i', 'n', ' '] action).map
    (Text.firstPiece [')']))

/-- What one entry of the list adds to the options: a decision with its weight, or nothing
for a text of another kind. -/
def option (alphabet : Numeral.Alphabet) (chips : Int) (factor : Fin 3) (action : String) :
    Except PyError (Option (Decision × Nat)) :=
  if action = "fold" then .ok (some (⟨.fold, 0⟩, actionWeights.fold))
  else if "check".toList.isPrefixOf action.toList then
    .ok (some (⟨.check, 0⟩, actionWeights.checkCall))
  else if "call".toList.isPrefixOf action.toList then
    (callAmount alphabet action.toList).map fun amount =>
      some (⟨.call, amount⟩, actionWeights.checkCall)
  else if "raise".toList.isPrefixOf action.toList then
    (raiseMinimum alphabet action.toList).map fun amount =>
      some (⟨.raise, min (amount * (factor.val + 1)) chips⟩, actionWeights.raise)
  else if "all-in".toList.isPrefixOf action.toList then
    .ok (some (⟨.allIn, chips⟩, actionWeights.allIn))
  else .ok none

/-- The loop over the available actions, from a place of the list on. -/
def options (alphabet : Numeral.Alphabet) (chips : Int) (draws : Draws) :
    Nat → List String → Except PyError (List (Decision × Nat))
  | _, [] => .ok []
  | place, action :: rest =>
      match option alphabet chips (draws.randint place) action with
      | .error raised => .error raised
      | .ok entry =>
          match options alphabet chips draws (place + 1) rest with
          | .error raised => .error raised
          | .ok entries => .ok (entry.toList ++ entries)

/-- `RandomPlayer.make_decision`, for a player with a number of chips. -/
def makeDecision (alphabet : Numeral.Alphabet) (chips : Int) (gameState : GameState)
    (draws : Draws) : Except PyError Decision :=
  if gameState.actions.isEmpty then .ok ⟨.fold, 0⟩
  else
    match options alphabet chips draws 0 gameState.actions with
    | .error raised => .error raised
    | .ok entries =>
        match Weighted.pick entries draws.point with
        | none => .error (.indexError "list index out of range")
        | some decision => .ok decision

/-! ### The texts of the entries are read back -/

def answer (chips : Int) (factor : Fin 3) : AvailableAction → Decision × Nat
  | .fold => (⟨.fold, 0⟩, actionWeights.fold)
  | .check => (⟨.check, 0⟩, actionWeights.checkCall)
  | .call toCall => (⟨.call, toCall⟩, actionWeights.checkCall)
  | .raise minimum => (⟨.raise, min (minimum * (factor.val + 1)) chips⟩, actionWeights.raise)
  | .allIn _ => (⟨.allIn, chips⟩, actionWeights.allIn)

variable {alphabet : Numeral.Alphabet}

theorem firstPiece_toString (number : Int) :
    Text.firstPiece [')'] ((toString number).toList ++ [')']) = (toString number).toList := by
  have absent : ')' ∉ (toString number).toList := by
    intro member
    rcases Numeral.mem_toString member with digit | minus
    · cases digit
    · cases minus
  have cut : Text.cut [')'] ((toString number).toList ++ [')'] ++ []) =
      some ((toString number).toList, []) := Text.cut_append absent []
  rw [List.append_nil] at cut
  unfold Text.firstPiece
  rw [cut]

theorem text_call (toCall : Int) :
    (AvailableAction.text (.call toCall)).toList =
      "call ".toList ++ ['('] ++ ((toString toCall).toList ++ [')']) := by
  change (toString "call (" ++ toString toCall ++ toString ")").toList = _
  rw [String.toList_append, String.toList_append, List.append_assoc]
  rfl

theorem text_raise (minimum : Int) :
    (AvailableAction.text (.raise minimum)).toList =
      "raise (".toList ++ ['m', 'i', 'n', ' '] ++ ((toString minimum).toList ++ [')']) := by
  change (toString "raise (min " ++ toString minimum ++ toString ")").toList = _
  rw [String.toList_append, String.toList_append, List.append_assoc]
  rfl

theorem text_allIn (chips : Int) :
    (AvailableAction.text (.allIn chips)).toList =
      "all-in".toList ++ " (".toList ++ ((toString chips).toList ++ [')']) := by
  change (toString "all-in (" ++ toString chips ++ toString ")").toList = _
  rw [String.toList_append, String.toList_append, List.append_assoc]
  rfl

/-- Behind a mark that a number follows, the piece up to the bracket is read as the number. -/
theorem readAmount_behind {head : Char} {mark before : List Char} {number : Int}
    (absent : head ∉ before) (apart : head ∉ (toString number).toList ++ [')']) :
    readAmount alphabet ((Text.secondPiece (head :: mark)
        (before ++ (head :: mark) ++ ((toString number).toList ++ [')']))).map
      (Text.firstPiece [')'])) = .ok number := by
  have second : Text.secondPiece (head :: mark)
      (before ++ (head :: mark) ++ ((toString number).toList ++ [')'])) =
        some ((toString number).toList ++ [')']) := by
    unfold Text.secondPiece
    rw [Text.cut_append absent]
    simp only [Option.map_some, Text.firstPiece, Text.cut_eq_none apart]
  rw [second, Option.map_some, firstPiece_toString]
  unfold readAmount
  dsimp only
  rw [Numeral.parseInt_toString]

theorem not_mem_number {char : Char} (number : Int) (letter : char.isDigit = false)
    (minus : char ≠ '-') (bracket : char ≠ ')') : char ∉ (toString number).toList ++ [')'] := by
  intro member
  rcases List.mem_append.mp member with spelt | closing
  · rcases Numeral.mem_toString spelt with digit | sign
    · rw [letter] at digit
      cases digit
    · exact minus sign
  · exact bracket (List.mem_singleton.mp closing)

/-- Every listed text is understood as the entry it stands for. -/
theorem option_text (chips : Int) (factor : Fin 3) (entry : AvailableAction) :
    option alphabet chips factor entry.text = .ok (some (answer chips factor entry)) := by
  have apart : ∀ {text word : String}, text.toList ≠ word.toList → text ≠ word := by
    rintro text word differ rfl
    exact differ rfl
  cases entry with
  | fold => rfl
  | check => rfl
  | call toCall =>
      have read : callAmount alphabet (AvailableAction.text (.call toCall)).toList =
          .ok toCall := by
        rw [text_call]
        exact readAmount_behind (by decide) (not_mem_number toCall rfl (by decide) (by decide))
      unfold option
      rw [if_neg (apart (by rw [text_call]; simp)), read]
      rw [text_call]
      rfl
  | raise minimum =>
      have read : raiseMinimum alphabet (AvailableAction.text (.raise minimum)).toList =
          .ok minimum := by
        rw [text_raise]
        exact readAmount_behind (by decide) (not_mem_number minimum rfl (by decide) (by decide))
      unfold option
      rw [if_neg (apart (by rw [text_raise]; simp)), read]
      rw [text_raise]
      rfl
  | allIn stack =>
      unfold option
      rw [if_neg (apart (by rw [text_allIn]; simp)), text_allIn]
      rfl

theorem options_text (chips : Int) (draws : Draws) (place : Nat)
    (entries : List AvailableAction) :
    options alphabet chips draws place (entries.map AvailableAction.text) =
      .ok (entries.mapIdx fun offset entry =>
        answer chips (draws.randint (place + offset)) entry) := by
  induction entries generalizing place with
  | nil => rfl
  | cons entry rest ih =>
      rw [List.map_cons, options, option_text, ih (place + 1)]
      dsimp only
      rw [List.mapIdx_cons]
      have later : ∀ offset, place + 1 + offset = place + (offset + 1) := by omega
      simp only [later, Nat.add_zero, Option.toList_some, List.singleton_append]

/-- The kind of action an entry stands for, and the weight the player gives it. -/
def kind (entry : AvailableAction) : Action := (answer 0 0 entry).1.action

def weight (entry : AvailableAction) : Nat := (answer 0 0 entry).2

theorem answer_kind (chips : Int) (factor : Fin 3) (entry : AvailableAction) :
    (answer chips factor entry).1.action = kind entry ∧
      (answer chips factor entry).2 = weight entry := by
  cases entry <;> exact ⟨rfl, rfl⟩

end RandomPlayer

namespace PokerGame

variable {table : Table} {game : PokerGame} {player : Player} {alphabet : Numeral.Alphabet}

theorem getLlmGameState_turn (seated : Seated table game) (turn : game.Turn player) :
    ∃ view, game.getLlmGameState player.id = .ok view ∧
      view.actions = (game.getAvailableActions player.id).map AvailableAction.text := by
  unfold getLlmGameState
  rw [seated.getPlayer turn.here]
  dsimp only
  rw [if_neg (by rw [turn.active]; decide)]
  exact ⟨_, rfl, rfl⟩

theorem getAvailableActions_turn (seated : Seated table game) (turn : game.Turn player) :
    ∃ rest, game.getAvailableActions player.id = .fold :: rest := by
  unfold getAvailableActions
  rw [seated.getPlayer turn.here]
  dsimp only
  rw [if_neg (by simpa using turn.active)]
  exact ⟨_, rfl⟩

/-- The decision of a random player is picked by weight from its answers to the list. -/
theorem makeDecision_turn (seated : Seated table game) (turn : game.Turn player)
    {view : GameState}
    (seen : view.actions = (game.getAvailableActions player.id).map AvailableAction.text)
    (draws : Draws) :
    ∃ decision, RandomPlayer.makeDecision alphabet player.chips view draws = .ok decision ∧
      Weighted.pick ((game.getAvailableActions player.id).mapIdx fun place entry =>
        RandomPlayer.answer player.chips (draws.randint place) entry) draws.point =
          some decision := by
  obtain ⟨rest, listed⟩ := getAvailableActions_turn seated turn
  have someone : ((game.getAvailableActions player.id).mapIdx fun place entry =>
      RandomPlayer.answer player.chips (draws.randint place) entry) ≠ [] := by
    rw [listed]
    simp
  obtain ⟨decision, _, picked, _⟩ := Weighted.pick_isSome someone draws.point
  refine ⟨decision, ?_, picked⟩
  have answered : RandomPlayer.options alphabet player.chips draws 0
      ((game.getAvailableActions player.id).map AvailableAction.text) = _ :=
    RandomPlayer.options_text player.chips draws 0 (game.getAvailableActions player.id)
  simp only [Nat.zero_add] at answered
  unfold RandomPlayer.makeDecision
  rw [seen, if_neg (by rw [listed]; simp), answered]
  dsimp only
  rw [picked]

theorem minRaiseTotal_pos (blind : 0 < game.bigBlind) (bet : 0 ≤ game.currentBet) :
    0 < game.minRaiseTotal := by
  unfold minRaiseTotal
  split <;> omega

/-- The answer to a listed entry is listed: the drawn factor keeps a raise between the listed
minimum and the stack. -/
theorem answer_admitted (seated : Seated table game) (turn : game.Turn player)
    (blind : 0 < game.bigBlind) (bet : 0 ≤ game.currentBet) {entry : AvailableAction}
    (member : entry ∈ game.getAvailableActions player.id) (factor : Fin 3) :
    entry.admits (RandomPlayer.answer player.chips factor entry).1 = true := by
  rcases (mem_available seated turn).mp member with rfl | ⟨rfl, _⟩ | ⟨rfl, _⟩ |
    ⟨rfl, _, covered, _⟩ | ⟨rfl, _⟩
  · rfl
  · rfl
  · rfl
  · have positive := minRaiseTotal_pos blind bet
    have product : game.minRaiseTotal * (factor.val + 1 : Int) =
        game.minRaiseTotal * factor.val + game.minRaiseTotal := by rw [Int.mul_add, Int.mul_one]
    have grown : 0 ≤ game.minRaiseTotal * (factor.val : Int) :=
      Int.mul_nonneg (Int.le_of_lt positive) (Int.natCast_nonneg _)
    have least : game.minRaiseTotal ≤ min (game.minRaiseTotal * (factor.val + 1 : Int))
        player.chips := by omega
    simpa [RandomPlayer.answer, AvailableAction.admits] using least
  · rfl

/-- A random player decides for something listed, whatever it draws. -/
theorem makeDecision_listed (seated : Seated table game) (turn : game.Turn player)
    (blind : 0 < game.bigBlind) (bet : 0 ≤ game.currentBet) {view : GameState}
    (seen : view.actions = (game.getAvailableActions player.id).map AvailableAction.text)
    (draws : Draws) :
    ∃ decision, RandomPlayer.makeDecision alphabet player.chips view draws = .ok decision ∧
      game.isListed player.id decision = true := by
  obtain ⟨decision, decided, picked⟩ := makeDecision_turn seated turn seen draws
  refine ⟨decision, decided, ?_⟩
  obtain ⟨rest, listed⟩ := getAvailableActions_turn seated turn
  have someone : ((game.getAvailableActions player.id).mapIdx fun place entry =>
      RandomPlayer.answer player.chips (draws.randint place) entry) ≠ [] := by
    rw [listed]
    simp
  obtain ⟨item, weight, same, member⟩ := Weighted.pick_isSome someone draws.point
  rw [picked, Option.some.injEq] at same
  subst same
  obtain ⟨place, inside, answered⟩ := List.mem_mapIdx.mp member
  refine isListed_iff.mpr ⟨_, List.getElem_mem inside, ?_⟩
  have admitted := answer_admitted seated turn blind bet (List.getElem_mem inside)
    (draws.randint place)
  rwa [answered] at admitted

theorem makeDecision_folds (seated : Seated table game) (turn : game.Turn player)
    {view : GameState}
    (seen : view.actions = (game.getAvailableActions player.id).map AvailableAction.text)
    {draws : Draws} (low : draws.point < RandomPlayer.actionWeights.fold) :
    RandomPlayer.makeDecision alphabet player.chips view draws = .ok ⟨.fold, 0⟩ := by
  obtain ⟨decision, decided, picked⟩ := makeDecision_turn seated turn seen draws
  obtain ⟨rest, listed⟩ := getAvailableActions_turn seated turn
  have first : RandomPlayer.answer player.chips (draws.randint 0) .fold =
      (⟨.fold, 0⟩, RandomPlayer.actionWeights.fold) := rfl
  rw [listed, List.mapIdx_cons, first] at picked
  have front : Weighted.place 0 (RandomPlayer.actionWeights.fold ::
      (rest.mapIdx fun place entry =>
        RandomPlayer.answer player.chips (draws.randint (place + 1)) entry).map Prod.snd)
          draws.point = 0 := by
    rw [Weighted.place_cons, if_pos (by omega)]
  unfold Weighted.pick at picked
  rw [List.map_cons, front, Nat.zero_min] at picked
  cases picked
  exact decided

theorem kinds_nodup (game : PokerGame) (playerId : Int) :
    ((game.getAvailableActions playerId).map RandomPlayer.kind).Nodup := by
  have kinds : ((game.getAvailableActions playerId).map RandomPlayer.kind).Sublist
      ([.fold] ++ [.check] ++ [.call] ++ [.raise] ++ [.allIn]) := by
    have either : ∀ {condition : Prop} [Decidable condition] (entry : AvailableAction),
        ((if condition then [entry] else []).map RandomPlayer.kind).Sublist
          [RandomPlayer.kind entry] := by
      intro condition _ entry
      split
      · exact List.Sublist.refl _
      · exact List.nil_sublist _
    unfold getAvailableActions
    split
    · exact List.nil_sublist _
    · split
      · exact List.nil_sublist _
      · simp only [List.map_append]
        refine List.Sublist.append (List.Sublist.append (List.Sublist.append (List.Sublist.append
          (List.Sublist.refl _) (either _)) (either _)) (either _)) ?_
        split
        · split
          · exact List.Sublist.refl _
          · exact either _
        · exact List.nil_sublist _
  exact kinds.nodup (by decide)

end PokerGame

theorem sum_weights_of_kind {entries : List AvailableAction}
    (distinct : (entries.map RandomPlayer.kind).Nodup) {entry : AvailableAction}
    (member : entry ∈ entries) :
    ((entries.filter fun other => RandomPlayer.kind other == RandomPlayer.kind entry).map
      RandomPlayer.weight).sum = RandomPlayer.weight entry := by
  have alone : (entries.filter fun other =>
      RandomPlayer.kind other == RandomPlayer.kind entry) = [entry] := by
    induction entries with
    | nil => cases member
    | cons first rest ih =>
        rw [List.map_cons, List.nodup_cons] at distinct
        rcases List.mem_cons.mp member with rfl | later
        · have none : (rest.filter fun other =>
              RandomPlayer.kind other == RandomPlayer.kind entry) = [] := by
            rw [List.filter_eq_nil_iff]
            intro other inside same
            exact distinct.1 (List.mem_map.mpr ⟨other, inside, by simpa using same⟩)
          rw [List.filter_cons_of_pos (by simp), none]
        · have apart : RandomPlayer.kind first ≠ RandomPlayer.kind entry := by
            intro same
            exact distinct.1 (List.mem_map.mpr ⟨entry, later, same.symm⟩)
          rw [List.filter_cons_of_neg (by simpa using apart), ih distinct.2 later]
  rw [alone]
  simp

def RandomPlayer.chooses (alphabet : Numeral.Alphabet) (chips : Int) (gameState : GameState)
    (draws : Draws) (action : Action) : Bool :=
  match RandomPlayer.makeDecision alphabet chips gameState draws with
  | .error _ => false
  | .ok decision => decision.action == action

/-- At every turn of a run a random player decides for something listed, whatever it draws,
and each listed entry is chosen at as many points as its weight says. -/
theorem random_decisions_listed (table : Table) (events : List DriverEvent) (state : DriverState)
    (player : Player) (alphabet : Numeral.Alphabet) (randint : Nat → Fin 3)
    (blind : 0 < table.bigBlind)
    (played : Runs.run driverStep table.start events = some state)
    (stage : state.stage = .inHand) (turn : state.game.Turn player) :
    ∃ view, state.game.getLlmGameState player.id = .ok view ∧
      (∀ point, ∃ decision,
        RandomPlayer.makeDecision alphabet player.chips view ⟨randint, point⟩ = .ok decision ∧
          state.game.isListed player.id decision = true) ∧
      ∀ entry ∈ state.game.getAvailableActions player.id,
        (List.range (((state.game.getAvailableActions player.id).map
            RandomPlayer.weight).sum)).countP (fun point =>
          RandomPlayer.chooses alphabet player.chips view ⟨randint, point⟩
            (RandomPlayer.kind entry)) = RandomPlayer.weight entry := by
  have reached := table.reached played
  have big : 0 < state.game.bigBlind := reached.seated.blinds.2 ▸ blind
  obtain ⟨view, seen, lists⟩ := PokerGame.getLlmGameState_turn reached.seated turn
  refine ⟨view, seen, fun point => PokerGame.makeDecision_listed reached.seated turn big
    (reached.inPlay stage).bet lists ⟨randint, point⟩, ?_⟩
  intro entry member
  generalize available : state.game.getAvailableActions player.id = entries at member
  have distinct := state.game.kinds_nodup player.id
  rw [available] at distinct
  have images : (entries.mapIdx fun place other =>
      RandomPlayer.answer player.chips (randint place) other).map
        (fun answered => (answered.1.action, answered.2)) =
      entries.map fun other => (RandomPlayer.kind other, RandomPlayer.weight other) := by
    apply List.ext_getElem?
    intro place
    rw [List.getElem?_map, List.getElem?_mapIdx, List.getElem?_map, Option.map_map]
    congr 1
    funext other
    obtain ⟨action, heavy⟩ := RandomPlayer.answer_kind player.chips (randint place) other
    simp only [Function.comp_apply, action, heavy]
  have weights := congrArg (List.map Prod.snd) images
  rw [List.map_map, List.map_map] at weights
  change (entries.mapIdx _).map Prod.snd = entries.map RandomPlayer.weight at weights
  have counted := Weighted.countP_pick (entries.mapIdx fun place other =>
    RandomPlayer.answer player.chips (randint place) other)
      fun decision => decision.action == RandomPlayer.kind entry
  have ofKind := congrArg (fun pairs => ((pairs.filter fun pair : Action × Nat =>
    pair.1 == RandomPlayer.kind entry).map Prod.snd).sum) images
  simp only [List.filter_map, List.map_map, Function.comp_def] at ofKind
  have heavy : ((entries.filter fun other =>
      RandomPlayer.kind other == RandomPlayer.kind entry).map RandomPlayer.weight).sum =
        RandomPlayer.weight entry := sum_weights_of_kind distinct member
  rw [weights] at counted
  rw [← heavy, ← ofKind, ← counted]
  apply List.countP_congr
  intro point _
  obtain ⟨decision, decided, picked⟩ :=
    PokerGame.makeDecision_turn reached.seated turn lists ⟨randint, point⟩
  rw [available] at picked
  unfold RandomPlayer.chooses
  rw [decided, picked]
  rfl

theorem random_decisions_listed_heads_up :
    ∃ state player, Runs.run driverStep headsUp.start [.newHand .unshuffled] = some state ∧
      state.game.Turn player ∧
      ∃ view, state.game.getLlmGameState player.id = .ok view ∧
        view.actions = ["fold", "call (10)", "raise (min 40)", "all-in (90)"] ∧
        (List.range 100).countP (fun point =>
          RandomPlayer.chooses .ascii player.chips view ⟨fun _ => 2, point⟩ .raise) = 15 := by
  have reached : ∃ state player,
      Runs.run driverStep headsUp.start [.newHand .unshuffled] = some state ∧
      state.stage = .inHand ∧ state.game.Turn player ∧
      state.game.getAvailableActions player.id = [.fold, .call 10, .raise 40, .allIn 90] :=
    ⟨_, _, rfl, rfl, ⟨rfl, rfl⟩, rfl⟩
  obtain ⟨state, player, played, stage, turn, available⟩ := reached
  obtain ⟨view, seen, _, counts⟩ := random_decisions_listed headsUp [.newHand .unshuffled] state
    player .ascii (fun _ => 2) (by decide) played stage turn
  obtain ⟨other, same, lists⟩ :=
    PokerGame.getLlmGameState_turn (headsUp.reached played).seated turn
  rw [seen, Except.ok.injEq] at same
  rw [← same, available] at lists
  refine ⟨state, player, played, turn, view, seen, lists, ?_⟩
  have raising := counts (.raise 40) (by rw [available]; simp)
  rw [available] at raising
  exact raising

end Holdem
