import Holdem.View
import Holdem.AgentAnswer
import Holdem.Lib.JsonText

set_option autoImplicit false

/- The view of a player as a dictionary and as the text that is sent to an agent. -/
namespace Holdem

def strValue (text : String) : Json := .str text.toList

def PlayerInfo.toDict (info : PlayerInfo) : Json :=
  .dict [("id".toList, .int info.id), ("chips".toList, .int info.chips),
    ("bet".toList, .int info.bet), ("status".toList, strValue info.status)]

def GameState.toDict (state : GameState) : Json :=
  .dict [("your_id".toList, .int state.yourId), ("phase".toList, strValue state.phase),
    ("your_cards".toList, .list (state.yourCards.map strValue)),
    ("community".toList, .list (state.community.map strValue)),
    ("your_chips".toList, .int state.yourChips),
    ("your_bet_this_round".toList, .int state.yourBetThisRound),
    ("your_total_bet_this_hand".toList, .int state.yourTotalBetThisHand),
    ("pot".toList, .int state.pot), ("to_call".toList, .int state.toCall),
    ("dealer_button".toList, .int state.dealerButton),
    ("current_turn".toList, .int state.currentTurn),
    ("players".toList, .list (state.players.map PlayerInfo.toDict)),
    ("actions".toList, .list (state.actions.map strValue)),
    ("history".toList, .list (state.history.map strValue))]

/-- `json.dumps(game_state.to_dict(), ensure_ascii=False, indent=2)`. -/
def GameState.message (spell : Float64 → List Char) (state : GameState) : List Char :=
  Json.dumps ⟨some 2, false, spell⟩ 0 state.toDict

/-! ### Reading a dictionary -/

/-- A `PlayerInfo` that `from_dict` builds, whatever the values are. -/
structure LoosePlayerInfo where
  id : Json
  chips : Json
  bet : Json
  status : Json

/-- A `GameState` that `from_dict` builds, whatever the values are. -/
structure LooseGameState where
  yourId : Int
  phase : Json
  yourCards : Json
  community : Json
  yourChips : Json
  yourBetThisRound : Json
  yourTotalBetThisHand : Json
  pot : Json
  toCall : Json
  dealerButton : Json
  currentTurn : Json
  players : List LoosePlayerInfo
  actions : Json
  history : Json

def loosePlayerInfo : Json → Option LoosePlayerInfo
  | .dict entries =>
      match entries.lookup "id".toList, entries.lookup "chips".toList,
        entries.lookup "bet".toList, entries.lookup "status".toList with
      | some id, some chips, some bet, some status => some ⟨id, chips, bet, status⟩
      | _, _, _, _ => none
  | _ => none

/-- The comprehension over the players. The characters of a text and the keys of a dictionary
are no dictionaries. -/
def loosePlayers : Json → Option (List LoosePlayerInfo)
  | .list items => items.mapM loosePlayerInfo
  | .str [] => some []
  | .dict [] => some []
  | _ => none

/-- `GameState.from_dict`; `none` where it raises. -/
def LooseGameState.fromDict (py : PyText) : Json → Option LooseGameState
  | .dict entries =>
      let get (key : String) (fallback : Json) := (entries.lookup key.toList).getD fallback
      match loosePlayers (get "players" (.list [])), py.toInt (get "your_id" (.int 0)) with
      | some players, .ok yourId =>
          some
            { yourId := yourId
              phase := get "phase" (strValue "")
              yourCards := get "your_cards" (.list [])
              community := get "community" (.list [])
              yourChips := get "your_chips" (.int 0)
              yourBetThisRound := get "your_bet_this_round" (.int 0)
              yourTotalBetThisHand := get "your_total_bet_this_hand" (.int 0)
              pot := get "pot" (.int 0)
              toCall := get "to_call" (.int 0)
              dealerButton := get "dealer_button" (.int 0)
              currentTurn := get "current_turn" (.int 0)
              players := players
              actions := get "actions" (.list [])
              history := get "history" (.list []) }
      | _, _ => none
  | _ => none

/-! ### The view comes back -/

def PlayerInfo.loose (info : PlayerInfo) : LoosePlayerInfo :=
  ⟨.int info.id, .int info.chips, .int info.bet, strValue info.status⟩

def GameState.loose (state : GameState) : LooseGameState where
  yourId := state.yourId
  phase := strValue state.phase
  yourCards := .list (state.yourCards.map strValue)
  community := .list (state.community.map strValue)
  yourChips := .int state.yourChips
  yourBetThisRound := .int state.yourBetThisRound
  yourTotalBetThisHand := .int state.yourTotalBetThisHand
  pot := .int state.pot
  toCall := .int state.toCall
  dealerButton := .int state.dealerButton
  currentTurn := .int state.currentTurn
  players := state.players.map PlayerInfo.loose
  actions := .list (state.actions.map strValue)
  history := .list (state.history.map strValue)

theorem strValue_injective : Function.Injective strValue := by
  intro first second same
  exact String.toList_inj.mp (Json.str.inj same)

theorem strings_injective {first second : List String}
    (same : Json.list (first.map strValue) = .list (second.map strValue)) : first = second :=
  List.map_injective_iff.mpr strValue_injective (Json.list.inj same)

theorem PlayerInfo.loose_injective : Function.Injective PlayerInfo.loose := by
  intro first second same
  simp only [PlayerInfo.loose, LoosePlayerInfo.mk.injEq, Json.int.injEq] at same
  obtain ⟨id, chips, bet, status⟩ := same
  cases first
  cases second
  simp only [PlayerInfo.mk.injEq]
  exact ⟨id, chips, bet, strValue_injective status⟩

theorem GameState.loose_injective : Function.Injective GameState.loose := by
  intro first second same
  simp only [GameState.loose, LooseGameState.mk.injEq, Json.int.injEq, Int.natCast_inj] at same
  obtain ⟨id, phase, cards, community, chips, bet, total, pot, call, button, turn, players,
    actions, history⟩ := same
  cases first
  cases second
  simp only [GameState.mk.injEq]
  exact ⟨id, strValue_injective phase, strings_injective cards, strings_injective community, chips,
    bet, total, pot, call, button, turn,
    List.map_injective_iff.mpr PlayerInfo.loose_injective players, strings_injective actions,
    strings_injective history⟩

theorem loosePlayers_toDict (players : List PlayerInfo) :
    loosePlayers (.list (players.map PlayerInfo.toDict)) =
      some (players.map PlayerInfo.loose) := by
  show (players.map PlayerInfo.toDict).mapM loosePlayerInfo = _
  induction players with
  | nil => rfl
  | cons info rest ih =>
      have first : loosePlayerInfo info.toDict = some info.loose := rfl
      rw [List.map_cons, List.mapM_cons, first, ih]
      rfl

/-- `GameState.from_dict(state.to_dict()) == state`. -/
theorem fromDict_toDict (py : PyText) (state : GameState) :
    LooseGameState.fromDict py state.toDict = some state.loose := by
  show (match loosePlayers (.list (state.players.map PlayerInfo.toDict)),
      py.toInt (.int state.yourId) with
    | some players, .ok yourId => some { state.loose with players := players, yourId := yourId }
    | _, _ => none) = _
  rw [loosePlayers_toDict]
  rfl

theorem plain_strings (texts : List String) : Json.PlainItems (texts.map strValue) := by
  rw [Json.plainItems_iff]
  intro item member
  obtain ⟨text, _, rfl⟩ := List.mem_map.mp member
  simp [strValue, Json.Plain]

theorem GameState.toDict_plain (state : GameState) : state.toDict.Plain := by
  have players : Json.PlainItems (state.players.map PlayerInfo.toDict) := by
    rw [Json.plainItems_iff]
    intro item member
    obtain ⟨info, _, rfl⟩ := List.mem_map.mp member
    simp only [PlayerInfo.toDict, strValue, Json.Plain, Json.PlainMembers, and_true,
      List.map_cons, List.map_nil]
    decide
  simp only [GameState.toDict, strValue, Json.Plain, Json.PlainMembers, plain_strings, players,
    and_true, List.map_cons, List.map_nil]
  decide

/-- The text that an agent is sent is read as the view, and no other view has that text. -/
theorem message_tells_view (py : PyText) (spell : Float64 → List Char)
    (float : List Char → Float64) (state : GameState) :
    (Json.loads float (state.message spell)).bind (LooseGameState.fromDict py) =
        some state.loose ∧
      ∀ other : GameState, other.message spell = state.message spell → other = state := by
  have read : ∀ view : GameState,
      (Json.loads float (view.message spell)).bind (LooseGameState.fromDict py) =
        some view.loose := by
    intro view
    unfold GameState.message
    rw [Json.loads_dumps _ float view.toDict_plain, Option.bind_some, fromDict_toDict]
  refine ⟨read state, fun other same => ?_⟩
  have both := read other
  rw [same, read state] at both
  exact GameState.loose_injective (Option.some.inj both).symm

end Holdem
