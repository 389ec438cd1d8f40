import Holdem.Cards
import Holdem.Lib.Json
import Holdem.Lib.Regex
import Holdem.Lib.Text

set_option autoImplicit false

/- The table as the log viewer infers it from the lines of a log. -/
namespace Holdem

/-- Why `json.loads` fails: the text is no JSON, or something else is raised on the way. -/
inductive LoadFault
  | jsonDecodeError
  | raised (raised : PyError)

/-- What the log viewer uses of Python's library: the decimal digits with their values, the
word characters and the white space of Unicode, `strptime`, `json.loads` on the text of an
object, `str` of what it decodes, and the arithmetic of floats. -/
structure PyLib (Stamp : Type) where
  digit : Char → Option Nat
  word : Char → Bool
  space : Char → Bool
  lower : List Char → List Char
  strptime : List Char → Except PyError Stamp
  loads : List Char → Except LoadFault (List (List Char × Json))
  str : Json → List Char
  floatOfInt : Int → Except PyError Float64
  floatAdd : Float64 → Float64 → Float64

/-- The events of `LogParser`, one constructor for each `LogEventType` it creates, with the
entries of its dictionary. -/
inductive LogEvent (Stamp : Type)
  | handStart (timestamp : Stamp) (handNumber : Nat) (message : List Char)
  | handEnd (timestamp : Stamp) (handNumber : Option Nat) (message : List Char)
  | phaseChange (timestamp : Stamp) (handNumber : Option Nat) (fromPhase toPhase : List Char)
      (message : List Char)
  | playerAction (timestamp : Stamp) (handNumber : Option Nat) (playerId : Nat)
      (playerName action : List Char) (amount : Nat) (message : List Char)
  | showdown (timestamp : Stamp) (handNumber : Option Nat) (message : List Char)
  | llmDecision (timestamp : Stamp) (handNumber : Option Nat) (player action : List Char)
      (amount : Nat) (reasoning : List Char) (fullPrompt : Option (List Char))
      (message : List Char)
  | gameState (timestamp : Stamp) (handNumber : Option Nat) (pot currentBet : Nat)
      (message : List Char)
deriving DecidableEq

/-- A key of `players`. Numbers are one key when they are equal, whatever their types. -/
inductive PlayerKey
  | none
  | number (value : Float64)
  | text (chars : List Char)
deriving DecidableEq

/-- The key that a JSON value is; `none` for a list or an object, which cannot be hashed. -/
def playerKey : Json → Option PlayerKey
  | .null => some .none
  | .bool value => some (.number (.finite (if value then 1 else 0)))
  | .int value => some (.number (.finite value))
  | .float value => some (.number value)
  | .str text => some (.text text)
  | .list _ => none
  | .dict _ => none

def idKey (playerId : Nat) : PlayerKey := .number (.finite playerId)

structure SeenPlayer where
  name : List Char
  chips : Json := .int 2000
  currentBet : Json := .int 0
  cards : List Json := []
  status : Json := .str "active".toList
  lastAction : Option (List Char × Nat) := none

structure LogGameState (Stamp : Type) where
  currentHand : Option Nat := none
  currentPhase : List Char := "waiting".toList
  pot : Json := .int 0
  currentBet : Json := .int 0
  communityCards : List Json := []
  players : List (PlayerKey × SeenPlayer) := []
  lastUpdated : Option Stamp := none

/-- The text of a group that took part in the match. -/
def groupText (groups : Regex.Groups) (index : Nat) : List Char := (groups[index]?.join).getD []

/-- The message from its first opening to its last closing brace. -/
def jsonPart (message : List Char) : Option (List Char) :=
  let opened := message.dropWhile fun char => char != '\x7b'
  let closed := (opened.reverse.dropWhile fun char => char != '\x7d').reverse
  if closed.isEmpty then none else some closed

/-- An entry of the `players` of a prompt: its id with its key, and its other fields; `none` when
it has no `id`. -/
def promptPlayer : Json → Except PyError (Option (Json × PlayerKey × List (List Char × Json)))
  | .dict entries =>
      match entries.lookup "id".toList with
      | none => .ok none
      | some playerId =>
          match playerKey playerId with
          | none => .error (.typeError "unhashable type")
          | some key => .ok (some (playerId, key, entries))
  | .str text =>
      if Text.contains "id".toList text then
        .error (.typeError "string indices must be integers, not 'str'")
      else .ok none
  | .list items =>
      if items.any fun item =>
          match item with
          | .str text => text == "id".toList
          | _ => false
      then .error (.typeError "list indices must be integers or slices, not str")
      else .ok none
  | _ => .error (.typeError "argument is not iterable")

namespace PyLib

variable {Stamp : Type} (lib : PyLib Stamp)

def isDigit (char : Char) : Bool := (lib.digit char).isSome

def int (text : List Char) : Except PyError Nat :=
  if 4300 < text.length then
    .error (.valueError "Exceeds the limit (4300 digits) for integer string conversion")
  else .ok (text.foldl (fun total char => total * 10 + (lib.digit char).getD 0) 0)

/-- `int` of word characters, where single underscores may stand between the digits. -/
def wordInt (text : List Char) : Option Nat :=
  let parts := text.splitOn '_'
  if parts.all fun part => !part.isEmpty && part.all lib.isDigit then
    (lib.int parts.flatten).toOption
  else none

/-- `first + second` of what `json.loads` decodes. -/
def add (first second : Json) : Except PyError Json :=
  let whole : Json → Option Int
    | .bool value => some (if value then 1 else 0)
    | .int value => some value
    | _ => none
  let mixed := Except.error (.typeError "unsupported operand type(s) for +")
  match first, second with
  | .str left, .str right => .ok (.str (left ++ right))
  | .list left, .list right => .ok (.list (left ++ right))
  | .float left, .float right => .ok (.float (lib.floatAdd left right))
  | .float left, right =>
      match whole right with
      | none => mixed
      | some value => (lib.floatOfInt value).map fun right => .float (lib.floatAdd left right)
  | left, .float right =>
      match whole left with
      | none => mixed
      | some value => (lib.floatOfInt value).map fun left => .float (lib.floatAdd left right)
  | left, right =>
      match whole left, whole right with
      | some left, some right => .ok (.int (left + right))
      | _, _ => mixed

/-! ### Prompts -/

/-- The key under which a prompt enters a player whose name is new; `none` where it gives up. -/
def newKey (prompt : List (List Char × Json)) (playerName : List Char) :
    Except PyError (Option PlayerKey) :=
  if "Agent".toList.isPrefixOf playerName then
    .ok ((lib.wordInt (Text.without "Agent".toList playerName)).map idKey)
  else if playerName = "You".toList then
    match prompt.lookup "current_turn".toList with
    | none => .ok none
    | some turn =>
        match playerKey turn with
        | none => .error (.typeError "unhashable type")
        | some key => .ok (some key)
  else .ok none

/-- The key of the player of a prompt, and the players with a new one among them. A player found
under the key `None` is taken for one that was not found. -/
def promptTarget (players : List (PlayerKey × SeenPlayer)) (prompt : List (List Char × Json))
    (playerName : List Char) :
    Except PyError (Option (PlayerKey × List (PlayerKey × SeenPlayer))) :=
  let known := players.find? fun entry => entry.2.name == playerName
  match known.filter fun entry => entry.1 != .none with
  | some entry => .ok (some (entry.1, players))
  | none =>
      (lib.newKey prompt playerName).map fun found =>
        found.map fun key => (key, Dict.set players key { name := playerName })

/-- `players[key]["cards"] = cards`, for two cards. -/
def dealSeen (players : List (PlayerKey × SeenPlayer)) (key : PlayerKey) :
    Option Json → List (PlayerKey × SeenPlayer)
  | some (.list [first, second]) =>
      players.map fun entry =>
        if entry.1 = key then (entry.1, { entry.2 with cards := [first, second] }) else entry
  | _ => players

def notePlayer (players : List (PlayerKey × SeenPlayer)) (info : Json) :
    Except PyError (List (PlayerKey × SeenPlayer)) :=
  (promptPlayer info).map fun found =>
    match found with
    | none => players
    | some (playerId, key, entries) =>
        let field (name : String) (fallback : Json) := (entries.lookup name.toList).getD fallback
        match players.lookup key with
        | none =>
            Dict.set players key
              { name := "Player".toList ++ lib.str playerId
                chips := field "chips" (.int 2000)
                currentBet := field "bet" (.int 0)
                status := field "status" (.str "active".toList) }
        | some seen =>
            Dict.set players key
              { seen with
                chips := field "chips" seen.chips
                currentBet := field "bet" seen.currentBet
                status := field "status" seen.status }

/-- The loop over the `players` of a prompt; what it has noted stays when it raises. -/
def notePlayers : List (PlayerKey × SeenPlayer) → List Json →
    List (PlayerKey × SeenPlayer) × Option PyError
  | players, [] => (players, none)
  | players, info :: rest =>
      match lib.notePlayer players info with
      | .error raised => (players, some raised)
      | .ok noted => notePlayers noted rest

def promptPlayers (players : List (PlayerKey × SeenPlayer)) (prompt : List (List Char × Json)) :
    List (PlayerKey × SeenPlayer) × Option PyError :=
  match prompt.lookup "players".toList with
  | some (.list infos) => lib.notePlayers players infos
  | _ => (players, none)

/-- The bet to match, the player's own plus what the prompt asks for. -/
def promptBet (prompt : List (List Char × Json)) : Except PyError (Option Json) :=
  match prompt.lookup "to_call".toList with
  | none => .ok none
  | some toCall =>
      let ownBet := (prompt.lookup "your_bet_this_round".toList).getD (.int 0)
      (lib.add ownBet toCall).map some

/-- What a prompt tells about the table, once its player has a key. -/
def applyPrompt (state : LogGameState Stamp) (prompt : List (List Char × Json))
    (key : PlayerKey) : LogGameState Stamp × Option PyError :=
  let communityCards :=
    match prompt.lookup "community".toList with
    | some (.list cards) => cards
    | _ => state.communityCards
  let noted := lib.promptPlayers
    (dealSeen state.players key (prompt.lookup "your_cards".toList)) prompt
  let state := { state with players := noted.1, communityCards := communityCards }
  match noted.2 with
  | some raised => (state, some raised)
  | none =>
      let state := { state with pot := (prompt.lookup "pot".toList).getD state.pot }
      match lib.promptBet prompt with
      | .error raised => (state, some raised)
      | .ok currentBet => ({ state with currentBet := currentBet.getD state.currentBet }, none)

/-- `_extract_cards_from_json_message`. -/
def extractCards (state : LogGameState Stamp) (fullMessage playerName : List Char) :
    LogGameState Stamp × Option PyError :=
  match jsonPart fullMessage with
  | none => (state, none)
  | some json =>
      match lib.loads json with
      | .error .jsonDecodeError => (state, none)
      | .error (.raised raised) => (state, some raised)
      | .ok prompt =>
          match lib.promptTarget state.players prompt playerName with
          | .error raised => (state, some raised)
          | .ok none => (state, none)
          | .ok (some (key, players)) =>
              lib.applyPrompt { state with players := players } prompt key

/-! ### Events -/

def number : Regex := .group (.run lib.isDigit false)

def wordGroup : Regex := .group (.run lib.word false)

def spaces : Regex := .opt (.run lib.space false)

def playerPattern : Regex :=
  .concat [.text ['P'], lib.number, .text ['('], .group (.run (· != ')') false), .text "):".toList,
    lib.spaces, .text "chips=".toList, lib.number, .text [','], lib.spaces, .text "bet=".toList,
    lib.number, .text [','], lib.spaces, .text "status=".toList, lib.wordGroup]

def seePlayer (players : List (PlayerKey × SeenPlayer)) (groups : Regex.Groups) :
    Except PyError (List (PlayerKey × SeenPlayer)) := do
  let playerId ← lib.int (groupText groups 0)
  let chips ← lib.int (groupText groups 2)
  let currentBet ← lib.int (groupText groups 3)
  let cards := ((players.lookup (idKey playerId)).map SeenPlayer.cards).getD []
  let lastAction := (players.lookup (idKey playerId)).bind SeenPlayer.lastAction
  return Dict.set players (idKey playerId)
    { name := groupText groups 1
      chips := .int chips
      currentBet := .int currentBet
      cards := cards
      status := .str (groupText groups 4)
      lastAction := lastAction }

/-- The matches one after another; what was seen before one that raises stays. -/
def seePlayers : List (PlayerKey × SeenPlayer) → List Regex.Groups →
    List (PlayerKey × SeenPlayer) × Option PyError
  | players, [] => (players, none)
  | players, groups :: rest =>
      match lib.seePlayer players groups with
      | .error raised => (players, some raised)
      | .ok seen => seePlayers seen rest

def extractPlayerInfo (players : List (PlayerKey × SeenPlayer)) (message : List Char) :
    List (PlayerKey × SeenPlayer) × Option PyError :=
  let told := (message.splitOn '\n').flatMap fun line =>
    let line := Text.strip lib.space line
    if line.contains 'P' && Text.contains "chips=".toList line then lib.playerPattern.findAll line
    else []
  lib.seePlayers players told

def updateGameState (state : LogGameState Stamp) :
    LogEvent Stamp → LogGameState Stamp × Option PyError
  | .handStart timestamp handNumber _ =>
      ({ state with
        currentHand := some handNumber
        currentPhase := "preflop".toList
        communityCards := []
        players := state.players.map fun entry => (entry.1, { entry.2 with cards := [] })
        lastUpdated := some timestamp }, none)
  | .phaseChange timestamp _ _ toPhase _ =>
      ({ state with currentPhase := lib.lower toPhase, lastUpdated := some timestamp }, none)
  | .gameState timestamp _ pot currentBet message =>
      let told := lib.extractPlayerInfo state.players message
      let state := { state with players := told.1 }
      match told.2 with
      | some raised => (state, some raised)
      | none =>
          ({ state with
            pot := .int pot
            currentBet := .int currentBet
            lastUpdated := some timestamp }, none)
  | .playerAction timestamp _ playerId playerName action amount _ =>
      let seen := (state.players.lookup (idKey playerId)).getD { name := playerName }
      let status :=
        if action = "folds".toList then "folded".toList
        else if action = "goes all-in".toList then "all_in".toList
        else "active".toList
      ({ state with
        players := Dict.set state.players (idKey playerId)
          { seen with lastAction := some (action, amount), status := .str status }
        lastUpdated := some timestamp }, none)
  | _ => (state, none)

end PyLib

end Holdem
