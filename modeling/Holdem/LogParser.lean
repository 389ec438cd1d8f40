import Holdem.LogGameState

set_option autoImplicit false

namespace Holdem

structure LogParser (Stamp : Type) where
  events : List (LogEvent Stamp) := []
  currentHand : Option Nat := none
  gameState : LogGameState Stamp := {}
  lastFilePosition : Nat := 0

/-- What the loop over the lines of a file leaves: the current hand, the game state, the events
in order, and the exception that ended it, if one did. -/
structure ParsedLines (Stamp : Type) where
  currentHand : Option Nat
  gameState : LogGameState Stamp
  events : List (LogEvent Stamp)
  raised : Option PyError

def ParsedLines.returned {Stamp : Type} (parsed : ParsedLines Stamp) :
    Except PyError (List (LogEvent Stamp)) :=
  match parsed.raised with
  | none => .ok parsed.events
  | some raised => .error raised

inductive MessageBranch
  | handStart
  | handEnd
  | phaseChange
  | playerAction
  | showdown
  | llmPrompt
  | llmDecision
  | gameState
  | other
deriving DecidableEq, Repr

def messageBranch (message logLevel : List Char) : MessageBranch :=
  if Text.contains "=== STARTING NEW HAND #".toList message then .handStart
  else if Text.contains "=== HAND COMPLETE ===".toList message then .handEnd
  else if Text.contains "Phase changed:".toList message then .phaseChange
  else if Text.contains "ACTION_EXECUTED:".toList message then .playerAction
  else if Text.contains "SHOWDOWN results:".toList message ||
      Text.contains "Winner:".toList message then .showdown
  else if Text.contains "LLM Prompt for".toList message &&
      ["DEBUG".toList, "INFO".toList].contains logLevel then .llmPrompt
  else if Text.contains "Successfully parsed decision:".toList message then .llmDecision
  else if Text.contains "Pot:".toList message && Text.contains "Current bet:".toList message then
    .gameState
  else .other

def braceCount (line : List Char) : Int := line.count '\x7b' - line.count '\x7d'

namespace PyLib

variable {Stamp : Type} (lib : PyLib Stamp)

def anyChar (char : Char) : Bool := char != '\n'

/-- The time at the start of a line. -/
def stampPattern : Regex :=
  .concat [.times 4 lib.isDigit, .text ['-'], .times 2 lib.isDigit, .text ['-'],
    .times 2 lib.isDigit, .text [' '], .times 2 lib.isDigit, .text [':'], .times 2 lib.isDigit,
    .text [':'], .times 2 lib.isDigit, .text [','], .times 3 lib.isDigit]

def linePattern : Regex :=
  .concat [.group lib.stampPattern, .text " - poker_game - ".toList, lib.wordGroup,
    .text " - ".toList, .group (.run anyChar false)]

def handPattern : Regex := .seq (.text "HAND #".toList) lib.number

def phasePattern : Regex :=
  .concat [.text "Phase changed: ".toList, lib.wordGroup, .text " -> ".toList, lib.wordGroup]

def promptPattern : Regex :=
  .concat [.text "LLM Prompt for ".toList, lib.wordGroup, .text [':']]

def decisionPattern : Regex :=
  .concat [.text ['['], .group (.run anyChar true),
    .text "] Successfully parsed decision: ".toList, .group (.run anyChar true),
    .text ", ".toList, lib.number, .text ", ".toList, .group (.run anyChar false)]

def potPattern : Regex := .seq (.text "Pot: ".toList) lib.number

def betPattern : Regex := .seq (.text "Current bet: ".toList) lib.number

/-- The common start of the action patterns, `Player (\d+) \((.+?)\) `, and what follows. -/
def actionPattern (rest : List Regex) : Regex :=
  .concat ([.text "Player ".toList, lib.number, .text " (".toList, .group (.run anyChar true),
    .text ") ".toList] ++ rest)

def actionPatterns : List Regex :=
  [ lib.actionPattern
      [.group (.alt (.text "folds".toList) (.alt (.text "checks".toList)
          (.alt (.text "calls".toList) (.alt (.text "raises to".toList)
            (.text "goes all-in".toList))))),
        .opt (.seq (.text [' ']) lib.number)],
    lib.actionPattern
      [.group (.alt (.text "folds".toList) (.alt (.text "checks".toList)
          (.text "calls".toList))),
        .text [' '], lib.number],
    lib.actionPattern [.text "raises to ".toList, lib.number],
    lib.actionPattern [.text "goes all-in for ".toList, lib.number] ]

/-- `LogParser._parse_action`: the event of the first pattern that is found. -/
def parseAction (currentHand : Option Nat) (message : List Char) (timestamp : Stamp) :
    Except PyError (Option (LogEvent Stamp)) :=
  match lib.actionPatterns.findSome? fun pattern => pattern.search message with
  | none => .ok none
  | some groups => do
      let playerId ← lib.int (groupText groups 0)
      let amount ← lib.int (groupText groups 3)
      return some (.playerAction timestamp currentHand playerId (groupText groups 1)
        (groupText groups 2) amount message)

/-- A line that starts with a time is a log line and ends a prompt. -/
def startsWithStamp (line : List Char) : Bool := (lib.stampPattern.matchStart line).isSome

/-- The lines that belong to a prompt with so many open braces. -/
def promptLines (openBraces : Int) : List (List Char) → List (List Char)
  | [] => []
  | next :: rest =>
      let line := Text.strip lib.space next
      if 0 < openBraces then
        if lib.startsWithStamp line then []
        else line :: promptLines (openBraces + braceCount line) rest
      else []

def collectMultiLineJson (following : List (List Char)) (firstLine : List Char) : List Char :=
  ['\n'].intercalate (firstLine :: lib.promptLines (braceCount firstLine) following)

/-- The summary of a prompt: the entries that its object has, else the object itself. -/
def promptContent (fullMessage : List Char) : List Char :=
  match jsonPart fullMessage with
  | none => "プロンプト送信".toList
  | some json =>
      match lib.loads json with
      | .error _ => "プロンプト解析エラー".toList
      | .ok prompt =>
          let entries :=
            [("your_cards".toList, "カード: ".toList), ("phase".toList, "フェーズ: ".toList),
              ("pot".toList, "ポット: ".toList), ("to_call".toList, "コール額: ".toList),
              ("your_chips".toList, "所持チップ: ".toList)].filterMap fun entry =>
                (prompt.lookup entry.1).map fun value => entry.2 ++ lib.str value
          if entries.isEmpty then
            if 100 < json.length then json.take 100 ++ "...".toList else json
          else " | ".toList.intercalate entries

/-- `LogParser._parse_message` with the lines that follow in the list it was read from: the game
state after it, and the current hand with the event, or the exception it raises. -/
def parseMessage (currentHand : Option Nat) (gameState : LogGameState Stamp)
    (message : List Char) (timestamp : Stamp) (logLevel : List Char)
    (following : List (List Char)) :
    LogGameState Stamp × Except PyError (Option Nat × Option (LogEvent Stamp)) :=
  match messageBranch message logLevel with
  | .handStart =>
      match lib.handPattern.search message with
      | none => (gameState, .ok (currentHand, none))
      | some groups =>
          (gameState, (lib.int (groupText groups 0)).map fun hand =>
            (some hand, some (.handStart timestamp hand message)))
  | .handEnd => (gameState, .ok (currentHand, some (.handEnd timestamp currentHand message)))
  | .phaseChange =>
      (gameState, .ok (currentHand, (lib.phasePattern.search message).map fun groups =>
        .phaseChange timestamp currentHand (groupText groups 0) (groupText groups 1) message))
  | .playerAction =>
      (gameState, (lib.parseAction currentHand message timestamp).map fun event =>
        (currentHand, event))
  | .showdown => (gameState, .ok (currentHand, some (.showdown timestamp currentHand message)))
  | .llmPrompt =>
      -- the debug output names the last word before the first colon
      if (message.takeWhile fun char => char != ':').all lib.space then
        (gameState, .error (.indexError "list index out of range"))
      else
        match lib.promptPattern.search message with
        | none => (gameState, .ok (currentHand, none))
        | some groups =>
            let full := lib.collectMultiLineJson following message
            match lib.extractCards gameState full (groupText groups 0) with
            | (gameState, some raised) => (gameState, .error raised)
            | (gameState, none) =>
                (gameState, .ok (currentHand, some (.llmDecision timestamp currentHand
                  (groupText groups 0) "prompt".toList 0 (lib.promptContent full) (some full)
                  message)))
  | .llmDecision =>
      match lib.decisionPattern.search message with
      | none => (gameState, .ok (currentHand, none))
      | some groups =>
          (gameState, (lib.int (groupText groups 2)).map fun amount =>
            (currentHand, some (.llmDecision timestamp currentHand (groupText groups 0)
              (groupText groups 1) amount (groupText groups 3) none message)))
  | .gameState =>
      match lib.potPattern.search message, lib.betPattern.search message with
      | some pots, some bets =>
          (gameState, do
            let pot ← lib.int (groupText pots 0)
            let bet ← lib.int (groupText bets 0)
            return (currentHand, some (.gameState timestamp currentHand pot bet message)))
      | _, _ => (gameState, .ok (currentHand, none))
  | .other => (gameState, .ok (currentHand, none))

/-- The body of the loop over the lines, which `parse_file` and `parse_new_lines` share, up to the
event. -/
def parseLine (currentHand : Option Nat) (gameState : LogGameState Stamp) (line : List Char)
    (following : List (List Char)) :
    LogGameState Stamp × Except PyError (Option Nat × Option (LogEvent Stamp)) :=
  match lib.linePattern.matchStart (Text.strip lib.space line) with
  | none => (gameState, .ok (currentHand, none))
  | some groups =>
      match lib.strptime (groupText groups 0) with
      | .error raised => (gameState, .error raised)
      | .ok timestamp =>
          lib.parseMessage currentHand gameState (groupText groups 2) timestamp
            (groupText groups 1) following

/-- The loop over the lines; a line that raises ends it, which may be behind its event. -/
def parseLines : Option Nat → LogGameState Stamp → List (List Char) → ParsedLines Stamp
  | currentHand, gameState, [] => ⟨currentHand, gameState, [], none⟩
  | currentHand, gameState, line :: following =>
      match lib.parseLine currentHand gameState line following with
      | (gameState, .error raised) => ⟨currentHand, gameState, [], some raised⟩
      | (gameState, .ok (hand, none)) => parseLines hand gameState following
      | (gameState, .ok (hand, some event)) =>
          match lib.updateGameState gameState event with
          | (gameState, some raised) => ⟨hand, gameState, [event], some raised⟩
          | (gameState, none) =>
              let rest := parseLines hand gameState following
              { rest with events := event :: rest.events }

/-- `LogParser.parse_file` on the content of the file: the parser after it, and what it
returns or raises. -/
def parseFile (parser : LogParser Stamp) (content : List Char) :
    LogParser Stamp × Except PyError (List (LogEvent Stamp)) :=
  let parsed := lib.parseLines none parser.gameState (Text.readLines content)
  ({ parser with
    events := parsed.events
    currentHand := parsed.currentHand
    gameState := parsed.gameState }, parsed.returned)

/-- `LogParser.parse_new_lines` on the content of the file, if there is one. -/
def parseNewLines (parser : LogParser Stamp) (content : Option (List Char)) :
    LogParser Stamp × Except PyError (List (LogEvent Stamp)) :=
  match content with
  | none => (parser, .ok [])
  | some content =>
      match Text.seek content parser.lastFilePosition with
      | none => (parser, .error (.valueError "invalid start byte"))
      | some unread =>
          let parsed := lib.parseLines parser.currentHand parser.gameState
            (Text.readLines unread)
          ({ events := parser.events ++ parsed.events
             currentHand := parsed.currentHand
             gameState := parsed.gameState
             lastFilePosition := max parser.lastFilePosition (Text.byteSize content) },
            parsed.returned)

end PyLib

/-- Python's library on texts of ASCII characters, with no JSON and no floats; a time stands for
itself. -/
def asciiLib : PyLib (List Char) where
  digit char := if char.isDigit then some (char.toNat - '0'.toNat) else none
  word char := char.isAlphanum || char == '_'
  space char := char.isWhitespace
  lower text := text.map Char.toLower
  strptime text := .ok text
  loads _ := .error .jsonDecodeError
  str _ := []
  floatOfInt value := .ok (.finite value)
  floatAdd _ _ := .nan

end Holdem
