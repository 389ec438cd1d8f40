import Holdem.LogParser
import Holdem.Lib.Json
import Holdem.Lib.Numeral

set_option autoImplicit false

/- How the answer of an agent is read as a decision. -/
namespace Holdem

/-- The white space of `\s` among the ASCII characters. -/
def asciiSpaces : List Char :=
  [' ', '\t', '\n', '\r', '\x0b', '\x0c', '\x1c', '\x1d', '\x1e', '\x1f']

/-- What reading an answer uses of Python's texts: the digits and the white space `int`
knows, the white space of `\s`, and `str.lower`. -/
structure PyText where
  alphabet : Numeral.Alphabet
  space : Char → Bool
  lower : List Char → List Char
  space_ascii : ∀ char, char.val < 128 → space char = asciiSpaces.contains char
  lower_ascii : ∀ text, (∀ char ∈ text, char.val < 128) → lower text = text.map Char.toLower

def PyText.ascii : PyText where
  alphabet := .ascii
  space char := asciiSpaces.contains char
  lower text := text.map Char.toLower
  space_ascii _ _ := rfl
  lower_ascii _ _ := rfl

/-- The exceptions that the reading of an answer can meet. -/
inductive Raised
  | jsonDecodeError
  | valueError
  | attributeError
  | typeError
  | overflowError
deriving DecidableEq, Repr

/-- `except (json.JSONDecodeError, ValueError, AttributeError)`. -/
def Raised.caught : Raised → Bool
  | .jsonDecodeError => true
  | .valueError => true
  | .attributeError => true
  | .typeError => false
  | .overflowError => false

structure AgentDecision where
  action : List Char
  amount : Int
deriving DecidableEq, Repr

/-- What `_parse_llm_response` leaves: its return value or the exception that escapes it, and
`last_decision_reasoning`, where the player has that attribute. -/
structure Answered where
  result : Except Raised AgentDecision
  lastDecisionReasoning : Option Json

namespace PyText

variable (py : PyText)

def isDigit (char : Char) : Bool := (py.alphabet.digit char).isSome

def number (text : List Char) : Nat :=
  text.foldl (fun total char => total * 10 + (py.alphabet.digit char).getD 0) 0

/-- `r"```json\s*\n(.*?)\n```"` with `re.DOTALL`. -/
def markdownPattern : Regex :=
  .concat [.text "```json".toList, .opt (.run py.space false), .text ['\n'],
    .group (.alt (.text []) (.run (fun _ => true) true)), .text "\n```".toList]

/-- `r'\{[^}]*"action"[^}]*\}'` with `re.DOTALL`. -/
def jsonPattern : Regex :=
  .group (.concat [.text ['\x7b'], .opt (.run (· != '\x7d') false), .text "\"action\"".toList,
    .opt (.run (· != '\x7d') false), .text ['\x7d']])

/-- `r"call.*\((\d+)\)"`. -/
def callPattern : Regex :=
  .concat [.text "call".toList, .opt (.run (· != '\n') false), .text ['('],
    .group (.run py.isDigit false), .text [')']]

/-- `r"raise.*min (\d+)"`. -/
def raisePattern : Regex :=
  .concat [.text "raise".toList, .opt (.run (· != '\n') false), .text "min ".toList,
    .group (.run py.isDigit false)]

/-- `cleaned_response`: what stands in the first fence, else the whole response. -/
def cleanedResponse (response : List Char) : List Char :=
  if Text.contains "```json".toList response then
    match py.markdownPattern.search response with
    | some groups => groupText groups 0
    | none => response
  else response

def jsonStr (response : List Char) : Option (List Char) :=
  (jsonPattern.search (py.cleanedResponse response)).map fun groups => groupText groups 0

/-- The price that the loop over the listed actions finds for a call: only the first entry
about a call is looked at. -/
def listedCall : List (List Char) → Option Nat
  | [] => none
  | act :: rest =>
      if Text.contains "call".toList (py.lower act) then
        (py.callPattern.search act).map fun groups => py.number (groupText groups 0)
      else listedCall rest

/-- `min_raise`: the first entry about a raise that names a minimum, else 0. -/
def minRaise : List (List Char) → Nat
  | [] => 0
  | act :: rest =>
      if Text.contains "raise".toList (py.lower act) then
        match py.raisePattern.search act with
        | some groups => py.number (groupText groups 0)
        | none => minRaise rest
      else minRaise rest

def lessThan (amount : Json) (bound : Int) : Except Raised Bool :=
  match amount with
  | .bool value => .ok (decide ((if value then 1 else 0) < bound))
  | .int value => .ok (decide (value < bound))
  | .float (.finite value) => .ok (decide (value < bound))
  | .float .nan => .ok false
  | .float .infinity => .ok false
  | .float .negInfinity => .ok true
  | .null => .error .typeError
  | .str _ => .error .typeError
  | .list _ => .error .typeError
  | .dict _ => .error .typeError

def toInt (amount : Json) : Except Raised Int :=
  match amount with
  | .bool value => .ok (if value then 1 else 0)
  | .int value => .ok value
  | .float (.finite value) => .ok (value.num.tdiv value.den)
  | .float .nan => .error .valueError
  | .float .infinity => .error .overflowError
  | .float .negInfinity => .error .overflowError
  | .str text =>
      match Numeral.parseInt py.alphabet text with
      | some value => .ok value
      | none => .error .valueError
  | .null => .error .typeError
  | .list _ => .error .typeError
  | .dict _ => .error .typeError

/-- The action and the amount after the normalisation, for a player with some chips. -/
def normalise (chips : Int) (actions : List (List Char)) (action : List Char) (amount : Json) :
    Except Raised (List Char × Json) :=
  if action = "fold".toList ∨ action = "check".toList then .ok (action, .int 0)
  else if action = "call".toList then
    match py.listedCall actions with
    | some price => .ok (action, .int price)
    | none => .ok (action, amount)
  else if action = "all_in".toList ∨ action = "all-in".toList then
    .ok ("all_in".toList, .int chips)
  else if action = "raise".toList then
    let minimum := py.minRaise actions
    if 0 < minimum then
      match lessThan amount minimum with
      | .error raised => .error raised
      | .ok true => .ok (action, .int minimum)
      | .ok false => .ok (action, amount)
    else .ok (action, amount)
  else .ok (action, amount)

/-- The part of the `try` block behind `json.loads`: the decision, and the reasoning once it
has been read. -/
def readDecision (chips : Int) (actions : List (List Char)) (decision : Json) :
    Except Raised AgentDecision × Option Json :=
  match decision with
  | .dict entries =>
      match (entries.lookup "action".toList).getD (.str "fold".toList) with
      | .str text =>
          let amount := (entries.lookup "amount".toList).getD (.int 0)
          let reasoning := (entries.lookup "reasoning".toList).getD
            (.str "理由が提供されませんでした".toList)
          match py.normalise chips actions (py.lower text) amount with
          | .error raised => (.error raised, some reasoning)
          | .ok (action, amount) =>
              match py.toInt amount with
              | .error raised => (.error raised, some reasoning)
              | .ok amount => (.ok ⟨action, amount⟩, some reasoning)
      | _ => (.error .attributeError, none)
  | _ => (.error .attributeError, none)

def foldDecision : AgentDecision := ⟨"fold".toList, 0⟩

/-- `Player._parse_llm_response`, with `json.loads` as a parameter: `none` is
`JSONDecodeError`. -/
def parseLlmResponse (loads : List Char → Option Json) (chips : Int)
    (actions : List (List Char)) (lastReasoning : Option Json) (response : List Char) :
    Answered :=
  let fallback : Answered :=
    ⟨.ok foldDecision, lastReasoning.map fun _ =>
      .str "レスポンスのパースに失敗したため、フォールドします".toList⟩
  match py.jsonStr response with
  | none => fallback
  | some text =>
      match loads text with
      | none => fallback
      | some decision =>
          let read := py.readDecision chips actions decision
          match read.1 with
          | .ok decided => ⟨.ok decided, lastReasoning.map fun last => read.2.getD last⟩
          | .error raised =>
              if raised.caught then fallback
              else ⟨.error raised, lastReasoning.map fun last => read.2.getD last⟩

end PyText

end Holdem
