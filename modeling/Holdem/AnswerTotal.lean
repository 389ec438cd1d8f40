import Holdem.AgentAnswer
import Mathlib.Data.Rat.Lemmas
import Mathlib.Algebra.Order.Ring.Rat

set_option autoImplicit false

/- Which answers `_parse_llm_response` turns into a decision the game can take. -/
namespace Holdem

def promisedActions : List (List Char) :=
  ["fold".toList, "check".toList, "call".toList, "raise".toList, "all_in".toList]

/-- One of the promised actions with an amount that is not negative. -/
def AgentDecision.Playable (decision : AgentDecision) : Prop :=
  decision.action ∈ promisedActions ∧ 0 ≤ decision.amount

namespace PyText

def Readable (py : PyText) (loads : List Char → Option Json) (chips : Int)
    (actions : List (List Char)) (response : List Char) : Prop :=
  ∃ text object read, py.jsonStr response = some text ∧ loads text = some object ∧
    (py.readDecision chips actions object).1 = .ok read ∧ read.Playable

/-- `_parse_llm_response` returns a playable decision, and folds what it cannot read as one. -/
def AnsweredWell (py : PyText) (loads : List Char → Option Json) (chips : Int)
    (actions : List (List Char)) (lastReasoning : Option Json) (response : List Char) : Prop :=
  ∃ decision, (py.parseLlmResponse loads chips actions lastReasoning response).result =
      .ok decision ∧ decision.Playable ∧
    (¬py.Readable loads chips actions response → decision = foldDecision)

/-- Amounts that `int` takes to a number from zero on, or refuses with `ValueError`. -/
def Countable (py : PyText) : Json → Prop
  | .int value => 0 ≤ value
  | .bool _ => True
  | .float (.finite value) => -1 < value
  | .float .nan => True
  | .float .infinity => False
  | .float .negInfinity => False
  | .str text => ∀ value, Numeral.parseInt py.alphabet text = some value → 0 ≤ value
  | .null => False
  | .list _ => False
  | .dict _ => False

/-- Amounts that can be compared with a minimum, other than infinity. -/
def Orderable : Json → Prop
  | .int _ => True
  | .bool _ => True
  | .float .infinity => False
  | .float _ => True
  | _ => False

def Refused (py : PyText) : Json → Prop
  | .float .nan => True
  | .str text => Numeral.parseInt py.alphabet text = none
  | _ => False

/-- The amounts that do no harm beside an action in lower case. -/
def HarmlessAmount (py : PyText) (chips : Int) (actions : List (List Char))
    (action : List Char) (amount : Json) : Prop :=
  if action = "fold".toList ∨ action = "check".toList then True
  else if action = "call".toList then
    (py.listedCall actions).isSome = true ∨ py.Countable amount
  else if action = "all_in".toList ∨ action = "all-in".toList then 0 ≤ chips
  else if action = "raise".toList then
    if 0 < py.minRaise actions then Orderable amount else py.Countable amount
  else py.Refused amount

/-- The objects that do no harm: no dictionary, an action that is no text, or an amount that
does none. -/
def Harmless (py : PyText) (chips : Int) (actions : List (List Char)) : Json → Prop
  | .dict entries =>
      match (entries.lookup "action".toList).getD (.str "fold".toList) with
      | .str text => py.HarmlessAmount chips actions (py.lower text)
          ((entries.lookup "amount".toList).getD (.int 0))
      | _ => True
  | _ => True

/-- A reading ends in a playable decision or in an exception that is caught. -/
def Settles (read : Except Raised AgentDecision) : Prop :=
  match read with
  | .ok decision => decision.Playable
  | .error raised => raised.caught = true

variable {py : PyText} {chips : Int} {actions : List (List Char)}

/-- The answer is treated well exactly when the reading of what is decoded settles. -/
theorem answeredWell_iff_settles {loads : List Char → Option Json} {lastReasoning : Option Json}
    {response : List Char} :
    py.AnsweredWell loads chips actions lastReasoning response ↔
      ∀ text object, py.jsonStr response = some text → loads text = some object →
        Settles (py.readDecision chips actions object).1 := by
  have folded : foldDecision.Playable := ⟨List.mem_cons_self .., Int.le_refl 0⟩
  unfold AnsweredWell parseLlmResponse
  cases found : py.jsonStr response with
  | none =>
      constructor
      · intro _ text _ impossible
        cases impossible
      · intro _
        exact ⟨foldDecision, rfl, folded, fun _ => rfl⟩
  | some text =>
      cases decoded : loads text with
      | none =>
          constructor
          · intro _ other object same impossible
            cases same
            rw [decoded] at impossible
            cases impossible
          · intro _
            refine ⟨foldDecision, ?_, folded, fun _ => rfl⟩
            simp only [decoded]
      | some object =>
          have only : (∀ other value, some text = some other → loads other = some value →
              Settles (py.readDecision chips actions value).1) ↔
              Settles (py.readDecision chips actions object).1 := by
            constructor
            · intro every
              exact every text object rfl decoded
            · intro settles other value same loaded
              cases same
              rw [decoded] at loaded
              cases loaded
              exact settles
          rw [only]
          simp only [decoded]
          cases read : (py.readDecision chips actions object).1 with
          | error raised =>
              by_cases caught : raised.caught = true
              · simp only [caught, if_pos]
                exact ⟨fun _ => caught, fun _ => ⟨foldDecision, rfl, folded, fun _ => rfl⟩⟩
              · simp only [caught]
                constructor
                · rintro ⟨decision, returned, _⟩
                  cases returned
                · intro settles
                  exact absurd settles caught
          | ok decision =>
              constructor
              · rintro ⟨other, returned, playable, _⟩
                cases returned
                exact playable
              · intro playable
                refine ⟨decision, rfl, playable, ?_⟩
                intro unreadable
                exact absurd ⟨text, object, decision, found, decoded, read, playable⟩ unreadable

/-- An amount ends as a number from zero on or in an exception that is caught. -/
def SettlesAmount (counted : Except Raised Int) : Prop :=
  match counted with
  | .ok value => 0 ≤ value
  | .error raised => raised.caught = true

theorem tdiv_nonneg_iff (value : Rat) : 0 ≤ value.num.tdiv value.den ↔ -1 < value := by
  have pos : (0 : Int) < value.den := by exact_mod_cast value.den_pos
  have compared : -1 < value ↔ -(value.den : Int) < value.num := by
    rw [Rat.lt_iff]
    show -1 * (value.den : Int) < value.num * 1 ↔ _
    rw [neg_one_mul, mul_one]
  rw [compared]
  rcases Int.le_total 0 value.num with above | below
  · have quotient := Int.tdiv_nonneg above (Int.le_of_lt pos)
    exact ⟨fun _ => by omega, fun _ => quotient⟩
  · obtain ⟨size, signed⟩ : ∃ size : Int, value.num = -size := ⟨-value.num, by omega⟩
    rw [signed, Int.neg_tdiv, Int.tdiv_eq_ediv_of_nonneg (by omega)]
    by_cases small : size < value.den
    · rw [Int.ediv_eq_zero_of_lt (by omega) small]
      exact ⟨fun _ => by omega, fun _ => by omega⟩
    · have whole : 1 ≤ size / value.den := (Int.le_ediv_iff_mul_le pos).mpr (by omega)
      exact ⟨fun _ => by omega, fun _ => by omega⟩

theorem toInt_settles (amount : Json) :
    SettlesAmount (py.toInt amount) ↔ py.Countable amount := by
  cases amount with
  | null => exact ⟨nofun, False.elim⟩
  | bool value =>
      refine ⟨fun _ => trivial, fun _ => ?_⟩
      cases value
      · exact Int.le_refl 0
      · exact Int.zero_le_ofNat 1
  | int value => exact Iff.rfl
  | float value =>
      cases value with
      | finite value => exact tdiv_nonneg_iff value
      | nan => exact ⟨fun _ => trivial, fun _ => rfl⟩
      | infinity => exact ⟨nofun, False.elim⟩
      | negInfinity => exact ⟨nofun, False.elim⟩
  | str text =>
      simp only [toInt, Countable]
      cases Numeral.parseInt py.alphabet text with
      | none => exact ⟨fun _ => nofun, fun _ => rfl⟩
      | some value =>
          constructor
          · intro settles other same
            cases same
            exact settles
          · intro every
            exact every value rfl
  | list items => exact ⟨nofun, False.elim⟩
  | dict entries => exact ⟨nofun, False.elim⟩

theorem toInt_refused (amount : Json) :
    py.toInt amount = .error .valueError ↔ py.Refused amount := by
  cases amount with
  | null => exact ⟨nofun, False.elim⟩
  | bool value => exact ⟨nofun, False.elim⟩
  | int value => exact ⟨nofun, False.elim⟩
  | float value =>
      cases value with
      | finite value => exact ⟨nofun, False.elim⟩
      | nan => exact ⟨fun _ => trivial, fun _ => rfl⟩
      | infinity => exact ⟨nofun, False.elim⟩
      | negInfinity => exact ⟨nofun, False.elim⟩
  | str text =>
      simp only [toInt, Refused]
      cases Numeral.parseInt py.alphabet text with
      | none => exact ⟨fun _ => rfl, fun _ => rfl⟩
      | some value => exact ⟨nofun, nofun⟩
  | list items => exact ⟨nofun, False.elim⟩
  | dict entries => exact ⟨nofun, False.elim⟩

def finish (py : PyText) (action : List Char) (amount : Json) : Except Raised AgentDecision :=
  match py.toInt amount with
  | .error raised => .error raised
  | .ok amount => .ok ⟨action, amount⟩

/-- With a promised action it depends on the amount alone whether the reading settles. -/
theorem finish_promised {action : List Char} (promised : action ∈ promisedActions)
    (amount : Json) : Settles (py.finish action amount) ↔ py.Countable amount := by
  rw [← toInt_settles]
  unfold finish
  cases py.toInt amount with
  | error raised => exact Iff.rfl
  | ok value => exact ⟨fun playable => playable.2, fun counted => ⟨promised, counted⟩⟩

/-- Of the exceptions of `int` only `ValueError` is caught. -/
theorem toInt_caught {amount : Json} {raised : Raised} (failed : py.toInt amount = .error raised)
    (caught : raised.caught = true) : raised = .valueError := by
  unfold toInt at failed
  split at failed
  · cases failed
  · cases failed
  · cases failed
  · cases failed
    rfl
  · cases failed
    cases caught
  · cases failed
    cases caught
  · split at failed
    · cases failed
    · cases failed
      rfl
  · cases failed
    cases caught
  · cases failed
    cases caught
  · cases failed
    cases caught

theorem finish_unknown {action : List Char} (unknown : action ∉ promisedActions)
    (amount : Json) : Settles (py.finish action amount) ↔ py.Refused amount := by
  rw [← toInt_refused]
  unfold finish
  cases counted : py.toInt amount with
  | error raised =>
      constructor
      · intro caught
        rw [toInt_caught counted caught]
      · intro refused
        cases refused
        rfl
  | ok value => exact ⟨fun playable => absurd playable.1 unknown, nofun⟩

theorem raise_settles {minimum : Nat} (positive : 0 < minimum) (amount : Json) :
    Settles (match lessThan amount minimum with
      | .error raised => .error raised
      | .ok true => py.finish "raise".toList (.int minimum)
      | .ok false => py.finish "raise".toList amount) ↔ Orderable amount := by
  have promised : "raise".toList ∈ promisedActions := by decide
  have raised : Settles (py.finish "raise".toList (.int minimum)) := by
    rw [finish_promised promised]
    exact Int.natCast_nonneg minimum
  have compared : ∀ below : Bool, (below = false → py.Countable amount) →
      Settles (match (Except.ok below : Except Raised Bool) with
        | .error raised => .error raised
        | .ok true => py.finish "raise".toList (.int minimum)
        | .ok false => py.finish "raise".toList amount) := by
    intro below enough
    cases below with
    | true => exact raised
    | false => exact (finish_promised promised amount).mpr (enough rfl)
  cases amount with
  | null => exact ⟨nofun, False.elim⟩
  | bool value => exact ⟨fun _ => trivial, fun _ => compared _ fun _ => trivial⟩
  | int value =>
      refine ⟨fun _ => trivial, fun _ => compared _ ?_⟩
      intro above
      have bound := of_decide_eq_false above
      show 0 ≤ value
      omega
  | float value =>
      cases value with
      | finite value =>
          refine ⟨fun _ => trivial, fun _ => compared _ ?_⟩
          intro above
          have bound := of_decide_eq_false above
          have least : (0 : Rat) ≤ ((minimum : Int) : Rat) := by
            exact_mod_cast Nat.zero_le minimum
          calc (-1 : Rat) < 0 := neg_one_lt_zero
            _ ≤ ((minimum : Int) : Rat) := least
            _ ≤ value := not_lt.mp bound
      | nan => exact ⟨fun _ => trivial, fun _ => compared false fun _ => trivial⟩
      | infinity =>
          refine ⟨fun settles => ?_, False.elim⟩
          exact (finish_promised promised (.float .infinity)).mp settles
      | negInfinity => exact ⟨fun _ => trivial, fun _ => raised⟩
  | str text => exact ⟨nofun, False.elim⟩
  | list items => exact ⟨nofun, False.elim⟩
  | dict entries => exact ⟨nofun, False.elim⟩

theorem readDecision_dict {entries : List (List Char × Json)} {text : List Char}
    (action : (entries.lookup "action".toList).getD (.str "fold".toList) = .str text) :
    (py.readDecision chips actions (.dict entries)).1 =
      match py.normalise chips actions (py.lower text)
        ((entries.lookup "amount".toList).getD (.int 0)) with
      | .error raised => .error raised
      | .ok (action, amount) => py.finish action amount := by
  unfold readDecision finish
  simp only [action]
  cases py.normalise chips actions (py.lower text)
      ((entries.lookup "amount".toList).getD (.int 0)) with
  | error raised => rfl
  | ok normalised =>
      dsimp only
      cases py.toInt normalised.2 with
      | error raised => rfl
      | ok amount => rfl

/-- The branches of the normalisation, one by one. -/
theorem harmlessAmount_iff (action : List Char) (amount : Json) :
    Settles (match py.normalise chips actions action amount with
      | .error raised => .error raised
      | .ok (action, amount) => py.finish action amount) ↔
      py.HarmlessAmount chips actions action amount := by
  unfold normalise HarmlessAmount
  by_cases passive : action = "fold".toList ∨ action = "check".toList
  · rw [if_pos passive, if_pos passive]
    have promised : action ∈ promisedActions := by
      rcases passive with fold | check
      · rw [fold]
        decide
      · rw [check]
        decide
    refine ⟨fun _ => trivial, fun _ => ?_⟩
    exact (finish_promised promised (.int 0)).mpr (Int.le_refl 0)
  · rw [if_neg passive, if_neg passive]
    by_cases call : action = "call".toList
    · rw [if_pos call, if_pos call, call]
      have promised : "call".toList ∈ promisedActions := by decide
      cases py.listedCall actions with
      | none =>
          refine (finish_promised promised amount).trans ?_
          exact ⟨Or.inr, fun either => either.resolve_left nofun⟩
      | some price =>
          refine ⟨fun _ => Or.inl rfl, fun _ => ?_⟩
          exact (finish_promised promised (.int price)).mpr (Int.natCast_nonneg price)
    · rw [if_neg call, if_neg call]
      by_cases allIn : action = "all_in".toList ∨ action = "all-in".toList
      · rw [if_pos allIn, if_pos allIn]
        exact finish_promised (by decide) (.int chips)
      · rw [if_neg allIn, if_neg allIn]
        by_cases raising : action = "raise".toList
        · rw [if_pos raising, if_pos raising, raising]
          dsimp only
          by_cases positive : 0 < py.minRaise actions
          · rw [if_pos positive, if_pos positive, ← raise_settles positive]
            cases lessThan amount (py.minRaise actions) with
            | error raised => exact Iff.rfl
            | ok below =>
                cases below with
                | true => exact Iff.rfl
                | false => exact Iff.rfl
          · rw [if_neg positive, if_neg positive]
            exact finish_promised (by decide) amount
        · rw [if_neg raising, if_neg raising]
          apply finish_unknown
          simp only [promisedActions, List.mem_cons, List.not_mem_nil, or_false, not_or]
          exact ⟨fun same => passive (Or.inl same), fun same => passive (Or.inr same), call,
            raising, fun same => allIn (Or.inl same)⟩

theorem readDecision_settles (object : Json) :
    Settles (py.readDecision chips actions object).1 ↔ py.Harmless chips actions object := by
  cases object with
  | dict entries =>
      cases action : (entries.lookup "action".toList).getD (.str "fold".toList) with
      | str text =>
          rw [readDecision_dict action]
          simp only [Harmless, action]
          exact harmlessAmount_iff ..
      | _ =>
          simp only [readDecision, Harmless, action]
          exact ⟨fun _ => trivial, fun _ => rfl⟩
  | _ => exact ⟨fun _ => trivial, fun _ => rfl⟩

/-- Whatever `json.loads` returns, the response is answered with a playable decision exactly
when the object decoded from it does no harm. -/
theorem answeredWell_iff (py : PyText) (loads : List Char → Option Json) (chips : Int)
    (actions : List (List Char)) (lastReasoning : Option Json) (response : List Char) :
    py.AnsweredWell loads chips actions lastReasoning response ↔
      ∀ text object, py.jsonStr response = some text → loads text = some object →
        py.Harmless chips actions object := by
  rw [answeredWell_iff_settles]
  simp only [readDecision_settles]

theorem not_answeredWell {loads : List Char → Option Json} {lastReasoning : Option Json}
    {response : List Char} {result : Except Raised AgentDecision}
    (computed : (py.parseLlmResponse loads chips actions lastReasoning response).result = result)
    (bad : ∀ decision, result = .ok decision → ¬decision.Playable) :
    ¬py.AnsweredWell loads chips actions lastReasoning response := by
  rintro ⟨decision, returned, playable, _⟩
  exact bad decision (computed.symm.trans returned) playable

def loadsOne (text : String) (object : List (List Char × Json)) (asked : List Char) :
    Option Json :=
  if asked = text.toList then some (.dict object) else none

/-- A response of an action and an amount is answered well by a player with 500 chips. -/
def AnsweredTo (listed text action : String) (amount : Json) : Prop :=
  ascii.AnsweredWell
    (loadsOne text [("action".toList, .str action.toList), ("amount".toList, amount)]) 500
    [listed.toList] none text.toList

/-- An amount that is `null`, one that is `Infinity`, an action nobody promised, and a negative
amount. -/
theorem answers_go_wrong :
    ¬AnsweredTo "raise (min 40)" "\x7b\"action\": \"raise\", \"amount\": null\x7d" "raise"
        .null ∧
      ¬AnsweredTo "raise (min 40)" "\x7b\"action\": \"raise\", \"amount\": Infinity\x7d"
        "raise" (.float .infinity) ∧
      ¬AnsweredTo "raise (min 40)" "\x7b\"action\": \"bet\", \"amount\": 40\x7d" "bet"
        (.int 40) ∧
      ¬AnsweredTo "check" "\x7b\"action\": \"call\", \"amount\": -5\x7d" "call" (.int (-5)) := by
  refine ⟨?_, ?_, ?_, ?_⟩
  · apply @not_answeredWell _ _ _ _ _ _ (.error .typeError)
    · decide
    · exact nofun
  · apply @not_answeredWell _ _ _ _ _ _ (.error .overflowError)
    · decide
    · exact nofun
  · apply @not_answeredWell _ _ _ _ _ _ (.ok ⟨"bet".toList, 40⟩)
    · decide
    · intro decision same playable
      cases same
      exact absurd playable.1 (by decide)
  · apply @not_answeredWell _ _ _ _ _ _ (.ok ⟨"call".toList, -5⟩)
    · decide
    · intro decision same playable
      cases same
      exact absurd playable.2 (by decide)

end PyText

end Holdem
