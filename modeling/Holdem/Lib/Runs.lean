import Mathlib.Data.Option.Basic
import Mathlib.Data.List.Forall2

set_option autoImplicit false

/- Finite runs of a partial step function. A step that returns `none` is not
enabled, so a run exists only while every step it takes is. -/
namespace Runs

variable {State Event : Type}

/-- The state after all the events, when each one is enabled in turn. -/
def run (step : State → Event → Option State) : State → List Event → Option State
  | state, [] => some state
  | state, event :: rest => (step state event).bind fun next => run step next rest

/-- Every step taken along the run meets a condition on its state and event. -/
def meets (step : State → Event → Option State) (cond : State → Event → Bool) :
    State → List Event → Bool
  | _, [] => true
  | state, event :: rest =>
      cond state event &&
        match step state event with
        | none => true
        | some next => meets step cond next rest

variable {step : State → Event → Option State} {cond : State → Event → Bool}

@[simp] theorem run_nil (state : State) : run step state [] = some state := rfl

theorem run_cons (state : State) (event : Event) (rest : List Event) :
    run step state (event :: rest) =
      (step state event).bind fun next => run step next rest := rfl

@[simp] theorem meets_nil (state : State) : meets step cond state [] = true := rfl

theorem meets_step (state : State) (event : Event) (rest : List Event) :
    meets step cond state (event :: rest) =
      (cond state event &&
        match step state event with
        | none => true
        | some next => meets step cond next rest) := rfl

theorem run_cons_eq_some {state final : State} {event : Event} {rest : List Event} :
    run step state (event :: rest) = some final ↔
      ∃ next, step state event = some next ∧ run step next rest = some final := by
  rw [run_cons, Option.bind_eq_some_iff]

theorem run_append {start : State} {first second : List Event} {final : State} :
    run step start (first ++ second) = some final ↔
      ∃ middle, run step start first = some middle ∧ run step middle second = some final := by
  induction first generalizing start with
  | nil => simp
  | cons event rest ih =>
      rw [List.cons_append, run_cons_eq_some]
      constructor
      · rintro ⟨next, taken, remaining⟩
        obtain ⟨middle, before, after⟩ := ih.mp remaining
        exact ⟨middle, run_cons_eq_some.mpr ⟨next, taken, before⟩, after⟩
      · rintro ⟨middle, before, after⟩
        obtain ⟨next, taken, remaining⟩ := run_cons_eq_some.mp before
        exact ⟨next, taken, ih.mpr ⟨middle, remaining, after⟩⟩

theorem meets_cons {state next : State} {event : Event} {rest : List Event}
    (taken : step state event = some next) :
    meets step cond state (event :: rest) = true ↔
      cond state event = true ∧ meets step cond next rest = true := by
  simp only [meets_step, taken, Bool.and_eq_true]

theorem meets_append {start middle : State} {first second : List Event}
    (reached : run step start first = some middle) :
    meets step cond start (first ++ second) = true ↔
      meets step cond start first = true ∧ meets step cond middle second = true := by
  induction first generalizing start with
  | nil =>
      cases reached
      simp
  | cons event rest ih =>
      obtain ⟨next, taken, remaining⟩ := run_cons_eq_some.mp reached
      rw [List.cons_append, meets_cons taken, meets_cons taken, ih remaining, and_assoc]

/-- What holds at the start and survives every step that meets the condition
holds after every run whose steps all meet it. -/
theorem run_invariant (Inv : State → Prop)
    (keeps : ∀ state event next, Inv state → cond state event = true →
      step state event = some next → Inv next)
    {start final : State} {events : List Event} (initial : Inv start)
    (allowed : meets step cond start events = true)
    (reached : run step start events = some final) : Inv final := by
  induction events generalizing start with
  | nil =>
      cases reached
      exact initial
  | cons event rest ih =>
      obtain ⟨next, taken, remaining⟩ := run_cons_eq_some.mp reached
      obtain ⟨here, later⟩ := (meets_cons taken).mp allowed
      exact ih (keeps start event next initial here taken) later remaining

theorem meets_always (start : State) (events : List Event) :
    meets step (fun _ _ => true) start events = true := by
  induction events generalizing start with
  | nil => rfl
  | cons event rest ih =>
      rw [meets_step, Bool.true_and]
      split
      · rfl
      · exact ih _

/-- The rule for invariants that no step breaks. -/
theorem run_invariant_always (Inv : State → Prop)
    (keeps : ∀ state event next, Inv state → step state event = some next → Inv next)
    {start final : State} {events : List Event} (initial : Inv start)
    (reached : run step start events = some final) : Inv final :=
  run_invariant Inv (fun state event next holds _ taken => keeps state event next holds taken)
    initial (meets_always start events) reached

/-- Two conditions that are each met along a run are met together. -/
theorem meets_and {other : State → Event → Bool} {start : State} {events : List Event}
    (first : meets step cond start events = true) (second : meets step other start events = true) :
    meets step (fun state event => cond state event && other state event) start events = true := by
  induction events generalizing start with
  | nil => rfl
  | cons event rest ih =>
      simp only [meets_step, Bool.and_eq_true] at first second ⊢
      refine ⟨⟨first.1, second.1⟩, ?_⟩
      cases taken : step start event with
      | none => rfl
      | some next =>
          have left := first.2
          have right := second.2
          rw [taken] at left right
          exact ih left right

/-- A condition that follows from an invariant is met along every run that keeps it. -/
theorem meets_of_invariant (Inv : State → Prop) {other : State → Event → Bool}
    (keeps : ∀ state event next, Inv state → cond state event = true →
      step state event = some next → Inv next)
    (implied : ∀ state event, Inv state → other state event = true)
    {start : State} {events : List Event} (initial : Inv start)
    (allowed : meets step cond start events = true) :
    meets step other start events = true := by
  induction events generalizing start with
  | nil => rfl
  | cons event rest ih =>
      simp only [meets_step, Bool.and_eq_true] at allowed ⊢
      refine ⟨implied start event initial, ?_⟩
      cases taken : step start event with
      | none => rfl
      | some next =>
          have remaining := allowed.2
          rw [taken] at remaining
          exact ih (keeps start event next initial allowed.1 taken) remaining

theorem meets_take {start : State} {events : List Event}
    (allowed : meets step cond start events = true) (count : Nat) :
    meets step cond start (events.take count) = true := by
  induction events generalizing start count with
  | nil => simp
  | cons event rest ih =>
      cases count with
      | zero => rfl
      | succ count =>
          simp only [meets_step, List.take_succ_cons, Bool.and_eq_true] at allowed ⊢
          refine ⟨allowed.1, ?_⟩
          cases taken : step start event with
          | none => rfl
          | some next =>
              have remaining := allowed.2
              rw [taken] at remaining
              exact ih remaining count

/-- What a step function that answers every event answers, one event after another,
with the state after each. -/
def trace {Answer : Type} (serve : State → Event → Answer × State) :
    State → List Event → List (Answer × State)
  | _, [] => []
  | state, event :: rest => serve state event :: trace serve (serve state event).2 rest

/-- A relation that every event preserves while the answers agree makes whole traces
agree, entry by entry. -/
theorem trace_related {Answer : Type} {serve : State → Event → Answer × State}
    (Rel : State → State → Prop)
    (keeps : ∀ left right event, Rel left right →
      (serve left event).1 = (serve right event).1 ∧
        Rel (serve left event).2 (serve right event).2)
    {left right : State} (related : Rel left right) (events : List Event) :
    List.Forall₂ (fun first second => first.1 = second.1 ∧ Rel first.2 second.2)
      (trace serve left events) (trace serve right events) := by
  induction events generalizing left right with
  | nil => exact List.Forall₂.nil
  | cons event rest ih =>
      have step := keeps left right event related
      constructor
      · exact step
      · exact ih step.2

/-! ### What a run costs -/

/-- The costs of the steps of a run, added up. -/
def spent (step : State → Event → Option State) (cost : State → Event → Int) :
    State → List Event → Int
  | _, [] => 0
  | state, event :: rest =>
      cost state event +
        match step state event with
        | none => 0
        | some next => spent step cost next rest

theorem spent_nil (cost : State → Event → Int) (state : State) :
    spent step cost state [] = 0 := rfl

theorem spent_step (cost : State → Event → Int) (state : State) (event : Event)
    (rest : List Event) : spent step cost state (event :: rest) =
      cost state event +
        match step state event with
        | none => 0
        | some next => spent step cost next rest := rfl

theorem spent_cons {cost : State → Event → Int} {state next : State} {event : Event}
    {rest : List Event} (taken : step state event = some next) :
    spent step cost state (event :: rest) = cost state event + spent step cost next rest := by
  simp only [spent_step, taken]

theorem spent_concat {cost : State → Event → Int} {start middle next : State}
    {events : List Event} {event : Event} (reached : run step start events = some middle)
    (taken : step middle event = some next) :
    spent step cost start (events ++ [event]) =
      spent step cost start events + cost middle event := by
  induction events generalizing start with
  | nil =>
      cases reached
      rw [List.nil_append, spent_cons taken]
      rw [spent_nil, spent_nil, Int.add_zero, Int.zero_add]
  | cons first rest ih =>
      obtain ⟨after, here, remaining⟩ := run_cons_eq_some.mp reached
      rw [List.cons_append, spent_cons here, spent_cons here, ih remaining, Int.add_assoc]

theorem spent_nonneg {cost : State → Event → Int} (nonneg : ∀ state event, 0 ≤ cost state event)
    (start : State) (events : List Event) : 0 ≤ spent step cost start events := by
  induction events generalizing start with
  | nil => exact Int.le_refl 0
  | cons event rest ih =>
      have here := nonneg start event
      rw [spent_step]
      split
      · omega
      · rename_i next _
        have later := ih next
        omega

/-- A quantity that every step lowers by its cost is at the end lower by what the whole run
costs. -/
theorem run_spent (Inv : State → Prop) (quantity : State → Int) (cost : State → Event → Int)
    (keeps : ∀ state event next, Inv state → step state event = some next → Inv next)
    (lowers : ∀ state event next, Inv state → step state event = some next →
      quantity next + cost state event = quantity state)
    {start final : State} {events : List Event} (initial : Inv start)
    (reached : run step start events = some final) :
    quantity final + spent step cost start events = quantity start := by
  induction events generalizing start with
  | nil =>
      cases reached
      exact Int.add_zero _
  | cons event rest ih =>
      obtain ⟨next, taken, remaining⟩ := run_cons_eq_some.mp reached
      have here := lowers start event next initial taken
      have later := ih (keeps start event next initial taken) remaining
      rw [spent_cons taken]
      omega

end Runs
