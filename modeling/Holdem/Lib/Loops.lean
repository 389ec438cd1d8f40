set_option autoImplicit false

/- Loops whose passes depend on the time, as a program that draws random numbers does:
one pass goes on, leaves the loop, or raises. -/
namespace Loops

inductive Pass (State Fault : Type)
  | next (state : State)
  | done (state : State)
  | raised (fault : Fault)

variable {State Fault : Type}

/-- A number of passes of a loop, from a time on. What is still `next` has not left it. -/
def runFor (pass : Nat → State → Pass State Fault) : Nat → Nat → State → Pass State Fault
  | 0, _, state => .next state
  | count + 1, time, state =>
      match pass time state with
      | .next after => runFor pass count (time + 1) after
      | .done final => .done final
      | .raised fault => .raised fault

section Rules

variable {pass : Nat → State → Pass State Fault} {time : Nat} {state after final : State}

theorem runFor_step (pass : Nat → State → Pass State Fault) (count time : Nat) (state : State) :
    runFor pass (count + 1) time state =
      match pass time state with
      | .next after => runFor pass count (time + 1) after
      | .done final => .done final
      | .raised fault => .raised fault := rfl

theorem runFor_next (taken : pass time state = .next after) (count : Nat) :
    runFor pass (count + 1) time state = runFor pass count (time + 1) after := by
  rw [runFor_step, taken]

theorem runFor_done (left : pass time state = .done final) (count : Nat) :
    runFor pass (count + 1) time state = .done final := by
  rw [runFor_step, left]

theorem runFor_raised {fault : Fault} (raised : pass time state = .raised fault) (count : Nat) :
    runFor pass (count + 1) time state = .raised fault := by
  rw [runFor_step, raised]

theorem runFor_append {count : Nat} (reached : runFor pass count time state = .next after)
    (more : Nat) :
    runFor pass (count + more) time state = runFor pass more (time + count) after := by
  induction count generalizing time state with
  | zero =>
      cases reached
      rw [Nat.zero_add, Nat.add_zero]
  | succ count ih =>
      have shape : count + 1 + more = count + more + 1 := by omega
      cases taken : pass time state with
      | next middle =>
          rw [runFor_next taken] at reached
          rw [shape, runFor_next taken, ih reached]
          congr 1
          omega
      | done final =>
          rw [runFor_done taken] at reached
          cases reached
      | raised fault =>
          rw [runFor_raised taken] at reached
          cases reached

theorem runFor_stays_done {count : Nat} (ended : runFor pass count time state = .done final)
    (more : Nat) : runFor pass (count + more) time state = .done final := by
  induction count generalizing time state with
  | zero => cases ended
  | succ count ih =>
      have shape : count + 1 + more = count + more + 1 := by omega
      cases taken : pass time state with
      | next middle =>
          rw [runFor_next taken] at ended
          rw [shape, runFor_next taken, ih ended]
      | done other =>
          rw [runFor_done taken] at ended
          rw [shape, runFor_done taken, ended]
      | raised fault =>
          rw [runFor_raised taken] at ended
          cases ended

/-- A loop that never raises and whose every pass uses up some of a budget is left within
the budget. -/
theorem done_within (Within : Nat → State → Nat → Prop) (Left : State → Prop)
    (passes : ∀ time state budget, Within time state budget →
      (∃ final, pass time state = .done final ∧ Left final) ∨
        ∃ after less, pass time state = .next after ∧ less < budget ∧
          Within (time + 1) after less)
    {budget : Nat} (start : Within time state budget) :
    ∃ final, runFor pass (budget + 1) time state = .done final ∧ Left final := by
  induction budget using Nat.strongRecOn generalizing state time with
  | ind budget ih =>
      rcases passes time state budget start with ⟨final, left, holds⟩ |
        ⟨after, less, taken, lower, within⟩
      · exact ⟨final, runFor_done left budget, holds⟩
      · obtain ⟨final, ended, holds⟩ := ih less lower within
        refine ⟨final, ?_, holds⟩
        have shape : budget = less + 1 + (budget - less - 1) := by omega
        rw [runFor_next taken, shape]
        exact runFor_stays_done ended _

/-- A number of passes of a loop that never raises either leaves it or keeps what every pass
keeps. -/
theorem runFor_keeps (Inv Left : State → Prop) (height : State → Nat)
    (passes : ∀ time state, Inv state →
      (∃ final, pass time state = .done final ∧ Left final) ∨
        ∃ after, pass time state = .next after ∧ Inv after ∧ height after ≤ height state)
    (count : Nat) (start : Inv state) :
    (∃ final, runFor pass count time state = .done final ∧ Left final) ∨
      ∃ after, runFor pass count time state = .next after ∧ Inv after ∧
        height after ≤ height state := by
  induction count generalizing time state with
  | zero => exact Or.inr ⟨state, rfl, start, Nat.le_refl _⟩
  | succ count ih =>
      rcases passes time state start with ⟨final, left, holds⟩ | ⟨after, taken, kept, level⟩
      · exact Or.inl ⟨final, runFor_done left count, holds⟩
      · rw [runFor_next taken]
        rcases ih kept with ended | ⟨later, reached, still, lower⟩
        · exact Or.inl ended
        · exact Or.inr ⟨later, reached, still, Nat.le_trans lower level⟩

/-- A number of passes of a loop keeps what every pass keeps, leaves it, or raises in a pass
that can, after passes that have kept it. -/
theorem runFor_outcome (Inv Left : State → Prop) (Trips : Nat → State → Prop)
    (passes : ∀ time state, Inv state →
      (∃ final, pass time state = .done final ∧ Left final) ∨
        (∃ after, pass time state = .next after ∧ Inv after) ∨
          Trips time state ∧ ∃ fault, pass time state = .raised fault)
    (count : Nat) (start : Inv state) :
    (∃ final, runFor pass count time state = .done final ∧ Left final) ∨
      (∃ after, runFor pass count time state = .next after ∧ Inv after) ∨
        ∃ before middle, before < count ∧ runFor pass before time state = .next middle ∧
          Inv middle ∧ Trips (time + before) middle ∧
            ∃ fault, runFor pass count time state = .raised fault := by
  induction count generalizing time state with
  | zero => exact Or.inr (Or.inl ⟨state, rfl, start⟩)
  | succ count ih =>
      rcases passes time state start with ⟨final, left, holds⟩ | ⟨after, taken, kept⟩ |
        ⟨trips, fault, raised⟩
      · exact Or.inl ⟨final, runFor_done left count, holds⟩
      · rw [runFor_next taken]
        rcases ih kept with ended | going | ⟨before, middle, order, reached, still, trips, raised⟩
        · exact Or.inl ended
        · exact Or.inr (Or.inl going)
        · refine Or.inr (Or.inr ⟨before + 1, middle, by omega, ?_, still, ?_, raised⟩)
          · rw [runFor_next taken, reached]
          · rwa [show time + (before + 1) = time + 1 + before by omega]
      · exact Or.inr (Or.inr ⟨0, state, by omega, rfl, start, trips, fault,
          runFor_raised raised count⟩)

/-- A loop that never raises is left if a height no pass lifts is lowered within a number of
passes from any of infinitely many times. -/
theorem done_eventually (Inv Left : State → Prop) (height : State → Nat) (lucky : Nat → Prop)
    (window : Nat)
    (passes : ∀ time state, Inv state →
      (∃ final, pass time state = .done final ∧ Left final) ∨
        ∃ after, pass time state = .next after ∧ Inv after ∧ height after ≤ height state)
    (lowers : ∀ time state after, lucky time → Inv state →
      runFor pass window time state = .next after → height after < height state)
    (often : ∀ time, ∃ later, time ≤ later ∧ lucky later) (start : Inv state) (time : Nat) :
    ∃ count final, runFor pass count time state = .done final ∧ Left final := by
  generalize top : height state = bound
  induction bound using Nat.strongRecOn generalizing state time with
  | ind bound ih =>
      obtain ⟨later, order, luck⟩ := often time
      rcases runFor_keeps Inv Left height passes (later - time) start with
        ⟨final, ended⟩ | ⟨middle, reached, kept, level⟩
      · exact ⟨later - time, final, ended⟩
      · have clock : time + (later - time) = later := by omega
        rcases runFor_keeps Inv Left height passes window kept with
          ⟨final, ended, holds⟩ | ⟨after, taken, still, _⟩
        · refine ⟨later - time + window, final, ?_, holds⟩
          rw [runFor_append reached, clock]
          exact ended
        · have lower := lowers later middle after luck kept taken
          obtain ⟨count, final, ended, holds⟩ :=
            ih (height after) (by omega) still (later + window) rfl
          refine ⟨later - time + window + count, final, ?_, holds⟩
          rw [Nat.add_assoc, runFor_append reached, clock, runFor_append taken]
          exact ended

end Rules

end Loops
