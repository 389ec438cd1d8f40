import Mathlib.Data.List.Basic
import Mathlib.Data.List.GetD

set_option autoImplicit false

/- Seats around a table of `n`, searched clockwise. Nothing here refers to a
particular game: a seat is a natural number below `n`, and a search asks for the
first seat after a given one that satisfies a Boolean test. -/
namespace Clockwise

/-- Place of `seat` in the order `base + 1, base + 2, …, base` around the table. -/
def place (n base seat : Nat) : Nat := (seat + n - (base + 1)) % n

/-- The first of the `count` seats after `start` that passes the test. -/
def search (n : Nat) (good : Nat → Bool) (start count : Nat) : Option Nat :=
  ((List.range count).map fun i => (start + (i + 1)) % n).find? good

theorem place_eq {n base seat : Nat} (baseIn : base < n) (seatIn : seat < n) :
    place n base seat = if base < seat then seat - base - 1 else seat + n - base - 1 := by
  unfold place
  split
  · rw [show seat + n - (base + 1) = (seat - base - 1) + n by omega, Nat.add_mod_right]
    exact Nat.mod_eq_of_lt (by omega)
  · rw [Nat.mod_eq_of_lt (by omega)]
    omega

theorem place_lt {n base : Nat} (baseIn : base < n) (seat : Nat) : place n base seat < n :=
  Nat.mod_lt _ (by omega)

theorem place_self {n base : Nat} (baseIn : base < n) : place n base base = n - 1 := by
  rw [place_eq baseIn baseIn, if_neg (Nat.lt_irrefl base)]
  omega

theorem place_eq_from {n base start seat : Nat} (baseIn : base < n) (startIn : start < n)
    (seatIn : seat < n) :
    place n start seat =
      if place n base start < place n base seat then place n base seat - place n base start - 1
      else place n base seat + n - place n base start - 1 := by
  rw [place_eq baseIn startIn, place_eq baseIn seatIn, place_eq startIn seatIn]
  split_ifs <;> omega

theorem place_injective {n base left right : Nat} (baseIn : base < n) (leftIn : left < n)
    (rightIn : right < n) (same : place n base left = place n base right) : left = right := by
  rw [place_eq baseIn leftIn, place_eq baseIn rightIn] at same
  split at same <;> split at same <;> omega

theorem place_ne {n base left right : Nat} (baseIn : base < n) (leftIn : left < n)
    (rightIn : right < n) (apart : left ≠ right) : place n base left ≠ place n base right :=
  fun same => apart (place_injective baseIn leftIn rightIn same)

/-- Every seat comes first after some seat. -/
theorem exists_place_zero {n seat : Nat} (seatIn : seat < n) :
    ∃ base, base < n ∧ place n base seat = 0 := by
  by_cases first : seat = 0
  · refine ⟨n - 1, by omega, ?_⟩
    rw [place_eq (by omega) seatIn, if_neg (by omega)]
    omega
  · refine ⟨seat - 1, by omega, ?_⟩
    rw [place_eq (by omega) seatIn, if_pos (by omega)]
    omega

theorem step_place {n base offset : Nat} (baseIn : base < n) (within : offset < n) :
    (base + (offset + 1)) % n < n ∧ place n base ((base + (offset + 1)) % n) = offset := by
  have inside : (base + (offset + 1)) % n < n := Nat.mod_lt _ (by omega)
  refine ⟨inside, ?_⟩
  rw [place_eq baseIn inside]
  by_cases small : base + (offset + 1) < n
  · rw [Nat.mod_eq_of_lt small]
    split <;> omega
  · rw [Nat.mod_eq_sub_mod (by omega), Nat.mod_eq_of_lt (by omega)]
    split <;> omega

theorem step_of_place {n base seat : Nat} (baseIn : base < n) (seatIn : seat < n) :
    (base + (place n base seat + 1)) % n = seat := by
  have reached := step_place baseIn (place_lt baseIn seat)
  exact place_injective baseIn reached.1 seatIn reached.2

/-- A search finds exactly the passing seat that comes first after the start. -/
theorem search_eq_some_iff {n start count seat : Nat} {good : Nat → Bool}
    (startIn : start < n) (bounded : count ≤ n) :
    search n good start count = some seat ↔
      seat < n ∧ good seat = true ∧ place n start seat < count ∧
        ∀ other < n, good other = true → place n start seat ≤ place n start other := by
  unfold search
  rw [List.find?_eq_some_iff_getElem]
  constructor
  · rintro ⟨passes, index, inside, here, earlier⟩
    simp only [List.length_map, List.length_range] at inside
    simp only [List.getElem_map, List.getElem_range] at here earlier
    have reached := step_place startIn (show index < n by omega)
    rw [here] at reached
    refine ⟨reached.1, passes, by omega, ?_⟩
    intro other otherIn otherPasses
    by_contra later
    have before := earlier (place n start other) (by omega)
    rw [step_of_place startIn otherIn, otherPasses] at before
    cases before
  · rintro ⟨seatIn, passes, within, first⟩
    refine ⟨passes, place n start seat, by simpa using within, ?_, ?_⟩
    · simpa using step_of_place startIn seatIn
    · intro index before
      have reached := step_place startIn (show index < n by omega)
      simp only [List.getElem_map, List.getElem_range, Bool.not_eq_true']
      by_contra passing
      have late := first _ reached.1 (by simpa using passing)
      omega

theorem search_eq_none_iff {n start count : Nat} {good : Nat → Bool}
    (startIn : start < n) (bounded : count ≤ n) :
    search n good start count = none ↔
      ∀ other < n, good other = true → count ≤ place n start other := by
  unfold search
  simp only [List.find?_eq_none, List.mem_map, List.mem_range, forall_exists_index, and_imp,
    forall_apply_eq_imp_iff₂, Bool.not_eq_true]
  constructor
  · intro fails other otherIn passes
    by_contra near
    have missed := fails (place n start other) (by omega)
    rw [step_of_place startIn otherIn, passes] at missed
    cases missed
  · intro far offset near
    have reached := step_place startIn (show offset < n by omega)
    by_contra passing
    have late := far _ reached.1 (by simpa using passing)
    omega

/-- Seen from any third seat, a full search either moves forward past no passing
seat, or it comes round to the first passing seat of all. -/
theorem search_forward_or_wraps {n base start next : Nat} {good : Nat → Bool}
    (baseIn : base < n) (startIn : start < n) (found : search n good start n = some next) :
    (place n base start < place n base next ∧
        ∀ other < n, good other = true → place n base start < place n base other →
          place n base next ≤ place n base other) ∨
      (place n base next ≤ place n base start ∧
        ∀ other < n, good other = true →
          place n base next ≤ place n base other ∧ place n base other ≤ place n base start) := by
  obtain ⟨nextIn, _, _, first⟩ := (search_eq_some_iff startIn (Nat.le_refl n)).mp found
  have order : ∀ other < n, good other = true →
      place n start next ≤ place n start other := first
  by_cases forward : place n base start < place n base next
  · refine Or.inl ⟨forward, ?_⟩
    intro other otherIn passes ahead
    have least := order other otherIn passes
    rw [place_eq_from baseIn startIn nextIn, place_eq_from baseIn startIn otherIn,
      if_pos forward, if_pos ahead] at least
    omega
  · refine Or.inr ⟨by omega, ?_⟩
    intro other otherIn passes
    have least := order other otherIn passes
    have startBound := place_lt baseIn start
    have otherBound := place_lt baseIn other
    rw [place_eq_from baseIn startIn nextIn, place_eq_from baseIn startIn otherIn,
      if_neg forward] at least
    split at least
    · omega
    · omega

/-- A search that starts elsewhere than at a good base does not wrap round past it. -/
theorem search_before {n base start next : Nat} {good : Nat → Bool} (baseIn : base < n)
    (startIn : start < n) (found : search n good start n = some next)
    (chosen : good base = true) (apart : start ≠ base) :
    place n base start < place n base next := by
  rcases search_forward_or_wraps baseIn startIn found with
    ⟨forward, _⟩ | ⟨_, everyone⟩
  · exact forward
  · have late := (everyone base baseIn chosen).2
    have bound := place_lt baseIn start
    have differ := place_ne baseIn startIn baseIn apart
    rw [place_self baseIn] at late differ
    omega

/-- In an increasing list of seats, the entry after one, cyclically, is the first of
them clockwise after it. -/
theorem next_entry_first {n : Nat} {seats : List Nat} (increasing : seats.Pairwise (· < ·))
    (inside : ∀ seat ∈ seats, seat < n) {index : Nat} (valid : index < seats.length)
    {other : Nat} (member : other ∈ seats) :
    place n (seats.getD index 0) (seats.getD ((index + 1) % seats.length) 0) ≤
      place n (seats.getD index 0) other := by
  have monotone : ∀ left right, (leftIn : left < seats.length) → (rightIn : right < seats.length) →
      left < right → seats[left] < seats[right] := fun left right leftIn rightIn before =>
    List.pairwise_iff_getElem.mp increasing left right leftIn rightIn before
  have nextValid : (index + 1) % seats.length < seats.length := Nat.mod_lt _ (by omega)
  rw [List.getD_eq_getElem _ _ valid, List.getD_eq_getElem _ _ nextValid]
  obtain ⟨position, positionIn, rfl⟩ := List.getElem_of_mem member
  have hereIn := inside _ (List.getElem_mem valid)
  have nextIn := inside _ (List.getElem_mem nextValid)
  have otherIn := inside _ (List.getElem_mem positionIn)
  rw [place_eq hereIn nextIn, place_eq hereIn otherIn]
  by_cases last : index + 1 < seats.length
  · -- the next entry lies ahead; entries up to this one are reached only after wrapping
    have shifted : (index + 1) % seats.length = index + 1 := Nat.mod_eq_of_lt last
    have ahead : seats[index] < seats[(index + 1) % seats.length] := by
      simp only [shifted]
      exact monotone index (index + 1) valid last (by omega)
    rcases Nat.lt_or_ge index position with later | earlier
    · have bound : seats[(index + 1) % seats.length] ≤ seats[position] := by
        simp only [shifted]
        rcases Nat.lt_or_ge (index + 1) position with beyond | same
        · exact Nat.le_of_lt (monotone (index + 1) position last positionIn beyond)
        · have equal : position = index + 1 := by omega
          simp only [equal, Nat.le_refl]
      split_ifs <;> omega
    · have bound : seats[position] ≤ seats[index] := by
        rcases Nat.lt_or_ge position index with before | same
        · exact Nat.le_of_lt (monotone position index positionIn valid before)
        · have equal : position = index := by omega
          simp only [equal, Nat.le_refl]
      split_ifs <;> omega
  · have wrapped : (index + 1) % seats.length = 0 := by
      rw [show index + 1 = seats.length by omega, Nat.mod_self]
    have least : seats[(index + 1) % seats.length] ≤ seats[position] := by
      simp only [wrapped]
      rcases Nat.eq_zero_or_pos position with same | positive
      · simp only [same, Nat.le_refl]
      · exact Nat.le_of_lt (monotone 0 position (by omega) positionIn positive)
    have greatest : seats[position] ≤ seats[index] := by
      rcases Nat.lt_or_ge position index with before | same
      · exact Nat.le_of_lt (monotone position index positionIn valid before)
      · have equal : position = index := by omega
        simp only [equal, Nat.le_refl]
    split_ifs <;> omega

/-- The first good seat clockwise after a seat, which itself comes last. -/
structure IsFirst (n base : Nat) (good : Nat → Prop) (seat : Nat) : Prop where
  inside : seat < n
  chosen : good seat
  least : ∀ other < n, good other → place n base seat ≤ place n base other

theorem search_iff_isFirst {n start seat : Nat} {good : Nat → Bool} (startIn : start < n) :
    search n good start n = some seat ↔ IsFirst n start (fun other => good other = true) seat := by
  rw [search_eq_some_iff startIn (Nat.le_refl n)]
  constructor
  · rintro ⟨inside, chosen, _, least⟩
    exact ⟨inside, chosen, least⟩
  · rintro ⟨inside, chosen, least⟩
    exact ⟨inside, chosen, place_lt startIn seat, least⟩

theorem IsFirst.congr {n base seat : Nat} {good other : Nat → Prop}
    (first : IsFirst n base good seat) (same : ∀ seat, good seat ↔ other seat) :
    IsFirst n base other seat :=
  ⟨first.inside, (same seat).mp first.chosen,
    fun next inside chosen => first.least next inside ((same next).mpr chosen)⟩

section Listed

variable {n : Nat} {seats : List Nat}

theorem getD_mem {index : Nat} (valid : index < seats.length) : seats.getD index 0 ∈ seats := by
  rw [List.getD_eq_getElem _ _ valid]
  exact List.getElem_mem valid

theorem isFirst_next_entry (increasing : seats.Pairwise (· < ·))
    (inside : ∀ seat ∈ seats, seat < n) {index : Nat} (valid : index < seats.length) :
    IsFirst n (seats.getD index 0) (· ∈ seats) (seats.getD ((index + 1) % seats.length) 0) := by
  have member := getD_mem (Nat.mod_lt (index + 1) (Nat.zero_lt_of_lt valid))
  exact ⟨inside _ member, member,
    fun other _ listed => next_entry_first increasing inside valid listed⟩

/-- The lowest seat of a list is the first one clockwise after a seat outside it exactly when
the listed seats all lie on one side of that seat. -/
theorem isFirst_head_iff {base : Nat} (increasing : seats.Pairwise (· < ·))
    (inside : ∀ seat ∈ seats, seat < n) (some : seats ≠ []) (baseIn : base < n)
    (outside : base ∉ seats) :
    IsFirst n base (· ∈ seats) (seats.headD 0) ↔
      (∀ seat ∈ seats, seat < base) ∨ ∀ seat ∈ seats, base < seat := by
  obtain ⟨first, rest, rfl⟩ := List.exists_cons_of_ne_nil some
  have lowest : ∀ seat ∈ first :: rest, first ≤ seat := by
    intro seat member
    rcases List.mem_cons.mp member with rfl | later
    · exact Nat.le_refl _
    · exact Nat.le_of_lt ((List.pairwise_cons.mp increasing).1 seat later)
  have apart : ∀ seat ∈ first :: rest, seat ≠ base := fun seat member same =>
    outside (same ▸ member)
  have firstIn := inside first (by simp)
  have firstApart := apart first (by simp)
  show IsFirst n base (· ∈ first :: rest) first ↔ _
  constructor
  · rintro ⟨_, _, least⟩
    by_cases above : base < first
    · exact Or.inr fun seat member => Nat.lt_of_lt_of_le above (lowest seat member)
    · left
      intro seat member
      have seatIn := inside seat member
      have order := least seat seatIn member
      have seatApart := apart seat member
      rw [place_eq baseIn firstIn, place_eq baseIn seatIn] at order
      split_ifs at order <;> omega
  · intro side
    refine ⟨firstIn, by simp, ?_⟩
    intro seat seatIn member
    have low := lowest seat member
    rw [place_eq baseIn firstIn, place_eq baseIn seatIn]
    rcases side with below | above
    · have := below seat member
      have := below first (by simp)
      rw [if_neg (by omega), if_neg (by omega)]
      omega
    · have := above seat member
      have := above first (by simp)
      rw [if_pos (by omega), if_pos (by omega)]
      omega

end Listed

end Clockwise
