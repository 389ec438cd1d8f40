import Mathlib.Algebra.BigOperators.Group.List.Basic
import Mathlib.Data.List.Nodup

set_option autoImplicit false

/- Insertion-ordered dictionaries as association lists, read with `List.lookup`:
a key keeps the position of its first assignment and the value of its last. -/
namespace Dict

variable {κ β : Type} [DecidableEq κ]

/-- Assign a key in place, or append it when it is new. -/
def set : List (κ × β) → κ → β → List (κ × β)
  | [], key, value => [(key, value)]
  | (here, old) :: rest, key, value =>
      if here = key then (here, value) :: rest else (here, old) :: set rest key value

/-- The dictionary a comprehension builds from its pairs in order. -/
def ofPairs (pairs : List (κ × β)) : List (κ × β) :=
  pairs.foldl (fun dict pair => set dict pair.1 pair.2) []

@[simp] theorem set_nil (key : κ) (value : β) : set [] key value = [(key, value)] := rfl

theorem set_cons (here key : κ) (old value : β) (rest : List (κ × β)) :
    set ((here, old) :: rest) key value =
      if here = key then (here, value) :: rest else (here, old) :: set rest key value := rfl

theorem lookup_cons_eq (here key : κ) (value : β) (rest : List (κ × β)) :
    ((here, value) :: rest).lookup key = if here = key then some value else rest.lookup key := by
  rw [List.lookup_cons]
  by_cases same : here = key
  · subst same
    simp
  · simp [same, beq_false_of_ne (Ne.symm same)]

theorem set_of_absent {dict : List (κ × β)} {key : κ} (value : β)
    (absent : key ∉ dict.map Prod.fst) : set dict key value = dict ++ [(key, value)] := by
  induction dict with
  | nil => rfl
  | cons entry rest ih =>
      obtain ⟨here, old⟩ := entry
      simp only [List.map_cons, List.mem_cons, not_or] at absent
      simp [set_cons, Ne.symm absent.1, ih absent.2]

theorem mem_keys_of_set {dict : List (κ × β)} {key other : κ} {value : β}
    (member : other ∈ (set dict key value).map Prod.fst) :
    other = key ∨ other ∈ dict.map Prod.fst := by
  induction dict with
  | nil => simpa using member
  | cons entry rest ih =>
      obtain ⟨here, old⟩ := entry
      rw [set_cons] at member
      split at member
      · exact Or.inr (by simpa using member)
      · rcases List.mem_cons.mp member with rfl | later
        · exact Or.inr (by simp)
        · rcases ih later with same | old
          · exact Or.inl same
          · exact Or.inr (List.mem_cons_of_mem _ old)

theorem mem_values_of_set {dict : List (κ × β)} {key : κ} {value other : β}
    (member : other ∈ (set dict key value).map Prod.snd) :
    other = value ∨ other ∈ dict.map Prod.snd := by
  induction dict with
  | nil => simpa using member
  | cons entry rest ih =>
      obtain ⟨here, old⟩ := entry
      rw [set_cons] at member
      split at member
      · rcases List.mem_cons.mp member with rfl | later
        · exact Or.inl rfl
        · exact Or.inr (List.mem_cons_of_mem _ later)
      · rcases List.mem_cons.mp member with rfl | later
        · exact Or.inr (by simp)
        · rcases ih later with same | old
          · exact Or.inl same
          · exact Or.inr (List.mem_cons_of_mem _ old)

theorem lookup_set (dict : List (κ × β)) (key other : κ) (value : β) :
    (set dict key value).lookup other = if key = other then some value else dict.lookup other := by
  induction dict with
  | nil => simp [lookup_cons_eq]
  | cons entry rest ih =>
      obtain ⟨here, old⟩ := entry
      rw [set_cons]
      split
      · rename_i same
        subst same
        rw [lookup_cons_eq, lookup_cons_eq]
        split <;> rfl
      · rename_i apart
        rw [lookup_cons_eq, lookup_cons_eq, ih]
        by_cases found : here = other
        · subst found
          rw [if_pos rfl, if_neg (Ne.symm apart), if_pos rfl]
        · rw [if_neg found, if_neg found]

theorem nodup_keys_set {dict : List (κ × β)} (distinct : (dict.map Prod.fst).Nodup) (key : κ)
    (value : β) : ((set dict key value).map Prod.fst).Nodup := by
  induction dict with
  | nil => simp
  | cons entry rest ih =>
      obtain ⟨here, old⟩ := entry
      rw [List.map_cons, List.nodup_cons] at distinct
      rw [set_cons]
      split
      · rw [List.map_cons, List.nodup_cons]
        exact distinct
      · rename_i apart
        rw [List.map_cons, List.nodup_cons]
        refine ⟨?_, ih distinct.2⟩
        intro member
        rcases mem_keys_of_set member with same | old
        · exact apart same
        · exact distinct.1 old

/-- Renaming the keys one to one commutes with reading and assigning. -/
theorem lookup_map_key {κ' : Type} [DecidableEq κ'] {f : κ → κ'} (apart : Function.Injective f)
    (dict : List (κ × β)) (key : κ) :
    (dict.map (Prod.map f id)).lookup (f key) = dict.lookup key := by
  induction dict with
  | nil => rfl
  | cons entry rest ih =>
      obtain ⟨here, value⟩ := entry
      rw [List.map_cons, Prod.map_apply, lookup_cons_eq, lookup_cons_eq, ih]
      simp only [apart.eq_iff, id_eq]

theorem set_map_key {κ' : Type} [DecidableEq κ'] {f : κ → κ'} (apart : Function.Injective f)
    (dict : List (κ × β)) (key : κ) (value : β) :
    set (dict.map (Prod.map f id)) (f key) value = (set dict key value).map (Prod.map f id) := by
  induction dict with
  | nil => rfl
  | cons entry rest ih =>
      obtain ⟨here, old⟩ := entry
      rw [List.map_cons, Prod.map_apply, set_cons, set_cons]
      by_cases same : here = key
      · rw [if_pos same, if_pos (congrArg f same)]
        rfl
      · rw [if_neg same, if_neg (fun equal => same (apart equal)), ih]
        rfl

/-- Adding to the entry of a key, absent counting as zero, adds to the sum of the values. -/
theorem sum_set_add {M : Type} [AddCommMonoid M] (dict : List (κ × M)) (key : κ) (share : M) :
    ((set dict key ((dict.lookup key).getD 0 + share)).map Prod.snd).sum =
      (dict.map Prod.snd).sum + share := by
  induction dict with
  | nil => simp
  | cons entry rest ih =>
      obtain ⟨here, old⟩ := entry
      rw [lookup_cons_eq, set_cons]
      split
      · simp only [Option.getD_some, List.map_cons, List.sum_cons]
        exact add_right_comm old share _
      · simp only [List.map_cons, List.sum_cons]
        rw [ih, add_assoc]

theorem ofPairs_of_nodup {pairs : List (κ × β)} (distinct : (pairs.map Prod.fst).Nodup) :
    ofPairs pairs = pairs := by
  have build : ∀ (later earlier : List (κ × β)),
      ((earlier ++ later).map Prod.fst).Nodup →
      later.foldl (fun dict pair => set dict pair.1 pair.2) earlier = earlier ++ later := by
    intro later
    induction later with
    | nil =>
        intro earlier _
        simp
    | cons pair rest ih =>
        intro earlier fresh
        have absent : pair.1 ∉ earlier.map Prod.fst := by
          intro present
          rw [List.map_append, List.nodup_append] at fresh
          exact fresh.2.2 pair.1 present pair.1 (by simp) rfl
        rw [List.foldl_cons, set_of_absent pair.2 absent, ih]
        · simp
        · simpa using fresh
  simpa [ofPairs] using build pairs [] (by simpa using distinct)

theorem lookup_eq_some_iff_mem {dict : List (κ × β)} (distinct : (dict.map Prod.fst).Nodup)
    {key : κ} {value : β} : dict.lookup key = some value ↔ (key, value) ∈ dict := by
  induction dict with
  | nil => simp
  | cons entry rest ih =>
      obtain ⟨here, held⟩ := entry
      simp only [List.map_cons, List.nodup_cons] at distinct
      rw [lookup_cons_eq]
      by_cases same : here = key
      · subst same
        have absent : (here, value) ∉ rest := fun member =>
          distinct.1 (List.mem_map_of_mem (f := Prod.fst) member)
        simp only [↓reduceIte, Option.some.injEq, List.mem_cons, Prod.mk.injEq, true_and,
          absent, or_false]
        exact eq_comm
      · simp [same, Ne.symm same, ih distinct.2]

theorem lookup_of_mem {κ' : Type} [BEq κ'] [LawfulBEq κ'] {dict : List (κ' × β)}
    (distinct : (dict.map Prod.fst).Nodup) {key : κ'} {value : β} (member : (key, value) ∈ dict) :
    dict.lookup key = some value := by
  induction dict with
  | nil => cases member
  | cons entry rest ih =>
      obtain ⟨here, held⟩ := entry
      rw [List.map_cons, List.nodup_cons] at distinct
      rw [List.lookup_cons]
      by_cases same : key = here
      · subst same
        rw [beq_self_eq_true]
        dsimp only
        rcases List.mem_cons.mp member with first | later
        · rw [(Prod.mk.inj first).2]
        · exact absurd (List.mem_map_of_mem (f := Prod.fst) later) distinct.1
      · rw [beq_false_of_ne same]
        rcases List.mem_cons.mp member with first | later
        · exact absurd (Prod.mk.inj first).1 same
        · exact ih distinct.2 later

theorem sum_at_key {M : Type} [AddCommMonoid M] {keys : List κ} (distinct : keys.Nodup) {key : κ}
    (present : key ∈ keys) (value : M) :
    (keys.map fun other => if key = other then value else 0).sum = value := by
  rw [List.sum_map_eq_nsmul_single key]
  · rw [List.count_eq_one_of_mem distinct present, if_pos rfl, one_nsmul]
  · intro other apart _
    rw [if_neg (Ne.symm apart)]

/-- Summing row by row and key by key is the same. -/
theorem sum_by_key {α M : Type} [AddCommMonoid M] (key : α → κ) (value : α → M) {keys : List κ}
    (distinct : keys.Nodup) {rows : List α} (inside : ∀ row ∈ rows, key row ∈ keys) :
    (keys.map fun other =>
        ((rows.filter fun row => decide (key row = other)).map value).sum).sum =
      (rows.map value).sum := by
  induction rows with
  | nil => simp
  | cons row rest ih =>
      have here := sum_at_key distinct (inside row (by simp)) (value row)
      have later := ih fun other member => inside other (List.mem_cons_of_mem _ member)
      rw [List.map_cons, List.sum_cons, ← later, ← here, ← List.sum_map_add]
      congr 1
      apply List.map_congr_left
      intro other _
      rw [List.filter_cons]
      by_cases same : key row = other
      · simp [same]
      · simp [same]

/-- Reading a dictionary at every key adds its values up. -/
theorem sum_lookup {M : Type} [AddCommMonoid M] {dict : List (κ × M)}
    (distinct : (dict.map Prod.fst).Nodup) {keys : List κ} (nodup : keys.Nodup)
    (inside : ∀ key ∈ dict.map Prod.fst, key ∈ keys) :
    (keys.map fun key => (dict.lookup key).getD 0).sum = (dict.map Prod.snd).sum := by
  induction dict with
  | nil => simp
  | cons entry rest ih =>
      obtain ⟨here, value⟩ := entry
      simp only [List.map_cons, List.nodup_cons, List.mem_cons, forall_eq_or_imp] at distinct inside
      have absent : rest.lookup here = none := by
        cases found : rest.lookup here with
        | none => rfl
        | some held =>
            have member := (lookup_eq_some_iff_mem distinct.2).mp found
            exact absurd (List.mem_map_of_mem (f := Prod.fst) member) distinct.1
      have spread : (keys.map fun key => (((here, value) :: rest).lookup key).getD 0) =
          keys.map fun key => (if here = key then value else 0) + (rest.lookup key).getD 0 := by
        apply List.map_congr_left
        intro key _
        rw [lookup_cons_eq]
        by_cases same : here = key
        · subst same
          simp [absent]
        · simp [same]
      rw [spread, List.sum_map_add, sum_at_key nodup inside.1 value, ih distinct.2 inside.2,
        List.map_cons, List.sum_cons]

end Dict
