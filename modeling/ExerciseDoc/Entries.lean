/-!
# Entries — values by key

Values of one kind by text keys, as a list of entries in ascending order of the keys.
`Entries.get?` and `Entries.insert` walk the list in that order, and the laws below
(what is inserted is found, other keys are left alone, inserts at different keys
commute) hold of any list of entries, so proofs carry no invariant.
-/

namespace ExerciseDoc

/-- Entries in ascending order of their keys. -/
abbrev Entries (α : Type) := List (String × α)

namespace Entries

variable {α : Type}

/-! ## Point reads and writes -/

/-- The value at a key. -/
def get? : Entries α → String → Option α
  | [], _ => none
  | (k, v) :: rest, key =>
    if k < key then get? rest key
    else if k = key then some v
    else none

/-- The entries with `value` at `key`, created or replaced. -/
def insert : Entries α → String → α → Entries α
  | [], key, value => [(key, value)]
  | (k, v) :: rest, key, value =>
    if k < key then (k, v) :: insert rest key value
    else if k = key then (key, value) :: rest
    else (key, value) :: (k, v) :: rest

/-! ## Laws -/

private theorem string_lt_asymm {a b : String} (h : a < b) : ¬ b < a :=
  fun h' => String.lt_irrefl a (String.lt_trans h h')

theorem string_lt_of_not {a b : String} (h : ¬ a < b) (hne : a ≠ b) : b < a := by
  rcases String.le_total a b with hab | hba
  · exact absurd (String.le_antisymm hab (String.not_lt.1 h)) hne
  · exact Decidable.byContradiction fun hn =>
      hne (String.le_antisymm (String.not_lt.1 hn) hba)

@[simp] theorem get?_insert_self (entries : Entries α) (key : String) (value : α) :
    get? (insert entries key value) key = some value := by
  induction entries with
  | nil => simp [insert, get?]
  | cons e rest ih =>
    obtain ⟨k, v⟩ := e
    by_cases hlt : k < key
    · simp [insert, get?, hlt, ih]
    · by_cases heq : k = key <;> simp [insert, get?, hlt, heq]

theorem get?_insert_of_ne (entries : Entries α) {key key' : String} (value : α)
    (h : key ≠ key') : get? (insert entries key value) key' = get? entries key' := by
  induction entries with
  | nil => by_cases hlt : key < key' <;> simp [insert, get?, hlt, h]
  | cons e rest ih =>
    obtain ⟨k, v⟩ := e
    by_cases hlt : k < key
    · by_cases hlt' : k < key' <;> simp [insert, get?, hlt, hlt', ih]
    · by_cases heq : k = key
      · subst heq
        by_cases hlt' : k < key' <;> simp [insert, get?, hlt', h]
      · by_cases hlt' : key < key'
        · simp [insert, get?, hlt, heq, hlt']
        · have hk : ¬ k < key' := fun hk => by
            have h1 := string_lt_of_not hlt heq
            exact hlt' (String.lt_trans h1 hk)
          have hne : k ≠ key' := fun hk => by
            subst hk
            exact hlt' (string_lt_of_not hlt heq)
          simp [insert, get?, hlt, heq, hlt', h, hk, hne]

/-- What is found after a write: the value at its key, and at the others what was there. -/
theorem get?_insert (entries : Entries α) (key : String) (value : α) (key' : String) :
    get? (insert entries key value) key' =
      if key' = key then some value else get? entries key' := by
  by_cases h : key' = key
  · rw [if_pos h, h, get?_insert_self]
  · rw [if_neg h, get?_insert_of_ne entries value (Ne.symm h)]

/-- Writing what is there already changes nothing. -/
theorem insert_of_get? {entries : Entries α} {key : String} {value : α}
    (h : get? entries key = some value) : insert entries key value = entries := by
  induction entries with
  | nil => simp [get?] at h
  | cons e rest ih =>
    obtain ⟨k, v⟩ := e
    by_cases hlt : k < key
    · simp only [get?, hlt, if_true] at h
      simp [insert, hlt, ih h]
    · by_cases heq : k = key
      · subst heq
        simp [get?] at h
        simp [insert, h]
      · simp [get?, hlt, heq] at h

/-- The later of two writes at one key wins. -/
@[simp] theorem insert_insert_self (entries : Entries α) (key : String) (a b : α) :
    insert (insert entries key a) key b = insert entries key b := by
  induction entries with
  | nil => simp [insert]
  | cons e rest ih =>
    obtain ⟨k, v⟩ := e
    by_cases hlt : k < key
    · simp [insert, hlt, ih]
    · by_cases heq : k = key <;> simp [insert, hlt, heq]

private theorem insert_comm_of_lt (entries : Entries α) {k₁ k₂ : String} (a b : α)
    (h : k₁ < k₂) : insert (insert entries k₁ a) k₂ b = insert (insert entries k₂ b) k₁ a := by
  have hn : ¬ k₂ < k₁ := string_lt_asymm h
  have hne : k₂ ≠ k₁ := fun he => String.lt_irrefl k₁ (he ▸ h)
  induction entries with
  | nil => simp [insert, h, hn, hne]
  | cons e rest ih =>
    obtain ⟨k, v⟩ := e
    by_cases h₁ : k < k₁
    · have h₂ : k < k₂ := String.lt_trans h₁ h
      simp [insert, h₁, h₂, ih]
    · by_cases heq : k = k₁
      · subst heq
        simp [insert, h]
      · by_cases h₂ : k < k₂
        · simp [insert, h₁, heq, h, h₂]
        · by_cases heq₂ : k = k₂
          · subst heq₂
            simp [insert, h₁, heq, h]
          · simp [insert, h₁, heq, h, h₂, heq₂, hn, hne]

/-- Writes at different keys commute. -/
theorem insert_comm (entries : Entries α) {k₁ k₂ : String} (a b : α) (h : k₁ ≠ k₂) :
    insert (insert entries k₁ a) k₂ b = insert (insert entries k₂ b) k₁ a := by
  by_cases hlt : k₁ < k₂
  · exact insert_comm_of_lt entries a b hlt
  · exact (insert_comm_of_lt entries b a (string_lt_of_not hlt h)).symm

end Entries

end ExerciseDoc
