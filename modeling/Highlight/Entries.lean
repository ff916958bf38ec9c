/-!
# Entries in the order of their keys

A map from texts is a list of pairs whose keys increase strictly. Keys are ordered by their
characters, from the first on.

- `Entries.get?`, `Entries.put`, `Entries.erase`, `Entries.ofList`: the operations.
- `Entries.Increasing`: the invariant.
- `Entries.get?_put_self`, `Entries.get?_put_other`, `Entries.get?_erase_other`: what is found after
  an entry was put or erased.
- `Entries.Increasing.put`, `Entries.Increasing.erase`: the operations keep the invariant.
-/

namespace Highlight

/-- A list of keys with their values. -/
abbrev Entries (α : Type) := List (String × α)

namespace Entries

variable {α : Type}

/-- The value of a key. -/
def get? (key : String) : Entries α → Option α
  | [] => none
  | (k, v) :: rest => if k = key then some v else get? key rest

/-- The entries with a value for a key, in place of the value that the key may have had. -/
def put (key : String) (value : α) : Entries α → Entries α
  | [] => [(key, value)]
  | (k, v) :: rest =>
    if k = key then (key, value) :: rest
    else if key < k then (key, value) :: (k, v) :: rest
    else (k, v) :: put key value rest

/-- The entries without the one of a key. -/
def erase (key : String) : Entries α → Entries α
  | [] => []
  | (k, v) :: rest => if k = key then rest else (k, v) :: erase key rest

/-- The entries for a list of pairs, in which a later pair replaces an earlier one with its key. -/
def ofList (pairs : List (String × α)) : Entries α :=
  pairs.foldl (fun entries (key, value) => entries.put key value) []

/-- The keys increase strictly. -/
def Increasing (entries : Entries α) : Prop := entries.Pairwise fun a b => a.1 < b.1

/-- The value that is put is the one that is found. -/
@[simp] theorem get?_put_self (key : String) (value : α) (entries : Entries α) :
    get? key (put key value entries) = some value := by
  induction entries with
  | nil => simp [put, get?]
  | cons e rest ih =>
    obtain ⟨k, v⟩ := e
    by_cases h : k = key
    · simp [put, get?, h]
    · by_cases hlt : key < k
      · simp [put, get?, h, hlt]
      · simp [put, get?, h, hlt, ih]

/-- Putting a value changes nothing for other keys. -/
theorem get?_put_other {key other : String} (h : other ≠ key) (value : α) (entries : Entries α) :
    get? other (put key value entries) = get? other entries := by
  induction entries with
  | nil => simp [put, get?, Ne.symm h]
  | cons e rest ih =>
    obtain ⟨k, v⟩ := e
    by_cases hk : k = key
    · subst hk
      simp [put, get?, Ne.symm h]
    · by_cases hlt : key < k
      · simp [put, get?, hk, hlt, Ne.symm h]
      · simp [put, get?, hk, hlt, ih]

/-- Erasing a key changes nothing for other keys. -/
theorem get?_erase_other {key other : String} (h : other ≠ key) (entries : Entries α) :
    get? other (erase key entries) = get? other entries := by
  induction entries with
  | nil => rfl
  | cons e rest ih =>
    obtain ⟨k, v⟩ := e
    by_cases hk : k = key
    · subst hk
      simp [erase, get?, Ne.symm h]
    · simp [erase, get?, hk, ih]

/-- Of two values put for a key the second stays. -/
theorem put_put (key : String) (value first : α) (entries : Entries α) :
    put key value (put key first entries) = put key value entries := by
  induction entries with
  | nil => simp [put]
  | cons e rest ih =>
    obtain ⟨k, v⟩ := e
    by_cases hk : k = key
    · simp [put, hk]
    · by_cases hlt : key < k
      · simp [put, hk, hlt]
      · simp [put, hk, hlt, ih]

/-- What is found is one of the entries. -/
theorem mem_of_get? {key : String} {value : α} {entries : Entries α}
    (h : get? key entries = some value) : (key, value) ∈ entries := by
  induction entries with
  | nil => cases h
  | cons first rest ih =>
    obtain ⟨k, v⟩ := first
    simp only [get?] at h
    split at h
    · rename_i hk
      cases h
      rw [hk]
      exact List.mem_cons_self
    · exact List.mem_cons_of_mem _ (ih h)

theorem mem_of_mem_erase {key : String} {entries : Entries α} {e : String × α}
    (h : e ∈ erase key entries) : e ∈ entries := by
  induction entries with
  | nil => exact h
  | cons first rest ih =>
    obtain ⟨k, v⟩ := first
    simp only [erase] at h
    split at h
    · exact List.mem_cons_of_mem _ h
    · rcases List.mem_cons.1 h with rfl | h
      · exact List.mem_cons_self
      · exact List.mem_cons_of_mem _ (ih h)

/-- The keys of the entries after one was put are those from before and its own. -/
theorem mem_put {key : String} {value : α} {entries : Entries α} {e : String × α}
    (h : e ∈ put key value entries) : e = (key, value) ∨ e ∈ entries := by
  induction entries with
  | nil => simpa [put] using h
  | cons first rest ih =>
    obtain ⟨k, v⟩ := first
    simp only [put] at h
    split at h
    · rcases List.mem_cons.1 h with rfl | h
      · exact .inl rfl
      · exact .inr (List.mem_cons_of_mem _ h)
    · split at h
      · exact List.mem_cons.1 h
      · rcases List.mem_cons.1 h with rfl | h
        · exact .inr List.mem_cons_self
        · exact (ih h).imp_right (List.mem_cons_of_mem _)

theorem Increasing.put {entries : Entries α} (h : Increasing entries) (key : String) (value : α) :
    Increasing (put key value entries) := by
  induction entries with
  | nil => simp [Entries.put, Increasing]
  | cons first rest ih =>
    obtain ⟨k, v⟩ := first
    obtain ⟨hfirst, hrest⟩ := List.pairwise_cons.1 h
    simp only [Entries.put]
    split
    · rename_i heq
      subst heq
      exact List.pairwise_cons.2 ⟨hfirst, hrest⟩
    · rename_i hne
      split
      · rename_i hlt
        refine List.pairwise_cons.2 ⟨fun e he => ?_, h⟩
        rcases List.mem_cons.1 he with rfl | he
        · exact hlt
        · exact String.lt_trans hlt (hfirst e he)
      · rename_i hnot
        have hlt : k < key := by
          refine Decidable.byContradiction fun hk => hne ?_
          exact String.le_antisymm (String.not_lt.1 hnot) (String.not_lt.1 hk)
        refine List.pairwise_cons.2 ⟨fun e he => ?_, ih hrest⟩
        rcases mem_put he with rfl | he
        · exact hlt
        · exact hfirst e he

theorem Increasing.erase {entries : Entries α} (h : Increasing entries) (key : String) :
    Increasing (erase key entries) := by
  induction entries with
  | nil => exact h
  | cons first rest ih =>
    obtain ⟨k, v⟩ := first
    obtain ⟨hfirst, hrest⟩ := List.pairwise_cons.1 h
    simp only [Entries.erase]
    split
    · exact hrest
    · exact List.pairwise_cons.2 ⟨fun e he => hfirst e (mem_of_mem_erase he), ih hrest⟩

/-- A key that is less than all others is not among them. -/
theorem get?_eq_none_of_lt {key : String} {entries : Entries α} (h : ∀ e ∈ entries, key < e.1) :
    get? key entries = none := by
  cases hget : get? key entries with
  | none => rfl
  | some value => exact absurd (h _ (mem_of_get? hget)) (String.lt_irrefl key)

/-- Each entry is found by its key. -/
theorem Increasing.get?_of_mem {entries : Entries α} (h : Increasing entries) {key : String}
    {value : α} (hmem : (key, value) ∈ entries) : get? key entries = some value := by
  induction entries with
  | nil => cases hmem
  | cons first rest ih =>
    obtain ⟨k, v⟩ := first
    obtain ⟨hfirst, hrest⟩ := List.pairwise_cons.1 h
    rcases List.mem_cons.1 hmem with heq | hmem
    · cases heq
      exact if_pos rfl
    · have hne : k ≠ key := fun heq => String.lt_irrefl key (heq ▸ hfirst _ hmem)
      rw [get?, if_neg hne]
      exact ih hrest hmem

theorem Increasing.get?_erase_self {entries : Entries α} (h : Increasing entries) (key : String) :
    get? key (Entries.erase key entries) = none := by
  induction entries with
  | nil => rfl
  | cons first rest ih =>
    obtain ⟨k, v⟩ := first
    obtain ⟨hfirst, hrest⟩ := List.pairwise_cons.1 h
    by_cases hk : k = key
    · subst hk
      rw [Entries.erase, if_pos rfl]
      exact get?_eq_none_of_lt hfirst
    · rw [Entries.erase, if_neg hk, get?, if_neg hk]
      exact ih hrest

/-- Putting the value that a key has changes nothing. -/
theorem Increasing.put_eq_self {entries : Entries α} (h : Increasing entries) {key : String}
    {value : α} (hget : get? key entries = some value) :
    Entries.put key value entries = entries := by
  induction entries with
  | nil => cases hget
  | cons first rest ih =>
    obtain ⟨k, v⟩ := first
    obtain ⟨hfirst, hrest⟩ := List.pairwise_cons.1 h
    by_cases hk : k = key
    · rw [get?, if_pos hk] at hget
      cases hget
      rw [Entries.put, if_pos hk, hk]
    · rw [get?, if_neg hk] at hget
      have hlt : k < key := hfirst _ (mem_of_get? hget)
      have hnot : ¬key < k := fun hgt => String.lt_irrefl k (String.lt_trans hlt hgt)
      rw [Entries.put, if_neg hk, if_neg hnot, ih hrest hget]

end Entries

end Highlight
