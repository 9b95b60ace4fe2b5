/-!
Association lists from text to values, in increasing order of their keys with no key twice, so that
two of them hold the same entries exactly when they are equal lists.
-/

namespace SqlMapper

/-- Entries by key, in increasing order of the keys. -/
abbrev Entries (α : Type) := List (String × α)

namespace Entries

variable {α : Type}

def insert (key : String) (value : α) : Entries α → Entries α
  | [] => [(key, value)]
  | (k, v) :: rest =>
    if key < k then (key, value) :: (k, v) :: rest
    else if key = k then (key, value) :: rest
    else (k, v) :: insert key value rest

def erase (key : String) (es : Entries α) : Entries α :=
  es.filter (fun e => e.1 != key)

def ofList (pairs : List (String × α)) : Entries α :=
  pairs.foldl (fun es p => insert p.1 p.2 es) []

def holds (key : String) (es : Entries α) : Bool :=
  (es.lookup key).isSome

theorem lookup_cons_eq_ite (key k : String) (v : α) (es : Entries α) :
    ((k, v) :: es).lookup key = if key = k then some v else es.lookup key := by
  by_cases h : key = k
  · subst h
    simp
  · have hk : (key == k) = false := by simpa using h
    simp [List.lookup_cons, hk, h]

/-- An insertion changes the value of its own key alone. -/
theorem lookup_insert (key other : String) (value : α) (es : Entries α) :
    (insert key value es).lookup other = if other = key then some value else es.lookup other := by
  induction es with
  | nil => simp [insert, lookup_cons_eq_ite]
  | cons e rest ih =>
    obtain ⟨k, v⟩ := e
    rw [insert]
    split
    · simp only [lookup_cons_eq_ite]
    · split
      · rename_i hk
        subst hk
        simp only [lookup_cons_eq_ite]
        split <;> rfl
      · rename_i hk
        simp only [lookup_cons_eq_ite, ih]
        by_cases ho : other = k
        · subst ho
          simp [Ne.symm hk]
        · simp [ho]

theorem lookup_erase (key other : String) (es : Entries α) :
    (erase key es).lookup other = if other = key then none else es.lookup other := by
  induction es with
  | nil => simp [erase]
  | cons e rest ih =>
    obtain ⟨k, v⟩ := e
    by_cases hk : k = key
    · subst hk
      have h : erase k ((k, v) :: rest) = erase k rest := by simp [erase]
      rw [h, ih, lookup_cons_eq_ite]
      split <;> rfl
    · have h : erase key ((k, v) :: rest) = (k, v) :: erase key rest := by simp [erase, hk]
      rw [h, lookup_cons_eq_ite, lookup_cons_eq_ite, ih]
      by_cases ho : other = k
      · subst ho
        simp [hk]
      · simp [ho]

end Entries
end SqlMapper
