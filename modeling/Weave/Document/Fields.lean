/-!
# Named fields

Named fields in the order of their first insertion. Inserting under a name that is there replaces
the value and keeps its place.
-/

namespace Weave

abbrev Fields (α : Type) := List (String × α)

namespace Fields

variable {α : Type}

def get? (name : String) : Fields α → Option α
  | [] => none
  | (key, value) :: rest => if key = name then some value else get? name rest

def insert (name : String) (value : α) : Fields α → Fields α
  | [] => [(name, value)]
  | (key, old) :: rest =>
    if key = name then (key, value) :: rest else (key, old) :: insert name value rest

/-- The fields without what is under a name. -/
def erase (name : String) (fields : Fields α) : Fields α :=
  fields.filter fun (key, _) => key ≠ name

def keys (fields : Fields α) : List String :=
  fields.map Prod.fst

def insertAll (fields : Fields α) (more : List (String × α)) : Fields α :=
  more.foldl (fun fields (name, value) => insert name value fields) fields

theorem get?_insert (name other : String) (value : α) (fields : Fields α) :
    get? other (insert name value fields) =
      if name = other then some value else get? other fields := by
  induction fields with
  | nil => simp [insert, get?]
  | cons head rest ih =>
    obtain ⟨key, old⟩ := head
    by_cases same : key = name
    · subst same
      by_cases here : key = other <;> simp [insert, get?, here]
    · by_cases here : key = other
      · subst here
        have apart : name ≠ key := fun h => same h.symm
        simp [insert, get?, same, apart]
      · simp [insert, get?, same, here, ih]

theorem erase_cons (name key : String) (value : α) (rest : Fields α) :
    erase name ((key, value) :: rest) =
      if key = name then erase name rest else (key, value) :: erase name rest := by
  by_cases same : key = name <;> simp [erase, same]

theorem get?_erase (name other : String) (fields : Fields α) :
    get? other (erase name fields) = if name = other then none else get? other fields := by
  induction fields with
  | nil => simp [erase, get?]
  | cons head rest ih =>
    obtain ⟨key, value⟩ := head
    rw [erase_cons]
    by_cases same : key = name
    · subst same
      by_cases here : key = other
      · subst here
        simpa using ih
      · simpa [get?, here] using ih
    · by_cases here : key = other
      · subst here
        have apart : name ≠ key := fun h => same h.symm
        simp [get?, same, apart]
      · simp [get?, same, here, ih]

theorem get?_eq_none_iff (name : String) (fields : Fields α) :
    get? name fields = none ↔ name ∉ keys fields := by
  induction fields with
  | nil => simp [get?, keys]
  | cons head rest ih =>
    obtain ⟨key, value⟩ := head
    by_cases same : key = name
    · simp [get?, keys, same]
    · have apart : name ≠ key := fun h => same h.symm
      simpa [get?, keys, same, apart] using ih

end Fields

end Weave
