/-!
# Lists of named entries

A list of pairs in which the position of a name matters: the members of a record and the fields of
a node. Names are looked up and stored by their first occurrence.
-/

namespace JsxControl.Entries

variable {α : Type}

/-- The value stored under a name. -/
def get? (entries : List (String × α)) (name : String) : Option α := entries.lookup name

/-- The names, in order. -/
def names (entries : List (String × α)) : List String := entries.map Prod.fst

/-- Stores a value under a name: in the place of the entry that bears the name, or else behind all
others. -/
def put (name : String) (value : α) : List (String × α) → List (String × α)
  | [] => [(name, value)]
  | (k, v) :: rest => if k = name then (name, value) :: rest else (k, v) :: put name value rest

/-- Stores several entries one after the other. -/
def putAll (entries more : List (String × α)) : List (String × α) :=
  more.foldl (fun stored entry => put entry.1 entry.2 stored) entries

/-! ### Looking up -/

@[simp] theorem get?_nil (name : String) : get? ([] : List (String × α)) name = none := rfl

theorem get?_cons (k : String) (v : α) (rest : List (String × α)) (name : String) :
    get? ((k, v) :: rest) name = if name = k then some v else get? rest name := by
  by_cases h : name = k
  · simp [get?, h]
  · simp [get?, List.lookup_cons, beq_false_of_ne h, h]

/-! ### Storing -/

@[simp] theorem put_nil (name : String) (value : α) : put name value [] = [(name, value)] := rfl

/-- A name that is there keeps its place, and a new one comes last. -/
theorem names_put (entries : List (String × α)) (name : String) (value : α) :
    names (put name value entries) =
      if name ∈ names entries then names entries else names entries ++ [name] := by
  induction entries with
  | nil => simp [names]
  | cons entry rest ih =>
    obtain ⟨k, v⟩ := entry
    by_cases h : k = name
    · subst h
      simp [put, names]
    · have h' : name ≠ k := fun e => h e.symm
      simp only [put, h, if_false, names, List.map_cons, List.mem_cons, h', false_or] at ih ⊢
      by_cases hm : name ∈ List.map Prod.fst rest <;> simp [ih, hm]

end JsxControl.Entries
