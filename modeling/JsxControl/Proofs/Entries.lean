import JsxControl.Entries
import Mathlib.Data.List.Forall2
import Mathlib.Data.List.Nodup
import Mathlib.Tactic.Common

/-!
# Lists of named entries, by their members

What is found under a name is an entry of the list, and every entry is found if no name is repeated.
Entries under new names are stored behind all others, so that storing a list without repetitions
appends it. At the end stands what two lists share whose items are related one by one.
-/

namespace JsxControl

namespace Entries

variable {α β : Type} {entries more : List (String × α)} {name : String} {v : α}

/-! ### Members -/

lemma mem_of_get? (h : get? entries name = some v) : (name, v) ∈ entries := by
  induction entries with
  | nil => simp at h
  | cons entry rest ih =>
    obtain ⟨k, u⟩ := entry
    rw [get?_cons] at h
    split_ifs at h with hk
    · subst hk
      simp_all
    · exact List.mem_cons_of_mem _ (ih h)

lemma mem_put {entry : String × α} (h : entry ∈ put name v entries) :
    entry ∈ entries ∨ entry = (name, v) := by
  induction entries with
  | nil => simpa using h
  | cons first rest ih =>
    obtain ⟨k, u⟩ := first
    rw [put] at h
    split_ifs at h with hk
    · simp only [List.mem_cons] at h ⊢
      tauto
    · rcases List.mem_cons.mp h with h | h
      · exact .inl (by simp [h])
      · exact (ih h).imp_left (List.mem_cons_of_mem _)

lemma mem_putAll {entry : String × α} (h : entry ∈ putAll entries more) :
    entry ∈ entries ∨ ∃ name, (name, entry.2) ∈ more := by
  induction more generalizing entries with
  | nil => exact .inl h
  | cons first rest ih =>
    rcases ih h with h | ⟨name, h⟩
    · rcases mem_put h with h | rfl
      · exact .inl h
      · exact .inr ⟨first.1, by simp⟩
    · exact .inr ⟨name, List.mem_cons_of_mem _ h⟩

lemma mem_names : name ∈ names entries ↔ ∃ v, (name, v) ∈ entries := by
  simp [names]

lemma mem_names_of_mem {entry : String × α} (h : entry ∈ entries) : entry.1 ∈ names entries :=
  List.mem_map_of_mem h

/-- Without repetitions every entry is what is found under its name. -/
lemma get?_of_mem (hnodup : (names entries).Nodup) (h : (name, v) ∈ entries) :
    get? entries name = some v := by
  induction entries with
  | nil => simp at h
  | cons entry rest ih =>
    obtain ⟨k, u⟩ := entry
    simp only [names, List.map_cons, List.nodup_cons] at hnodup
    rw [get?_cons]
    rcases List.mem_cons.mp h with hfirst | hrest
    · obtain ⟨rfl, rfl⟩ := Prod.mk.inj hfirst
      exact if_pos rfl
    · have hname : name ≠ k := by
        rintro rfl
        exact hnodup.1 (List.mem_map.mpr ⟨(name, v), hrest, rfl⟩)
      rw [if_neg hname, ih hnodup.2 hrest]

lemma get?_eq_none_iff : get? entries name = none ↔ name ∉ names entries := by
  induction entries with
  | nil => simp [names]
  | cons entry rest ih =>
    obtain ⟨k, u⟩ := entry
    rw [get?_cons]
    by_cases h : name = k <;> simp_all [names]

lemma exists_get?_of_mem_names (h : name ∈ names entries) : ∃ v, get? entries name = some v := by
  rw [← Option.ne_none_iff_exists', ne_eq, get?_eq_none_iff, not_not]
  exact h

/-! ### Parts of lists -/

@[simp] lemma names_append : names (entries ++ more) = names entries ++ names more := by
  simp [names]

@[simp] lemma names_cons (entry : String × α) : names (entry :: entries) = entry.1 :: names entries :=
  rfl

@[simp] lemma names_map (f : α → β) :
    names (entries.map fun entry => (entry.1, f entry.2)) = names entries := by
  simp [names]

lemma get?_append : get? (entries ++ more) name = (get? entries name).or (get? more name) := by
  induction entries with
  | nil => simp
  | cons entry rest ih =>
    obtain ⟨k, u⟩ := entry
    rw [List.cons_append, get?_cons, get?_cons, ih]
    split_ifs <;> simp

lemma get?_map (f : α → β) (entries : List (String × α)) (name : String) :
    get? (entries.map fun entry => (entry.1, f entry.2)) name = (get? entries name).map f := by
  induction entries with
  | nil => rfl
  | cons entry rest ih =>
    obtain ⟨k, v⟩ := entry
    by_cases h : name = k <;> simp [get?_cons, h, ih]

/-- Where names are spelled differently, what is found under a new spelling is what was found under
the old one. -/
lemma get?_map_names (f : String → String) (g : α → β)
    (hf : ∀ k ∈ names entries, f k = f name → k = name) :
    get? (entries.map fun entry => (f entry.1, g entry.2)) (f name) = (get? entries name).map g := by
  induction entries with
  | nil => rfl
  | cons entry rest ih =>
    obtain ⟨k, v⟩ := entry
    rw [names_cons, List.forall_mem_cons] at hf
    rw [List.map_cons, get?_cons, get?_cons, ih hf.2]
    by_cases hk : name = k
    · rw [if_pos hk, if_pos (by rw [hk]), Option.map_some]
    · rw [if_neg hk, if_neg fun h => hk (hf.1 h.symm).symm]

/-- Among the entries with certain names those are found that have such a name. -/
lemma get?_filter (p : String → Bool) :
    get? (entries.filter fun entry => p entry.1) name =
      if p name then get? entries name else none := by
  induction entries with
  | nil => simp
  | cons entry rest ih =>
    obtain ⟨k, u⟩ := entry
    by_cases hk : name = k
    · subst hk
      by_cases hp : p name <;> simp [get?_cons, hp, ih]
    · by_cases hp : p k <;> simp [get?_cons, hp, hk, ih]

lemma nodup_names_filter (hnodup : (names entries).Nodup) (p : String × α → Bool) :
    (names (entries.filter p)).Nodup :=
  hnodup.sublist (List.filter_sublist.map Prod.fst)

/-! ### Storing -/

lemma put_of_not_mem (h : name ∉ names entries) : put name v entries = entries ++ [(name, v)] := by
  induction entries with
  | nil => rfl
  | cons entry rest ih =>
    obtain ⟨k, u⟩ := entry
    rw [names_cons, List.mem_cons, not_or] at h
    rw [put, if_neg (Ne.symm h.1), ih h.2, List.cons_append]

/-- Entries under new names are stored behind the others. -/
lemma putAll_eq_append (h : (names (entries ++ more)).Nodup) :
    putAll entries more = entries ++ more := by
  induction more generalizing entries with
  | nil => simp [putAll]
  | cons entry rest ih =>
    have hnew : entry.1 ∉ names entries := by
      rw [names_append, names_cons, List.nodup_append] at h
      exact fun hmem => h.2.2 _ hmem _ List.mem_cons_self rfl
    have hstep : putAll entries (entry :: rest) = putAll (entries ++ [entry]) rest := by
      rw [putAll, List.foldl_cons, put_of_not_mem hnew, putAll]
    rw [hstep, ih (by simpa using h), List.append_assoc, List.singleton_append]

/-- The names that are there afterwards are those that were there and those that are stored. -/
lemma mem_names_putAll :
    name ∈ names (putAll entries more) ↔ name ∈ names entries ∨ name ∈ names more := by
  induction more generalizing entries with
  | nil => simp [putAll, names]
  | cons entry rest ih =>
    have hstep : putAll entries (entry :: rest) = putAll (put entry.1 entry.2 entries) rest := rfl
    rw [hstep, ih, names_put, names_cons, List.mem_cons]
    split_ifs with hmem
    · constructor
      · exact fun h => h.imp_right .inr
      · rintro (h | rfl | h)
        · exact .inl h
        · exact .inl hmem
        · exact .inr h
    · simp [or_assoc]

end Entries

/-! ### Related lists -/

lemma exists_of_mem_right_of_forall₂ {α β : Type} {R : α → β → Prop} {xs : List α} {ys : List β}
    (h : List.Forall₂ R xs ys) {y : β} (hy : y ∈ ys) : ∃ x ∈ xs, R x y := by
  induction h with
  | nil => simp at hy
  | cons hxy _ ih =>
    rcases List.mem_cons.mp hy with rfl | hy
    · exact ⟨_, by simp, hxy⟩
    · obtain ⟨x, hx, hR⟩ := ih hy
      exact ⟨x, by simp [hx], hR⟩

lemma exists_of_mem_left_of_forall₂ {α β : Type} {R : α → β → Prop} {xs : List α} {ys : List β}
    (h : List.Forall₂ R xs ys) {x : α} (hx : x ∈ xs) : ∃ y ∈ ys, R x y :=
  exists_of_mem_right_of_forall₂ h.flip hx

lemma eq_map_of_forall₂ {α β : Type} {R : α → β → Prop} {f : α → β} {xs : List α} {ys : List β}
    (h : List.Forall₂ R xs ys) (hf : ∀ x ∈ xs, ∀ y, R x y → y = f x) : ys = xs.map f := by
  induction h with
  | nil => rfl
  | cons hxy _ ih =>
    rw [List.map_cons, hf _ (by simp) _ hxy, ih fun x hx => hf x (by simp [hx])]

end JsxControl
