import JsxControl.Proofs.Desugar.Expansion

/-!
# Attributes by their names

The attributes of a tag are stored by name before they are checked. Storing keeps the order in which
names first come up, and under each name the last attribute that has it. So what is looked up by a
property of names is the first name with the property in the order of the tag, and what is found
under it is an attribute that may stand further on. The outcome of a check is stated here in terms
of the attributes as they stand in the tag.
-/

namespace JsxControl

/-- The name of an attribute as a message shows it. -/
def Value.displayName (attr : Value) : String := (attr.attributeName.toOption.getD .null).shown

lemma Value.displayName_of_attributeName {attr : Value} {s : String}
    (h : attr.attributeName = .ok (.text s)) : attr.displayName = s := by
  simp [displayName, h, Except.toOption]

lemma Value.isNamed_displayName {attr : Value}
    (h : attr.attributeName = .ok (.text attr.displayName)) (name : String) :
    Desugar.isNamed name attr = decide (attr.displayName = name) := by
  rw [Bool.eq_iff_iff, Desugar.isNamed_iff, h]
  simp

namespace Attributes

/-! ### Stored names -/

section Stored

variable {p : Scalar → Bool} (hp : ∀ k k', k.same k' → p k = p k')

include hp

/-- Storing an attribute keeps the first stored name with a property, and adds its own name behind
all others. -/
lemma find?_put (k : Scalar) (attr : Value) (stored : List (Scalar × Value)) :
    ((put k attr stored).map Prod.fst).find? p =
      ((stored.map Prod.fst).find? p).or (if p k then some k else none) := by
  induction stored with
  | nil => cases h : p k <;> simp [put, h]
  | cons entry rest ih =>
    obtain ⟨first, v⟩ := entry
    by_cases hk : first.same k
    · rw [put, if_pos hk]
      -- The name is there already, so that its own property decides nothing new.
      cases h : p first with
      | true => simp [h]
      | false => simp [← hp _ _ hk, h]
    · rw [put, if_neg hk]
      cases h : p first with
      | true => simp [h]
      | false => simpa [h] using ih

/-- The first stored name with a property is that of the first attribute whose name has it. -/
lemma find?_ofValues {stored found : List (Scalar × Value)} {list : List Value}
    (hnames : ∀ attr ∈ list, attr.attributeName = .ok (.text attr.displayName))
    (h : ofValues stored list = .ok found) :
    (found.map Prod.fst).find? p = ((stored.map Prod.fst).find? p).or
      ((list.map fun attr => .text attr.displayName).find? p) := by
  induction list generalizing stored with
  | nil =>
    obtain rfl : stored = found := by simpa [ofValues] using h
    simp
  | cons attr rest ih =>
    rw [List.forall_mem_cons] at hnames
    have hrest : ofValues (put (.text attr.displayName) attr stored) rest = .ok found := by
      simpa [ofValues, hnames.1, Value.key] using h
    rw [ih hnames.2 hrest, find?_put hp, Option.or_assoc]
    congr 1
    cases hattr : p (.text attr.displayName) <;> simp [hattr]

/-- The first entry whose name has a property is what is stored under this name. -/
lemma get?_of_find? {found : List (Scalar × Value)} {entry : Scalar × Value}
    (h : found.find? (fun entry => p entry.1) = some entry) :
    get? found entry.1 = some entry.2 := by
  obtain ⟨hentry, before, after, rfl, hbefore⟩ := List.find?_eq_some_iff_append.mp h
  have hsame : entry.1.same entry.1 = true := by simp [Scalar.same]
  have hnone : before.find? (fun other => other.1.same entry.1) = none := by
    rw [List.find?_eq_none]
    intro other hother hsame
    have := hbefore other hother
    rw [hp _ _ hsame, hentry] at this
    simp at this
  simp [get?, List.find?_append, hnone, hsame]

end Stored

/-! ### The check -/

/-- Whether a name is none of those that are allowed. -/
def isBarred (allowed : List String) (name : Scalar) : Bool :=
  !(allowed.map Scalar.text).any name.same

lemma isBarred_of_same (allowed : List String) (k k' : Scalar) (h : k.same k') :
    isBarred allowed k = isBarred allowed k' := by
  have hplain : k.plain = k'.plain := by simpa [Scalar.same] using h
  have hsame : k.same = k'.same := by
    funext other
    simp only [Scalar.same, hplain]
  rw [isBarred, isBarred, hsame]

@[simp] lemma isBarred_text (allowed : List String) (s : String) :
    isBarred allowed (.text s) = decide (s ∉ allowed) := by
  have hany : (allowed.map Scalar.text).any (Scalar.text s).same = decide (s ∈ allowed) := by
    rw [List.any_map, Bool.eq_iff_iff]
    simp
  rw [isBarred, hany, decide_not]

/-- The attributes of a list by their names have the first barred name of the list, and with it the
last attribute that bears this name. -/
lemma find?_isBarred {found : List (Scalar × Value)} {list : List Value}
    (hnames : ∀ attr ∈ list, attr.attributeName = .ok (.text attr.displayName))
    (h : ofValues [] list = .ok found) (allowed : List String) :
    found.find? (fun entry => isBarred allowed entry.1) =
      (list.find? fun attr => attr.displayName ∉ allowed).bind fun first =>
        (list.reverse.find? (Desugar.isNamed first.displayName)).map
          (.text first.displayName, ·) := by
  have hfirst : (found.find? fun entry => isBarred allowed entry.1).map Prod.fst =
      (list.find? fun attr => attr.displayName ∉ allowed).map fun attr =>
        .text attr.displayName := by
    have hkeys := find?_ofValues (isBarred_of_same allowed) hnames h
    rw [List.find?_map, List.find?_map] at hkeys
    simpa [Function.comp_def] using hkeys
  cases hentry : found.find? fun entry => isBarred allowed entry.1 with
  | none =>
    rw [hentry] at hfirst
    have hnone : (list.find? fun attr => attr.displayName ∉ allowed) = none := by
      simpa using hfirst.symm
    rw [hnone, Option.bind_none]
  | some entry =>
    obtain ⟨key, attr⟩ := entry
    rw [hentry] at hfirst
    obtain ⟨first, hsome, rfl⟩ : ∃ first,
        (list.find? fun attr => attr.displayName ∉ allowed) = some first ∧
          .text first.displayName = key := by
      exact Option.map_eq_some_iff.mp hfirst.symm
    have hget : get? found (.text first.displayName) = some attr :=
      get?_of_find? (isBarred_of_same allowed) hentry
    rw [get?_ofValues h] at hget
    have hlast : list.reverse.find? (Desugar.isNamed first.displayName) = some attr := by
      simpa [get?] using hget
    rw [hsome, Option.bind_some, hlast, Option.map_some]

lemma exists_last_of_name {list : List Value}
    (hnames : ∀ attr ∈ list, attr.attributeName = .ok (.text attr.displayName)) {first : Value}
    (hfirst : first ∈ list) :
    ∃ last, list.reverse.find? (Desugar.isNamed first.displayName) = some last := by
  rw [← Option.isSome_iff_exists, List.find?_isSome]
  exact ⟨first, by simpa using hfirst, by simp [Value.isNamed_displayName (hnames _ hfirst)]⟩

/-- The name that a check finds at fault is the first that is not allowed, and the attribute it puts
the complaint at is the last one of this name. -/
lemma check_eq {opening : Value} {found : List (Scalar × Value)} {list : List Value}
    (hnames : ∀ attr ∈ list, attr.attributeName = .ok (.text attr.displayName))
    (h : ofValues [] list = .ok found) (allowed : List String) (context : List Value) :
    check opening found (allowed.map .text) context =
      match list.find? fun attr => attr.displayName ∉ allowed with
      | none => .ok ()
      | some first =>
        opening.source >>= fun text => .error (.complain .unexpectedAttribute
          ("Bad attribute " ++ first.displayName ++ " in " ++ text.shown)
          (context ++ (list.reverse.find? (Desugar.isNamed first.displayName)).toList)) := by
  have hbarred := find?_isBarred hnames h allowed
  simp only [isBarred] at hbarred
  rw [check, hbarred]
  cases hfirst : list.find? fun attr => attr.displayName ∉ allowed with
  | none => rfl
  | some first =>
    obtain ⟨last, hlast⟩ := exists_last_of_name hnames (List.mem_of_find?_eq_some hfirst)
    simp [hlast, Scalar.shown]

end Attributes

end JsxControl
