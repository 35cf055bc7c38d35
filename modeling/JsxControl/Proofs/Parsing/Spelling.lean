import JsxControl.Proofs.Parsing.Expressions

/-!
# Tokens of printed pieces

What the punctuation between expressions is read as: brackets, operators with blanks around them,
and commas between items.
-/

namespace JsxControl.Parsing

namespace Letters

variable {L : Letters} {s s' : String} {ts ts' : List Token} {Rest Rest' : List Char → Prop}

/-! ### What can follow a word or a number -/

/-- A sign of ASCII ends the word or the number before it, unless it is a point. -/
lemma breaksNumber_cons {c : Char} (hascii : c.toNat < 128)
    (h : (c.isAlphanum || c == '$' || c == '_') = false) (hpoint : c ≠ '.') (rest : List Char) :
    L.BreaksNumber (c :: rest) := by
  refine ⟨fun d hd => ?_, by simpa using hpoint⟩
  obtain rfl : c = d := by simpa using hd
  exact continues_eq_false hascii h

lemma breaks_point (s : String) (rest : List Char) : L.Breaks (("." ++ s).toList ++ rest) := by
  intro d hd
  obtain rfl : '.' = d := by simpa using hd
  exact continues_eq_false (by decide) (by decide)

lemma breaksNumber_nil : L.BreaksNumber [] := ⟨by simp [Breaks], by simp⟩

/-- A word of ASCII. -/
lemma isWord_of_ascii {c : Char} {cs : List Char} (hchars : s.toList = c :: cs)
    (hc : ascii.starts c) (hcs : cs.all ascii.continues)
    (hascii : (c :: cs).all fun d => d.toNat < 128) : L.IsWord s := by
  simp only [List.all_eq_true, List.forall_mem_cons, decide_eq_true_eq] at hcs hascii
  refine ⟨c, cs, hchars, ?_, fun d hd => ?_⟩
  · rw [L.starts_ascii c hascii.1]
    exact hc
  · rw [L.continues_ascii d (hascii.2 d hd)]
    exact hcs d hd

/-! ### Punctuation -/

/-- A text in brackets; what follows them does not matter. -/
lemma Spells.bracketed (h : L.Spells L.BreaksNumber s ts) {left right : String}
    (hbrackets : (left, right) ∈ [("(", ")"), ("[", "]")]) :
    L.Spells (fun _ => True) (left ++ s ++ right) (.mark left :: ts ++ [.mark right]) := by
  simp only [List.mem_cons, Prod.mk.injEq, List.not_mem_nil, or_false] at hbrackets
  obtain ⟨rfl, rfl⟩ | ⟨rfl, rfl⟩ := hbrackets
  · refine ((spells_mark fun _ => rfl).followed h).append
      (spells_mark fun _ => rfl) fun rest _ => ?_
    exact breaksNumber_cons (by decide) (by decide) (by decide) rest
  · refine ((spells_mark fun _ => rfl).followed h).append
      (spells_mark fun _ => rfl) fun rest _ => ?_
    exact breaksNumber_cons (by decide) (by decide) (by decide) rest

/-- A text with another one in brackets behind it. -/
lemma Spells.append_bracketed (h : L.Spells Rest s ts)
    (hRest : ∀ rest, L.BreaksNumber rest → Rest rest) (h' : L.Spells L.BreaksNumber s' ts')
    {left right : String} (hbrackets : (left, right) ∈ [("(", ")"), ("[", "]")]) :
    L.Spells (fun _ => True) (s ++ (left ++ s' ++ right))
      (ts ++ (.mark left :: ts' ++ [.mark right])) := by
  refine h.append (h'.bracketed hbrackets) fun rest _ => hRest _ ?_
  simp only [List.mem_cons, Prod.mk.injEq, List.not_mem_nil, or_false] at hbrackets
  have hchars : (left ++ s' ++ right).toList ++ rest =
      left.toList ++ ((s' ++ right).toList ++ rest) := by simp
  rw [hchars]
  obtain ⟨rfl, rfl⟩ | ⟨rfl, rfl⟩ := hbrackets <;>
    exact breaksNumber_cons (by decide) (by decide) (by decide) _

/-- A point before a word is no part of a number or of an ellipsis. -/
lemma mark?_point {c : Char} (hc : L.starts c) (cs : List Char) :
    mark? ('.' :: c :: cs) = some "." := by
  have hpoint : '.' ≠ c := ne_of_starts hc (by decide) (by decide)
  have hdigit : c.isDigit = false := by
    by_contra h
    rw [Bool.not_eq_false] at h
    rw [starts_of_isDigit h] at hc
    cases hc
  simp [mark?, beginsOther, marks, hdigit, hpoint]

/-- A word behind a point. -/
lemma spells_property (hs : L.IsWord s) : L.Spells L.Breaks ("." ++ s) [.mark ".", .word s] := by
  intro rest hrest
  obtain ⟨c, cs, hchars, hc, hcs⟩ := hs
  have hmark : mark? (".".toList ++ (s.toList ++ rest)) = some "." := by
    rw [hchars]
    exact mark?_point hc (cs ++ rest)
  rw [String.toList_append, List.append_assoc, tokens?_mark hmark,
    tokens?_word ⟨c, cs, hchars, hc, hcs⟩ hrest, Option.map_map]
  rfl

lemma spells_blank : L.Spells (fun _ => True) " " [] := by
  intro rest _
  rw [show " ".toList ++ rest = ' ' :: rest from rfl, tokens?_blank]
  simp

/-- A word with the blank behind it. -/
lemma spells_keyword (hs : L.IsWord s) : L.Spells (fun _ => True) (s ++ " ") [.word s] :=
  (spells_word hs).append spells_blank fun rest _ =>
    (breaksNumber_cons (by decide) (by decide) (by decide) rest).1

lemma breaksNumber_spaced (operator : String) (rest : List Char) :
    L.BreaksNumber ((" " ++ operator ++ " ").toList ++ rest) := by
  have hchars : (" " ++ operator ++ " ").toList ++ rest =
      ' ' :: ((operator ++ " ").toList ++ rest) := by simp
  rw [hchars]
  exact breaksNumber_cons (by decide) (by decide) (by decide) _

/-- A punctuator between blanks. -/
lemma spells_spaced {m : String} (h : ∀ rest, mark? (m.toList ++ ' ' :: rest) = some m) :
    L.Spells (fun _ => True) (" " ++ m ++ " ") [.mark m] := by
  intro rest _
  have hchars : (" " ++ m ++ " ").toList ++ rest = ' ' :: (m.toList ++ ' ' :: rest) := by simp
  rw [hchars, tokens?_blank, tokens?_mark (h rest), tokens?_blank]
  rfl

/-- A comma with the blank behind it. -/
lemma spells_comma : L.Spells (fun _ => True) ", " [.mark ","] := by
  intro rest _
  have hchars : ", ".toList ++ rest = ",".toList ++ ' ' :: rest := rfl
  rw [hchars, tokens?_mark rfl, tokens?_blank]
  rfl

/-- The arrow behind the parameters of a function. -/
lemma spells_arrow : L.Spells (fun _ => True) ") => " [.mark ")", .mark "=>"] := by
  have hclose : L.Spells (fun _ => True) ")" [.mark ")"] := spells_mark fun _ => rfl
  have harrow : L.Spells (fun _ => True) (" " ++ "=>" ++ " ") [.mark "=>"] :=
    spells_spaced fun _ => rfl
  exact hclose.followed harrow

lemma mark?_binary : ∀ e ∈ binaries, ∀ m, e.1 = .mark m → ∀ rest,
    mark? (m.toList ++ ' ' :: rest) = some m := by
  simp only [binaries, List.forall_mem_cons, Token.mark.injEq, forall_eq', reduceCtorEq,
    false_implies, implies_true, true_and, List.not_mem_nil, and_true]
  and_intros <;> exact fun _ => rfl

lemma isWord_binary : ∀ e ∈ binaries, ∀ s, e.1 = .word s → L.IsWord s := by
  simp only [binaries, List.forall_mem_cons, Token.word.injEq, forall_eq', reduceCtorEq,
    false_implies, implies_true, true_and, List.not_mem_nil, and_true]
  constructor
  · exact isWord_of_ascii rfl rfl rfl rfl
  · exact isWord_of_ascii rfl rfl rfl rfl

/-- A binary operator between blanks. -/
lemma spells_binary {t : Token} {level : Nat} (ht : (t, level) ∈ binaries) :
    L.Spells (fun _ => True) (" " ++ t.text ++ " ") [t] := by
  cases t with
  | mark m => exact spells_spaced (mark?_binary _ ht m rfl)
  | word s =>
    rw [Token.text, String.append_assoc]
    exact spells_blank.followed (spells_keyword (isWord_binary _ ht s rfl))
  | integer n => simp [binaries] at ht

/-- Two texts with an operator between them. -/
lemma Spells.spaced {operator : String} {t : Token} (h : L.Spells L.BreaksNumber s ts)
    (hoperator : L.Spells (fun _ => True) (" " ++ operator ++ " ") [t])
    (h' : L.Spells Rest s' ts') :
    L.Spells Rest (s ++ " " ++ operator ++ " " ++ s') (ts ++ t :: ts') := by
  have hleft := h.append hoperator fun rest _ => breaksNumber_spaced operator rest
  have happend := hleft.followed h'
  simpa only [String.append_assoc, List.append_assoc, List.singleton_append] using happend

/-- Two texts with a comma between them. -/
lemma Spells.comma (h : L.Spells L.BreaksNumber s ts) (h' : L.Spells Rest s' ts') :
    L.Spells Rest (s ++ ", " ++ s') (ts ++ .mark "," :: ts') := by
  have hbreaks (rest : List Char) : L.BreaksNumber (", ".toList ++ rest) :=
    breaksNumber_cons (by decide) (by decide) (by decide) (' ' :: rest)
  have happend := (h.append spells_comma fun rest _ => hbreaks rest).followed h'
  simpa only [List.append_assoc, List.singleton_append] using happend

end Letters

end JsxControl.Parsing
