import Mathlib.Data.List.Basic
import Mathlib.Tactic.Common

/-!
# Tokens of program text

A program text falls into names, decimal integers and punctuators, each as long as it can be, with
white space between them. Only these are read here: a text with a comment, a string, a template or a
number of another form has no tokens. A slash is always an operator, so that a regular expression is
none either.

`Spells` says what tokens a piece of text is read as, in front of the texts that can follow it.
-/

namespace JsxControl.Parsing

/-! ### Characters -/

/-- The white space and the line terminators between tokens. -/
def blanks : List Char :=
  ['\t', '\x0b', '\x0c', ' ', '\u00a0', '\ufeff', '\u1680', '\u2000', '\u2001', '\u2002', '\u2003',
   '\u2004', '\u2005', '\u2006', '\u2007', '\u2008', '\u2009', '\u200a', '\u202f', '\u205f',
   '\u3000', '\n', '\r', '\u2028', '\u2029']

/-- The characters that names begin with and that they go on with. Beyond ASCII they depend on the
version of Unicode. -/
structure Letters where
  starts : Char → Bool
  continues : Char → Bool
  starts_ascii : ∀ c : Char, c.toNat < 128 → starts c = (c.isAlpha || c == '$' || c == '_')
  continues_ascii : ∀ c : Char, c.toNat < 128 → continues c = (c.isAlphanum || c == '$' || c == '_')
  continues_of_starts : ∀ c, starts c → continues c
  not_blank : ∀ c ∈ blanks, continues c = false

/-- The letters of ASCII only. -/
def Letters.ascii : Letters where
  starts c := c.isAlpha || c == '$' || c == '_'
  continues c := c.isAlphanum || c == '$' || c == '_'
  starts_ascii _ _ := rfl
  continues_ascii _ _ := rfl
  continues_of_starts c h := by
    simp only [Char.isAlphanum, Bool.or_eq_true] at h ⊢
    tauto
  not_blank c hc := by
    have hall : blanks.all (fun c => !(c.isAlphanum || c == '$' || c == '_')) := by decide
    simpa using List.all_eq_true.mp hall c hc

/-! ### Tokens -/

/-- A token; a reserved word is a word like a name. -/
inductive Token
  | word (s : String)
  | integer (n : Nat)
  | mark (s : String)
  deriving DecidableEq

/-- The words that are no names. -/
def reserved : List String :=
  ["await", "break", "case", "catch", "class", "const", "continue", "debugger", "default", "delete",
   "do", "else", "enum", "export", "extends", "false", "finally", "for", "function", "if", "import",
   "in", "instanceof", "new", "null", "return", "super", "switch", "this", "throw", "true", "try",
   "typeof", "var", "void", "while", "with", "yield"]

/-- The punctuators, the longest first. -/
def marks : List String :=
  [">>>=", "...", "===", "!==", "**=", "<<=", ">>=", ">>>", "&&=", "||=", "??=", "=>", "==", "!=",
   "<=", ">=", "**", "++", "--", "<<", ">>", "&&", "||", "??", "?.", "+=", "-=", "*=", "/=", "%=",
   "&=", "|=", "^=", "\x7b", "\x7d", "(", ")", "[", "]", ".", ";", ",", "<", ">", "+", "-", "*",
   "/", "%", "&", "|", "^", "!", "~", "?", ":", "="]

/-- Whether a text begins with a comment or with the point of a number. -/
def beginsOther (cs : List Char) : Bool :=
  ['/', '/'].isPrefixOf cs || ['/', '*'].isPrefixOf cs ||
    (cs.head? == some '.' && cs.tail.head?.any Char.isDigit)

/-- The punctuator that a text begins with. -/
def mark? (cs : List Char) : Option String :=
  if beginsOther cs then none else marks.find? fun m => m.toList.isPrefixOf cs

namespace Letters

/-- Whether the digits that a text begins with are a decimal integer: none is a leading zero, and no
letter or point follows that would be part of the number. -/
def isInteger (L : Letters) (c : Char) (cs : List Char) : Bool :=
  (c != '0' || (cs.takeWhile Char.isDigit).isEmpty) &&
    (cs.dropWhile Char.isDigit).head?.all fun d => !L.continues d && d != '.'

/-- The tokens of a text. -/
def tokens? (L : Letters) : List Char → Option (List Token)
  | [] => some []
  | c :: cs =>
    if c ∈ blanks then L.tokens? cs
    else if L.starts c then
      (L.tokens? (cs.dropWhile L.continues)).map fun ts =>
        .word (String.ofList (c :: cs.takeWhile L.continues)) :: ts
    else if c.isDigit then
      if L.isInteger c cs then
        (L.tokens? (cs.dropWhile Char.isDigit)).map fun ts =>
          .integer (Nat.ofDigitChars 10 (c :: cs.takeWhile Char.isDigit) 0) :: ts
      else none
    else
      (mark? (c :: cs)).bind fun m =>
        (L.tokens? (cs.drop (m.length - 1))).map fun ts => .mark m :: ts
termination_by cs => cs.length
decreasing_by
  all_goals simp only [List.length_cons, List.length_drop]
  all_goals first | omega | exact Nat.lt_succ_of_le (List.dropWhile_suffix _).length_le

/-- A text is a word: a letter with letters and digits behind it. -/
def IsWord (L : Letters) (s : String) : Prop :=
  ∃ c cs, s.toList = c :: cs ∧ L.starts c ∧ ∀ d ∈ cs, L.continues d

/-- A text is a name: a word that is not reserved. -/
def IsName (L : Letters) (s : String) : Prop := L.IsWord s ∧ s ∉ reserved

/-- A text goes on with something that is no part of a word before it. -/
def Breaks (L : Letters) (rest : List Char) : Prop := ∀ c ∈ rest.head?, L.continues c = false

/-- A text goes on with something that is no part of a word or a number before it. -/
def BreaksNumber (L : Letters) (rest : List Char) : Prop := L.Breaks rest ∧ rest.head? ≠ some '.'

/-- A piece of text is read as some tokens, whatever text of the given form follows it. -/
def Spells (L : Letters) (Rest : List Char → Prop) (s : String) (ts : List Token) : Prop :=
  ∀ rest, Rest rest → L.tokens? (s.toList ++ rest) = (L.tokens? rest).map fun more => ts ++ more

variable {L : Letters} {s s' : String} {ts ts' : List Token} {Rest Rest' : List Char → Prop}

/-! ### Characters -/

lemma not_blank_of_continues {c : Char} (h : L.continues c) : c ∉ blanks := by
  intro hc
  rw [L.not_blank c hc] at h
  cases h

/-- A sign of ASCII is no letter. -/
lemma starts_eq_false {c : Char} (hascii : c.toNat < 128)
    (h : (c.isAlpha || c == '$' || c == '_') = false) : L.starts c = false := by
  rw [L.starts_ascii c hascii, h]

lemma ne_of_starts {c d : Char} (hc : L.starts c) (hascii : d.toNat < 128)
    (h : (d.isAlpha || d == '$' || d == '_') = false) : d ≠ c := by
  rintro rfl
  rw [starts_eq_false hascii h] at hc
  cases hc

lemma continues_eq_false {c : Char} (hascii : c.toNat < 128)
    (h : (c.isAlphanum || c == '$' || c == '_') = false) : L.continues c = false := by
  rw [L.continues_ascii c hascii, h]

lemma bounds_of_isDigit {c : Char} (h : c.isDigit) : 48 ≤ c.toNat ∧ c.toNat ≤ 57 :=
  Char.isDigit_iff_toNat.mp h

lemma ascii_of_isDigit {c : Char} (h : c.isDigit) : c.toNat < 128 := by
  have := bounds_of_isDigit h
  omega

lemma continues_of_isDigit {c : Char} (h : c.isDigit) : L.continues c := by
  rw [L.continues_ascii c (ascii_of_isDigit h)]
  simp [Char.isAlphanum, h]

lemma starts_of_isDigit {c : Char} (h : c.isDigit) : L.starts c = false := by
  have hdigits : ∀ k < 10,
      ((Char.ofNat (48 + k)).isAlpha || Char.ofNat (48 + k) == '$' ||
        Char.ofNat (48 + k) == '_') = false := by decide
  obtain ⟨hlow, hhigh⟩ := bounds_of_isDigit h
  have hsign := hdigits (c.toNat - 48) (by omega)
  rw [Nat.add_sub_cancel' hlow, Char.ofNat_toNat] at hsign
  exact starts_eq_false (ascii_of_isDigit h) hsign

/-- What is taken off the front of a text ends where the text goes on with something else. -/
lemma span_append {p : Char → Bool} {cs rest : List Char} (hcs : ∀ c ∈ cs, p c)
    (hrest : ∀ c ∈ rest.head?, p c = false) :
    (cs ++ rest).takeWhile p = cs ∧ (cs ++ rest).dropWhile p = rest := by
  rw [List.takeWhile_append_of_pos hcs, List.dropWhile_append_of_pos hcs]
  cases rest with
  | nil => simp
  | cons c rest =>
    have hc : p c = false := hrest c rfl
    rw [List.takeWhile_cons_of_neg (by simp [hc]), List.dropWhile_cons_of_neg (by simp [hc])]
    exact ⟨List.append_nil cs, rfl⟩

/-! ### Reading one token -/

lemma tokens?_blank (rest : List Char) : L.tokens? (' ' :: rest) = L.tokens? rest := by
  rw [tokens?, if_pos (by decide)]

lemma tokens?_word (hs : L.IsWord s) {rest : List Char} (hrest : L.Breaks rest) :
    L.tokens? (s.toList ++ rest) = (L.tokens? rest).map fun ts => .word s :: ts := by
  obtain ⟨c, cs, hchars, hc, hcs⟩ := hs
  obtain ⟨htake, hdrop⟩ := span_append hcs hrest
  have hblank : c ∉ blanks := not_blank_of_continues (L.continues_of_starts c hc)
  rw [hchars, List.cons_append, tokens?, if_neg hblank, if_pos hc, htake, hdrop, ← hchars,
    String.ofList_toList]

/-- A decimal integer is written without leading zeros. -/
lemma toDigits_head {n : Nat} (h : (Nat.toDigits 10 n).head? = some '0') : n = 0 := by
  induction n using Nat.strongRecOn with
  | ind n ih =>
    by_cases hn : n < 10
    · rw [Nat.toDigits_of_lt_base hn] at h
      simpa using h
    · rw [Nat.toDigits_of_base_le (by omega) (by omega),
        List.head?_append_of_ne_nil _ Nat.toDigits_ne_nil] at h
      have := ih (n / 10) (by omega) h
      omega

lemma tokens?_integer (n : Nat) {rest : List Char} (hrest : L.BreaksNumber rest) :
    L.tokens? ((toString n).toList ++ rest) = (L.tokens? rest).map fun ts => .integer n :: ts := by
  have hdigits (c : Char) (hc : c ∈ Nat.toDigits 10 n) : c.isDigit :=
    Nat.isDigit_of_mem_toDigits (by decide) (by decide) hc
  have hrestDigit (c : Char) (hc : c ∈ rest.head?) : c.isDigit = false := by
    by_contra hdigit
    rw [Bool.not_eq_false] at hdigit
    exact absurd (continues_of_isDigit (L := L) hdigit) (by simp [hrest.1 c hc])
  rw [Nat.toString_eq_ofList_toDigits, String.toList_ofList]
  obtain ⟨c, cs, hchars⟩ := List.exists_cons_of_ne_nil (@Nat.toDigits_ne_nil n 10)
  have hvalue : Nat.ofDigitChars 10 (c :: cs) 0 = n := by
    rw [← hchars]
    exact Nat.ofDigitChars_ten_toDigits
  have hzero : c = '0' → cs = [] := by
    rintro rfl
    have hn : n = 0 := toDigits_head (by rw [hchars]; rfl)
    subst hn
    rw [Nat.toDigits_zero] at hchars
    exact (List.cons.inj hchars).2.symm
  rw [hchars] at hdigits ⊢
  rw [List.forall_mem_cons] at hdigits
  obtain ⟨htake, hdrop⟩ := span_append hdigits.2 hrestDigit
  have hinteger : L.isInteger c (cs ++ rest) := by
    have hfollows (d : Char) (hd : d ∈ rest.head?) : L.continues d = false ∧ d ≠ '.' :=
      ⟨hrest.1 d hd, fun hpoint => hrest.2 (hpoint ▸ hd)⟩
    rw [isInteger, htake, hdrop, Bool.and_eq_true]
    constructor
    · by_cases hc : c = '0'
      · simp [hzero hc]
      · simp [hc]
    · rw [Option.all_eq_true]
      intro d hd
      simp [hfollows d hd]
  have hblank : c ∉ blanks := not_blank_of_continues (continues_of_isDigit (L := L) hdigits.1)
  rw [List.cons_append, tokens?, if_neg hblank, if_neg (by simp [starts_of_isDigit hdigits.1]),
    if_pos hdigits.1, if_pos hinteger, htake, hdrop, hvalue]

/-- Whether a character of ASCII is no blank, letter or digit. -/
def isSign (c : Char) : Bool :=
  !blanks.contains c && c.toNat < 128 && !(c.isAlpha || c == '$' || c == '_') && !c.isDigit

lemma isSign_head_of_mark : ∀ m ∈ marks, m.toList.head?.any isSign := by
  decide

lemma tokens?_mark {m : String} {rest : List Char} (h : mark? (m.toList ++ rest) = some m) :
    L.tokens? (m.toList ++ rest) = (L.tokens? rest).map fun ts => .mark m :: ts := by
  have hm : m ∈ marks := by
    rw [mark?] at h
    split_ifs at h
    exact List.mem_of_find?_eq_some h
  obtain ⟨c, hc, hsign⟩ := (Option.any_eq_true _ _).mp (isSign_head_of_mark m hm)
  obtain ⟨cs, hchars⟩ := List.head?_eq_some_iff.mp hc
  simp only [isSign, Bool.and_eq_true, Bool.not_eq_true', List.contains_eq_mem,
    decide_eq_false_iff_not, decide_eq_true_eq] at hsign
  obtain ⟨⟨⟨hblank, hascii⟩, hletter⟩, hdigit⟩ := hsign
  have hlength : m.length - 1 = cs.length := by
    rw [← String.length_toList, hchars, List.length_cons, Nat.add_sub_cancel]
  rw [hchars, List.cons_append] at h ⊢
  rw [tokens?, if_neg hblank, if_neg (by simp [starts_eq_false hascii hletter]),
    if_neg (by simp [hdigit]), h, Option.bind_some, hlength, List.drop_left]

/-! ### Texts as tokens -/

lemma Spells.mono (h : L.Spells Rest s ts) (hRest : ∀ rest, Rest' rest → Rest rest) :
    L.Spells Rest' s ts :=
  fun rest hrest => h rest (hRest rest hrest)

/-- What may be in front of everything. -/
lemma Spells.anywhere (h : L.Spells (fun _ => True) s ts) : L.Spells Rest s ts :=
  h.mono fun _ _ => trivial

/-- One text after another. -/
lemma Spells.append (h : L.Spells Rest s ts) (h' : L.Spells Rest' s' ts')
    (hRest : ∀ rest, Rest' rest → Rest (s'.toList ++ rest)) :
    L.Spells Rest' (s ++ s') (ts ++ ts') := by
  intro rest hrest
  rw [String.toList_append, List.append_assoc, h _ (hRest rest hrest), h' rest hrest,
    Option.map_map]
  congr 1
  funext more
  simp

/-- A text after one that may be in front of everything. -/
lemma Spells.followed (h : L.Spells (fun _ => True) s ts) (h' : L.Spells Rest s' ts') :
    L.Spells Rest (s ++ s') (ts ++ ts') :=
  h.append h' fun _ _ => trivial

lemma spells_nil : L.Spells (fun _ => True) "" [] := by
  intro rest _
  simp

lemma spells_word (hs : L.IsWord s) : L.Spells L.Breaks s [.word s] :=
  fun _ hrest => tokens?_word hs hrest

lemma spells_name (hs : L.IsName s) : L.Spells L.BreaksNumber s [.word s] :=
  (spells_word hs.1).mono fun _ hrest => hrest.1

lemma spells_integer (n : Nat) : L.Spells L.BreaksNumber (toString n) [.integer n] :=
  fun _ hrest => tokens?_integer n hrest

lemma spells_mark {m : String} (h : ∀ rest, mark? (m.toList ++ rest) = some m) :
    L.Spells (fun _ => True) m [.mark m] :=
  fun rest _ => tokens?_mark (h rest)

end Letters

end JsxControl.Parsing
