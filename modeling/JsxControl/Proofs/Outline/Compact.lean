import JsxControl.Proofs.Exchange.Documents
import JsxControl.Proofs.Outline.Number

/-!
# Compact documents

The compact text of a document determines the document, also in front of other text as long as that
does not go on with a number. The text is on one line.
-/

namespace JsxControl

/-! ### Texts that show where they end -/

namespace Text

variable {α β : Type} {text : α → List Char} {P : List Char → Prop}

/-- In front of texts that satisfy `P`, the text of `a` is that of nothing else, and shows where it
ends. -/
def Clear (text : α → List Char) (P : List Char → Prop) (a : α) : Prop :=
  ∀ ⦃b rest rest'⦄, P rest → P rest' → text a ++ rest = text b ++ rest' → a = b ∧ rest = rest'

/-- Texts with a comma and a blank before each, up to a closing bracket. -/
def sequel (text : α → List Char) (stop : Char) : List α → List Char
  | [] => [stop]
  | a :: as => ',' :: ' ' :: text a ++ sequel text stop as

/-- Texts with a comma and a blank between them, up to a closing bracket. -/
def listed (text : α → List Char) (stop : Char) : List α → List Char
  | [] => [stop]
  | a :: as => text a ++ sequel text stop as

lemma toList_intercalate (f : α → String) (stop : Char) (as : List α) :
    (", ".intercalate (as.map f)).toList ++ [stop] = listed (fun a => (f a).toList) stop as := by
  rw [String.toList_intercalate, List.map_map]
  cases as with
  | nil => rfl
  | cons a as =>
    rw [listed]
    induction as generalizing a with
    | nil => simp [sequel]
    | cons b as ih =>
      rw [List.map_cons, List.map_cons, List.intercalate_cons_cons, ← List.map_cons,
        List.append_assoc, ih b]
      simp [sequel]

/-- A character that is in none of the texts and does not set them off is not in the row. -/
lemma not_mem_listed {stop c : Char} (hc : c ∉ [stop, ',', ' ']) {as : List α}
    (h : ∀ a ∈ as, c ∉ text a) : c ∉ listed text stop as := by
  have hsequel (as : List α) (h : ∀ a ∈ as, c ∉ text a) : c ∉ sequel text stop as := by
    induction as with
    | nil => simp_all [sequel]
    | cons a as ih => simp_all [sequel]
  cases as with
  | nil => simp_all [listed]
  | cons a as =>
    obtain ⟨ha, has⟩ := List.forall_mem_cons.mp h
    simp [listed, ha, hsequel as has]

section Listed

variable {stop : Char} (hcomma : ∀ rest, P (',' :: rest)) (hstop : ∀ rest, P (stop :: rest))
include hcomma hstop

omit text in
lemma sequel_append (text : α → List Char) (as : List α) (rest : List Char) :
    P (sequel text stop as ++ rest) := by
  cases as with
  | nil => exact hstop rest
  | cons => exact hcomma _

lemma Clear.sequel (hne : stop ≠ ',') {as : List α} (h : ∀ a ∈ as, Clear text P a) :
    Clear (Text.sequel text stop) (fun _ => True) as := by
  induction as with
  | nil =>
    rintro (_ | ⟨b, bs⟩) rest rest' - - heq
    · simpa [Text.sequel] using heq
    · simp [Text.sequel, hne] at heq
  | cons a as ih =>
    obtain ⟨ha, has⟩ := List.forall_mem_cons.mp h
    rintro (_ | ⟨b, bs⟩) rest rest' - - heq
    · simp [Text.sequel, hne.symm] at heq
    · simp only [Text.sequel, List.cons_append, List.append_assoc, List.cons.injEq, true_and] at heq
      obtain ⟨rfl, hlater⟩ := ha (sequel_append hcomma hstop text as rest)
        (sequel_append hcomma hstop text bs rest') heq
      obtain ⟨rfl, hrest⟩ := ih has trivial trivial hlater
      exact ⟨rfl, hrest⟩

/-- Texts in a row show where each of them ends. -/
lemma Clear.listed (hne : stop ≠ ',') (hhead : ∀ a rest rest', text a ++ rest ≠ stop :: rest')
    {as : List α} (h : ∀ a ∈ as, Clear text P a) :
    Clear (Text.listed text stop) (fun _ => True) as := by
  rintro bs rest rest' - - heq
  match as, bs with
  | [], [] => simpa [Text.listed] using heq
  | [], b :: bs => exact absurd heq.symm (by simpa [Text.listed] using hhead b _ _)
  | a :: as, [] => exact absurd heq (by simpa [Text.listed] using hhead a _ _)
  | a :: as, b :: bs =>
    obtain ⟨ha, has⟩ := List.forall_mem_cons.mp h
    simp only [Text.listed, List.append_assoc] at heq
    obtain ⟨rfl, hlater⟩ := ha (sequel_append hcomma hstop text as rest)
      (sequel_append hcomma hstop text bs rest') heq
    obtain ⟨rfl, hrest⟩ := Clear.sequel hcomma hstop hne has trivial trivial hlater
    exact ⟨rfl, hrest⟩

end Listed

/-! ### Quoted texts -/

lemma digitChar_injective : ∀ d < 16, ∀ d' < 16, Nat.digitChar d = Nat.digitChar d' → d = d' := by
  decide

/-- The digits of a unit show the unit. -/
lemma hexDigits_append_inj {unit unit' : ℕ} (h : unit < 0x10000) (h' : unit' < 0x10000)
    {rest rest' : List Char} (heq : hexDigits unit ++ rest = hexDigits unit' ++ rest') :
    unit = unit' ∧ rest = rest' := by
  have hdigit {d d' : ℕ} (hd : (d % 16).digitChar = (d' % 16).digitChar) : d % 16 = d' % 16 :=
    digitChar_injective _ (Nat.mod_lt _ (by decide)) _ (Nat.mod_lt _ (by decide)) hd
  simp only [hexDigits, List.cons_append, List.nil_append, List.cons.injEq] at heq
  obtain ⟨h₁, h₂, h₃, h₄, hrest⟩ := heq
  have hsame := And.intro (hdigit h₁) (And.intro (hdigit h₂) (And.intro (hdigit h₃) (hdigit h₄)))
  exact ⟨by omega, hrest⟩

/-- The escape of a code point shows the code point: the units of a surrogate pair are no characters
themselves. -/
lemma escapeCode_append_inj {c c' : Char} {rest rest' : List Char}
    (h : escapeCode c.toNat ++ rest = escapeCode c'.toNat ++ rest') : c = c' ∧ rest = rest' := by
  have hvalid (c : Char) : c.toNat < 0xd800 ∨ 0xdfff < c.toNat ∧ c.toNat < 0x110000 := c.valid
  have hcode : c.toNat = c'.toNat ∧ rest = rest' := by
    have hc := hvalid c
    have hc' := hvalid c'
    generalize c.toNat = code at *
    generalize c'.toNat = code' at *
    unfold escapeCode escapeUnit at h
    split_ifs at h <;>
      simp only [List.cons_append, List.append_assoc, List.cons.injEq, true_and] at h
    · exact hexDigits_append_inj (by omega) (by omega) h
    · have hunit := (hexDigits_append_inj (by omega) (by omega) h).1
      omega
    · have hunit := (hexDigits_append_inj (by omega) (by omega) h).1
      omega
    · obtain ⟨hhigh, h⟩ := hexDigits_append_inj (by omega) (by omega) h
      simp only [List.cons.injEq, true_and] at h
      obtain ⟨hlow, hrest⟩ := hexDigits_append_inj (by omega) (by omega) h
      exact ⟨by omega, hrest⟩
  exact ⟨Char.toNat_inj.mp hcode.1, hcode.2⟩

/-- The characters that stand for the escaped ones. -/
def shortEscapes : List (Char × Char) :=
  [('"', '"'), ('\\', '\\'), ('\n', 'n'), ('\r', 'r'), ('\t', 't'), ('\x08', 'b'), ('\x0c', 'f')]

lemma exists_of_shortEscape? {c : Char} {escape : List Char} (h : shortEscape? c = some escape) :
    ∃ d, escape = ['\\', d] ∧ (c, d) ∈ shortEscapes := by
  unfold shortEscape? at h
  split at h <;> simp_all [shortEscapes, eq_comm]

/-- Whether a character stands for itself in printable ASCII. -/
abbrev isPlain (c : Char) : Bool := ' ' ≤ c && c ≤ '~'

/-- A character is written by a short escape, as itself if it may stand as it is, or by its code
point. -/
lemma escapeChar_cases (plain : Char → Bool) (c : Char) :
    (∃ d, (c, d) ∈ shortEscapes ∧ escapeChar plain c = ['\\', d]) ∨
      (c ≠ '"' ∧ c ≠ '\\' ∧ c ≠ '\n' ∧ plain c = true ∧ escapeChar plain c = [c]) ∨
        escapeChar plain c = escapeCode c.toNat := by
  cases hshort : shortEscape? c with
  | some escape =>
    obtain ⟨d, rfl, hd⟩ := exists_of_shortEscape? hshort
    exact .inl ⟨d, hd, by simp [escapeChar, hshort]⟩
  | none =>
    right
    by_cases hplain : plain c = true
    · left
      refine ⟨?_, ?_, ?_, hplain, by simp only [escapeChar, hshort, if_pos hplain]⟩ <;>
        · rintro rfl
          simp [shortEscape?] at hshort
    · right
      simp only [escapeChar, hshort, if_neg hplain]

/-- The escape of a code point goes on with a letter that no short escape has. -/
lemma escapeCode_eq_cons (code : ℕ) : ∃ digits, escapeCode code = '\\' :: 'u' :: digits := by
  rw [escapeCode]
  split_ifs
  · exact ⟨_, rfl⟩
  · exact ⟨_, rfl⟩

lemma escapeChar_append_inj {c c' : Char} {rest rest' : List Char}
    (h : escapeChar isPlain c ++ rest = escapeChar isPlain c' ++ rest') :
    c = c' ∧ rest = rest' := by
  have hinjective : ∀ e ∈ shortEscapes, ∀ e' ∈ shortEscapes, e.2 = e'.2 → e.1 = e'.1 := by decide
  have hcode : ∀ e ∈ shortEscapes, e.2 ≠ 'u' := by decide
  obtain ⟨digits, hdigits⟩ := escapeCode_eq_cons c.toNat
  obtain ⟨digits', hdigits'⟩ := escapeCode_eq_cons c'.toNat
  obtain ⟨d, hd, hc⟩ | ⟨hquote, hslash, -, -, hc⟩ | hc := escapeChar_cases isPlain c
  · obtain ⟨d', hd', hc'⟩ | ⟨-, hslash', -, -, hc'⟩ | hc' := escapeChar_cases isPlain c'
    · simp only [hc, hc', List.cons_append, List.nil_append, List.cons.injEq, true_and] at h
      exact ⟨hinjective _ hd _ hd' h.1, h.2⟩
    · simp [hc, hc', hslash'.symm] at h
    · simp [hc, hc', hdigits', hcode _ hd] at h
  · obtain ⟨d', hd', hc'⟩ | ⟨-, hslash', -, -, hc'⟩ | hc' := escapeChar_cases isPlain c'
    · simp [hc, hc', hslash] at h
    · simpa [hc, hc'] using h
    · simp [hc, hc', hdigits', hslash] at h
  · obtain ⟨d', hd', hc'⟩ | ⟨-, hslash', -, -, hc'⟩ | hc' := escapeChar_cases isPlain c'
    · simp [hc, hc', hdigits, (hcode _ hd').symm] at h
    · simp [hc, hc', hdigits, hslash'.symm] at h
    · rw [hc, hc'] at h
      exact escapeCode_append_inj h

lemma escapeChar_append_ne_quote (c : Char) (rest rest' : List Char) :
    escapeChar isPlain c ++ rest ≠ '"' :: rest' := by
  obtain ⟨digits, hdigits⟩ := escapeCode_eq_cons c.toNat
  obtain ⟨d, -, hc⟩ | ⟨hquote, -, -, -, hc⟩ | hc := escapeChar_cases isPlain c
  · simp [hc]
  · simp [hc, hquote]
  · simp [hc, hdigits]

/-- The escaped characters of a text end at a quote. -/
lemma flatMap_escapeChar_append_inj {cs cs' rest rest' : List Char}
    (h : cs.flatMap (escapeChar isPlain) ++ '"' :: rest =
      cs'.flatMap (escapeChar isPlain) ++ '"' :: rest') : cs = cs' ∧ rest = rest' := by
  induction cs generalizing cs' with
  | nil =>
    cases cs' with
    | nil => simpa using h
    | cons c' cs' => exact absurd h.symm (by simpa using escapeChar_append_ne_quote c' _ _)
  | cons c cs ih =>
    cases cs' with
    | nil => exact absurd h (by simpa using escapeChar_append_ne_quote c _ _)
    | cons c' cs' =>
      simp only [List.flatMap_cons, List.append_assoc] at h
      obtain ⟨rfl, hlater⟩ := escapeChar_append_inj h
      obtain ⟨rfl, hrest⟩ := ih hlater
      exact ⟨rfl, hrest⟩

lemma toList_quoteAscii (s : String) : (quoteAscii s).toList =
    '"' :: s.toList.flatMap (escapeChar isPlain) ++ ['"'] := by
  rw [quoteAscii, quoteWith, String.toList_ofList]

/-- A quoted text shows where it ends. -/
lemma clear_quoteAscii (s : String) : Clear (fun s => (quoteAscii s).toList) (fun _ => True) s := by
  rintro t rest rest' - - h
  simp only [toList_quoteAscii, List.cons_append, List.append_assoc, List.cons.injEq, true_and] at h
  obtain ⟨hs, hrest⟩ := flatMap_escapeChar_append_inj h
  exact ⟨String.toList_inj.mp hs, hrest⟩

/-- The escape of a code point is made of its mark and of digits. -/
lemma not_mem_escapeCode {c : Char} (hmark : c ∉ ['\\', 'u'])
    (hdigit : ∀ d < 16, c ≠ Nat.digitChar d) (code : ℕ) : c ∉ escapeCode code := by
  have hmod (n : ℕ) : c ≠ (n % 16).digitChar := hdigit _ (Nat.mod_lt _ (by decide))
  have hunit (unit : ℕ) : c ∉ escapeUnit unit := by
    simp_all [escapeUnit, hexDigits]
  rw [escapeCode]
  split_ifs <;> simp [hunit]

/-- A quoted text is on one line. -/
lemma newline_not_mem_quoteAscii (s : String) : '\n' ∉ (quoteAscii s).toList := by
  have hcode := not_mem_escapeCode (show '\n' ∉ ['\\', 'u'] by decide) (by decide)
  have hshort : ∀ e ∈ shortEscapes, '\n' ≠ e.2 := by decide
  have hchar (c : Char) : '\n' ∉ escapeChar isPlain c := by
    obtain ⟨d, hd, hc⟩ | ⟨-, -, hnewline, -, hc⟩ | hc := escapeChar_cases isPlain c
    · simp [hc, hshort _ hd]
    · simp [hc, hnewline.symm]
    · simp [hc, hcode]
  simp [toList_quoteAscii, hchar]

end Text

/-! ### Numbers -/

open Decimal

/-- The rest of a text that does not go on with a number. -/
def Closed (rest : List Char) : Prop := ∀ c ∈ rest.head?, ¬ IsNumeric c

/-- In front of what does not go on with a number, numbers show where they end. -/
lemma numeric_append_inj {cs cs' rest rest' : List Char} (hcs : ∀ c ∈ cs, IsNumeric c)
    (hcs' : ∀ c ∈ cs', IsNumeric c) (hrest : Closed rest) (hrest' : Closed rest')
    (h : cs ++ rest = cs' ++ rest') : cs = cs' ∧ rest = rest' := by
  induction cs generalizing cs' with
  | nil =>
    cases cs' with
    | nil => exact ⟨rfl, by simpa using h⟩
    | cons c' cs' =>
      refine absurd (hcs' c' List.mem_cons_self) (hrest c' ?_)
      rw [List.nil_append] at h
      simp [h]
  | cons c cs ih =>
    cases cs' with
    | nil =>
      refine absurd (hcs c List.mem_cons_self) (hrest' c ?_)
      rw [List.nil_append] at h
      simp [← h]
    | cons c' cs' =>
      obtain ⟨rfl, hlater⟩ := List.cons.inj h
      obtain ⟨rfl, hsame⟩ := ih (fun d hd => hcs d (List.mem_cons_of_mem _ hd))
        (fun d hd => hcs' d (List.mem_cons_of_mem _ hd)) hlater
      exact ⟨rfl, hsame⟩

lemma isNumeric_of_mem_toString {n : ℤ} {c : Char} (h : c ∈ (toString n).toList) : IsNumeric c := by
  rcases mem_toString h with rfl | hdigit
  · simp [IsNumeric]
  · exact .inl hdigit

/-! ### Documents -/

namespace Json

/-- What holds of a document as soon as it holds of all its parts holds of every document. -/
@[elab_as_elim]
lemma part_induction {motive : Json → Prop} (scalar : ∀ s, motive (.scalar s))
    (list : ∀ items, (∀ item ∈ items, motive item) → motive (.list items))
    (record : ∀ members : List (String × Json), (∀ member ∈ members, motive member.2) →
      motive (.record members)) (json : Json) : motive json := by
  match json with
  | .scalar s => exact scalar s
  | .list items => exact list items fun item hitem => part_induction scalar list record item
  | .record members =>
    exact record members fun member hmember => part_induction scalar list record member.2
termination_by sizeOf json
decreasing_by
  · exact Holds.sizeOf_lt (.item hitem)
  · exact Holds.sizeOf_lt (.member hmember)

/-- The text of a member of a record. -/
def memberText (member : String × Json) : String :=
  Text.quoteAscii member.1 ++ ": " ++ member.2.compact

lemma toList_compact_list (items : List Json) : (Json.list items).compact.toList =
    '[' :: Text.listed (fun item => item.compact.toList) ']' items := by
  have hitems : compactItems items = items.map compact := by
    induction items with
    | nil => simp [compactItems]
    | cons item rest ih => simp [compactItems, ih]
  rw [compact, hitems, ← Text.toList_intercalate]
  simp

lemma toList_compact_record (members : List (String × Json)) :
    (Json.record members).compact.toList =
      '\x7b' :: Text.listed (fun member => (memberText member).toList) '\x7d' members := by
  have hmembers : compactMembers members = members.map memberText := by
    induction members with
    | nil => simp [compactMembers]
    | cons member rest ih => simp [compactMembers, memberText, ih]
  rw [compact, hmembers, ← Text.toList_intercalate]
  simp

/-- The character that a document begins with, unless it is a number. -/
def initial? : Json → Option Char
  | .null => some 'n'
  | .bool true => some 't'
  | .bool false => some 'f'
  | .int _ => none
  | .float _ => none
  | .text _ => some '"'
  | .list _ => some '['
  | .record _ => some '\x7b'

lemma exists_compact_eq_cons (json : Json) : ∃ c cs, json.compact.toList = c :: cs ∧
    (json.initial? = some c ∨ json.initial? = none ∧ IsNumeric c) := by
  match json with
  | .null | .bool true | .bool false => exact ⟨_, _, rfl, .inl rfl⟩
  | .text s => exact ⟨_, _, Text.toList_quoteAscii s, .inl rfl⟩
  | .list items => exact ⟨_, _, toList_compact_list items, .inl rfl⟩
  | .record members => exact ⟨_, _, toList_compact_record members, .inl rfl⟩
  | .int n =>
    obtain ⟨c, cs, hchars⟩ : ∃ c cs, (toString n).toList = c :: cs := by
      refine List.exists_cons_of_ne_nil ?_
      rw [toList_toString]
      simp [digitChars, Nat.toDigits_ne_nil]
    exact ⟨c, cs, hchars, .inr ⟨rfl, isNumeric_of_mem_toString (hchars ▸ List.mem_cons_self)⟩⟩
  | .float x =>
    obtain ⟨c, cs, hchars⟩ : ∃ c cs, x.text.toList = c :: cs := by
      obtain ⟨whole, mark, later, htext, -⟩ := x.exists_mark
      refine List.exists_cons_of_ne_nil ?_
      simp [htext]
    exact ⟨c, cs, hchars, .inr ⟨rfl, Double.isNumeric_of_mem_text (hchars ▸ List.mem_cons_self)⟩⟩

lemma not_isNumeric_initial {json : Json} {c : Char} (h : json.initial? = some c) :
    ¬ IsNumeric c := by
  have hnot : ∀ c ∈ ['n', 't', 'f', '"', '[', '\x7b'], ¬ IsNumeric c := by
    simp [IsNumeric]
  refine hnot c ?_
  unfold initial? at h
  split at h <;> simp only [Option.some.injEq, reduceCtorEq] at h <;> simp [← h]

/-- What a document is shows in the character that it begins with. -/
lemma initial?_eq {json json' : Json} {rest rest' : List Char}
    (h : json.compact.toList ++ rest = json'.compact.toList ++ rest') :
    json.initial? = json'.initial? := by
  obtain ⟨c, cs, hchars, hc⟩ := exists_compact_eq_cons json
  obtain ⟨c', cs', hchars', hc'⟩ := exists_compact_eq_cons json'
  rw [hchars, hchars'] at h
  obtain ⟨rfl, -⟩ := List.cons.inj h
  rcases hc with hc | ⟨hc, hnumeric⟩ <;> rcases hc' with hc' | ⟨hc', hnumeric'⟩
  · rw [hc, hc']
  · exact absurd hnumeric' (not_isNumeric_initial hc)
  · exact absurd hnumeric (not_isNumeric_initial hc')
  · rw [hc, hc']

/-- The text of a scalar shows where it ends, in front of what does not go on with a number. -/
lemma clear_compact_scalar (s : Scalar) :
    Text.Clear (fun json : Json => json.compact.toList) Closed (.scalar s) := by
  intro json rest rest' hrest hrest' h
  have hinitial := initial?_eq h
  rcases s with _ | (_ | _) | n | x | s <;>
    rcases json with (_ | (_ | _) | m | y | t) | items | members <;>
    simp only [initial?, reduceCtorEq, Option.some.injEq, Char.reduceEq] at hinitial
  -- Three constants are left, four pairs of numbers, and texts.
  · exact ⟨rfl, List.append_cancel_left h⟩
  · exact ⟨rfl, List.append_cancel_left h⟩
  · exact ⟨rfl, List.append_cancel_left h⟩
  · obtain ⟨hchars, hsame⟩ := numeric_append_inj (fun _ => isNumeric_of_mem_toString)
      (fun _ => isNumeric_of_mem_toString) hrest hrest' h
    exact ⟨by rw [toString_injective hchars], hsame⟩
  · obtain ⟨hchars, -⟩ := numeric_append_inj (fun _ => isNumeric_of_mem_toString)
      (fun _ => Double.isNumeric_of_mem_text) hrest hrest' h
    exact absurd hchars (toString_ne_text n y)
  · obtain ⟨hchars, -⟩ := numeric_append_inj (fun _ => Double.isNumeric_of_mem_text)
      (fun _ => isNumeric_of_mem_toString) hrest hrest' h
    exact absurd hchars.symm (toString_ne_text m x)
  · obtain ⟨hchars, hsame⟩ := numeric_append_inj (fun _ => Double.isNumeric_of_mem_text)
      (fun _ => Double.isNumeric_of_mem_text) hrest hrest' h
    exact ⟨by rw [Double.text_injective (String.toList_inj.mp hchars)], hsame⟩
  · obtain ⟨rfl, hsame⟩ := Text.clear_quoteAscii s trivial trivial h
    exact ⟨rfl, hsame⟩

/-- The text of a member shows where it ends if that of its content does. -/
lemma clear_memberText {member : String × Json}
    (h : Text.Clear (fun json : Json => json.compact.toList) Closed member.2) :
    Text.Clear (fun member => (memberText member).toList) Closed member := by
  rintro ⟨key, json⟩ rest rest' hrest hrest' heq
  simp only [memberText, String.toList_append, List.append_assoc] at heq
  obtain ⟨hkey, heq⟩ := Text.clear_quoteAscii member.1 trivial trivial heq
  obtain ⟨hjson, hsame⟩ := h hrest hrest' (List.append_cancel_left heq)
  exact ⟨Prod.ext hkey hjson, hsame⟩

/-- No item of a list begins with the bracket that closes the list. -/
lemma compact_append_ne_bracket (json : Json) (rest rest' : List Char) :
    json.compact.toList ++ rest ≠ ']' :: rest' := by
  obtain ⟨c, cs, hchars, hc⟩ := exists_compact_eq_cons json
  rw [hchars]
  rintro h
  obtain ⟨rfl, -⟩ := List.cons.inj h
  rcases hc with hc | ⟨-, hnumeric⟩
  · unfold initial? at hc
    split at hc <;> simp at hc
  · simp [IsNumeric] at hnumeric

/-- The text of a document shows where it ends, in front of what does not go on with a number. -/
theorem clear_compact (json : Json) :
    Text.Clear (fun json : Json => json.compact.toList) Closed json := by
  have hclosed : ∀ c ∈ [',', ']', '\x7d'], ∀ rest, Closed (c :: rest) := by
    unfold Closed IsNumeric
    simp
  have hcomma := hclosed ',' (by simp)
  induction json using part_induction with
  | scalar s => exact clear_compact_scalar s
  | list items ih =>
    rintro json rest rest' - - h
    obtain ⟨items', rfl⟩ : ∃ items', json = .list items' := by
      have hinitial := initial?_eq h
      rcases json with (_ | (_ | _) | _ | _ | _) | items' | _ <;> simp [initial?] at hinitial ⊢
    simp only [toList_compact_list, List.cons_append, List.cons.injEq, true_and] at h
    obtain ⟨rfl, hsame⟩ := Text.Clear.listed hcomma (hclosed ']' (by simp)) (by decide)
      compact_append_ne_bracket ih trivial trivial h
    exact ⟨rfl, hsame⟩
  | record members ih =>
    rintro json rest rest' - - h
    obtain ⟨members', rfl⟩ : ∃ members', json = .record members' := by
      have hinitial := initial?_eq h
      rcases json with (_ | (_ | _) | _ | _ | _) | _ | members' <;> simp [initial?] at hinitial ⊢
    simp only [toList_compact_record, List.cons_append, List.cons.injEq, true_and] at h
    have hhead (member : String × Json) (rest rest' : List Char) :
        (memberText member).toList ++ rest ≠ '\x7d' :: rest' := by
      simp [memberText, Text.toList_quoteAscii]
    obtain ⟨rfl, hsame⟩ := Text.Clear.listed hcomma (hclosed '\x7d' (by simp)) (by decide)
      hhead (fun member hmember => clear_memberText (ih member hmember)) trivial trivial h
    exact ⟨rfl, hsame⟩

/-- The text of a document determines it. -/
theorem compact_injective : Function.Injective compact := by
  intro json json' h
  have hclosed : Closed [] := by simp [Closed]
  exact (clear_compact json hclosed hclosed (by simp only [h])).1

/-! ### One line -/

lemma not_isNumeric_newline : ¬ IsNumeric '\n' := by
  simp [IsNumeric]

lemma newline_not_mem_scalar (s : Scalar) : '\n' ∉ s.json.toList := by
  match s with
  | .null | .bool true | .bool false => simp [Scalar.json]
  | .int n => exact fun h => not_isNumeric_newline (isNumeric_of_mem_toString h)
  | .float x => exact fun h => not_isNumeric_newline (Double.isNumeric_of_mem_text h)
  | .text s => exact Text.newline_not_mem_quoteAscii s

/-- The text of a document is on one line. -/
theorem newline_not_mem_compact (json : Json) : '\n' ∉ json.compact.toList := by
  induction json using part_induction with
  | scalar s => exact newline_not_mem_scalar s
  | list items ih =>
    rw [toList_compact_list]
    simp only [List.mem_cons, Char.reduceEq, false_or]
    exact Text.not_mem_listed (by decide) ih
  | record members ih =>
    rw [toList_compact_record]
    simp only [List.mem_cons, Char.reduceEq, false_or]
    refine Text.not_mem_listed (by decide) fun member hmember => ?_
    simp [memberText, Text.newline_not_mem_quoteAscii, ih member hmember]

end Json

end JsxControl
