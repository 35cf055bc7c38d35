import JsxControl.Tree.FieldName
import Mathlib.Data.List.Basic
import Mathlib.Tactic.Common

/-!
# The two spellings of names

A name in camel case is a small letter and the letters that follow it. A name in lower case is one
word or more, of small letters, with a single underscore between each two. Both spell a list of
words: the one has capitals where the other has underscores. So the conversions between them undo
each other.
-/

namespace JsxControl

namespace Text

variable {before cs : List Char} {c : Char}

/-! ### Letters from A to Z -/

lemma isLower_iff_val : c.isLower ↔ 'a'.val ≤ c.val ∧ c.val ≤ 'z'.val := by
  change (decide (c.val ≥ 'a'.val) && decide (c.val ≤ 'z'.val)) = true ↔ _
  rw [Bool.and_eq_true, decide_eq_true_eq, decide_eq_true_eq, ge_iff_le]

lemma isUpper_iff_val : c.isUpper ↔ c.val ≥ 'A'.val ∧ c.val ≤ 'Z'.val := decide_eq_true_iff

lemma isLower_iff : c.isLower ↔ 97 ≤ c.toNat ∧ c.toNat ≤ 122 := by
  rw [isLower_iff_val, UInt32.le_iff_toNat_le, UInt32.le_iff_toNat_le]
  rfl

lemma isUpper_iff : c.isUpper ↔ 65 ≤ c.toNat ∧ c.toNat ≤ 90 := by
  rw [isUpper_iff_val, ge_iff_le, UInt32.le_iff_toNat_le, UInt32.le_iff_toNat_le]
  rfl

lemma isAlpha_iff : c.isAlpha ↔ c.isUpper ∨ c.isLower := by
  change (c.isUpper || c.isLower) = true ↔ _
  rw [Bool.or_eq_true]

lemma isAlpha_of_isLower (h : c.isLower) : c.isAlpha := isAlpha_iff.mpr (.inr h)

lemma not_isUpper_of_isLower (h : c.isLower) : ¬ c.isUpper := by
  rw [isLower_iff] at h
  rw [isUpper_iff]
  omega

lemma ascii_of_isAlpha (h : c.isAlpha) : c.toNat < 128 := by
  rw [isAlpha_iff, isUpper_iff, isLower_iff] at h
  omega

lemma toLower_of_isLower (h : c.isLower) : c.toLower = c :=
  dif_neg (mt isUpper_iff_val.mpr (not_isUpper_of_isLower h))

lemma toNat_toUpper (h : c.isLower) : c.toUpper.toNat = c.toNat - 32 := by
  have hbounds := isLower_iff.mp h
  have hcapital : c.toUpper = _ := dif_pos (isLower_iff_val.mp h)
  rw [hcapital]
  -- Small letters come behind capitals, so the sum is meant to run over.
  change (c.val + ('A'.val - 'a'.val)).toNat = _
  rw [UInt32.toNat_add]
  change (c.toNat + 4294967264) % 4294967296 = c.toNat - 32
  omega

lemma toNat_toLower (h : c.isUpper) : c.toLower.toNat = c.toNat + 32 := by
  have hbounds := isUpper_iff.mp h
  have hsmall : c.toLower = _ := dif_pos (isUpper_iff_val.mp h)
  rw [hsmall]
  change (c.val + ('a'.val - 'A'.val)).toNat = _
  rw [UInt32.toNat_add]
  change (c.toNat + 32) % 4294967296 = c.toNat + 32
  omega

lemma isUpper_toUpper (h : c.isLower) : c.toUpper.isUpper := by
  rw [isUpper_iff, toNat_toUpper h]
  rw [isLower_iff] at h
  omega

lemma isLower_toLower (h : c.isUpper) : c.toLower.isLower := by
  rw [isLower_iff, toNat_toLower h]
  rw [isUpper_iff] at h
  omega

lemma toLower_toUpper (h : c.isLower) : c.toUpper.toLower = c := by
  apply Char.toNat_inj.mp
  rw [toNat_toLower (isUpper_toUpper h), toNat_toUpper h]
  rw [isLower_iff] at h
  omega

lemma toUpper_toLower (h : c.isUpper) : c.toLower.toUpper = c := by
  apply Char.toNat_inj.mp
  rw [toNat_toUpper (isLower_toLower h), toNat_toLower h]
  omega

lemma map_toLower_of_isLower (h : ∀ c ∈ cs, c.isLower) : cs.map Char.toLower = cs := by
  rw [List.map_congr_left fun c hc => toLower_of_isLower (h c hc), List.map_id']

/-! ### Lower case and title case of letters from A to Z -/

lemma lowerFrom_of_ascii (h : ∀ c ∈ cs, c.toNat < 128) :
    lowerFrom before cs = cs.map Char.toLower := by
  induction cs generalizing before with
  | nil => rfl
  | cons c cs ih =>
    rw [List.forall_mem_cons] at h
    rw [lowerFrom, lowerAt, if_pos h.1, ih h.2]
    rfl

lemma isCased_of_isLower (h : c.isLower) : isCased c := by
  have halpha := isAlpha_of_isLower h
  rwa [isCased, if_pos (ascii_of_isAlpha halpha)]

/-- Small letters behind a letter stay as they are. -/
lemma titleFrom_of_isLower (hc : isCased c) (h : ∀ d ∈ cs, d.isLower) :
    titleFrom (c :: before) cs = cs := by
  induction cs generalizing c before with
  | nil => rfl
  | cons d cs ih =>
    rw [List.forall_mem_cons] at h
    have hascii := ascii_of_isAlpha (isAlpha_of_isLower h.1)
    have hrest : titleFrom (d :: c :: before) cs = cs := ih (isCased_of_isLower h.1) h.2
    simp [titleFrom, hc, lowerAt, hascii, toLower_of_isLower h.1, hrest]

/-- Small letters in title case have a capital in front. -/
lemma title_of_isLower (hc : c.isLower) (h : ∀ d ∈ cs, d.isLower) :
    title (c :: cs) = c.toUpper :: cs := by
  have hascii := ascii_of_isAlpha (isAlpha_of_isLower hc)
  simp [title, titleFrom, titleChar, hascii, titleFrom_of_isLower (isCased_of_isLower hc) h]

/-! ### Separators -/

lemma splitAt_eq_splitOn (separator : Char) (cs : List Char) :
    splitAt separator cs = cs.splitOn separator := by
  induction cs with
  | nil => simp [splitAt]
  | cons c cs ih =>
    rw [splitAt, ih, List.splitOn_cons_eq_if_modifyHead]
    cases h : cs.splitOn separator with
    | nil => exact absurd h (List.splitOn_ne_nil _ _)
    | cons part parts => simp

lemma splitAt_intercalate {separator : Char} {parts : List (List Char)} (hne : parts ≠ [])
    (h : ∀ part ∈ parts, separator ∉ part) :
    splitAt separator ([separator].intercalate parts) = parts := by
  rw [splitAt_eq_splitOn, List.splitOn_intercalate separator h hne]

lemma intercalate_cons (separator : Char) (part : List Char) (parts : List (List Char)) :
    [separator].intercalate (part :: parts) = part ++ parts.flatMap (separator :: ·) := by
  induction parts generalizing part with
  | nil => simp
  | cons next parts ih => simp [List.intercalate_cons_cons, ih]

end Text

namespace FieldName

variable {cs word : List Char} {c : Char}

/-! ### Spellings -/

/-- A word: one small letter from a to z or more. -/
def IsWord (cs : List Char) : Prop := cs ≠ [] ∧ ∀ c ∈ cs, c.isLower

/-- A small letter from a to z, with any letters from a to z and from A to Z behind it. -/
def IsCamel : List Char → Prop
  | [] => False
  | c :: cs => c.isLower ∧ ∀ d ∈ cs, d.isAlpha

/-- One word or more, with a single underscore between each two. -/
def IsSnake (cs : List Char) : Prop :=
  ∃ words : List (List Char), words ≠ [] ∧ (∀ word ∈ words, IsWord word) ∧
    cs = ['_'].intercalate words

lemma IsWord.underscore_not_mem (h : IsWord word) : '_' ∉ word := fun hmem =>
  absurd (h.2 _ hmem) (by decide)

/-- In a name in lower case there are words between the underscores. -/
lemma isSnake_iff_splitAt : IsSnake cs ↔ ∀ part ∈ Text.splitAt '_' cs, IsWord part := by
  constructor
  · rintro ⟨words, hne, hwords, rfl⟩
    rwa [Text.splitAt_intercalate hne fun word hword => (hwords word hword).underscore_not_mem]
  · intro h
    exact ⟨_, Text.splitAt_ne_nil '_' cs, h, (Text.intercalate_splitAt '_' cs).symm⟩

-- Only the letters of the name are tried, and not all characters there are.
instance : DecidablePred IsWord := fun cs =>
  decidable_of_iff (cs ≠ [] ∧ cs.all Char.isLower) (by rw [IsWord, List.all_eq_true])

instance : DecidablePred IsCamel
  | [] => inferInstanceAs (Decidable False)
  | c :: cs =>
    decidable_of_iff (c.isLower ∧ cs.all Char.isAlpha) (by rw [IsCamel, List.all_eq_true])

instance : DecidablePred IsSnake := fun _ => decidable_of_iff _ isSnake_iff_splitAt.symm

/-! ### Words -/

namespace IsWord

lemma of_cons (hc : c.isLower) (hcs : ∀ d ∈ cs, d.isLower) : IsWord (c :: cs) :=
  ⟨List.cons_ne_nil c cs, List.forall_mem_cons.mpr ⟨hc, hcs⟩⟩

variable (h : IsWord word)
include h

lemma exists_cons : ∃ c cs, word = c :: cs ∧ c.isLower ∧ ∀ d ∈ cs, d.isLower := by
  obtain ⟨hne, hsmall⟩ := h
  obtain ⟨c, cs, rfl⟩ := List.exists_cons_of_ne_nil hne
  exact ⟨c, cs, rfl, List.forall_mem_cons.mp hsmall⟩

lemma isAlpha_of_mem_title : ∀ d ∈ Text.title word, d.isAlpha := by
  obtain ⟨c, cs, rfl, hc, hcs⟩ := h.exists_cons
  rw [Text.title_of_isLower hc hcs, List.forall_mem_cons]
  refine ⟨?_, fun d hd => Text.isAlpha_of_isLower (hcs d hd)⟩
  exact Text.isAlpha_iff.mpr (.inl (Text.isUpper_toUpper hc))

lemma map_toLower_title : (Text.title word).map Char.toLower = word := by
  obtain ⟨c, cs, rfl, hc, hcs⟩ := h.exists_cons
  rw [Text.title_of_isLower hc hcs, List.map_cons, Text.toLower_toUpper hc,
    Text.map_toLower_of_isLower hcs]

end IsWord

/-- The words that a name is spelled from. -/
structure Words where
  first : List Char
  rest : List (List Char)
  isWord_first : IsWord first
  isWord_rest : ∀ word ∈ rest, IsWord word

namespace Words

/-- The words with underscores between them. -/
def snake (words : Words) : List Char := ['_'].intercalate (words.first :: words.rest)

/-- The words with nothing between them, each but the first in title case. -/
def camel (words : Words) : List Char := words.first ++ words.rest.flatMap Text.title

lemma isCamel_camel (words : Words) : IsCamel words.camel := by
  obtain ⟨first, rest, hfirst, hrest⟩ := words
  obtain ⟨c, cs, rfl, hc, hcs⟩ := hfirst.exists_cons
  refine ⟨hc, List.forall_mem_append.mpr ⟨fun d hd => Text.isAlpha_of_isLower (hcs d hd), ?_⟩⟩
  intro d hd
  obtain ⟨word, hword, hd⟩ := List.mem_flatMap.mp hd
  exact (hrest word hword).isAlpha_of_mem_title d hd

end Words

lemma isSnake_iff : IsSnake cs ↔ ∃ words : Words, cs = words.snake := by
  constructor
  · rintro ⟨_ | ⟨first, rest⟩, hne, hwords, rfl⟩
    · exact absurd rfl hne
    · rw [List.forall_mem_cons] at hwords
      exact ⟨⟨first, rest, hwords.1, hwords.2⟩, rfl⟩
  · rintro ⟨⟨first, rest, hfirst, hrest⟩, rfl⟩
    exact ⟨first :: rest, List.cons_ne_nil _ _, List.forall_mem_cons.mpr ⟨hfirst, hrest⟩, rfl⟩

/-- Letters begin with the rest of a word, and go on with a word for each capital. -/
lemma exists_words (h : ∀ c ∈ cs, c.isAlpha) :
    ∃ (first : List Char) (rest : List (List Char)), (∀ c ∈ first, c.isLower) ∧
      (∀ word ∈ rest, IsWord word) ∧ cs = first ++ rest.flatMap Text.title := by
  induction cs with
  | nil => exact ⟨[], [], by simp, by simp, rfl⟩
  | cons c cs ih =>
    rw [List.forall_mem_cons] at h
    obtain ⟨first, rest, hfirst, hrest, rfl⟩ := ih h.2
    by_cases hlower : c.isLower
    · exact ⟨c :: first, rest, List.forall_mem_cons.mpr ⟨hlower, hfirst⟩, hrest, rfl⟩
    · -- A capital begins a word, which goes on with the letters that are left of one.
      have hupper : c.isUpper := (Text.isAlpha_iff.mp h.1).resolve_right hlower
      have hc : c.toLower.isLower := Text.isLower_toLower hupper
      have hcapital : c.toLower.toUpper = c := Text.toUpper_toLower hupper
      refine ⟨[], (c.toLower :: first) :: rest, by simp,
        List.forall_mem_cons.mpr ⟨.of_cons hc hfirst, hrest⟩, ?_⟩
      simp [Text.title_of_isLower hc hfirst, hcapital]

lemma isCamel_iff : IsCamel cs ↔ ∃ words : Words, cs = words.camel := by
  constructor
  · intro h
    cases cs with
    | nil => exact h.elim
    | cons c cs =>
      obtain ⟨first, rest, hfirst, hrest, rfl⟩ := exists_words h.2
      exact ⟨⟨c :: first, rest, .of_cons h.1 hfirst, hrest⟩, rfl⟩
  · rintro ⟨words, rfl⟩
    exact words.isCamel_camel

/-! ### From camel case to lower case -/

lemma separate_cons (c : Char) (cs : List Char) :
    separate (c :: cs) = (if c.isUpper then ['_', c] else [c]) ++ separate cs := List.flatMap_cons

lemma separate_append (cs ds : List Char) :
    separate (cs ++ ds) = separate cs ++ separate ds := List.flatMap_append

lemma separate_of_isLower (h : ∀ c ∈ cs, c.isLower) : separate cs = cs := by
  induction cs with
  | nil => rfl
  | cons c cs ih =>
    rw [List.forall_mem_cons] at h
    rw [separate_cons, if_neg (Text.not_isUpper_of_isLower h.1), ih h.2]
    rfl

lemma IsWord.separate_title (h : IsWord word) :
    separate (Text.title word) = '_' :: Text.title word := by
  obtain ⟨c, cs, rfl, hc, hcs⟩ := h.exists_cons
  rw [Text.title_of_isLower hc hcs, separate_cons, if_pos (Text.isUpper_toUpper hc),
    separate_of_isLower hcs]
  rfl

lemma separate_flatMap_title {rest : List (List Char)} (h : ∀ word ∈ rest, IsWord word) :
    separate (rest.flatMap Text.title) = rest.flatMap ('_' :: Text.title ·) := by
  rw [separate, List.flatMap_assoc]
  exact List.flatMap_congr fun word hword => (h word hword).separate_title

lemma ascii_of_mem_separate (h : ∀ c ∈ cs, c.isAlpha) : ∀ d ∈ separate cs, d.toNat < 128 := by
  intro d hd
  obtain ⟨c, hc, hd⟩ := List.mem_flatMap.mp hd
  have hascii := Text.ascii_of_isAlpha (h c hc)
  split_ifs at hd
  · simp only [List.mem_cons, List.not_mem_nil, or_false] at hd
    rcases hd with rfl | rfl
    · decide
    · exact hascii
  · rwa [List.mem_singleton.mp hd]

/-- The lower-case spelling of a name in camel case: no letter depends on those around it. -/
lemma snake_of_isCamel (h : IsCamel (c :: cs)) :
    snake (c :: cs) = c :: (separate cs).map Char.toLower := by
  have hascii : ∀ d ∈ c :: separate cs, d.toNat < 128 :=
    List.forall_mem_cons.mpr
      ⟨Text.ascii_of_isAlpha (Text.isAlpha_of_isLower h.1), ascii_of_mem_separate h.2⟩
  rw [snake, Text.lower, Text.lowerFrom_of_ascii hascii, List.map_cons, Text.toLower_of_isLower h.1]

lemma Words.snake_camel (words : Words) : FieldName.snake words.camel = words.snake := by
  have hcamel := words.isCamel_camel
  obtain ⟨first, rest, hfirst, hrest⟩ := words
  obtain ⟨c, cs, rfl, -, hcs⟩ := hfirst.exists_cons
  have hlower : (rest.flatMap ('_' :: Text.title ·)).map Char.toLower =
      rest.flatMap ('_' :: ·) := by
    rw [List.map_flatMap]
    refine List.flatMap_congr fun word hword => ?_
    rw [List.map_cons, (hrest word hword).map_toLower_title]
    rfl
  calc FieldName.snake (c :: (cs ++ rest.flatMap Text.title))
      = c :: (separate (cs ++ rest.flatMap Text.title)).map Char.toLower := snake_of_isCamel hcamel
    _ = c :: (cs ++ rest.flatMap ('_' :: Text.title ·)).map Char.toLower := by
        rw [separate_append, separate_of_isLower hcs, separate_flatMap_title hrest]
    _ = c :: (cs ++ rest.flatMap ('_' :: ·)) := by
        rw [List.map_append, Text.map_toLower_of_isLower hcs, hlower]
    _ = ['_'].intercalate ((c :: cs) :: rest) := (Text.intercalate_cons '_' (c :: cs) rest).symm

/-! ### From lower case to camel case -/

lemma Words.camel_snake (words : Words) : FieldName.camel words.snake = words.camel := by
  have hparts : ∀ part ∈ words.first :: words.rest, '_' ∉ part :=
    List.forall_mem_cons.mpr ⟨words.isWord_first.underscore_not_mem,
      fun word hword => (words.isWord_rest word hword).underscore_not_mem⟩
  rw [FieldName.camel, snake, Text.splitAt_intercalate (List.cons_ne_nil _ _) hparts]
  rfl

/-! ### Back and forth -/

lemma isSnake_ofKey {key : String} (h : IsCamel key.toList) : IsSnake (ofKey key).toList := by
  obtain ⟨words, hwords⟩ := isCamel_iff.mp h
  rw [ofKey, String.toList_ofList, hwords, words.snake_camel]
  exact isSnake_iff.mpr ⟨words, rfl⟩

lemma isCamel_toKey {name : String} (h : IsSnake name.toList) : IsCamel (toKey name).toList := by
  obtain ⟨words, hwords⟩ := isSnake_iff.mp h
  rw [toKey, String.toList_ofList, hwords, words.camel_snake]
  exact words.isCamel_camel

lemma toKey_ofKey {key : String} (h : IsCamel key.toList) : toKey (ofKey key) = key := by
  obtain ⟨words, hwords⟩ := isCamel_iff.mp h
  rw [toKey, ofKey, String.toList_ofList, hwords, words.snake_camel, words.camel_snake, ← hwords,
    String.ofList_toList]

lemma ofKey_toKey {name : String} (h : IsSnake name.toList) : ofKey (toKey name) = name := by
  obtain ⟨words, hwords⟩ := isSnake_iff.mp h
  rw [ofKey, toKey, String.toList_ofList, hwords, words.camel_snake, words.snake_camel, ← hwords,
    String.ofList_toList]

/-- The names in camel case and those in lower case correspond to each other one by one: each of the
two conversions leads from the ones to the others, and the other conversion undoes it. -/
theorem conversions_inverse :
    (∀ key : String, IsCamel key.toList →
      IsSnake (ofKey key).toList ∧ toKey (ofKey key) = key) ∧
    ∀ name : String, IsSnake name.toList →
      IsCamel (toKey name).toList ∧ ofKey (toKey name) = name := by
  constructor
  · intro key hkey
    exact ⟨isSnake_ofKey hkey, toKey_ofKey hkey⟩
  · intro name hname
    exact ⟨isCamel_toKey hname, ofKey_toKey hname⟩

/-- Each capital of a run begins a word of its own. -/
theorem innerHTML_converted :
    IsCamel "innerHTML".toList ∧ ofKey "innerHTML" = "inner_h_t_m_l" ∧
    IsSnake "inner_h_t_m_l".toList ∧ toKey "inner_h_t_m_l" = "innerHTML" := by
  have hcamel : IsCamel "innerHTML".toList := by decide
  have hkey : ofKey "innerHTML" = "inner_h_t_m_l" := rfl
  obtain ⟨hsnake, hback⟩ := conversions_inverse.1 "innerHTML" hcamel
  rw [hkey] at hsnake hback
  exact ⟨hcamel, hkey, hsnake, hback⟩

end FieldName

end JsxControl
