import JsxControl.Proofs.Outline.Compact
import JsxControl.Source.Text

/-!
# The text of an attribute

A text that is the value of an attribute is written like any literal, between double quotes and with
escapes. Markup has no escapes: there a text ends at the first occurrence of its quote, and all else
stands for itself. What is written denotes the text exactly if nothing in it is escaped, and is cut
off at the first quote.
-/

namespace JsxControl

namespace Text

/-! ### Reading -/

/-- The text of an attribute, and what stands behind it. It ends at the first occurrence of the
quote that it begins with; `references` resolves the references to characters in it. -/
def attributeText? (references : List Char → List Char) :
    List Char → Option (List Char × List Char)
  | [] => none
  | quote :: chars =>
    if quote ∈ ['"', '\''] ∧ quote ∈ chars then
      some (references (chars.takeWhile (· ≠ quote)), (chars.dropWhile (· ≠ quote)).tail)
    else none

variable {references : List Char → List Char} {plain : Char → Bool} {chars : List Char} {c d : Char}

lemma attributeText?_eq_some {content rest : List Char} (h : '"' ∉ content) :
    attributeText? references ('"' :: (content ++ '"' :: rest)) =
      some (references content, rest) := by
  have hcontent (c : Char) (hc : c ∈ content) : decide (c ≠ '"') = true := by
    simpa using ne_of_mem_of_not_mem hc h
  rw [attributeText?, if_pos ⟨by simp, by simp⟩, List.takeWhile_append_of_pos hcontent,
    List.dropWhile_append_of_pos hcontent]
  simp

/-! ### Escapes -/

/-- What is written for the characters of a literal between its quotes. -/
def escaped (chars : List Char) : List Char := chars.flatMap (escapeChar (' ' ≤ ·))

@[simp] lemma escaped_cons (c : Char) (chars : List Char) :
    escaped (c :: chars) = escapeChar (' ' ≤ ·) c ++ escaped chars := List.flatMap_cons

@[simp] lemma escaped_append (chars more : List Char) :
    escaped (chars ++ more) = escaped chars ++ escaped more := List.flatMap_append

lemma toList_quote (s : String) : (quote s).toList = '"' :: (escaped s.toList ++ ['"']) := by
  simp [quote, quoteWith, escaped]

/-- No escape has a quote or a reference to a character in it, but for that of the quote. -/
lemma eq_of_mem_escapeChar (hd : d ∈ ['"', '&']) (h : d ∈ escapeChar plain c) : d = c := by
  have hshort : ∀ e ∈ shortEscapes, ∀ d ∈ ['"', '&'], d ∈ ['\\', e.2] → d = e.1 := by
    simp [shortEscapes]
  have hmark : ∀ d ∈ ['"', '&'], d ∉ ['\\', 'u'] ∧ ∀ digit < 16, d ≠ Nat.digitChar digit := by
    simp only [List.forall_mem_cons, List.not_mem_nil, false_imp_iff, implies_true, and_true]
    decide
  obtain ⟨e, he, hc⟩ | ⟨-, -, -, -, hc⟩ | hc := escapeChar_cases plain c
  · exact hshort _ he d hd (hc ▸ h)
  · simpa [hc] using h
  · exact absurd (hc ▸ h) (not_mem_escapeCode (hmark d hd).1 (hmark d hd).2 _)

lemma not_mem_escaped (hd : d ∈ ['"', '&']) (h : d ∉ chars) : d ∉ escaped chars := by
  intro hmem
  obtain ⟨c, hc, hescape⟩ := List.mem_flatMap.mp hmem
  exact h (eq_of_mem_escapeChar hd hescape ▸ hc)

/-- A character stands for itself if it is no control character, no quote and no backslash. -/
lemma escapeChar_eq_singleton_iff :
    escapeChar (' ' ≤ ·) c = [c] ↔ c ≠ '"' ∧ c ≠ '\\' ∧ ' ' ≤ c := by
  have hcontrol : ∀ e ∈ shortEscapes, ' ' ≤ e.1 → e.1 = '"' ∨ e.1 = '\\' := by decide
  obtain ⟨digits, hdigits⟩ := escapeCode_eq_cons c.toNat
  constructor
  · intro h
    obtain ⟨d, -, hc⟩ | ⟨hquote, hslash, -, hplain, -⟩ | hc := escapeChar_cases (' ' ≤ ·) c
    · simp [hc] at h
    · exact ⟨hquote, hslash, by simpa using hplain⟩
    · simp [hc, hdigits] at h
  · rintro ⟨hquote, hslash, hplain⟩
    cases hshort : shortEscape? c with
    | none => simp [escapeChar, hshort, hplain]
    | some escape =>
      obtain ⟨d, -, hd⟩ := exists_of_shortEscape? hshort
      rcases hcontrol _ hd hplain with h | h
      · exact absurd h hquote
      · exact absurd h hslash

lemma one_le_length_escapeChar (plain : Char → Bool) (c : Char) :
    1 ≤ (escapeChar plain c).length := by
  obtain ⟨digits, hdigits⟩ := escapeCode_eq_cons c.toNat
  obtain ⟨d, -, hc⟩ | ⟨-, -, -, -, hc⟩ | hc := escapeChar_cases plain c
  · simp [hc]
  · simp [hc]
  · simp [hc, hdigits]

lemma length_le_escaped (chars : List Char) : chars.length ≤ (escaped chars).length := by
  induction chars with
  | nil => simp
  | cons c chars ih =>
    have hone := one_le_length_escapeChar (' ' ≤ ·) c
    rw [escaped_cons, List.length_append, List.length_cons]
    omega

/-- What is written for some characters is the same as these if each of them stands for itself. -/
lemma escaped_eq_iff :
    escaped chars = chars ↔ ∀ c ∈ chars, c ≠ '"' ∧ c ≠ '\\' ∧ ' ' ≤ c := by
  induction chars with
  | nil => simp [escaped]
  | cons c chars ih =>
    rw [List.forall_mem_cons, ← ih, ← escapeChar_eq_singleton_iff]
    constructor
    · intro h
      have hlength := congrArg List.length h
      have hone := one_le_length_escapeChar (' ' ≤ ·) c
      have hrest := length_le_escaped chars
      rw [escaped_cons, List.length_append, List.length_cons] at hlength
      rw [escaped_cons, ← List.singleton_append] at h
      exact List.append_inj h (by rw [List.length_singleton]; omega)
    · rintro ⟨hc, hchars⟩
      rw [escaped_cons, hc, hchars, List.singleton_append]

/-- What is written for a text without references is read up to the first quote in the text. -/
lemma exists_attributeText? (hreferences : ∀ chars, '&' ∉ chars → references chars = chars)
    {s : String} (hs : '&' ∉ s.toList) :
    ∃ content rest, attributeText? references (quote s).toList = some (content, rest) ∧
      (rest = [] ↔ '"' ∉ s.toList) ∧
      (content = s.toList ∧ rest = [] ↔ ∀ c ∈ s.toList, c ≠ '"' ∧ c ≠ '\\' ∧ ' ' ≤ c) := by
  by_cases hquote : '"' ∈ s.toList
  · obtain ⟨before, after, hsplit, hbefore⟩ := List.eq_append_cons_of_mem hquote
    have hcut : (quote s).toList =
        '"' :: ((escaped before ++ ['\\']) ++ '"' :: (escaped after ++ ['"'])) := by
      rw [toList_quote, hsplit]
      simp [escapeChar, shortEscape?]
    have hmem (d : Char) (hd : d ∈ ['"', '&']) (h : d ∉ before) :
        d ∉ escaped before ++ ['\\'] := by
      have hslash : ∀ d ∈ ['"', '&'], d ≠ '\\' := by simp
      simp [not_mem_escaped hd h, hslash d hd]
    have hplain : '&' ∉ before := fun h => hs (by rw [hsplit]; simp [h])
    refine ⟨escaped before ++ ['\\'], escaped after ++ ['"'], ?_, ?_, ?_⟩
    · rw [hcut, attributeText?_eq_some (hmem _ (by simp) hbefore),
        hreferences _ (hmem _ (by simp) hplain)]
    · simp [hquote]
    · refine iff_of_false (by simp) fun h => (h _ hquote).1 rfl
  · refine ⟨escaped s.toList, [], ?_, by simpa using hquote, ?_⟩
    · rw [toList_quote, attributeText?_eq_some (not_mem_escaped (by simp) hquote),
        hreferences _ (not_mem_escaped (by simp) hs)]
    · rw [← escaped_eq_iff, and_iff_left rfl]

end Text

open Source

namespace Node

/-- A node is the name of an attribute, and is written as the given text. -/
inductive NamesAttribute : Node → String → Prop
  | plain (name : String) (origin : Origin) :
      NamesAttribute ⟨.jsxIdentifier, [("name", .text name)], origin⟩ name
  | spaced (space name : String) (first second origin : Origin) :
      NamesAttribute ⟨.jsxNamespacedName,
        [("namespace", .node ⟨.jsxIdentifier, [("name", .text space)], first⟩),
         ("name", .node ⟨.jsxIdentifier, [("name", .text name)], second⟩)], origin⟩
        (space ++ ":" ++ name)

/-- The attribute with a name and a text, of which nothing is known but its value. -/
def textAttribute (name : Node) (s : String) (literal origin : Origin) : Node :=
  ⟨.jsxAttribute, [("name", .node name),
    ("value", .node ⟨.literal, [("value", .text s), ("raw", .null)], literal⟩)], origin⟩

lemma NamesAttribute.source_eq {name : Node} {start : String} (h : name.NamesAttribute start)
    (s : String) (literal origin : Origin) :
    (Value.node (textAttribute name s literal origin)).source =
      .ok (.text (start ++ "=" ++ Text.quote s)) := by
  cases h with
  | plain => rfl
  | spaced => rfl

/-- An attribute with a text denotes the text exactly if there is no quote, no backslash and no
control character in it. A quote cuts the text off. -/
theorem attribute_denotes_iff {references : List Char → List Char}
    (hreferences : ∀ chars, '&' ∉ chars → references chars = chars) {name : Node} {start : String}
    (hname : name.NamesAttribute start) {s : String} (hs : '&' ∉ s.toList)
    (literal origin : Origin) :
    ∃ quoted content rest,
      (Value.node (textAttribute name s literal origin)).source =
        .ok (.text (start ++ "=" ++ quoted)) ∧
      Text.attributeText? references quoted.toList = some (content, rest) ∧
      (rest = [] ↔ '"' ∉ s.toList) ∧
      (content = s.toList ∧ rest = [] ↔ ∀ c ∈ s.toList, c ≠ '"' ∧ c ≠ '\\' ∧ ' ' ≤ c) := by
  obtain ⟨content, rest, hread⟩ := Text.exists_attributeText? hreferences hs
  exact ⟨Text.quote s, content, rest, hname.source_eq s literal origin, hread⟩

/-- The name `id`. -/
def idName : Node := ⟨.jsxIdentifier, [("name", .text "id")], {}⟩

/-- The text `it's on` is denoted by what is written for it, but `say "hi"` is cut off. -/
theorem quotedText_cut_off :
    (∀ chars : List Char, '&' ∉ chars → id chars = chars) ∧ idName.NamesAttribute "id" ∧
    '&' ∉ "it's on".toList ∧
    (Value.node (textAttribute idName "it's on" {} {})).source = .ok (.text "id=\"it's on\"") ∧
    Text.attributeText? id "\"it's on\"".toList = some ("it's on".toList, []) ∧
    '&' ∉ "say \"hi\"".toList ∧
    (Value.node (textAttribute idName "say \"hi\"" {} {})).source =
      .ok (.text "id=\"say \\\"hi\\\"\"") ∧
    ∃ content rest,
      Text.attributeText? id "\"say \\\"hi\\\"\"".toList = some (content, rest) ∧ rest ≠ [] := by
  have hreferences (chars : List Char) (_ : '&' ∉ chars) : id chars = chars := rfl
  have hname : idName.NamesAttribute "id" := .plain "id" {}
  have hplain : (Value.node (textAttribute idName "it's on" {} {})).source =
      .ok (.text "id=\"it's on\"") := rfl
  have hquoted : (Value.node (textAttribute idName "say \"hi\"" {} {})).source =
      .ok (.text "id=\"say \\\"hi\\\"\"") := rfl
  refine ⟨hreferences, hname, by decide, hplain, ?_, by decide, hquoted, ?_⟩
  · obtain ⟨quoted, content, rest, hsource, hread, -, hdenotes⟩ :=
      attribute_denotes_iff hreferences hname (by decide) {} {} (s := "it's on")
    obtain rfl : "\"it's on\"" = quoted := by
      simpa [hplain, ← String.toList_inj] using hsource
    obtain ⟨rfl, rfl⟩ := hdenotes.mpr (by simp)
    exact hread
  · obtain ⟨quoted, content, rest, hsource, hread, hrest, -⟩ :=
      attribute_denotes_iff hreferences hname (by decide) {} {} (s := "say \"hi\"")
    obtain rfl : "\"say \\\"hi\\\"\"" = quoted := by
      simpa [hquoted, ← String.toList_inj] using hsource
    exact ⟨content, rest, hread, fun h => hrest.mp h (by decide)⟩

end Node

end JsxControl
