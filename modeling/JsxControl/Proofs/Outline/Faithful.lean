import JsxControl.Outline
import JsxControl.Proofs.Exchange.Readable
import JsxControl.Proofs.Exchange.Regular
import JsxControl.Proofs.Location.Unlocated
import JsxControl.Proofs.Outline.Compact

/-!
# What outlines show

`Value.stripped` is a tree without the data that outlines hide. The outline of a tree is that of the
stripped tree, and it determines the stripped tree as long as the names in it are plain: trees that
differ only in what is hidden have one outline, and all others have different ones.

An outline is read from its first line, which says what the value is, and from the lines below,
which lie deeper than all that can follow the value.
-/

namespace JsxControl

open Entries

/-! ### Trees without what is hidden -/

mutual

/-- A value without the locations, the ranges and the extra members of its nodes, and without the
fields of unknown kinds that are named like them. -/
def Value.stripped : Value → Value
  | .scalar s => .scalar s
  | .list items => .list (Value.strippedItems items)
  | .record members => .record members
  | .node n => .node n.stripped

/-- A node of which only the kind and the fields are left, and of an unknown kind the fields that
are not named like location data. -/
def Node.stripped : Node → Node
  | ⟨kind, fields, _⟩ => ⟨kind, Value.strippedFields kind fields, {}⟩

/-- The items of a list, each stripped. -/
def Value.strippedItems : List Value → List Value
  | [] => []
  | item :: rest => item.stripped :: Value.strippedItems rest

/-- The fields of a node that are left, each stripped. -/
def Value.strippedFields (kind : Kind) : List (String × Value) → List (String × Value)
  | [] => []
  | (name, v) :: rest =>
    if kind.isOther && ["start", "end", "extra"].contains name then Value.strippedFields kind rest
    else (name, v.stripped) :: Value.strippedFields kind rest

end

namespace Outline

/-! ### Lines -/

/-- The indentation at a depth. -/
def blanks (depth : ℕ) : List Char := List.replicate (2 * depth) ' '

/-- The outline of a value at a depth. -/
def chars (depth : ℕ) (v : Value) : List Char := (ofValue (String.ofList (blanks depth)) v).toList

/-- The first line of an outline. -/
def heading : Value → List Char
  | .scalar s => s.json.toList
  | .list items => if items.isEmpty then ['[', ']'] else []
  | .record members => (Json.record members).compact.toList
  | .node n => '[' :: n.kind.label.toList ++ [']']

/-- Items with their numbers as labels. -/
def numbered (index : ℕ) : List Value → List (List Char × Value)
  | [] => []
  | item :: rest => ('#' :: (toString index).toList ++ [' '], item) :: numbered (index + 1) rest

/-- The fields that are shown, with their names as labels. -/
def labelled : List (String × Value) → List (List Char × Value)
  | [] => []
  | (name, v) :: rest =>
    if hidden.contains name then labelled rest
    else (name.toList ++ [':', ' '], v) :: labelled rest

/-- What the lines below the first show, behind the labels that they begin with. -/
def entries : Value → List (List Char × Value)
  | .list items => numbered 0 items
  | .node n => labelled n.fields
  | _ => []

/-- The lines below the first. -/
def body (depth : ℕ) (es : List (List Char × Value)) : List Char :=
  es.flatMap fun e => blanks (depth + 1) ++ e.1 ++ chars (depth + 1) e.2

lemma blanks_succ (depth : ℕ) : blanks (depth + 1) = blanks depth ++ [' ', ' '] := by
  rw [blanks, blanks, Nat.mul_add, List.replicate_add]
  rfl

lemma ofList_blanks_append (depth : ℕ) :
    String.ofList (blanks depth) ++ "  " = String.ofList (blanks (depth + 1)) := by
  rw [← String.toList_inj, blanks_succ]
  simp

lemma toList_ofItems (depth index : ℕ) (items : List Value) :
    (ofItems (String.ofList (blanks depth)) index items).toList =
      body depth (numbered index items) := by
  induction items generalizing index with
  | nil => simp [ofItems, numbered, body]
  | cons item rest ih =>
    simp only [body] at ih
    simp only [ofItems, ofList_blanks_append, String.toList_append, ih, numbered, body,
      List.flatMap_cons, chars, blanks_succ]
    simp

lemma toList_ofFields (depth : ℕ) (fields : List (String × Value)) :
    (ofFields (String.ofList (blanks depth)) fields).toList = body depth (labelled fields) := by
  induction fields with
  | nil => simp [ofFields, labelled, body]
  | cons field rest ih =>
    obtain ⟨name, v⟩ := field
    simp only [body] at ih
    rw [ofFields, labelled, String.toList_append, ih]
    split_ifs
    · simp [body]
    · rw [ofList_blanks_append, body, List.flatMap_cons]
      simp [chars, blanks_succ]

/-- An outline is its first line and the lines below. -/
lemma chars_eq (depth : ℕ) (v : Value) :
    chars depth v = heading v ++ '\n' :: body depth (entries v) := by
  cases v with
  | scalar s => simp [chars, ofValue, heading, entries, body]
  | record members => simp [chars, ofValue, heading, entries, body]
  | list items =>
    cases items with
    | nil => simp [chars, ofValue, heading, entries, body, numbered]
    | cons item rest =>
      rw [chars, ofValue, if_neg (by simp), String.toList_append, toList_ofItems]
      rfl
  | node n =>
    obtain ⟨kind, fields, origin⟩ := n
    rw [chars, ofValue, ofNode, String.toList_append, toList_ofFields]
    simp [heading, entries]

lemma mem_numbered {e : List Char × Value} {items : List Value} {index : ℕ}
    (h : e ∈ numbered index items) : e.2 ∈ items := by
  induction items generalizing index with
  | nil => simp [numbered] at h
  | cons item rest ih =>
    rcases List.mem_cons.mp h with rfl | h
    · exact List.mem_cons_self
    · exact List.mem_cons_of_mem _ (ih h)

lemma mem_labelled {e : List Char × Value} {fields : List (String × Value)}
    (h : e ∈ labelled fields) : ∃ name, (name, e.2) ∈ fields ∧ e.1 = name.toList ++ [':', ' '] := by
  induction fields with
  | nil => simp [labelled] at h
  | cons field rest ih =>
    obtain ⟨name, v⟩ := field
    have hrest (h : e ∈ labelled rest) : ∃ name', (name', e.2) ∈ (name, v) :: rest ∧
        e.1 = name'.toList ++ [':', ' '] := by
      obtain ⟨name', hmem, hlabel⟩ := ih h
      exact ⟨name', List.mem_cons_of_mem _ hmem, hlabel⟩
    rw [labelled] at h
    split_ifs at h
    · exact hrest h
    · rcases List.mem_cons.mp h with rfl | h
      · exact ⟨name, List.mem_cons_self, rfl⟩
      · exact hrest h

/-- What holds of a value as soon as it holds of all that its lines show holds of every value. -/
@[elab_as_elim]
lemma entries_induction {motive : Value → Prop}
    (step : ∀ v, (∀ e ∈ entries v, motive e.2) → motive v) (v : Value) : motive v := by
  induction v using Value.part_induction with
  | scalar s => exact step _ (by simp [entries])
  | record members => exact step _ (by simp [entries])
  | list items ih => exact step _ fun e he => ih e.2 (mem_numbered he)
  | node n ih =>
    refine step _ fun e he => ?_
    obtain ⟨name, hmem, -⟩ := mem_labelled he
    exact ih (name, e.2) hmem

end Outline

/-! ### Stripping changes no outline -/

namespace Value

lemma strippedItems_eq_map (items : List Value) : strippedItems items = items.map stripped := by
  induction items with
  | nil => rw [strippedItems, List.map_nil]
  | cons item rest ih => rw [strippedItems, ih, List.map_cons]

lemma strippedFields_eq_map (kind : Kind) (fields : List (String × Value)) :
    strippedFields kind fields =
      (fields.filter fun field => !(kind.isOther && ["start", "end", "extra"].contains field.1)).map
        fun field => (field.1, field.2.stripped) := by
  induction fields with
  | nil => rw [strippedFields, List.filter_nil, List.map_nil]
  | cons field rest ih =>
    obtain ⟨name, v⟩ := field
    rw [strippedFields, ih]
    split_ifs with h
    · rw [List.filter_cons_of_neg (by simp only [h]; decide)]
    · rw [List.filter_cons_of_pos (by simp only [h]; decide), List.map_cons]

end Value

namespace Outline

lemma heading_stripped (v : Value) : heading v.stripped = heading v := by
  cases v with
  | scalar s => rw [Value.stripped]
  | record members => rw [Value.stripped]
  | list items =>
    rw [Value.stripped, Value.strippedItems_eq_map]
    simp [heading]
  | node n =>
    obtain ⟨kind, fields, origin⟩ := n
    rw [Value.stripped, Node.stripped]
    rfl

lemma entries_stripped (v : Value) :
    entries v.stripped = (entries v).map fun e => (e.1, e.2.stripped) := by
  cases v with
  | scalar s => rw [Value.stripped]; rfl
  | record members => rw [Value.stripped]; rfl
  | list items =>
    rw [Value.stripped, entries, entries]
    generalize 0 = index
    induction items generalizing index with
    | nil => simp [Value.strippedItems, numbered]
    | cons item rest ih => simp [Value.strippedItems, numbered, ih]
  | node n =>
    obtain ⟨kind, fields, origin⟩ := n
    rw [Value.stripped, Node.stripped, entries, entries]
    induction fields with
    | nil => simp [Value.strippedFields, labelled]
    | cons field rest ih =>
      obtain ⟨name, v⟩ := field
      simp only at ih ⊢
      rw [Value.strippedFields, labelled]
      by_cases hhidden : hidden.contains name = true
      · rw [if_pos hhidden]
        split_ifs
        · exact ih
        · rw [labelled, if_pos hhidden, ih]
      · have hkept : ¬ (kind.isOther && ["start", "end", "extra"].contains name) = true := by
          simp_all [hidden]
        rw [if_neg hhidden, if_neg hkept, labelled, if_neg hhidden, ih, List.map_cons]

/-- The outline of a value is that of the stripped value. -/
lemma chars_stripped (depth : ℕ) (v : Value) : chars depth v.stripped = chars depth v := by
  induction v using entries_induction generalizing depth with
  | step v ih =>
    rw [chars_eq, chars_eq, heading_stripped, entries_stripped, body, body, List.flatMap_map]
    congr 2
    exact List.flatMap_congr fun e he => by rw [ih e he]

end Outline

/-! ### Names -/

/-- A text that stands in an outline as one piece: it is not empty, and has neither blanks nor line
breaks. -/
def Outline.IsName (s : String) : Prop := s ≠ "" ∧ ∀ c ∈ s.toList, c ≠ ' ' ∧ c ≠ '\n'

instance : DecidablePred Outline.IsName := fun s =>
  @instDecidableAnd _ _ _ (List.decidableBAll (fun c => c ≠ ' ' ∧ c ≠ '\n') s.toList)

/-- Texts of letters, digits, underscores and dollar signs are names. -/
lemma Outline.isName_of_forall {s : String} (hne : s ≠ "")
    (h : ∀ c ∈ s.toList, Text.isLetter c ∨ c.isDigit ∨ c = '_' ∨ c = '$') : IsName s := by
  refine ⟨hne, fun c hc => ?_⟩
  rcases h c hc with hletter | hdigit | rfl | rfl
  · constructor <;>
      · rintro rfl
        exact absurd hletter (by decide)
  · constructor <;>
      · rintro rfl
        exact absurd hdigit (by decide)
  · decide
  · decide

open Outline (IsName)

/-- If a node is of an unknown kind, its type tag is a name, and the names of its fields are. -/
def Node.Named (n : Node) : Prop :=
  n.kind.isOther = true →
    (∃ s, n.kind.tag = .text s ∧ IsName s) ∧ ∀ name ∈ names n.fields, IsName name

/-- A node with the fields that its type tag allows. -/
structure Node.Tagged (n : Node) : Prop where
  notes : n.origin.notes = []
  kind : Kind.ofTag n.kind.tag = n.kind
  known : n.kind.isOther = false → names n.fields = n.kind.fieldNames
  unreserved : ∀ name ∈ names n.fields, name ∉ Kind.reservedKeys

/-- A node of which an outline shows all. -/
structure Node.Bare (n : Node) : Prop where
  origin : n.origin = {}
  kind : Kind.ofTag n.kind.tag = n.kind
  tag : ∃ s, n.kind.tag = .text s ∧ IsName s
  fields : ∀ name ∈ names n.fields, name ∉ Outline.hidden ∧ ' ' ∉ name.toList

namespace Kind

variable {kind : Kind}

lemma exists_tag_eq (h : kind.isOther = false) : ∃ s, kind.tag = .text s ∧ IsName s := by
  cases kind <;> first | exact ⟨_, rfl, by decide⟩ | simp [isOther] at h

lemma shown_of_mem_fieldNames {name : String} (h : name ∈ kind.fieldNames) :
    name ∉ Outline.hidden ∧ ' ' ∉ name.toList := by
  have hall : ∀ name ∈ kind.fieldNames, name ∉ Outline.hidden ∧ ' ' ∉ name.toList := by
    cases kind with
    | other => simp [fieldNames, layout]
    | _ => decide
  exact hall name h

end Kind

namespace Node

variable {n : Node}

lemma tagged_of_fieldNames (hnotes : n.origin.notes = []) (hknown : n.kind.isOther = false)
    (hnames : names n.fields = n.kind.fieldNames) : n.Tagged where
  notes := hnotes
  kind := Kind.ofTag_tag hknown
  known _ := hnames
  unreserved name hname hreserved := by
    rw [hnames] at hname
    exact Kind.not_mem_fieldNames name (List.mem_append_left ["start", "end"] hreserved) hname

lemma lasting_tagged : Lasting Tagged where
  notes _ h := h.notes
  made n h := tagged_of_fieldNames (by rw [h.origin]) h.known h.fields
  desugar n h := by
    have hnames : names n.desugar.fields = names n.fields := by
      rw [fields_desugar, names_map]
    constructor
    · rw [origin_desugar, h.notes]
    · rw [kind_desugar, h.kind]
    · rw [kind_desugar, hnames]
      exact h.known
    · rw [hnames]
      exact h.unreserved

lemma ReadFrom.tagged {members : List (String × Json)} (h : n.ReadFrom members) : n.Tagged := by
  obtain ⟨given, hgiven, hfields⟩ := h.fields
  cases hother : n.kind.isOther with
  | false => exact tagged_of_fieldNames h.notes hother ((Kind.arrange_eq_ok hfields).1 hother)
  | true =>
    refine ⟨h.notes, h.kind, by simp [hother], fun name hname => ?_⟩
    have hstored : putAll [] given = n.fields := by simpa [Kind.arrange, hother] using hfields
    rw [← hstored, mem_names_putAll] at hname
    obtain ⟨key, -, hkey⟩ := (Value.mem_names_given hgiven).mp (by simpa [names] using hname)
    rw [Kind.fieldOfKey?_eq_some_of_isOther hother hkey]
    exact Kind.not_reserved_of_fieldOfKey? hkey

lemma fields_stripped (n : Node) : n.stripped.fields =
    (n.fields.filter fun field =>
      !(n.kind.isOther && ["start", "end", "extra"].contains field.1)).map
        fun field => (field.1, field.2.stripped) := by
  obtain ⟨kind, fields, origin⟩ := n
  rw [stripped, Value.strippedFields_eq_map]

lemma kind_stripped (n : Node) : n.stripped.kind = n.kind := by
  obtain ⟨kind, fields, origin⟩ := n
  rw [stripped]

lemma origin_stripped (n : Node) : n.stripped.origin = {} := by
  obtain ⟨kind, fields, origin⟩ := n
  rw [stripped]

/-- The fields that are left of a node. -/
lemma mem_names_stripped {name : String} (h : name ∈ names n.stripped.fields) :
    name ∈ names n.fields ∧ (n.kind.isOther = true → name ∉ ["start", "end", "extra"]) := by
  rw [fields_stripped, names_map] at h
  obtain ⟨v, hv⟩ := mem_names.mp h
  obtain ⟨hmem, hkept⟩ := List.mem_filter.mp hv
  exact ⟨mem_names_of_mem hmem, fun hother => by simpa [hother] using hkept⟩

/-- What is left of a node is all shown. -/
lemma Tagged.bare (h : n.Tagged) (hnamed : n.Named) : n.stripped.Bare := by
  constructor
  · exact n.origin_stripped
  · rw [kind_stripped, h.kind]
  · rw [kind_stripped]
    cases hother : n.kind.isOther with
    | false => exact Kind.exists_tag_eq hother
    | true => exact (hnamed hother).1
  · intro name hname
    obtain ⟨hmem, hends⟩ := mem_names_stripped hname
    cases hother : n.kind.isOther with
    | false =>
      rw [h.known hother] at hmem
      exact Kind.shown_of_mem_fieldNames hmem
    | true =>
      have hreserved := h.unreserved name hmem
      have hends := hends hother
      refine ⟨?_, fun hblank => (((hnamed hother).2 name hmem).2 ' ' hblank).1 rfl⟩
      simp_all [Kind.reservedKeys, Outline.hidden]

end Node

/-- A tree that was read shows all when it is stripped. -/
lemma Value.throughout_bare {json : Json} {v : Value} (h : Value.ofJson json = .ok v)
    (hnames : v.Throughout Node.Named fun _ => True) :
    v.stripped.Throughout Node.Bare fun _ => True := by
  have htagged : v.Throughout Node.Tagged fun _ => True :=
    Value.ofJson_throughout Node.lasting_tagged json (fun _ _ _ hn => hn.tagged)
      (fun _ _ _ => trivial) h
  clear h
  induction hnames with
  | scalar s =>
    rw [stripped]
    exact .scalar s
  | record _ =>
    rw [stripped]
    exact .record trivial
  | list _ ih =>
    rw [stripped, strippedItems_eq_map]
    refine .list (List.forall_mem_map.mpr fun item hitem => ?_)
    exact ih item hitem (htagged.item hitem)
  | node hnamed _ ih =>
    rw [stripped]
    refine .node (htagged.here.bare hnamed) ?_
    rw [Node.fields_stripped]
    refine List.forall_mem_map.mpr fun field hfield => ?_
    have hmem := List.mem_of_mem_filter hfield
    exact ih field hmem (htagged.field hmem)

/-! ### Outlines of different trees -/

namespace Outline

variable {v v' : Value} {depth : ℕ} {rest rest' : List Char}

/-- A text that does not go on with a line below the depth. -/
def Dedented (depth : ℕ) (rest : List Char) : Prop := ¬ blanks (depth + 1) <+: rest

/-- A label ends at its first blank, which it does not begin with. -/
def IsLabel (label : List Char) : Prop := ∃ word, label = word ++ [' '] ∧ word ≠ [] ∧ ' ' ∉ word

/-- Texts up to the first occurrence of a character. -/
lemma append_cons_inj {c : Char} {cs cs' : List Char} (h : c ∉ cs) (h' : c ∉ cs')
    (heq : cs ++ c :: rest = cs' ++ c :: rest') : cs = cs' ∧ rest = rest' := by
  have hcs : cs = cs' := by
    rw [← Decimal.takeWhile_ne_append h rest, heq, Decimal.takeWhile_ne_append h']
  rw [hcs] at heq
  exact ⟨hcs, (List.cons.inj (List.append_cancel_left heq)).2⟩

lemma IsLabel.append_inj {label label' : List Char} (h : IsLabel label) (h' : IsLabel label')
    (heq : label ++ rest = label' ++ rest') : label = label' ∧ rest = rest' := by
  obtain ⟨word, rfl, -, hblank⟩ := h
  obtain ⟨word', rfl, -, hblank'⟩ := h'
  rw [List.append_assoc, List.append_assoc] at heq
  obtain ⟨rfl, hrest⟩ := append_cons_inj hblank hblank' heq
  exact ⟨rfl, hrest⟩

lemma Dedented.succ (h : Dedented depth rest) : Dedented (depth + 1) rest := by
  rw [Dedented, blanks_succ]
  exact fun hprefix => h ((List.prefix_append _ _).trans hprefix)

lemma body_cons (depth : ℕ) (e : List Char × Value) (es : List (List Char × Value)) :
    body depth (e :: es) =
      blanks (depth + 1) ++ (e.1 ++ (chars (depth + 1) e.2 ++ body depth es)) := by
  simp [body]

/-- Lines at a depth lie no deeper. -/
lemma dedented_body {es : List (List Char × Value)} (hlabels : ∀ e ∈ es, IsLabel e.1)
    (hrest : Dedented depth rest) : Dedented (depth + 1) (body depth es ++ rest) := by
  cases es with
  | nil => exact hrest.succ
  | cons e es =>
    obtain ⟨word, hlabel, hne, hblank⟩ := hlabels e List.mem_cons_self
    obtain ⟨c, cs, rfl⟩ := List.exists_cons_of_ne_nil hne
    have hc : ' ' ≠ c := fun heq => hblank (heq ▸ List.mem_cons_self)
    rw [Dedented, body_cons, blanks_succ (depth + 1), hlabel]
    simp [List.append_assoc, List.prefix_append_right_inj, hc]

lemma not_dedented_body_cons (e : List Char × Value) (es : List (List Char × Value)) :
    ¬ Dedented depth (body depth (e :: es) ++ rest) := by
  rw [Dedented, body_cons, List.append_assoc]
  exact fun h => h (List.prefix_append _ _)

/-- Lines show their labels and what is behind them, if that shows where it ends. -/
lemma body_append_inj {es es' : List (List Char × Value)} (hlabels : ∀ e ∈ es, IsLabel e.1)
    (hlabels' : ∀ e ∈ es', IsLabel e.1) (hrest : Dedented depth rest)
    (hrest' : Dedented depth rest')
    (hchars : ∀ e ∈ es, ∀ e' ∈ es', ∀ rest rest' : List Char, Dedented (depth + 1) rest →
      Dedented (depth + 1) rest' →
        chars (depth + 1) e.2 ++ rest = chars (depth + 1) e'.2 ++ rest' → e.2 = e'.2 ∧ rest = rest')
    (h : body depth es ++ rest = body depth es' ++ rest') : es = es' ∧ rest = rest' := by
  induction es generalizing es' with
  | nil =>
    cases es' with
    | nil => exact ⟨rfl, h⟩
    | cons e' es' =>
      obtain rfl : rest = body depth (e' :: es') ++ rest' := h
      exact absurd hrest (not_dedented_body_cons e' es')
  | cons e es ih =>
    cases es' with
    | nil =>
      obtain rfl : body depth (e :: es) ++ rest = rest' := h
      exact absurd hrest' (not_dedented_body_cons e es)
    | cons e' es' =>
      obtain ⟨hlabel, hlabels⟩ := List.forall_mem_cons.mp hlabels
      obtain ⟨hlabel', hlabels'⟩ := List.forall_mem_cons.mp hlabels'
      simp only [body_cons, List.append_assoc, List.append_cancel_left_eq] at h
      obtain ⟨hsame, h⟩ := hlabel.append_inj hlabel' h
      obtain ⟨hcontent, h⟩ := hchars e List.mem_cons_self e' List.mem_cons_self _ _
        (dedented_body hlabels hrest) (dedented_body hlabels' hrest') h
      obtain ⟨rfl, hend⟩ := ih hlabels hlabels' (fun d hd d' hd' =>
        hchars d (List.mem_cons_of_mem _ hd) d' (List.mem_cons_of_mem _ hd')) h
      exact ⟨by rw [Prod.ext hsame hcontent], hend⟩

/-! ### First lines -/

lemma isLabel_numbered {items : List Value} {index : ℕ} {e : List Char × Value}
    (h : e ∈ numbered index items) : IsLabel e.1 := by
  induction items generalizing index with
  | nil => simp [numbered] at h
  | cons item rest ih =>
    rcases List.mem_cons.mp h with rfl | h
    · refine ⟨'#' :: (toString index).toList, rfl, by simp, ?_⟩
      rw [Nat.toString_eq_ofList_toDigits, String.toList_ofList]
      have hdigits : ' ' ∉ Nat.toDigits 10 index := (Decimal.allDigits_digitChars index).not_mem rfl
      simpa using hdigits
    · exact ih h

lemma isLabel_of_mem_entries (hv : v.Throughout Node.Bare fun _ => True) {e : List Char × Value}
    (he : e ∈ entries v) : IsLabel e.1 := by
  cases v with
  | scalar | record => simp [entries] at he
  | list items => exact isLabel_numbered he
  | node n =>
    obtain ⟨name, hmem, hlabel⟩ := mem_labelled he
    refine ⟨name.toList ++ [':'], by simp [hlabel], by simp, ?_⟩
    simp [(hv.here.fields name (mem_names_of_mem hmem)).2]

lemma throughout_of_mem_entries (hv : v.Throughout Node.Bare fun _ => True)
    {e : List Char × Value} (he : e ∈ entries v) : e.2.Throughout Node.Bare fun _ => True := by
  cases v with
  | scalar | record => simp [entries] at he
  | list items => exact hv.item (mem_numbered he)
  | node n =>
    obtain ⟨name, hmem, -⟩ := mem_labelled he
    exact hv.field hmem

lemma newline_not_mem_heading (hv : v.Throughout Node.Bare fun _ => True) : '\n' ∉ heading v := by
  cases v with
  | scalar s => exact Json.newline_not_mem_compact (.scalar s)
  | record members => exact Json.newline_not_mem_compact (.record members)
  | list items => cases items <;> simp [heading]
  | node n =>
    obtain ⟨s, htag, -, hs⟩ := hv.here.tag
    have hnewline : '\n' ∉ s.toList := fun hmem => (hs '\n' hmem).2 rfl
    simp [heading, Kind.label, htag, hnewline]

/-- The items of a list can be read off its lines. -/
lemma numbered_injective {items items' : List Value} {index : ℕ}
    (h : numbered index items = numbered index items') : items = items' := by
  induction items generalizing items' index with
  | nil => cases items' <;> simp_all [numbered]
  | cons item rest ih =>
    cases items' with
    | nil => simp [numbered] at h
    | cons item' rest' =>
      obtain ⟨hitem, hrest⟩ := List.cons.inj h
      rw [(Prod.mk.inj hitem).2, ih hrest]

/-- Fields that are shown can be read off their lines. -/
lemma labelled_injective {fields fields' : List (String × Value)}
    (hfields : ∀ name ∈ names fields, name ∉ hidden)
    (hfields' : ∀ name ∈ names fields', name ∉ hidden) (h : labelled fields = labelled fields') :
    fields = fields' := by
  have hmap (fields : List (String × Value)) (hfields : ∀ name ∈ names fields, name ∉ hidden) :
      labelled fields = fields.map fun field => (field.1.toList ++ [':', ' '], field.2) := by
    induction fields with
    | nil => rfl
    | cons field rest ih =>
      obtain ⟨hfield, hrest⟩ := List.forall_mem_cons.mp hfields
      rw [labelled, if_neg (by simpa using hfield), ih hrest, List.map_cons]
  rw [hmap fields hfields, hmap fields' hfields'] at h
  refine List.map_injective_iff.mpr ?_ h
  rintro ⟨name, v⟩ ⟨name', v'⟩ heq
  simpa [String.toList_inj] using heq

/-- The document of a value that is shown on one line like a document. -/
def leaf? : Value → Option Json
  | .scalar s => some (.scalar s)
  | .record members => some (.record members)
  | _ => none

/-- A value is shown like a document, or its first line is empty or begins with a bracket. -/
lemma heading_cases (v : Value) : (∃ json, leaf? v = some json ∧ heading v = json.compact.toList ∧
      ∃ c cs, heading v = c :: cs ∧ c ≠ '[') ∨
    leaf? v = none ∧ ∀ c ∈ (heading v).head?, c = '[' := by
  have hleaf (json : Json) (hlist : ∀ items, json ≠ .list items) :
      ∃ c cs, json.compact.toList = c :: cs ∧ c ≠ '[' := by
    obtain ⟨c, cs, hchars, hc⟩ := json.exists_compact_eq_cons
    refine ⟨c, cs, hchars, ?_⟩
    rintro rfl
    rcases json with (_ | (_ | _) | _ | _ | _) | items | members <;>
      simp [Json.initial?, Decimal.IsNumeric] at hc hlist
  cases v with
  | scalar s => exact .inl ⟨_, rfl, rfl, hleaf (.scalar s) (by simp)⟩
  | record members => exact .inl ⟨_, rfl, rfl, hleaf (.record members) (by simp)⟩
  | list items => cases items <;> exact .inr ⟨rfl, by simp [heading]⟩
  | node n => exact .inr ⟨rfl, by simp [heading]⟩

lemma leaf?_eq (h : heading v = heading v') : leaf? v = leaf? v' := by
  obtain ⟨json, hleaf, hchars, c, cs, hc, hne⟩ | ⟨hleaf, hhead⟩ := heading_cases v <;>
    obtain ⟨json', hleaf', hchars', c', cs', hc', hne'⟩ | ⟨hleaf', hhead'⟩ := heading_cases v'
  · have hsame : json.compact.toList = json'.compact.toList := by rw [← hchars, ← hchars', h]
    rw [hleaf, hleaf', Json.compact_injective (String.toList_inj.mp hsame)]
  · exact absurd (hhead' c (by rw [← h, hc]; rfl)) hne
  · exact absurd (hhead c' (by rw [h, hc']; rfl)) hne'
  · rw [hleaf, hleaf']

/-- Nodes of which outlines show all are told apart by their labels and fields. -/
lemma node_eq {n n' : Node} (hn : n.Bare) (hn' : n'.Bare) (hlabel : n.kind.label = n'.kind.label)
    (hfields : labelled n.fields = labelled n'.fields) : n = n' := by
  obtain ⟨s, htag, -⟩ := hn.tag
  obtain ⟨s', htag', -⟩ := hn'.tag
  have hkind : n.kind = n'.kind := by
    rw [Kind.label, Kind.label, htag, htag', Scalar.shown_text, Scalar.shown_text] at hlabel
    rw [← hn.kind, ← hn'.kind, htag, htag', hlabel]
  have hsame : n.fields = n'.fields :=
    labelled_injective (fun name hname => (hn.fields name hname).1)
      (fun name hname => (hn'.fields name hname).1) hfields
  have horigin : n.origin = n'.origin := hn.origin.trans hn'.origin.symm
  cases n
  cases n'
  simp_all

/-- A value can be read off its first line and what its lines show. -/
lemma eq_of_heading_eq (hv : v.Throughout Node.Bare fun _ => True)
    (hv' : v'.Throughout Node.Bare fun _ => True) (hheading : heading v = heading v')
    (hentries : entries v = entries v') : v = v' := by
  have hleaf := leaf?_eq hheading
  have hmixed (items : List Value) (n : Node) (hn : n.Bare) :
      heading (.list items) ≠ heading (.node n) := by
    obtain ⟨s, htag, hne, -⟩ := hn.tag
    cases items <;> simp [heading, Kind.label, htag, hne]
  cases v <;> cases v' <;> simp only [leaf?, reduceCtorEq, Option.some.injEq, Json.scalar.injEq,
    Json.record.injEq] at hleaf
  · rw [hleaf]
  · rw [numbered_injective hentries]
  · exact absurd hheading (hmixed _ _ hv'.here)
  · rw [hleaf]
  · exact absurd hheading.symm (hmixed _ _ hv.here)
  · next n n' =>
    have hlabel : n.kind.label = n'.kind.label := by
      simpa [heading, String.toList_inj] using hheading
    rw [node_eq hv.here hv'.here hlabel hentries]

/-- The outline of a value shows the value and where it ends, in front of what lies no deeper. -/
theorem chars_append_inj (hv : v.Throughout Node.Bare fun _ => True)
    (hv' : v'.Throughout Node.Bare fun _ => True)
    (hrest : Dedented depth rest) (hrest' : Dedented depth rest')
    (h : chars depth v ++ rest = chars depth v' ++ rest') : v = v' ∧ rest = rest' := by
  induction v using entries_induction generalizing v' depth rest rest' with
  | step v ih =>
    simp only [chars_eq, List.append_assoc, List.cons_append] at h
    obtain ⟨hheading, h⟩ := append_cons_inj (newline_not_mem_heading hv)
      (newline_not_mem_heading hv') h
    obtain ⟨hentries, hend⟩ := body_append_inj (fun _ => isLabel_of_mem_entries hv)
      (fun _ => isLabel_of_mem_entries hv') hrest hrest'
      (fun e he e' he' _ _ => ih e he (throughout_of_mem_entries hv he)
        (throughout_of_mem_entries hv' he')) h
    exact ⟨eq_of_heading_eq hv hv' hheading hentries, hend⟩

/-- The outlines of two trees are the same exactly if the trees are, but for what is hidden. -/
theorem ofPart_eq_iff {json json' : Json} {v v' : Value} (h : Value.ofJson json = .ok v)
    (h' : Value.ofJson json' = .ok v') (hnames : v.Throughout Node.Named fun _ => True)
    (hnames' : v'.Throughout Node.Named fun _ => True) :
    ofPart (.value v) = ofPart (.value v') ↔ v.stripped = v'.stripped := by
  have hchars (v : Value) : (ofPart (.value v)).toList = chars 0 v.stripped := by
    rw [chars_stripped]
    rfl
  rw [← String.toList_inj, hchars, hchars]
  constructor
  · intro heq
    have hend : Dedented 0 [] := by simp [Dedented, blanks]
    exact (chars_append_inj (Value.throughout_bare h hnames) (Value.throughout_bare h' hnames') hend
      hend (by rw [heq])).1
  · intro heq
    rw [heq]

/-- The document of `export default x`, which starts at an offset. -/
def exportDocument (start : ℤ) : Json :=
  .record [("type", .text "ExportDefaultDeclaration"), ("start", .int start),
    ("declaration", .record [("type", .text "Identifier"), ("name", .text "x")])]

/-- The tree of `export default x`. -/
def exportTree (start : ℤ) : Value :=
  .node ⟨.other (.text "ExportDefaultDeclaration"), [("start", .int start),
    ("declaration", .node ⟨.identifier, [("name", .text "x")], {}⟩)], {}⟩

lemma ofJson_exportDocument (start : ℤ) :
    Value.ofJson (exportDocument start) = .ok (exportTree start) := rfl

lemma named_exportTree (start : ℤ) : (exportTree start).Throughout Node.Named fun _ => True := by
  have hname (s : String) (hne : s ≠ "") (h : s.toList.all Text.isLetter) : IsName s :=
    isName_of_forall hne fun c hc => .inl (List.all_eq_true.mp h c hc)
  refine .node (fun _ => ⟨⟨_, rfl, hname _ (by simp) (by decide)⟩, ?_⟩) ?_
  · simp only [names, List.map_cons, List.map_nil, List.forall_mem_cons]
    exact ⟨hname _ (by simp) (by decide), hname _ (by simp) (by decide), by simp⟩
  · simp only [List.forall_mem_cons]
    refine ⟨.scalar _, .node (fun hother => by simp [Kind.isOther] at hother) ?_, by simp⟩
    simp [Value.Throughout.scalar]

/-- Two exports that differ only in where they start have one outline. -/
theorem exports_look_alike : Value.ofJson (exportDocument 0) = .ok (exportTree 0) ∧
    Value.ofJson (exportDocument 7) = .ok (exportTree 7) ∧
    ofPart (.value (exportTree 0)) = ofPart (.value (exportTree 7)) := by
  refine ⟨ofJson_exportDocument 0, ofJson_exportDocument 7, ?_⟩
  refine (ofPart_eq_iff (ofJson_exportDocument 0) (ofJson_exportDocument 7) (named_exportTree 0)
    (named_exportTree 7)).mpr ?_
  simp [exportTree, Value.stripped, Node.stripped, Value.strippedFields, Kind.isOther]

end Outline

end JsxControl
