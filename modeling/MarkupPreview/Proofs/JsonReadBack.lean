import MarkupPreview.Proofs.JsonNumerals

/-!
# JSON that is read back

A value that is written as JSON, in either layout, is read back as a document of the same
shape. The document is not the value: it keeps for each string whether a character was
escaped, and for each number the numeral that was written. Both come from the value alone,
so neither the layout nor what stands around a value has an influence on its document.

The reader cuts tokens off the text and takes them one at a time. Both are put together
here (`Expecting.read`), so that a value can be followed along its text: whatever is still
open, the reader takes the text of a value and has its document (`read_write`). The induction
is on the value, and goes through the items of an array and the fields of an object.

## Main results

* `stringUnits?_flatMap`, `decode?_units` — a string is read back.
* `Expecting.read_write` — the reader takes the text of a value and has its document.
* `Document.parse?_write` — what is written is read back.
-/

namespace MarkupPreview.Json

/-! ## Strings -/

/-- How a character of a written string is read: only the controls without a letter of their
own are kept as what was escaped. -/
def unitOf (c : Char) : StringUnit :=
  if c.toNat < 0x20 ∧ c ∉ ['\n', '\r', '\t', '\x08', '\x0c'] then .escaped c.toNat else .char c

/-- How a string that is written is read. -/
def units (text : Text) : List StringUnit := text.map unitOf

theorem hexValue4?_hexDigit (n : Nat) (h : n < 0x20) :
    hexValue4? '0' '0' (hexDigit (n / 16)) (hexDigit n) = some n := by
  revert n
  decide

theorem stringUnits?_escapedChar (c : Char) (rest : Text) :
    stringUnits? (escapedChar c ++ rest) =
      (stringUnits? rest).map fun (units, after) => (unitOf c :: units, after) := by
  unfold escapedChar
  split
  case h_8 hquote hbackslash hn hr ht hb hf =>
      split
      · rename_i hcontrol
        have hunit : unitOf c = .escaped c.toNat := by
          refine if_pos ⟨hcontrol, ?_⟩
          simp only [List.mem_cons, List.not_mem_nil, or_false]
          rintro (h | h | h | h | h)
          exacts [hn h, hr h, ht h, hb h, hf h]
        simp [stringUnits?, hexValue4?_hexDigit _ hcontrol, hunit]
      · rename_i hcontrol
        have hunit : unitOf c = .char c := if_neg fun h => hcontrol h.1
        have hplain : ¬(c.toNat < 0x20 ∨ c = '\\') := not_or.mpr ⟨hcontrol, hbackslash⟩
        rw [hunit, List.singleton_append, stringUnits?, if_neg hplain]
        · exact hquote
        · exact fun _ _ _ _ _ h => absurd h hbackslash
        · exact fun _ _ h => absurd h hbackslash
  all_goals rfl

/-- A string that is written is read up to its quote. -/
theorem stringUnits?_flatMap (text rest : Text) :
    stringUnits? (text.flatMap escapedChar ++ '"' :: rest) = some (units text, rest) := by
  induction text with
  | nil => rfl
  | cons c text ih =>
      rw [List.flatMap_cons, List.append_assoc, stringUnits?_escapedChar, ih]
      rfl

theorem decode?_escaped {code : Nat} (h : code < 0xD800) (rest : List StringUnit) :
    decode? (.escaped code :: rest) = (decode? rest).map (Char.ofNat code :: ·) := by
  have hhigh : ¬0xD800 ≤ code := by omega
  have hlow : ¬0xDC00 ≤ code := by omega
  match rest with
  | [] => simp [decode?, hhigh]
  | .char c :: rest => simp [decode?, hhigh]
  | .escaped low :: rest => simp [decode?, hhigh, hlow]

/-- No unit of a string that is written pairs up with another: each is a character. -/
theorem decode?_units (text : Text) : decode? (units text) = some text := by
  induction text with
  | nil => rfl
  | cons c text ih =>
      unfold units at ih ⊢
      rw [List.map_cons, unitOf]
      split
      · rename_i hcontrol
        rw [decode?_escaped (by omega), ih, Char.ofNat_toNat]
        rfl
      · rw [decode?, ih]
        rfl

/-! ## Tokens -/

theorem isGap_iff {c : Char} : isGap c = true ↔ c = ' ' ∨ c = '\n' ∨ c = '\t' ∨ c = '\r' := by
  simp [isGap, or_assoc]

/-- No token starts with what separates tokens. -/
theorem not_isGap_of_cut? {c : Char} {rest after : Text} {token : JsonToken}
    (h : cut? (c :: rest) = some (token, after)) : isGap c = false := by
  cases hgap : isGap c with
  | false => rfl
  | true => rcases isGap_iff.mp hgap with rfl | rfl | rfl | rfl <;> cases h

theorem tokens?_gap {c : Char} (h : isGap c = true) (rest : Text) :
    tokens? (c :: rest) = tokens? rest := by
  rw [tokens?, if_pos h]

theorem tokens?_of_cut? {text after : Text} {token : JsonToken}
    (h : cut? text = some (token, after)) : tokens? text = (tokens? after).map (token :: ·) := by
  cases text with
  | nil => cases h
  | cons c rest =>
      rw [tokens?, if_neg (by simp [not_isGap_of_cut? h])]
      split
      · rename_i hnone
        rw [h] at hnone
        cases hnone
      · rename_i hsome
        rw [h] at hsome
        cases hsome
        rfl

/-- Where a number stands no other token does. -/
theorem cut?_of_numeral? {text after : Text} {numeral : Numeral}
    (h : numeral? text = some (numeral, after)) : cut? text = some (.number numeral, after) := by
  unfold cut?
  split
  case h_11 => rw [h]; rfl
  all_goals cases h

/-! ## The reader on its text -/

namespace Expecting

/-- What comes out if the rest of the text is the given one. -/
def read (expecting : Expecting) (text : Text) : Option Document :=
  (tokens? text).bind expecting.run

variable {expecting : Expecting} {text after rest : Text}

theorem read_gap {c : Char} (h : isGap c = true) (rest : Text) :
    expecting.read (c :: rest) = expecting.read rest := by
  rw [read, read, tokens?_gap h]

theorem read_of_cut? {token : JsonToken} (h : cut? text = some (token, after)) :
    expecting.read text = (expecting.step token).bind (·.read after) := by
  unfold read
  rw [tokens?_of_cut? h]
  cases tokens? after with
  | none => cases expecting.step token <;> rfl
  | some tokens => rw [Option.map_some, Option.bind_some, run]; rfl

theorem read_lineBreak (layout : Layout) (rest : Text) :
    expecting.read (layout.lineBreak ++ rest) = expecting.read rest := by
  cases layout with
  | compact => rfl
  | indented level =>
      have hspaces : ∀ n, expecting.read (List.replicate n ' ' ++ rest) = expecting.read rest := by
        intro n
        induction n with
        | zero => rfl
        | succ n ih => exact (read_gap rfl _).trans ih
      exact (read_gap rfl _).trans (hspaces _)

theorem read_stringText (value : Text) (rest : Text) :
    expecting.read (stringText value ++ rest) =
      (expecting.step (.string (units value))).bind (·.read rest) := by
  apply read_of_cut?
  have hunits := stringUnits?_flatMap value rest
  show cut? ('"' :: (value.flatMap escapedChar ++ ['"'] ++ rest)) = _
  rw [List.append_assoc, List.singleton_append, cut?, hunits]
  rfl

theorem read_colon (layout : Layout) (before : List (List StringUnit × Document))
    (key : List StringUnit) (holders : List Holder) (rest : Text) :
    (colon before key holders).read (layout.colon ++ rest) =
      (value (.object before key :: holders) false).read rest := by
  have hcut : ∀ after, cut? (':' :: after) = some (.colon, after) := fun _ => rfl
  cases layout with
  | compact => exact read_of_cut? (hcut rest)
  | indented level => exact (read_of_cut? (hcut _)).trans (read_gap rfl rest)

end Expecting

/-! ## Written values -/

/-- The document of a number: what is not finite has none. -/
def numberDocument (x : Float) : Document :=
  match numeral? (numberForm.write x) with
  | some (numeral, _) => .number numeral
  | none => .null

mutual

/-- The document that a written value is read back as. -/
def document : Json → Document
  | null => .null
  | boolean value => .boolean value
  | integer value => .number (.ofInt value)
  | number value => numberDocument value
  | string value => .string (units value)
  | array items => .array (documents items)
  | object fields => .object (fieldDocuments fields)

/-- The documents of the items of an array. -/
def documents : List Json → List Document
  | [] => []
  | item :: rest => document item :: documents rest

/-- The documents of the fields of an object. -/
def fieldDocuments : List (String × Json) → List (List StringUnit × Document)
  | [] => []
  | (key, value) :: rest => (units key.toList, document value) :: fieldDocuments rest

end

theorem stops_lineBreak (layout : Layout) {rest : Text} (h : rest.Stops goesOn) :
    Text.Stops goesOn (layout.lineBreak ++ rest) := by
  cases layout with
  | compact => exact h
  | indented level => exact Text.stops_cons.mpr (by decide)

theorem stops_bracket (rest : Text) : Text.Stops goesOn (']' :: rest) :=
  Text.stops_cons.mpr (by decide)

theorem stops_brace (rest : Text) : Text.Stops goesOn ('\x7d' :: rest) :=
  Text.stops_cons.mpr (by decide)

/-- Behind an item there is a comma or the end of the line. -/
theorem stops_items (layout : Layout) (items : List Text) {rest : Text} (h : rest.Stops goesOn) :
    Text.Stops goesOn
      (items.flatMap (fun item => ',' :: (layout.inner.lineBreak ++ item)) ++
        (layout.lineBreak ++ rest)) := by
  cases items with
  | nil => exact stops_lineBreak layout h
  | cons item items => exact Text.stops_cons.mpr (by decide)

namespace Expecting

variable {holders : List Holder} {mayClose : Bool} {rest : Text}

theorem read_numberForm (x : Float) (h : rest.Stops goesOn) :
    (value holders mayClose).read (numberForm.write x ++ rest) =
      (next (numberDocument x) holders).read rest := by
  unfold numberDocument
  rcases Numeral.exists_numeral_or_null x with ⟨numeral, hproper, hspelling⟩ | hnull
  · have hread := Numeral.numeral?_spelling hproper h
    have halone : numeral? (numeral.spelling ++ []) = some (numeral, []) :=
      Numeral.numeral?_spelling hproper nofun
    rw [List.append_nil] at halone
    rw [← hspelling, read_of_cut? (cut?_of_numeral? hread), halone]
    rfl
  · have hcut : cut? (['n', 'u', 'l', 'l'] ++ rest) = some (.null, rest) := rfl
    rw [hnull, read_of_cut? hcut]
    rfl

/-- A token of one character is taken off. -/
theorem read_mark {expecting following : Expecting} {c : Char} {token : JsonToken}
    (hcut : ∀ text, cut? (c :: text) = some (token, text))
    (hstep : expecting.step token = some following) (text : Text) :
    expecting.read (c :: text) = following.read text := by
  rw [read_of_cut? (hcut text), hstep]
  rfl

theorem read_openBracket (text : Text) :
    (value holders mayClose).read ('[' :: text) = (value (.array [] :: holders) true).read text :=
  read_mark (fun _ => rfl) rfl text

theorem read_openBrace (text : Text) :
    (value holders mayClose).read ('\x7b' :: text) = (key [] holders true).read text :=
  read_mark (fun _ => rfl) rfl text

theorem read_closeBracket (complete : Document) (before : List Document) (text : Text) :
    (next complete (.array before :: holders)).read (']' :: text) =
      (next (.array (before ++ [complete])) holders).read text :=
  read_mark (fun _ => rfl) rfl text

theorem read_closeBrace (complete : Document) (before : List (List StringUnit × Document))
    (held : List StringUnit) (text : Text) :
    (next complete (.object before held :: holders)).read ('\x7d' :: text) =
      (next (.object (before ++ [(held, complete)])) holders).read text :=
  read_mark (fun _ => rfl) rfl text

theorem read_comma_array (complete : Document) (before : List Document) (text : Text) :
    (next complete (.array before :: holders)).read (',' :: text) =
      (value (.array (before ++ [complete]) :: holders) false).read text :=
  read_mark (fun _ => rfl) rfl text

theorem read_comma_object (complete : Document) (before : List (List StringUnit × Document))
    (held : List StringUnit) (text : Text) :
    (next complete (.object before held :: holders)).read (',' :: text) =
      (key (before ++ [(held, complete)]) holders false).read text :=
  read_mark (fun _ => rfl) rfl text

/-- A key is taken with its colon. -/
theorem read_key (layout : Layout) (name : Text) (before : List (List StringUnit × Document))
    (text : Text) :
    (key before holders mayClose).read (stringText name ++ (layout.colon ++ text)) =
      (value (.object before (units name) :: holders) false).read text :=
  (read_stringText name _).trans (read_colon layout before (units name) holders text)

mutual

/-- The reader takes the text of a value and has its document. -/
theorem read_write (layout : Layout) (json : Json) (holders : List Holder) (mayClose : Bool)
    {rest : Text} (hrest : rest.Stops goesOn) :
    (value holders mayClose).read (write layout json ++ rest) =
      (next json.document holders).read rest := by
  match json with
  | null =>
      have hcut : cut? (['n', 'u', 'l', 'l'] ++ rest) = some (.null, rest) := rfl
      rw [write, read_of_cut? hcut]
      rfl
  | boolean true =>
      have hcut : cut? (['t', 'r', 'u', 'e'] ++ rest) = some (.boolean true, rest) := rfl
      rw [write, read_of_cut? hcut]
      rfl
  | boolean false =>
      have hcut : cut? (['f', 'a', 'l', 's', 'e'] ++ rest) = some (.boolean false, rest) := rfl
      rw [write, read_of_cut? hcut]
      rfl
  | integer n =>
      have hread := Numeral.numeral?_spelling (Numeral.isProper_ofInt n) hrest
      rw [write, ← Numeral.spelling_ofInt, read_of_cut? (cut?_of_numeral? hread)]
      rfl
  | number x =>
      rw [write]
      exact read_numberForm x hrest
  | string text =>
      rw [write, read_stringText]
      rfl
  | array [] =>
      rw [write_array_nil]
      exact (read_openBracket _).trans (read_mark (fun _ => rfl) rfl rest)
  | array (item :: items) =>
      have hbehind := stops_items layout (writeItems layout.inner items) (stops_bracket rest)
      rw [write, writeItems, Layout.enclose]
      simp only [List.cons_append, List.append_assoc, List.nil_append]
      rw [read_openBracket, read_lineBreak, read_write layout.inner item _ _ hbehind,
        read_writeItems layout items _ _ _ rest]
      rfl
  | object [] =>
      rw [write_object_nil]
      exact (read_openBrace _).trans (read_mark (fun _ => rfl) rfl rest)
  | object ((name, item) :: fields) =>
      have hbehind := stops_items layout (writeFields layout.inner fields) (stops_brace rest)
      rw [write, writeFields, Layout.enclose]
      simp only [List.cons_append, List.append_assoc, List.nil_append]
      rw [read_openBrace, read_lineBreak, read_key, read_write layout.inner item _ _ hbehind,
        read_writeFields layout fields _ _ _ _ rest]
      rfl

/-- The reader takes the other items of an array behind one that it has. -/
theorem read_writeItems (layout : Layout) (items : List Json) (complete : Document)
    (before : List Document) (holders : List Holder) (rest : Text) :
    (next complete (.array before :: holders)).read
        ((writeItems layout.inner items).flatMap
            (fun item => ',' :: (layout.inner.lineBreak ++ item)) ++
          (layout.lineBreak ++ ']' :: rest)) =
      (next (.array (before ++ complete :: documents items)) holders).read rest := by
  match items with
  | [] =>
      rw [writeItems, List.flatMap_nil, List.nil_append, read_lineBreak, read_closeBracket]
      rfl
  | item :: items =>
      have hbehind := stops_items layout (writeItems layout.inner items) (stops_bracket rest)
      rw [writeItems, List.flatMap_cons]
      simp only [List.cons_append, List.append_assoc]
      rw [read_comma_array, read_lineBreak, read_write layout.inner item _ _ hbehind,
        read_writeItems layout items _ _ _ rest, List.append_assoc]
      rfl

/-- The reader takes the other fields of an object behind one that it has. -/
theorem read_writeFields (layout : Layout) (fields : List (String × Json)) (complete : Document)
    (before : List (List StringUnit × Document)) (held : List StringUnit)
    (holders : List Holder) (rest : Text) :
    (next complete (.object before held :: holders)).read
        ((writeFields layout.inner fields).flatMap
            (fun item => ',' :: (layout.inner.lineBreak ++ item)) ++
          (layout.lineBreak ++ '\x7d' :: rest)) =
      (next (.object (before ++ (held, complete) :: fieldDocuments fields)) holders).read rest := by
  match fields with
  | [] =>
      rw [writeFields, List.flatMap_nil, List.nil_append, read_lineBreak, read_closeBrace]
      rfl
  | (name, item) :: fields =>
      have hbehind := stops_items layout (writeFields layout.inner fields) (stops_brace rest)
      rw [writeFields, List.flatMap_cons]
      simp only [List.cons_append, List.append_assoc]
      rw [read_comma_object, read_lineBreak, read_key, read_write layout.inner item _ _ hbehind,
        read_writeFields layout fields _ _ _ _ rest, List.append_assoc]
      rfl

end

end Expecting

/-- What is written is read back, in either layout. -/
theorem Document.parse?_write (layout : Layout) (json : Json) :
    Document.parse? (write layout json) = some json.document := by
  have hread : (Expecting.value [] false).read (write layout json ++ []) =
      (Expecting.next json.document []).read [] :=
    Expecting.read_write layout json [] false nofun
  rw [List.append_nil] at hread
  calc
    parse? (write layout json) = (Expecting.next json.document []).read [] := hread
    _ = some json.document := by rw [Expecting.read, tokens?]; rfl

/-- The keys of an object are read back, whatever its values are. -/
theorem Document.decodeKeys?_fieldDocuments (fields : List (String × Json)) :
    decodeKeys? (fieldDocuments fields) =
      some (fields.map fun (name, value) => (name.toList, value.document)) := by
  induction fields with
  | nil => rfl
  | cons field fields ih =>
      rw [fieldDocuments, decodeKeys?, decode?_units, ih]
      rfl

end MarkupPreview.Json
