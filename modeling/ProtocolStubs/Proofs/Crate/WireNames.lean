import ProtocolStubs.Proofs.Crate.DocComments
import ProtocolStubs.Proofs.Crate.LegalNames
import ProtocolStubs.Proofs.Crate.Literal
import ProtocolStubs.Proofs.Crate.Pieces

set_option autoImplicit false

namespace ProtocolStubs.Crate

open Layout
open Text (inked OneLine trimStart)

inductive Quoting where
  | outside
  | inside
  | escaped
deriving DecidableEq

-- The items of a list, cut at the commas outside of literals; of the first, `held` has been read already, last
-- character first.
def itemsFrom (quoting : Quoting) (held : List Char) : List Char → List (List Char)
  | [] => [held.reverse]
  | c :: rest =>
    match quoting with
    | .outside =>
      if c = ',' then held.reverse :: itemsFrom .outside [] rest
      else if c = '"' then itemsFrom .inside (c :: held) rest
      else itemsFrom .outside (c :: held) rest
    | .inside =>
      if c = '"' then itemsFrom .outside (c :: held) rest
      else if c = '\\' then itemsFrom .escaped (c :: held) rest
      else itemsFrom .inside (c :: held) rest
    | .escaped => itemsFrom .inside (c :: held) rest

def enclosed? (opener closer text : List Char) : Option (List Char) :=
  (opener.isPrefixOf? text).bind closer.isSuffixOf?

def renaming? (attributes : List Char) : Option (List Char) :=
  (itemsFrom .outside [] attributes).findSome? fun item =>
    "rename = ".toList.isPrefixOf? (Text.dropBlanks item)

def declaredField? (row : List Char) : Option (List Char) :=
  ("pub ".toList.isPrefixOf? row).map fun rest => rest.takeWhile fun c => c ≠ ':'

-- The name on the wire of a declared field, given what a `rename` before it is set to. A raw identifier is none.
def wireOf? (renamed : Option (List Char)) (name : List Char) : Option String :=
  match renamed with
  | some literal => value? (String.ofList literal)
  | none => if "r#".toList <+: name then none else some (String.ofList name)

def wireFrom? (renamed : Option (List Char)) : List String → Option String
  | [] => none
  | row :: rest =>
    match enclosed? "#[facet(".toList ")]".toList row.toList with
    | some attributes => wireFrom? ((renaming? attributes).or renamed) rest
    | none => (declaredField? row.toList).bind (wireOf? renamed)

def wire? (source : String) : Option String := wireFrom? none ((inked source).map trimStart)

theorem enclosed_between (opener closer body : List Char) :
    enclosed? opener closer (opener ++ body ++ closer) = some body := by
  have front : opener.isPrefixOf? (opener ++ body ++ closer) = some (body ++ closer) :=
    List.isPrefixOf?_eq_some_iff_append_eq.mpr (by rw [List.append_assoc])
  rw [enclosed?, front, Option.bind_some]
  exact List.isSuffixOf?_eq_some_iff_append_eq.mpr rfl

section Items

theorem items_inside (text held rest : List Char) (plain : ∀ c ∈ text, c ≠ '"' ∧ c ≠ '\\') :
    itemsFrom .inside held (text ++ rest) = itemsFrom .inside (text.reverse ++ held) rest := by
  induction text generalizing held with
  | nil => rfl
  | cons c text ih =>
    obtain ⟨⟨quote, slash⟩, later⟩ := List.forall_mem_cons.mp plain
    rw [List.cons_append, itemsFrom, if_neg quote, if_neg slash, ih (c :: held) later]
    simp

theorem quoted_char_item (c : Char) (held rest : List Char) :
    itemsFrom .inside held (Text.quotedChar c ++ rest) =
      itemsFrom .inside ((Text.quotedChar c).reverse ++ held) rest := by
  refine quoted_char_forms (fun _ text => itemsFrom .inside held (text ++ rest) =
    itemsFrom .inside (text.reverse ++ held) rest) c ?_ ?_ fun other => ?_
  · simp only [shortEscapes, List.forall_mem_cons]
    exact ⟨rfl, rfl, rfl, rfl, rfl, rfl, List.forall_mem_nil _⟩
  · have digits : ∀ d ∈ '\x7b' :: (Nat.toDigits 16 c.toNat ++ ['\x7d']), d ≠ '"' ∧ d ≠ '\\' := by
      have digits := hex_digits_all (fun d => d ≠ '"' ∧ d ≠ '\\') (by decide) c.toNat
      exact List.forall_mem_cons.mpr ⟨by decide, List.forall_mem_append.mpr
        ⟨digits, List.forall_mem_singleton.mpr (by decide)⟩⟩
    have escape := items_inside _ ('u' :: '\\' :: held) rest digits
    simpa [Text.codePointEscape, itemsFrom] using escape
  · have quote := other ('"', _) List.mem_cons_self
    have slash := other ('\\', _) (List.mem_cons_of_mem _ List.mem_cons_self)
    exact items_inside [c] held rest (List.forall_mem_singleton.mpr ⟨quote, slash⟩)

theorem items_outside (text held rest : List Char) (comma : ',' ∉ text) (quote : '"' ∉ text) :
    itemsFrom .outside held (text ++ rest) = itemsFrom .outside (text.reverse ++ held) rest := by
  induction text generalizing held with
  | nil => rfl
  | cons c text ih =>
    rw [List.mem_cons, not_or] at comma quote
    rw [List.cons_append, itemsFrom, if_neg (Ne.symm comma.1), if_neg (Ne.symm quote.1),
      ih (c :: held) comma.2 quote.2]
    simp

theorem items_comma (text rest : List Char) (comma : ',' ∉ text) (quote : '"' ∉ text) :
    itemsFrom .outside [] (text ++ ',' :: rest) = text :: itemsFrom .outside [] rest := by
  rw [items_outside text [] _ comma quote, List.append_nil, itemsFrom, if_pos rfl, List.reverse_reverse]

theorem items_quote (text : List Char) (s : String) (comma : ',' ∉ text) (quote : '"' ∉ text) :
    itemsFrom .outside [] (text ++ (Text.quote s).toList) = [text ++ (Text.quote s).toList] := by
  have inner : ∀ (value held : List Char), itemsFrom .inside held (value.flatMap Text.quotedChar ++ ['"']) =
      [held.reverse ++ (value.flatMap Text.quotedChar ++ ['"'])] := by
    intro value
    induction value with
    | nil => exact fun held => by simp [itemsFrom]
    | cons c value ih =>
      intro held
      rw [List.flatMap_cons, List.append_assoc, quoted_char_item, ih]
      simp
  have spelled : (Text.quote s).toList = '"' :: (s.toList.flatMap Text.quotedChar ++ ['"']) := by
    simp [Text.quote]
  rw [spelled, items_outside text [] _ comma quote, itemsFrom, if_neg (by decide), if_pos rfl, inner]
  simp

end Items

theorem rename_item (text : List Char) :
    "rename = ".toList.isPrefixOf? (Text.dropBlanks ("rename = ".toList ++ text)) = some text := by
  have shown : Text.dropBlanks ("rename = ".toList ++ text) = "rename = ".toList ++ text :=
    List.dropWhile_cons_of_neg (by decide)
  rw [shown, List.isPrefixOf?_eq_some_iff_append_eq]

theorem renaming_read (f : Field) : renaming? (Text.joinWith ", " f.attributes).toList =
    f.renamed?.map fun wire => (Text.quote wire).toList := by
  rw [Field.attributes]
  cases f.renamed? with
  | none => cases f.optional <;> decide
  | some wire =>
    cases f.optional with
    | false =>
      have spelled : (Text.joinWith ", " ["rename = " ++ Text.quote wire]).toList =
          "rename = ".toList ++ (Text.quote wire).toList := by
        simp [Text.joinWith]
      change renaming? (Text.joinWith ", " ["rename = " ++ Text.quote wire]).toList = _
      rw [spelled, renaming?, items_quote _ wire (by decide) (by decide), List.findSome?_singleton, rename_item]
      rfl
    | true =>
      have spelled : (Text.joinWith ", "
          ["default", "skip_serializing_if = Option::is_none", "rename = " ++ Text.quote wire]).toList =
          "default".toList ++ ',' :: (" skip_serializing_if = Option::is_none".toList ++
            ',' :: (" rename = ".toList ++ (Text.quote wire).toList)) := by
        simp [Text.joinWith, List.intercalate_cons_cons]
      have behind : Text.dropBlanks (" rename = ".toList ++ (Text.quote wire).toList) =
          Text.dropBlanks ("rename = ".toList ++ (Text.quote wire).toList) :=
        List.dropWhile_cons_of_pos (by decide)
      change renaming? (Text.joinWith ", "
        ["default", "skip_serializing_if = Option::is_none", "rename = " ++ Text.quote wire]).toList = _
      rw [spelled, renaming?, items_comma _ _ (by decide) (by decide), items_comma _ _ (by decide) (by decide),
        items_quote _ wire (by decide) (by decide), List.findSome?_cons_of_isNone (by decide),
        List.findSome?_cons_of_isNone (by decide), List.findSome?_singleton, behind, rename_item]
      rfl

section Rows

theorem trim_start_front (lead row : String) (c : Char) (blank : Text.isAllBlank lead = true)
    (first : row.toList.head? = some c) (shown : Text.isBlank c = false) : trimStart (lead ++ row) = row := by
  obtain ⟨cs, spelled⟩ := List.head?_eq_some_iff.mp first
  have blanks : ∀ c ∈ lead.toList, Text.isBlank c = true := by simpa [Text.isAllBlank] using blank
  rw [trimStart, Text.dropBlanks, String.toList_append, List.dropWhile_append_of_pos blanks, spelled,
    List.dropWhile_cons_of_neg (by simp [shown]), ← spelled, String.ofList_toList]

variable (level : Nat)

theorem indentation_blank : Text.isAllBlank (Pen.indentation indent level) = true :=
  (margin_indentation indent indent_margin level).blank

theorem row_read (row : String) (c : Char) (whole : Row row) (first : row.toList.head? = some c)
    (shown : Text.isBlank c = false) : (Piece.rows indent (level, row)).map trimStart = [row] := by
  rw [piece_row indent level row whole, List.map_singleton,
    trim_start_front _ row c (indentation_blank level) first shown]

theorem front_read (front text : String) (c : Char) (whole : Row front) (first : front.toList.head? = some c)
    (shown : Text.isBlank c = false) :
    ∃ tail rest, (Piece.rows indent (level, front ++ text)).map trimStart = (front ++ tail) :: rest := by
  obtain ⟨tail, rest, rows⟩ := inked_front front text whole
  have head : (front ++ tail).toList.head? = some c := by simp [first]
  refine ⟨tail, (rest.map (Pen.indentation indent level ++ ·)).map trimStart, ?_⟩
  rw [Piece.rows, rows, List.map_cons, List.map_cons,
    trim_start_front _ _ c (indentation_blank level) head shown]

end Rows

theorem wire_attribute (renamed : Option (List Char)) (body : String) (rest : List String) :
    wireFrom? renamed (("#[facet(" ++ body ++ ")]") :: rest) =
      wireFrom? ((renaming? body.toList).or renamed) rest := by
  have read : enclosed? "#[facet(".toList ")]".toList ("#[facet(" ++ body ++ ")]").toList = some body.toList := by
    rw [String.toList_append, String.toList_append]
    exact enclosed_between _ _ body.toList
  simp only [wireFrom?, read]

theorem wire_declared (renamed : Option (List Char)) (name tail : String) (rest : List String)
    (free : ':' ∉ name.toList) :
    wireFrom? renamed (("pub " ++ name ++ ":" ++ tail) :: rest) = wireOf? renamed name.toList := by
  have spelled : ("pub " ++ name ++ ":" ++ tail).toList =
      "pub ".toList ++ (name.toList ++ ':' :: tail.toList) := by simp
  have other : enclosed? "#[facet(".toList ")]".toList ("pub " ++ name ++ ":" ++ tail).toList = none := by
    rw [spelled]
    rfl
  have declared : declaredField? ("pub " ++ name ++ ":" ++ tail).toList = some name.toList := by
    rw [declaredField?, spelled, List.isPrefixOf?_eq_some_iff_append_eq.mpr rfl, Option.map_some,
      List.takeWhile_append_of_pos fun c member => by simpa using ne_of_mem_of_not_mem member free]
    simp
  simp only [wireFrom?, other, declared, Option.bind_some]

namespace Field

theorem wire_renamed (f : Field) :
    wireOf? (f.renamed?.map fun wire => (Text.quote wire).toList) f.name.toList = some f.wire := by
  rw [renamed?]
  split
  · rename_i own
    rw [own]
    exact if_neg (own_identifier_plain f.wire own) |>.trans (by rw [String.ofList_toList])
  · change value? (String.ofList (Text.quote f.wire).toList) = some f.wire
    rw [String.ofList_toList, quote_value]

theorem attributes_line (f : Field) : OneLine (Text.joinWith ", " f.attributes) := by
  have each : ∀ part ∈ f.attributes, OneLine part := by
    intro part member
    rcases List.mem_append.mp member with optional | renamed
    · have fixed : ∀ text ∈ ["default", "skip_serializing_if = Option::is_none"], OneLine text := by decide
      split at optional
      · exact fixed part optional
      · cases optional
    · obtain ⟨wire, _, rfl⟩ := List.mem_map.mp renamed
      exact (one_line_append _ _).mpr ⟨by decide, quote_line wire⟩
  intro feed
  rw [Text.joinWith, String.toList_ofList] at feed
  rcases Text.intercalate_subset _ _ '\n' feed with separator | ⟨text, among, stands⟩
  · revert separator
    decide
  · obtain ⟨part, member, rfl⟩ := List.mem_map.mp among
    exact each part member stands

section Rows

variable (renamed : Option (List Char)) (level : Nat)

-- The name read from the rows that are written for code, given what a `rename` before it is set to.
def readFrom (code : List Code) : Option String :=
  wireFrom? renamed ((rowsOf indent (Code.piecesAll level code)).map trimStart)

theorem attribute_read (body : String) (rest : List Code) (line : OneLine body) :
    readFrom renamed level (.line ("#[facet(" ++ body ++ ")]") :: rest) =
      readFrom ((renaming? body.toList).or renamed) level rest := by
  have whole : Row ("#[facet(" ++ body ++ ")]") :=
    row_append _ ")]" ((one_line_append _ _).mpr ⟨by decide, line⟩) (by decide)
  have row := row_read level _ '#' whole (by simp) (by decide)
  have pieces : Code.piecesAll level (.line ("#[facet(" ++ body ++ ")]") :: rest) =
      (level, "#[facet(" ++ body ++ ")]") :: Code.piecesAll level rest := rfl
  rw [readFrom, pieces, rows_of_cons, List.map_append, row]
  exact wire_attribute renamed body _

theorem declaration_read (runtime : String) (f : Field) :
    readFrom renamed level [.line ("pub " ++ f.name ++ ": " ++ f.typeText runtime ++ ",")] =
      wireOf? renamed f.name.toList := by
  have front : Row ("pub " ++ f.name ++ ":") :=
    row_append _ ":" ((one_line_append _ _).mpr ⟨by decide, identifier_line f.wire⟩) (by decide)
  obtain ⟨tail, rest, rows⟩ := front_read level _ (" " ++ f.typeText runtime ++ ",") 'p' front
    (by simp) (by decide)
  have spelled : "pub " ++ f.name ++ ": " ++ f.typeText runtime ++ "," =
      "pub " ++ f.name ++ ":" ++ (" " ++ f.typeText runtime ++ ",") :=
    String.toList_injective (by simp)
  have pieces : ∀ text, Code.piecesAll level [.line text] = [(level, text)] := fun _ => rfl
  rw [readFrom, spelled, pieces, rowsOf, List.flatMap_singleton, rows]
  exact wire_declared renamed f.name tail rest (identifier_colon f.wire)

end Rows

-- A `rename` can only stand in the attributes before the mark of a recursive field.
theorem wire_read (runtime : String) (level : Nat) (f : Field) :
    wire? (Code.textAt indent level (f.memberCode runtime)) = some f.wire := by
  have marked : ∀ renamed, readFrom renamed level
      ((if f.recursive then [.line "#[facet(recursive_type)]"] else []) ++
        [.line ("pub " ++ f.name ++ ": " ++ f.typeText runtime ++ ",")]) = wireOf? renamed f.name.toList := by
    intro renamed
    split
    · have mark := attribute_read renamed level "recursive_type"
        [.line ("pub " ++ f.name ++ ": " ++ f.typeText runtime ++ ",")] (by decide)
      exact mark.trans (declaration_read renamed level runtime f)
    · exact declaration_read renamed level runtime f
  have own := wire_renamed f
  rw [← renaming_read] at own
  rw [wire?, Code.inked_text_at indent indent_margin]
  change readFrom none level (f.memberCode runtime) = _
  rw [memberCode, List.append_assoc]
  split
  · rename_i nothing
    rw [List.isEmpty_iff.mp nothing] at own
    exact (marked none).trans own
  · rw [List.singleton_append, attribute_read none level _ _ (attributes_line f), Option.or_none, marked, own]

end Field

-- Names of a schema become legal names of the crate. Whatever the name of a property, it is kept on the wire by
-- what is written for the field behind its doc comment.
theorem schema_names_kept :
    (∀ name, SchemaName name →
      LegalIdentifier (identifier name) ∧ LegalTypeName (typeName name) ∧ typeName name ≠ "Self") ∧
    ∀ (index : TypeIndex) (domain runtime : String) (level : Nat) (owner : Option String) (p : Property),
      Code.textAt indent level ((Field.ofProperty index domain owner p).code runtime) =
        Code.textAt indent level (Comment.slash (Field.ofProperty index domain owner p).doc) ++
          Code.textAt indent level ((Field.ofProperty index domain owner p).memberCode runtime) ∧
      wire? (Code.textAt indent level ((Field.ofProperty index domain owner p).memberCode runtime)) =
        some p.name := by
  refine ⟨fun name schema => ?_, fun index domain runtime level owner p => ⟨?_, ?_⟩⟩
  · have type := type_name_legal name schema
    refine ⟨identifier_legal schema, type, fun capital => type.free ?_⟩
    rw [capital]
    decide
  · rw [Field.code_parts, Code.text_at_append indent indent_margin]
  · exact Field.wire_read runtime level (Field.ofProperty index domain owner p)

theorem keyword_name_kept :
    LegalIdentifier "r#type" ∧ LegalTypeName "Type" ∧
    wire? "    #[facet(rename = \"type\")]\n    pub r#type: String,\n" = some "type" := by
  obtain ⟨names, fields⟩ := schema_names_kept
  have plain : identifier "type" = "r#type" ∧ typeName "type" = "Type" := by decide
  obtain ⟨identifier, type, _⟩ := names "type" ⟨by decide, by simp⟩
  obtain ⟨_, wire⟩ := fields ⟨[], []⟩ "D" "runtime" 1 none
    ⟨"type", none, some "string", none, none, none, none, none, none⟩
  have text : Code.textAt indent 1 ((Field.ofProperty ⟨[], []⟩ "D" none
      ⟨"type", none, some "string", none, none, none, none, none, none⟩).memberCode "runtime") =
      "    #[facet(rename = \"type\")]\n    pub r#type: String,\n" := by decide
  exact ⟨plain.1 ▸ identifier, plain.2 ▸ type, text ▸ wire⟩

end ProtocolStubs.Crate
