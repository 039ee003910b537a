import ProtocolStubs.Proofs.Crate.Mentions
import ProtocolStubs.Proofs.Crate.TypeText

set_option autoImplicit false

namespace ProtocolStubs.Crate

open Layout
open Text (OneLine)

def Client.mentions (c : Client) : PayloadKind → List String
  | .params => c.methods.filterMap fun m => m.argument.map Argument.type
  | .results => c.methods.filterMap Method.result
  | .events => c.subscriptions.filterMap Subscription.payload

-- Both methods that subscribe to an event name its payload.
def uses : PayloadKind → Nat
  | .params => 1
  | .results => 1
  | .events => 2

theorem argument_given (c : Command) : (Argument.ofCommand c).map Argument.type =
    if c.hasParams then some (payloadName .params c.name) else none := by
  rw [Argument.ofCommand, Command.argumentForm]
  cases c.hasParams with
  | false => rfl
  | true => cases c.hasMandatoryParams <;> rfl

theorem result_given (c : Command) : (Method.ofCommand c).result =
    if c.hasResults then some (payloadName .results c.name) else none := rfl

theorem payload_given (once : Bool) (e : Event) : (Subscription.ofEvent once e).payload =
    if e.isSignal then none else some (payloadName .events e.name) := rfl

theorem subscriptions_mention (events : List Event) :
    (events.flatMap fun e => [.ofEvent false e, .ofEvent true e]).filterMap Subscription.payload =
      ((events.filter fun e => !e.isSignal).map fun e => (e.name, e.params)).flatMap fun entry =>
        List.replicate 2 (payloadName .events entry.1) := by
  induction events with
  | nil => rfl
  | cons e rest ih =>
    rw [List.flatMap_cons, List.filterMap_append, ih, List.filter_cons]
    cases signal : e.isSignal <;> simp [payload_given, signal, List.replicate]

theorem mentions_needed (d : Domain) (kind : PayloadKind) : (Client.ofDomain d).mentions kind =
    (kind.needed d).flatMap fun entry => List.replicate (uses kind) (payloadName kind entry.1) := by
  cases kind with
  | params =>
    rw [PayloadKind.needed, List.flatMap_map]
    exact (filter_map_given d.commands Method.ofCommand _ _ _ argument_given).trans List.map_eq_flatMap
  | results =>
    rw [PayloadKind.needed, List.flatMap_map]
    exact (filter_map_given d.commands Method.ofCommand _ _ _ result_given).trans List.map_eq_flatMap
  | events => exact subscriptions_mention d.eventList

def spaceHeader (kind : PayloadKind) : String := "pub mod " ++ space kind

theorem records_given (index : TypeIndex) (d : Domain) (kind : PayloadKind) :
    (DataModules.ofDomain index d).records kind = [] ↔ kind.needed d = [] := by
  rw [DataModules.records_needed, List.map_eq_nil_iff]

section Record

variable (index : TypeIndex) (runtime domain : String) (kind : PayloadKind)
  (entry : String × List Property)

def plainType : Primitive → String
  | .object => runtime ++ "::Value"
  | .array => "Vec<" ++ (runtime ++ "::Value") ++ ">"
  | .string => "String"
  | .number => "f64"
  | .boolean => "bool"
  | .any => runtime ++ "::Value"

def shapeType : Shape → String
  | .reference raw =>
    if (TypeRef.parse raw domain).qualifiedName ∈ index.records then
      "Box<" ++ TypeExpr.pathText domain (TypeRef.parse raw domain) ++ ">"
    else TypeExpr.pathText domain (TypeRef.parse raw domain)
  | .arrayOfReference raw => "Vec<" ++ TypeExpr.pathText domain (TypeRef.parse raw domain) ++ ">"
  | .arrayOf item => "Vec<" ++ plainType runtime item ++ ">"
  | .enumeration _ => "String"
  | .primitive p => plainType runtime p
  | .unknown => runtime ++ "::Value"

-- What is said of a property, but for its flag that it may be left out, and the values allowed for it.
def fieldDoc (p : Property) : List String :=
  Notes.lines Comment.slashTag ⟨p.description, p.experimental, p.deprecated, none⟩ ++
    match p.definition.shape with
    | .enumeration values =>
      ["Allowed values: " ++ Text.joinWith ", " (values.map fun value => "`" ++ value ++ "`") ++ "."]
    | _ => []

def fieldAttribute (p : Property) : List String :=
  match p.isOptional, decide (identifier p.name = p.name) with
  | false, true => []
  | true, true => ["#[facet(default, skip_serializing_if = Option::is_none)]"]
  | false, false => ["#[facet(rename = " ++ Text.quote p.name ++ ")]"]
  | true, false => ["#[facet(default, skip_serializing_if = Option::is_none, rename = " ++
    Text.quote p.name ++ ")]"]

-- A field: its comment, its attribute if it needs one, and then its identifier with its type.
def fieldRows (p : Property) : List String :=
  rowsOf indent (Code.piecesAll 2 (Comment.slash (fieldDoc p))) ++
    rowsOf indent ((fieldAttribute p).map fun text => (2, text)) ++
    rowsOf indent [(2, "pub " ++ identifier p.name ++ ": " ++
      (if p.isOptional then "Option<" ++ shapeType index runtime domain p.definition.shape ++ ">"
        else shapeType index runtime domain p.definition.shape) ++ ",")]

theorem plain_type (p : Primitive) : (TypeExpr.ofPrimitive p).text runtime = plainType runtime p := by
  cases p <;> rfl

theorem shape_type (definition : Definition) : (TypeExpr.ofField index domain definition).text runtime =
    shapeType index runtime domain definition.shape := by
  have refers := TypeExpr.reference_text domain runtime
  rw [TypeExpr.ofField]
  cases definition.shape with
  | reference raw =>
    by_cases record : (TypeRef.parse raw domain).qualifiedName ∈ index.records
    · simp [shapeType, TypeIndex.isRecord, record, TypeExpr.text, refers]
    · simp [shapeType, TypeIndex.isRecord, record, refers]
  | arrayOf item => exact congrArg ("Vec<" ++ · ++ ">") (plain_type runtime item)
  | arrayOfReference raw => exact congrArg ("Vec<" ++ · ++ ">") (refers _)
  | enumeration values => rfl
  | primitive p => exact plain_type runtime p
  | unknown => rfl

theorem attribute_texts (p : Property) : (Field.ofProperty index domain none p).attributes =
    (if p.isOptional then ["default", "skip_serializing_if = Option::is_none"] else []) ++
      if identifier p.name = p.name then [] else ["rename = " ++ Text.quote p.name] := by
  have optional : (Field.ofProperty index domain none p).optional = p.isOptional := rfl
  have renamed : (Field.ofProperty index domain none p).renamed? =
      if identifier p.name = p.name then none else some p.name := rfl
  rw [Field.attributes, optional, renamed]
  by_cases same : identifier p.name = p.name <;> simp [same]

theorem field_attribute (p : Property) :
    (if (Field.ofProperty index domain none p).attributes.isEmpty then []
      else [Code.line ("#[facet(" ++ Text.joinWith ", " (Field.ofProperty index domain none p).attributes ++
        ")]")]) = (fieldAttribute p).map Code.line := by
  rw [attribute_texts, fieldAttribute]
  by_cases same : identifier p.name = p.name <;> cases p.isOptional
  · simp [same]
  · rw [if_pos same, decide_eq_true same]
    rfl
  · simp only [if_neg same, decide_eq_false same]
    exact congrArg (fun text => [Code.line text]) (String.toList_injective (by simp [Text.joinWith]))
  · simp only [if_neg same, decide_eq_false same]
    exact congrArg (fun text => [Code.line text]) (String.toList_injective (by simp [Text.joinWith]))

theorem field_rows (p : Property) : rowsOf indent (Code.piecesAll 2
    ((Field.ofProperty index domain none p).code runtime)) = fieldRows index runtime domain p := by
  have doc : (Field.ofProperty index domain none p).doc = fieldDoc p := rfl
  have attributes : Code.piecesAll 2 ((fieldAttribute p).map Code.line) =
      (fieldAttribute p).map fun text => ((2, text) : Piece) := Code.pieces_all_lines 2 _ id
  have type : (Field.ofProperty index domain none p).typeText runtime =
      if p.isOptional then "Option<" ++ shapeType index runtime domain p.definition.shape ++ ">"
        else shapeType index runtime domain p.definition.shape := by
    rw [← shape_type]
    rfl
  have unmarked : (Field.ofProperty index domain none p).recursive = false := rfl
  rw [Field.code, field_attribute, doc, type, unmarked, fieldRows]
  have plain : rowsOf indent (Code.piecesAll 2
      (if false = true then [Code.line "#[facet(recursive_type)]"] else [])) = [] := rfl
  simp only [Code.pieces_all_append, rows_of_append, attributes, plain, List.append_nil]
  rfl

def recordRows : List String :=
  rowsOf indent (Code.piecesAll 1 (Comment.slash (kind.doc domain entry.1))) ++
    (Pen.indentation indent 1 ++ "#[derive(Debug, Facet)]") ::
    (Pen.indentation indent 1 ++ ("pub struct " ++ typeName entry.1 ++ " \x7b")) ::
    entry.2.flatMap (fieldRows index runtime domain) ++ [Pen.indentation indent 1 ++ "\x7d"]

theorem record_rows (line : OneLine entry.1) : rowsOf indent (Code.piecesAll 1
    ((Record.ofProperties index domain none entry.1 (kind.doc domain entry.1) entry.2).code runtime)) =
      recordRows index runtime domain kind entry := by
  have opener := piece_row indent 1 ("pub struct " ++ typeName entry.1 ++ " \x7b")
    (row_append _ _ ((one_line_append _ _).mpr ⟨by decide, type_name_line entry.1 line⟩) (by decide))
  have derived := piece_row indent 1 "#[derive(Debug, Facet)]" (by decide)
  have closer := piece_row indent 1 "\x7d" (by decide)
  have fields : rowsOf indent (Code.piecesAll 2
      ((entry.2.map (Field.ofProperty index domain none)).flatMap (Field.code runtime))) =
        entry.2.flatMap (fieldRows index runtime domain) := by
    rw [Code.pieces_all_flat_map, rows_flat_map, List.flatMap_map]
    exact List.flatMap_congr fun p _ => field_rows index runtime domain p
  unfold recordRows
  rw [Record.code, Code.pieces_all_append, Code.piecesAll, Code.pieces, Code.block, Code.pieces_between,
    rows_of_append, List.singleton_append, rows_of_cons, rows_of_append, rows_of_cons, rows_of_cons]
  rw [Record.ofProperties, opener, derived, closer, fields]
  simp [rowsOf]

end Record

section Spaces

theorem space_header_line (kind : PayloadKind) : OneLine (spaceHeader kind) := by cases kind <;> decide

theorem space_header_other (kind other : PayloadKind) (same : spaceHeader kind = spaceHeader other) :
    kind = other := by
  cases kind <;> cases other <;> first | rfl | exact absurd same (by decide)

variable (runtime : String) (m : DataModules) (kind : PayloadKind)

theorem commented_line (doc header text : String) (body : List Code)
    (member : .line text ∈ .line ("/// " ++ doc) :: Code.block header body ++ [.blank]) :
    text.toList.head? = some '/' ∨ text = header ++ " \x7b" ∨ text = "\x7d" := by
  rw [List.mem_append, List.mem_cons] at member
  rcases member with (comment | block) | blank
  · cases comment
    exact .inl (by simp)
  · exact .inr (Code.block_line _ text _ block)
  · cases List.mem_singleton.mp blank

theorem kind_line (text : String) (member : .line text ∈ m.kindCode runtime kind) : m.records kind ≠ [] ∧
    (text.toList.head? = some '/' ∨ text = spaceHeader kind ++ " \x7b" ∨ text = "\x7d") := by
  rw [DataModules.kindCode] at member
  split at member
  · cases member
  · rename_i given
    exact ⟨fun unneeded => given (List.isEmpty_iff.mpr unneeded), commented_line _ _ text _ member⟩

theorem header_line : (spaceHeader kind ++ " \x7b").toList.head? ≠ some '/' ∧
    spaceHeader kind ++ " \x7b" ≠ "\x7d" ∧ spaceHeader kind ≠ "pub mod types" := by
  cases kind <;> decide

theorem space_line (member : .line (spaceHeader kind ++ " \x7b") ∈ m.code runtime) :
    m.records kind ≠ [] := by
  obtain ⟨code, open_, other⟩ := header_line kind
  have own : ∀ given, .line (spaceHeader kind ++ " \x7b") ∈ m.kindCode runtime given →
      m.records kind ≠ [] := by
    intro given inside
    obtain ⟨records, comment | same | closer⟩ := kind_line runtime m given _ inside
    · exact absurd comment code
    · rwa [space_header_other kind given ((String.append_left_inj _).mp same)]
    · exact absurd closer open_
  rw [DataModules.code_kinds] at member
  simp only [List.mem_append] at member
  rcases member with ((types | params) | results) | events
  · have doc : "/// Types defined by the `" ++ m.domain ++ "` domain." =
        "/// " ++ ("Types defined by the `" ++ m.domain ++ "` domain.") :=
      String.toList_injective (by simp)
    rw [DataModules.typesModule, doc] at types
    rcases commented_line _ _ _ _ types with comment | same | closer
    · exact absurd comment code
    · exact absurd ((String.append_left_inj _).mp same) other
    · exact absurd closer open_
  · exact own _ params
  · exact own _ results
  · exact own _ events

theorem space_present (index : TypeIndex) (d : Domain) : (0, spaceHeader kind ++ " \x7b") ∈
    Code.piecesAll 0 ((DataModules.ofDomain index d).code runtime) ↔ kind.needed d ≠ [] := by
  rw [Ne, ← records_given index d kind]
  constructor
  · exact fun member => space_line runtime _ kind (Code.top_line 0 _ _ member)
  · intro given
    apply Code.line_piece
    apply ((DataModules.ofDomain index d).kind_block runtime kind given).subset
    exact List.mem_cons_self

end Spaces

def preludeRows : List String :=
  [Pen.indentation indent 1 ++ "use super::*;", Pen.indentation indent 1 ++ "use facet::Facet;"]

-- The payloads of one kind in the file of a domain: its client names each payload that is needed, and
-- nothing else, by the name under which its data modules have the record.
structure Agrees (index : TypeIndex) (runtime : String) (d : Domain) (kind : PayloadKind) (client : Client)
    (data : DataModules) (rows : List String) : Prop where
  mentions : client.mentions kind =
    (kind.needed d).flatMap fun entry => List.replicate (uses kind) (payloadName kind entry.1)
  written : ∀ name ∈ client.mentions kind, ∃ row ∈ rowsOf indent (client.pieces runtime), Shows row name
  bounded : ∀ piece ∈ client.pieces runtime, Proper runtime d kind piece.2
  clientInFile : rowsOf indent (client.pieces runtime) <:+: rows
  present : (0, spaceHeader kind ++ " \x7b") ∈ Code.piecesAll 0 (data.code runtime) ↔ kind.needed d ≠ []
  inFile : rowsOf indent (Code.piecesAll 0 (data.code runtime)) <:+: rows
  defined : kind.needed d ≠ [] → Encloses indent 0 (spaceHeader kind)
    (preludeRows ++ (kind.needed d).flatMap (recordRows index runtime d.name kind)) rows

theorem argument_shows (c : Command) (given : c.hasParams = true) :
    Shows (argumentText c.name c.argumentForm) (payloadName .params c.name) := by
  rw [Command.argumentForm, given]
  cases c.hasMandatoryParams with
  | false => exact shows_before _ _ _ (shows_behind _ _ _ (shows_self _))
  | true => exact shows_behind _ _ _ (shows_self _)

section Files

variable (d : Domain) (known : List String) (index : TypeIndex) (options : Options) (kind : PayloadKind)
  (lines : ∀ name ∈ d.names, OneLine name)

include lines

theorem mention_written (entry : String × List Property) (need : entry ∈ kind.needed d) :
    ∃ row ∈ rowsOf indent ((Client.ofDomain d).pieces options.runtimeCrate),
      Shows row (payloadName kind entry.1) := by
  cases kind with
  | params =>
    obtain ⟨c, command, rfl⟩ := List.mem_map.mp need
    obtain ⟨member, given⟩ := List.mem_filter.mp command
    obtain ⟨tail, row⟩ := stands_row _ _ _ (method_stands options.runtimeCrate d c member
      (lines _ (d.command_name c member)))
    refine ⟨_, row, shows_behind _ _ _ ?_⟩
    iterate 4 apply shows_before
    exact shows_behind _ _ _ (argument_shows c given)
  | results =>
    obtain ⟨c, command, rfl⟩ := List.mem_map.mp need
    obtain ⟨member, given⟩ := List.mem_filter.mp command
    obtain ⟨tail, row⟩ := stands_row _ _ _ (method_stands options.runtimeCrate d c member
      (lines _ (d.command_name c member)))
    refine ⟨_, row, shows_behind _ _ _ ?_⟩
    iterate 2 apply shows_before
    rw [given]
    exact shows_behind _ _ _ (shows_self _)
  | events =>
    obtain ⟨e, event, rfl⟩ := List.mem_map.mp need
    obtain ⟨member, given⟩ := List.mem_filter.mp event
    obtain ⟨tail, row⟩ := stands_row _ _ _ (subscription_stands options.runtimeCrate d e false member
      (lines _ (d.event_name e member)))
    refine ⟨_, row, shows_behind _ _ _ ?_⟩
    iterate 2 apply shows_before
    rw [if_pos given]
    exact shows_behind _ _ _ (shows_self _)

theorem space_rows (given : kind.needed d ≠ []) : Encloses indent 0 (spaceHeader kind)
    (preludeRows ++ (kind.needed d).flatMap (recordRows index options.runtimeCrate d.name kind))
    (rowsOf indent (domainPieces d known index options)) := by
  have start : rowsOf indent (Code.piecesAll 1 DataModules.prelude) = preludeRows :=
    rows_each indent [(1, "use super::*;"), (1, "use facet::Facet;")] (by decide)
  have closed : ∀ r : Record, Code.piecesAll 1 (r.code options.runtimeCrate ++ [.blank]) =
      Code.piecesAll 1 (r.code options.runtimeCrate) :=
    fun r => (Code.pieces_all_append 1 _ _).trans (List.append_nil _)
  have records : rowsOf indent (Code.piecesAll 1 (((DataModules.ofDomain index d).records kind).flatMap
      fun r => r.code options.runtimeCrate ++ [.blank])) =
        (kind.needed d).flatMap (recordRows index options.runtimeCrate d.name kind) := by
    rw [DataModules.records_needed, List.flatMap_map, Code.pieces_all_flat_map, rows_flat_map]
    refine List.flatMap_congr fun entry need => ?_
    rw [closed, record_rows index _ d.name kind entry (lines _ (kind.needed_name d entry need))]
  have encloses := module_encloses d known index options _ _ (space_header_line kind)
    ((DataModules.ofDomain index d).kind_block options.runtimeCrate kind
      (mt (records_given index d kind).mp given))
  rwa [DataModules.recordsBody, Code.pieces_all_append, rows_of_append, start, records] at encloses

theorem file_agrees : Agrees index options.runtimeCrate d kind (Client.ofDomain d)
    (DataModules.ofDomain index d) (rowsOf indent (domainPieces d known index options)) := by
  have mentions := mentions_needed d kind
  refine ⟨mentions, ?_, client_proper, rows_part indent _ _ (client_part d known index options),
    space_present options.runtimeCrate kind index d, rows_part indent _ _ (data_part d known index options),
    space_rows d known index options kind lines⟩
  intro name member
  rw [mentions] at member
  obtain ⟨entry, need, copies⟩ := List.mem_flatMap.mp member
  obtain ⟨_, rfl⟩ := List.mem_replicate.mp copies
  exact mention_written d options kind lines entry need

end Files

end ProtocolStubs.Crate
