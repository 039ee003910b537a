import ProtocolStubs.Proofs.Script.Mentions

set_option autoImplicit false

namespace ProtocolStubs.Script

open Layout
open Text (OneLine)

def Client.mentions (c : Client) : PayloadKind → List String
  | .params => c.methods.filterMap fun m => m.argument.map Argument.type
  | .results => c.methods.filterMap Method.result
  | .events => c.overloads.filterMap Overload.payload

theorem argument_given (domain : String) (c : Command) :
    (Argument.ofCommand domain c).map Argument.type =
      if c.hasParams then some (payloadName domain .params c.name) else none := by
  have spelled : domain ++ ".Params." ++ c.name = payloadName domain .params c.name :=
    String.toList_injective (by simp [payloadName, space])
  rw [Argument.ofCommand, Command.argumentForm, ← spelled]
  cases c.hasParams with
  | false => rfl
  | true => cases c.hasMandatoryParams <;> rfl

theorem result_given (domain : String) (c : Command) : (Method.ofCommand domain c).result =
    if c.hasResults then some (payloadName domain .results c.name) else none := by
  have spelled : domain ++ ".Result." ++ c.name = payloadName domain .results c.name :=
    String.toList_injective (by simp [payloadName, space])
  rw [← spelled]
  rfl

theorem payload_given (domain : String) (e : Event) : (Overload.ofEvent domain e).payload =
    if !e.isSignal then some (payloadName domain .events e.name) else none := by
  have spelled : domain ++ ".EventParams." ++ e.name = payloadName domain .events e.name :=
    String.toList_injective (by simp [payloadName, space])
  rw [← spelled, Overload.ofEvent]
  cases e.isSignal <;> rfl

theorem mentions_needed (transport : String) (d : Domain) (kind : PayloadKind) :
    (Client.ofDomain transport d).mentions kind =
      (kind.needed d).map fun entry => payloadName d.name kind entry.1 := by
  cases kind <;> rw [PayloadKind.needed, List.map_map]
  · exact filter_map_given _ _ _ _ _ fun c => argument_given d.name c
  · exact filter_map_given _ _ _ _ _ fun c => result_given d.name c
  · exact filter_map_given _ _ _ _ _ fun e => payload_given d.name e

def spaceHeader (kind : PayloadKind) : String := "export namespace " ++ space kind

theorem records_given (d : Domain) (kind : PayloadKind) :
    (DataSection.ofDomain d).records kind = [] ↔ kind.needed d = [] := by
  rw [DataSection.records_needed, List.map_eq_nil_iff]

section Record

variable (domain : String) (kind : PayloadKind) (entry : String × List Property)

def plainType : Primitive → String
  | .object => "object"
  | .array => "any[]"
  | .string => "string"
  | .number => "number"
  | .boolean => "boolean"
  | .any => "any"

def shapeType : Shape → String
  | .reference raw => (TypeRef.parse raw domain).qualifiedName
  | .arrayOfReference raw => (TypeRef.parse raw domain).qualifiedName ++ "[]"
  | .arrayOf item => plainType item ++ "[]"
  | .enumeration [] => "never"
  | .enumeration (value :: values) => Text.joinWith " | " ((value :: values).map literal)
  | .primitive p => plainType p
  | .unknown => "unknown"

-- A field: what is said of the property, then its name, whether it may be left out, and its type.
def fieldRows (p : Property) : List String :=
  rowsOf indent (Code.piecesAll 3 (Comment.star (p.notes.lines Comment.starTag))) ++
    rowsOf indent [(3, p.name ++ (if p.isOptional then "?: " else ": ") ++
      shapeType domain p.definition.shape ++ ";")]

theorem shape_type (shape : Shape) : (TypeExpr.ofShape domain shape).text = shapeType domain shape := by
  have plain : ∀ p, builtinText p = plainType p := by
    intro p
    cases p <;> rfl
  cases shape with
  | reference raw => rfl
  | arrayOf item => exact congrArg (· ++ "[]") (plain item)
  | arrayOfReference raw => rfl
  | enumeration values => cases values <;> rfl
  | primitive p => exact plain p
  | unknown => rfl

theorem field_rows (p : Property) :
    rowsOf indent (Code.piecesAll 3 (Field.ofProperty domain p).code) = fieldRows domain p := by
  have spelled : p.name ++ (if p.isOptional then "?" else "") ++ ": " ++
      (TypeExpr.ofDefinition domain p.definition).text ++ ";" =
        p.name ++ (if p.isOptional then "?: " else ": ") ++ shapeType domain p.definition.shape ++ ";" := by
    rw [TypeExpr.ofDefinition, shape_type]
    cases p.isOptional <;> exact String.toList_injective (by simp)
  rw [Field.code, Code.pieces_all_append, rows_of_append, fieldRows, ← spelled]
  rfl

def recordRows : List String :=
  rowsOf indent (Code.piecesAll 2 (Comment.star (kind.doc domain entry.1))) ++
    (Pen.indentation indent 2 ++ ("export interface " ++ entry.1 ++ " \x7b")) ::
    entry.2.flatMap (fieldRows domain) ++ [Pen.indentation indent 2 ++ "\x7d"]

theorem record_rows (line : OneLine entry.1) : rowsOf indent (Code.piecesAll 2
    (Record.ofProperties domain entry.1 (kind.doc domain entry.1) entry.2).code) =
      recordRows domain kind entry := by
  have opener := piece_row indent 2 ("export interface " ++ entry.1 ++ " \x7b")
    (row_append _ _ ((one_line_append _ _).mpr ⟨by decide, line⟩) (by decide))
  have closer := piece_row indent 2 "\x7d" (by decide)
  have fields : rowsOf indent (Code.piecesAll 3
      ((entry.2.map (Field.ofProperty domain)).flatMap Field.code)) =
        entry.2.flatMap (fieldRows domain) := by
    rw [Code.pieces_all_flat_map, rows_flat_map, List.flatMap_map]
    exact List.flatMap_congr fun p _ => field_rows domain p
  unfold recordRows
  rw [Record.code, Code.pieces_all_append, Code.block, Code.pieces_between, rows_of_append, rows_of_append,
    rows_of_cons, rows_of_cons]
  rw [Record.ofProperties, opener, closer, fields]
  simp [rowsOf]

end Record

section Spaces

theorem space_header_line (kind : PayloadKind) : OneLine (spaceHeader kind) := by cases kind <;> decide

theorem space_header_other (kind other : PayloadKind) (same : spaceHeader kind = spaceHeader other) :
    kind = other := by
  cases kind <;> cases other <;> first | rfl | exact absurd same (by decide)

theorem kind_line (s : DataSection) (kind : PayloadKind) (text : String)
    (member : (1, text) ∈ s.kindPieces kind) :
    s.records kind ≠ [] ∧ (text = spaceHeader kind ++ " \x7b" ∨ text = "\x7d") := by
  rw [DataSection.kindPieces] at member
  split at member
  · cases member
  · rename_i given
    exact ⟨fun none_ => given (List.isEmpty_iff.mpr none_),
      Code.block_line _ text _ (Code.top_line 1 text _ member)⟩

theorem type_line (t : NamedType) (text : String) (member : .line text ∈ t.code) :
    ¬(text.toList.head? = some 'e' ∧ text.toList[7]? = some 'n') := by
  cases t with
  | record r =>
    rcases List.mem_append.mp member with doc | block
    · simp [Comment.star_line _ _ doc]
    · rcases Code.block_line _ text _ block with rfl | rfl <;> simp
  | «alias» doc name type =>
    rcases List.mem_append.mp member with doc | own
    · simp [Comment.star_line _ _ doc]
    · cases List.mem_singleton.mp own
      simp

theorem header_line (kind : PayloadKind) : (spaceHeader kind ++ " \x7b").toList.head? = some 'e' ∧
    (spaceHeader kind ++ " \x7b").toList[7]? = some 'n' := by
  cases kind <;> decide

theorem space_line (s : DataSection) (kind : PayloadKind)
    (member : (1, spaceHeader kind ++ " \x7b") ∈ Code.piecesAll 1 s.body) : s.records kind ≠ [] := by
  have own : ∀ other, (1, spaceHeader kind ++ " \x7b") ∈ s.kindPieces other → s.records kind ≠ [] := by
    intro other inside
    obtain ⟨given, same | same⟩ := kind_line s other _ inside
    · rw [space_header_other kind other (String.append_left_inj _ |>.mp same)]
      exact given
    · exact absurd same (by cases kind <;> decide)
  rw [DataSection.body_pieces] at member
  simp only [List.mem_append] at member
  rcases member with ((types | params) | results) | events
  · obtain ⟨t, _, stands⟩ := List.mem_flatMap.mp (Code.top_line 1 _ _ types)
    have line : .line (spaceHeader kind ++ " \x7b") ∈ t.code := by simpa using stands
    exact absurd (header_line kind) (type_line t _ line)
  · exact own _ params
  · exact own _ results
  · exact own _ events

theorem section_inside (s : DataSection) (text : String) (member : (1, text) ∈ Code.piecesAll 0 s.code) :
    (1, text) ∈ Code.piecesAll 1 s.body := by
  rw [DataSection.code, Code.pieces_all_append, List.mem_append] at member
  rcases member with doc | block
  · cases Comment.star_depth 0 _ _ doc
  · rw [Code.block, Code.pieces_between, List.mem_append, List.mem_cons, List.mem_singleton] at block
    rcases block with (opener | body) | closer
    · cases congrArg Prod.fst opener
    · exact body
    · cases congrArg Prod.fst closer

theorem space_present (d : Domain) (kind : PayloadKind) : (1, spaceHeader kind ++ " \x7b") ∈
    Code.piecesAll 0 (DataSection.ofDomain d).code ↔ kind.needed d ≠ [] := by
  rw [Ne, ← records_given d kind]
  constructor
  · exact fun member => space_line _ kind (section_inside _ _ member)
  · intro given
    apply DataSection.body_member
    apply (DataSection.kind_part _ kind).subset
    rw [DataSection.kindPieces, List.isEmpty_eq_false_iff.mpr given, if_neg Bool.false_ne_true, Code.block,
      Code.pieces_between]
    exact List.mem_cons_self

end Spaces

-- The payloads of one kind in the file of a domain: its client names each payload that is needed, and
-- nothing else, by the name under which its data section has the record.
structure Agrees (d : Domain) (kind : PayloadKind) (client : Client) (data : DataSection)
    (rows : List String) : Prop where
  mentions : client.mentions kind = (kind.needed d).map fun entry => payloadName d.name kind entry.1
  written : ∀ name ∈ client.mentions kind, ∃ row ∈ rowsOf indent client.pieces, Shows row name
  bounded : ∀ piece ∈ client.pieces, Proper client.transport d kind piece.2
  clientInFile : rowsOf indent client.pieces <:+: rows
  present : (1, spaceHeader kind ++ " \x7b") ∈ Code.piecesAll 0 data.code ↔ kind.needed d ≠ []
  inFile : rowsOf indent (Code.piecesAll 0 data.code) <:+: rows
  defined : kind.needed d ≠ [] → ∃ whole, Encloses indent 0 ("export namespace " ++ d.name) whole rows ∧
    Encloses indent 1 (spaceHeader kind) ((kind.needed d).flatMap (recordRows d.name kind)) whole

theorem argument_shows (domain : String) (c : Command) (given : c.hasParams = true) :
    Shows (argumentText domain c.name c.argumentForm) (payloadName domain .params c.name) := by
  rw [Command.argumentForm, given]
  cases c.hasMandatoryParams with
  | false => exact shows_before _ _ _ (shows_behind _ _ _ (shows_self _))
  | true => exact shows_behind _ _ _ (shows_self _)

section Files

variable (d : Domain) (known : List String) (options : Options) (kind : PayloadKind)
  (lines : ∀ name ∈ d.names, OneLine name)

include lines

theorem mention_written (entry : String × List Property) (need : entry ∈ kind.needed d) :
    ∃ row ∈ rowsOf indent (client d known options).pieces, Shows row (payloadName d.name kind entry.1) := by
  have inside := rows_part indent _ _ (client d known options).body_part
  cases kind with
  | params =>
    obtain ⟨c, command, rfl⟩ := List.mem_map.mp need
    obtain ⟨member, given⟩ := List.mem_filter.mp command
    have row := (method_rows d known options lines c member).subset List.mem_cons_self
    refine ⟨_, inside.subset row, shows_behind _ _ _ ?_⟩
    iterate 4 apply shows_before
    exact shows_behind _ _ _ (argument_shows d.name c given)
  | results =>
    obtain ⟨c, command, rfl⟩ := List.mem_map.mp need
    obtain ⟨member, given⟩ := List.mem_filter.mp command
    have row := (method_rows d known options lines c member).subset List.mem_cons_self
    refine ⟨_, inside.subset row, shows_behind _ _ _ ?_⟩
    iterate 2 apply shows_before
    rw [given]
    exact shows_behind _ _ _ (shows_self _)
  | events =>
    obtain ⟨e, event, rfl⟩ := List.mem_map.mp need
    obtain ⟨member, given⟩ := List.mem_filter.mp event
    have row := overload_written d known options lines e "on" member (by simp)
    refine ⟨_, inside.subset row, shows_behind _ _ _ (shows_before _ _ _ (shows_behind _ _ _ ?_))⟩
    rw [if_pos given]
    exact shows_before _ _ _ (shows_behind _ _ _ (shows_self _))

theorem space_rows (given : kind.needed d ≠ []) :
    Encloses indent 1 (spaceHeader kind) ((kind.needed d).flatMap (recordRows d.name kind))
      (rowsOf indent (Code.piecesAll 1 (DataSection.ofDomain d).body)) := by
  have records : rowsOf indent (Code.piecesAll 2 ((DataSection.ofDomain d).recordsCode kind)) =
      (kind.needed d).flatMap (recordRows d.name kind) := by
    have closed : ∀ r : Record, Code.piecesAll 2 (r.code ++ [.blank]) = Code.piecesAll 2 r.code :=
      fun r => (Code.pieces_all_append 2 r.code _).trans (List.append_nil _)
    rw [DataSection.recordsCode, DataSection.records_needed, List.flatMap_map, Code.pieces_all_flat_map,
      rows_flat_map]
    refine List.flatMap_congr fun entry need => ?_
    rw [closed, record_rows d.name kind entry (lines _ (kind.needed_name d entry need))]
  rw [← records]
  refine encloses_within indent 1 _ _ _ _ (block_encloses indent 1 _ _ (space_header_line kind))
    (rows_part indent _ _ ?_)
  have part := (DataSection.ofDomain d).kind_part kind
  rwa [DataSection.kindPieces, List.isEmpty_eq_false_iff.mpr (mt (records_given d kind).mp given),
    if_neg Bool.false_ne_true] at part

theorem file_agrees : Agrees d kind (client d known options) (DataSection.ofDomain d)
    (rowsOf indent (domainPieces d known options)) := by
  have mentions := mentions_needed (transportAlias options.transportType known) d kind
  refine ⟨mentions, ?_, client_proper, rows_part indent _ _ (client_pieces_part d known options),
    space_present d kind, rows_part indent _ _ (data_part d known options), ?_⟩
  · intro name member
    rw [client, mentions] at member
    obtain ⟨entry, need, rfl⟩ := List.mem_map.mp member
    exact mention_written d known options kind lines entry need
  · intro given
    exact ⟨_, namespace_encloses d known options (lines _ List.mem_cons_self),
      space_rows d kind lines given⟩

end Files

end ProtocolStubs.Script
