import ProtocolStubs.Proofs.Schema.NameOrder
import ProtocolStubs.Proofs.Script.MemberRows

set_option autoImplicit false

namespace ProtocolStubs.Script

open Layout
open Text (OneLine)

namespace TypeExpr

def references : TypeExpr → List TypeRef
  | .named ref => [ref]
  | .array item => item.references
  | .builtin _ => []
  | .oneOf _ => []
  | .unknown => []

theorem definition_references (domain : String) (d : Definition) :
    (ofDefinition domain d).references = (d.target? domain).toList := by
  rw [ofDefinition, Definition.target?]
  cases d.shape <;> rfl

theorem definition_text (domain : String) (d : Definition) (ref : TypeRef)
    (target : d.target? domain = some ref) :
    (ofDefinition domain d).text = qualified ref.domain ref.name ∨
      (ofDefinition domain d).text = qualified ref.domain ref.name ++ "[]" := by
  rw [Definition.target?] at target
  rw [ofDefinition]
  cases shape : d.shape <;> rw [shape] at target <;> cases target
  · exact .inl rfl
  · exact .inr rfl

end TypeExpr

theorem record_expressions (d : Domain) (name : String) (doc : List String) (properties : List Property)
    (own : ∀ p ∈ properties, p ∈ d.properties) :
    ∀ e ∈ (Record.ofProperties d.name name doc properties).expressions,
      ∃ definition ∈ d.definitions, e = .ofDefinition d.name definition := by
  intro e member
  rw [Record.expressions, Record.ofProperties, List.map_map] at member
  obtain ⟨p, among, rfl⟩ := List.mem_map.mp member
  exact ⟨p.definition, d.property_definition p (own p among), rfl⟩

theorem type_expressions (d : Domain) (t : TypeDef) (member : t ∈ d.typeDefs) :
    ∀ e ∈ (NamedType.ofTypeDef d.name t).expressions,
      ∃ definition ∈ d.definitions, e = .ofDefinition d.name definition := by
  rw [NamedType.ofTypeDef]
  cases record : t.properties with
  | some properties =>
    exact record_expressions d t.id _ properties fun p => d.type_property t properties p member record
  | none =>
    intro e own
    rw [List.mem_singleton.mp own]
    exact ⟨t.definition, d.type_definition t member, rfl⟩

theorem expression_defined (d : Domain) (e : TypeExpr) (member : e ∈ (DataSection.ofDomain d).expressions) :
    ∃ definition ∈ d.definitions, e = .ofDefinition d.name definition := by
  rcases List.mem_append.mp member with type | payload
  · obtain ⟨named, among, own⟩ := List.mem_flatMap.mp type
    obtain ⟨t, stands, rfl⟩ := List.mem_map.mp among
    exact type_expressions d t stands e own
  · obtain ⟨kind, _, among⟩ := List.mem_flatMap.mp payload
    obtain ⟨r, stands, own⟩ := List.mem_flatMap.mp among
    rw [DataSection.records_needed] at stands
    obtain ⟨entry, need, rfl⟩ := List.mem_map.mp stands
    exact record_expressions d _ _ _ (fun p => kind.needed_property d entry p need) e own

theorem record_written (r : Record) (depth : Nat) (e : TypeExpr) (member : e ∈ r.expressions) :
    ∃ lead, (depth + 1, lead ++ (" " ++ e.text ++ ";")) ∈ Code.piecesAll depth r.code := by
  obtain ⟨f, among, rfl⟩ := List.mem_map.mp member
  refine ⟨f.name ++ (if f.optional then "?" else "") ++ ":", ?_⟩
  rw [Record.code, Code.pieces_all_append]
  refine List.mem_append_right _ (Code.block_member depth _ _ _ ?_)
  rw [Code.pieces_all_flat_map]
  refine List.mem_flatMap.mpr ⟨f, among, ?_⟩
  rw [Field.code, Code.pieces_all_append]
  refine List.mem_append_right _ (List.mem_singleton.mpr (congrArg (Prod.mk (depth + 1)) ?_))
  exact String.toList_injective (by simp)

theorem type_written (t : NamedType) (depth : Nat) (e : TypeExpr) (member : e ∈ t.expressions) :
    ∃ within lead, (within, lead ++ (" " ++ e.text ++ ";")) ∈ Code.piecesAll depth t.code := by
  cases t with
  | record r => exact ⟨depth + 1, record_written r depth e member⟩
  | «alias» doc name type =>
    cases List.mem_singleton.mp member
    refine ⟨depth, "export type " ++ name ++ " =", ?_⟩
    rw [NamedType.code, Code.pieces_all_append]
    refine List.mem_append_right _ (List.mem_singleton.mpr (congrArg (Prod.mk depth) ?_))
    exact String.toList_injective (by simp)

theorem expression_written (s : DataSection) (e : TypeExpr) (member : e ∈ s.expressions) :
    ∃ depth lead, (depth, lead ++ (" " ++ e.text ++ ";")) ∈ Code.piecesAll 0 s.code := by
  rcases List.mem_append.mp member with type | payload
  · obtain ⟨t, among, own⟩ := List.mem_flatMap.mp type
    obtain ⟨depth, lead, stands⟩ := type_written t 1 e own
    exact ⟨depth, lead, s.body_member _ ((s.type_part t among).subset stands)⟩
  · obtain ⟨kind, _, among⟩ := List.mem_flatMap.mp payload
    obtain ⟨r, within, own⟩ := List.mem_flatMap.mp among
    obtain ⟨lead, stands⟩ := record_written r 2 e own
    exact ⟨3, lead, s.record_member kind r _ within stands⟩

def Item (name : String) (inside : List String) : Prop :=
  (∃ fields, Encloses indent 1 ("export interface " ++ name) fields inside) ∨
    ∃ type, Pen.indentation indent 1 ++ ("export type " ++ name ++ " =" ++ type) ∈ inside

def Defines (domain name : String) (rows : List String) : Prop :=
  ∃ inside, Encloses indent 0 ("export namespace " ++ domain) inside rows ∧ Item name inside

theorem named_item (t : NamedType) (line : OneLine t.name) :
    Item t.name (rowsOf indent (Code.piecesAll 1 t.code)) := by
  cases t with
  | record r =>
    have header : OneLine ("export interface " ++ r.name) := (one_line_append _ _).mpr ⟨by decide, line⟩
    refine .inl ⟨_, encloses_within indent 1 _ _ _ _
      (block_encloses indent 1 _ (r.fields.flatMap Field.code) header) (rows_part indent _ _ ?_)⟩
    rw [NamedType.code, Record.code, Code.pieces_all_append]
    exact (List.suffix_append _ _).isInfix
  | «alias» doc name type =>
    have front : Row ("export type " ++ name ++ " =") :=
      row_append _ " =" ((one_line_append _ _).mpr ⟨by decide, line⟩) (by decide)
    refine .inr (front_written indent _ 1 _ (" " ++ type.text ++ ";") front ?_)
    rw [NamedType.code, Code.pieces_all_append]
    refine List.mem_append_right _ (List.mem_singleton.mpr (congrArg (Prod.mk 1) ?_))
    exact String.toList_injective (by simp [NamedType.name])

theorem item_within (name : String) (inside whole : List String) (item : Item name inside)
    (within : inside <:+: whole) : Item name whole := by
  rcases item with ⟨fields, encloses⟩ | ⟨type, stands⟩
  · exact .inl ⟨fields, encloses_within indent 1 _ _ _ _ encloses within⟩
  · exact .inr ⟨type, within.subset stands⟩

theorem type_name_kept (domain : String) (t : TypeDef) : (NamedType.ofTypeDef domain t).name = t.id := by
  rw [NamedType.ofTypeDef]
  cases t.properties <;> rfl

theorem type_defined (d : Domain) (known : List String) (options : Options) (t : TypeDef)
    (legible : d.Legible) (member : t ∈ d.typeDefs) :
    Defines d.name t.id (rowsOf indent (domainPieces d known options)) := by
  refine ⟨_, namespace_encloses d known options legible.name, ?_⟩
  have part := (DataSection.ofDomain d).type_part (.ofTypeDef d.name t) (List.mem_map_of_mem member)
  have kept := type_name_kept d.name t
  have item := named_item (.ofTypeDef d.name t) (by rw [kept]; exact legible.ids t member)
  rw [kept] at item
  exact item_within _ _ _ item (rows_part indent _ _ part)

-- A reference that an expression of the domain's file renders.
structure Resolves (modules : List (Domain × GeneratedFile)) (d : Domain) (f : GeneratedFile)
    (e : TypeExpr) (ref : TypeRef) : Prop where
  known : ref.domain = d.name ∨ ref.domain ∈ d.dependencyNames
  spelled : e.text = qualified ref.domain ref.name ∨ e.text = qualified ref.domain ref.name ++ "[]"
  written : ∃ lead, lead ++ (" " ++ e.text ++ ";") ∈ f.rows
  defined : ∀ g file, (g, file) ∈ modules → g.name = ref.domain → ∀ t ∈ g.typeDefs, t.id = ref.name →
    file.path = ref.domain ++ ".ts" ∧ Defines ref.domain ref.name file.rows

structure Consistent (options : Options) (modules : List (Domain × GeneratedFile)) (d : Domain)
    (f : GeneratedFile) : Prop where
  imports : ∃ names rest, Ascending names ∧ d.name ∉ names ∧
    (∀ name, name ∈ names ↔ name ∈ d.dependencyNames ∧ name ∈ modules.map fun m => m.1.name) ∧
    f.rows = rowsOf indent
      ((opening d (modules.map fun m => m.1.name) options ++ names.map importText).map (fun t => (0, t)) ++
        rest) ∧
    ∀ text, (0, text) ∈ rest → ¬ "import".toList <+: text.toList
  data : rowsOf indent (Code.piecesAll 0 (DataSection.ofDomain d).code) <:+: f.rows
  members : List.Forall₂ MemberOf (textsOf isMember (Code.piecesAll 0 (DataSection.ofDomain d).code))
    (DataSection.ofDomain d).expressions
  references : ∀ e ∈ (DataSection.ofDomain d).expressions,
    (∃ definition ∈ d.definitions, e = .ofDefinition d.name definition) ∧
    ∀ ref ∈ e.references, Resolves modules d f e ref

theorem imported_ascending (d : Domain) (known : List String) : Ascending (importedDomains d known) :=
  List.Pairwise.sublist List.filter_sublist (sorted_names_ascending _)

theorem imported_iff (d : Domain) (known : List String) (name : String) :
    name ∈ importedDomains d known ↔ name ∈ d.dependencyNames ∧ name ∈ known := by
  simp [importedDomains]

section Files

variable (domains : List Domain) (options : Options)

def domainFiles : List (Domain × GeneratedFile) :=
  domains.map fun d =>
    (d, .ofSource (d.name ++ ".ts") (domainText d (domains.map Domain.name) options))

theorem files_parts : ∃ others,
    files domains options = (domainFiles domains options).map Prod.snd ++ others := by
  rw [files, domainFiles, List.map_map]
  exact ⟨_, rfl⟩

theorem domain_file_names :
    (domainFiles domains options).map (fun m => m.1.name) = domains.map Domain.name := by
  rw [domainFiles, List.map_map]
  rfl

theorem domain_file_rows (d : Domain) (f : GeneratedFile) (member : (d, f) ∈ domainFiles domains options) :
    d ∈ domains ∧ f.path = d.name ++ ".ts" ∧
      f.rows = rowsOf indent (domainPieces d (domains.map Domain.name) options) := by
  obtain ⟨d', among, same⟩ := List.mem_map.mp member
  cases same
  exact ⟨among, rfl, domain_rows _ d _ options⟩

theorem expression_resolves (d : Domain) (f : GeneratedFile) (e : TypeExpr) (ref : TypeRef)
    (legible : ∀ d ∈ domains, d.Legible) (member : (d, f) ∈ domainFiles domains options)
    (expression : e ∈ (DataSection.ofDomain d).expressions) (refers : ref ∈ e.references) :
    Resolves (domainFiles domains options) d f e ref := by
  obtain ⟨among, _, rows⟩ := domain_file_rows domains options d f member
  obtain ⟨definition, stands, rfl⟩ := expression_defined d e expression
  rw [TypeExpr.definition_references, Option.mem_toList] at refers
  obtain ⟨domainLine, nameLine⟩ := d.target_legible (legible d among) definition ref stands refers
  have spelled := TypeExpr.definition_text d.name definition ref refers
  have full : OneLine (qualified ref.domain ref.name) := by
    rw [qualified, one_line_append, one_line_append]
    exact ⟨⟨domainLine, by decide⟩, nameLine⟩
  have line : OneLine (TypeExpr.ofDefinition d.name definition).text := by
    rcases spelled with same | same <;> rw [same]
    · exact full
    · exact (one_line_append _ _).mpr ⟨full, by decide⟩
  refine ⟨d.target_known definition ref stands refers, spelled, ?_, ?_⟩
  · obtain ⟨depth, lead, written⟩ := expression_written _ _ expression
    rw [rows]
    refine back_written indent _ depth lead _ ?_ ((data_part d _ options).subset written)
    exact row_append _ ";" ((one_line_append _ _).mpr ⟨by decide, line⟩) (by decide)
  · intro g file other same t type named
    obtain ⟨generated, path, fileRows⟩ := domain_file_rows domains options g file other
    rw [← same, ← named, fileRows]
    exact ⟨path, type_defined g _ options t (legible g generated) type⟩

theorem files_consistent (legible : ∀ d ∈ domains, d.Legible) (d : Domain) (f : GeneratedFile)
    (member : (d, f) ∈ domainFiles domains options) :
    Consistent options (domainFiles domains options) d f := by
  obtain ⟨_, _, rows⟩ := domain_file_rows domains options d f member
  refine ⟨⟨importedDomains d (domains.map Domain.name),
    Code.piecesAll 0 (sections d (domains.map Domain.name) options), imported_ascending d _, ?_, ?_, ?_,
    sections_import_nothing d _ options⟩, ?_, data_members _, ?_⟩
  · exact fun own => d.dependency_other ((imported_iff d _ _).mp own).1
  · rw [domain_file_names]
    exact imported_iff d _
  · rw [domain_file_names, rows, domain_pieces]
  · rw [rows]
    exact rows_part indent _ _ (data_part d _ options)
  · exact fun e expression => ⟨expression_defined d e expression, fun ref =>
      expression_resolves domains options d f e ref legible member expression⟩

end Files

end ProtocolStubs.Script
