import ProtocolStubs.Proofs.Crate.MemberRows
import ProtocolStubs.Proofs.Schema.NameOrder

set_option autoImplicit false

namespace ProtocolStubs.Crate

open Layout
open Text (OneLine)

section Expressions

variable (index : TypeIndex) (d : Domain)

theorem record_expressions (owner : Option String) (name : String) (doc : List String)
    (properties : List Property) (own : ∀ p ∈ properties, p ∈ d.properties) :
    ∀ e ∈ (Record.ofProperties index d.name owner name doc properties).expressions,
      ∃ definition ∈ d.definitions, TypeExpr.Renders index d.name definition e := by
  intro e member
  rw [Record.expressions, Record.ofProperties, List.map_map] at member
  obtain ⟨p, among, rfl⟩ := List.mem_map.mp member
  exact ⟨p.definition, d.property_definition p (own p among), .inr rfl⟩

theorem type_expressions (t : TypeDef) (member : t ∈ d.typeDefs) :
    ∀ e ∈ (NamedType.ofTypeDef index d.name t).expressions,
      ∃ definition ∈ d.definitions, TypeExpr.Renders index d.name definition e := by
  rw [NamedType.ofTypeDef]
  cases record : t.properties with
  | some properties =>
    exact record_expressions index d _ t.id _ properties fun p =>
      d.type_property t properties p member record
  | none =>
    intro e own
    rw [List.mem_singleton.mp own]
    exact ⟨t.definition, d.type_definition t member, .inl rfl⟩

theorem expression_defined (e : TypeExpr) (member : e ∈ (DataModules.ofDomain index d).expressions) :
    ∃ definition ∈ d.definitions, TypeExpr.Renders index d.name definition e := by
  rcases List.mem_append.mp member with type | payload
  · obtain ⟨named, among, own⟩ := List.mem_flatMap.mp type
    obtain ⟨t, stands, rfl⟩ := List.mem_map.mp among
    exact type_expressions index d t stands e own
  · obtain ⟨kind, _, among⟩ := List.mem_flatMap.mp payload
    obtain ⟨r, stands, own⟩ := List.mem_flatMap.mp among
    rw [DataModules.records_needed] at stands
    obtain ⟨entry, need, rfl⟩ := List.mem_map.mp stands
    exact record_expressions index d _ _ _ _ (fun p => kind.needed_property d entry p need) e own

end Expressions

def endings : List String := [",", ">,", ";"]

section Written

variable (runtime : String)

theorem record_written (r : Record) (depth : Nat) (e : TypeExpr) (member : e ∈ r.expressions) :
    ∃ lead, OneLine lead ∧ ∃ tail ∈ endings,
      (depth + 1, lead ++ (e.text runtime ++ tail)) ∈ Code.piecesAll depth (r.code runtime) := by
  obtain ⟨f, among, rfl⟩ := List.mem_map.mp member
  have field : ∀ lead tail, lead ++ (f.type.text runtime ++ tail) =
      "pub " ++ f.name ++ ": " ++ f.typeText runtime ++ "," →
      (depth + 1, lead ++ (f.type.text runtime ++ tail)) ∈ Code.piecesAll depth (r.code runtime) := by
    intro lead tail spelled
    rw [spelled, Record.code, Code.pieces_all_append, Code.piecesAll]
    refine List.mem_append_right _ (List.mem_append_right _ (Code.block_member depth _ _ _ ?_))
    rw [Code.pieces_all_flat_map]
    refine List.mem_flatMap.mpr ⟨f, among, ?_⟩
    rw [Field.code, Code.pieces_all_append]
    exact List.mem_append_right _ (List.mem_singleton.mpr rfl)
  have name : OneLine ("pub " ++ f.name ++ ": ") := by
    rw [one_line_append, one_line_append]
    exact ⟨⟨by decide, identifier_line f.wire⟩, by decide⟩
  cases optional : f.optional with
  | true =>
    refine ⟨"pub " ++ f.name ++ ": " ++ "Option<", (one_line_append _ _).mpr ⟨name, by decide⟩, ">,",
      by simp [endings], field _ _ (String.toList_injective ?_)⟩
    simp [Field.typeText, optional]
  | false =>
    refine ⟨"pub " ++ f.name ++ ": ", name, ",", by simp [endings],
      field _ _ (String.toList_injective ?_)⟩
    simp [Field.typeText, optional]

theorem type_written (t : NamedType) (depth : Nat) (e : TypeExpr) (line : OneLine t.name)
    (member : e ∈ t.expressions) :
    ∃ within lead, OneLine lead ∧ ∃ tail ∈ endings,
      (within, lead ++ (e.text runtime ++ tail)) ∈ Code.piecesAll depth (t.code runtime) := by
  cases t with
  | record r => exact ⟨depth + 1, record_written runtime r depth e member⟩
  | «alias» doc name type =>
    cases List.mem_singleton.mp member
    refine ⟨depth, "pub type " ++ name ++ " = ", ?_, ";", by simp [endings], ?_⟩
    · rw [one_line_append, one_line_append]
      exact ⟨⟨by decide, line⟩, by decide⟩
    · rw [NamedType.code, Code.pieces_all_append]
      refine List.mem_append_right _ (List.mem_singleton.mpr (congrArg (Prod.mk depth) ?_))
      exact String.toList_injective (by simp)

theorem expression_written (m : DataModules) (e : TypeExpr) (lines : ∀ t ∈ m.types, OneLine t.name)
    (member : e ∈ m.expressions) :
    ∃ depth lead, OneLine lead ∧ ∃ tail ∈ endings,
      (depth, lead ++ (e.text runtime ++ tail)) ∈ Code.piecesAll 0 (m.code runtime) := by
  rcases List.mem_append.mp member with type | payload
  · obtain ⟨t, among, own⟩ := List.mem_flatMap.mp type
    obtain ⟨depth, lead, line, tail, ends, stands⟩ := type_written runtime t 1 e (lines t among) own
    exact ⟨depth, lead, line, tail, ends, m.type_member runtime t _ among stands⟩
  · obtain ⟨kind, _, among⟩ := List.mem_flatMap.mp payload
    obtain ⟨r, within, own⟩ := List.mem_flatMap.mp among
    obtain ⟨lead, line, tail, ends, stands⟩ := record_written runtime r 1 e own
    exact ⟨2, lead, line, tail, ends, m.record_member runtime kind r _ within stands⟩

end Written

def Item.Named (name : String) (inside : List String) : Prop :=
  (∃ fields, Encloses indent 1 ("pub struct " ++ name) fields inside) ∨
    ∃ type, Pen.indentation indent 1 ++ ("pub type " ++ name ++ " =" ++ type) ∈ inside

def Defines (name : String) (rows : List String) : Prop :=
  ∃ inside, Encloses indent 0 "pub mod types" inside rows ∧ Item.Named name inside

theorem named_item (runtime : String) (t : NamedType) (line : OneLine t.name) :
    Item.Named t.name (rowsOf indent (Code.piecesAll 1 (t.code runtime))) := by
  cases t with
  | record r =>
    have header : OneLine ("pub struct " ++ r.name) := (one_line_append _ _).mpr ⟨by decide, line⟩
    refine .inl ⟨_, encloses_within indent 1 _ _ _ _
      (block_encloses indent 1 _ (r.fields.flatMap (Field.code runtime)) header)
      (rows_part indent _ _ (Code.pieces_all_part 1 _ _ ?_))⟩
    rw [NamedType.code, Record.code, List.append_cons]
    exact (List.suffix_append _ _).isInfix
  | «alias» doc name type =>
    have front : Row ("pub type " ++ name ++ " =") :=
      row_append _ " =" ((one_line_append _ _).mpr ⟨by decide, line⟩) (by decide)
    refine .inr (front_written indent _ 1 _ (" " ++ type.text runtime ++ ";") front ?_)
    rw [NamedType.code, Code.pieces_all_append]
    refine List.mem_append_right _ (List.mem_singleton.mpr (congrArg (Prod.mk 1) ?_))
    exact String.toList_injective (by simp [NamedType.name])

theorem item_within (name : String) (inside whole : List String) (item : Item.Named name inside)
    (within : inside <:+: whole) : Item.Named name whole := by
  rcases item with ⟨fields, encloses⟩ | ⟨type, stands⟩
  · exact .inl ⟨fields, encloses_within indent 1 _ _ _ _ encloses within⟩
  · exact .inr ⟨type, within.subset stands⟩

theorem type_name_kept (index : TypeIndex) (domain : String) (t : TypeDef) :
    (NamedType.ofTypeDef index domain t).name = typeName t.id := by
  rw [NamedType.ofTypeDef]
  cases t.properties <;> rfl

theorem type_defined (d : Domain) (known : List String) (index : TypeIndex) (options : Options)
    (t : TypeDef) (legible : d.Legible) (member : t ∈ d.typeDefs) :
    Defines (typeName t.id) (rowsOf indent (domainPieces d known index options)) := by
  refine ⟨_, module_encloses d known index options _ _ (by decide)
    ((DataModules.ofDomain index d).types_part options.runtimeCrate), ?_⟩
  have part := (DataModules.ofDomain index d).type_part options.runtimeCrate
    (.ofTypeDef index d.name t) (List.mem_map_of_mem member)
  have kept := type_name_kept index d.name t
  have item := named_item options.runtimeCrate (.ofTypeDef index d.name t)
    (by rw [kept]; exact type_name_line t.id (legible.ids t member))
  rw [kept] at item
  exact item_within _ _ _ item (rows_part indent _ _ (Code.pieces_all_part 1 _ _ part))

-- A reference that an expression of the domain's file renders.
structure Resolves (options : Options) (modules : List (Domain × GeneratedFile)) (d : Domain)
    (f : GeneratedFile) (e : TypeExpr) (ref : TypeRef) : Prop where
  known : ref.domain = d.name ∨ ref.domain ∈ d.dependencyNames
  spelled : ∃ wrap ∈ [("", ""), ("Box<", ">"), ("Vec<", ">")],
    e.text options.runtimeCrate = wrap.1 ++ TypeExpr.pathText d.name ref ++ wrap.2
  written : ∃ lead, ∃ tail ∈ endings, lead ++ (e.text options.runtimeCrate ++ tail) ∈ f.rows
  defined : ∀ g file, (g, file) ∈ modules → g.name = ref.domain → ∀ t ∈ g.typeDefs, t.id = ref.name →
    file.path = identifier ref.domain ++ ".rs" ∧ Defines (typeName ref.name) file.rows

structure Consistent (options : Options) (modules : List (Domain × GeneratedFile)) (d : Domain)
    (f : GeneratedFile) : Prop where
  imports : ∃ names rest, Ascending names ∧ d.name ∉ names ∧
    (∀ name, name ∈ names ↔ name ∈ d.dependencyNames ∧ name ∈ modules.map fun m => m.1.name) ∧
    f.rows = rowsOf indent
      ((opening d ++ importTexts (names.map identifier)).map (fun t => (0, t)) ++ rest) ∧
    (∀ text ∈ opening d, ¬ "use ".toList <+: text.toList) ∧
    ∀ text, (0, text) ∈ rest → ¬ "use ".toList <+: text.toList
  data : rowsOf indent (Code.piecesAll 0
    ((DataModules.ofDomain (.ofDomains (modules.map Prod.fst)) d).code options.runtimeCrate)) <:+: f.rows
  members : List.Forall₂ (MemberOf options.runtimeCrate) (textsOf isMember (Code.piecesAll 0
      ((DataModules.ofDomain (.ofDomains (modules.map Prod.fst)) d).code options.runtimeCrate)))
    (DataModules.ofDomain (.ofDomains (modules.map Prod.fst)) d).expressions
  references : ∀ e ∈ (DataModules.ofDomain (.ofDomains (modules.map Prod.fst)) d).expressions,
    e.Spelled options.runtimeCrate ∧ ∃ definition ∈ d.definitions,
      e.paths = ((definition.target? d.name).map (TypeExpr.pathOf d.name)).toList ∧
      ∀ ref, definition.target? d.name = some ref → Resolves options modules d f e ref

theorem imported_ascending (d : Domain) (known : List String) : Ascending (importedDomains d known) :=
  List.Pairwise.sublist List.filter_sublist (sorted_names_ascending _)

theorem imported_iff (d : Domain) (known : List String) (name : String) :
    name ∈ importedDomains d known ↔ name ∈ d.dependencyNames ∧ name ∈ known := by
  simp [importedDomains]

theorem opening_imports_nothing (d : Domain) (text : String) (member : text ∈ opening d) :
    ¬ "use ".toList <+: text.toList := by
  rintro ⟨rest, spelled⟩
  have head : text.toList.head? = some 'u' := by rw [← spelled]; simp
  have doc : ∀ line ∈ docTexts d, line.toList.head? = some '/' := by
    rw [docTexts]
    split
    · simp
    · simp only [List.mem_map, forall_exists_index, and_imp, forall_apply_eq_imp_iff₂]
      intro line _
      rw [Pen.commentLine]
      split <;> simp
  simp only [opening, List.mem_append, List.mem_singleton] at member
  rcases member with (rfl | line) | rfl
  · simp [headerText] at head
  · rw [doc text line] at head
    cases head
  · simp at head

structure DomainFiles (domains : List Domain) (options : Options)
    (modules : List (Domain × GeneratedFile)) : Prop where
  listed : modules.map Prod.fst = domains
  written : ∀ d f, (d, f) ∈ modules → f.path = identifier d.name ++ ".rs" ∧ f.rows = rowsOf indent
    (domainPieces d (domains.map Domain.name) (.ofDomains domains) options)

theorem files_written (domains : List Domain) (options : Options) (made : List GeneratedFile) :
    files domains options = .ok made ↔
      ∃ own root, domains.mapM (fun d =>
          (domainText d (domains.map Domain.name) (.ofDomains domains) options).map
            (GeneratedFile.ofSource (identifier d.name ++ ".rs"))) = .ok own ∧
        rootCode domains options = .ok root ∧
        made = own ++ [.ofSource "mod.rs" (Layout.Code.text indent root),
          .ofSource "error.rs" (headerText ++ "\n\n" ++ errorExports options.runtimeCrate)] := by
  rw [files]
  constructor
  · intro all
    obtain ⟨own, each, all⟩ := (bind_ok _ _ _).mp all
    obtain ⟨root, facade, all⟩ := (bind_ok _ _ _).mp all
    exact ⟨own, root, each, facade, (Except.ok.inj all).symm⟩
  · rintro ⟨own, root, each, facade, rfl⟩
    rw [each, facade]
    rfl

theorem files_parts (domains : List Domain) (options : Options) (made : List GeneratedFile)
    (all : files domains options = .ok made) :
    ∃ modules others, made = modules.map Prod.snd ++ others ∧ DomainFiles domains options modules := by
  obtain ⟨own, code, each, _, rfl⟩ := (files_written domains options made).mp all
  have paired := map_each _ domains own each
  have snd : (domains.zip own).map Prod.snd = own := List.map_snd_zip paired.length_eq.ge
  refine ⟨domains.zip own, _, congrArg (· ++ _) snd.symm, List.map_fst_zip paired.length_eq.le, ?_⟩
  intro d f member
  obtain ⟨source, text, rfl⟩ := (map_ok _ _ f).mp (List.forall₂_zip paired member)
  exact ⟨rfl, (rows_of_source _ source).trans (domain_text_rows _ _ _ options source text)⟩

section Files

variable (domains : List Domain) (options : Options) (modules : List (Domain × GeneratedFile))
  (files : DomainFiles domains options modules)

include files

theorem expression_resolves (d : Domain) (f : GeneratedFile) (e : TypeExpr) (ref : TypeRef)
    (definition : Definition) (legible : ∀ d ∈ domains, d.Legible) (member : (d, f) ∈ modules)
    (expression : e ∈ (DataModules.ofDomain (.ofDomains domains) d).expressions)
    (stands : definition ∈ d.definitions)
    (renders : TypeExpr.Renders (.ofDomains domains) d.name definition e)
    (refers : definition.target? d.name = some ref) : Resolves options modules d f e ref := by
  have among : ∀ g file, (g, file) ∈ modules → g ∈ domains := fun g file other =>
    files.listed ▸ List.mem_map.mpr ⟨(g, file), other, rfl⟩
  have own := legible d (among d f member)
  obtain ⟨_, nameLine⟩ := d.target_legible own definition ref stands refers
  obtain ⟨wrap, wrapped, spelled⟩ :=
    TypeExpr.rendered_text _ d.name options.runtimeCrate definition e ref renders refers
  have line : OneLine (e.text options.runtimeCrate) := by
    rw [spelled, one_line_append, one_line_append]
    have path := TypeExpr.path_line d.name ref nameLine
    simp only [List.mem_cons, List.not_mem_nil, or_false] at wrapped
    rcases wrapped with rfl | rfl | rfl <;> exact ⟨⟨by decide, path⟩, by decide⟩
  refine ⟨d.target_known definition ref stands refers, ⟨wrap, wrapped, spelled⟩, ?_, ?_⟩
  · have names : ∀ t ∈ (DataModules.ofDomain (.ofDomains domains) d).types, OneLine t.name := by
      intro t type
      obtain ⟨source, given, rfl⟩ := List.mem_map.mp type
      rw [type_name_kept]
      exact type_name_line source.id (own.ids source given)
    obtain ⟨depth, lead, leadLine, tail, ends, written⟩ :=
      expression_written options.runtimeCrate _ e names expression
    refine ⟨Pen.indentation indent depth ++ lead, tail, ends, ?_⟩
    have closing : Row tail := by
      simp only [endings, List.mem_cons, List.not_mem_nil, or_false] at ends
      rcases ends with rfl | rfl | rfl <;> decide
    rw [(files.written d f member).2, String.append_assoc]
    exact row_written indent _ depth _ (row_append _ _ leadLine (row_append _ _ line closing))
      ((data_part d _ _ options).subset written)
  · intro g file other same t type named
    obtain ⟨path, rows⟩ := files.written g file other
    rw [← same, ← named, rows]
    exact ⟨path, type_defined g _ _ options t (legible g (among g file other)) type⟩

theorem files_consistent (legible : ∀ d ∈ domains, d.Legible) (d : Domain) (f : GeneratedFile)
    (member : (d, f) ∈ modules) : Consistent options modules d f := by
  have names : (modules.map fun m => m.1.name) = domains.map Domain.name := by
    rw [← files.listed, List.map_map]
    rfl
  refine ⟨⟨importedDomains d (domains.map Domain.name), sections d (.ofDomains domains) options,
    imported_ascending d _, ?_, ?_, ?_, opening_imports_nothing d, sections_import_nothing d _ options⟩, ?_,
    data_members options.runtimeCrate _, ?_⟩
  · exact fun own => d.dependency_other ((imported_iff d _ _).mp own).1
  · rw [names]
    exact imported_iff d _
  · exact (files.written d f member).2
  · rw [files.listed, (files.written d f member).2]
    exact rows_part indent _ _ (data_part d _ _ options)
  · rw [files.listed]
    intro e expression
    obtain ⟨definition, stands, renders⟩ := expression_defined (.ofDomains domains) d e expression
    refine ⟨TypeExpr.text_spelled options.runtimeCrate e, definition, stands,
      TypeExpr.rendered_paths _ d.name definition e renders, fun ref refers => ?_⟩
    exact expression_resolves domains options modules files d f e ref definition legible member expression
      stands renders refers

end Files

end ProtocolStubs.Crate
