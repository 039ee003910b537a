import ProtocolStubs.Crate.TypeExpr
import ProtocolStubs.Layout.Comment
import ProtocolStubs.Schema.Notes

set_option autoImplicit false

namespace ProtocolStubs.Crate

open ProtocolStubs.Layout

structure Field where
  doc : List String
  wire : String
  optional : Bool
  recursive : Bool
  type : TypeExpr
deriving DecidableEq, Repr

structure Record where
  doc : List String
  name : String
  fields : List Field
deriving DecidableEq, Repr

inductive NamedType where
  | record (r : Record)
  | alias (doc : List String) (name : String) (type : TypeExpr)
deriving DecidableEq, Repr

structure DataModules where
  domain : String
  types : List NamedType
  params : List Record
  results : List Record
  payloads : List Record
deriving DecidableEq, Repr

def allowedValues (d : Definition) : List String :=
  match d.shape with
  | .enumeration values =>
    ["Allowed values: " ++ Text.joinWith ", " (values.map fun value => "`" ++ value ++ "`") ++ "."]
  | _ => []

namespace Field

def docLines (p : Property) : List String :=
  (Notes.lines Comment.slashTag { p.notes with optional := none }) ++ allowedValues p.definition

-- Only the fields of a named type, the `owner`, can lead back to it.
def ofProperty (index : TypeIndex) (domain : String) (owner : Option String) (p : Property) :
    Field where
  doc := docLines p
  wire := p.name
  optional := p.isOptional
  recursive :=
    match owner, p.definition.target? domain with
    | some owner, some target => index.graph.closesCycle owner target
    | _, _ => false
  type := .ofField index domain p.definition

def name (f : Field) : String := identifier f.wire

-- A field keeps its name on the wire by a `rename` wherever its identifier differs.
def renamed? (f : Field) : Option String := if f.name = f.wire then none else some f.wire

def attributes (f : Field) : List String :=
  (if f.optional then ["default", "skip_serializing_if = Option::is_none"] else []) ++
    f.renamed?.toList.map fun wire => "rename = " ++ Text.quote wire

def typeText (runtime : String) (f : Field) : String :=
  if f.optional then "Option<" ++ f.type.text runtime ++ ">" else f.type.text runtime

def code (runtime : String) (f : Field) : List Code :=
  Comment.slash f.doc ++
    (if f.attributes.isEmpty then []
      else [.line ("#[facet(" ++ Text.joinWith ", " f.attributes ++ ")]")]) ++
    (if f.recursive then [.line "#[facet(recursive_type)]"] else []) ++
    [.line ("pub " ++ f.name ++ ": " ++ f.typeText runtime ++ ",")]

end Field

namespace Record

def ofProperties (index : TypeIndex) (domain : String) (owner : Option String) (name : String)
    (doc : List String) (properties : List Property) : Record :=
  ⟨doc, typeName name, properties.map (Field.ofProperty index domain owner)⟩

def code (runtime : String) (r : Record) : List Code :=
  Comment.slash r.doc ++ .line "#[derive(Debug, Facet)]" ::
    Code.block ("pub struct " ++ r.name) (r.fields.flatMap (Field.code runtime))

end Record

namespace NamedType

def ofTypeDef (index : TypeIndex) (domain : String) (t : TypeDef) : NamedType :=
  let doc := t.notes.lines Comment.slashTag
  match t.properties with
  | some properties =>
    .record (.ofProperties index domain (some (qualified domain t.id)) t.id doc properties)
  | none =>
    .alias (doc ++ allowedValues t.definition) (typeName t.id) (.ofDefinition domain t.definition)

def name : NamedType → String
  | .record r => r.name
  | .alias _ name _ => name

def code (runtime : String) : NamedType → List Code
  | .record r => r.code runtime
  | .alias doc name type =>
    Comment.slash doc ++ [.line ("pub type " ++ name ++ " = " ++ type.text runtime ++ ";")]

end NamedType

namespace DataModules

def paramsRecord (index : TypeIndex) (domain : String) (c : Command) : Record :=
  .ofProperties index domain none c.name
    ["Parameters of `" ++ qualified domain c.name ++ "`."] c.params

def resultsRecord (index : TypeIndex) (domain : String) (c : Command) : Record :=
  .ofProperties index domain none c.name
    ["Result of `" ++ qualified domain c.name ++ "`."] c.results

def payloadRecord (index : TypeIndex) (domain : String) (e : Event) : Record :=
  .ofProperties index domain none e.name
    ["Payload of `" ++ qualified domain e.name ++ "`."] e.params

def ofDomain (index : TypeIndex) (d : Domain) : DataModules where
  domain := d.name
  types := d.typeDefs.map (NamedType.ofTypeDef index d.name)
  params := (d.commands.filter Command.hasParams).map (paramsRecord index d.name)
  results := (d.commands.filter Command.hasResults).map (resultsRecord index d.name)
  payloads := (d.eventList.filter fun e => !e.isSignal).map (payloadRecord index d.name)

def moduleCode (name doc : String) (body : List Code) : List Code :=
  .line ("/// " ++ doc) ::
    Code.block ("pub mod " ++ name)
      ([.line "use super::*;", .line "use facet::Facet;", .blank] ++ body) ++
    [.blank]

def recordsCode (runtime name doc : String) (records : List Record) : List Code :=
  if records.isEmpty then []
  else moduleCode name doc (records.flatMap fun r => r.code runtime ++ [.blank])

def code (runtime : String) (m : DataModules) : List Code :=
  moduleCode "types" ("Types defined by the `" ++ m.domain ++ "` domain.")
      (m.types.flatMap fun t => t.code runtime ++ [.blank]) ++
    recordsCode runtime "params" "Command parameters." m.params ++
    recordsCode runtime "results" "Command results." m.results ++
    recordsCode runtime "events" "Event payloads." m.payloads

end DataModules

end ProtocolStubs.Crate
