import ProtocolStubs.Layout.Comment
import ProtocolStubs.Schema.Notes
import ProtocolStubs.Script.TypeExpr

set_option autoImplicit false

namespace ProtocolStubs.Script

open ProtocolStubs.Layout

structure Field where
  doc : List String
  name : String
  optional : Bool
  type : TypeExpr
deriving DecidableEq, Repr

structure Record where
  doc : List String
  name : String
  fields : List Field
deriving DecidableEq, Repr

inductive NamedType where
  | record (r : Record)
  | alias (doc : List String) (name : String) (type : TypeExpr)
deriving DecidableEq, Repr

structure DataSection where
  doc : List String
  name : String
  types : List NamedType
  params : List Record
  results : List Record
  payloads : List Record
deriving DecidableEq, Repr

namespace Field

def ofProperty (domain : String) (p : Property) : Field where
  doc := p.notes.lines Comment.starTag
  name := p.name
  optional := p.isOptional
  type := .ofDefinition domain p.definition

def code (f : Field) : List Code :=
  Comment.star f.doc ++
    [.line (f.name ++ (if f.optional then "?" else "") ++ ": " ++ f.type.text ++ ";")]

end Field

namespace Record

def ofProperties (domain name : String) (doc : List String) (properties : List Property) : Record :=
  ⟨doc, name, properties.map (Field.ofProperty domain)⟩

def code (r : Record) : List Code :=
  Comment.star r.doc ++ Code.block ("export interface " ++ r.name) (r.fields.flatMap Field.code)

end Record

namespace NamedType

def ofTypeDef (domain : String) (t : TypeDef) : NamedType :=
  let doc := t.notes.lines Comment.starTag
  match t.properties with
  | some properties => .record (.ofProperties domain t.id doc properties)
  | none => .alias doc t.id (.ofDefinition domain t.definition)

def name : NamedType → String
  | .record r => r.name
  | .alias _ name _ => name

def code : NamedType → List Code
  | .record r => r.code
  | .alias doc name type =>
    Comment.star doc ++ [.line ("export type " ++ name ++ " = " ++ type.text ++ ";")]

end NamedType

namespace DataSection

def paramsRecord (domain : String) (c : Command) : Record :=
  .ofProperties domain c.name ["Parameters of `" ++ qualified domain c.name ++ "`."] c.params

def resultsRecord (domain : String) (c : Command) : Record :=
  .ofProperties domain c.name ["Result of `" ++ qualified domain c.name ++ "`."] c.results

def payloadRecord (domain : String) (e : Event) : Record :=
  .ofProperties domain e.name ["Payload of `" ++ qualified domain e.name ++ "`."] e.params

def ofDomain (d : Domain) : DataSection where
  doc := d.notes.lines Comment.starTag
  name := d.name
  types := d.typeDefs.map (NamedType.ofTypeDef d.name)
  params := (d.commands.filter Command.hasParams).map (paramsRecord d.name)
  results := (d.commands.filter Command.hasResults).map (resultsRecord d.name)
  payloads := (d.eventList.filter fun e => !e.isSignal).map (payloadRecord d.name)

def inner (name : String) (records : List Record) : List Code :=
  Code.block ("export namespace " ++ name) (records.flatMap fun r => r.code ++ [.blank])

def typesCode (s : DataSection) : List Code := s.types.flatMap fun t => t.code ++ [.blank]

def code (s : DataSection) : List Code :=
  Comment.star s.doc ++ Code.block ("export namespace " ++ s.name)
    (s.typesCode ++
      (if s.params.isEmpty then [] else inner "Params" s.params ++ [.blank]) ++
      (if s.results.isEmpty then [] else inner "Result" s.results ++ [.blank]) ++
      (if s.payloads.isEmpty then [] else inner "EventParams" s.payloads))

end DataSection

end ProtocolStubs.Script
