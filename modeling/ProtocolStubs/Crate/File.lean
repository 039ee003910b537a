import ProtocolStubs.Crate.Client
import ProtocolStubs.Crate.Facade
import ProtocolStubs.Crate.Record
import ProtocolStubs.Generation.Options
import ProtocolStubs.Schema.Dependency

set_option autoImplicit false

namespace ProtocolStubs.Crate

open ProtocolStubs.Layout

def indent : String := Code.spaces 4

def headerText : String :=
  "// @generated by cdp-codegen\n// DO NOT EDIT - regenerate with `cargo xtask codegen --rust`"

-- The other domains that a domain's file imports: of those it refers to, the ones generated.
def importedDomains (d : Domain) (known : List String) : List String :=
  d.dependencyNames.filter fun name => name ∈ known

def importCode : List String → List Code
  | [] => []
  | [single] => [.line ("use super::" ++ single ++ ";")]
  | many => [.line ("use super::\x7b" ++ Text.joinWith ", " many ++ "\x7d;")]

def moduleDoc (d : Domain) : List Code :=
  match d.notes.lines Comment.slashTag with
  | [] => [.line ("//! The `" ++ d.name ++ "` domain.")]
  | lines => lines.map fun line => .line (Pen.commentLine "//!" line)

def domainCode (d : Domain) (known : List String) (index : TypeIndex) (options : Options) :
    Except ItemError (List Code) := do
  let client ← (Client.ofDomain d).text options.runtimeCrate
  return [.line headerText, .blank] ++
    moduleDoc d ++
    [.blank, .line "#![allow(clippy::all, unused_imports)]", .blank] ++
    importCode ((importedDomains d known).map identifier) ++
    [.blank] ++
    (DataModules.ofDomain index d).code options.runtimeCrate ++
    [.line client]

def domainText (d : Domain) (known : List String) (index : TypeIndex) (options : Options) :
    Except ItemError String :=
  (domainCode d known index options).map (Code.text indent)

def rootCode (domains : List Domain) (options : Options) : Except ItemError (List Code) := do
  let facade ← (Facade.ofDomains options.facadeName domains).text options.runtimeCrate
  return [.line headerText, .blank, .line "//! Typed clients for every protocol domain.", .blank,
      .line "pub mod error;"] ++
    domains.map (fun d => .line ("pub mod " ++ identifier d.name ++ ";")) ++
    [.blank, .line facade]

def files (domains : List Domain) (options : Options) : Except ItemError (List GeneratedFile) := do
  let known := domains.map Domain.name
  let index := TypeIndex.ofDomains domains
  let modules ← domains.mapM fun d =>
    (domainText d known index options).map (GeneratedFile.ofSource (identifier d.name ++ ".rs"))
  let root ← rootCode domains options
  return modules ++
    [.ofSource "mod.rs" (Code.text indent root),
     .ofSource "error.rs" (headerText ++ "\n\n" ++ errorExports options.runtimeCrate)]

end ProtocolStubs.Crate
