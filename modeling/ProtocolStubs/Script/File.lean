import ProtocolStubs.Generation.Options
import ProtocolStubs.Schema.Dependency
import ProtocolStubs.Script.Client
import ProtocolStubs.Script.Record

set_option autoImplicit false

namespace ProtocolStubs.Script

open ProtocolStubs.Layout

def padded (known : List String) : Nat → String → String
  | 0, name => name
  | steps + 1, name => if name ∈ known then padded known steps (name ++ "_") else name

-- The transport's type often shares its name with a domain, so every file imports it under an alias
-- that no generated domain has. Among more names than are known one is free, so as many steps as names
-- are known suffice.
def transportAlias (transportType : String) (known : List String) : String :=
  padded known known.length (transportType ++ "Handle")

def indent : String := Code.spaces 2

def header : List Code :=
  [.line "// @generated by cdp-codegen",
   .line "// DO NOT EDIT - regenerate with `cargo xtask codegen --typescript`",
   .blank]

def transportImport (options : Options) (transport : String) : Code :=
  .line ("import \x7b " ++ options.transportType ++ " as " ++ transport ++ " \x7d from " ++
    literal options.transportModule ++ ";")

def domainImport (domain : String) : Code :=
  .line ("import \x7b " ++ domain ++ " \x7d from " ++ literal ("./" ++ domain) ++ ";")

def importedDomains (d : Domain) (known : List String) : List String :=
  d.dependencyNames.filter fun name => name ∈ known

def domainCode (d : Domain) (known : List String) (options : Options) : List Code :=
  let client := Client.ofDomain (transportAlias options.transportType known) d
  header ++
    [transportImport options client.transport] ++
    (if d.hasEvents then [.line "import \x7b EventEmitter \x7d from 'events';"] else []) ++
    (if d.commands.isEmpty then [] else
      [.line "import \x7b ProtocolError \x7d from './ProtocolError';"]) ++
    (importedDomains d known).map domainImport ++
    [.blank] ++
    (if d.hasEvents then client.eventsCode ++ [.blank] else []) ++
    client.code ++
    [.blank] ++
    (DataSection.ofDomain d).code

def slotField (domain : String) : Code := .line ("private _" ++ domain ++ "?: " ++ domain ++ ";")

def accessorCode (domain : String) : List Code :=
  .blank :: Code.block ("get " ++ domain ++ "(): " ++ domain)
    (Code.block ("if (this._" ++ domain ++ " === undefined)")
        [.line ("this._" ++ domain ++ " = new " ++ domain ++ "(this.dbg);")] ++
      [.line ("return this._" ++ domain ++ ";")])

def indexBody (names : List String) (options : Options) : List Code :=
  let transport := transportAlias options.transportType names
  [transportImport options transport] ++
    names.map domainImport ++
    [.blank] ++
    names.map (fun name => .line ("export * from " ++ literal ("./" ++ name) ++ ";")) ++
    [.line "export \x7b ProtocolError \x7d from './ProtocolError';", .blank,
     .line "/** Entry point exposing every protocol domain over one debugger handle. */"] ++
    Code.block ("export class " ++ options.facadeName)
      (names.map slotField ++
        (if names.isEmpty then [] else [.blank]) ++
        Code.block ("constructor(private readonly dbg: " ++ transport ++ ")")
          (Code.block "if (!dbg.isAttached())" [.line "dbg.attach();"]) ++
        names.flatMap accessorCode)

def errorBody : List Code :=
  [.line "/** Error reported by the remote end for a command. */"] ++
    Code.block "export class ProtocolError extends Error"
      (Code.block
        ("constructor(message: string, public readonly code: number, " ++
          "public readonly method: string)")
        [.line "super(message);", .line "this.name = 'ProtocolError';"])

def domainText (d : Domain) (known : List String) (options : Options) : String :=
  Code.text indent (domainCode d known options)

def files (domains : List Domain) (options : Options) : List GeneratedFile :=
  let names := domains.map Domain.name
  domains.map (fun d => .ofSource (d.name ++ ".ts") (domainText d names options)) ++
    [.ofSource "index.ts" (Code.text indent (header ++ indexBody names options)),
     .ofSource "ProtocolError.ts" (Code.text indent (header ++ errorBody))]

end ProtocolStubs.Script
