import ProtocolStubs.Layout.Tidy
import ProtocolStubs.Schema.Filter

set_option autoImplicit false

namespace ProtocolStubs

inductive Target where
  | typeScript
  | rust
deriving DecidableEq, Repr

structure Options where
  target : Target := .typeScript
  -- Name of the class or struct that gathers every domain.
  facadeName : String := "Protocol"
  -- Module that the TypeScript transport type is imported from.
  transportModule : String := "electron"
  transportType : String := "Debugger"
  -- Path of the runtime that generated Rust builds on.
  runtimeCrate : String := "cdp_session"
  filter : Filter := .none
deriving DecidableEq, Repr

structure GeneratedFile where
  path : String
  contents : String
deriving DecidableEq, Repr

namespace GeneratedFile

def ofSource (path source : String) : GeneratedFile := ⟨path, Layout.tidy source⟩

end GeneratedFile

end ProtocolStubs
