import ProtocolStubs.Crate.Identifier
import ProtocolStubs.Crate.Item
import ProtocolStubs.Schema.Document

set_option autoImplicit false

namespace ProtocolStubs.Crate

open ProtocolStubs.Layout

structure Slot where
  wire : String
deriving DecidableEq, Repr

namespace Slot

def module (s : Slot) : String := identifier s.wire

def client (s : Slot) : String := s.module ++ "::" ++ typeName s.wire ++ "<T>"

def field (runtime : String) (s : Slot) : String × String :=
  (s.module, runtime ++ "::DomainSlot<" ++ s.client ++ ">")

def start (runtime : String) (s : Slot) : Code :=
  .line ("    " ++ s.module ++ ": " ++ runtime ++ "::DomainSlot::new(),")

def accessor (runtime : String) (s : Slot) : Function where
  doc := "The `" ++ s.wire ++ "` domain, constructed on first access."
  isAsync := false
  name := s.module
  takesSelf := true
  args := []
  result := "Result<&" ++ s.client ++ ", " ++ runtime ++ "::SessionError>"
  body := [.line ("self." ++ s.module ++ ".get_or_init(&self.transport)")]

end Slot

structure Facade where
  name : String
  slots : List Slot
deriving DecidableEq, Repr

namespace Facade

def ofDomains (name : String) (domains : List Domain) : Facade :=
  ⟨name, domains.map fun d => ⟨d.name⟩⟩

def head (runtime : String) (f : Facade) : Head := ⟨f.name, runtime ++ "::Transport"⟩

def construction (runtime : String) (f : Facade) : Function where
  doc := "Wrap `transport`, attaching it first if it is not attached yet."
  isAsync := false
  name := "new"
  takesSelf := false
  args := [("transport", "::std::sync::Arc<T>")]
  result := "Result<Self, " ++ runtime ++ "::SessionError>"
  body :=
    [.line (runtime ++ "::attach_transport(&*transport)?;"), .line "Ok(Self \x7b",
     .line "    transport,"] ++ f.slots.map (Slot.start runtime) ++ [.line "\x7d)"]

def transport : Function where
  doc := ""
  isAsync := false
  name := "transport"
  takesSelf := true
  args := []
  result := "&::std::sync::Arc<T>"
  body := [.line "&self.transport"]

def items (runtime : String) (f : Facade) : List Item :=
  [.struct "Entry point exposing every protocol domain over one transport." (f.head runtime)
    (("transport", "::std::sync::Arc<T>") :: f.slots.map (Slot.field runtime)),
   .impl (f.head runtime)
    (f.construction runtime :: transport :: f.slots.map (Slot.accessor runtime))]

def text (runtime : String) (f : Facade) : Except ItemError String :=
  Item.textAll (f.items runtime)

end Facade

def errorExports (runtime : String) : String :=
  "//! Errors raised by generated clients.\n\npub use " ++ runtime ++
    "::\x7bCallError, PayloadError, ProtocolError, SessionError, TransportError\x7d;\n"

end ProtocolStubs.Crate
