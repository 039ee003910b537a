import ProtocolStubs.Session.Listener
import ProtocolStubs.Session.Operations

set_option autoImplicit false

namespace ProtocolStubs.Stubs

open ProtocolStubs.Payload (Kind Record)

structure StubDomain where
  accessor : String
  wire : String
  hasEvents : Bool
deriving DecidableEq, Repr

structure StubCommand where
  domain : StubDomain
  name : String
  params : Option Record
  result : Option Record
deriving DecidableEq, Repr

structure StubEvent where
  domain : StubDomain
  name : String
  payload : Option Record
deriving DecidableEq, Repr

def page : StubDomain := ⟨"page", "Page", true⟩

def runtime : StubDomain := ⟨"runtime", "Runtime", true⟩

def debugger : StubDomain := ⟨"debugger", "Debugger", true⟩

def schema : StubDomain := ⟨"schema", "Schema", false⟩

def domains : List StubDomain := [runtime, debugger, page, schema]

def commands : List StubCommand :=
  [⟨page, "enable", none, none⟩,
   ⟨page, "getFrameTree", none, some .getFrameTreeResult⟩,
   ⟨page, "navigate", some .navigateParams, some .navigateResult⟩,
   ⟨page, "reload", some .reloadParams, none⟩,
   ⟨page, "printToPDF", none, some .printToPdfResult⟩,
   ⟨page, "clearDeviceOrientationOverride", none, none⟩,
   ⟨page, "evaluateOnFrame", some .evaluateOnFrameParams, some .evaluateOnFrameResult⟩,
   ⟨runtime, "evaluate", some .evaluateParams, some .evaluateResult⟩,
   ⟨runtime, "enable", none, none⟩,
   ⟨debugger, "resume", none, none⟩,
   ⟨debugger, "removeBreakpoint", some .removeBreakpointParams, none⟩,
   ⟨schema, "getDomains", none, some .getDomainsResult⟩]

def events : List StubEvent :=
  [⟨page, "loadEventFired", some .loadEventFired⟩,
   ⟨page, "interstitialShown", none⟩,
   ⟨page, "frameNavigated", some .frameNavigated⟩,
   ⟨debugger, "resumed", none⟩,
   ⟨runtime, "executionContextsCleared", none⟩]

namespace StubDomain

def owner (d : StubDomain) : Owner := .facade d.wire

def access {κ : Type} (d : StubDomain) : Session.Op κ := .access d.owner d.wire d.hasEvents

end StubDomain

namespace StubCommand

def path (c : StubCommand) : String := qualified c.domain.accessor c.name

-- Only typed parameters and results go through a codec.
def request (c : StubCommand) (params : Option Payload.Datum) : Session.Request :=
  match c.params, c.result with
  | none, none => .call none
  | none, some result => .fetch (.record result)
  | some _, none => .send params
  | some _, some result => .invoke params (.record result)

end StubCommand

namespace StubEvent

def path (e : StubEvent) : String := qualified e.domain.accessor e.name

def form (e : StubEvent) : Form :=
  match e.payload with
  | some record => .typed (.record record)
  | none => .signal

end StubEvent

def domain? (accessor : String) : Option StubDomain :=
  domains.find? fun d => d.accessor == accessor

def command? (path : String) : Option StubCommand := commands.find? fun c => c.path == path

def event? (path : String) : Option StubEvent := events.find? fun e => e.path == path

end ProtocolStubs.Stubs
