set_option autoImplicit false

namespace ProtocolStubs.Payload

-- The records that the stubs exchange: types, parameters, results and event payloads of the domains
-- `Page`, `Runtime`, `Debugger` and `Schema`, and the error of a reply.
inductive Record where
  | frame
  | frameTree
  | navigateParams
  | reloadParams
  | evaluateOnFrameParams
  | getFrameTreeResult
  | navigateResult
  | printToPdfResult
  | evaluateOnFrameResult
  | loadEventFired
  | frameNavigated
  | remoteObject
  | evaluateParams
  | evaluateResult
  | removeBreakpointParams
  | getDomainsResult
  | replyError
deriving DecidableEq, Repr

inductive Kind where
  | text
  | flag
  | word
  | real
  | any
  | list (item : Kind)
  | record (r : Record)
deriving DecidableEq, Repr

-- Whether a field may be absent, and how an absent one is written: left out, or as null.
inductive Presence where
  | required
  | omitted
  | nullable
deriving DecidableEq, Repr

structure Field where
  key : String
  kind : Kind
  presence : Presence
deriving DecidableEq, Repr

def need (key : String) (kind : Kind) : Field := ⟨key, kind, .required⟩

def may (key : String) (kind : Kind) : Field := ⟨key, kind, .omitted⟩

namespace Record

def fields : Record → List Field
  | .frame => [need "id" .text, may "parentId" .text, need "url" .text]
  | .frameTree =>
    [need "frame" (.record .frame), may "childFrames" (.list (.record .frameTree))]
  | .navigateParams => [need "url" .text, may "referrer" .text]
  | .reloadParams => [may "ignoreCache" .flag, may "scriptToEvaluateOnLoad" .text]
  | .evaluateOnFrameParams => [need "frameId" .text, need "object" (.record .remoteObject)]
  | .getFrameTreeResult => [need "frameTree" (.record .frameTree)]
  | .navigateResult => [need "frameId" .text, may "errorText" .text]
  | .printToPdfResult => [need "data" .text]
  | .evaluateOnFrameResult => [need "results" (.list (.record .remoteObject))]
  | .loadEventFired => [need "timestamp" .real]
  | .frameNavigated => [need "frame" (.record .frame)]
  | .remoteObject => [need "type" .text, may "value" .any, may "objectId" .text]
  | .evaluateParams => [need "expression" .text, may "returnByValue" .flag]
  | .evaluateResult => [need "result" (.record .remoteObject)]
  | .removeBreakpointParams => [need "breakpointId" .text]
  | .getDomainsResult => [need "domains" (.list .text)]
  | .replyError =>
    [⟨"message", .text, .nullable⟩, ⟨"code", .word, .nullable⟩, ⟨"data", .text, .nullable⟩]

def path : Record → String
  | .frame => "page.types.Frame"
  | .frameTree => "page.types.FrameTree"
  | .navigateParams => "page.params.Navigate"
  | .reloadParams => "page.params.Reload"
  | .evaluateOnFrameParams => "page.params.EvaluateOnFrame"
  | .getFrameTreeResult => "page.results.GetFrameTree"
  | .navigateResult => "page.results.Navigate"
  | .printToPdfResult => "page.results.PrintToPdf"
  | .evaluateOnFrameResult => "page.results.EvaluateOnFrame"
  | .loadEventFired => "page.events.LoadEventFired"
  | .frameNavigated => "page.events.FrameNavigated"
  | .remoteObject => "runtime.types.RemoteObject"
  | .evaluateParams => "runtime.params.Evaluate"
  | .evaluateResult => "runtime.results.Evaluate"
  | .removeBreakpointParams => "debugger.params.RemoveBreakpoint"
  | .getDomainsResult => "schema.results.GetDomains"
  | .replyError => "ReplyError"

def all : List Record :=
  [.frame, .frameTree, .navigateParams, .reloadParams, .evaluateOnFrameParams,
   .getFrameTreeResult, .navigateResult, .printToPdfResult, .evaluateOnFrameResult,
   .loadEventFired, .frameNavigated, .remoteObject, .evaluateParams, .evaluateResult,
   .removeBreakpointParams, .getDomainsResult, .replyError]

end Record

def Kind.ofPath? (path : String) : Option Kind :=
  if path = "any" then some .any
  else (Record.all.find? fun r => r.path == path).map .record

end ProtocolStubs.Payload
