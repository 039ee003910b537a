import ProtocolStubs.Crate.Identifier
import ProtocolStubs.Crate.Item
import ProtocolStubs.Layout.Comment
import ProtocolStubs.Schema.Name
import ProtocolStubs.Schema.Notes

set_option autoImplicit false

namespace ProtocolStubs.Crate

open ProtocolStubs.Layout

structure Argument where
  type : String
  omittable : Bool
deriving DecidableEq, Repr

structure Method where
  doc : String
  name : String
  wire : String
  argument : Option Argument
  result : Option String
deriving DecidableEq, Repr

-- A listener of a signal takes no payload.
structure Subscription where
  doc : String
  name : String
  once : Bool
  wire : String
  payload : Option String
deriving DecidableEq, Repr

structure Client where
  doc : String
  name : String
  wire : String
  methods : List Method
  subscriptions : List Subscription
deriving DecidableEq, Repr

def docText (n : Notes) : String := Text.joinWith "\n" (n.lines Comment.slashTag)

namespace Argument

def ofCommand (c : Command) : Option Argument :=
  let type := "params::" ++ typeName c.name
  match c.argumentForm with
  | .none => none
  | .required => some ⟨type, false⟩
  | .omittable => some ⟨type, true⟩

def typeText (a : Argument) : String :=
  if a.omittable then "Option<&" ++ a.type ++ ">" else "&" ++ a.type

def sent (a : Argument) : String := if a.omittable then "params" else "Some(params)"

end Argument

namespace Method

def ofCommand (c : Command) : Method where
  doc := docText c.notes
  name := identifier c.name
  wire := c.name
  argument := Argument.ofCommand c
  result := if c.hasResults then some ("results::" ++ typeName c.name) else none

def call (m : Method) : String :=
  let wire := Text.quote m.wire
  match m.result, m.argument with
  | some _, some a => "self.client.invoke(" ++ wire ++ ", " ++ a.sent ++ ").await"
  | some _, none => "self.client.fetch(" ++ wire ++ ").await"
  | none, some a => "self.client.send(" ++ wire ++ ", " ++ a.sent ++ ").await.map(|_| ())"
  | none, none => "self.client.call(" ++ wire ++ ", None).await.map(|_| ())"

def function (runtime : String) (m : Method) : Function where
  doc := m.doc
  isAsync := true
  name := m.name
  takesSelf := true
  args := m.argument.toList.map fun a => ("params", a.typeText)
  result := "Result<" ++ m.result.getD "()" ++ ", " ++ runtime ++ "::CallError>"
  body := [.line m.call]

end Method

namespace Subscription

def ofEvent (once : Bool) (e : Event) : Subscription where
  doc := docText e.notes
  name := identifier ((if once then "once_" else "on_") ++ e.name)
  once := once
  wire := e.name
  payload := if e.isSignal then none else some ("events::" ++ typeName e.name)

def call (s : Subscription) : String :=
  let method := if s.once then "once" else "on"
  let wire := Text.quote s.wire
  match s.payload with
  | none => "self.client." ++ method ++ "(" ++ wire ++ ", move |_| listener())"
  | some _ => "self.client." ++ method ++ "_typed(" ++ wire ++ ", listener)"

def function (runtime : String) (s : Subscription) : Function where
  doc := s.doc
  isAsync := false
  name := s.name
  takesSelf := true
  args := [("listener", "impl Fn(" ++ s.payload.getD "" ++ ") + Send + Sync + \x27static")]
  result := runtime ++ "::ListenerId"
  body := [.line s.call]

end Subscription

namespace Client

def ofDomain (d : Domain) : Client where
  doc := docText d.notes
  name := typeName d.name
  wire := d.name
  methods := d.commands.map Method.ofCommand
  subscriptions := d.eventList.flatMap fun e => [.ofEvent false e, .ofEvent true e]

def hasEvents (c : Client) : Bool := !c.subscriptions.isEmpty

def head (runtime : String) (c : Client) : Head := ⟨c.name, runtime ++ "::Transport"⟩

def construction (runtime : String) (c : Client) : List Code :=
  [.line ("impl<T: " ++ runtime ++ "::Transport> " ++ runtime ++ "::Domain<T> for " ++ c.name ++
    "<T> \x7b"),
   .line ("    const NAME: &\x27static str = " ++ Text.quote c.wire ++ ";"),
   .blank,
   .line ("    fn new(transport: ::std::sync::Arc<T>) -> Result<Self, " ++ runtime ++
    "::SessionError> \x7b"),
   .line "        Ok(Self \x7b",
   .line ("            client: " ++ runtime ++ "::DomainClient::new(transport, Self::NAME, " ++
    (if c.hasEvents then "true" else "false") ++ ")?,"),
   .line "        \x7d)",
   .line "    \x7d",
   .line "\x7d"]

def unsubscribe (runtime : String) : Function where
  doc := "Remove a listener added by one of the `on_*` / `once_*` methods."
  isAsync := false
  name := "off"
  takesSelf := true
  args := [("id", runtime ++ "::ListenerId")]
  result := "bool"
  body := [.line "self.client.off(id)"]

def functions (runtime : String) (c : Client) : List Function :=
  c.methods.map (Method.function runtime) ++
    c.subscriptions.map (Subscription.function runtime) ++
    if c.hasEvents then [unsubscribe runtime] else []

def items (runtime : String) (c : Client) : List Item :=
  [.struct c.doc (c.head runtime) [("client", runtime ++ "::DomainClient<T>")],
   .rows (c.construction runtime),
   .impl (c.head runtime) (c.functions runtime)]

def text (runtime : String) (c : Client) : Except ItemError String :=
  Item.textAll (c.items runtime)

end Client

end ProtocolStubs.Crate
