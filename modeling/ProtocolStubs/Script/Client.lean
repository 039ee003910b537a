import ProtocolStubs.Layout.Comment
import ProtocolStubs.Schema.Name
import ProtocolStubs.Schema.Notes
import ProtocolStubs.Script.Literal

set_option autoImplicit false

namespace ProtocolStubs.Script

open ProtocolStubs.Layout

structure Overload where
  doc : List String
  event : String
  payload : Option String
deriving DecidableEq, Repr

-- The parameter of a method, if any, and whether leaving it out sends the empty object.
structure Argument where
  type : String
  omittable : Bool
deriving DecidableEq, Repr

structure Method where
  doc : List String
  name : String
  wire : String
  argument : Option Argument
  result : Option String
deriving DecidableEq, Repr

structure Client where
  doc : List String
  name : String
  transport : String
  overloads : List Overload
  methods : List Method
deriving DecidableEq, Repr

namespace Overload

def ofEvent (domain : String) (e : Event) : Overload where
  doc := e.notes.lines Comment.starTag
  event := e.name
  payload := if e.isSignal then none else some (domain ++ ".EventParams." ++ e.name)

def listener (o : Overload) : String :=
  match o.payload with
  | none => "() => void"
  | some type => "(params: " ++ type ++ ") => void"

def code (method : String) (o : Overload) : Code :=
  .line (method ++ "(event: " ++ literal o.event ++ ", listener: " ++ o.listener ++ "): void;")

end Overload

namespace Argument

def ofCommand (domain : String) (c : Command) : Option Argument :=
  let type := domain ++ ".Params." ++ c.name
  match c.argumentForm with
  | .none => none
  | .required => some ⟨type, false⟩
  | .omittable => some ⟨type, true⟩

def text (a : Argument) : String :=
  "params: " ++ a.type ++ (if a.omittable then " = \x7b\x7d" else "")

end Argument

namespace Method

def ofCommand (domain : String) (c : Command) : Method where
  doc := c.notes.lines Comment.starTag
  name := c.name
  wire := qualified domain c.name
  argument := Argument.ofCommand domain c
  result := if c.hasResults then some (domain ++ ".Result." ++ c.name) else none

def sent (m : Method) : String := if m.argument.isSome then "params" else "\x7b\x7d"

def resultText (m : Method) : String := m.result.getD "void"

def settle (m : Method) : String :=
  match m.result with
  | some type => "resolve(result as " ++ type ++ ");"
  | none => "resolve();"

def replyCode (m : Method) : List Code :=
  [.line "try \x7b",
   .nest [.line ("this.assertError(error, " ++ literal m.wire ++ ");")],
   .line "\x7d catch (e) \x7b",
   .nest [.line "reject(e);", .line "return;"],
   .line "\x7d",
   .line m.settle]

def code (m : Method) : List Code :=
  Comment.star m.doc ++
    Code.block
      (m.name ++ "(" ++ (m.argument.elim "" Argument.text) ++ "): Promise<" ++ m.resultText ++ ">")
      (Code.between
        ("return new Promise<" ++ m.resultText ++ ">((resolve, reject) => \x7b") "\x7d);"
        (Code.between
          ("this.dbg.sendCommand(" ++ literal m.wire ++ ", " ++ m.sent ++
            ", (error: any, result: any) => \x7b") "\x7d);"
          m.replyCode))

end Method

namespace Client

def ofDomain (transport : String) (d : Domain) : Client where
  doc := d.notes.lines Comment.starTag
  name := d.name
  transport := transport
  overloads := d.eventList.map (Overload.ofEvent d.name)
  methods := d.commands.map (Method.ofCommand d.name)

def hasEvents (c : Client) : Bool := !c.overloads.isEmpty

def eventsName (c : Client) : String := c.name ++ "Events"

def eventsCode (c : Client) : List Code :=
  Code.block ("export interface " ++ c.eventsName)
    (["on", "once"].flatMap fun method =>
      c.overloads.flatMap fun o => Comment.star o.doc ++ [o.code method])

-- Messages with a malformed name are dropped, those of the own domain emitted.
def routeCode (c : Client) : List Code :=
  Code.between "dbg.on('message', (_event: unknown, method: string, params: unknown) => \x7b"
    "\x7d);"
    ([.line "const separator = method.indexOf('.');"] ++
      Code.block
        ("if (separator <= 0 || separator === method.length - 1 || " ++
          "method.indexOf('.', separator + 1) !== -1)")
        [.line "return;"] ++
      Code.block ("if (method.slice(0, separator) === " ++ literal c.name ++ ")")
        [.line "this.events.emit(method.slice(separator + 1), params);"])

def constructorCode (c : Client) : List Code :=
  Code.block ("constructor(private readonly dbg: " ++ c.transport ++ ")")
    (Code.block "if (!dbg.isAttached())"
        [.line ("throw new Error(" ++
          literal ("Cannot create " ++ c.name ++ " domain: debugger is not attached") ++ ");")] ++
      if c.hasEvents then .blank :: c.routeCode else [])

def subscriptionCode (c : Client) (method : String) : List Code :=
  c.overloads.map (Overload.code method) ++
    Code.block (method ++ "(event: string, listener: (...args: any[]) => void): void")
      [.line ("this.events." ++ method ++ "(event, listener);")]

-- A reply is an error when it carries both a message and a numeric code.
def assertErrorCode : List Code :=
  Code.block "private assertError(error: any, method: string): void"
    (Code.block "if (error && error.message !== undefined && typeof error.code === 'number')"
      [.line "throw new ProtocolError(error.message, error.code, method);"])

def bodyCode (c : Client) : List Code :=
  (if c.hasEvents then
      [.line "private readonly events = new EventEmitter();", .blank] else []) ++
    c.constructorCode ++
    (if c.hasEvents then
      .blank :: c.subscriptionCode "on" ++ .blank :: c.subscriptionCode "once" else []) ++
    c.methods.flatMap (fun m => .blank :: m.code) ++
    (if c.methods.isEmpty then [] else .blank :: assertErrorCode)

def code (c : Client) : List Code :=
  Comment.star c.doc ++
    Code.block
      ("export class " ++ c.name ++ (if c.hasEvents then " implements " ++ c.eventsName else ""))
      c.bodyCode

end Client

end ProtocolStubs.Script
