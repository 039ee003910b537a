import ProtocolStubs.Proofs.Script.Literal
import ProtocolStubs.Proofs.Script.Sections

set_option autoImplicit false

namespace ProtocolStubs.Script

open Layout
open Text (OneLine fixed_line)

def payloadName (domain : String) (kind : PayloadKind) (member : String) : String :=
  domain ++ "." ++ space kind ++ "." ++ member

section Command

variable (domain command : String)

def argumentText : ArgumentForm → String
  | .none => ""
  | .required => "params: " ++ payloadName domain .params command
  | .omittable => "params: " ++ payloadName domain .params command ++ " = \x7b\x7d"

def sentText : ArgumentForm → String
  | .none => "\x7b\x7d"
  | _ => "params"

def resultText (answers : Bool) : String :=
  if answers then payloadName domain .results command else "void"

def settleText (answers : Bool) : String :=
  if answers then "resolve(result as " ++ payloadName domain .results command ++ ");" else "resolve();"

def callLines (form : ArgumentForm) (answers : Bool) (wire : String) : List Piece :=
  [(1, command ++ "(" ++ argumentText domain command form ++ "): Promise<" ++
      resultText domain command answers ++ ">" ++ " \x7b"),
   (2, "return new Promise<" ++ resultText domain command answers ++ ">((resolve, reject) => \x7b"),
   (3, "this.dbg.sendCommand(" ++ wire ++ ", " ++ sentText form ++ ", (error: any, result: any) => \x7b"),
   (4, "try \x7b"),
   (5, "this.assertError(error, " ++ wire ++ ");"),
   (4, "\x7d catch (e) \x7b"),
   (5, "reject(e);"),
   (5, "return;"),
   (4, "\x7d"),
   (4, settleText domain command answers),
   (3, "\x7d);"),
   (2, "\x7d);"),
   (1, "\x7d")]

end Command

def listenText (domain event method : String) (carries : Bool) (wire : String) : String :=
  method ++ "(event: " ++ wire ++ ", listener: " ++
    (if carries then "(params: " ++ payloadName domain .events event ++ ") => void" else "() => void") ++
    "): void;"

def subscribeLines (method : String) : List Piece :=
  [(1, method ++ "(event: string, listener: (...args: any[]) => void): void" ++ " \x7b"),
   (2, "this.events." ++ method ++ "(event, listener);"),
   (1, "\x7d")]

section Spelling

variable (domain : String)

theorem argument_text (c : Command) : (Method.ofCommand domain c).argument.elim "" Argument.text =
    argumentText domain c.name c.argumentForm := by
  rw [Method.ofCommand, Argument.ofCommand]
  cases c.argumentForm with
  | none => rfl
  | required => exact String.toList_injective (by simp [Argument.text, argumentText, payloadName, space])
  | omittable => exact String.toList_injective (by simp [Argument.text, argumentText, payloadName, space])

theorem sent_text (c : Command) : (Method.ofCommand domain c).sent = sentText c.argumentForm := by
  rw [Method.sent, Method.ofCommand, Argument.ofCommand]
  cases c.argumentForm <;> rfl

theorem result_text (c : Command) :
    (Method.ofCommand domain c).resultText = resultText domain c.name c.hasResults := by
  rw [Method.resultText, Method.ofCommand, resultText]
  cases c.hasResults with
  | false => rfl
  | true => exact String.toList_injective (by simp [payloadName, space])

theorem settle_text (c : Command) :
    (Method.ofCommand domain c).settle = settleText domain c.name c.hasResults := by
  rw [Method.settle, Method.ofCommand, settleText]
  cases c.hasResults with
  | false => rfl
  | true => exact String.toList_injective (by simp [payloadName, space])

theorem call_pieces (c : Command) : Code.piecesAll 1 (Method.ofCommand domain c).code =
    Code.piecesAll 1 (Comment.star (Method.ofCommand domain c).doc) ++
      callLines domain c.name c.argumentForm c.hasResults (literal (qualified domain c.name)) := by
  rw [Method.code, Code.pieces_all_append, argument_text, result_text, sent_text, Method.replyCode,
    settle_text]
  simp only [Code.block, Code.between, Code.piecesAll, Code.pieces, callLines, List.cons_append,
    List.nil_append, List.append_nil, Nat.reduceAdd]
  rfl

theorem listen_code (e : Event) (method : String) : (Overload.ofEvent domain e).code method =
    .line (listenText domain e.name method (!e.isSignal) (literal e.name)) := by
  rw [Overload.code, Overload.listener, Overload.ofEvent, listenText]
  cases e.isSignal with
  | true => rfl
  | false => exact congrArg Code.line (String.toList_injective (by simp [payloadName, space]))

end Spelling

section Rows

variable (domain : String)

theorem payload_name_line (kind : PayloadKind) (member : String) (domainLine : OneLine domain)
    (memberLine : OneLine member) : OneLine (payloadName domain kind member) := by
  have inner : OneLine (space kind) := by cases kind <;> exact fixed_line (by decide)
  simp [OneLine, payloadName, domainLine, inner, memberLine]

theorem call_rows (command : String) (form : ArgumentForm) (answers : Bool) (wire : String)
    (domainLine : OneLine domain) (commandLine : OneLine command) (wireLine : OneLine wire) :
    rowsOf indent (callLines domain command form answers wire) =
      rowsAt indent (callLines domain command form answers wire) := by
  have params := payload_name_line domain .params command domainLine commandLine
  have results := payload_name_line domain .results command domainLine commandLine
  have argument : OneLine (argumentText domain command form) := by
    cases form <;> simp [OneLine, argumentText, params]
  have sent : OneLine (sentText form) := by cases form <;> exact fixed_line (by decide)
  have result : OneLine (resultText domain command answers) := by
    cases answers with
    | false => exact fixed_line (by decide)
    | true => exact results
  have settled : Row (settleText domain command answers) := by
    cases answers with
    | false => exact fixed_row (by decide)
    | true =>
      exact row_append _ _ ((one_line_append _ _).mpr ⟨fixed_line (by decide), results⟩)
        (fixed_row (by decide))
  apply rows_each
  simp only [callLines, List.forall_mem_cons, List.not_mem_nil, false_implies, implies_true, and_true]
  refine ⟨row_append _ _ ?_ (fixed_row (by decide)), row_append _ _ ?_ (fixed_row (by decide)),
    row_append _ _ ?_ (fixed_row (by decide)), fixed_row (by decide),
    row_append _ _ ?_ (fixed_row (by decide)), fixed_row (by decide), fixed_row (by decide),
    fixed_row (by decide), fixed_row (by decide), settled, fixed_row (by decide),
    fixed_row (by decide), fixed_row (by decide)⟩
  · simp [OneLine, commandLine, argument, result]
  · simp [OneLine, result]
  · simp [OneLine, wireLine, sent]
  · simp [OneLine, wireLine]

theorem listen_row (event method wire : String) (carries : Bool) (domainLine : OneLine domain)
    (eventLine : OneLine event) (methodLine : OneLine method) (wireLine : OneLine wire) :
    Row (listenText domain event method carries wire) := by
  have payload := payload_name_line domain .events event domainLine eventLine
  refine row_append _ _ ?_ (fixed_row (by decide))
  cases carries <;> simp [OneLine, methodLine, wireLine, payload]

end Rows

section Files

variable (d : Domain) (known : List String) (options : Options)

def classHeader : String :=
  "export class " ++ d.name ++ (if d.hasEvents then " implements " ++ d.name ++ "Events" else "")

theorem class_header_line (line : OneLine d.name) : OneLine (classHeader d) := by
  unfold classHeader
  rw [one_line_append]
  refine ⟨(one_line_append _ _).mpr ⟨fixed_line (by decide), line⟩, ?_⟩
  split
  · rw [one_line_append, one_line_append]
    exact ⟨⟨fixed_line (by decide), line⟩, fixed_line (by decide)⟩
  · exact fixed_line (by decide)

theorem client_has_events : (client d known options).hasEvents = d.hasEvents := by
  rw [Client.hasEvents, client, Client.ofDomain, List.isEmpty_map]
  rfl

theorem class_header : classHeader d = "export class " ++ (client d known options).name ++
    (if (client d known options).hasEvents then " implements " ++ (client d known options).eventsName
      else "") := by
  have name : (client d known options).name = d.name := rfl
  unfold classHeader
  rw [client_has_events, Client.eventsName, name]
  cases d.hasEvents with
  | false => rfl
  | true => exact congrArg (("export class " ++ d.name) ++ ·) String.append_assoc

theorem class_encloses (line : OneLine d.name) : Encloses indent 0 (classHeader d)
    (rowsOf indent (Code.piecesAll 1 (client d known options).bodyCode))
    (rowsOf indent (domainPieces d known options)) := by
  apply encloses_within indent 0 _ _ _ _ (block_encloses indent 0 _ _ (class_header_line d line))
  refine List.IsInfix.trans (rows_part indent _ _ ?_) (rows_part indent _ _ (client_part d known options))
  rw [Client.code, Code.pieces_all_append, ← class_header]
  exact (List.suffix_append _ _).isInfix

def Client.overloadCode (c : Client) : List Code :=
  ["on", "once"].flatMap fun method => c.overloads.flatMap fun o => Comment.star o.doc ++ [o.code method]

theorem events_encloses (line : OneLine d.name) (given : d.hasEvents = true) :
    Encloses indent 0 ("export interface " ++ d.name ++ "Events")
      (rowsOf indent (Code.piecesAll 1 (client d known options).overloadCode))
      (rowsOf indent (domainPieces d known options)) := by
  have header : OneLine ("export interface " ++ d.name ++ "Events") := by simp [OneLine, line]
  apply encloses_within indent 0 _ _ _ _ (block_encloses indent 0 _ _ header)
  have block : (client d known options).eventsCode =
      Code.block ("export interface " ++ d.name ++ "Events") (client d known options).overloadCode := by
    rw [String.append_assoc]
    rfl
  rw [← block]
  exact rows_part indent _ _ (events_part d known options given)

theorem method_part (c : Command) (member : c ∈ d.commands) :
    callLines d.name c.name c.argumentForm c.hasResults (literal (qualified d.name c.name)) <:+:
      Code.piecesAll 1 (client d known options).bodyCode := by
  have own : (Method.ofCommand d.name c).code <:+: (client d known options).bodyCode := by
    have among := infix_flat_map (client d known options).methods (Method.ofCommand d.name c)
      (fun m => Code.blank :: m.code) (List.mem_map_of_mem member)
    refine ((List.suffix_cons Code.blank _).isInfix.trans among).trans ?_
    rw [Client.bodyCode]
    exact List.infix_append _ _ _
  refine List.IsInfix.trans ?_ (Code.pieces_all_part 1 _ _ own)
  rw [call_pieces]
  exact (List.suffix_append _ _).isInfix

section Event

variable (e : Event) (method : String) (member : e ∈ d.eventList) (either : method ∈ ["on", "once"])

include member either

theorem subscription_part :
    (client d known options).subscriptionCode method <:+: (client d known options).bodyCode := by
  have given : (client d known options).hasEvents = true := by
    rw [client_has_events, Domain.hasEvents, List.isEmpty_eq_false_iff.mpr (List.ne_nil_of_mem member)]
    rfl
  rw [Client.bodyCode, given, if_pos rfl, if_pos rfl]
  refine List.IsInfix.trans ?_ ((List.infix_append _ _ _).trans (List.prefix_append _ _).isInfix)
  simp only [List.mem_cons, List.not_mem_nil, or_false] at either
  rcases either with rfl | rfl
  · exact List.infix_append [Code.blank] _ _
  · exact (List.suffix_cons Code.blank _).isInfix.trans (List.suffix_append _ _).isInfix

theorem overload_part : (1, listenText d.name e.name method (!e.isSignal) (literal e.name)) ∈
    Code.piecesAll 1 (client d known options).bodyCode := by
  have own : (Overload.ofEvent d.name e).code method ∈ (client d known options).subscriptionCode method :=
    List.mem_append_left _ (List.mem_map_of_mem (List.mem_map_of_mem member))
  apply Code.line_piece
  rw [← listen_code]
  exact (subscription_part d known options e method member either).subset own

theorem subscribe_part :
    subscribeLines method <:+: Code.piecesAll 1 (client d known options).bodyCode := by
  refine List.IsInfix.trans ?_
    (Code.pieces_all_part 1 _ _ (subscription_part d known options e method member either))
  rw [Client.subscriptionCode, Code.pieces_all_append, Code.block, Code.pieces_between]
  exact (List.suffix_append _ (subscribeLines method)).isInfix

theorem interface_part : (1, listenText d.name e.name method (!e.isSignal) (literal e.name)) ∈
    Code.piecesAll 1 (client d known options).overloadCode := by
  apply Code.line_piece
  rw [← listen_code]
  refine List.mem_flatMap.mpr ⟨method, either, List.mem_flatMap.mpr ⟨_, List.mem_map_of_mem member, ?_⟩⟩
  exact List.mem_append_right _ (List.mem_singleton.mpr rfl)

end Event

section Lines

variable (lines : ∀ name ∈ d.names, OneLine name)

include lines

theorem method_rows (c : Command) (member : c ∈ d.commands) :
    rowsAt indent (callLines d.name c.name c.argumentForm c.hasResults
      (literal (qualified d.name c.name))) <:+:
        rowsOf indent (Code.piecesAll 1 (client d known options).bodyCode) := by
  have domainLine := lines d.name List.mem_cons_self
  have commandLine := lines c.name (d.command_name c member)
  have wireLine : OneLine (literal (qualified d.name c.name)) := by
    apply literal_line
    simp [OneLine, qualified, domainLine, commandLine]
  rw [← call_rows d.name c.name _ _ _ domainLine commandLine wireLine]
  exact rows_part indent _ _ (method_part d known options c member)

section Event

variable (e : Event) (method : String) (member : e ∈ d.eventList) (either : method ∈ ["on", "once"])

include member either

theorem overload_row : Row (listenText d.name e.name method (!e.isSignal) (literal e.name)) := by
  have eventLine := lines e.name (d.event_name e member)
  have methodLine : OneLine method := by
    simp only [List.mem_cons, List.not_mem_nil, or_false] at either
    rcases either with rfl | rfl <;> exact fixed_line (by decide)
  exact listen_row d.name e.name method (literal e.name) (!e.isSignal) (lines d.name List.mem_cons_self)
    eventLine methodLine (literal_line e.name eventLine)

theorem overload_written :
    Pen.indentation indent 1 ++ listenText d.name e.name method (!e.isSignal) (literal e.name) ∈
      rowsOf indent (Code.piecesAll 1 (client d known options).bodyCode) :=
  row_written indent _ 1 _ (overload_row d lines e method member either)
    (overload_part d known options e method member either)

theorem interface_written :
    Pen.indentation indent 1 ++ listenText d.name e.name method (!e.isSignal) (literal e.name) ∈
      rowsOf indent (Code.piecesAll 1 (client d known options).overloadCode) :=
  row_written indent _ 1 _ (overload_row d lines e method member either)
    (interface_part d known options e method member either)

end Event

end Lines

end Files

def Calls (d : Domain) (command : String) (form : ArgumentForm) (answers : Bool) (rows : List String) :
    Prop :=
  ∃ inside wire, Encloses indent 0 (classHeader d) inside rows ∧
    value? wire = some (qualified d.name command) ∧
    rowsAt indent (callLines d.name command form answers wire) <:+: inside

-- It has the listener of an event in the interface of the events and in the class, which has one
-- implementation for all events.
def Listens (d : Domain) (event : String) (carries : Bool) (rows : List String) : Prop :=
  ∃ inside offered wire, Encloses indent 0 (classHeader d) inside rows ∧
    Encloses indent 0 ("export interface " ++ d.name ++ "Events") offered rows ∧
    value? wire = some event ∧ ∀ method ∈ ["on", "once"],
      Pen.indentation indent 1 ++ listenText d.name event method carries wire ∈ offered ∧
      Pen.indentation indent 1 ++ listenText d.name event method carries wire ∈ inside ∧
      rowsAt indent (subscribeLines method) <:+: inside

section Files

variable (d : Domain) (known : List String) (options : Options)
  (lines : ∀ name ∈ d.names, OneLine name) (returns : ∀ name ∈ d.names, '\r' ∉ name.toList)

include lines returns

theorem command_called (c : Command) (member : c ∈ d.commands) :
    Calls d c.name c.argumentForm c.hasResults (rowsOf indent (domainPieces d known options)) := by
  have domainLine := lines d.name List.mem_cons_self
  have commandLine := lines c.name (d.command_name c member)
  have domainReturns := returns d.name List.mem_cons_self
  have commandReturns := returns c.name (d.command_name c member)
  refine ⟨_, literal (qualified d.name c.name), class_encloses d known options domainLine, ?_,
    method_rows d known options lines c member⟩
  apply literal_value
  · simp [OneLine, qualified, domainLine, commandLine]
  · simp [qualified, domainReturns, commandReturns]

theorem event_heard (e : Event) (member : e ∈ d.eventList) :
    Listens d e.name (!e.isSignal) (rowsOf indent (domainPieces d known options)) := by
  have domainLine := lines d.name List.mem_cons_self
  have eventName := d.event_name e member
  have given : d.hasEvents = true := by
    rw [Domain.hasEvents, List.isEmpty_eq_false_iff.mpr (List.ne_nil_of_mem member)]
    rfl
  refine ⟨_, _, literal e.name, class_encloses d known options domainLine,
    events_encloses d known options domainLine given,
    literal_value e.name (lines _ eventName) (returns _ eventName), fun method either => ?_⟩
  have implemented : rowsOf indent (subscribeLines method) = rowsAt indent (subscribeLines method) := by
    have methodLine : OneLine method := by
      simp only [List.mem_cons, List.not_mem_nil, or_false] at either
      rcases either with rfl | rfl <;> exact fixed_line (by decide)
    apply rows_each
    simp only [subscribeLines, List.forall_mem_cons, List.not_mem_nil, false_implies, implies_true, and_true]
    exact ⟨row_append _ _ ((one_line_append _ _).mpr ⟨methodLine, fixed_line (by decide)⟩)
        (fixed_row (by decide)),
      row_append _ _ ((one_line_append _ _).mpr ⟨fixed_line (by decide), methodLine⟩)
        (fixed_row (by decide)),
      fixed_row (by decide)⟩
  refine ⟨interface_written d known options lines e method member either,
    overload_written d known options lines e method member either, ?_⟩
  rw [← implemented]
  exact rows_part indent _ _ (subscribe_part d known options e method member either)

end Files

end ProtocolStubs.Script
