import ProtocolStubs.Proofs.Crate.Literal
import ProtocolStubs.Proofs.Crate.Sections

set_option autoImplicit false

namespace ProtocolStubs.Crate

open Layout
open Text (OneLine fixed_line)

def payloadName (kind : PayloadKind) (member : String) : String := space kind ++ "::" ++ typeName member

section Command

variable (command : String)

def argumentText : ArgumentForm → String
  | .none => ""
  | .required => ", params: &" ++ payloadName .params command
  | .omittable => ", params: Option<&" ++ payloadName .params command ++ ">"

def resultText (answers : Bool) : String := if answers then payloadName .results command else "()"

def callFront (form : ArgumentForm) (answers : Bool) : String :=
  "pub async fn " ++ identifier command ++ "(&self" ++ argumentText command form ++ ") -> Result<" ++
    resultText command answers ++ ","

end Command

def sentText : ArgumentForm → String
  | .none => "None"
  | .required => "Some(params)"
  | .omittable => "params"

def callText (form : ArgumentForm) (answers : Bool) (wire : String) : String :=
  match answers, form with
  | true, .none => "self.client.fetch(" ++ wire ++ ").await"
  | true, given => "self.client.invoke(" ++ wire ++ ", " ++ sentText given ++ ").await"
  | false, .none => "self.client.call(" ++ wire ++ ", None).await.map(|_| ())"
  | false, given => "self.client.send(" ++ wire ++ ", " ++ sentText given ++ ").await.map(|_| ())"

def listenFront (event : String) (once carries : Bool) : String :=
  "pub fn " ++ identifier ((if once then "once_" else "on_") ++ event) ++ "(&self, listener: impl Fn(" ++
    (if carries then payloadName .events event else "") ++ ") + Send + Sync + \x27static) ->"

def listenText (once carries : Bool) (wire : String) : String :=
  "self.client." ++ (if once then "once" else "on") ++
    (if carries then "_typed(" ++ wire ++ ", listener)" else "(" ++ wire ++ ", move |_| listener())")

section Spelling

variable (runtime : String)

theorem call_text (c : Command) :
    (Method.ofCommand c).call = callText c.argumentForm c.hasResults (Text.quote c.name) := by
  rw [Method.call, Method.ofCommand, Argument.ofCommand]
  cases c.hasResults <;> cases c.argumentForm <;> rfl

theorem call_signature (c : Command) : ((Method.ofCommand c).function runtime).signature ++ " \x7b" =
    callFront c.name c.argumentForm c.hasResults ++ (" " ++ runtime ++ "::CallError> \x7b") := by
  unfold callFront argumentText
  rw [Function.signature, Function.argsText, Method.function, Method.ofCommand, Argument.ofCommand,
    resultText]
  apply String.toList_injective
  cases c.hasResults <;> cases c.argumentForm <;>
    simp [payloadName, space, Function.argText, Argument.typeText, Text.joinWith]

theorem listen_text (once : Bool) (e : Event) :
    (Subscription.ofEvent once e).call = listenText once (!e.isSignal) (Text.quote e.name) := by
  unfold listenText
  rw [Subscription.call, Subscription.ofEvent]
  cases e.isSignal <;> cases once <;> exact String.toList_injective (by simp)

theorem listen_signature (once : Bool) (e : Event) :
    ((Subscription.ofEvent once e).function runtime).signature ++ " \x7b" =
      listenFront e.name once (!e.isSignal) ++ (" " ++ runtime ++ "::ListenerId \x7b") := by
  unfold listenFront
  rw [Function.signature, Function.argsText, Subscription.function, Subscription.ofEvent]
  apply String.toList_injective
  cases e.isSignal <;> simp [payloadName, space, Function.argText, Text.joinWith]

end Spelling

section Rows

theorem payload_name_line (kind : PayloadKind) (member : String) (line : OneLine member) :
    OneLine (payloadName kind member) := by
  have inner : OneLine (space kind) := by cases kind <;> exact fixed_line (by decide)
  simp [OneLine, payloadName, inner, type_name_line member line]

theorem call_front_row (command : String) (form : ArgumentForm) (answers : Bool) (line : OneLine command) :
    Row (callFront command form answers) := by
  have params := payload_name_line .params command line
  have results := payload_name_line .results command line
  have argument : OneLine (argumentText command form) := by
    unfold argumentText
    cases form <;> simp [OneLine, params]
  have result : OneLine (resultText command answers) := by
    cases answers with
    | false => exact fixed_line (by decide)
    | true => exact results
  refine row_append _ _ ?_ (fixed_row (by decide))
  simp [OneLine, identifier_line, argument, result]

theorem call_text_row (form : ArgumentForm) (answers : Bool) (wire : String) (line : OneLine wire) :
    Row (callText form answers wire) := by
  have sent : OneLine (sentText form) := by cases form <;> exact fixed_line (by decide)
  cases answers <;> cases form <;> refine row_append _ _ ?_ (fixed_row (by decide)) <;>
    simp [OneLine, line, sentText]

theorem listen_front_row (event : String) (once carries : Bool) (line : OneLine event) :
    Row (listenFront event once carries) := by
  have payload := payload_name_line .events event line
  refine row_append _ _ ?_ (fixed_row (by decide))
  cases carries <;> simp [OneLine, identifier_line, payload]

theorem listen_text_row (once carries : Bool) (wire : String) (line : OneLine wire) :
    Row (listenText once carries wire) := by
  have method : OneLine ("self.client." ++ if once then "once" else "on") :=
    (one_line_append _ _).mpr ⟨fixed_line (by decide), by cases once <;> exact fixed_line (by decide)⟩
  refine row_append _ _ method ?_
  cases carries <;> refine row_append _ _ ?_ (fixed_row (by decide)) <;> simp [OneLine, line]

end Rows

-- A function among rows: one that begins with its signature, one in its body, and the closing brace.
def Stands (front body : String) (rows : List String) : Prop :=
  ∃ tail more, ((Pen.indentation indent 1 ++ (front ++ tail)) :: more ++
    [Pen.indentation indent 2 ++ body, Pen.indentation indent 1 ++ "\x7d"]) <:+: rows

theorem function_stands (front tail body : String) (frontRow : Row front) (bodyRow : Row body) :
    Stands front body (rowsOf indent [(1, front ++ tail), (2, body), (1, "\x7d")]) := by
  obtain ⟨rest, more, same⟩ := inked_front front tail frontRow
  have inner := piece_row indent 2 body bodyRow
  have closer := piece_row indent 1 "\x7d" (fixed_row (by decide))
  refine ⟨rest, more.map (Pen.indentation indent 1 ++ ·), ?_⟩
  have opener : Piece.rows indent (1, front ++ tail) = (Pen.indentation indent 1 ++ (front ++ rest)) ::
      more.map (Pen.indentation indent 1 ++ ·) := by
    rw [Piece.rows, same]
    rfl
  simp only [rowsOf, List.flatMap_cons, List.flatMap_nil, List.append_nil, opener, inner, closer]
  exact List.infix_rfl

theorem stands_within (front body : String) (rows whole : List String) (stands : Stands front body rows)
    (within : rows <:+: whole) : Stands front body whole := by
  obtain ⟨tail, more, part⟩ := stands
  exact ⟨tail, more, part.trans within⟩

theorem stands_row (front body : String) (rows : List String) (stands : Stands front body rows) :
    ∃ tail, Pen.indentation indent 1 ++ (front ++ tail) ∈ rows := by
  obtain ⟨tail, more, part⟩ := stands
  exact ⟨tail, part.subset List.mem_cons_self⟩

section Parts

variable (runtime : String) (d : Domain)

theorem function_part (c : Client) (f : Function) (member : f ∈ c.functions runtime) :
    Code.piecesAll 1 (Code.block f.signature f.body) <:+: c.pieces runtime := by
  have own : Code.piecesAll 1 (Code.block f.signature f.body) <:+: Code.piecesAll 1 f.code := by
    rw [Function.code, Code.pieces_all_append]
    exact (List.suffix_append _ _).isInfix
  have among : Code.piecesAll 1 f.code <:+:
      Code.piecesAll 1 (spaced ((c.functions runtime).map Function.code)) := by
    rw [spaced_pieces]
    exact infix_flat_map _ _ _ (List.mem_map_of_mem member)
  have inside : Code.piecesAll 1 (spaced ((c.functions runtime).map Function.code)) <:+:
      Code.piecesAll 0 (Item.impl (c.head runtime) (c.functions runtime)).code := by
    rw [Item.code, Code.pieces_all_append, Code.pieces_between]
    exact (List.infix_append [_] _ [_]).trans (List.suffix_append _ _).isInfix
  exact ((own.trans among).trans inside).trans
    (infix_flat_map (c.items runtime) (.impl (c.head runtime) (c.functions runtime))
      (fun item => Code.piecesAll 0 item.code) (by simp [Client.items]))

theorem method_stands (c : Command) (member : c ∈ d.commands) (line : OneLine c.name) :
    Stands (callFront c.name c.argumentForm c.hasResults)
      (callText c.argumentForm c.hasResults (Text.quote c.name))
      (rowsOf indent ((Client.ofDomain d).pieces runtime)) := by
  have among : (Method.ofCommand c).function runtime ∈ (Client.ofDomain d).functions runtime :=
    List.mem_append_left _ (List.mem_append_left _ (List.mem_map_of_mem (List.mem_map_of_mem member)))
  have part := function_part runtime _ _ among
  rw [Code.block, Code.pieces_between, call_signature] at part
  have body : Code.piecesAll (1 + 1) ((Method.ofCommand c).function runtime).body =
      [(2, callText c.argumentForm c.hasResults (Text.quote c.name))] := by
    rw [← call_text]
    rfl
  rw [body] at part
  exact stands_within _ _ _ _ (function_stands _ _ _ (call_front_row _ _ _ line)
    (call_text_row _ _ _ (quote_line c.name))) (rows_part indent _ _ part)

theorem subscription_stands (e : Event) (once : Bool) (member : e ∈ d.eventList) (line : OneLine e.name) :
    Stands (listenFront e.name once (!e.isSignal)) (listenText once (!e.isSignal) (Text.quote e.name))
      (rowsOf indent ((Client.ofDomain d).pieces runtime)) := by
  have own : Subscription.ofEvent once e ∈ (Client.ofDomain d).subscriptions := by
    refine List.mem_flatMap.mpr ⟨e, member, ?_⟩
    cases once <;> simp
  have among : (Subscription.ofEvent once e).function runtime ∈ (Client.ofDomain d).functions runtime :=
    List.mem_append_left _ (List.mem_append_right _ (List.mem_map_of_mem own))
  have part := function_part runtime _ _ among
  rw [Code.block, Code.pieces_between, listen_signature] at part
  have body : Code.piecesAll (1 + 1) ((Subscription.ofEvent once e).function runtime).body =
      [(2, listenText once (!e.isSignal) (Text.quote e.name))] := by
    rw [← listen_text]
    rfl
  rw [body] at part
  exact stands_within _ _ _ _ (function_stands _ _ _ (listen_front_row _ _ _ line)
    (listen_text_row _ _ _ (quote_line e.name))) (rows_part indent _ _ part)

theorem construction_part (text : String) (member : .line text ∈ (Client.ofDomain d).construction runtime) :
    (0, text) ∈ (Client.ofDomain d).pieces runtime :=
  List.mem_flatMap.mpr ⟨.rows ((Client.ofDomain d).construction runtime), by simp [Client.items],
    Code.line_piece 0 text _ member⟩

theorem name_written : "    const NAME: &\x27static str = " ++ Text.quote d.name ++ ";" ∈
    rowsOf indent ((Client.ofDomain d).pieces runtime) := by
  have row : Row ("    const NAME: &\x27static str = " ++ Text.quote d.name ++ ";") :=
    row_append _ _ ((one_line_append _ _).mpr ⟨fixed_line (by decide), quote_line d.name⟩)
      (fixed_row (by decide))
  have stands := row_written indent _ 0 _ row
    (construction_part runtime d _ (List.mem_cons_of_mem _ List.mem_cons_self))
  rwa [Pen.indentation, String.empty_append] at stands

theorem made_written : ∃ lead, lead ++ ("::DomainClient::new(transport, Self::NAME, " ++
    (if d.hasEvents then "true" else "false") ++ ")?,") ∈
      rowsOf indent ((Client.ofDomain d).pieces runtime) := by
  have events : (Client.ofDomain d).hasEvents = d.hasEvents := by
    rw [Client.hasEvents, Client.ofDomain, Domain.hasEvents]
    cases d.eventList <;> rfl
  have row : Row ("::DomainClient::new(transport, Self::NAME, " ++
      (if d.hasEvents then "true" else "false") ++ ")?,") := by
    refine row_append _ ")?," ((one_line_append _ _).mpr ⟨fixed_line (by decide), ?_⟩)
      (fixed_row (by decide))
    cases d.hasEvents <;> exact fixed_line (by decide)
  have line : ((Client.ofDomain d).construction runtime)[5]? =
      some (Code.line ("            client: " ++ runtime ++ ("::DomainClient::new(transport, Self::NAME, " ++
        (if d.hasEvents then "true" else "false") ++ ")?,"))) := by
    rw [← String.append_assoc, ← String.append_assoc, ← events]
    rfl
  exact back_written indent _ 0 _ _ row (construction_part runtime d _ (List.mem_of_getElem? line))

end Parts

def Calls (command : String) (form : ArgumentForm) (answers : Bool) (rows : List String) : Prop :=
  ∃ wire, value? wire = some command ∧
    Stands (callFront command form answers) (callText form answers wire) rows

def Listens (event : String) (carries : Bool) (rows : List String) : Prop :=
  ∃ wire, value? wire = some event ∧
    ∀ once, Stands (listenFront event once carries) (listenText once carries wire) rows

def Serves (d : Domain) (rows : List String) : Prop :=
  (∃ wire, value? wire = some d.name ∧ "    const NAME: &\x27static str = " ++ wire ++ ";" ∈ rows) ∧
    ∃ lead, lead ++ ("::DomainClient::new(transport, Self::NAME, " ++
      (if d.hasEvents then "true" else "false") ++ ")?,") ∈ rows

section Files

variable (d : Domain) (known : List String) (index : TypeIndex) (options : Options)

theorem domain_served : Serves d (rowsOf indent (domainPieces d known index options)) := by
  have own := (rows_part indent _ _ (client_part d known index options)).subset
  obtain ⟨lead, made⟩ := made_written options.runtimeCrate d
  exact ⟨⟨_, quote_value d.name, own (name_written options.runtimeCrate d)⟩, lead, own made⟩

theorem command_called (c : Command) (member : c ∈ d.commands) (line : OneLine c.name) :
    Calls c.name c.argumentForm c.hasResults (rowsOf indent (domainPieces d known index options)) :=
  ⟨_, quote_value c.name, stands_within _ _ _ _ (method_stands options.runtimeCrate d c member line)
    (rows_part indent _ _ (client_part d known index options))⟩

theorem event_heard (e : Event) (member : e ∈ d.eventList) (line : OneLine e.name) :
    Listens e.name (!e.isSignal) (rowsOf indent (domainPieces d known index options)) :=
  ⟨_, quote_value e.name, fun once =>
    stands_within _ _ _ _ (subscription_stands options.runtimeCrate d e once member line)
      (rows_part indent _ _ (client_part d known index options))⟩

end Files

end ProtocolStubs.Crate
