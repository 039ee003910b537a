import ProtocolStubs.Proofs.Layout.Mentions
import ProtocolStubs.Proofs.Script.Calls

set_option autoImplicit false

namespace ProtocolStubs.Script

open Layout

-- What stands in the full name of a payload, between the domain and the command or event.
def mark (kind : PayloadKind) : String := "." ++ space kind ++ "."

def payloadNames (d : Domain) : List String :=
  PayloadKind.all.flatMap fun kind => (kind.needed d).map fun entry => payloadName d.name kind entry.1

def ownNames (transport : String) (d : Domain) : List String :=
  [transport, d.name, literal d.name,
    literal ("Cannot create " ++ d.name ++ " domain: debugger is not attached")] ++
  d.commands.flatMap (fun c => [c.name, literal (qualified d.name c.name)]) ++
  d.eventList.map fun e => literal e.name

def Client.pieces (c : Client) : List Piece :=
  Code.piecesAll 0 ((if c.hasEvents then c.eventsCode ++ [.blank] else []) ++ c.code)

theorem Client.body_part (c : Client) : Code.piecesAll 1 c.bodyCode <:+: c.pieces := by
  rw [pieces, code, Code.pieces_all_append, Code.pieces_all_append, Code.block, Code.pieces_between]
  refine List.IsInfix.trans ?_ ((List.suffix_append _ _).isInfix.trans (List.suffix_append _ _).isInfix)
  exact List.infix_append [_] _ [_]

theorem client_pieces_part (d : Domain) (known : List String) (options : Options) :
    (client d known options).pieces <:+: domainPieces d known options := by
  refine section_part d known options _ ?_
  rw [sections, ← client_has_events d known options, List.append_assoc _ [Code.blank]]
  exact (List.prefix_append _ _).isInfix

def Documents (d : Domain) (text : String) : Prop :=
  ∃ notes ∈ d.notices, text = Comment.starText (notes.lines Comment.starTag)

section Texts

variable (transport : String) (d : Domain) (kind : PayloadKind)

def NamesNeeded (text : String) : Prop :=
  MentionsOnly (mark kind) (payloadNames d ++ ownNames transport d) text

variable {transport d kind} {depth : Nat}

theorem names_own (text : String) (member : text ∈ ownNames transport d) :
    NamesNeeded transport d kind text := .named (List.mem_append_right _ member)

theorem names_payload (which : PayloadKind) (entry : String × List Property)
    (need : entry ∈ which.needed d) : NamesNeeded transport d kind (payloadName d.name which entry.1) :=
  .named (List.mem_append_left _ (List.mem_flatMap.mpr
    ⟨which, which.all_kinds, List.mem_map_of_mem need⟩))

theorem names_domain : NamesNeeded transport d kind d.name := names_own _ (by simp [ownNames])

section Command

variable (c : Command) (member : c ∈ d.commands)

include member

theorem names_command : NamesNeeded transport d kind c.name := by
  refine names_own _ ?_
  simp only [ownNames, List.mem_append, List.mem_flatMap]
  exact .inl (.inr ⟨c, member, List.mem_cons_self⟩)

theorem names_wire : NamesNeeded transport d kind (literal (qualified d.name c.name)) := by
  refine names_own _ ?_
  simp only [ownNames, List.mem_append, List.mem_flatMap]
  exact .inl (.inr ⟨c, member, List.mem_cons_of_mem _ List.mem_cons_self⟩)

theorem names_argument : NamesNeeded transport d kind (argumentText d.name c.name c.argumentForm) := by
  rw [Command.argumentForm]
  cases has : c.hasParams with
  | false => exact .fixed (by decide)
  | true =>
    have given : NamesNeeded transport d kind (payloadName d.name .params c.name) :=
      names_payload .params (c.name, c.params)
        (List.mem_map_of_mem (List.mem_filter.mpr ⟨member, has⟩))
    cases c.hasMandatoryParams with
    | true => exact (MentionsOnly.fixed (by decide)).append given
    | false => exact .framed given (by decide)

theorem names_result : NamesNeeded transport d kind (resultText d.name c.name c.hasResults) := by
  cases has : c.hasResults with
  | false => exact .fixed (by decide)
  | true =>
    exact names_payload .results (c.name, c.results)
      (List.mem_map_of_mem (List.mem_filter.mpr ⟨member, has⟩))

theorem names_settle : NamesNeeded transport d kind (settleText d.name c.name c.hasResults) := by
  have result : NamesNeeded transport d kind (resultText d.name c.name c.hasResults) := names_result c member
  cases has : c.hasResults with
  | false => exact .fixed (by decide)
  | true =>
    rw [has] at result
    exact .framed result (by decide)

theorem names_call : ∀ piece ∈ callLines d.name c.name c.argumentForm c.hasResults
    (literal (qualified d.name c.name)), NamesNeeded transport d kind piece.2 := by
  have wire : NamesNeeded transport d kind (literal (qualified d.name c.name)) := names_wire c member
  have result : NamesNeeded transport d kind (resultText d.name c.name c.hasResults) := names_result c member
  have sent : NamesNeeded transport d kind (sentText c.argumentForm) := by
    cases c.argumentForm <;> exact .fixed (by decide)
  have opener : NamesNeeded transport d kind (c.name ++ "(" ++ argumentText d.name c.name c.argumentForm) :=
    ((names_command c member).append (.fixed (by decide))).append (names_argument c member)
  simp only [callLines, List.forall_mem_cons, List.not_mem_nil, false_implies, implies_true, and_true]
  refine ⟨?_, .framed result (by decide), ?_, .fixed (by decide), .framed wire (by decide),
    .fixed (by decide), .fixed (by decide), .fixed (by decide), .fixed (by decide),
    names_settle c member, .fixed (by decide), .fixed (by decide), .fixed (by decide)⟩
  · exact (((opener.append (.fixed (by decide))).append result).append (.fixed (by decide))).append
      (.fixed (by decide))
  · exact ((MentionsOnly.framed wire (by decide)).append sent).append (.fixed (by decide))

end Command

theorem names_listen (e : Event) (member : e ∈ d.eventList) (method : String)
    (either : method ∈ ["on", "once"]) :
    NamesNeeded transport d kind (listenText d.name e.name method (!e.isSignal) (literal e.name)) := by
  have wire : NamesNeeded transport d kind (literal e.name) :=
    names_own _ (List.mem_append_right _ (List.mem_map_of_mem member))
  have called : NamesNeeded transport d kind method := by
    simp only [List.mem_cons, List.not_mem_nil, or_false] at either
    rcases either with rfl | rfl <;> exact .fixed (by decide)
  have listener : NamesNeeded transport d kind (if !e.isSignal then
      "(params: " ++ payloadName d.name .events e.name ++ ") => void" else "() => void") := by
    split
    · rename_i carries
      exact .framed (names_payload .events (e.name, e.params)
        (List.mem_map_of_mem (List.mem_filter.mpr ⟨member, carries⟩))) (by decide)
    · exact .fixed (by decide)
  exact ((((called.append (.fixed (by decide))).append wire).append (.fixed (by decide))).append listener).append
    (.fixed (by decide))

def Proper (transport : String) (d : Domain) (kind : PayloadKind) (text : String) : Prop :=
  Documents d text ∨ NamesNeeded transport d kind text

theorem proper_doc (notes : Notes) (given : notes ∈ d.notices) :
    Code.Each (Proper transport d kind) depth (Comment.star (notes.lines Comment.starTag)) := by
  rw [Comment.star]
  split
  · exact .none
  · exact .line (.inl ⟨notes, given, rfl⟩) .none

theorem proper_line (text : String) (names : NamesNeeded transport d kind text) :
    Code.Each (Proper transport d kind) depth [.line text] := .line (.inr names) .none

theorem proper_block (header : String) (body : List Code) (names : NamesNeeded transport d kind header)
    (inside : Code.Each (Proper transport d kind) (depth + 1) body) :
    Code.Each (Proper transport d kind) depth (Code.block header body) :=
  .between (.inr (names.append (.fixed (by decide)))) (.inr (.fixed (by decide))) inside

theorem method_proper (c : Command) (member : c ∈ d.commands) :
    Code.Each (Proper transport d kind) 1 (Method.ofCommand d.name c).code := by
  rw [Code.Each, call_pieces]
  exact List.forall_mem_append.mpr ⟨proper_doc c.notes (d.command_notice c member),
    fun piece among => .inr (names_call c member piece among)⟩

theorem overload_proper (e : Event) (member : e ∈ d.eventList) (method : String)
    (either : method ∈ ["on", "once"]) :
    Code.Each (Proper transport d kind) depth [(Overload.ofEvent d.name e).code method] := by
  rw [listen_code]
  exact proper_line _ (names_listen e member method either)

theorem events_proper :
    Code.Each (Proper transport d kind) depth (Client.ofDomain transport d).eventsCode := by
  refine proper_block _ _ ((MentionsOnly.fixed (by decide)).append (names_domain.append (.fixed (by decide)))) ?_
  refine .flatMap fun method either => .flatMap fun o overload => ?_
  obtain ⟨e, member, rfl⟩ := List.mem_map.mp overload
  exact (proper_doc e.notes (d.event_notice e member)).append (overload_proper e member method either)

theorem route_proper : Code.Each (Proper transport d kind) depth (Client.ofDomain transport d).routeCode := by
  have wire : NamesNeeded transport d kind (literal d.name) := names_own _ (by simp [ownNames])
  refine .between (.inr (.fixed (by decide))) (.inr (.fixed (by decide))) ?_
  refine .append (.append (proper_line _ (.fixed (by decide))) ?_) ?_
  · exact proper_block _ _ ((MentionsOnly.fixed (by decide)).append (.fixed (by decide)))
      (proper_line _ (.fixed (by decide)))
  · exact proper_block _ _ (.framed wire (by decide)) (proper_line _ (.fixed (by decide)))

theorem constructor_proper :
    Code.Each (Proper transport d kind) depth (Client.ofDomain transport d).constructorCode := by
  have handle : NamesNeeded transport d kind transport := names_own _ (by simp [ownNames])
  have refusal : NamesNeeded transport d kind
      (literal ("Cannot create " ++ d.name ++ " domain: debugger is not attached")) :=
    names_own _ (by simp [ownNames])
  refine proper_block _ _ (.framed handle (by decide)) (.append ?_ ?_)
  · exact proper_block _ _ (.fixed (by decide)) (proper_line _ (.framed refusal (by decide)))
  · split
    · exact .blank route_proper
    · exact .none

theorem subscription_proper (method : String) (either : method ∈ ["on", "once"]) :
    Code.Each (Proper transport d kind) depth ((Client.ofDomain transport d).subscriptionCode method) := by
  refine .append (.map fun o overload => ?_) ?_
  · obtain ⟨e, member, rfl⟩ := List.mem_map.mp overload
    exact overload_proper e member method either
  · simp only [List.mem_cons, List.not_mem_nil, or_false] at either
    rcases either with rfl | rfl <;>
      exact proper_block _ _ ((MentionsOnly.fixed (by decide)).append (.fixed (by decide)))
        (proper_line _ ((MentionsOnly.joined (by decide)).append (.fixed (by decide))))

theorem assertion_proper : Code.Each (Proper transport d kind) depth Client.assertErrorCode :=
  proper_block _ _ (.fixed (by decide))
    (proper_block _ _ (.fixed (by decide)) (proper_line _ (.fixed (by decide))))

theorem body_proper : Code.Each (Proper transport d kind) 1 (Client.ofDomain transport d).bodyCode := by
  refine .append (.append (.append (.append ?_ constructor_proper) ?_) (.flatMap fun m method => ?_)) ?_
  · split
    · exact .line (.inr (.fixed (by decide))) (.blank .none)
    · exact .none
  · split
    · exact .append (.blank (subscription_proper "on" (by decide)))
        (.blank (subscription_proper "once" (by decide)))
    · exact .none
  · obtain ⟨c, member, rfl⟩ := List.mem_map.mp method
    exact .blank (method_proper c member)
  · split
    · exact .none
    · exact .blank assertion_proper

theorem client_proper : ∀ piece ∈ (Client.ofDomain transport d).pieces, Proper transport d kind piece.2 := by
  refine Code.Each.append ?_ (.append (proper_doc d.notes List.mem_cons_self) ?_)
  · split
    · exact .append events_proper (.blank .none)
    · exact .none
  · refine proper_block _ _ (((MentionsOnly.fixed (by decide)).append names_domain).append ?_) body_proper
    split
    · exact (MentionsOnly.fixed (by decide)).append (names_domain.append (.fixed (by decide)))
    · exact .fixed (by decide)

end Texts

end ProtocolStubs.Script
