import ProtocolStubs.Proofs.Crate.Calls
import ProtocolStubs.Proofs.Layout.Mentions
import ProtocolStubs.Proofs.Text.Lines

set_option autoImplicit false

namespace ProtocolStubs.Crate

open Layout

-- What stands in the path of a payload, before the command or event.
def mark (kind : PayloadKind) : String := space kind ++ "::"

def payloadNames (d : Domain) : List String :=
  PayloadKind.all.flatMap fun kind => (kind.needed d).map fun entry => payloadName kind entry.1

def ownNames (runtime : String) (d : Domain) : List String :=
  [runtime, typeName d.name, Text.quote d.name] ++
  d.commands.flatMap (fun c => [identifier c.name, Text.quote c.name]) ++
  d.eventList.flatMap fun e =>
    [identifier ("on_" ++ e.name), identifier ("once_" ++ e.name), Text.quote e.name]

def Documents (d : Domain) (text : String) : Prop :=
  ∃ notes ∈ d.notices, ∃ line ∈ Text.lines (docText notes),
    text = if line = "" then "///" else "/// " ++ line

section Texts

variable (runtime : String) (d : Domain) (kind : PayloadKind)

def NamesNeeded (text : String) : Prop :=
  MentionsOnly (mark kind) (payloadNames d ++ ownNames runtime d) text

variable {runtime d kind} {depth : Nat}

theorem names_own (text : String) (member : text ∈ ownNames runtime d) :
    NamesNeeded runtime d kind text := .named (List.mem_append_right _ member)

theorem names_payload (which : PayloadKind) (entry : String × List Property)
    (need : entry ∈ which.needed d) : NamesNeeded runtime d kind (payloadName which entry.1) :=
  .named (List.mem_append_left _ (List.mem_flatMap.mpr
    ⟨which, which.all_kinds, List.mem_map_of_mem need⟩))

theorem names_runtime : NamesNeeded runtime d kind runtime := names_own _ (by simp [ownNames])

theorem names_client : NamesNeeded runtime d kind (typeName d.name) := names_own _ (by simp [ownNames])

section Command

variable (c : Command) (member : c ∈ d.commands)

include member

theorem names_argument : NamesNeeded runtime d kind (argumentText c.name c.argumentForm) := by
  rw [Command.argumentForm]
  cases has : c.hasParams with
  | false => exact .fixed (by decide)
  | true =>
    have given : NamesNeeded runtime d kind (payloadName .params c.name) :=
      names_payload .params (c.name, c.params)
        (List.mem_map_of_mem (List.mem_filter.mpr ⟨member, has⟩))
    cases c.hasMandatoryParams with
    | true => exact (MentionsOnly.fixed (by decide)).append given
    | false => exact .framed given (by decide)

theorem names_result : NamesNeeded runtime d kind (resultText c.name c.hasResults) := by
  cases has : c.hasResults with
  | false => exact .fixed (by decide)
  | true =>
    exact names_payload .results (c.name, c.results)
      (List.mem_map_of_mem (List.mem_filter.mpr ⟨member, has⟩))

theorem names_call_front : NamesNeeded runtime d kind
    (callFront c.name c.argumentForm c.hasResults ++ (" " ++ runtime ++ "::CallError> \x7b")) := by
  have name : NamesNeeded runtime d kind (identifier c.name) := by
    refine names_own _ ?_
    simp only [ownNames, List.mem_append, List.mem_flatMap]
    exact .inl (.inr ⟨c, member, List.mem_cons_self⟩)
  have taken : NamesNeeded runtime d kind
      ("pub async fn " ++ identifier c.name ++ "(&self" ++ argumentText c.name c.argumentForm) :=
    (MentionsOnly.framed name (by decide)).append (names_argument c member)
  refine .append ?_ (.framed names_runtime (by decide))
  exact ((taken.append (.fixed (by decide))).append (names_result c member)).append (.fixed (by decide))

theorem names_call :
    NamesNeeded runtime d kind (callText c.argumentForm c.hasResults (Text.quote c.name)) := by
  have wire : NamesNeeded runtime d kind (Text.quote c.name) := by
    refine names_own _ ?_
    simp only [ownNames, List.mem_append, List.mem_flatMap]
    exact .inl (.inr ⟨c, member, List.mem_cons_of_mem _ List.mem_cons_self⟩)
  unfold callText
  cases c.hasResults <;> cases c.argumentForm <;> dsimp only [sentText]
  case false.none | true.none => exact .framed wire (by decide)
  case false.required | true.required =>
    exact ((MentionsOnly.framed wire (by decide)).append (.fixed (by decide))).append (.fixed (by decide))
  -- `params` ends like a payload's path begins, so it is taken with what follows it.
  case false.omittable | true.omittable =>
    rw [String.append_assoc]
    exact (MentionsOnly.framed wire (by decide)).append (.joined (by decide))

end Command

section Event

variable (e : Event) (once : Bool) (member : e ∈ d.eventList)

include member

theorem names_listen_front : NamesNeeded runtime d kind
    (listenFront e.name once (!e.isSignal) ++ (" " ++ runtime ++ "::ListenerId \x7b")) := by
  have name : NamesNeeded runtime d kind (identifier ((if once then "once_" else "on_") ++ e.name)) := by
    refine names_own _ (List.mem_append_right _ (List.mem_flatMap.mpr ⟨e, member, ?_⟩))
    cases once <;> simp
  have payload : NamesNeeded runtime d kind
      (if !e.isSignal then payloadName .events e.name else "") := by
    split
    · rename_i carries
      exact names_payload .events (e.name, e.params)
        (List.mem_map_of_mem (List.mem_filter.mpr ⟨member, carries⟩))
    · exact .fixed (by decide)
  refine .append ?_ (.framed names_runtime (by decide))
  exact ((MentionsOnly.framed name (by decide)).append payload).append (.fixed (by decide))

theorem names_listen : NamesNeeded runtime d kind (listenText once (!e.isSignal) (Text.quote e.name)) := by
  have wire : NamesNeeded runtime d kind (Text.quote e.name) :=
    names_own _ (List.mem_append_right _ (List.mem_flatMap.mpr ⟨e, member, by simp⟩))
  -- `once` ends so, too.
  have line : ∀ method front tail : String, NamesNeeded runtime d kind (method ++ front) →
      NamesNeeded runtime d kind tail →
        NamesNeeded runtime d kind ("self.client." ++ method ++ (front ++ Text.quote e.name ++ tail)) := by
    intro method front tail called rest
    have same : "self.client." ++ method ++ (front ++ Text.quote e.name ++ tail) =
        "self.client." ++ (method ++ front) ++ (Text.quote e.name ++ tail) :=
      String.toList_injective (by simp)
    rw [same]
    exact ((MentionsOnly.fixed (by decide)).append called).append (wire.append rest)
  unfold listenText
  cases once <;> cases e.isSignal <;> exact line _ _ _ (.joined (by decide)) (.fixed (by decide))

end Event

def Proper (runtime : String) (d : Domain) (kind : PayloadKind) (text : String) : Prop :=
  Documents d text ∨ NamesNeeded runtime d kind text

theorem proper_doc (notes : Notes) (given : notes ∈ d.notices) :
    Code.Each (Proper runtime d kind) depth (docCode (docText notes)) :=
  .map fun line among => .line (.inl ⟨notes, given, line, among, rfl⟩) .none

theorem proper_line (text : String) (names : NamesNeeded runtime d kind text) :
    Code.Each (Proper runtime d kind) depth [.line text] := .line (.inr names) .none

theorem proper_function (f : Function) (line : String)
    (doc : Code.Each (Proper runtime d kind) depth (docCode f.doc)) (body : f.body = [.line line])
    (front : NamesNeeded runtime d kind (f.signature ++ " \x7b"))
    (names : NamesNeeded runtime d kind line) : Code.Each (Proper runtime d kind) depth f.code := by
  refine doc.append (.between (.inr front) (.inr (.fixed (by decide))) ?_)
  rw [body]
  exact proper_line line names

theorem method_proper (c : Command) (member : c ∈ d.commands) :
    Code.Each (Proper runtime d kind) depth ((Method.ofCommand c).function runtime).code := by
  refine proper_function _ _ (proper_doc c.notes (d.command_notice c member)) rfl ?_ ?_
  · rw [call_signature]
    exact names_call_front c member
  · rw [call_text]
    exact names_call c member

theorem subscription_proper (e : Event) (once : Bool) (member : e ∈ d.eventList) :
    Code.Each (Proper runtime d kind) depth ((Subscription.ofEvent once e).function runtime).code := by
  refine proper_function _ _ (proper_doc e.notes (d.event_notice e member)) rfl ?_ ?_
  · rw [listen_signature]
    exact names_listen_front e once member
  · rw [listen_text]
    exact names_listen e once member

theorem unsubscribe_proper :
    Code.Each (Proper runtime d kind) depth (Client.unsubscribe runtime).code := by
  have signature : (Client.unsubscribe runtime).signature ++ " \x7b" =
      "pub fn off(&self, id: " ++ runtime ++ "::ListenerId) -> bool \x7b" :=
    String.toList_injective (by simp [Client.unsubscribe, Function.signature, Function.argsText,
      Function.argText, Text.joinWith])
  have doc : Code.Each (Proper runtime d kind) depth
      (docCode "Remove a listener added by one of the `on_*` / `once_*` methods.") := by
    rw [docCode, Text.lines_single _ (by decide) (by decide)]
    exact proper_line _ ((MentionsOnly.fixed (by decide)).append (.fixed (by decide)))
  refine proper_function _ _ doc rfl ?_ (.fixed (by decide))
  rw [signature]
  exact .framed names_runtime (by decide)

theorem functions_proper : ∀ f ∈ (Client.ofDomain d).functions runtime,
    Code.Each (Proper runtime d kind) depth f.code := by
  intro f among
  rcases List.mem_append.mp among with given | off
  · rcases List.mem_append.mp given with method | subscription
    · obtain ⟨m, own, rfl⟩ := List.mem_map.mp method
      obtain ⟨c, member, rfl⟩ := List.mem_map.mp own
      exact method_proper c member
    · obtain ⟨s, own, rfl⟩ := List.mem_map.mp subscription
      obtain ⟨e, member, either⟩ := List.mem_flatMap.mp own
      simp only [List.mem_cons, List.not_mem_nil, or_false] at either
      rcases either with rfl | rfl
      · exact subscription_proper e false member
      · exact subscription_proper e true member
  · split at off
    · cases List.mem_singleton.mp off
      exact unsubscribe_proper
    · cases off

theorem head_proper (lead : String) (body : List Code) (names : NamesNeeded runtime d kind lead)
    (inside : Code.Each (Proper runtime d kind) (depth + 1) body) :
    Code.Each (Proper runtime d kind) depth
      ([.line (lead ++ ((Client.ofDomain d).head runtime).text),
        ((Client.ofDomain d).head runtime).boundCode] ++ Code.between "\x7b" "\x7d" body) := by
  refine .append (.line (.inr ?_) (proper_line _ ?_))
    (.between (.inr (.fixed (by decide))) (.inr (.fixed (by decide))) inside)
  · exact names.append (names_client.append (.fixed (by decide)))
  · exact .framed (names_runtime.append (.fixed (by decide))) (by decide)

theorem construction_proper :
    Code.Each (Proper runtime d kind) depth ((Client.ofDomain d).construction runtime) := by
  have wire : NamesNeeded runtime d kind (Text.quote d.name) := names_own _ (by simp [ownNames])
  have made : NamesNeeded runtime d kind
      ((if (Client.ofDomain d).hasEvents then "true" else "false") ++ ")?,") := by
    split <;> exact .joined (by decide)
  refine .line (.inr ?_) (.line (.inr (.framed wire (by decide))) (.blank (.line (.inr ?_)
    (.line (.inr (.fixed (by decide))) (.line (.inr ?_) (.line (.inr (.fixed (by decide)))
      (.line (.inr (.fixed (by decide))) (proper_line _ (.fixed (by decide))))))))))
  · exact (((MentionsOnly.framed names_runtime (by decide)).append names_runtime).append
      (.fixed (by decide))).append names_client |>.append (.fixed (by decide))
  · exact .framed names_runtime (by decide)
  · rw [String.append_assoc]
    exact (MentionsOnly.framed names_runtime (by decide)).append made

theorem client_proper :
    ∀ piece ∈ (Client.ofDomain d).pieces runtime, Proper runtime d kind piece.2 := by
  rw [Client.pieces, Client.items]
  simp only [List.flatMap_cons, List.flatMap_nil, List.append_nil, List.forall_mem_append]
  refine ⟨?_, construction_proper, ?_⟩
  · have field : NamesNeeded runtime d kind ("client: " ++ (runtime ++ "::DomainClient<T>") ++ ",") :=
      .framed (names_runtime.append (.fixed (by decide))) (by decide)
    rw [Item.code, List.append_assoc]
    exact Code.Each.append (proper_doc d.notes List.mem_cons_self)
      (head_proper _ _ (.fixed (by decide)) (proper_line _ field))
  · refine head_proper _ _ (.fixed (by decide)) ?_
    rw [Code.Each, spaced_pieces]
    exact List.forall_mem_flatMap.mpr (List.forall_mem_map.mpr functions_proper)

end Texts

end ProtocolStubs.Crate
