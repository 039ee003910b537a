import ProtocolStubs.Payload.Codec
import ProtocolStubs.Proofs.Json.ReadBack
import ProtocolStubs.Proofs.Payload.Fields
import ProtocolStubs.Proofs.Session.Stages

set_option autoImplicit false

namespace ProtocolStubs.Payload

-- The payloads of a kind that have no real number in them. A dynamic value that is null would not be told
-- from a field that is absent.
inductive Fits : Kind → Datum → Prop where
  | text (s : String) : Fits .text (.text s)
  | flag (b : Bool) : Fits .flag (.flag b)
  | word (i : Int) (signed : isWord i = true) : Fits .word (.word i)
  | any (v : Value) (free : v.FloatFree) (present : v.isNull = false) : Fits .any (.any v)
  | list (k : Kind) (items : List Datum) (each : ∀ item ∈ items, Fits k item) :
      Fits (.list k) (.list items)
  | record (r : Record) (members : List (String × Datum)) (gives : Gives r.fields (members.map Prod.fst))
      (each : ∀ f ∈ r.fields, ∀ d, (f.key, d) ∈ members → Fits f.kind d) :
      Fits (.record r) (.record members)

structure Crosses (k : Kind) (d : Datum) (v : Value) : Prop where
  encoded : d.encode? = some v
  spelt : d.toText = v.toText
  free : v.FloatFree
  present : v.isNull = false
  decoded : k.decode? v = some d

theorem word_kept (i : Int) (signed : isWord i = true) :
    Json.isWireInt i = true ∧ i.bmod 18446744073709551616 = i := by
  obtain ⟨low, high⟩ := Bool.and_eq_true_iff.mp signed
  have low := of_decide_eq_true low
  have high := of_decide_eq_true high
  rw [Json.leastSigned] at low
  rw [Json.greatestSigned] at high
  constructor
  · rw [Json.isWireInt, Json.leastSigned, Json.greatestUnsigned, Bool.and_eq_true]
    exact ⟨decide_eq_true low, decide_eq_true (by omega)⟩
  · exact Int.bmod_eq_of_le_mul_two (by omega) (by omega)

theorem any_decoded (v : Value) : Kind.decode? .any v = some (.any v) := by
  cases v <;> rfl

section Lists

variable {k : Kind} {items : List Datum} {values : List Value}

theorem items_cross (each : ∀ item ∈ items, ∃ v, Crosses k item v) :
    ∃ values, List.Forall₂ (Crosses k) items values := by
  induction items with
  | nil => exact ⟨[], .nil⟩
  | cons item items ih =>
    obtain ⟨⟨v, here⟩, later⟩ := List.forall_mem_cons.mp each
    obtain ⟨values, there⟩ := ih later
    exact ⟨v :: values, .cons here there⟩

theorem items_encoded (across : List.Forall₂ (Crosses k) items values) :
    Datum.encodeItems? items = some values ∧ Kind.decodeItems? k values = some items := by
  induction across with
  | nil => exact ⟨rfl, rfl⟩
  | cons here _ ih =>
    rw [Datum.encodeItems?, here.encoded, ih.1, Kind.decodeItems?, here.decoded, ih.2]
    exact ⟨rfl, rfl⟩

theorem items_spelt (across : List.Forall₂ (Crosses k) items values) :
    Datum.itemsText items = Value.itemsText values := by
  induction across with
  | nil => rfl
  | cons here there ih =>
    cases there with
    | nil => exact here.spelt
    | cons next rest => rw [Datum.itemsText, Value.itemsText, here.spelt, ih]

theorem items_free (across : List.Forall₂ (Crosses k) items values) : ∀ v ∈ values, v.FloatFree := by
  induction across with
  | nil => exact List.forall_mem_nil _
  | cons here _ ih => exact List.forall_mem_cons.mpr ⟨here.free, ih⟩

end Lists

section Members

variable {fields : List Field} {members : List (String × Datum)} {values : List (String × Value)}

def MemberCrosses (fields : List Field) (member : String × Datum) (value : String × Value) : Prop :=
  value.1 = member.1 ∧ ∃ f ∈ fields, f.key = member.1 ∧ Crosses f.kind member.2 value.2

theorem members_cross (asked : ∀ key ∈ members.map Prod.fst, key ∈ fields.map Field.key)
    (each : ∀ f ∈ fields, ∀ d, (f.key, d) ∈ members → ∃ v, Crosses f.kind d v) :
    ∃ values, List.Forall₂ (MemberCrosses fields) members values := by
  induction members with
  | nil => exact ⟨[], .nil⟩
  | cons member members ih =>
    obtain ⟨key, d⟩ := member
    obtain ⟨here, later⟩ := List.forall_mem_cons.mp asked
    obtain ⟨f, field, rfl⟩ := List.mem_map.mp here
    obtain ⟨v, crosses⟩ := each f field d List.mem_cons_self
    obtain ⟨values, there⟩ := ih later fun g field d member => each g field d (List.mem_cons_of_mem _ member)
    exact ⟨(f.key, v) :: values, .cons ⟨rfl, f, field, rfl, crosses⟩ there⟩

theorem members_keys (across : List.Forall₂ (MemberCrosses fields) members values) :
    values.map Prod.fst = members.map Prod.fst := by
  induction across with
  | nil => rfl
  | cons here _ ih => rw [List.map_cons, List.map_cons, here.1, ih]

theorem members_encoded (across : List.Forall₂ (MemberCrosses fields) members values) :
    Datum.encodeFields? members = some values := by
  induction across with
  | nil => rfl
  | @cons member value _ _ here _ ih =>
    obtain ⟨key, d⟩ := member
    obtain ⟨_, v⟩ := value
    obtain ⟨rfl, _, _, _, crosses⟩ := here
    rw [Datum.encodeFields?, crosses.encoded, ih]

theorem members_spelt (across : List.Forall₂ (MemberCrosses fields) members values) :
    Datum.fieldsText members = Value.membersText values := by
  induction across with
  | nil => rfl
  | @cons member value _ _ here there ih =>
    obtain ⟨key, d⟩ := member
    obtain ⟨_, v⟩ := value
    obtain ⟨rfl, _, _, _, crosses⟩ := here
    cases there with
    | nil => rw [Datum.fieldsText, Value.membersText, crosses.spelt]
    | cons next rest => rw [Datum.fieldsText, Value.membersText, crosses.spelt, ih]

theorem members_free (across : List.Forall₂ (MemberCrosses fields) members values) :
    ∀ value ∈ values, value.2.FloatFree := by
  induction across with
  | nil => exact List.forall_mem_nil _
  | cons here _ ih =>
    obtain ⟨_, _, _, _, crosses⟩ := here
    exact List.forall_mem_cons.mpr ⟨crosses.free, ih⟩

theorem members_decoded (across : List.Forall₂ (MemberCrosses fields) members values)
    (distinct : (fields.map Field.key).Nodup) :
    Kind.decodeMembers? fields values = some (members.map fun member => (member.1, some member.2)) := by
  induction across with
  | nil => rfl
  | @cons member value _ _ here _ ih =>
    obtain ⟨key, d⟩ := member
    obtain ⟨_, v⟩ := value
    obtain ⟨rfl, f, field, rfl, crosses⟩ := here
    have given : ¬(f.presence ≠ .required ∧ v.isNull = true) := by
      rw [crosses.present]
      exact fun null => Bool.false_ne_true null.2
    rw [Kind.decodeMembers?, find_field f field distinct, ih]
    dsimp only
    rw [if_neg given, crosses.decoded]
    rfl

theorem record_decoded (gives : Gives fields (members.map Prod.fst))
    (across : List.Forall₂ (MemberCrosses fields) members values)
    (distinct : (fields.map Field.key).Nodup) :
    (Kind.decodeMembers? fields values >>= Kind.recordOf? fields) = some (.record members) := by
  have keys : (members.map Prod.fst).Nodup := distinct.sublist (gives_sublist gives)
  let read := members.map fun member => (member.1, some member.2)
  have found : ∀ f ∈ fields, (read.reverse.lookup f.key).join = members.lookup f.key := by
    intro f _
    rw [lookup_reverse read f.key (by rwa [List.map_map]), lookup_mapped]
    cases members.lookup f.key <;> rfl
  obtain ⟨parts, all, whole⟩ := record_parts read members gives rfl distinct found
  rw [members_decoded across distinct, Option.bind_eq_bind, Option.bind_some, Kind.recordOf?, all,
    Option.map_some, whole]

end Members

-- The induction is on the payload: its records are unfolded as deep as it goes, not the types that they
-- are of.
theorem fits_crosses (k : Kind) (d : Datum) (fits : Fits k d) : ∃ v, Crosses k d v := by
  induction fits with
  | text s => exact ⟨.text s, rfl, rfl, .text s, rfl, rfl⟩
  | flag b => exact ⟨.flag b, rfl, rfl, .flag b, rfl, rfl⟩
  | word i signed =>
    obtain ⟨wire, kept⟩ := word_kept i signed
    refine ⟨.number (.int i), rfl, rfl, .integer i wire, rfl, ?_⟩
    rw [Kind.decode?, Kind.wordOf?, kept]
    · rfl
    · rintro _ ⟨⟩
    · rintro _ ⟨⟩
  | any v free present => exact ⟨v, Value.float_free_restated v free, rfl, free, present, any_decoded v⟩
  | list k items _ each =>
    obtain ⟨values, across⟩ := items_cross each
    obtain ⟨encoded, decoded⟩ := items_encoded across
    refine ⟨.list values, ?_, ?_, .list values (items_free across), rfl, ?_⟩
    · rw [Datum.encode?, encoded]
      rfl
    · rw [Datum.toText, Value.toText, items_spelt across]
    · rw [Kind.decode?, decoded]
      rfl
  | record r members gives _ each =>
    have distinct := record_keys_distinct r
    obtain ⟨values, across⟩ := members_cross (fun _ there => (gives_sublist gives).subset there) each
    have keys : (values.map Prod.fst).Nodup := by
      rw [members_keys across]
      exact distinct.sublist (gives_sublist gives)
    refine ⟨.object values, ?_, ?_, .object values keys (members_free across), rfl, ?_⟩
    · rw [Datum.encode?, members_encoded across]
      rfl
    · rw [Datum.toText, Value.toText, members_spelt across]
    · rw [Kind.decode?]
      exact record_decoded gives across distinct

def Datum.field? : Datum → Field → Option Datum
  | .record members, f => members.lookup f.key
  | _, _ => none

theorem record_members (r : Record) (d : Datum) (fits : Fits (.record r) d) :
    ∃ members, d = .record members ∧ Gives r.fields (members.map Prod.fst) := by
  cases fits with
  | record _ members gives => exact ⟨members, rfl, gives⟩

theorem encoded_keys (members : List (String × Datum)) (values : List (String × Value))
    (encoded : Datum.encodeFields? members = some values) :
    values.map Prod.fst = members.map Prod.fst := by
  induction members generalizing values with
  | nil =>
    cases encoded
    rfl
  | cons member members ih =>
    obtain ⟨key, d⟩ := member
    rw [Datum.encodeFields?] at encoded
    cases first : d.encode? with
    | none => simp [first] at encoded
    | some v =>
      cases rest : Datum.encodeFields? members with
      | none => simp [first, rest] at encoded
      | some others =>
        rw [first, rest] at encoded
        cases encoded
        rw [List.map_cons, List.map_cons, ih others rest]

theorem given_keys (r : Record) (members : List (String × Datum))
    (gives : Gives r.fields (members.map Prod.fst)) : members.map Prod.fst =
      (r.fields.filter fun f => ((Datum.record members).field? f).isSome).map Field.key := by
  have same : (r.fields.filter fun f => ((Datum.record members).field? f).isSome) =
      r.fields.filter fun f => f.key ∈ members.map Prod.fst := by
    refine List.filter_congr fun f _ => ?_
    rw [Datum.field?, Bool.eq_iff_iff, lookup_isSome, decide_eq_true_iff]
  rw [same]
  exact gives_exactly gives (record_keys_distinct r)

theorem nothing_given (r : Record) (d : Datum) (fits : Fits (.record r) d)
    (absent : ∀ f ∈ r.fields, d.field? f = none) : d = .record [] := by
  obtain ⟨members, rfl, gives⟩ := record_members r d fits
  have keys := given_keys r members gives
  have none_left : (r.fields.filter fun f => ((Datum.record members).field? f).isSome) = [] := by
    rw [List.filter_eq_nil_iff]
    intro f field
    rw [absent f field]
    exact Bool.false_ne_true
  rw [none_left, List.map_nil, List.map_eq_nil_iff] at keys
  rw [keys]

-- A payload that is written as the empty object goes out as no payload does.
theorem empty_sent (d : Datum) (encoded : d.encode? = some .empty) (domain command : String) (t : Transport) :
    Session.exchange domain command (.send (some d)) t = Session.exchange domain command (.send none) t ∧
      (Session.exchange domain command (.send (some d)) t).2.sent =
        t.sent ++ [(qualified domain command, .empty)] := by
  have wire : Exchange.written Kind.any.codec (some d) = .ok .empty := by
    rw [Exchange.written, Kind.codec]
    dsimp only
    rw [encoded]
  have same : Exchange.send Kind.any.codec domain command (some d) t =
      Exchange.send Kind.any.codec domain command none t := by
    rw [Exchange.send_written, Exchange.send_written, wire]
    rfl
  have goes := Exchange.course_after (Exchange.send_course Kind.any.codec domain command (some d) t)
  rw [Session.exchange, Session.exchange, Exchange.map_followed, Exchange.map_followed, ← same]
  refine ⟨rfl, ?_⟩
  rw [Exchange.followed, goes, Exchange.departed_sent, wire]
  rfl

theorem payload_round_trip (r : Record) (d : Datum) (fits : Fits (.record r) d) :
    (∃ members, (Kind.record r).codec.encode d = .ok (.object members) ∧
      members.map Prod.fst = (r.fields.filter fun f => (d.field? f).isSome).map Field.key ∧
      Value.read? d.toText = some (.object members) ∧
      Value.read? (Value.toText (.object members)) = some (.object members) ∧
      (Kind.record r).codec.decode (.object members) = .ok d) ∧
    ((∀ f ∈ r.fields, d.field? f = none) → ∀ domain command t,
      Session.exchange domain command (.send (some d)) t = Session.exchange domain command (.send none) t ∧
      (Session.exchange domain command (.send (some d)) t).2.sent =
        t.sent ++ [(qualified domain command, .empty)]) := by
  constructor
  · obtain ⟨v, crosses⟩ := fits_crosses (.record r) d fits
    obtain ⟨members, rfl, gives⟩ := record_members r d fits
    obtain ⟨values, encoded, rfl⟩ := Option.map_eq_some_iff.mp crosses.encoded
    have read := Value.text_read (.object values) crosses.free
    refine ⟨values, ?_, ?_, crosses.spelt ▸ read, read, ?_⟩
    · rw [Kind.codec]
      dsimp only
      rw [crosses.encoded]
    · rw [encoded_keys members values encoded]
      exact given_keys r members gives
    · rw [Kind.codec]
      dsimp only
      rw [Value.float_free_restated _ crosses.free, Option.bind_eq_bind, Option.bind_some, crosses.decoded]
  · intro absent domain command t
    rw [nothing_given r d fits absent]
    exact empty_sent (.record []) rfl domain command t

def bareFrame (id url : String) : Datum := .record [("id", .text id), ("url", .text url)]

theorem bare_frame_fits (id url : String) : Fits (.record .frame) (bareFrame id url) := by
  refine .record .frame _ (.given _ _ _ (.absent _ _ _ rfl (.given _ _ _ .nil))) ?_
  simp only [Record.fields, List.forall_mem_cons, need, may]
  refine ⟨?_, ?_, ?_, List.forall_mem_nil _⟩
  · simpa using Fits.text id
  · simp
  · simpa using Fits.text url

def leafTree (id url : String) : Datum := .record [("frame", bareFrame id url)]

theorem leaf_tree_fits (id url : String) : Fits (.record .frameTree) (leafTree id url) := by
  refine .record .frameTree _ (.given _ _ _ (.absent _ _ _ rfl .nil)) ?_
  simp only [Record.fields, List.forall_mem_cons, need, may]
  refine ⟨?_, ?_, List.forall_mem_nil _⟩
  · simpa using bare_frame_fits id url
  · simp

def nestedTree : Datum :=
  .record [("frame", bareFrame "\\" "\"\n"), ("childFrames", .list [leafTree "1" "é"])]

theorem nested_tree_fits : Fits (.record .frameTree) nestedTree := by
  refine .record .frameTree _ (.given _ _ _ (.given _ _ _ .nil)) ?_
  simp only [Record.fields, List.forall_mem_cons, need, may]
  refine ⟨?_, ?_, List.forall_mem_nil _⟩
  · simpa using bare_frame_fits "\\" "\"\n"
  · simpa using Fits.list _ _ (List.forall_mem_singleton.mpr (leaf_tree_fits "1" "é"))

theorem nested_tree_crosses :
    Fits (.record .frameTree) nestedTree ∧
    (∃ members, (Kind.record .frameTree).codec.encode nestedTree = .ok (.object members) ∧
      members.map Prod.fst = ["frame", "childFrames"] ∧
      (Kind.record .frameTree).codec.decode (.object members) = .ok nestedTree) ∧
    ∀ t, (Session.exchange "Page" "reload" (.send (some (.record []))) t).2.sent =
      t.sent ++ [("Page.reload", .empty)] := by
  obtain ⟨⟨members, encoded, keys, _, _, decoded⟩, _⟩ :=
    payload_round_trip .frameTree nestedTree nested_tree_fits
  have reload : Fits (.record .reloadParams) (.record []) :=
    .record .reloadParams [] (.absent _ _ _ rfl (.absent _ _ _ rfl .nil)) fun _ _ _ member =>
      (List.not_mem_nil member).elim
  have sent := (payload_round_trip .reloadParams (.record []) reload).2 fun _ _ => rfl
  exact ⟨nested_tree_fits, ⟨members, encoded, keys.trans rfl, decoded⟩,
    fun t => (sent "Page" "reload" t).2⟩

end ProtocolStubs.Payload
