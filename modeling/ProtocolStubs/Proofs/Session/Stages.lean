import ProtocolStubs.Session.Operations

set_option autoImplicit false

namespace ProtocolStubs

-- A reply that fails its command carries an error with both a message and a code, whatever else it
-- carries.
def Reply.Refuses (reply : Reply) (text : String) (code : Int) : Prop :=
  ∃ data, reply.error = some ⟨some text, some code, data⟩

theorem failure_refuses (reply : Reply) (method : String) (failure : ProtocolError) :
    reply.failure? method = some failure ↔
      reply.Refuses failure.text failure.code ∧ failure.method = method := by
  obtain ⟨error, result⟩ := reply
  obtain ⟨text, code, name⟩ := failure
  rcases error with _ | ⟨_ | message, _ | number, data⟩
  all_goals simp [Reply.failure?, Reply.Refuses, and_assoc, eq_comm]

theorem no_failure_refuses (reply : Reply) (method : String) :
    reply.failure? method = none ↔ ∀ text code, ¬reply.Refuses text code := by
  obtain ⟨error, result⟩ := reply
  rcases error with _ | ⟨_ | message, _ | number, data⟩
  all_goals simp [Reply.failure?, Reply.Refuses]

namespace Exchange

variable {α β γ δ : Type}

-- How an exchange goes whose parameters encode as `wire` and whose result is read by `read`.
inductive Course (wire : Except PayloadError Value) (method : String)
    (read : Option Value → Except PayloadError γ) (t : Transport) :
    Except CallError γ → Transport → Prop where
  | unencoded (cause : PayloadError) (fails : wire = .error cause) :
      Course wire method read t (.error (.payload cause)) t
  | lost (params : Value) (cause : TransportError) (encoded : wire = .ok params)
      (fails : (t.send method params).2 = .error cause) :
      Course wire method read t (.error (.transport cause)) (t.send method params).1
  | refused (params : Value) (reply : Reply) (text : String) (code : Int)
      (encoded : wire = .ok params) (replied : (t.send method params).2 = .ok reply)
      (fails : reply.Refuses text code) :
      Course wire method read t (.error (.protocol ⟨text, code, method⟩)) (t.send method params).1
  | undecoded (params : Value) (reply : Reply) (cause : PayloadError) (encoded : wire = .ok params)
      (replied : (t.send method params).2 = .ok reply)
      (accepted : ∀ text code, ¬reply.Refuses text code) (fails : read reply.result = .error cause) :
      Course wire method read t (.error (.payload cause)) (t.send method params).1
  | answered (params : Value) (reply : Reply) (result : γ) (encoded : wire = .ok params)
      (replied : (t.send method params).2 = .ok reply)
      (accepted : ∀ text code, ¬reply.Refuses text code) (decoded : read reply.result = .ok result) :
      Course wire method read t (.ok result) (t.send method params).1

variable {wire : Except PayloadError Value} {method : String}
  {read : Option Value → Except PayloadError γ} {t after : Transport} {ended : Except CallError γ}

theorem refuses_unique (reply : Reply) (text other : String) (code number : Int)
    (one : reply.Refuses text code) (two : reply.Refuses other number) :
    text = other ∧ code = number := by
  obtain ⟨data, first⟩ := one
  obtain ⟨_, second⟩ := two
  rw [first] at second
  cases second
  exact ⟨rfl, rfl⟩

def departed (wire : Except PayloadError Value) (method : String) (t : Transport) : Transport :=
  match wire with
  | .ok params => (t.send method params).1
  | .error _ => t

theorem course_after (course : Course wire method read t ended after) :
    after = departed wire method t := by
  cases course with
  | unencoded cause fails => simp [departed, fails]
  | lost params cause encoded => simp [departed, encoded]
  | refused params reply text code encoded => simp [departed, encoded]
  | undecoded params reply cause encoded => simp [departed, encoded]
  | answered params reply result encoded => simp [departed, encoded]

theorem departed_sent (wire : Except PayloadError Value) (method : String) (t : Transport) :
    (departed wire method t).sent =
      t.sent ++ (wire.toOption.map fun params => (method, params)).toList := by
  cases wire with
  | error cause => exact (List.append_nil _).symm
  | ok params => rfl

theorem sent_once (params other : Value) (outcome outcome' : Except TransportError Reply)
    (encoded : wire = .ok params) (encoded' : wire = .ok other)
    (replied : (t.send method params).2 = outcome) (replied' : (t.send method other).2 = outcome') :
    outcome = outcome' := by
  cases encoded.symm.trans encoded'
  exact replied.symm.trans replied'

theorem course_unique (ended' : Except CallError γ) (after' : Transport)
    (one : Course wire method read t ended after) (two : Course wire method read t ended' after') :
    ended = ended' := by
  cases one with
  | unencoded cause fails =>
    cases two with
    | unencoded _ fails' =>
      cases fails.symm.trans fails'
      rfl
    | lost _ _ encoded => cases fails.symm.trans encoded
    | refused _ _ _ _ encoded => cases fails.symm.trans encoded
    | undecoded _ _ _ encoded => cases fails.symm.trans encoded
    | answered _ _ _ encoded => cases fails.symm.trans encoded
  | lost params cause encoded fails =>
    cases two with
    | unencoded _ fails' => cases encoded.symm.trans fails'
    | lost _ _ encoded' fails' =>
      cases sent_once _ _ _ _ encoded encoded' fails fails'
      rfl
    | refused _ _ _ _ encoded' replied => cases sent_once _ _ _ _ encoded encoded' fails replied
    | undecoded _ _ _ encoded' replied => cases sent_once _ _ _ _ encoded encoded' fails replied
    | answered _ _ _ encoded' replied => cases sent_once _ _ _ _ encoded encoded' fails replied
  | refused params reply text code encoded replied fails =>
    cases two with
    | unencoded _ fails' => cases encoded.symm.trans fails'
    | lost _ _ encoded' fails' => cases sent_once _ _ _ _ encoded encoded' replied fails'
    | refused _ _ other number encoded' replied' fails' =>
      cases sent_once _ _ _ _ encoded encoded' replied replied'
      obtain ⟨rfl, rfl⟩ := refuses_unique reply text other code number fails fails'
      rfl
    | undecoded _ _ _ encoded' replied' accepted =>
      cases sent_once _ _ _ _ encoded encoded' replied replied'
      exact absurd fails (accepted text code)
    | answered _ _ _ encoded' replied' accepted =>
      cases sent_once _ _ _ _ encoded encoded' replied replied'
      exact absurd fails (accepted text code)
  | undecoded params reply cause encoded replied accepted fails =>
    cases two with
    | unencoded _ fails' => cases encoded.symm.trans fails'
    | lost _ _ encoded' fails' => cases sent_once _ _ _ _ encoded encoded' replied fails'
    | refused _ _ text code encoded' replied' refuses =>
      cases sent_once _ _ _ _ encoded encoded' replied replied'
      exact absurd refuses (accepted text code)
    | undecoded _ _ _ encoded' replied' _ fails' =>
      cases sent_once _ _ _ _ encoded encoded' replied replied'
      cases fails.symm.trans fails'
      rfl
    | answered _ _ _ encoded' replied' _ decoded =>
      cases sent_once _ _ _ _ encoded encoded' replied replied'
      cases fails.symm.trans decoded
  | answered params reply result encoded replied accepted decoded =>
    cases two with
    | unencoded _ fails' => cases encoded.symm.trans fails'
    | lost _ _ encoded' fails' => cases sent_once _ _ _ _ encoded encoded' replied fails'
    | refused _ _ text code encoded' replied' refuses =>
      cases sent_once _ _ _ _ encoded encoded' replied replied'
      exact absurd refuses (accepted text code)
    | undecoded _ _ _ encoded' replied' _ fails =>
      cases sent_once _ _ _ _ encoded encoded' replied replied'
      cases decoded.symm.trans fails
    | answered _ _ _ encoded' replied' _ decoded' =>
      cases sent_once _ _ _ _ encoded encoded' replied replied'
      cases decoded.symm.trans decoded'
      rfl

theorem course_transport (cause : TransportError) (course : Course wire method read t ended after) :
    ended = .error (.transport cause) ↔
      ∃ params, wire = .ok params ∧ (t.send method params).2 = .error cause := by
  constructor
  · intro fate
    subst fate
    cases course with
    | lost params _ encoded fails => exact ⟨params, encoded, fails⟩
  · intro given
    obtain ⟨params, encoded, fails⟩ := given
    exact course_unique _ _ course (.lost params cause encoded fails)

theorem course_protocol (failure : ProtocolError) (course : Course wire method read t ended after) :
    ended = .error (.protocol failure) ↔
      ∃ params reply, wire = .ok params ∧ (t.send method params).2 = .ok reply ∧
        reply.Refuses failure.text failure.code ∧ failure.method = method := by
  obtain ⟨text, code, name⟩ := failure
  constructor
  · intro fate
    subst fate
    cases course with
    | refused params reply _ _ encoded replied fails =>
      exact ⟨params, reply, encoded, replied, fails, rfl⟩
  · intro given
    obtain ⟨params, reply, encoded, replied, fails, rfl⟩ := given
    exact course_unique _ _ course (.refused params reply text code encoded replied fails)

theorem course_payload (cause : PayloadError) (course : Course wire method read t ended after) :
    ended = .error (.payload cause) ↔
      wire = .error cause ∨ ∃ params reply, wire = .ok params ∧
        (t.send method params).2 = .ok reply ∧ (∀ text code, ¬reply.Refuses text code) ∧
        read reply.result = .error cause := by
  constructor
  · intro fate
    subst fate
    cases course with
    | unencoded _ fails => exact .inl fails
    | undecoded params reply _ encoded replied accepted fails =>
      exact .inr ⟨params, reply, encoded, replied, accepted, fails⟩
  · intro given
    obtain fails | ⟨params, reply, encoded, replied, accepted, fails⟩ := given
    · exact course_unique _ _ course (.unencoded cause fails)
    · exact course_unique _ _ course (.undecoded params reply cause encoded replied accepted fails)

theorem course_ok (result : γ) (course : Course wire method read t ended after) :
    ended = .ok result ↔
      ∃ params reply, wire = .ok params ∧ (t.send method params).2 = .ok reply ∧
        (∀ text code, ¬reply.Refuses text code) ∧ read reply.result = .ok result := by
  constructor
  · intro fate
    subst fate
    cases course with
    | answered params reply _ encoded replied accepted decoded =>
      exact ⟨params, reply, encoded, replied, accepted, decoded⟩
  · intro given
    obtain ⟨params, reply, encoded, replied, accepted, decoded⟩ := given
    exact course_unique _ _ course (.answered params reply result encoded replied accepted decoded)

theorem call_course (domain command : String) (params : Option Value) (t : Transport) :
    Course (.ok (params.getD .empty)) (qualified domain command) .ok t
      (call domain command params t).1 (call domain command params t).2 := by
  have goes : t.send (qualified domain command) (params.getD .empty) =
      ((t.send (qualified domain command) (params.getD .empty)).1,
        (t.send (qualified domain command) (params.getD .empty)).2) := rfl
  unfold call
  dsimp only
  rw [goes]
  cases replied : (t.send (qualified domain command) (params.getD .empty)).2 with
  | error cause => exact .lost _ cause rfl replied
  | ok reply =>
    dsimp only
    cases failed : reply.failure? (qualified domain command) with
    | none =>
      exact .answered _ reply reply.result rfl replied
        ((no_failure_refuses reply _).mp failed) rfl
    | some failure =>
      obtain ⟨text, code, name⟩ := failure
      obtain ⟨refuses, rfl⟩ := (failure_refuses reply _ _).mp failed
      exact .refused _ reply text code rfl replied refuses

def written (codec : Codec α) : Option α → Except PayloadError Value
  | none => .ok .empty
  | some params => codec.encode params

theorem send_written (codec : Codec α) (domain command : String) (params : Option α) (t : Transport) :
    send codec domain command params t = match written codec params with
      | .ok value => call domain command (some value) t
      | .error cause => (.error (.payload cause), t) := by
  cases params with
  | none => rfl
  | some params =>
    simp only [send, encoded, written]
    cases codec.encode params <;> rfl

theorem send_course (codec : Codec α) (domain command : String) (params : Option α) (t : Transport) :
    Course (written codec params) (qualified domain command) .ok t
      (send codec domain command params t).1 (send codec domain command params t).2 := by
  rw [send_written]
  cases encoded : written codec params with
  | error cause => exact .unencoded cause rfl
  | ok value => exact call_course domain command (some value) t

def followed (next : γ → Except CallError δ) (run : Except CallError γ × Transport) :
    Except CallError δ × Transport :=
  (run.1 >>= next, run.2)

theorem bind_run (x : Exchange γ) (f : γ → Exchange δ) (t : Transport) :
    (x >>= f) t = match x t with
      | (.ok a, u) => f a u
      | (.error cause, u) => (.error cause, u) := by
  change (match x t with | (r, u) => (ExceptT.bindCont f r) u) = _
  rcases x t with ⟨result | result, u⟩ <;> rfl

theorem bind_followed (x : Exchange γ) (next : γ → Except CallError δ) (t : Transport) :
    (x >>= fun a => liftM (next a) : Exchange δ) t = followed next (x t) := by
  rw [bind_run]
  rcases x t with ⟨cause | a, u⟩
  · rfl
  · change (liftM (next a) : Exchange δ) u = (next a, u)
    cases next a <;> rfl

theorem invoke_followed (params : Codec α) (result : Codec β) (domain command : String)
    (given : Option α) (t : Transport) :
    invoke params result domain command given t =
      followed (decoded result) (send params domain command given t) :=
  bind_followed _ _ t

theorem fetch_invoke (params : Codec α) (result : Codec β) (domain command : String) :
    fetch result domain command = invoke params result domain command none := rfl

theorem map_followed (f : γ → δ) (x : Exchange γ) (t : Transport) :
    (f <$> x) t = followed (fun a => .ok (f a)) (x t) :=
  bind_followed x (fun a => .ok (f a)) t

theorem course_followed (more : γ → Except PayloadError δ) (next : γ → Except CallError δ)
    (same : ∀ a, next a = (more a).mapError .payload)
    (run : Except CallError γ × Transport) (course : Course wire method read t run.1 run.2) :
    Course wire method (fun result => read result >>= more) t (followed next run).1
      (followed next run).2 := by
  obtain ⟨ended, after⟩ := run
  cases course with
  | unencoded cause fails => exact .unencoded cause fails
  | lost params cause encoded fails => exact .lost params cause encoded fails
  | refused params reply text code encoded replied fails =>
    exact .refused params reply text code encoded replied fails
  | undecoded params reply cause encoded replied accepted fails =>
    exact .undecoded params reply cause encoded replied accepted (by simp only [fails]; rfl)
  | answered params reply result encoded replied accepted decoded =>
    have reads : (read reply.result >>= more) = more result := by simp only [decoded]; rfl
    change Course wire method _ t (next result) (t.send method params).1
    rw [same result]
    cases ends : more result with
    | error cause => exact .undecoded params reply cause encoded replied accepted (reads.trans ends)
    | ok final => exact .answered params reply final encoded replied accepted (reads.trans ends)

theorem decoded_stage (result : Codec β) (value : Option Value) :
    decoded result value = (result.decode (value.getD .empty)).mapError .payload := by
  unfold decoded
  cases result.decode (value.getD .empty) <;> rfl

theorem invoke_course (params : Codec α) (result : Codec β) (domain command : String)
    (given : Option α) (t : Transport) :
    Course (written params given) (qualified domain command)
      (fun value => result.decode (value.getD .empty)) t
      (invoke params result domain command given t).1
      (invoke params result domain command given t).2 := by
  rw [invoke_followed]
  exact course_followed _ _ (decoded_stage result) _ (send_course params domain command given t)

end Exchange

end ProtocolStubs
