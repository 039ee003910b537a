import ProtocolStubs.Json.Token

set_option autoImplicit false

namespace ProtocolStubs.Json

abbrev Reader (α : Type) := (tokens : List Token) → Option (α × ShorterRest tokens)

namespace Reader

variable {α β σ : Type}

def map (f : α → β) (read : Reader α) : Reader β := fun tokens =>
  match read tokens with
  | some (a, rest) => some (f a, rest)
  | none => none

def single (value? : Token → Option α) : Reader α
  | [] => none
  | token :: rest =>
    match value? token with
    | some a => some (a, ⟨rest, Nat.lt_succ_self _⟩)
    | none => none

-- Texts; null reads as the empty text.
def text : Reader String := single fun
  | .null => some ""
  | .text s => some s
  | _ => none

-- Truth values, also spelt out as texts.
def flag : Reader Bool := single fun
  | .flag b => some b
  | .text s => if s = "true" then some true else if s = "false" then some false else none
  | _ => none

def orNull (read : Reader α) : Reader (Option α) := fun tokens =>
  match tokens with
  | .null :: rest => some (none, ⟨rest, Nat.lt_succ_self _⟩)
  | tokens => read.map some tokens

def behindComma (tokens : List Token) : Rest tokens :=
  match tokens with
  | .comma :: rest => ⟨rest, Nat.le_succ _⟩
  | tokens => Rest.all tokens

def itemsFrom (item : Reader α) (tokens : List Token) : Option (List α × ShorterRest tokens) :=
  match tokens with
  | .closeList :: rest => some ([], ⟨rest, Nat.lt_succ_self _⟩)
  | tokens =>
    match item tokens with
    | none => none
    | some (a, ⟨after, short⟩) =>
      let ⟨next, short'⟩ := behindComma after
      have shorter : next.length < tokens.length := Nat.lt_of_le_of_lt short' short
      match itemsFrom item next with
      | some (more, ⟨rest, short''⟩) => some (a :: more, ⟨rest, Nat.lt_trans short'' shorter⟩)
      | none => none
termination_by tokens.length

-- Between two elements the comma may be missing and after the last one it may stand.
def list (item : Reader α) : Reader (List α) := fun tokens =>
  match tokens with
  | .openList :: rest =>
    match itemsFrom item rest with
    | some (items, ⟨after, short⟩) => some (items, ⟨after, Nat.lt_succ_of_lt short⟩)
    | none => none
  | _ => none

-- Goes on behind the token that closes what has been opened; `depth` more are open inside.
def closed (opener closer : Token) (depth : Nat) (tokens : List Token) :
    Option (ShorterRest tokens) :=
  match tokens with
  | [] => none
  | token :: rest =>
    if token = closer ∧ depth = 0 then some ⟨rest, Nat.lt_succ_self _⟩
    else
      let depth' :=
        if token = closer then depth - 1 else if token = opener then depth + 1 else depth
      match closed opener closer depth' rest with
      | some ⟨after, short⟩ => some ⟨after, Nat.lt_succ_of_lt short⟩
      | none => none

-- A member that no field asks for is passed over without a look at its form: of an object only the
-- braces have to match, of a list only the brackets.
def skip (tokens : List Token) : Option (ShorterRest tokens) :=
  match tokens with
  | [] => none
  | token :: rest =>
    let inside :=
      if token = .openObject then closed .openObject .closeObject 0 rest
      else if token = .openList then closed .openList .closeList 0 rest
      else none
    if token.isScalar then some ⟨rest, Nat.lt_succ_self _⟩
    else
      match inside with
      | some ⟨after, short⟩ => some ⟨after, Nat.lt_succ_of_lt short⟩
      | none => none

end Reader

structure Field (σ : Type) where
  key : String
  isRequired : Bool
  read : σ → Reader σ

namespace Field

variable {α σ : Type}

def required (key : String) (read : Reader α) (set : σ → α → σ) : Field σ :=
  ⟨key, true, fun record => read.map (set record)⟩

-- A field that may be left out or null.
def optional (key : String) (read : Reader α) (set : σ → Option α → σ) : Field σ :=
  ⟨key, false, fun record => (Reader.orNull read).map (set record)⟩

-- A field that may be left out but not be null.
def omittable (key : String) (read : Reader α) (set : σ → α → σ) : Field σ :=
  ⟨key, false, fun record => read.map (set record)⟩

end Field

namespace Reader

variable {α σ : Type}

-- The members up to the brace that closes the object, with the keys of the fields that were there.
def membersFrom (fields : List (Field σ)) (record : σ) (keys : List String)
    (tokens : List Token) : Option ((σ × List String) × ShorterRest tokens) :=
  match tokens with
  | .closeObject :: rest => some ((record, keys), ⟨rest, Nat.lt_succ_self _⟩)
  | .text key :: .colon :: rest =>
    let member : Option ((σ × List String) × ShorterRest rest) :=
      match fields.find? fun f => f.key == key with
      | some f =>
        match f.read record rest with
        | some (record, after) => some ((record, key :: keys), after)
        | none => none
      | none => (skip rest).map fun after => ((record, keys), after)
    match member with
    | none => none
    | some ((record, keys), ⟨after, short⟩) =>
      let ⟨next, short'⟩ := behindComma after
      have shorter : next.length < rest.length := Nat.lt_of_le_of_lt short' short
      match membersFrom fields record keys next with
      | some (result, ⟨end', short''⟩) =>
        some (result, ⟨end', by simp only [List.length_cons]; omega⟩)
      | none => none
  | _ => none
termination_by tokens.length
decreasing_by simp only [List.length_cons]; omega

-- An object as a record, starting from one without any field. No required field may be missing.
def record (start : σ) (fields : List (Field σ)) : Reader σ := fun tokens =>
  match tokens with
  | .openObject :: rest =>
    match membersFrom fields start [] rest with
    | some ((record, keys), ⟨after, short⟩) =>
      if fields.all fun f => !f.isRequired || keys.contains f.key then
        some (record, ⟨after, Nat.lt_succ_of_lt short⟩)
      else none
    | none => none
  | _ => none

def whole? (read : Reader α) (s : String) : Option α :=
  match tokens? s with
  | none => none
  | some tokens =>
    match read tokens with
    | some (a, ⟨[], _⟩) => some a
    | _ => none

end Reader

end ProtocolStubs.Json
