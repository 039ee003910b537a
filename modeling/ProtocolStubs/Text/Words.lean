import ProtocolStubs.Text.Alphanumeric
import ProtocolStubs.Text.LetterCase

set_option autoImplicit false

namespace ProtocolStubs.Text

inductive CaseRun where
  | none
  | lower
  | upper
deriving DecidableEq

def CaseRun.next (run : CaseRun) (c : Char) : CaseRun :=
  if isLower c then .lower else if isUpper c then .upper else run

-- The words of a piece, of whose first word `held` has been read already, last character first. A piece
-- is cut where a capital follows a small letter and before the last capital of a run that a small
-- letter follows; digits and caseless letters join the run they stand in.
def wordsFrom (held : List Char) (run : CaseRun) : List Char → List (List Char)
  | [] => []
  | [c] => [(c :: held).reverse]
  | c :: next :: rest =>
    if run.next c = .lower ∧ isUpper next then
      (c :: held).reverse :: wordsFrom [] .none (next :: rest)
    else if run = .upper ∧ isUpper c ∧ isLower next then
      held.reverse :: wordsFrom [c] .none (next :: rest)
    else
      wordsFrom (c :: held) (run.next c) (next :: rest)

def piecesFrom (held : List Char) : List Char → List (List Char)
  | [] => if held.isEmpty then [] else [held.reverse]
  | c :: rest =>
    if isAlphanumeric c then piecesFrom (c :: held) rest
    else if held.isEmpty then piecesFrom [] rest
    else held.reverse :: piecesFrom [] rest

def words (name : List Char) : List (List Char) :=
  (piecesFrom [] name).flatMap (wordsFrom [] .none)

-- A capital sigma that ends its word takes the final form.
def lowered : List Char → List Char
  | [] => []
  | [c] => if c = 'Σ' then ['ς'] else toLower c
  | c :: rest => toLower c ++ lowered rest

def capitalized : List Char → List Char
  | [] => []
  | c :: rest => toUpper c ++ lowered rest

def snakeCase (name : String) : String :=
  String.ofList (List.intercalate ['_'] ((words name.toList).map lowered))

def upperCamelCase (name : String) : String :=
  String.ofList ((words name.toList).flatMap capitalized)

end ProtocolStubs.Text
