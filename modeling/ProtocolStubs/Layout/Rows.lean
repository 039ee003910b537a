import ProtocolStubs.Layout.Code

set_option autoImplicit false

namespace ProtocolStubs.Layout.Code

-- Here every row that holds anything, be it only blanks, stands behind its indentation, and nothing
-- follows the last row. A carriage return is dropped only before a line feed of the text itself.
def indented (indentation row : String) : String := if row = "" then row else indentation ++ row

mutual

def rows (indent indentation : String) : Code → List String
  | .line text => (Text.openLines text).map (indented indentation)
  | .blank => [""]
  | .nest body => rowsAll indent (indentation ++ indent) body

def rowsAll (indent indentation : String) : List Code → List String
  | [] => []
  | code :: rest => rows indent indentation code ++ rowsAll indent indentation rest

end

def rowText (indent : String) (code : List Code) : String :=
  Text.joinWith "\n" (rowsAll indent "" code)

end ProtocolStubs.Layout.Code
