import ProtocolStubs.Layout.Pen

set_option autoImplicit false

namespace ProtocolStubs.Layout

-- Beside the nesting of blocks, indentation can be held and released again at any time, also inside a
-- block that began earlier.
inductive Stroke where
  | write (text : String)
  | line (text : String)
  | blank
  | comment (lead text : String)
  | hold
  | release
  | block (opener closer : String) (body : List Stroke)
deriving Repr, BEq, Inhabited

-- The pen, how many levels are held besides the blocks, and the level after each stroke so far.
structure Desk where
  pen : Pen
  held : Nat
  levels : List Nat
deriving DecidableEq, Repr

namespace Desk

def start (indent : String) : Desk := ⟨.start indent, 0, []⟩

def note (d : Desk) : Desk := { d with levels := d.levels ++ [d.pen.level] }

mutual

def run (d : Desk) : Stroke → Desk
  | .write text => { d with pen := d.pen.write text }.note
  | .line text => { d with pen := d.pen.line text }.note
  | .blank => { d with pen := d.pen.endLine }.note
  | .comment lead text => { d with pen := d.pen.comment lead text }.note
  | .hold => { d with pen := d.pen.deepen, held := d.held + 1 }.note
  | .release =>
    if d.held = 0 then d.note
    else { d with pen := d.pen.lighten, held := d.held - 1 }.note
  | .block opener closer body =>
    let inside := runAll { d with pen := (d.pen.line opener).deepen } body
    { inside with pen := inside.pen.lighten.line closer }.note

def runAll (d : Desk) : List Stroke → Desk
  | [] => d
  | stroke :: rest => runAll (run d stroke) rest

end

end Desk

end ProtocolStubs.Layout
