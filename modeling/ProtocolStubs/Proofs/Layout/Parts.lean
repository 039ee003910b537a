import ProtocolStubs.Proofs.Layout.Blocks

set_option autoImplicit false

namespace ProtocolStubs

open Text (Ended inked lines trimEnd)

namespace Text

theorem lines_from_feed (held before after : List Char) :
    linesFrom held (before ++ '\n' :: after) =
      linesFrom held (before ++ ['\n']) ++ linesFrom [] after := by
  induction before generalizing held with
  | nil => simp [linesFrom]
  | cons c before ih =>
    simp only [List.cons_append, linesFrom, ih]
    split <;> rfl

theorem lines_ended (s t : String) (ended : Ended s) : lines (s ++ t) = lines s ++ lines t := by
  rcases ended with rfl | ⟨s, rfl⟩
  · rw [String.empty_append]
    rfl
  · have feed : ("\n" : String).toList = ['\n'] := rfl
    rw [lines, lines, lines, String.toList_append, String.toList_append, feed, List.append_assoc]
    exact (congrArg (List.map String.ofList) (lines_from_feed [] s.toList t.toList)).trans List.map_append

end Text

namespace Layout

namespace Pen

def behind (lead : String) (p : Pen) : Pen := { p with out := lead ++ p.out }

theorem write_behind (lead text : String) (p : Pen) :
    (p.behind lead).write text = (p.write text).behind lead := by
  rw [write, write]
  split
  · rfl
  · simp only [behind, String.append_assoc]
    split <;> rfl

theorem end_line_behind (lead : String) (p : Pen) : (p.behind lead).endLine = p.endLine.behind lead := by
  simp [behind, endLine, String.append_assoc]

theorem bare_line_behind (lead text : String) (p : Pen) :
    (p.behind lead).bareLine text = (p.bareLine text).behind lead := by
  rw [bareLine, write_behind, end_line_behind, bareLine]

theorem line_behind (lead text : String) (p : Pen) :
    (p.behind lead).line text = (p.line text).behind lead := by
  have each : ∀ (texts : List String) (p : Pen),
      texts.foldl bareLine (p.behind lead) = (texts.foldl bareLine p).behind lead := by
    intro texts
    induction texts with
    | nil => exact fun _ => rfl
    | cons text rest ih =>
      intro p
      rw [List.foldl_cons, List.foldl_cons, bare_line_behind, ih]
  rw [line, line]
  split
  · exact each _ p
  · exact bare_line_behind lead text p

end Pen

namespace Code

mutual

theorem write_behind (lead : String) (p : Pen) :
    (code : Code) → write (p.behind lead) code = (write p code).behind lead
  | .line text => Pen.line_behind lead text p
  | .blank => Pen.end_line_behind lead p
  | .nest body => by
    rw [write, write]
    exact congrArg Pen.lighten (write_all_behind lead p.deepen body)

theorem write_all_behind (lead : String) (p : Pen) :
    (code : List Code) → writeAll (p.behind lead) code = (writeAll p code).behind lead
  | [] => rfl
  | code :: rest => by
    rw [writeAll, writeAll, write_behind lead p code, write_all_behind lead _ rest]

end

theorem write_all_append (p : Pen) (first second : List Code) :
    writeAll p (first ++ second) = writeAll (writeAll p first) second := by
  induction first generalizing p with
  | nil => rfl
  | cons code rest ih => exact ih (write p code)

-- What code becomes at a depth, as a text of its own.
def textAt (indent : String) (depth : Nat) (code : List Code) : String :=
  (writeAll ⟨indent, depth, true, ""⟩ code).out

section Texts

variable (indent : String) (margin : Margin indent)

include margin

theorem write_all_fresh (depth : Nat) (code : List Code) :
    writeAll ⟨indent, depth, true, ""⟩ code = ⟨indent, depth, true, textAt indent depth code⟩ := by
  obtain ⟨sameIndent, sameLevel, fresh, _⟩ := write_all_grows ⟨indent, depth, true, ""⟩ rfl margin code
  rw [textAt]
  generalize writeAll ⟨indent, depth, true, ""⟩ code = p at sameIndent sameLevel fresh ⊢
  obtain ⟨_, _, _, _⟩ := p
  cases sameIndent
  cases sameLevel
  cases fresh
  rfl

theorem text_at_ended (depth : Nat) (code : List Code) : Ended (textAt indent depth code) := by
  obtain ⟨s, out, ended, _⟩ := (write_all_grows ⟨indent, depth, true, ""⟩ rfl margin code).out
  rw [textAt, out, String.empty_append]
  exact ended

theorem inked_text_at (depth : Nat) (code : List Code) :
    inked (textAt indent depth code) = rowsOf indent (piecesAll depth code) := by
  obtain ⟨s, out, _, rows⟩ := (write_all_grows ⟨indent, depth, true, ""⟩ rfl margin code).out
  rw [textAt, out, String.empty_append]
  exact rows

theorem text_at_append (depth : Nat) (first second : List Code) :
    textAt indent depth (first ++ second) = textAt indent depth first ++ textAt indent depth second := by
  have lead : Pen.mk indent depth true (textAt indent depth first) =
      Pen.behind (textAt indent depth first) ⟨indent, depth, true, ""⟩ := by simp [Pen.behind]
  rw [textAt, write_all_append, write_all_fresh indent margin, lead, write_all_behind]
  rfl

end Texts

theorem text_at_nest (indent : String) (depth : Nat) (body : List Code) :
    textAt indent depth [.nest body] = textAt indent (depth + 1) body := rfl

end Code

-- A blank line may stay before the first line with text, but from there on nothing above matters.
theorem kept_below_above (above : Option String) (rows : List String) :
    keptBelow none rows <:+ keptBelow above rows := by
  induction rows generalizing above with
  | nil => exact List.suffix_rfl
  | cons row rest ih =>
    by_cases blank : row = ""
    · rw [keptBelow, keptBelow, if_pos ⟨blank, .inl rfl⟩]
      split
      · exact ih above
      · exact (ih (some row)).trans (List.suffix_cons row _)
    · have same : keptBelow none (row :: rest) = keptBelow above (row :: rest) := by
        rw [keptBelow, keptBelow, if_neg fun dropped => blank dropped.1, if_neg fun dropped => blank dropped.1]
      exact same ▸ List.suffix_rfl

theorem kept_below_behind (above : Option String) (before rows : List String) :
    keptBelow none rows <:+ keptBelow above (before ++ rows) := by
  induction before generalizing above with
  | nil => exact kept_below_above above rows
  | cons row rest ih =>
    rw [List.cons_append, keptBelow]
    split
    · exact ih above
    · exact (ih (some row)).trans (List.suffix_cons row _)

theorem closes_below_append (below after : List String) (text : ∃ row ∈ below, row ≠ "") :
    closesBelow (below ++ after) = closesBelow below := by
  obtain ⟨row, found⟩ : ∃ row, below.find? (fun line => line ≠ "") = some row :=
    Option.isSome_iff_exists.mp (List.find?_isSome.mpr (by simpa using text))
  rw [closesBelow, closesBelow, List.find?_append, found]
  rfl

theorem kept_below_blank (above : Option String) (rows : List String) (blank : ∀ row ∈ rows, row = "") :
    keptBelow above rows = [] := by
  induction rows with
  | nil => rfl
  | cons row rest ih =>
    obtain ⟨here, later⟩ := List.forall_mem_cons.mp blank
    have nothing : rest.find? (fun line => line ≠ "") = none :=
      List.find?_eq_none.mpr fun row member => by simpa using later row member
    have closes : closesBelow rest = true := by rw [closesBelow, nothing]
    rw [keptBelow, if_pos ⟨here, .inr closes⟩, ih later]

-- Blank lines at the end go with what follows; before them nothing below matters.
theorem kept_below_before (above : Option String) (rows after : List String) :
    keptBelow above rows <+: keptBelow above (rows ++ after) := by
  induction rows generalizing above with
  | nil => exact List.nil_prefix
  | cons row rest ih =>
    by_cases blank : ∀ other ∈ row :: rest, other = ""
    · rw [kept_below_blank above _ blank]
      exact List.nil_prefix
    · have same : row = "" → closesBelow (rest ++ after) = closesBelow rest := by
        intro here
        apply closes_below_append
        by_contra later
        exact blank (List.forall_mem_cons.mpr ⟨here, fun other member =>
          not_not.mp fun text => later ⟨other, member, text⟩⟩)
      have kept : (row = "" ∧ (opensAbove above ∨ closesBelow (rest ++ after))) ↔
          row = "" ∧ (opensAbove above ∨ closesBelow rest) := by
        refine and_congr_right fun here => ?_
        rw [same here]
      rw [List.cons_append, keptBelow, keptBelow, if_congr kept rfl rfl]
      split
      · exact ih above
      · exact (List.prefix_cons_inj row).mpr (ih (some row))

theorem kept_below_part (before part after : List String) :
    keptBelow none part <:+: keptBelow none (before ++ part ++ after) := by
  rw [List.append_assoc]
  exact (kept_below_before none part after).isInfix.trans (kept_below_behind none before _).isInfix

def closed (rows : List String) : String := String.ofList (rows.flatMap fun row => row.toList ++ ['\n'])

theorem closed_append (first second : List String) :
    closed (first ++ second) = closed first ++ closed second := by
  rw [closed, List.flatMap_append]
  exact String.ofList_append

theorem closed_ended (rows : List String) : Ended (closed rows) := by
  rcases List.eq_nil_or_concat rows with rfl | ⟨before, last, rfl⟩
  · exact .inl rfl
  · refine .inr ⟨closed before ++ last, ?_⟩
    rw [List.concat_eq_append, closed_append, String.append_assoc]
    exact congrArg (closed before ++ ·) (String.toList_injective (by simp [closed]))

theorem joined_closed (rows : List String) (given : rows ≠ []) :
    Text.joinWith "\n" rows ++ "\n" = closed rows := by
  induction rows with
  | nil => exact absurd rfl given
  | cons row rest ih =>
    apply String.toList_injective
    cases rest with
    | nil => simp [Text.joinWith, closed]
    | cons next rest =>
      have later := congrArg String.toList (ih (List.cons_ne_nil _ _))
      rw [joined_cons, String.append_assoc, String.toList_append, later]
      simp [closed]

def tidied (source : String) : List String := keptBelow none ((lines source).map trimEnd)

theorem tidied_given (source : String) (given : inked source ≠ []) : tidied source ≠ [] := by
  intro nothing
  rw [inked, ← kept_below_inked none] at given
  rw [tidied] at nothing
  rw [nothing] at given
  exact given rfl

theorem tidy_closed (source : String) (given : inked source ≠ []) : tidy source = closed (tidied source) :=
  joined_closed _ (tidied_given source given)

-- A text that stands in another, where a line of that begins.
def Embedded (part whole : String) : Prop := ∃ front back, Ended front ∧ whole = front ++ part ++ back

theorem tidy_embeds (before part after : String) (first : Ended before) (own : Ended part)
    (given : inked part ≠ []) : Embedded (tidy part) (tidy (before ++ part ++ after)) := by
  have rows : tidied part <:+: tidied (before ++ part ++ after) := by
    have cut : (lines (before ++ part ++ after)).map trimEnd =
        (lines before).map trimEnd ++ (lines part).map trimEnd ++ (lines after).map trimEnd := by
      rw [Text.lines_ended _ after (Text.ended_append before part first own),
        Text.lines_ended before part first, List.map_append, List.map_append]
    rw [tidied, tidied, cut]
    exact kept_below_part _ _ _
  obtain ⟨front, back, same⟩ := rows
  have whole : inked (before ++ part ++ after) ≠ [] := by
    rw [Text.inked_ended _ after (Text.ended_append before part first own),
      Text.inked_ended before part first]
    simp [given]
  refine ⟨closed front, closed back, closed_ended front, ?_⟩
  rw [tidy_closed _ whole, tidy_closed part given, ← same, closed_append, closed_append]

theorem part_embeds (indent : String) (margin : Margin indent) (part code : List Code)
    (within : part <:+: code) (given : rowsOf indent (Code.piecesAll 0 part) ≠ []) :
    Embedded (tidy (Code.text indent part)) (tidy (Code.text indent code)) := by
  obtain ⟨before, after, rfl⟩ := within
  have text : ∀ code, Code.text indent code = Code.textAt indent 0 code := fun _ => rfl
  rw [text (before ++ part ++ after), Code.text_at_append indent margin, Code.text_at_append indent margin]
  rw [← Code.inked_text indent margin] at given
  exact tidy_embeds _ _ _ (Code.text_at_ended indent margin 0 before)
    (Code.text_at_ended indent margin 0 part) given

end Layout

end ProtocolStubs
