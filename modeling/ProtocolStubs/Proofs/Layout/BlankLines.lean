import Mathlib.Data.List.Chain
import ProtocolStubs.Proofs.Layout.Parts
import ProtocolStubs.Proofs.Text.Lines

set_option autoImplicit false

namespace ProtocolStubs

open Text (inked lines OneLine Trimmed firstInk trimEnd)

namespace Layout

structure Follows (upper lower : String) : Prop where
  single : ¬(upper = "" ∧ lower = "")
  opened : Text.endsWith upper '\x7b' = true → lower ≠ ""
  closing : firstInk lower = some '\x7d' → upper ≠ ""

structure Orderly (rows : List String) : Prop where
  trimmed : ∀ row ∈ rows, Trimmed row
  begins : rows.head? ≠ some ""
  ends : rows.getLast? ≠ some ""
  follow : rows.IsChain Follows

-- The form of tidied text: orderly lines, each with its line feed, or a line feed alone.
def Normal (text : String) : Prop :=
  text = "\n" ∨ ∃ rows, text = closed rows ∧ rows ≠ [] ∧ (∀ row ∈ rows, OneLine row) ∧ Orderly rows

theorem lines_closed (rows : List String) (each : ∀ row ∈ rows, OneLine row ∧ Trimmed row) :
    lines (closed rows) = rows := by
  induction rows with
  | nil => rfl
  | cons row rest ih =>
    obtain ⟨⟨line, trimmed⟩, later⟩ := List.forall_mem_cons.mp each
    have cut : (closed (row :: rest)).toList = row.toList ++ '\n' :: (closed rest).toList := by
      simp [closed]
    rw [lines, cut, Text.lines_from_row row _ line trimmed, List.map_cons, String.ofList_toList]
    exact congrArg (row :: ·) (ih later)

theorem opens_above_some (above : String) :
    opensAbove (some above) = true ↔ above = "" ∨ Text.endsWith above '\x7b' = true := by
  simp [opensAbove]

theorem closes_below_first (below : List String) (next : String)
    (found : below.find? (fun line => line ≠ "") = some next) :
    closesBelow below = true ↔ firstInk next = some '\x7d' := by
  rw [closesBelow, found]
  simp [Text.startsWith, Text.trim_start_ink]

theorem closes_below_nothing (below : List String)
    (nothing : below.find? (fun line => line ≠ "") = none) : closesBelow below = true := by
  rw [closesBelow, nothing]

theorem kept_below_text (above : Option String) (row : String) (rest : List String) (text : row ≠ "") :
    keptBelow above (row :: rest) = row :: keptBelow (some row) rest := by
  rw [keptBelow, if_neg fun dropped => text dropped.1]

theorem kept_below_head (above : Option String) (rows : List String) (opens : opensAbove above = true) :
    (keptBelow above rows).head? = rows.find? fun row => row ≠ "" := by
  induction rows with
  | nil => rfl
  | cons row rest ih =>
    by_cases blank : row = ""
    · rw [keptBelow, if_pos ⟨blank, .inl opens⟩, ih]
      simp [blank]
    · rw [kept_below_text above row rest blank]
      simp [blank]

theorem find_text (rows : List String) (row : String)
    (found : rows.find? (fun row => row ≠ "") = some row) : row ≠ "" := by
  simpa using List.find?_some found

theorem kept_below_under (row : String) (rest : List String)
    (kept : ¬(row = "" ∧ closesBelow rest = true)) :
    ∀ lower ∈ (keptBelow (some row) rest).head?, Follows row lower := by
  intro lower next
  by_cases opens : opensAbove (some row) = true
  · rw [kept_below_head (some row) rest opens] at next
    have text := find_text rest lower next
    refine ⟨fun both => text both.2, fun _ => text, ?_⟩
    intro closes blank
    exact kept ⟨blank, (closes_below_first rest lower next).mpr closes⟩
  · rw [opens_above_some, not_or] at opens
    exact ⟨fun both => opens.1 both.1, fun ends => absurd ends opens.2, fun _ => opens.1⟩

theorem kept_below_chain (above : Option String) (rows : List String) :
    (keptBelow above rows).IsChain Follows := by
  induction rows generalizing above with
  | nil => exact .nil
  | cons row rest ih =>
    rw [keptBelow]
    split
    · exact ih above
    · rename_i kept
      rw [List.isChain_cons]
      refine ⟨kept_below_under row rest ?_, ih (some row)⟩
      exact fun dropped => kept ⟨dropped.1, .inr dropped.2⟩

theorem kept_below_last (above : Option String) (rows : List String) :
    (keptBelow above rows).getLast? ≠ some "" := by
  induction rows generalizing above with
  | nil => exact nofun
  | cons row rest ih =>
    rw [keptBelow]
    split
    · exact ih above
    · rename_i kept
      cases later : keptBelow (some row) rest with
      | cons next more =>
        rw [List.getLast?_cons_cons, ← later]
        exact ih (some row)
      | nil =>
        rw [List.getLast?_singleton]
        intro blank
        cases blank
        have nothing := kept_below_head (some "") rest rfl
        rw [later] at nothing
        exact kept ⟨rfl, .inr (closes_below_nothing rest nothing.symm)⟩

theorem tidied_rows (source : String) : ∀ row ∈ tidied source, OneLine row ∧ Trimmed row := by
  intro row member
  obtain ⟨line, among, rfl⟩ := List.mem_map.mp (kept_below_subset none _ row member)
  exact ⟨Text.trim_end_line line (Text.lines_line source line among), Text.trimmed_trim_end line⟩

theorem tidied_orderly (source : String) : Orderly (tidied source) where
  trimmed row member := (tidied_rows source row member).2
  begins := by
    intro blank
    rw [tidied, kept_below_head none _ rfl] at blank
    exact find_text _ "" blank rfl
  ends := kept_below_last none _
  follow := kept_below_chain none _

theorem tidied_nothing (source : String) : tidied source = [] ↔ inked source = [] := by
  constructor
  · intro nothing
    by_contra given
    exact tidied_given source given nothing
  · intro nothing
    refine kept_below_blank none _ fun row member => ?_
    have blank := List.filter_eq_nil_iff.mp nothing row member
    simpa using blank

theorem tidy_nothing (source : String) (nothing : inked source = []) : tidy source = "\n" := by
  have rows : keptBelow none ((lines source).map trimEnd) = [] := (tidied_nothing source).mpr nothing
  rw [tidy, rows]
  rfl

theorem tidy_blank (source : String) : tidy source = "\n" ↔ Text.isAllBlank source = true := by
  rw [← Text.inked_nothing]
  constructor
  · intro alone
    rw [← inked_tidy, alone]
    rfl
  · exact tidy_nothing source

theorem tidy_normal (source : String) : Normal (tidy source) := by
  by_cases given : inked source = []
  · exact .inl (tidy_nothing source given)
  · refine .inr ⟨tidied source, tidy_closed source given, tidied_given source given, ?_, tidied_orderly source⟩
    exact fun row member => (tidied_rows source row member).1

theorem blank_stays (upper lower : String) (rest : List String) (above : Follows upper "")
    (below : Follows "" lower) :
    ¬(opensAbove (some upper) = true ∨ closesBelow (lower :: rest) = true) := by
  have text : lower ≠ "" := fun blank => below.single ⟨rfl, blank⟩
  have found : (lower :: rest).find? (fun line => line ≠ "") = some lower := by simp [text]
  rw [opens_above_some, closes_below_first _ lower found]
  intro dropped
  rcases dropped with (blank | opened) | closes
  · exact above.single ⟨blank, rfl⟩
  · exact above.opened opened rfl
  · exact below.closing closes rfl

theorem kept_below_whole (above : Option String) (rows : List String)
    (under : ∀ upper ∈ above, ∀ lower ∈ rows.head?, Follows upper lower)
    (begins : above = none → rows.head? ≠ some "") (ends : rows.getLast? ≠ some "")
    (follow : rows.IsChain Follows) : keptBelow above rows = rows := by
  induction rows generalizing above with
  | nil => rfl
  | cons row rest ih =>
    obtain ⟨next, later⟩ := List.isChain_cons.mp follow
    have kept : ¬(row = "" ∧ (opensAbove above = true ∨ closesBelow rest = true)) := by
      intro dropped
      obtain ⟨rfl, why⟩ := dropped
      cases above with
      | none => exact begins rfl rfl
      | some upper =>
        cases rest with
        | nil => exact ends rfl
        | cons lower more => exact blank_stays upper lower more (under upper rfl "" rfl) (next lower rfl) why
    have endsLater : rest.getLast? ≠ some "" := by
      cases rest with
      | nil => simp
      | cons lower more => rwa [List.getLast?_cons_cons] at ends
    rw [keptBelow, if_neg kept, ih (some row) ?_ (by simp) endsLater later]
    intro upper same
    cases same
    exact next

theorem normal_kept (text : String) (normal : Normal text) : tidy text = text := by
  rcases normal with rfl | ⟨rows, rfl, given, each, orderly⟩
  · rfl
  · have all : ∀ row ∈ rows, OneLine row ∧ Trimmed row :=
      fun row member => ⟨each row member, orderly.trimmed row member⟩
    have whole := kept_below_whole none rows nofun (fun _ => orderly.begins) orderly.ends orderly.follow
    rw [tidy, lines_closed rows all, Text.map_trimmed rows orderly.trimmed, whole, joined_closed rows given]

-- Tidied text is normal, and the normal texts are those that tidying leaves as they are. The line feed
-- alone stands for the texts without anything in them.
theorem tidy_normalizes (source : String) :
    Normal (tidy source) ∧ (tidy source = "\n" ↔ Text.isAllBlank source = true) ∧
      (tidy source = source ↔ Normal source) ∧ tidy (tidy source) = tidy source := by
  have normal := tidy_normal source
  refine ⟨normal, tidy_blank source, ?_, normal_kept _ normal⟩
  constructor
  · intro same
    exact same ▸ normal
  · exact normal_kept source

example : tidy "\n a \x7b\r\n\n\n  b \n \n\t\n c\n\n\x7d" = " a \x7b\n  b\n\n c\n\x7d\n" := by rfl

def texts (rows : List String) : List String := rows.filter fun row => !Text.isAllBlank row

-- Two lines with text that follow each other among the lines of a text, and what stands before, between and
-- after them.
structure Neighbours (rows before : List String) (upper : String) (gap : List String) (lower : String)
    (after : List String) : Prop where
  stand : rows = before ++ upper :: (gap ++ lower :: after)
  upperInk : Text.isAllBlank upper = false
  lowerInk : Text.isAllBlank lower = false
  blank : ∀ row ∈ gap, Text.isAllBlank row = true

theorem trim_end_ink (row : String) : trimEnd row ≠ "" ↔ Text.isAllBlank row = false := by
  rw [ne_eq, Text.trim_end_blank, Bool.not_eq_true]

theorem texts_trimmed (rows : List String) :
    (rows.map trimEnd).filter (fun row => row ≠ "") = (texts rows).map trimEnd := by
  rw [List.filter_map, texts]
  refine congrArg (List.map trimEnd) (List.filter_congr fun row _ => ?_)
  have ink := trim_end_ink row
  cases blank : Text.isAllBlank row <;> simp_all

theorem texts_same (rows : List String) (trimmed : ∀ row ∈ rows, Trimmed row) :
    texts rows = rows.filter fun row => row ≠ "" := by
  refine List.filter_congr fun row member => ?_
  have ink := trim_end_ink row
  rw [(Text.trimmed_iff row).mp (trimmed row member)] at ink
  cases blank : Text.isAllBlank row <;> simp_all

theorem lines_tidy (source : String) :
    lines (tidy source) = if inked source = [] then [""] else tidied source := by
  by_cases given : inked source = []
  · rw [tidy_nothing source given, if_pos given]
    rfl
  · rw [tidy_closed source given, if_neg given]
    exact lines_closed _ (tidied_rows source)

theorem lines_tidy_trimmed (source : String) : ∀ row ∈ lines (tidy source), Trimmed row := by
  intro row member
  rw [lines_tidy] at member
  split at member
  · rw [List.mem_singleton.mp member]
    exact nofun
  · exact (tidied_rows source row member).2

theorem tidy_texts (source : String) : texts (lines (tidy source)) = (texts (lines source)).map trimEnd := by
  have trimmed := lines_tidy_trimmed source
  have same := inked_tidy source
  rwa [inked, inked, Text.map_trimmed _ trimmed, ← texts_same _ trimmed, texts_trimmed] at same

-- What is left of a gap does not depend on how many blank lines it has.
theorem kept_below_gap (above : Option String) (gap : List String) (lower : String) (after : List String)
    (blank : ∀ row ∈ gap, row = "") (text : lower ≠ "") :
    ∃ space, keptBelow above (gap ++ lower :: after) = space ++ lower :: keptBelow (some lower) after ∧
      (∀ row ∈ space, row = "") ∧
      (space ≠ [] ↔ gap ≠ [] ∧ opensAbove above = false ∧ firstInk lower ≠ some '\x7d') := by
  induction gap generalizing above with
  | nil => exact ⟨[], kept_below_text above lower after text, nofun, by simp⟩
  | cons row rest ih =>
    obtain ⟨here, later⟩ := List.forall_mem_cons.mp blank
    subst here
    have found : (rest ++ lower :: after).find? (fun line => line ≠ "") = some lower := by
      have nothing : rest.find? (fun line => line ≠ "") = none := by simpa using later
      rw [List.find?_append, nothing]
      simp [text]
    have closes := closes_below_first _ lower found
    rw [List.cons_append, keptBelow]
    by_cases dropped : opensAbove above = true ∨ closesBelow (rest ++ lower :: after) = true
    · obtain ⟨space, same, bare, given⟩ := ih above later
      rw [if_pos ⟨rfl, dropped⟩]
      refine ⟨space, same, bare, ?_⟩
      rw [given]
      rw [closes] at dropped
      have never : ¬(opensAbove above = false ∧ firstInk lower ≠ some '\x7d') := by
        intro both
        rcases dropped with opens | closing
        · exact Bool.noConfusion (both.1.symm.trans opens)
        · exact both.2 closing
      exact ⟨fun held => absurd held.2 never, fun held => absurd held.2 never⟩
    · obtain ⟨space, same, bare, given⟩ := ih (some "") later
      have nothing : space = [] := by
        by_contra some_
        have closed_ := (given.mp some_).2.1
        cases closed_
      rw [if_neg fun both => dropped both.2, same, nothing]
      rw [closes, not_or, Bool.not_eq_true] at dropped
      exact ⟨[""], rfl, by simp, by simp [dropped]⟩

theorem kept_below_cut (above : Option String) (before : List String) (row : String) (rest : List String)
    (text : row ≠ "") :
    ∃ front, keptBelow above (before ++ row :: rest) = front ++ row :: keptBelow (some row) rest ∧
      front.filter (fun row => row ≠ "") = before.filter fun row => row ≠ "" := by
  induction before generalizing above with
  | nil => exact ⟨[], kept_below_text above row rest text, rfl⟩
  | cons first before ih =>
    rw [List.cons_append, keptBelow]
    split
    · rename_i dropped
      obtain ⟨front, same, filtered⟩ := ih above
      exact ⟨front, same, by simpa [dropped.1] using filtered⟩
    · obtain ⟨front, same, filtered⟩ := ih (some first)
      refine ⟨first :: front, congrArg (first :: ·) same, ?_⟩
      rw [List.filter_cons, List.filter_cons, filtered]

theorem kept_below_between (before : List String) (upper : String) (gap : List String) (lower : String)
    (after : List String) (blank : ∀ row ∈ gap, row = "") (upperText : upper ≠ "") (lowerText : lower ≠ "") :
    ∃ front space,
      keptBelow none (before ++ upper :: (gap ++ lower :: after)) =
        front ++ upper :: (space ++ lower :: keptBelow (some lower) after) ∧
      front.filter (fun row => row ≠ "") = before.filter (fun row => row ≠ "") ∧
      (∀ row ∈ space, row = "") ∧
      (space ≠ [] ↔ gap ≠ [] ∧ Text.endsWith upper '\x7b' = false ∧ firstInk lower ≠ some '\x7d') := by
  obtain ⟨front, cut, filtered⟩ := kept_below_cut none before upper (gap ++ lower :: after) upperText
  obtain ⟨space, same, bare, given⟩ := kept_below_gap (some upper) gap lower after blank lowerText
  have opens : opensAbove (some upper) = false ↔ Text.endsWith upper '\x7b' = false := by
    rw [← Bool.not_eq_true, ← Bool.not_eq_true, opens_above_some, or_iff_right upperText]
  rw [opens] at given
  exact ⟨front, space, by rw [cut, same], filtered, bare, given⟩

theorem tidy_keeps_lines (source : String) :
    texts (lines (tidy source)) = (texts (lines source)).map trimEnd ∧
      ∀ before upper gap lower after, Neighbours (lines source) before upper gap lower after →
        ∃ front space back,
          Neighbours (lines (tidy source)) front (trimEnd upper) space (trimEnd lower) back ∧
          texts front = (texts before).map trimEnd ∧
          (space ≠ [] ↔ gap ≠ [] ∧ Text.endsWith (trimEnd upper) '\x7b' = false ∧
            firstInk lower ≠ some '\x7d') := by
  refine ⟨tidy_texts source, ?_⟩
  intro before upper gap lower after neighbours
  have upperText := (trim_end_ink upper).mpr neighbours.upperInk
  have lowerText := (trim_end_ink lower).mpr neighbours.lowerInk
  have bareGap : ∀ row ∈ gap.map trimEnd, row = "" := by
    rw [List.forall_mem_map]
    exact fun row member => (Text.trim_end_blank row).mpr (neighbours.blank row member)
  obtain ⟨front, space, kept, filtered, bare, given⟩ := kept_below_between (before.map trimEnd)
    (trimEnd upper) (gap.map trimEnd) (trimEnd lower) (after.map trimEnd) bareGap upperText lowerText
  have stand : tidied source = front ++ trimEnd upper :: (space ++ trimEnd lower ::
      keptBelow (some (trimEnd lower)) (after.map trimEnd)) := by
    rw [← kept, tidied, neighbours.stand]
    simp
  have some_ : inked source ≠ [] := by
    rw [ne_eq, ← tidied_nothing, stand]
    simp
  have frontTrimmed : ∀ row ∈ front, Trimmed row := by
    intro row member
    exact (tidied_rows source row (stand ▸ List.mem_append_left _ member)).2
  have apart : Neighbours (lines (tidy source)) front (trimEnd upper) space (trimEnd lower)
      (keptBelow (some (trimEnd lower)) (after.map trimEnd)) := by
    refine ⟨?_, ?_, ?_, ?_⟩
    · rw [lines_tidy, if_neg some_, stand]
    · exact (Text.all_blank_trim_end upper).trans neighbours.upperInk
    · exact (Text.all_blank_trim_end lower).trans neighbours.lowerInk
    · intro row member
      rw [bare row member]
      rfl
  refine ⟨front, space, _, apart, ?_, ?_⟩
  · rw [texts_same front frontTrimmed, filtered, texts_trimmed]
  · rw [given, Text.first_ink_trim_end, ne_eq gap, ne_eq, List.map_eq_nil_iff]

def spreadClass : String := "class A \x7b  \n\n  a;\n\n \n  b;\r\n\n\x7d\n"

theorem spread_class_kept :
    Neighbours (lines spreadClass) ["class A \x7b  ", ""] "  a;" ["", " "] "  b;" ["", "\x7d"] ∧
      ∃ front space back, Neighbours (lines (tidy spreadClass)) front "  a;" space "  b;" back ∧
        texts front = ["class A \x7b"] ∧ space ≠ [] := by
  have apart : Neighbours (lines spreadClass) ["class A \x7b  ", ""] "  a;" ["", " "] "  b;" ["", "\x7d"] :=
    ⟨rfl, rfl, rfl, by decide⟩
  obtain ⟨front, space, back, kept, same, given⟩ := (tidy_keeps_lines spreadClass).2 _ _ _ _ _ apart
  exact ⟨apart, front, space, back, kept, same, given.mpr ⟨by simp, rfl, by decide⟩⟩

end Layout

end ProtocolStubs
