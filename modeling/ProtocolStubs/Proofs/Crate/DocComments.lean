import ProtocolStubs.Crate.Record
import ProtocolStubs.Proofs.Layout.Parts
import ProtocolStubs.Proofs.Layout.Strokes
import ProtocolStubs.Proofs.Schema.Notes

set_option autoImplicit false

namespace ProtocolStubs

open Text (isBlank lines OneLine split splitFrom trimEnd trimStart)

namespace Text

def firstLine (cs : List Char) : List Char := cs.takeWhile fun c => c ≠ '\n'

def further (cs : List Char) : List String := (splitFrom '\n' [] cs).tail

theorem split_from_first (held cs : List Char) :
    splitFrom '\n' held cs = String.ofList (held.reverse ++ firstLine cs) :: further cs := by
  induction cs generalizing held with
  | nil => simp [splitFrom, firstLine, further]
  | cons c cs ih =>
    by_cases feed : c = '\n'
    · simp [splitFrom, firstLine, further, feed]
    · have later : further (c :: cs) = further cs := by
        rw [further, splitFrom, if_neg feed, ih, List.tail_cons]
      rw [splitFrom, if_neg feed, ih, later]
      simp [firstLine, feed]

theorem further_feed (cs : List Char) : further ('\n' :: cs) = String.ofList (firstLine cs) :: further cs := by
  rw [further, splitFrom, if_pos rfl, split_from_first]
  rfl

theorem further_other (c : Char) (cs : List Char) (other : c ≠ '\n') : further (c :: cs) = further cs := by
  rw [further, splitFrom, if_neg other, split_from_first]
  rfl

theorem further_behind (front cs : List Char) (free : '\n' ∉ front) : further (front ++ cs) = further cs := by
  induction front with
  | nil => rfl
  | cons c front ih =>
    rw [List.mem_cons, not_or] at free
    rw [List.cons_append, further_other c _ (Ne.symm free.1), ih free.2]

theorem first_line_free (before after : List Char) (free : '\n' ∉ before) :
    firstLine (before ++ after) = before ++ firstLine after :=
  List.takeWhile_append_of_pos fun _ member => decide_eq_true fun feed => free (feed ▸ member)

theorem first_line_cut (before after : List Char) (feed : '\n' ∈ before) :
    firstLine (before ++ after) = firstLine before := by
  obtain ⟨front, back, rfl, free⟩ := List.eq_append_cons_of_mem feed
  rw [List.append_assoc, first_line_free front _ free, first_line_free front _ free]
  rfl

theorem lines_from_all (holds : String → Prop)
    (carriage : ∀ held, holds (String.ofList (dropCarriage held).reverse) ↔
      holds (String.ofList held.reverse)) (held cs : List Char) (given : held ≠ [] ∨ cs ≠ [])
    (ends : cs.getLast? ≠ some '\n') :
    (∀ line ∈ (linesFrom held cs).map String.ofList, holds line) ↔
      ∀ part ∈ splitFrom '\n' held cs, holds part := by
  induction cs generalizing held with
  | nil =>
    have some_ : held.isEmpty = false := List.isEmpty_eq_false_iff.mpr (given.resolve_right fun none_ => none_ rfl)
    simp [linesFrom, splitFrom, some_]
  | cons c cs ih =>
    rw [linesFrom, splitFrom]
    split
    · rename_i feed
      have more : cs ≠ [] := by
        rintro rfl
        exact ends (congrArg some feed)
      rw [List.getLast?_cons_of_ne_nil more] at ends
      rw [List.map_cons, List.forall_mem_cons, List.forall_mem_cons, carriage, ih [] (.inr more) ends]
    · refine ih (c :: held) (.inl (List.cons_ne_nil _ _)) fun last => ends ?_
      rw [List.getLast?_cons, last]
      rfl

end Text

open Text (firstLine further)

namespace Crate

open Layout
open Layout.Comment (slash slashTag)

def slashes : List Char := ['/', '/', '/']

-- Behind slashes, whatever blanks stand before these.
def Commented (row : String) : Prop := slashes <+: (trimStart row).toList

instance (row : String) : Decidable (Commented row) :=
  inferInstanceAs (Decidable (slashes <+: (trimStart row).toList))

theorem commented_behind (cs : List Char) : Commented (String.ofList ('/' :: '/' :: '/' :: cs)) := by
  have seen : isBlank '/' = false := by decide
  rw [Commented, trimStart, String.toList_ofList, String.toList_ofList, Text.dropBlanks,
    List.dropWhile_cons_of_neg (by simp [seen])]
  exact List.prefix_append slashes cs

theorem commented_cut (before after : List Char) (x : Char) (other : x ≠ '/')
    (last : isBlank x = true → after = []) :
    Commented (String.ofList (before ++ x :: after)) ↔ Commented (String.ofList before) := by
  have free : x ∉ slashes := by simpa [slashes] using other
  have cut : slashes <+: Text.dropBlanks (before ++ x :: after) ↔ slashes <+: Text.dropBlanks before := by
    rw [Text.dropBlanks, Text.dropBlanks, List.dropWhile_append]
    split
    · rename_i blanks
      rw [List.isEmpty_iff.mp blanks]
      cases shown : isBlank x with
      | true => simp [last shown, shown]
      | false =>
        rw [List.dropWhile_cons_of_neg (by simp [shown])]
        exact Text.prefix_cut slashes [] after x free
    · exact Text.prefix_cut slashes _ after x free
  rw [Commented, Commented, trimStart, trimStart]
  simpa only [String.toList_ofList] using cut

theorem commented_carriage (held : List Char) :
    Commented (String.ofList (Text.dropCarriage held).reverse) ↔ Commented (String.ofList held.reverse) := by
  unfold Text.dropCarriage
  split
  · rw [List.reverse_cons]
    exact (commented_cut _ [] '\r' (by decide) fun _ => rfl).symm
  · rfl

def Continued (cs : List Char) : Prop := ∀ part ∈ further cs, Commented part

theorem continued_single (cs : List Char) (free : '\n' ∉ cs) : Continued cs := by
  have none_ := Text.further_behind cs [] free
  rw [List.append_nil] at none_
  rw [Continued, none_]
  exact nofun

-- A visible character that is no slash parts the further lines before it from those after it.
theorem continued_cut (before after : List Char) (x : Char) (other : x ≠ '/') (shown : isBlank x = false) :
    Continued (before ++ x :: after) ↔ Continued before ∧ Continued after := by
  have feed : x ≠ '\n' := by
    rintro rfl
    cases shown
  induction before with
  | nil =>
    rw [List.nil_append, Continued, Text.further_other x after feed]
    exact (and_iff_right (continued_single [] List.not_mem_nil)).symm
  | cons c before ih =>
    rw [List.cons_append]
    by_cases ends : c = '\n'
    · subst ends
      have first : Commented (String.ofList (firstLine (before ++ x :: after))) ↔
          Commented (String.ofList (firstLine before)) := by
        by_cases inside : '\n' ∈ before
        · rw [Text.first_line_cut before _ inside]
        · have step : firstLine (x :: after) = x :: firstLine after := by simp [firstLine, feed]
          have nothing : firstLine [] = [] := rfl
          have whole := Text.first_line_free before [] inside
          rw [nothing, List.append_nil] at whole
          rw [Text.first_line_free before _ inside, step, whole]
          exact commented_cut before _ x other fun blank => absurd (shown.symm.trans blank) (by decide)
      rw [Continued, Text.further_feed, List.forall_mem_cons, first, Continued, Text.further_feed,
        List.forall_mem_cons, and_assoc]
      exact and_congr_right fun _ => ih
    · rw [Continued, Text.further_other c _ ends, Continued, Text.further_other c _ ends]
      exact ih

def ticked (value : String) : String := "`" ++ value ++ "`"

def listed (values : List String) : String := Text.joinWith ", " (values.map ticked)

theorem continued_ticked (value : String) : Continued (ticked value).toList ↔ Continued value.toList := by
  have spelled : (ticked value).toList = [] ++ '`' :: (value.toList ++ '`' :: []) := by simp [ticked]
  have nothing := continued_single [] List.not_mem_nil
  rw [spelled, continued_cut _ _ '`' (by decide) rfl, continued_cut _ _ '`' (by decide) rfl]
  simp [nothing]

theorem continued_listed (values : List String) :
    Continued (listed values).toList ↔ ∀ value ∈ values, Continued value.toList := by
  induction values with
  | nil => exact ⟨fun _ => nofun, fun _ => continued_single [] List.not_mem_nil⟩
  | cons value rest ih =>
    rw [List.forall_mem_cons, ← ih, ← continued_ticked value]
    cases rest with
    | nil =>
      have nothing : Continued (listed []).toList := continued_single [] List.not_mem_nil
      have single : listed [value] = ticked value := by simp [listed, Text.joinWith]
      rw [single, and_iff_left nothing]
    | cons next rest =>
      have spelled : (listed (value :: next :: rest)).toList =
          (ticked value).toList ++ ',' :: (' ' :: (listed (next :: rest)).toList) := by
        simp [listed, Text.joinWith, List.intercalate_cons_cons]
      have behind : Continued (' ' :: (listed (next :: rest)).toList) ↔
          Continued (listed (next :: rest)).toList := by
        rw [Continued, Text.further_other ' ' _ (by decide)]
        rfl
      rw [spelled, continued_cut _ _ ',' (by decide) rfl, behind]

def docRows (doc : List String) : List String := (doc.map (Pen.commentLine "///")).flatMap lines

def AllCommented (doc : List String) : Prop := ∀ row ∈ docRows doc, Commented row

theorem all_commented_append (first second : List String) :
    AllCommented (first ++ second) ↔ AllCommented first ∧ AllCommented second := by
  rw [AllCommented, docRows, List.map_append, List.flatMap_append]
  exact List.forall_mem_append

theorem comment_line_front (text : String) : ∃ tail, Pen.commentLine "///" text = "///" ++ tail := by
  rw [Pen.commentLine]
  split
  · exact ⟨"", rfl⟩
  · exact ⟨" " ++ trimEnd text, String.append_assoc⟩

theorem comment_line_single (text : String) (single : OneLine text) : OneLine (Pen.commentLine "///" text) := by
  have trimmed := Text.trim_end_line text single
  rw [Pen.commentLine]
  split
  · decide
  · simpa [OneLine] using trimmed

theorem singles_commented (doc : List String) (single : ∀ line ∈ doc, OneLine line) : AllCommented doc := by
  intro row member
  obtain ⟨text, among, stands⟩ := List.mem_flatMap.mp member
  obtain ⟨line, given, rfl⟩ := List.mem_map.mp among
  obtain ⟨tail, front⟩ := comment_line_front line
  have text : Pen.commentLine "///" line ≠ "" := by
    rw [front]
    simp
  rw [Text.lines_single _ (comment_line_single line (single line given)) text] at stands
  rw [List.mem_singleton.mp stands, front, ← String.ofList_toList (s := "///" ++ tail)]
  simpa using commented_behind tail.toList

theorem allowed_line (values : List String) :
    Pen.commentLine "///" ("Allowed values: " ++ listed values ++ ".") =
      "/// Allowed values: " ++ listed values ++ "." := by
  have shown : Text.isAllBlank ("Allowed values: " ++ listed values ++ ".") = false := by
    simp [Text.isAllBlank, isBlank]
  have ends : trimEnd "." = "." := by decide
  rw [Pen.commentLine, if_neg (by simp [shown]), Text.trim_end_append _ "." (by decide), ends]
  exact String.toList_injective (by simp)

theorem allowed_commented (values : List String) :
    AllCommented ["Allowed values: " ++ listed values ++ "."] ↔
      ∀ value ∈ values, Continued value.toList := by
  have spelled : ("/// Allowed values: " ++ listed values ++ ".").toList =
      "/// Allowed values: ".toList ++ ((listed values).toList ++ '.' :: []) := by simp
  have ends : ("/// Allowed values: " ++ listed values ++ ".").toList.getLast? ≠ some '\n' := by
    rw [spelled, ← List.append_assoc, List.getLast?_concat]
    decide
  have given : ("/// Allowed values: " ++ listed values ++ ".").toList ≠ [] := by simp
  have parts := Text.lines_from_all Commented commented_carriage [] _ (.inr given) ends
  have first : Commented (String.ofList
      ([].reverse ++ firstLine ("/// Allowed values: " ++ listed values ++ ".").toList)) := by
    rw [spelled, Text.first_line_free _ _ (by decide)]
    exact commented_behind _
  rw [AllCommented, docRows, List.map_singleton, List.flatMap_singleton, allowed_line, lines, parts,
    Text.split_from_first, List.forall_mem_cons, and_iff_right first]
  change Continued _ ↔ _
  rw [spelled, Continued, Text.further_behind _ _ (by decide)]
  change Continued _ ↔ _
  rw [continued_cut _ _ '.' (by decide) rfl, continued_listed,
    and_iff_left (continued_single [] List.not_mem_nil)]

-- No value of an enumeration goes on in a line that is not behind slashes.
def ValuesContinued (d : Definition) : Prop :=
  ∀ values, d.shape = .enumeration values → ∀ value ∈ values, ∀ part ∈ (split '\n' value).tail, Commented part

theorem values_commented (d : Definition) : AllCommented (allowedValues d) ↔ ValuesContinued d := by
  rw [allowedValues, ValuesContinued]
  cases shape : d.shape with
  | enumeration values =>
    simp only [Shape.enumeration.injEq, forall_eq']
    exact allowed_commented values
  | _ => simp [AllCommented, docRows]

theorem notes_commented (n : Notes) : AllCommented (n.lines slashTag) :=
  singles_commented _ (n.lines_single slashTag Notes.slash_tags_single)

section Written

variable (indent : String) (level : Nat) (out : String)

def penAfter (rows : List String) : Pen :=
  ⟨indent, level, true, out ++ page indent (rows.map fun row => (level, row))⟩

theorem slash_written (doc : List String) :
    Code.writeAll ⟨indent, level, true, out⟩ (slash doc) = penAfter indent level out (docRows doc) := by
  have each : ∀ (texts : List String) (p : Pen),
      Code.writeAll p (texts.map Code.line) = texts.foldl Pen.line p := by
    intro texts
    induction texts with
    | nil => exact fun _ => rfl
    | cons text rest ih => exact fun p => ih (p.line text)
  have texts : slash doc = (doc.map (Pen.commentLine "///")).map Code.line := by
    rw [List.map_map]
    rfl
  have rows : (doc.map (Pen.commentLine "///")).flatMap (linesAt level) =
      (docRows doc).map fun row => (level, row) := by
    rw [docRows, List.map_flatMap]
    refine List.flatMap_congr fun text member => ?_
    obtain ⟨line, _, rfl⟩ := List.mem_map.mp member
    obtain ⟨tail, front⟩ := comment_line_front line
    rw [linesAt, if_neg]
    rw [front]
    simp
  rw [texts, each, Pen.lines_written, rows]
  rfl

end Written

def Field.memberCode (runtime : String) (f : Field) : List Code :=
  (if f.attributes.isEmpty then []
    else [.line ("#[facet(" ++ Text.joinWith ", " f.attributes ++ ")]")]) ++
  (if f.recursive then [.line "#[facet(recursive_type)]"] else []) ++
  [.line ("pub " ++ f.name ++ ": " ++ f.typeText runtime ++ ",")]

theorem Field.code_parts (runtime : String) (f : Field) :
    f.code runtime = slash f.doc ++ f.memberCode runtime := by
  simp only [code, memberCode, List.append_assoc]

namespace NamedType

def doc : NamedType → List String
  | .record r => r.doc
  | .alias doc _ _ => doc

def itemCode (runtime : String) : NamedType → List Code
  | .record r => .line "#[derive(Debug, Facet)]" ::
    Code.block ("pub struct " ++ r.name) (r.fields.flatMap (Field.code runtime))
  | .alias _ name type => [.line ("pub type " ++ name ++ " = " ++ type.text runtime ++ ";")]

theorem code_parts (runtime : String) (t : NamedType) :
    t.code runtime = slash t.doc ++ t.itemCode runtime := by
  cases t <;> rfl

end NamedType

-- The doc comment of a field or a named type is written first, and its lines are behind slashes exactly if no
-- allowed value goes on in a line that is not. Records show no values of their own.
theorem documentation_commented (index : TypeIndex) (domain runtime indent : String) (level : Nat)
    (out : String) :
    (∀ (owner : Option String) (p : Property),
      Code.writeAll ⟨indent, level, true, out⟩ ((Field.ofProperty index domain owner p).code runtime) =
        Code.writeAll (penAfter indent level out (docRows (Field.ofProperty index domain owner p).doc))
          ((Field.ofProperty index domain owner p).memberCode runtime) ∧
      (AllCommented (Field.ofProperty index domain owner p).doc ↔ ValuesContinued p.definition)) ∧
    (∀ t : TypeDef,
      Code.writeAll ⟨indent, level, true, out⟩ ((NamedType.ofTypeDef index domain t).code runtime) =
        Code.writeAll (penAfter indent level out (docRows (NamedType.ofTypeDef index domain t).doc))
          ((NamedType.ofTypeDef index domain t).itemCode runtime) ∧
      (AllCommented (NamedType.ofTypeDef index domain t).doc ↔
        (t.properties = none → ValuesContinued t.definition))) := by
  refine ⟨fun owner p => ⟨?_, ?_⟩, fun t => ⟨?_, ?_⟩⟩
  · rw [Field.code_parts, Code.write_all_append, slash_written]
  · change AllCommented (Field.docLines p) ↔ _
    rw [Field.docLines, all_commented_append, and_iff_right (notes_commented _), values_commented]
  · rw [NamedType.code_parts, Code.write_all_append, slash_written]
  · rw [NamedType.ofTypeDef]
    cases t.properties with
    | some properties => exact ⟨fun _ => nofun, fun _ => notes_commented _⟩
    | none =>
      rw [NamedType.doc, all_commented_append, and_iff_right (notes_commented _), values_commented]
      simp

theorem broken_value_escapes :
    ¬∀ (index : TypeIndex) (domain : String) (t : TypeDef),
      AllCommented (NamedType.ofTypeDef index domain t).doc := by
  intro commented
  have row := commented ⟨[], []⟩ "D" ⟨"A", none, some "string", some ["x\ny"], none, none, none, none⟩
    "y`." (by decide)
  exact absurd row (by decide)

end Crate

end ProtocolStubs
