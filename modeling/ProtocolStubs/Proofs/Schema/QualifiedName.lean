import ProtocolStubs.Schema.Name

set_option autoImplicit false

namespace ProtocolStubs

structure Names (text domain member : String) : Prop where
  spelled : text = qualified domain member
  domainGiven : domain ≠ ""
  memberGiven : member ≠ ""
  domainFree : '.' ∉ domain.toList
  memberFree : '.' ∉ member.toList

theorem qualified_chars (domain member : String) :
    (qualified domain member).toList = domain.toList ++ '.' :: member.toList := by
  simp [qualified]

theorem cut_qualified (domain member : String) (free : '.' ∉ domain.toList) :
    cutAtDot (qualified domain member).toList = some (domain.toList, member.toList) := by
  rw [qualified_chars]
  exact cutAtDot_append domain.toList member.toList free

theorem given_chars (s : String) : s.toList ≠ [] ↔ s ≠ "" :=
  not_congr String.toList_eq_nil_iff

namespace QualifiedName

theorem names_parse (raw domain member : String) (names : Names raw domain member) :
    parse raw = .ok ⟨domain, member⟩ := by
  have domainChars := (given_chars domain).mpr names.domainGiven
  have memberChars := (given_chars member).mpr names.memberGiven
  have bothGiven : ¬(domain.toList = [] ∨ member.toList = []) :=
    fun empty => empty.elim domainChars memberChars
  rw [parse, names.spelled, cut_qualified domain member names.domainFree]
  simp only [if_neg names.memberFree, if_neg bothGiven, String.ofList_toList]

theorem parse_names (raw : String) (name : QualifiedName) :
    parse raw = .ok name ↔ Names raw name.domain name.member := by
  constructor
  · intro parsed
    cases found : cutAtDot raw.toList with
    | none =>
      rw [parse, found] at parsed
      cases parsed
    | some cut =>
      obtain ⟨before, after⟩ := cut
      obtain ⟨whole, beforeFree⟩ := cutAtDot_eq_some found
      simp only [parse, found] at parsed
      split at parsed
      · cases parsed
      · rename_i afterFree
        split at parsed
        · cases parsed
        · rename_i bothGiven
          cases parsed
          rw [not_or] at bothGiven
          refine ⟨?_, ?_, ?_, ?_, ?_⟩
          · apply String.toList_injective
            rw [qualified_chars, String.toList_ofList, String.toList_ofList]
            exact whole
          · exact (given_chars _).mp (by simpa using bothGiven.1)
          · exact (given_chars _).mp (by simpa using bothGiven.2)
          · simpa using beforeFree
          · simpa using afterFree
  · intro names
    exact names_parse raw name.domain name.member names

end QualifiedName

theorem names_unique (text domain member other : String) (first : Names text domain member)
    (second : Names text domain other) : member = other := by
  have parsed := QualifiedName.names_parse text domain member first
  rw [QualifiedName.names_parse text domain other second] at parsed
  cases parsed
  rfl

def dots (text : String) : Nat := text.toList.count '.'

theorem dots_free (text : String) : dots text = 0 ↔ '.' ∉ text.toList := List.count_eq_zero

theorem dots_qualified (domain member : String) :
    dots (qualified domain member) = dots domain + 1 + dots member := by
  rw [dots, qualified_chars, List.count_append, List.count_cons_self, dots, dots]
  omega

theorem first_dot (raw : String) :
    dots raw = 0 ∨ ∃ domain member, raw = qualified domain member ∧ dots domain = 0 := by
  cases cut : cutAtDot raw.toList with
  | none => exact .inl ((dots_free raw).mpr ((cutAtDot_eq_none_iff _).mp cut))
  | some sides =>
    obtain ⟨before, after⟩ := sides
    obtain ⟨whole, free⟩ := cutAtDot_eq_some cut
    refine .inr ⟨String.ofList before, String.ofList after, ?_, ?_⟩
    · apply String.toList_injective
      simpa [qualified_chars] using whole
    · rw [dots_free]
      simpa using free

inductive Misnamed (raw : String) : NameError → Prop where
  | undotted (none : dots raw = 0) : Misnamed raw (.missingSeparator raw)
  | overdotted (many : 2 ≤ dots raw) : Misnamed raw (.tooManySeparators raw)
  | lopsided (part : String) (one : dots raw = 1) (bare : raw = "." ++ part ∨ raw = part ++ ".") :
    Misnamed raw (.emptySegment raw)

structure QualifiedName.Plain (name : QualifiedName) : Prop where
  domainGiven : name.domain ≠ ""
  memberGiven : name.member ≠ ""
  domainFree : dots name.domain = 0
  memberFree : dots name.member = 0

namespace QualifiedName

theorem names_plain (raw : String) (name : QualifiedName) :
    Names raw name.domain name.member ↔ raw = name.toText ∧ name.Plain := by
  constructor
  · intro names
    exact ⟨names.spelled, names.domainGiven, names.memberGiven, (dots_free _).mpr names.domainFree,
      (dots_free _).mpr names.memberFree⟩
  · intro given
    obtain ⟨spelled, plain⟩ := given
    exact ⟨spelled, plain.domainGiven, plain.memberGiven, (dots_free _).mp plain.domainFree,
      (dots_free _).mp plain.memberFree⟩

theorem parse_printed (name : QualifiedName) (plain : name.Plain) : parse name.toText = .ok name :=
  (parse_names _ name).mpr ((names_plain _ name).mpr ⟨rfl, plain⟩)

theorem parse_lopsided (domain member : String) (one : dots (qualified domain member) = 1)
    (bare : domain = "" ∨ member = "") :
    parse (qualified domain member) = .error (.emptySegment (qualified domain member)) := by
  rw [dots_qualified] at one
  have domainFree := (dots_free domain).mp (by omega)
  have memberFree := (dots_free member).mp (by omega)
  have empty : domain.toList = [] ∨ member.toList = [] := by simpa using bare
  rw [parse, cut_qualified domain member domainFree]
  simp only [if_neg memberFree, if_pos empty]

theorem parse_overdotted (raw : String) (many : 2 ≤ dots raw) :
    parse raw = .error (.tooManySeparators raw) := by
  rcases first_dot raw with none | ⟨domain, member, rfl, domainFree⟩
  · omega
  · rw [dots_qualified] at many
    have memberDotted : '.' ∈ member.toList := by
      have some_ : dots member ≠ 0 := by omega
      rwa [ne_eq, dots_free, Decidable.not_not] at some_
    rw [parse, cut_qualified domain member ((dots_free domain).mp domainFree)]
    exact if_pos memberDotted

theorem parse_misnamed (raw : String) (error : NameError) (misnamed : Misnamed raw error) :
    parse raw = .error error := by
  cases misnamed with
  | undotted none =>
    rw [parse, (cutAtDot_eq_none_iff _).mpr ((dots_free raw).mp none)]
  | overdotted many => exact parse_overdotted raw many
  | lopsided part one bare =>
    have before : qualified "" part = "." ++ part := by simp [qualified]
    have behind : qualified part "" = part ++ "." := by simp [qualified]
    by_cases lead : raw = "." ++ part
    · rw [lead, ← before] at one ⊢
      exact parse_lopsided "" part one (.inl rfl)
    · rw [bare.resolve_left lead, ← behind] at one ⊢
      exact parse_lopsided part "" one (.inr rfl)

theorem unplain_misnamed (name : QualifiedName) (other : ¬ name.Plain) :
    ∃ error, Misnamed name.toText error := by
  have count : dots name.toText = dots name.domain + 1 + dots name.member :=
    dots_qualified name.domain name.member
  by_cases many : 2 ≤ dots name.toText
  · exact ⟨_, .overdotted many⟩
  · have one : dots name.toText = 1 := by omega
    by_cases domainGiven : name.domain = ""
    · exact ⟨_, .lopsided name.member one (.inl (by simp [toText, qualified, domainGiven]))⟩
    · by_cases memberGiven : name.member = ""
      · exact ⟨_, .lopsided name.domain one (.inr (by simp [toText, qualified, memberGiven]))⟩
      · exact absurd ⟨domainGiven, memberGiven, by omega, by omega⟩ other

theorem printed_or_misnamed (raw : String) :
    (∃ name : QualifiedName, raw = name.toText ∧ name.Plain) ∨ ∃ error, Misnamed raw error := by
  rcases first_dot raw with none | ⟨domain, member, rfl, -⟩
  · exact .inr ⟨_, .undotted none⟩
  · by_cases plain : Plain ⟨domain, member⟩
    · exact .inl ⟨⟨domain, member⟩, rfl, plain⟩
    · exact .inr (unplain_misnamed ⟨domain, member⟩ plain)

theorem parse_error (raw : String) (error : NameError) : parse raw = .error error ↔ Misnamed raw error := by
  constructor
  · intro refused
    rcases printed_or_misnamed raw with ⟨name, rfl, plain⟩ | ⟨other, misnamed⟩
    · rw [parse_printed name plain] at refused
      cases refused
    · rw [parse_misnamed raw other misnamed] at refused
      cases refused
      exact misnamed
  · exact parse_misnamed raw error

-- Parsing accepts the names that printing produces from plain ones, and tells of every other text why it
-- is none.
theorem parse_exact (raw : String) (name : QualifiedName) :
    (parse raw = .ok name ↔ Names raw name.domain name.member) ∧
      (∀ error, parse raw = .error error ↔ Misnamed raw error) ∧
      (parse raw = .ok name → name.toText = raw) ∧
      (name.Plain → parse name.toText = .ok name) ∧
      (¬ name.Plain → ∃ error, parse name.toText = .error error) := by
  refine ⟨parse_names raw name, parse_error raw, ?_, parse_printed name, ?_⟩
  · intro parsed
    exact ((parse_names raw name).mp parsed).spelled.symm
  · intro other
    obtain ⟨error, misnamed⟩ := unplain_misnamed name other
    exact ⟨error, parse_misnamed _ error misnamed⟩

-- Too many dots are told before an empty part is.
example : parse ".a." = .error (.tooManySeparators ".a.") := by rfl

end QualifiedName

end ProtocolStubs
